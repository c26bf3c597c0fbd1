import Mathlib.Logic.Function.Basic
import Mathlib.Data.List.Perm.Basic
import IdempotentProxy.Foundations.EventRuns

/-!
The canister's proxy tokens: the timer's `refresh_proxy_token` and the manager's
`admin_set_agents` both end in `update_proxy_token`, which signs one token for
each distinct agent name, awaits every signature, and writes the whole list back.
Between two awaits the code is atomic. Signing calls succeed; the token one
returns is part of the event that resumes the call.
-/
namespace ProxyTokens
open EventRuns

structure Agent where
  name : String
  endpoint : String
  maxCycles : UInt64
  proxyToken : Option String
  deriving DecidableEq

def Agent.config (a : Agent) : String × String × UInt64 := (a.name, a.endpoint, a.maxCycles)

def configs (agents : List Agent) : List (String × String × UInt64) := agents.map Agent.config

def Agent.withToken (a : Agent) (token : String) : Agent := { a with proxyToken := some token }

structure Awaiting where
  done : List Agent
  agent : Agent
  rest : List Agent
  tokens : String → Option String

inductive Progress where
  | awaiting (await : Awaiting)
  | finished (agents : List Agent)

/-- The loop over the agents from `rest` on, up to its next await. -/
def advance (tokens : String → Option String) (done : List Agent) : List Agent → Progress
  | [] => .finished done
  | agent :: rest =>
      match tokens agent.name with
      | some token => advance tokens (done ++ [agent.withToken token]) rest
      | none => .awaiting ⟨done, agent, rest, tokens⟩

def updateProxyToken (agents : List Agent) : Progress := advance (fun _ => none) [] agents

def Awaiting.resume (await : Awaiting) (token : String) : Progress :=
  advance (Function.update await.tokens await.agent.name (some token))
    (await.done ++ [await.agent.withToken token]) await.rest

def Awaiting.configs (await : Awaiting) : List (String × String × UInt64) :=
  ProxyTokens.configs (await.done ++ await.agent :: await.rest)

def Progress.configs : Progress → List (String × String × UInt64)
  | .awaiting await => await.configs
  | .finished agents => ProxyTokens.configs agents

def Progress.isFinished : Progress → Bool
  | .awaiting _ => false
  | .finished _ => true

structure Task where
  admin : Bool
  given : List Agent
  await : Awaiting
  same : await.configs = configs given

/-- `lastSet` records the list of the `admin_set_agents` call that completed last,
    at first the initial list. -/
structure System where
  agents : List Agent
  lastSet : List Agent
  tasks : List Task

inductive Event where
  | refresh
  | setAgents (agents : List Agent)
  | signed (i : Nat) (token : String)
  deriving DecidableEq

def System.start (agents : List Agent) : System := ⟨agents, agents, []⟩

def System.settle (s : System) (admin : Bool) (given : List Agent) (progress : Progress)
    (same : progress.configs = configs given) : System :=
  match progress, same with
  | .awaiting await, same => { s with tasks := s.tasks ++ [⟨admin, given, await, same⟩] }
  | .finished agents, _ =>
      { s with agents := agents, lastSet := if admin then given else s.lastSet }

theorem advance_configs (tokens : String → Option String) (done rest : List Agent) :
    (advance tokens done rest).configs = configs (done ++ rest) := by
  induction rest generalizing done with
  | nil => simp [advance, Progress.configs]
  | cons agent rest ih =>
    unfold advance
    split
    · rw [ih]
      simp [configs, Agent.config, Agent.withToken]
    · rfl

theorem update_configs (agents : List Agent) :
    (updateProxyToken agents).configs = configs agents := advance_configs _ _ _

theorem resume_configs (await : Awaiting) (token : String) :
    (await.resume token).configs = await.configs := by
  rw [Awaiting.resume, advance_configs]
  simp [Awaiting.configs, configs, Agent.config, Agent.withToken]

/-- Both callers of `update_proxy_token`; an empty list returns at once. -/
def System.call (s : System) (admin : Bool) (agents : List Agent) : System :=
  if agents.isEmpty then s
  else s.settle admin agents (updateProxyToken agents) (update_configs agents)

/-- `admin_set_agents` rejects an empty list before it gets to the call. -/
def step (s : System) : Event → Option System
  | .refresh => some (s.call false s.agents)
  | .setAgents agents => some (s.call true agents)
  | .signed i token =>
      match s.tasks[i]? with
      | none => none
      | some task =>
          some ({ s with tasks := s.tasks.eraseIdx i }.settle task.admin task.given
            (task.await.resume token) ((resume_configs task.await token).trans task.same))

def AdminInFlight (s : System) : Prop := ∃ task ∈ s.tasks, task.admin = true

instance (s : System) : Decidable (AdminInFlight s) :=
  inferInstanceAs (Decidable (∃ task ∈ s.tasks, task.admin = true))

/-- With no `admin_set_agents` in flight the agents are those set last. -/
def NoLostUpdate (s : System) : Prop :=
  ¬ AdminInFlight s → configs s.agents = configs s.lastSet

/-- A refresh that writes back replaces a list with the configuration it read,
    unless an `admin_set_agents` in flight is to replace the list anyway. -/
def ReplacesWhatItRead (s : System) : Event → Prop
  | .signed i token => ∀ task ∈ s.tasks[i]?, task.admin = false →
      (task.await.resume token).isFinished = true → ¬ AdminInFlight s →
      configs s.agents = configs task.given
  | _ => True

instance (s : System) (e : Event) : Decidable (ReplacesWhatItRead s e) := by
  cases e <;> simp only [ReplacesWhatItRead] <;> infer_instance

theorem admin_settled {s : System} {given : List Agent} {progress : Progress}
    (same : progress.configs = configs given) :
    NoLostUpdate (s.settle true given progress same) := by
  cases progress with
  | awaiting await =>
    intro idle
    exact absurd ⟨_, List.mem_append_right _ (List.mem_singleton_self _), rfl⟩ idle
  | finished agents =>
    intro _
    exact same

theorem refresh_settled {s : System} {given : List Agent} {progress : Progress}
    (same : progress.configs = configs given) :
    (AdminInFlight (s.settle false given progress same) ↔ AdminInFlight s) ∧
      configs (s.settle false given progress same).agents =
        (if progress.isFinished then configs given else configs s.agents) ∧
      (s.settle false given progress same).lastSet = s.lastSet := by
  cases progress with
  | awaiting await =>
    simp [System.settle, AdminInFlight, Progress.isFinished, or_and_right, exists_or]
  | finished agents =>
    exact ⟨Iff.rfl, same, rfl⟩

theorem take_call {α : Type} {calls : List α} {n : Nat} {f : α} (found : calls[n]? = some f) :
    calls.Perm (f :: calls.eraseIdx n) := by
  obtain ⟨bound, value⟩ := List.getElem?_eq_some_iff.mp found
  subst value
  exact (List.getElem_cons_eraseIdx_perm bound).symm

theorem admin_in_flight_erase {s : System} {i : Nat} {task : Task} (found : s.tasks[i]? = some task)
    (timer : task.admin = false) :
    AdminInFlight { s with tasks := s.tasks.eraseIdx i } ↔ AdminInFlight s := by
  simp only [AdminInFlight, (take_call found).mem_iff, List.mem_cons]
  constructor
  · rintro ⟨other, mem, admin⟩
    exact ⟨other, Or.inr mem, admin⟩
  · rintro ⟨other, same | mem, admin⟩
    · rw [same, timer] at admin
      cases admin
    · exact ⟨other, mem, admin⟩

theorem step_no_lost_update_iff {s t : System} {e : Event} (before : NoLostUpdate s)
    (moved : step s e = some t) : NoLostUpdate t ↔ ReplacesWhatItRead s e := by
  cases e with
  | refresh =>
    cases moved
    refine iff_of_true ?_ trivial
    unfold System.call
    split
    · exact before
    · obtain ⟨flight, agents, last⟩ :=
        refresh_settled (s := s) (update_configs s.agents)
      intro idle
      rw [flight] at idle
      rw [agents, last, ite_self]
      exact before idle
  | setAgents agents =>
    cases moved
    refine iff_of_true ?_ trivial
    unfold System.call
    split
    · exact before
    · exact admin_settled _
  | signed i token =>
    simp only [step] at moved
    split at moved
    · cases moved
    · rename_i task found
      cases moved
      obtain ⟨admin, given, await, same⟩ := task
      cases admin with
      | true =>
        refine iff_of_true (admin_settled _) ?_
        intro other here timer
        cases found.symm.trans here
        cases timer
      | false =>
        obtain ⟨flight, agents, last⟩ := refresh_settled
          (s := { s with tasks := s.tasks.eraseIdx i }) ((resume_configs await token).trans same)
        have erased := admin_in_flight_erase found rfl
        simp only [NoLostUpdate, flight, erased, agents, last]
        constructor
        · intro kept other here timer ends idle
          cases found.symm.trans here
          have after := kept idle
          rw [if_pos ends] at after
          exact (before idle).trans after.symm
        · intro calm idle
          split
          · rename_i ends
            exact (calm _ found rfl ends idle).symm.trans (before idle)
          · exact before idle

theorem no_lost_update_iff (agents : List Agent) {evs : List Event} {s : System}
    (accepted : run step (System.start agents) evs = some s) :
    Throughout step NoLostUpdate (System.start agents) evs ↔
      Along step ReplacesWhatItRead (System.start agents) evs :=
  throughout_iff_along (I := fun _ => True) (fun _ _ _ _ _ => trivial)
    (fun _ _ _ _ before moved => step_no_lost_update_iff before moved) trivial
    (fun _ => rfl) accepted

def oldAgent : Agent := ⟨"rpc", "https://old.example", 50, none⟩
def newAgent : Agent := ⟨"rpc", "https://new.example", 60, none⟩

/-- The refresh writes the old list back while the admin call is in flight. -/
def refreshedRun : List Event :=
  [.refresh, .setAgents [newAgent, newAgent], .signed 0 "t1", .signed 0 "t2", .refresh,
    .signed 0 "t3"]

theorem refreshed_run_keeps_update :
    Throughout step NoLostUpdate (System.start [oldAgent]) refreshedRun := by
  have accepted : (run step (System.start [oldAgent]) refreshedRun).isSome = true := by decide
  exact (no_lost_update_iff [oldAgent] (Option.some_get accepted).symm).mpr (by decide)

/-- The refresh read the old agents, the admin call completed, the refresh ends. -/
def overtakenRun : List Event := [.refresh, .setAgents [newAgent], .signed 1 "t1", .signed 0 "t2"]

theorem overtaken_refresh_restores_old_agents :
    ¬ ∀ (agents : List Agent) (evs : List Event),
      Throughout step NoLostUpdate (System.start agents) evs := by
  intro claim
  have lost : (run step (System.start [oldAgent]) overtakenRun).map
      (fun s => decide (AdminInFlight s ∨ configs s.agents = configs s.lastSet)) =
        some false := by decide
  obtain ⟨s, reached, stale⟩ := Option.map_eq_some_iff.mp lost
  have kept := claim [oldAgent] overtakenRun overtakenRun [] s (by simp) reached
  obtain ⟨idle, differs⟩ := not_or.mp (of_decide_eq_false stale)
  exact differs (kept idle)

end ProxyTokens
