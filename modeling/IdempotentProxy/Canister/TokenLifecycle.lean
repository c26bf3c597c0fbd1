import IdempotentProxy.Foundations.Renewals
import IdempotentProxy.Canister.CallerRegistry
import IdempotentProxy.Canister.Minting

/-!
The canister from its installation on, with a clock: the two timers that `init` and
`post_upgrade` set, the public key and the refresh that the first one asks for, the refresh
of the second at every interval, the managers' own agents, and upgrades, after which both
timers are set anew. A signing call reads the clock when it is made, and its answer comes
with the event that resumes the task. Every other message is one of the registry's.
-/
namespace TokenLifecycle
open CallerRegistry EventRuns
open ProxyTokens (Agent Awaiting)
open CanisterEndpoints (Principal)
open CycleAccounting (InFlight)
open ChangeLog (Change record)
open HttpHeaders (Bytes)
open Renewals (Renewal)

structure InitArgs where
  ecdsaKeyName : String
  proxyTokenRefreshInterval : UInt64
  subnetSize : UInt64
  serviceFee : UInt64
  cose : Option CoseClient

inductive ChainArgs where
  | init (args : InitArgs)
  | upgrade (args : UpgradeArgs)

def ChainArgs.forUpgrade : ChainArgs → CallerRegistry.ChainArgs
  | .init _ => .init
  | .upgrade args => .upgrade args

def init (args : Option ChainArgs) : Except String CanisterState :=
  match args with
  | none => .error "init args is missing"
  | some (.init args) => .ok {
      agents := []
      callers := fun _ => none
      subnetSize := args.subnetSize
      serviceFee := if 0 < args.serviceFee then args.serviceFee else 100000000
      incomingCycles := 0
      uncollectibleCycles := 0
      ecdsaKeyName := args.ecdsaKeyName
      proxyTokenPublicKey := ""
      proxyTokenRefreshInterval :=
        if 10 ≤ args.proxyTokenRefreshInterval then args.proxyTokenRefreshInterval else 3600
      managers := []
      allowedCallers := []
      cose := args.cose }
  | some (.upgrade _) => .error
      "cannot initialize the canister with an Upgrade args. Please provide an Init args."

structure Signer where
  keyName : String
  cose : Option CoseClient

def signer (s : CanisterState) : Signer := ⟨s.ecdsaKeyName, s.cose⟩

def validateAdminSetAgents (agents : List Agent) : Except String Unit :=
  if agents.isEmpty then .error "agents cannot be empty" else .ok ()

/-- A call of `update_proxy_token`: whose it is, and what it is given but for the agents. A
    timer's call counts from when the timer fired. -/
structure Refresh where
  timer : Bool
  begun : UInt64
  signer : Signer
  interval : UInt64

structure Task where
  refresh : Refresh
  asked : UInt64
  await : Awaiting

def Task.renewal (task : Task) : Renewal := ⟨task.refresh.begun.toNat, task.refresh.timer⟩

/-- The timer with no delay: set, or fired and awaiting the public key, or through. -/
inductive Startup where
  | due
  | asking (begun : UInt64)
  | through

def Startup.running : Startup → List Renewal
  | .asking begun => [⟨begun.toNat, true⟩]
  | _ => []

/-- `booted` is when the timers were set and `ticked` when one of them fired last. -/
structure System where
  heap : CanisterState
  calls : List InFlight
  log : List (Change Principal)
  clock : UInt64
  booted : UInt64
  ticked : Option UInt64
  startup : Startup
  tasks : List Task

def System.boot (heap : CanisterState) (log : List (Change Principal)) (now : UInt64) : System :=
  ⟨heap, [], log, now, now, none, .due, []⟩

/-- The same canister without its clock and timers. -/
def System.untimed (s : System) : CallerRegistry.System :=
  ⟨s.heap, s.calls, s.tasks.map Task.await, s.log⟩

def System.running (s : System) : List Renewal := s.startup.running ++ s.tasks.map Task.renewal

inductive Event where
  | elapse (now : UInt64)
  | zeroTimer
  | publicKey (key : Except String Bytes)
  | tick
  | setAgents (sender : Sender) (agents : List Agent)
  | signed (i : Nat) (signature : Except String Bytes)
  | upgrade (args : Option ChainArgs)
  | message (e : CallerRegistry.Event)

def timed : CallerRegistry.Event → Bool
  | .setAgents .. | .refresh | .signed .. | .publicKey _ | .upgrade _ => true
  | _ => false

section Steps
variable (lib : Validator) (storable : Storable) (encode : List CycleCosts.HttpResponse → Bytes)
  (libs : Minting.Writers)

/-- What the task signs next has the expiry of the time at which it asked. -/
def Task.token (task : Task) (signature : Bytes) : String :=
  Minting.mint libs task.refresh.interval ⟨task.asked, fun _ => signature⟩ task.await.agent.name

def System.settle (s : System) (others : List Task) (refresh : Refresh) :
    ProxyTokens.Progress → System
  | .awaiting await => { s with tasks := others ++ [⟨refresh, s.clock, await⟩] }
  | .finished agents => { s with heap := { s.heap with agents := agents }, tasks := others }

def System.updateProxyToken (s : System) (refresh : Refresh) (agents : List Agent) : System :=
  if agents.isEmpty then s
  else s.settle s.tasks refresh (ProxyTokens.updateProxyToken agents)

def System.refreshProxyToken (s : System) (begun : UInt64) : System :=
  s.updateProxyToken ⟨true, begun, signer s.heap, s.heap.proxyTokenRefreshInterval⟩ s.heap.agents

def adminSetAgents (sender : Sender) (agents : List Agent) (s : System) : Except String System := do
  isControllerOrManager sender s.heap
  validateAdminSetAgents agents
  return s.updateProxyToken ⟨false, s.clock, signer s.heap, s.heap.proxyTokenRefreshInterval⟩ agents

/-- A public key that is not there is printed and leaves the old one. -/
def initEcdsaPublicKey (s : CanisterState) : Except String Bytes → CanisterState
  | .ok key => { s with
      proxyTokenPublicKey := String.ofList (Base64.encode Base64.urlSafe key) }
  | .error _ => s

def step (s : System) : Event → Option System
  | .elapse now => if s.clock ≤ now then some { s with clock := now } else none
  | .zeroTimer =>
      match s.startup with
      | .due => some { s with startup := .asking s.clock, ticked := some s.clock }
      | _ => none
  | .publicKey key =>
      match s.startup with
      | .asking begun =>
          let s := { s with heap := initEcdsaPublicKey s.heap key, startup := .through }
          some (s.refreshProxyToken begun)
      | _ => none
  | .tick => some ({ s with ticked := some s.clock }.refreshProxyToken s.clock)
  | .setAgents sender agents =>
      match adminSetAgents sender agents s with
      | .error _ => some s
      | .ok s => some s
  | .signed i signature =>
      match s.tasks[i]? with
      | none => none
      | some task =>
          match signature with
          | .error _ => some { s with tasks := s.tasks.eraseIdx i }
          | .ok signature =>
              some (s.settle (s.tasks.eraseIdx i) task.refresh
                (task.await.resume (task.token libs signature)))
  | .upgrade args =>
      match postUpgrade storable (storable.toBytes s.heap) (args.map ChainArgs.forUpgrade) with
      | .error _ => some s
      | .ok heap => some (.boot heap (record .added s.heap.allowedCallers s.log) s.clock)
  | .message e =>
      if timed e then none
      else (CallerRegistry.step lib storable encode s.untimed e).map fun r =>
        { s with heap := r.heap, calls := r.calls, log := r.log }

end Steps

/-- What the timers' tasks read of the state, and write. -/
structure TokenPart where
  agents : List Agent
  interval : UInt64
  signer : Signer
  publicKey : String

def tokenPart (s : CanisterState) : TokenPart :=
  ⟨s.agents, s.proxyTokenRefreshInterval, signer s, s.proxyTokenPublicKey⟩

section Messages
open CanisterEndpoints (Machine Progress Charged Account)
variable {lib : Validator} {storable : Storable} {encode : List CycleCosts.HttpResponse → Bytes}
  {r r' : CallerRegistry.System}

structure Leaves (r r' : CallerRegistry.System) : Prop where
  heap : tokenPart r'.heap = tokenPart r.heap
  refreshes : r'.refreshes = r.refreshes

theorem credit_agents (account : Account) (now : Nat) (m : Machine) :
    (account.credit now m).state.agents = m.state.agents := by
  unfold Account.credit CanisterEndpoints.updateCallerState
  split <;> rfl

theorem start_agents {endpoint : CanisterEndpoints.Endpoint} {msg : CanisterEndpoints.Message}
    {now : Nat} {m n : Machine} {progress : Progress}
    (done : CanisterEndpoints.start endpoint msg now m = .ok (n, progress)) :
    n.state.agents = m.state.agents := by
  rcases CanisterEndpoints.start_leaves done with ⟨_, same⟩ | ⟨_, _, charged, _⟩
  · rw [same]
  · exact charged.agents

theorem resume_agents {i now : Nat} {outcome : CanisterEndpoints.Outcome} {m n : Machine}
    {call : CanisterEndpoints.Call} {progress : Progress}
    (done : CanisterEndpoints.resume encode i outcome now m call = .ok (n, progress)) :
    n.state.agents = m.state.agents := by
  have left := CanisterEndpoints.resume_leaves done
  cases progress with
  | finished res =>
    obtain ⟨charged, charge, same⟩ := left
    rw [same, credit_agents, charge.agents]
  | waiting call => exact left.1.agents

theorem proceed_leaves (others : List InFlight) {result : Except String (Machine × Progress)}
    (same : ∀ m progress, result = .ok (m, progress) → m.state.agents = r.heap.agents) :
    Leaves r (r.proceed others result) := by
  cases result with
  | error text => exact ⟨rfl, rfl⟩
  | ok done =>
    obtain ⟨m, progress⟩ := done
    have agents := same m progress rfl
    cases progress with
    | finished res =>
      exact ⟨by simp [CallerRegistry.System.proceed, tokenPart, signer, agents], rfl⟩
    | waiting call =>
      exact ⟨by simp [CallerRegistry.System.proceed, tokenPart, signer, agents], rfl⟩

theorem apply_leaves {change : Principal → Change Principal} {ids : List Principal}
    {result : Except String CanisterState}
    (same : ∀ heap, result = .ok heap → tokenPart heap = tokenPart r.heap) :
    Leaves r (r.apply change ids result) := by
  cases result with
  | error text => exact ⟨rfl, rfl⟩
  | ok heap => exact ⟨same heap rfl, rfl⟩

theorem message_leaves {e : CallerRegistry.Event} (other : timed e = false)
    (moved : CallerRegistry.step lib storable encode r e = some r') : Leaves r r' := by
  cases e with
  | proxy endpoint msg now =>
    cases moved
    exact proceed_leaves r.calls fun m progress done => start_agents done
  | resume n i outcome now =>
    simp only [CallerRegistry.step] at moved
    split at moved
    · cases moved
    · split at moved
      · cases moved
        exact proceed_leaves _ fun m progress done => resume_agents done
      · cases moved
  | trap n =>
    cases moved
    exact ⟨rfl, rfl⟩
  | addManagers sender args =>
    cases moved
    exact apply_leaves fun heap done => by rw [(validated_done done).2]; rfl
  | removeManagers sender args =>
    cases moved
    exact apply_leaves fun heap done => by rw [(validated_done done).2]; rfl
  | addCaller sender id =>
    cases moved
    exact apply_leaves fun heap done => by rw [(add_caller_done done).2]; rfl
  | addCallers sender args =>
    cases moved
    exact apply_leaves fun heap done => by rw [(validated_done done).2]; rfl
  | removeCallers sender args =>
    cases moved
    exact apply_leaves fun heap done => by rw [(validated_done done).2]; rfl
  | setAgents sender agents => cases other
  | refresh => cases other
  | signed n token => cases other
  | publicKey key => cases other
  | upgrade args => cases other

end Messages
section Untimed
variable {lib : Validator} {storable : Storable} {encode : List CycleCosts.HttpResponse → Bytes}
  {libs : Minting.Writers} {s t : System}

theorem settle_untimed (others : List Task) (refresh : Refresh)
    (progress : ProxyTokens.Progress) :
    (s.settle others refresh progress).untimed =
      s.untimed.settle (others.map Task.await) progress := by
  cases progress with
  | awaiting await => simp [System.settle, System.untimed, CallerRegistry.System.settle]
  | finished agents => rfl

theorem update_untimed (refresh : Refresh) (agents : List Agent) :
    (s.updateProxyToken refresh agents).untimed = s.untimed.updateProxyToken agents := by
  unfold System.updateProxyToken CallerRegistry.System.updateProxyToken
  split
  · rfl
  · exact settle_untimed s.tasks refresh _

def untimedEvents (libs : Minting.Writers) (s : System) : Event → List CallerRegistry.Event
  | .elapse _ | .zeroTimer => []
  | .publicKey (.ok key) =>
      [.publicKey (some (String.ofList (Base64.encode Base64.urlSafe key))), .refresh]
  | .publicKey (.error _) => [.publicKey none, .refresh]
  | .tick => [.refresh]
  | .setAgents sender agents => [.setAgents sender agents]
  | .signed i (.ok signature) =>
      [.signed i ((s.tasks[i]?).map fun task => task.token libs signature)]
  | .signed i (.error _) => [.signed i none]
  | .upgrade args => [.upgrade (args.map ChainArgs.forUpgrade)]
  | .message e => [e]

theorem set_agents_step {sender : Sender} {agents : List Agent}
    (moved : step lib storable encode libs s (.setAgents sender agents) = some t) :
    (t = s ∧ ((∃ text, isControllerOrManager sender s.heap = .error text) ∨ agents = [])) ∨
      (isControllerOrManager sender s.heap = .ok () ∧ agents ≠ [] ∧
        t = s.updateProxyToken
          ⟨false, s.clock, signer s.heap, s.heap.proxyTokenRefreshInterval⟩ agents) := by
  simp only [step] at moved
  unfold adminSetAgents validateAdminSetAgents at moved
  cases guarded : isControllerOrManager sender s.heap with
  | error text =>
    rw [guarded] at moved
    cases moved
    exact Or.inl ⟨rfl, Or.inl ⟨text, rfl⟩⟩
  | ok allowed =>
    rw [guarded] at moved
    cases agents with
    | nil =>
      cases moved
      exact Or.inl ⟨rfl, Or.inr rfl⟩
    | cons agent rest =>
      cases moved
      exact Or.inr ⟨rfl, List.cons_ne_nil agent rest, rfl⟩

/-- Without the clock it is a run of the registry. -/
theorem step_untimed {e : Event} (moved : step lib storable encode libs s e = some t) :
    run (CallerRegistry.step lib storable encode) s.untimed (untimedEvents libs s e) =
      some t.untimed := by
  cases e with
  | elapse now =>
    simp only [step] at moved
    split at moved
    · cases moved
      rfl
    · cases moved
  | zeroTimer =>
    simp only [step] at moved
    split at moved
    · cases moved
      rfl
    · cases moved
  | publicKey key =>
    simp only [step] at moved
    split at moved
    · cases moved
      cases key with
      | ok bytes =>
        simp only [System.refreshProxyToken, update_untimed]
        rfl
      | error text =>
        simp only [System.refreshProxyToken, update_untimed]
        rfl
    · cases moved
  | tick =>
    cases moved
    simp only [System.refreshProxyToken, update_untimed]
    rfl
  | setAgents sender agents =>
    refine run_single_iff.mpr ?_
    have heap : s.untimed.heap = s.heap := rfl
    rcases set_agents_step moved with ⟨same, ⟨text, refused⟩ | nothing⟩ | ⟨allowed, _, settled⟩
    · simp only [CallerRegistry.step, heap, refused, same]
    · rw [nothing, same]
      simp only [CallerRegistry.step]
      split <;> rfl
    · simp only [CallerRegistry.step, heap, allowed, settled, update_untimed]
  | signed i signature =>
    simp only [step] at moved
    split at moved
    · cases moved
    · rename_i task found
      have here : (s.untimed.refreshes[i]?) = some task.await := by
        simp [System.untimed, found]
      cases signature with
      | error text =>
        cases moved
        refine run_single_iff.mpr ?_
        simp only [CallerRegistry.step, here]
        simp [System.untimed, List.eraseIdx_map]
      | ok signature =>
        cases moved
        refine run_single_iff.mpr ?_
        simp only [CallerRegistry.step, here, found, Option.map_some, settle_untimed]
        simp [System.untimed, List.eraseIdx_map]
  | upgrade args =>
    refine run_single_iff.mpr ?_
    have heap : s.untimed.heap = s.heap := rfl
    simp only [step] at moved
    simp only [CallerRegistry.step, stepUpgrade, heap]
    cases done : postUpgrade storable (storable.toBytes s.heap)
      (args.map ChainArgs.forUpgrade) with
    | error text =>
      rw [done] at moved
      cases moved
      rfl
    | ok heap =>
      rw [done] at moved
      cases moved
      rfl
  | message e =>
    simp only [step] at moved
    split at moved
    · cases moved
    · obtain ⟨r, done, same⟩ := Option.map_eq_some_iff.mp moved
      refine run_single_iff.mpr (done.trans ?_)
      have left := message_leaves (Bool.eq_false_iff.mpr ‹_›) done
      obtain ⟨heap, calls, refreshes, log⟩ := r
      have kept : refreshes = s.tasks.map Task.await := left.refreshes
      rw [← same, kept]
      rfl

theorem run_untimed {evs : List Event}
    (accepted : run (step lib storable encode libs) s evs = some t) :
    ∃ es, run (CallerRegistry.step lib storable encode) s.untimed es = some t.untimed := by
  induction evs generalizing s with
  | nil =>
    cases accepted
    exact ⟨[], rfl⟩
  | cons e evs ih =>
    obtain ⟨m, first, rest⟩ := run_cons_iff.mp accepted
    obtain ⟨es, later⟩ := ih rest
    exact ⟨_, run_append_iff.mpr ⟨m.untimed, step_untimed first, later⟩⟩

end Untimed
end TokenLifecycle
