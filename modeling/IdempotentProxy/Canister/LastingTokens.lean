import IdempotentProxy.Canister.TokenLifecycle

/-!
Two minutes are enough: the tokens of the agents are good at every moment, as long as each
refresh takes at most `delay` nanoseconds, the timers are late by at most `jitter`, the
timers' own refreshes do not fail and upgrades are not in haste. The refreshes are
renewals of the agents' tokens.
-/
namespace LastingTokens
open TokenLifecycle EventRuns Minting Renewals
open CallerRegistry (CanisterState Storable Validator postUpgrade UpgradeArgs)
open ProxyTokens (Agent Awaiting advance)
open AccessControl (AppState)
open HttpHeaders (Bytes extractHeader)
open AgentRequests (buildRequest Lacks received)

def nanos (seconds : UInt64) : Nat := seconds.toNat * 1000000000

def twoMinutes : Nat := 120000000000

section Conditions
variable (delay jitter : Nat) (storable : Storable) (s : System)

def deadline : Nat :=
  match s.ticked with
  | none => s.booted.toNat + jitter
  | some last => last.toNat + nanos s.heap.proxyTokenRefreshInterval + jitter

structure Timely : Prop where
  prompt : ∀ r ∈ s.running, s.clock.toNat ≤ r.start + delay
  ticking : s.clock.toNat ≤ deadline jitter s

/-- Long enough after the last upgrade, without another key or an absurd interval. -/
structure Settled (heap : CanisterState) : Prop where
  up : s.booted.toNat + jitter + delay < s.clock.toNat
  signer : signer heap = signer s.heap
  interval : heap.proxyTokenRefreshInterval.toNat < 2 ^ 63

/-- The clock, the signing service and the controllers keep to their parts. -/
def Orderly : Event → Prop
  | .elapse now => Timely delay jitter { s with clock := now }
  | .signed i (.error _) => ∀ task ∈ s.tasks[i]?, task.refresh.timer = false
  | .upgrade args => ∀ heap ∈ (postUpgrade storable (storable.toBytes s.heap)
      (args.map ChainArgs.forUpgrade)).toOption, Settled delay jitter s heap
  | _ => True

end Conditions

section Tokens
variable {server : AccessControl.Libraries} (writeToken : UInt64 → String → Bytes → Bytes)
  (keys : Signer → server.auth.ecdsa.Key)

/-- A signature that comes back is one under the key of the signer that was asked. -/
def Genuine (s : System) : Event → Prop
  | .signed i (.ok signature) => ∀ task ∈ s.tasks[i]?,
      SignsUnder server (keys task.refresh.signer) (expireAt task.refresh.interval task.asked)
          task.await.agent.name (fun _ => signature) writeToken ∧
        ReadsBack server (expireAt task.refresh.interval task.asked) task.await.agent.name
          (fun _ => signature) writeToken
  | _ => True

/-- A token under the signer's key that expires at `good` nanoseconds or later. -/
def Lasting (who : Signer) (good : Nat) (name : String) (token : Option String) : Prop :=
  ∃ interval time sign,
    token = some (mint ⟨server.auth, writeToken⟩ interval ⟨time, sign⟩ name) ∧
      SignsUnder server (keys who) (expireAt interval time) name sign writeToken ∧
      ReadsBack server (expireAt interval time) name sign writeToken ∧
      interval.toNat < 2 ^ 63 ∧ good ≤ time.toNat + nanos interval + twoMinutes

end Tokens
section Loop
variable {P : String → Option String → Prop}

structure Tokens (P : String → Option String → Prop) (await : Awaiting) : Prop where
  done : ∀ a ∈ await.done, P a.name a.proxyToken
  table : ∀ name token, await.tokens name = some token → P name (some token)

def AllTokens (P : String → Option String → Prop) : ProxyTokens.Progress → Prop
  | .awaiting await => Tokens P await
  | .finished agents => ∀ a ∈ agents, P a.name a.proxyToken

theorem advance_tokens {tokens : String → Option String} {done : List Agent} (rest : List Agent)
    (table : ∀ name token, tokens name = some token → P name (some token))
    (each : ∀ a ∈ done, P a.name a.proxyToken) : AllTokens P (advance tokens done rest) := by
  induction rest generalizing done with
  | nil => exact each
  | cons agent rest ih =>
    unfold advance
    split
    · rename_i token known
      refine ih fun a mem => ?_
      rcases List.mem_append.mp mem with before | last
      · exact each a before
      · cases List.mem_singleton.mp last
        exact table agent.name token known
    · exact ⟨each, table⟩

theorem update_tokens (agents : List Agent) :
    AllTokens P (ProxyTokens.updateProxyToken agents) :=
  advance_tokens agents nofun nofun

theorem resume_tokens {await : Awaiting} (tokens : Tokens P await) {token : String}
    (next : P await.agent.name (some token)) : AllTokens P (await.resume token) := by
  refine advance_tokens await.rest (fun name value known => ?_) fun a mem => ?_
  · by_cases same : name = await.agent.name
    · subst same
      rw [Function.update_self] at known
      cases known
      exact next
    · rw [Function.update_of_ne same] at known
      exact tokens.table name value known
  · rcases List.mem_append.mp mem with before | last
    · exact tokens.done a before
    · cases List.mem_singleton.mp last
      exact next

end Loop
section Boards
variable {server : AccessControl.Libraries} (writeToken : UInt64 → String → Bytes → Bytes)
  (keys : Signer → server.auth.ecdsa.Key) (who : Signer)

structure Sound (interval : UInt64) (task : Task) : Prop where
  given : task.refresh.interval = interval
  signer : task.refresh.signer = who
  begun : task.refresh.begun ≤ task.asked
  tokens : Tokens (Lasting writeToken keys who
    (task.refresh.begun.toNat + nanos interval + twoMinutes)) task.await

/-- The canister as renewals of its agents' tokens; `extra` runs besides its tasks. -/
structure Represents (extra : List Renewal) (b : Board) (s : System) : Prop where
  opened : b.opened = s.booted.toNat
  interval : b.interval = nanos s.heap.proxyTokenRefreshInterval
  clock : b.clock = s.clock.toNat
  ticks : b.ticks.head? = s.ticked.map UInt64.toNat
  running : ∀ r, r ∈ b.running ↔ r ∈ extra ∨ r ∈ s.running
  signer : signer s.heap = who
  bounded : s.heap.proxyTokenRefreshInterval.toNat < 2 ^ 63
  tasks : ∀ task ∈ s.tasks, Sound writeToken keys who s.heap.proxyTokenRefreshInterval task
  stored : ∀ a ∈ s.heap.agents, Lasting writeToken keys who b.good a.name a.proxyToken

variable {writeToken keys who} {delay jitter : Nat} {extra : List Renewal} {b : Board}
  {s t : System}

theorem limit_deadline (rep : Represents writeToken keys who extra b s) :
    limit b.opened b.interval jitter b.ticks = deadline jitter s := by
  have ticks := rep.ticks
  unfold deadline
  cases fired : s.ticked with
  | none =>
    rw [fired] at ticks
    rw [List.head?_eq_none_iff.mp ticks, limit, rep.opened]
  | some last =>
    rw [fired] at ticks
    obtain ⟨before, shape⟩ := List.head?_eq_some_iff.mp ticks
    rw [shape, limit, rep.interval]

theorem lasting_mono {good sooner : Nat} {name : String} {token : Option String}
    (lasting : Lasting writeToken keys who good name token) (less : sooner ≤ good) :
    Lasting writeToken keys who sooner name token := by
  obtain ⟨interval, time, sign, minted, signs, reads, bounded, until_then⟩ := lasting
  exact ⟨interval, time, sign, minted, signs, reads, bounded, Nat.le_trans less until_then⟩

theorem settle_keeps {others : List Task} {refresh : Refresh} {progress : ProxyTokens.Progress}
    (inv : b.Inv delay jitter twoMinutes)
    (rep : Represents writeToken keys who [⟨refresh.begun.toNat, refresh.timer⟩] b
      { s with tasks := others })
    (interval : refresh.interval = s.heap.proxyTokenRefreshInterval)
    (asked : refresh.signer = who) (begun : refresh.begun ≤ s.clock)
    (tokens : AllTokens (Lasting writeToken keys who
      (refresh.begun.toNat + nanos s.heap.proxyTokenRefreshInterval + twoMinutes)) progress) :
    ∃ c : Board, c.Inv delay jitter twoMinutes ∧
      Represents writeToken keys who [] c (s.settle others refresh progress) := by
  have mine : ⟨refresh.begun.toNat, refresh.timer⟩ ∈ b.running :=
    (rep.running _).mpr (Or.inl (List.mem_singleton_self _))
  cases progress with
  | awaiting await =>
    refine ⟨b, inv, { rep with running := fun r => ?_, tasks := fun task mem => ?_ }⟩
    · rw [rep.running]
      simp [System.settle, System.running, Task.renewal, or_comm, or_left_comm]
    · rcases List.mem_append.mp mem with before | last
      · exact rep.tasks task before
      · cases List.mem_singleton.mp last
        exact ⟨interval, asked, begun, tokens⟩
  | finished agents =>
    have known : ∀ r ∈ System.running { s with tasks := others }, r ∈ b.running :=
      fun r mem => (rep.running r).mpr (Or.inr mem)
    have kept := finish_keeps inv (inv.began _ mine).1 (inv.timely.prompt _ mine) known
    refine ⟨_, kept, { rep with running := fun r => ?_, stored := fun a mem => ?_ }⟩
    · simp [Board.finish, System.settle, System.running]
    · simp only [Board.finish, rep.interval]
      exact tokens a mem

theorem refresh_keeps {begun : UInt64} (inv : b.Inv delay jitter twoMinutes)
    (rep : Represents writeToken keys who [⟨begun.toNat, true⟩] b s) (since : begun ≤ s.clock) :
    ∃ c : Board, c.Inv delay jitter twoMinutes ∧
      Represents writeToken keys who [] c (s.refreshProxyToken begun) := by
  unfold System.refreshProxyToken System.updateProxyToken
  split
  · rename_i empty
    have none_left := List.isEmpty_iff.mp empty
    have mine : ⟨begun.toNat, true⟩ ∈ b.running :=
      (rep.running _).mpr (Or.inl (List.mem_singleton_self _))
    have known : ∀ r ∈ s.running, r ∈ b.running := fun r mem => (rep.running r).mpr (Or.inr mem)
    have kept := finish_keeps inv (inv.began _ mine).1 (inv.timely.prompt _ mine) known
    refine ⟨_, kept, { rep with running := fun r => ?_, stored := fun a mem => ?_ }⟩
    · simp [Board.finish]
    · rw [none_left] at mem
      cases mem
  · exact settle_keeps inv rep rfl rep.signer since (update_tokens s.heap.agents)

theorem running_erase {i : Nat} {task : Task} (found : s.tasks[i]? = some task) (r : Renewal) :
    r ∈ s.running ↔
      r = task.renewal ∨ r ∈ System.running { s with tasks := s.tasks.eraseIdx i } := by
  have perm := (ProxyTokens.take_call found).map Task.renewal
  simp only [System.running, List.mem_append, perm.mem_iff, List.map_cons, List.mem_cons]
  rw [or_left_comm]

section Steps
variable {lib : Validator} {storable : Storable}
  {encode : List CycleCosts.HttpResponse → Bytes} {e : Event}

def Goes (writeToken : UInt64 → String → Bytes → Bytes) (keys : Signer → server.auth.ecdsa.Key)
    (who : Signer) (delay jitter : Nat) (t : System) : Prop :=
  ∃ b : Board, b.Inv delay jitter twoMinutes ∧ Represents writeToken keys who [] b t

theorem elapse_goes {now : UInt64} (inv : b.Inv delay jitter twoMinutes)
    (rep : Represents writeToken keys who [] b s) (later : s.clock ≤ now)
    (timely : Timely delay jitter { s with clock := now }) :
    Goes writeToken keys who delay jitter { s with clock := now } := by
  have order : b.clock ≤ now.toNat := rep.clock ▸ UInt64.le_iff_toNat_le.mp later
  have next : Represents writeToken keys who [] (b.elapse now.toNat) { s with clock := now } :=
    { rep with clock := rfl }
  refine ⟨_, elapse_keeps inv order ⟨fun r mem => ?_, ?_⟩, next⟩
  · exact timely.prompt r (((rep.running r).mp mem).resolve_left List.not_mem_nil)
  · exact Nat.le_trans timely.ticking (Nat.le_of_eq (limit_deadline next).symm)

theorem fired_keeps (inv : b.Inv delay jitter twoMinutes)
    (rep : Represents writeToken keys who [] b s) :
    ∃ c : Board, c.Inv delay jitter twoMinutes ∧
      Represents writeToken keys who [⟨s.clock.toNat, true⟩] c
        { s with ticked := some s.clock } := by
  have clock := rep.clock
  have mine : ⟨b.clock, true⟩ ∈ ⟨b.clock, true⟩ :: b.running := List.mem_cons_self
  have kept := tick_keeps inv mine (fun r mem => List.mem_cons_of_mem _ mem)
    fun r mem => List.mem_cons.mp mem
  refine ⟨_, kept, { rep with ticks := ?_, running := fun r => ?_ }⟩
  · simp [Board.tick, clock]
  · have before := rep.running r
    simp only [List.not_mem_nil, false_or] at before
    simp [Board.tick, before, clock, System.running]

theorem zero_timer_goes (inv : b.Inv delay jitter twoMinutes)
    (rep : Represents writeToken keys who [] b s) (due : s.startup = .due) :
    Goes writeToken keys who delay jitter
      { s with startup := .asking s.clock, ticked := some s.clock } := by
  obtain ⟨c, kept, next⟩ := fired_keeps inv rep
  refine ⟨c, kept, { next with running := fun r => ?_ }⟩
  rw [next.running]
  simp [System.running, Startup.running, due]

theorem heap_represents {heap : CanisterState} (rep : Represents writeToken keys who extra b s)
    (agents : heap.agents = s.heap.agents)
    (interval : heap.proxyTokenRefreshInterval = s.heap.proxyTokenRefreshInterval)
    (asked : signer heap = signer s.heap) :
    Represents writeToken keys who extra b { s with heap := heap } := by
  constructor
  · exact rep.opened
  · exact interval ▸ rep.interval
  · exact rep.clock
  · exact rep.ticks
  · exact rep.running
  · exact asked.trans rep.signer
  · exact interval ▸ rep.bounded
  · exact interval ▸ rep.tasks
  · exact agents ▸ rep.stored

theorem public_key_goes {begun : UInt64} (inv : b.Inv delay jitter twoMinutes)
    (rep : Represents writeToken keys who [] b s) (asks : s.startup = .asking begun)
    (key : Except String Bytes) :
    Goes writeToken keys who delay jitter
      ({ s with heap := initEcdsaPublicKey s.heap key, startup := .through }.refreshProxyToken
        begun) := by
  have moved : Represents writeToken keys who [⟨begun.toNat, true⟩] b
      { s with startup := .through } := by
    refine { rep with running := fun r => ?_ }
    rw [rep.running]
    simp [System.running, asks, Startup.running]
  have mine : ⟨begun.toNat, true⟩ ∈ b.running :=
    (moved.running _).mpr (Or.inl (List.mem_singleton_self _))
  have since := (inv.began _ mine).2
  rw [rep.clock] at since
  have next : Represents writeToken keys who [⟨begun.toNat, true⟩] b
      { s with heap := initEcdsaPublicKey s.heap key, startup := .through } := by
    cases key with
    | ok bytes => exact heap_represents moved rfl rfl rfl
    | error text => exact moved
  exact refresh_keeps inv next (UInt64.le_iff_toNat_le.mpr since)

theorem set_agents_goes {agents : List Agent} (inv : b.Inv delay jitter twoMinutes)
    (rep : Represents writeToken keys who [] b s) (some_agents : agents ≠ []) :
    Goes writeToken keys who delay jitter (s.updateProxyToken
      ⟨false, s.clock, signer s.heap, s.heap.proxyTokenRefreshInterval⟩ agents) := by
  have clock := rep.clock
  have kept := turn_keeps inv (fun r mem _ => List.mem_cons_of_mem ⟨b.clock, false⟩ mem)
    fun r mem => (List.mem_cons.mp mem).imp_left (congrArg Renewal.start)
  have next : Represents writeToken keys who [⟨s.clock.toNat, false⟩]
      (b.turn (⟨b.clock, false⟩ :: b.running)) s := by
    refine { rep with running := fun r => ?_ }
    have before := rep.running r
    simp only [List.not_mem_nil, false_or] at before
    simp [Board.turn, before, clock]
  unfold System.updateProxyToken
  rw [if_neg (mt List.isEmpty_iff.mp some_agents)]
  exact settle_keeps kept next rfl rep.signer (UInt64.le_refl _) (update_tokens agents)

theorem failed_goes {i : Nat} {task : Task} (inv : b.Inv delay jitter twoMinutes)
    (rep : Represents writeToken keys who [] b s) (found : s.tasks[i]? = some task)
    (other : task.refresh.timer = false) :
    Goes writeToken keys who delay jitter { s with tasks := s.tasks.eraseIdx i } := by
  have runs : ∀ r, r ∈ b.running ↔
      r = task.renewal ∨ r ∈ System.running { s with tasks := s.tasks.eraseIdx i } := by
    intro r
    rw [rep.running, running_erase found]
    simp only [List.not_mem_nil, false_or]
  have timers : ∀ r ∈ b.running, r.timed = true →
      r ∈ System.running { s with tasks := s.tasks.eraseIdx i } := by
    intro r mem timed
    rcases (runs r).mp mem with same | stays
    · rw [same, Task.renewal, other] at timed
      cases timed
    · exact stays
  have kept := turn_keeps inv timers fun r mem => Or.inr ((runs r).mpr (Or.inr mem))
  refine ⟨_, kept, { rep with running := fun r => ?_, tasks := fun task mem => ?_ }⟩
  · simp [Board.turn]
  · exact rep.tasks task (List.mem_of_mem_eraseIdx mem)

theorem signed_goes {i : Nat} {task : Task} {signature : Bytes}
    (inv : b.Inv delay jitter twoMinutes) (rep : Represents writeToken keys who [] b s)
    (found : s.tasks[i]? = some task)
    (genuine : Genuine writeToken keys s (.signed i (.ok signature))) :
    Goes writeToken keys who delay jitter (s.settle (s.tasks.eraseIdx i) task.refresh
      (task.await.resume (task.token ⟨server.auth, writeToken⟩ signature))) := by
  obtain ⟨given, asked, begun, tokens⟩ := rep.tasks task (List.mem_of_getElem? found)
  obtain ⟨signs, reads⟩ := genuine task found
  have next : Represents writeToken keys who [task.renewal] b
      { s with tasks := s.tasks.eraseIdx i } := by
    refine { rep with running := fun r => ?_, tasks := fun task mem => ?_ }
    · rw [rep.running, running_erase found]
      simp
    · exact rep.tasks task (List.mem_of_mem_eraseIdx mem)
  have mine : task.renewal ∈ b.running := (next.running _).mpr (Or.inl (List.mem_singleton_self _))
  have since := (inv.began _ mine).2
  rw [rep.clock] at since
  refine settle_keeps inv next given asked (UInt64.le_iff_toNat_le.mpr since)
    (resume_tokens tokens ⟨_, _, _, rfl, asked ▸ signs, reads, given ▸ rep.bounded, ?_⟩)
  have later := UInt64.le_iff_toNat_le.mp begun
  rw [given]
  omega

theorem upgrade_goes {heap : CanisterState}
    (log : List (ChangeLog.Change CanisterEndpoints.Principal))
    (enough : 3 * delay + 2 * jitter ≤ twoMinutes)
    (inv : b.Inv delay jitter twoMinutes) (rep : Represents writeToken keys who [] b s)
    (agents : heap.agents = s.heap.agents) (settled : Settled delay jitter s heap) :
    Goes writeToken keys who delay jitter (.boot heap log s.clock) := by
  obtain ⟨up, asked, bounded⟩ := settled
  have kept := reopen_keeps inv enough (by rw [rep.opened, rep.clock]; exact up)
    (nanos heap.proxyTokenRefreshInterval)
  refine ⟨_, kept, rep.clock, rfl, rep.clock, rfl, fun r => ?_, asked.trans rep.signer, bounded,
    nofun, agents ▸ rep.stored⟩
  simp [Board.reopen, System.boot, System.running, Startup.running]

theorem post_upgrade_keeps {stored heap : CanisterState} {args : Option CallerRegistry.ChainArgs}
    (done : postUpgrade storable (storable.toBytes stored) args = .ok heap) :
    heap.agents = stored.agents ∧ heap.proxyTokenPublicKey = stored.proxyTokenPublicKey := by
  have loaded : (CallerRegistry.migrate stored).agents = stored.agents ∧
      (CallerRegistry.migrate stored).proxyTokenPublicKey = stored.proxyTokenPublicKey := by
    unfold CallerRegistry.migrate
    split <;> exact ⟨rfl, rfl⟩
  unfold postUpgrade at done
  rw [storable.round_trip] at done
  match args with
  | none =>
    cases done
    exact loaded
  | some .init => cases done
  | some (.upgrade settings) =>
    dsimp only at done
    unfold CallerRegistry.upgradeSettings at done
    cases asked : settings.proxyTokenRefreshInterval with
    | none =>
      rw [asked] at done
      cases done
      exact loaded
    | some interval =>
      rw [asked] at done
      dsimp only at done
      split at done
      · cases done
      · cases done
        exact loaded

theorem step_goes (enough : 3 * delay + 2 * jitter ≤ twoMinutes)
    (goes : Goes writeToken keys who delay jitter s) (orderly : Orderly delay jitter storable s e)
    (genuine : Genuine writeToken keys s e)
    (moved : step lib storable encode ⟨server.auth, writeToken⟩ s e = some t) :
    Goes writeToken keys who delay jitter t := by
  obtain ⟨b, inv, rep⟩ := goes
  cases e with
  | elapse now =>
    simp only [step] at moved
    split at moved
    · cases moved
      exact elapse_goes inv rep ‹_› orderly
    · cases moved
  | zeroTimer =>
    simp only [step] at moved
    split at moved
    · cases moved
      exact zero_timer_goes inv rep ‹_›
    · cases moved
  | publicKey key =>
    simp only [step] at moved
    split at moved
    · cases moved
      exact public_key_goes inv rep ‹_› key
    · cases moved
  | tick =>
    cases moved
    obtain ⟨c, kept, next⟩ := fired_keeps inv rep
    exact refresh_keeps kept next (UInt64.le_refl _)
  | setAgents sender agents =>
    rcases set_agents_step moved with ⟨same, _⟩ | ⟨_, some_agents, same⟩
    · exact same ▸ ⟨b, inv, rep⟩
    · exact same ▸ set_agents_goes inv rep some_agents
  | signed i signature =>
    simp only [step] at moved
    split at moved
    · cases moved
    · rename_i task found
      cases signature with
      | error text =>
        cases moved
        exact failed_goes inv rep found (orderly task found)
      | ok signature =>
        cases moved
        exact signed_goes inv rep found genuine
  | upgrade args =>
    simp only [step] at moved
    split at moved
    · cases moved
      exact ⟨b, inv, rep⟩
    · rename_i heap done
      cases moved
      have settled := orderly heap (by rw [done]; rfl)
      exact upgrade_goes _ enough inv rep (post_upgrade_keeps done).1 settled
  | message e =>
    simp only [step] at moved
    split at moved
    · cases moved
    · obtain ⟨r, done, same⟩ := Option.map_eq_some_iff.mp moved
      have left := message_leaves (Bool.eq_false_iff.mpr ‹_›) done
      cases same
      have next := heap_represents rep (congrArg TokenPart.agents left.heap)
        (congrArg TokenPart.interval left.heap) (congrArg TokenPart.signer left.heap)
      exact ⟨b, inv, { next with }⟩

theorem boot_goes {args : Option ChainArgs} {heap : CanisterState}
    (installed : init args = .ok heap)
    (bounded : heap.proxyTokenRefreshInterval.toNat < 2 ^ 63) (now : UInt64) :
    Goes writeToken keys (signer heap) delay jitter (.boot heap [] now) := by
  have empty : heap.agents = [] := by
    match args with
    | none => cases installed
    | some (.init args) =>
      cases installed
      rfl
    | some (.upgrade args) => cases installed
  let b : Board := ⟨now.toNat, nanos heap.proxyTokenRefreshInterval, now.toNat, [], [], none,
    now.toNat + jitter + delay⟩
  have inv : b.Inv delay jitter twoMinutes :=
    ⟨⟨nofun, Nat.le_add_right _ _⟩, Nat.le_refl _, trivial, nofun, nofun, nofun,
      fun _ => Nat.le_refl _, nofun⟩
  refine ⟨b, inv, rfl, rfl, rfl, rfl, fun r => ?_, rfl, bounded, nofun, ?_⟩
  · simp [b, System.boot, System.running, Startup.running]
  · intro a mem
    rw [System.boot, empty] at mem
    cases mem

theorem goes_lasting (enough : 3 * delay + 2 * jitter ≤ twoMinutes)
    (goes : Goes writeToken keys who delay jitter s) :
    ∀ a ∈ s.heap.agents, Lasting writeToken keys who s.clock.toNat a.name a.proxyToken := by
  obtain ⟨b, inv, rep⟩ := goes
  have good := good_now inv (by omega)
  rw [rep.clock] at good
  exact fun a mem => lasting_mono (rep.stored a mem) good

theorem goes_signer (goes : Goes writeToken keys who delay jitter s) : signer s.heap = who := by
  obtain ⟨_, _, rep⟩ := goes
  exact rep.signer

theorem lasting_accepted {parseUri : String → Except String AgentRequests.Uri} {a : Agent}
    {req : CycleCosts.CanisterHttpRequestArgument} {outcall : AgentRequests.Outcall}
    {app : AppState server} {now : Nat} {unixMs : UInt64}
    (lasting : Lasting writeToken keys who now a.name a.proxyToken)
    (built : buildRequest parseUri a req = .ok outcall)
    (own : Lacks req.headers "proxy-authorization") (known : keys who ∈ app.ecdsaPubKeys)
    (timely : unixMs.toNat / 1000 ≤ now / 1000000000 + 10) :
    app.verifyToken (extractHeader (received outcall.request.headers) "proxy-authorization" "")
      unixMs = .ok a.name := by
  obtain ⟨interval, time, sign, minted, signs, reads, bounded, good⟩ := lasting
  rw [HttpHeaders.extract_header_utf8 (AgentRequests.received_authorization built own minted)
    (AccessControl.bearer_visible _)]
  have clock := time.toNat_lt
  unfold nanos twoMinutes at good
  exact minted_accepted interval signs reads (by omega) known (by omega)

end Steps
section Runs
variable {lib : Validator} {storable : Storable} {encode : List CycleCosts.HttpResponse → Bytes}

/-- At every moment after the installation every agent has a token that every server with the
    canister's key accepts as that agent's, whatever refreshes overlap and in whatever order
    they end, as long as three refreshes and two timers' delays take two minutes at most. -/
theorem tokens_never_lapse {parseUri : String → Except String AgentRequests.Uri}
    {args : Option ChainArgs} {heap : CanisterState} (installed : init args = .ok heap)
    (bounded : heap.proxyTokenRefreshInterval.toNat < 2 ^ 63)
    (enough : 3 * delay + 2 * jitter ≤ twoMinutes) {now : UInt64} {evs : List Event}
    (accepted : run (step lib storable encode ⟨server.auth, writeToken⟩) (.boot heap [] now) evs =
      some s)
    (orderly : Along (step lib storable encode ⟨server.auth, writeToken⟩)
      (Orderly delay jitter storable) (.boot heap [] now) evs)
    (genuine : Along (step lib storable encode ⟨server.auth, writeToken⟩)
      (Genuine writeToken keys) (.boot heap [] now) evs) :
    ∀ a ∈ s.heap.agents, ∀ req outcall, buildRequest parseUri a req = .ok outcall →
      Lacks req.headers "proxy-authorization" →
      ∀ app : AppState server, keys (signer s.heap) ∈ app.ecdsaPubKeys → ∀ unixMs : UInt64,
        unixMs.toNat / 1000 ≤ s.clock.toNat / 1000000000 + 10 →
        app.verifyToken (extractHeader (received outcall.request.headers)
          "proxy-authorization" "") unixMs = .ok a.name := by
  have goes : Goes writeToken keys (signer heap) delay jitter s :=
    run_keeps (fun s e t goes both moved => step_goes enough goes both.1 both.2 moved)
      (boot_goes installed bounded now) (along_and orderly genuine) accepted
  intro a mem req outcall built own app known unixMs timely
  rw [goes_signer goes] at known
  exact lasting_accepted (goes_lasting enough goes a mem) built own known timely

end Runs
end Boards
section Sample
open CallerRegistry (sampleValidator sampleStorable)
open TokenAuth (sampleKey sampleToken)

instance (delay jitter : Nat) (s : System) : Decidable (Timely delay jitter s) :=
  decidable_of_iff ((∀ r ∈ s.running, s.clock.toNat ≤ r.start + delay) ∧
      s.clock.toNat ≤ deadline jitter s)
    ⟨fun both => ⟨both.1, both.2⟩, fun timely => ⟨timely.prompt, timely.ticking⟩⟩

instance : DecidableEq CallerRegistry.CoseClient := fun a b =>
  decidable_of_iff (a.id = b.id ∧ a.ns = b.ns)
    ⟨fun both => by cases a; cases b; exact congr (congrArg _ both.1) both.2,
      fun same => same ▸ ⟨rfl, rfl⟩⟩

instance : DecidableEq Signer := fun a b =>
  decidable_of_iff (a.keyName = b.keyName ∧ a.cose = b.cose)
    ⟨fun both => by cases a; cases b; exact congr (congrArg _ both.1) both.2,
      fun same => same ▸ ⟨rfl, rfl⟩⟩

instance (delay jitter : Nat) (s : System) (heap : CanisterState) :
    Decidable (Settled delay jitter s heap) :=
  decidable_of_iff (s.booted.toNat + jitter + delay < s.clock.toNat ∧
      signer heap = signer s.heap ∧ heap.proxyTokenRefreshInterval.toNat < 2 ^ 63)
    ⟨fun all => ⟨all.1, all.2.1, all.2.2⟩,
      fun settled => ⟨settled.up, settled.signer, settled.interval⟩⟩

instance (delay jitter : Nat) (storable : Storable) (s : System) (e : Event) :
    Decidable (Orderly delay jitter storable s e) := by
  unfold Orderly
  split <;> infer_instance

instance (server : AccessControl.Libraries) (key : server.auth.ecdsa.Key) (expireAt : UInt64)
    (name : String) (sign : Bytes → Bytes) (writeToken : UInt64 → String → Bytes → Bytes) :
    Decidable (SignsUnder server key expireAt name sign writeToken) :=
  decidable_of_iff ((server.auth.ecdsa.parse
      (sign (digest ⟨server.auth, writeToken⟩ expireAt name))).any fun sig =>
        server.auth.ecdsa.verify key (digest ⟨server.auth, writeToken⟩ expireAt name) sig)
    (by simp [SignsUnder, Option.any_eq_true])

instance (server : AccessControl.Libraries) (expireAt : UInt64) (name : String)
    (sign : Bytes → Bytes) (writeToken : UInt64 → String → Bytes → Bytes) :
    Decidable (ReadsBack server expireAt name sign writeToken) :=
  inferInstanceAs (Decidable (_ = _))

instance (server : AccessControl.Libraries) (writeToken : UInt64 → String → Bytes → Bytes)
    (keys : Signer → server.auth.ecdsa.Key) (s : System) (e : Event) :
    Decidable (Genuine writeToken keys s e) := by
  unfold Genuine
  split <;> infer_instance

def sampleArgs : ChainArgs := .init ⟨"dfx_test_key", 3500, 0, 0, none⟩

/-- An upgrade drops the first refresh that would replace the tokens. -/
def sampleRun : List Event :=
  [.zeroTimer, .publicKey (.ok sampleKey), .elapse 1717840741000000000,
    .setAgents ⟨[9], true⟩ sampleAgents, .signed 0 (.ok sampleToken.signature),
    .elapse 1717844205000000000, .tick, .elapse 1717844235000000000, .upgrade none,
    .elapse 1717844245000000000]

def sampleStep : System → Event → Option System :=
  step sampleValidator sampleStorable (fun _ => []) ⟨TokenAuth.sampleLibraries, sampleWrite⟩

def sampleHeap : CanisterState := (init (some sampleArgs)).toOption.get (by decide)

def sampleBoot : System := .boot sampleHeap [] 1717840700000000000

def sampleKeys (_ : Signer) : AccessControl.sampleLibraries.auth.ecdsa.Key := sampleKey

theorem sample_never_lapse : ∃ s, run sampleStep sampleBoot sampleRun = some s ∧
    s.heap.agents.length = 2 ∧
    ∀ a ∈ s.heap.agents, ∀ req outcall,
      buildRequest (fun _ => .ok ⟨some "httpbin.org", some "/get"⟩) a req = .ok outcall →
      Lacks req.headers "proxy-authorization" →
      ∀ app : AppState AccessControl.sampleLibraries, sampleKey ∈ app.ecdsaPubKeys →
        ∀ unixMs : UInt64, unixMs.toNat / 1000 ≤ s.clock.toNat / 1000000000 + 10 →
          app.verifyToken (extractHeader (received outcall.request.headers)
            "proxy-authorization" "") unixMs = .ok a.name := by
  have seen : (run sampleStep sampleBoot sampleRun).map (fun s => s.heap.agents.length) =
      some 2 := by decide +kernel
  obtain ⟨s, accepted, count⟩ := Option.map_eq_some_iff.mp seen
  have installed : init (some sampleArgs) = .ok sampleHeap := rfl
  have orderly : Along sampleStep (Orderly 30000000000 10000000000 sampleStorable) sampleBoot
      sampleRun := by decide +kernel
  have genuine : Along sampleStep (Genuine sampleWrite sampleKeys) sampleBoot sampleRun := by
    decide +kernel
  exact ⟨s, accepted, count, tokens_never_lapse installed (by decide) (by decide) accepted orderly
    genuine⟩

end Sample
end LastingTokens
