import IdempotentProxy.Foundations.ResourcePool
import IdempotentProxy.Server.OneCall
import IdempotentProxy.Server.StoredForm

/-!
The handler on Redis with its pool of ten connections. `obtain`, `set` and `del` take a
connection for one command; `polling_get` keeps its connection while it polls and sleeps.
A duplicate that waits for the response is in the way of the holder that would store it.
-/
namespace RedisPool
open CachedResponse EventRuns ExpiringStore HybridCache ProxyHandler ResourcePool
open CacheKeys (perform_other requestOf)
open Ownership (Leased Owned Recorded WithinLease key)
open RedisCache (Fault)

def maxSize : Nat := 10

def connectionTimeout : Nat := 3000

/-- `calling` tells who is in a cache call past its `pool.get()`, `wake` when a duplicate's
    sleep is over. -/
structure Pooled (libs : Libraries) where
  handler : System libs
  pool : Pool Nat
  calling : Nat → Bool
  wake : Nat → Nat

/-- A cache call begins with its one `pool.get()`, which hands out a connection or times
    out; the connection goes back when the call returns. -/
inductive PoolAction where
  | ask (i : Nat)
  | acquire (i : Nat)
  | timeOut (i : Nat) (text : String)
  | handle (a : Action)

structure PoolEvent where
  now : Nat
  action : PoolAction

variable {libs : Libraries} (settings : Settings) (requests : Nat → Request)

def Pooled.start (libs : Libraries) : Pooled libs :=
  ⟨System.start libs .redis, Pool.start, fun _ => false, fun _ => 0⟩

def commandOf : Action → Option Nat
  | .obtain i _ | .poll i _ | .pollTimeout i | .set i _ | .del i _ => some i
  | _ => none

def polls : Action → Bool
  | .poll .. | .pollTimeout _ => true
  | _ => false

def isPolling : Stage libs → Bool
  | .polling _ => true
  | _ => false

def inCache : Stage libs → Bool
  | .arrived | .polling _ | .storing .. | .dropping .. => true
  | _ => false

def failing (i : Nat) (text : String) : Stage libs → Option Action
  | .arrived => some (.obtain i (.lost text))
  | .polling _ => some (.poll i (.lost text))
  | .storing .. => some (.set i (.lost text))
  | .dropping .. => some (.del i (.lost text))
  | _ => none

/-- A loop with no poll to make fails like one with some. -/
def fail (s : System libs) (now i : Nat) (text : String) : Option (System libs) :=
  match s.stages i with
  | .polling 0 =>
      if s.clock ≤ now then some { s.move i (.returned (badGateway text)) with clock := now }
      else none
  | stage => (failing i text stage).bind fun a => step settings requests s ⟨now, a⟩

def poolStep (p : Pooled libs) (e : PoolEvent) : Option (Pooled libs) :=
  match e.action with
  | .ask i =>
      if p.handler.clock ≤ e.now ∧ inCache (p.handler.stages i) ∧ p.calling i = false then
        (ask i (e.now + connectionTimeout) p.pool).map fun pool =>
          { p with
            handler := { p.handler with clock := e.now }
            pool := pool
            calling := Function.update p.calling i true }
      else none
  | .acquire i =>
      if p.handler.clock ≤ e.now then
        (acquire maxSize i e.now p.pool).map fun pool =>
          { p with
            handler := { p.handler with clock := e.now }
            pool := pool
            wake := Function.update p.wake i e.now }
      else none
  | .timeOut i text =>
      (giveUp i e.now p.pool).bind fun pool =>
        (fail settings requests p.handler e.now i text).map fun handler =>
          { p with
            handler := handler
            pool := pool
            calling := Function.update p.calling i false }
  | .handle a =>
      match commandOf a with
      | none => (step settings requests p.handler ⟨e.now, a⟩).map fun handler =>
          { p with handler := handler }
      | some i =>
          if i ∈ p.pool.out ∧ (polls a = true → p.wake i ≤ e.now) then
            (step settings requests p.handler ⟨e.now, a⟩).map fun handler =>
              { handler := handler
                pool := if polls a && isPolling (handler.stages i) then p.pool
                  else release i p.pool
                calling := if polls a && isPolling (handler.stages i) then p.calling
                  else Function.update p.calling i false
                wake := Function.update p.wake i (e.now + settings.pollInterval) }
          else none

section Steps
variable {settings} {requests} {s t : System libs} {p q : Pooled libs} {e : PoolEvent} {i j now : Nat}
  {a : Action}

theorem pool_step_cases (moved : poolStep settings requests p e = some q) :
    (∃ i, e.action = .ask i ∧ p.handler.clock ≤ e.now ∧
      (inCache (p.handler.stages i) = true ∧ p.calling i = false) ∧
      ask i (e.now + connectionTimeout) p.pool = some q.pool ∧
      q.handler = { p.handler with clock := e.now } ∧
      q.calling = Function.update p.calling i true ∧ q.wake = p.wake) ∨
    (∃ i, e.action = .acquire i ∧ p.handler.clock ≤ e.now ∧
      acquire maxSize i e.now p.pool = some q.pool ∧
      q.handler = { p.handler with clock := e.now } ∧ q.calling = p.calling ∧
      q.wake = Function.update p.wake i e.now) ∨
    (∃ i text, e.action = .timeOut i text ∧ giveUp i e.now p.pool = some q.pool ∧
      fail settings requests p.handler e.now i text = some q.handler ∧
      q.calling = Function.update p.calling i false ∧ q.wake = p.wake) ∨
    (∃ a, e.action = .handle a ∧ step settings requests p.handler ⟨e.now, a⟩ = some q.handler ∧
      (commandOf a = none ∧ q.pool = p.pool ∧ q.calling = p.calling ∧ q.wake = p.wake ∨
        ∃ i, commandOf a = some i ∧ i ∈ p.pool.out ∧ (polls a = true → p.wake i ≤ e.now) ∧
          q.pool = (if polls a && isPolling (q.handler.stages i) then p.pool
            else release i p.pool) ∧
          q.calling = (if polls a && isPolling (q.handler.stages i) then p.calling
            else Function.update p.calling i false) ∧
          q.wake = Function.update p.wake i (e.now + settings.pollInterval))) := by
  unfold poolStep at moved
  split at moved
  · rename_i i asks
    split at moved
    · rename_i may
      obtain ⟨pool, asked, rfl⟩ := Option.map_eq_some_iff.mp moved
      exact Or.inl ⟨i, asks, may.1, may.2, asked, rfl, rfl, rfl⟩
    · cases moved
  · rename_i i acquires
    split at moved
    · rename_i order
      obtain ⟨pool, given, rfl⟩ := Option.map_eq_some_iff.mp moved
      exact Or.inr (Or.inl ⟨i, acquires, order, given, rfl, rfl, rfl⟩)
    · cases moved
  · rename_i i text ends
    obtain ⟨pool, gone, rest⟩ := Option.bind_eq_some_iff.mp moved
    obtain ⟨handler, failed, rfl⟩ := Option.map_eq_some_iff.mp rest
    exact Or.inr (Or.inr (Or.inl ⟨i, text, ends, gone, failed, rfl, rfl⟩))
  · rename_i a handles
    split at moved
    · rename_i outside
      obtain ⟨handler, went, rfl⟩ := Option.map_eq_some_iff.mp moved
      exact Or.inr (Or.inr (Or.inr ⟨a, handles, went, Or.inl ⟨outside, rfl, rfl, rfl⟩⟩))
    · rename_i i command
      split at moved
      · rename_i held
        obtain ⟨handler, went, rfl⟩ := Option.map_eq_some_iff.mp moved
        exact Or.inr (Or.inr (Or.inr ⟨a, handles, went,
          Or.inr ⟨i, command, held.1, held.2, rfl, rfl, rfl⟩⟩))
      · cases moved

theorem step_elsewhere {e : Event} (moved : step settings requests s e = some t)
    (other : requestOf e.action ≠ some j) : t.stages j = s.stages j ∧ t.since j = s.since j := by
  obtain ⟨_, u, performed, rfl⟩ := step_performed moved
  obtain ⟨now, a⟩ := e
  have apart : ∀ {i : Nat}, requestOf a = some i → j ≠ i := by
    intro i own same
    exact other (same ▸ own)
  have advanced : ∀ {i : Nat}, requestOf a = some i →
      (advance (requests i) (s.stages i) a).map (s.move i) = some u →
      u.stages j = s.stages j ∧ u.since j = s.since j := by
    intro i own moved
    obtain ⟨next, _, rfl⟩ := Option.map_eq_some_iff.mp moved
    exact ⟨Function.update_of_ne (apart own) _ _, rfl⟩
  cases a with
  | obtain i fault =>
    obtain ⟨_, rfl⟩ := perform_obtain performed
    have differs := apart rfl
    unfold stepObtain
    dsimp only
    split
    · exact ⟨Function.update_of_ne differs _ _, rfl⟩
    · exact ⟨Function.update_of_ne differs _ _, rfl⟩
    · exact ⟨Function.update_of_ne differs _ _, Function.update_of_ne differs _ _⟩
  | poll i fault =>
    obtain ⟨counter, _, rfl⟩ := perform_poll performed
    have differs := apart rfl
    unfold stepPoll
    dsimp only
    split
    · exact ⟨Function.update_of_ne differs _ _, rfl⟩
    · exact ⟨Function.update_of_ne differs _ _, rfl⟩
    · exact ⟨Function.update_of_ne differs _ _, rfl⟩
  | set i fault =>
    obtain ⟨rd, data, _, _, rfl⟩ := perform_set performed
    exact ⟨Function.update_of_ne (apart rfl) _ _, rfl⟩
  | del i fault =>
    obtain ⟨status, text, _, rfl⟩ := perform_del performed
    exact ⟨Function.update_of_ne (apart rfl) _ _, rfl⟩
  | clean =>
    cases performed
    exact ⟨rfl, rfl⟩
  | pollTimeout i => exact advanced rfl performed
  | readBody i read => exact advanced rfl performed
  | execute i answer => exact advanced rfl performed
  | receive i body => exact advanced rfl performed

theorem failing_own {text : String} {stage : Stage libs} (fails : failing i text stage = some a) :
    requestOf a = some i ∧ inCache stage = true ∧ ∀ fault, a = .set i fault → fault = .lost text := by
  unfold failing at fails
  split at fails
  · cases fails
    exact ⟨rfl, rfl, fun _ same => by cases same⟩
  · cases fails
    exact ⟨rfl, rfl, fun _ same => by cases same⟩
  · cases fails
    exact ⟨rfl, rfl, fun _ same => by cases same; rfl⟩
  · cases fails
    exact ⟨rfl, rfl, fun _ same => by cases same⟩
  · cases fails

theorem fail_cases {text : String} (failed : fail settings requests s now i text = some t) :
    (s.stages i = .polling 0 ∧ s.clock ≤ now ∧
      t = { s.move i (.returned (badGateway text)) with clock := now }) ∨
    ∃ a, failing i text (s.stages i) = some a ∧ step settings requests s ⟨now, a⟩ = some t := by
  unfold fail at failed
  split at failed
  · rename_i here
    split at failed
    · rename_i order
      cases failed
      exact Or.inl ⟨here, order, rfl⟩
    · cases failed
  · exact Or.inr (Option.bind_eq_some_iff.mp failed)

theorem fail_clock {text : String} (failed : fail settings requests s now i text = some t) :
    s.clock ≤ now ∧ t.clock = now := by
  rcases fail_cases failed with ⟨_, order, rfl⟩ | ⟨a, _, moved⟩
  · exact ⟨order, rfl⟩
  · exact WaitingDuplicates.step_clock moved

theorem tick_owned (inv : Owned settings requests s) (order : s.clock ≤ now) :
    Owned settings requests { s with clock := now } := by
  have later := Ownership.leased_later inv.1 order
  exact ⟨⟨later.sound, later.lease, later.filled⟩, ⟨inv.2.once, inv.2.served⟩⟩

def Within (settings : Settings) (p : Pooled libs) (e : PoolEvent) : Prop :=
  match e.action with
  | .handle a => WithinLease settings p.handler ⟨e.now, a⟩
  | .timeOut i _ => (p.handler.stages i).holding = true →
      e.now < p.handler.since i + settings.cacheTtl
  | _ => True

instance (settings : Settings) (p : Pooled libs) : ∀ e, Decidable (Within settings p e)
  | ⟨now, .handle a⟩ => inferInstanceAs (Decidable (WithinLease settings p.handler ⟨now, a⟩))
  | ⟨now, .timeOut i _⟩ => inferInstanceAs (Decidable ((p.handler.stages i).holding = true →
      now < p.handler.since i + settings.cacheTtl))
  | ⟨_, .ask _⟩ | ⟨_, .acquire _⟩ => isTrue trivial

theorem failing_within {text : String} (fails : failing i text (s.stages i) = some a)
    (timely : (s.stages i).holding = true → now < s.since i + settings.cacheTtl) :
    WithinLease settings s ⟨now, a⟩ := by
  unfold failing at fails
  split at fails
  · cases fails
    trivial
  · cases fails
    trivial
  · rename_i here
    cases fails
    exact timely (by rw [here]; rfl)
  · rename_i here
    cases fails
    exact timely (by rw [here]; rfl)
  · cases fails

theorem fail_owned {text : String} (inv : Owned settings requests s)
    (timely : (s.stages i).holding = true → now < s.since i + settings.cacheTtl)
    (failed : fail settings requests s now i text = some t) : Owned settings requests t := by
  rcases fail_cases failed with ⟨here, order, rfl⟩ | ⟨a, fails, moved⟩
  · have busy : (s.stages i).isReturned = false := by
      rw [here]
      rfl
    have ended : Owned settings requests (s.move i (.returned (badGateway text))) :=
      ⟨Ownership.leased_moved inv.1 (fun held => by cases held),
        Ownership.recorded_still inv.2 busy rfl rfl rfl⟩
    exact tick_owned ended order
  · exact Ownership.step_owned settings requests inv (failing_within fails timely) moved

theorem pool_step_owned (inv : Owned settings requests p.handler) (timely : Within settings p e)
    (moved : poolStep settings requests p e = some q) : Owned settings requests q.handler := by
  unfold Within at timely
  rcases pool_step_cases moved with ⟨i, asks, order, _, _, same, _⟩ |
    ⟨i, acquires, order, _, same, _⟩ | ⟨i, text, ends, _, failed, _⟩ | ⟨a, handles, went, _⟩
  · rw [same]
    exact tick_owned inv order
  · rw [same]
    exact tick_owned inv order
  · rw [ends] at timely
    exact fail_owned inv timely failed
  · rw [handles] at timely
    exact Ownership.step_owned settings requests inv timely went

theorem fail_elsewhere {text : String} (failed : fail settings requests s now i text = some t)
    (other : j ≠ i) : t.stages j = s.stages j ∧ t.since j = s.since j := by
  rcases fail_cases failed with ⟨_, _, rfl⟩ | ⟨a, fails, moved⟩
  · exact ⟨Function.update_of_ne other _ _, rfl⟩
  · have own := (failing_own fails).1
    refine step_elsewhere moved ?_
    dsimp only
    rw [own]
    exact fun same => other (Option.some.inj same).symm

theorem outside_cache {e : Event} (moved : step settings requests s e = some t)
    (outside : commandOf e.action = none) (cached : inCache (s.stages j) = true) :
    requestOf e.action ≠ some j := by
  obtain ⟨_, u, performed, _⟩ := step_performed moved
  obtain ⟨now, a⟩ := e
  intro own
  have advanced : ∀ {b : Action}, (∀ next, advance (requests j) (s.stages j) b ≠ some next) →
      (advance (requests j) (s.stages j) b).map (s.move j) = some u → False := by
    intro b stuck went
    obtain ⟨next, on, _⟩ := Option.map_eq_some_iff.mp went
    exact stuck next on
  cases a with
  | obtain | poll | set | del | pollTimeout => cases outside
  | clean => cases own
  | readBody i read =>
    cases own
    refine advanced ?_ performed
    intro next
    cases stage : s.stages j <;> simp_all [inCache, advance]
  | execute i answer =>
    cases own
    refine advanced ?_ performed
    intro next
    cases stage : s.stages j <;> simp_all [inCache, advance]
  | receive i body =>
    cases own
    refine advanced ?_ performed
    intro next
    cases stage : s.stages j <;> simp_all [inCache, advance]

/-- Every connection is with a request that is in a cache call, or free. -/
structure Accounted (p : Pooled libs) : Prop where
  bounded : Bounded maxSize p.pool
  holders : ∀ i ∈ p.pool.out, inCache (p.handler.stages i) = true ∧ p.calling i = true
  waiters : ∀ i, p.pool.waits i ≠ none →
    inCache (p.handler.stages i) = true ∧ p.calling i = true

theorem start_accounted (libs : Libraries) : Accounted (Pooled.start libs) :=
  ⟨start_bounded maxSize, fun _ mem => (List.not_mem_nil mem).elim, fun _ waits => absurd rfl waits⟩

theorem request_of_command (command : commandOf a = some i) : requestOf a = some i := by
  cases a with
  | obtain | poll | set | del | pollTimeout => exact command
  | clean | readBody | execute | receive => cases command

/-- A call asks once, so who asks has no connection yet. -/
theorem ask_accounted (inv : Accounted p) {deadline : Nat}
    (begins : inCache (p.handler.stages i) = true ∧ p.calling i = false)
    (asked : ask i deadline p.pool = some q.pool)
    (stages : q.handler.stages = p.handler.stages)
    (calling : q.calling = Function.update p.calling i true) : Accounted q := by
  have outside : i ∉ p.pool.out := by
    intro mem
    have called := (inv.holders i mem).2
    rw [begins.2] at called
    cases called
  obtain ⟨_, out, waits⟩ := ask_spec asked
  refine ⟨ask_bounded inv.bounded outside asked, ?_, ?_⟩
  · intro j mem
    rw [out] at mem
    have other : j ≠ i := fun here => outside (here ▸ mem)
    rw [stages, calling, Function.update_of_ne other]
    exact inv.holders j mem
  · intro j waiting
    rw [stages, calling]
    rw [waits] at waiting
    by_cases here : j = i
    · rw [here, Function.update_self]
      exact ⟨begins.1, rfl⟩
    · rw [Function.update_of_ne here] at waiting
      rw [Function.update_of_ne here]
      exact inv.waiters j waiting

theorem acquire_accounted (inv : Accounted p)
    (given : acquire maxSize i now p.pool = some q.pool)
    (stages : q.handler.stages = p.handler.stages) (calling : q.calling = p.calling) :
    Accounted q := by
  obtain ⟨⟨deadline, waiting, _⟩, _, out, waits⟩ := acquire_spec given
  refine ⟨acquire_bounded inv.bounded given, ?_, ?_⟩
  · intro j mem
    rw [out] at mem
    rw [stages, calling]
    rcases List.mem_cons.mp mem with rfl | before
    · exact inv.waiters j (by rw [waiting]; simp)
    · exact inv.holders j before
  · intro j still
    rw [stages, calling]
    exact inv.waiters j (still_waiting waits still).2

theorem time_out_accounted (inv : Accounted p) {text : String}
    (gone : giveUp i now p.pool = some q.pool)
    (failed : fail settings requests p.handler now i text = some q.handler)
    (calling : q.calling = Function.update p.calling i false) : Accounted q := by
  obtain ⟨⟨deadline, waiting, _⟩, out, waits⟩ := give_up_spec gone
  refine ⟨give_up_bounded inv.bounded gone, ?_, ?_⟩
  · intro j mem
    rw [out] at mem
    have outside : i ∉ p.pool.out := waiting_apart inv.bounded (by rw [waiting]; simp)
    have other : j ≠ i := fun here => outside (here ▸ mem)
    rw [(fail_elsewhere failed other).1, calling, Function.update_of_ne other]
    exact inv.holders j mem
  · intro j still
    obtain ⟨other, before⟩ := still_waiting waits still
    rw [(fail_elsewhere failed other).1, calling, Function.update_of_ne other]
    exact inv.waiters j before

theorem outside_accounted (inv : Accounted p) {handled : Event}
    (went : step settings requests p.handler handled = some q.handler)
    (outside : commandOf handled.action = none) (pool : q.pool = p.pool)
    (calling : q.calling = p.calling) : Accounted q := by
  refine ⟨by rw [pool]; exact inv.bounded, ?_, ?_⟩
  · intro j mem
    rw [pool] at mem
    rw [(step_elsewhere went (outside_cache went outside (inv.holders j mem).1)).1, calling]
    exact inv.holders j mem
  · intro j still
    rw [pool] at still
    rw [(step_elsewhere went (outside_cache went outside (inv.waiters j still).1)).1, calling]
    exact inv.waiters j still

theorem command_accounted (inv : Accounted p)
    (went : step settings requests p.handler ⟨now, a⟩ = some q.handler)
    (used : commandOf a = some i) (held : i ∈ p.pool.out)
    (pool : q.pool = (if polls a && isPolling (q.handler.stages i) then p.pool
      else release i p.pool))
    (calling : q.calling = (if polls a && isPolling (q.handler.stages i) then p.calling
      else Function.update p.calling i false)) : Accounted q := by
  have elsewhere : ∀ j, j ≠ i → q.handler.stages j = p.handler.stages j := by
    intro j other
    refine (step_elsewhere went ?_).1
    dsimp only
    rw [request_of_command used]
    exact fun same => other (Option.some.inj same).symm
  have idle : ∀ j, p.pool.waits j ≠ none → j ≠ i := by
    rintro j still rfl
    exact waiting_apart inv.bounded still held
  by_cases keeps : (polls a && isPolling (q.handler.stages i)) = true
  · rw [if_pos keeps] at pool calling
    have polling : isPolling (q.handler.stages i) = true := (Bool.and_eq_true_iff.mp keeps).2
    refine ⟨by rw [pool]; exact inv.bounded, ?_, ?_⟩
    · intro j mem
      rw [pool] at mem
      rw [calling]
      by_cases here : j = i
      · subst here
        refine ⟨?_, (inv.holders j mem).2⟩
        cases stage : q.handler.stages j <;> simp_all [isPolling, inCache]
      · rw [elsewhere j here]
        exact inv.holders j mem
    · intro j still
      rw [pool] at still
      rw [elsewhere j (idle j still), calling]
      exact inv.waiters j still
  · rw [if_neg keeps] at pool calling
    refine ⟨by rw [pool]; exact release_bounded inv.bounded i, ?_, ?_⟩
    · intro j mem
      rw [pool] at mem
      have other : j ≠ i := by
        rintro rfl
        exact (List.Nodup.not_mem_erase inv.bounded.once) mem
      rw [elsewhere j other, calling, Function.update_of_ne other]
      exact inv.holders j (List.mem_of_mem_erase mem)
    · intro j still
      rw [pool] at still
      have other := idle j still
      rw [elsewhere j other, calling, Function.update_of_ne other]
      exact inv.waiters j still

theorem pool_step_accounted (inv : Accounted p)
    (moved : poolStep settings requests p e = some q) : Accounted q := by
  rcases pool_step_cases moved with ⟨i, _, _, begins, asked, same, calling, _⟩ |
    ⟨i, _, _, given, same, calling, _⟩ | ⟨i, text, _, gone, failed, calling, _⟩ |
    ⟨a, _, went, command⟩
  · exact ask_accounted inv begins asked (by rw [same]) calling
  · exact acquire_accounted inv given (by rw [same]) calling
  · exact time_out_accounted inv gone failed calling
  · rcases command with ⟨outside, pool, calling, _⟩ | ⟨i, used, held, _, pool, calling, _⟩
    · exact outside_accounted inv went outside pool calling
    · exact command_accounted inv went used held pool calling

/-- While the holder `i` waits for a connection to store its response, up to `d`: the
    connections are with duplicates of its request that still have polls to make. -/
structure Held (settings : Settings) (requests : Nat → Request) (i d : Nat) (p : Pooled libs) :
    Prop where
  lasts : d < p.handler.since i + settings.cacheTtl
  full : p.pool.out.length = maxSize
  duplicates : ∀ j ∈ p.pool.out, key requests j = key requests i ∧ ∃ counter,
    p.handler.stages j = .polling counter ∧ d < p.wake j + counter * settings.pollInterval

/-- The holder waits, in vain until its deadline and without end after it. -/
structure Stuck (settings : Settings) (requests : Nat → Request) (i d : Nat) (p : Pooled libs) :
    Prop where
  waits : p.pool.waits i = some d
  storing : ∃ rd data serialised, p.handler.stages i = .storing rd data serialised
  held : p.handler.clock ≤ d → Held settings requests i d p

def Refused (i : Nat) (p : Pooled libs) : Prop :=
  ∃ text, p.handler.stages i = .returned (badGateway text)

def Answers (_ : Pooled libs) (e : PoolEvent) : Prop :=
  ∀ i fault, e.action = .handle (.poll i fault) → fault = .none

def OnRedis (s : System libs) : Prop := ∃ keyspace, s.cacher = .redis keyspace

theorem step_on_redis {e : Event} (redis : OnRedis s) (moved : step settings requests s e = some t) :
    OnRedis t := by
  obtain ⟨keyspace, cacher⟩ := redis
  obtain ⟨_, u, performed, rfl⟩ := step_performed moved
  obtain ⟨now, a⟩ := e
  have advanced : ∀ {j : Nat} {b : Action},
      (advance (requests j) (s.stages j) b).map (s.move j) = some u → OnRedis u := by
    intro j b went
    obtain ⟨next, _, rfl⟩ := Option.map_eq_some_iff.mp went
    exact ⟨keyspace, cacher⟩
  cases a with
  | obtain j fault =>
    obtain ⟨_, rfl⟩ := perform_obtain performed
    have after : (stepObtain settings requests s j now fault).cacher =
        (obtain (.redis keyspace) (requests j).idempotencyKey settings.cacheTtl now fault).1 := by
      rw [obtain_cacher, cacher]
    exact ⟨_, after⟩
  | poll j fault =>
    obtain ⟨counter, _, rfl⟩ := perform_poll performed
    exact ⟨keyspace, (poll_cacher requests s j counter now fault).trans cacher⟩
  | set j fault =>
    obtain ⟨rd, data, _, _, rfl⟩ := perform_set performed
    have after : (stepSet settings requests s j rd data now fault).cacher =
        (HybridCache.set (.redis keyspace) (requests j).idempotencyKey data settings.cacheTtl now
          fault).1 := by
      rw [← cacher]
      rfl
    exact ⟨_, after⟩
  | del j fault =>
    obtain ⟨status, text, _, rfl⟩ := perform_del performed
    have after : (stepDel requests s j status text fault).cacher =
        (HybridCache.del (.redis keyspace) (requests j).idempotencyKey fault).1 := by
      rw [← cacher]
      rfl
    exact ⟨_, after⟩
  | clean =>
    cases performed
    refine ⟨keyspace, ?_⟩
    simp only [cacher]
    rfl
  | pollTimeout j => exact advanced performed
  | readBody j read => exact advanced performed
  | execute j answer => exact advanced performed
  | receive j body => exact advanced performed

theorem pool_step_on_redis (redis : OnRedis p.handler)
    (moved : poolStep settings requests p e = some q) : OnRedis q.handler := by
  rcases pool_step_cases moved with ⟨i, _, _, _, _, same, _⟩ | ⟨i, _, _, _, same, _⟩ |
    ⟨i, text, _, _, failed, _⟩ | ⟨a, _, went, _⟩
  · rw [same]
    exact redis
  · rw [same]
    exact redis
  · rcases fail_cases failed with ⟨_, _, same⟩ | ⟨a, _, went⟩
    · rw [same]
      exact redis
    · exact step_on_redis redis went
  · exact step_on_redis redis went

theorem poll_placeholder {counter expiry : Nat} (redis : OnRedis s)
    (alive : live (view s.cacher) now (key requests j) = some (expiry, placeholder s.cacher)) :
    stepPoll requests s j counter now .none = s.move j (.polling counter) := by
  obtain ⟨keyspace, cacher⟩ := redis
  rw [cacher] at alive
  have found : live keyspace now (key requests j) = some (expiry, RedisCache.obtained) := alive
  have read : pollTurn s.cacher (requests j).idempotencyKey now .none = .ok none := by
    rw [cacher]
    rw [key] at found
    simp only [pollTurn, RedisCache.pollTurn, RedisCache.command, found]
    rfl
  unfold stepPoll
  dsimp only
  rw [read]

theorem fail_storing {text : String} {rd : ResponseData} {data : Bytes}
    {serialised : libs.toBytes rd = .ok data} (redis : OnRedis s)
    (here : s.stages i = .storing rd data serialised)
    (failed : fail settings requests s now i text = some t) :
    t.stages i = .returned (badGateway text) ∧ t.cacher = s.cacher := by
  obtain ⟨keyspace, cacher⟩ := redis
  rcases fail_cases failed with ⟨polling, _⟩ | ⟨a, fails, moved⟩
  · cases here.symm.trans polling
  · rw [here] at fails
    cases fails
    obtain ⟨_, u, performed, rfl⟩ := step_performed moved
    obtain ⟨rd', data', _, _, rfl⟩ := perform_set performed
    simp only [stepSet, System.move, Function.update_self, cacher]
    exact ⟨rfl, rfl⟩

structure Sane (settings : Settings) (requests : Nat → Request) (p : Pooled libs) : Prop where
  owned : Owned settings requests p.handler
  redis : OnRedis p.handler
  accounted : Accounted p

theorem start_sane (settings : Settings) (requests : Nat → Request) (libs : Libraries) :
    Sane settings requests (Pooled.start libs) :=
  ⟨Ownership.start_owned settings requests .redis, ⟨_, rfl⟩, start_accounted libs⟩

theorem pool_step_sane (inv : Sane settings requests p) (timely : Within settings p e)
    (moved : poolStep settings requests p e = some q) : Sane settings requests q :=
  ⟨pool_step_owned inv.owned timely moved, pool_step_on_redis inv.redis moved,
    pool_step_accounted inv.accounted moved⟩

theorem held_step {d : Nat} (inv : Sane settings requests p)
    (held : Held settings requests i d p) (holds : (p.handler.stages i).holding = true)
    (early : now ≤ d) (mem : j ∈ p.pool.out) (command : commandOf a = some j)
    (awake : polls a = true → p.wake j ≤ now)
    (answers : ∀ fault, a = .poll j fault → fault = .none)
    (moved : step settings requests p.handler ⟨now, a⟩ = some t) :
    polls a = true ∧ ∃ counter, p.handler.stages j = .polling (counter + 1) ∧
      t.stages = Function.update p.handler.stages j (.polling counter) := by
  obtain ⟨sameKey, counter, here, left⟩ := held.duplicates j mem
  obtain ⟨order, u, performed, rfl⟩ := step_performed moved
  have lasts := held.lasts
  cases a with
  | obtain k fault =>
    cases command
    obtain ⟨waits, _⟩ := perform_obtain performed
    cases here.symm.trans waits
  | set k fault =>
    cases command
    obtain ⟨_, _, _, stores, _⟩ := perform_set performed
    cases here.symm.trans stores
  | del k fault =>
    cases command
    obtain ⟨_, _, drops, _⟩ := perform_del performed
    cases here.symm.trans drops
  | pollTimeout k =>
    cases command
    have woken := awake rfl
    obtain ⟨next, on, _⟩ := Option.map_eq_some_iff.mp performed
    rw [here] at on
    cases counter with
    | zero => omega
    | succ n => cases on
  | poll k fault =>
    cases command
    cases answers fault rfl
    obtain ⟨n, polling, rfl⟩ := perform_poll performed
    have leased := Ownership.leased_later inv.owned.1 order
    dsimp only at leased
    obtain ⟨alive, _⟩ := Ownership.lease_entry leased holds (by omega)
    rw [← sameKey] at alive
    refine ⟨rfl, n, polling, ?_⟩
    rw [poll_placeholder inv.redis alive]
    rfl
  | clean | readBody | execute | receive => cases command

theorem held_polled {d counter : Nat} (held : Held settings requests i d p) (mem : j ∈ p.pool.out)
    (awake : p.wake j ≤ now) (here : p.handler.stages j = .polling (counter + 1))
    (stages : q.handler.stages = Function.update p.handler.stages j (.polling counter))
    (since : q.handler.since i = p.handler.since i) (pool : q.pool = p.pool)
    (wake : q.wake = Function.update p.wake j (now + settings.pollInterval)) :
    Held settings requests i d q := by
  refine ⟨by rw [since]; exact held.lasts, by rw [pool]; exact held.full, fun k inside => ?_⟩
  rw [pool] at inside
  obtain ⟨sameKey, n, polling, left⟩ := held.duplicates k inside
  refine ⟨sameKey, ?_⟩
  rw [stages, wake]
  by_cases same : k = j
  · subst same
    rw [here] at polling
    cases polling
    rw [Nat.add_mul, Nat.one_mul] at left
    refine ⟨counter, Function.update_self _ _ _, ?_⟩
    rw [Function.update_self]
    omega
  · rw [Function.update_of_ne same, Function.update_of_ne same]
    exact ⟨n, polling, left⟩

theorem stuck_kept {d : Nat} (stuck : Stuck settings requests i d p)
    (waits : q.pool.waits i = p.pool.waits i)
    (stages : q.handler.stages i = p.handler.stages i)
    (held : q.handler.clock ≤ d → Held settings requests i d q) :
    Stuck settings requests i d q := by
  refine ⟨waits.trans stuck.waits, ?_, held⟩
  rw [stages]
  exact stuck.storing

theorem storing_holding {rd : ResponseData} {data : Bytes} {serialised : libs.toBytes rd = .ok data}
    (here : s.stages i = .storing rd data serialised) : (s.stages i).holding = true := by
  rw [here]
  rfl

/-- One step: the holder waits on or is refused, and until its deadline nobody moves. -/
theorem step_stuck {d : Nat} (inv : Sane settings requests p)
    (stuck : Stuck settings requests i d p) (answers : Answers p e)
    (moved : poolStep settings requests p e = some q) :
    Stuck settings requests i d q ∨ Refused i q := by
  obtain ⟨rd, data, serialised, here⟩ := stuck.storing
  have outside : i ∉ p.pool.out := by
    intro mem
    have idle := inv.accounted.bounded.apart i mem
    rw [stuck.waits] at idle
    cases idle
  rcases pool_step_cases moved with ⟨j, _, order, _, asked, same, _, wake⟩ |
    ⟨j, _, order, given, same, _, wake⟩ | ⟨j, text, _, gone, failed, _, wake⟩ |
    ⟨a, handles, went, command⟩
  · obtain ⟨idle, out, waits⟩ := ask_spec asked
    have other : i ≠ j := by
      rintro rfl
      rw [stuck.waits] at idle
      cases idle
    refine Or.inl (stuck_kept stuck ?_ (by rw [same]) fun early => ?_)
    · rw [waits]
      exact Function.update_of_ne other _ _
    · rw [same] at early
      dsimp only at early
      have held := stuck.held (by omega)
      exact ⟨by rw [same]; exact held.lasts, by rw [out]; exact held.full,
        by rw [out, same, wake]; exact held.duplicates⟩
  · obtain ⟨⟨deadline, waiting, early⟩, room, _, waits⟩ := acquire_spec given
    have late : d < e.now := by
      by_contra before
      have full := (stuck.held (by omega)).full
      omega
    have other : i ≠ j := by
      rintro rfl
      rw [stuck.waits] at waiting
      cases waiting
      omega
    refine Or.inl (stuck_kept stuck ?_ (by rw [same]) fun early => ?_)
    · rw [waits]
      exact Function.update_of_ne other _ _
    · rw [same] at early
      dsimp only at early
      omega
  · obtain ⟨⟨deadline, waiting, _⟩, out, waits⟩ := give_up_spec gone
    by_cases own : j = i
    · subst own
      exact Or.inr ⟨text, (fail_storing inv.redis here failed).1⟩
    · obtain ⟨stages, since⟩ := fail_elsewhere failed (Ne.symm own)
      refine Or.inl (stuck_kept stuck ?_ stages fun early => ?_)
      · rw [waits]
        exact Function.update_of_ne (Ne.symm own) _ _
      · obtain ⟨order, clock⟩ := fail_clock failed
        have held := stuck.held (by omega)
        refine ⟨by rw [since]; exact held.lasts, by rw [out]; exact held.full, fun k mem => ?_⟩
        rw [out] at mem
        have idle := inv.accounted.bounded.apart k mem
        have differs : k ≠ j := by
          rintro rfl
          rw [waiting] at idle
          cases idle
        rw [(fail_elsewhere failed differs).1, wake]
        exact held.duplicates k mem
  · obtain ⟨order, clock⟩ := WaitingDuplicates.step_clock went
    dsimp only at order clock
    rcases command with ⟨free, pool, _, wake⟩ | ⟨j, used, mem, awake, pool, _, wake⟩
    · have elsewhere : ∀ k, inCache (p.handler.stages k) = true →
          q.handler.stages k = p.handler.stages k ∧ q.handler.since k = p.handler.since k :=
        fun k cached => step_elsewhere went (outside_cache went free cached)
      obtain ⟨stages, since⟩ := elsewhere i (by rw [here]; rfl)
      refine Or.inl (stuck_kept stuck (by rw [pool]) stages fun early => ?_)
      have held := stuck.held (by omega)
      refine ⟨by rw [since]; exact held.lasts, by rw [pool]; exact held.full, fun k inside => ?_⟩
      rw [pool] at inside
      rw [(elsewhere k (inv.accounted.holders k inside).1).1, wake]
      exact held.duplicates k inside
    · have other : i ≠ j := by
        rintro rfl
        exact outside mem
      obtain ⟨stages, since⟩ : q.handler.stages i = p.handler.stages i ∧
          q.handler.since i = p.handler.since i := by
        refine step_elsewhere went ?_
        dsimp only
        rw [request_of_command used]
        exact fun same => other (Option.some.inj same).symm
      have waits : q.pool.waits i = p.pool.waits i := by
        rw [pool]
        split
        · rfl
        · rfl
      refine Or.inl (stuck_kept stuck waits stages fun early => ?_)
      have held := stuck.held (by omega)
      have answered : ∀ fault, a = .poll j fault → fault = .none := by
        intro fault same
        exact answers j fault (by rw [handles, same])
      obtain ⟨polled, counter, polling, next⟩ := held_step inv held (storing_holding here)
        (by omega) mem used awake answered went
      have keeps : (polls a && isPolling (q.handler.stages j)) = true := by
        rw [polled, next, Function.update_self]
        rfl
      rw [if_pos keeps] at pool
      exact held_polled held mem (awake polled) polling next since pool wake

structure Unserved (i : Nat) (s : System libs) : Prop where
  blank : ∀ k e v, view s.cacher k = some (e, v) → s.creator k = some i →
    v = placeholder s.cacher
  served : ∀ j v, s.served j ≠ some (i, v)

theorem not_written_unserved (inv : Owned settings requests s) (silent : s.wrote i = none) :
    Unserved i s := by
  constructor
  · intro k e v found whose
    rcases inv.1.filled k e v found with blank | ⟨c, owner, written⟩
    · exact blank
    · rw [whose] at owner
      cases owner
      rw [silent] at written
      cases written
  · intro j v found
    rw [(inv.2.served j i v found).1] at silent
    cases silent

theorem unserved_kept (inv : Unserved i s) (cacher : t.cacher = s.cacher)
    (creator : t.creator = s.creator) (served : t.served = s.served) : Unserved i t := by
  refine ⟨?_, by rw [served]; exact inv.served⟩
  rw [cacher, creator]
  exact inv.blank

theorem obtain_unserved (inv : Unserved i s) (fault : Fault) :
    Unserved i (stepObtain settings requests s j now fault) := by
  have bound := settings.ttl_bound
  have cacher := obtain_cacher settings requests s j now fault
  constructor
  · intro k e v found whose
    rw [cacher, placeholder_obtain]
    by_cases same : view (stepObtain settings requests s j now fault).cacher k = view s.cacher k
    · rw [obtain_record fault same] at whose
      rw [same] at found
      exact inv.blank k e v found whose
    · rw [cacher] at same found
      rcases obtain_cases s.cacher (requests j).idempotencyKey settings.cacheTtl now fault
        (by omega) with ⟨unchanged, _⟩ | ⟨_, stored, _⟩
      · rw [unchanged] at same
        exact absurd rfl same
      · rw [stored] at same found
        by_cases here : k = (requests j).idempotencyKey
        · rw [here, put_same] at found
          cases found
          rfl
        · rw [put_other _ _ here] at same
          exact absurd rfl same
  · rw [(obtain_records settings requests s j now fault).2]
    exact inv.served

theorem poll_unserved {counter : Nat} (inv : Unserved i s) (fault : Fault) :
    Unserved i (stepPoll requests s j counter now fault) := by
  unfold stepPoll
  dsimp only
  split
  · exact unserved_kept inv rfl rfl rfl
  · exact unserved_kept inv rfl rfl rfl
  · rename_i data read
    obtain ⟨⟨expiry, stored⟩, filled⟩ := poll_view _ _ _ _ read
    refine ⟨inv.blank, fun k v found => ?_⟩
    dsimp only at found
    by_cases here : k = j
    · rw [here, Function.update_self] at found
      obtain ⟨c, whose, same⟩ := Option.map_eq_some_iff.mp found
      cases same
      exact filled (inv.blank _ _ _ stored whose)
    · rw [Function.update_of_ne here] at found
      exact inv.served k v found

theorem set_unserved {rd : ResponseData} {data : Bytes} (inv : Unserved i s)
    (leased : Leased settings requests now s) (holds : (s.stages j).holding = true)
    (early : now < s.since j + settings.cacheTtl) (other : j ≠ i) (fault : Fault) :
    Unserved i (stepSet settings requests s j rd data now fault) := by
  obtain ⟨_, owner⟩ := Ownership.lease_entry leased holds early
  refine ⟨fun k e v found whose => ?_, inv.served⟩
  have back : placeholder (stepSet settings requests s j rd data now fault).cacher =
      placeholder s.cacher := placeholder_set _ _ _ _ _ _
  have apart : k ≠ key requests j := by
    intro here
    rw [here] at whose
    exact other (Option.some.inj (owner.symm.trans whose))
  rw [back]
  refine inv.blank k e v (Eq.trans ?_ found) whose
  rcases set_view s.cacher (key requests j) data settings.cacheTtl now fault with
    stored | gone | same
  · exact ((congrFun stored k).trans (put_other _ _ apart)).symm
  · exact ((congrFun gone k).trans (remove_other apart)).symm
  · exact (congrFun same k).symm

theorem del_unserved {status : Nat} {text : String} (inv : Unserved i s) (fault : Fault) :
    Unserved i (stepDel requests s j status text fault) := by
  refine ⟨fun k e v found whose => ?_, inv.served⟩
  have back : placeholder (stepDel requests s j status text fault).cacher =
      placeholder s.cacher := placeholder_del _ _ _
  rw [back]
  refine inv.blank k e v ?_ whose
  rcases del_view s.cacher (key requests j) fault with gone | same
  · by_cases here : k = key requests j
    · rw [here] at found
      have empty := (congrFun gone (key requests j)).trans (remove_same _ _)
      cases empty.symm.trans found
    · exact ((congrFun gone k).trans (remove_other here)).symm.trans found
  · exact (congrFun same k).symm.trans found

theorem step_unserved {e : Event} (inv : Unserved i s) (owned : Owned settings requests s)
    (redis : OnRedis s) (timely : WithinLease settings s e)
    (silent : ∀ fault, e.action = .set i fault → ∃ text, fault = .lost text)
    (moved : step settings requests s e = some t) : Unserved i t := by
  obtain ⟨order, u, performed, rfl⟩ := step_performed moved
  obtain ⟨now, a⟩ := e
  have leased := Ownership.leased_later owned.1 order
  dsimp only at leased
  have advanced : ∀ {k : Nat} {b : Action},
      (advance (requests k) (s.stages k) b).map (s.move k) = some u → Unserved i u := by
    intro k b went
    obtain ⟨next, _, rfl⟩ := Option.map_eq_some_iff.mp went
    exact unserved_kept inv rfl rfl rfl
  have after : Unserved i u := by
    cases a with
    | obtain k fault =>
      obtain ⟨_, rfl⟩ := perform_obtain performed
      exact obtain_unserved inv fault
    | poll k fault =>
      obtain ⟨counter, _, rfl⟩ := perform_poll performed
      exact poll_unserved inv fault
    | set k fault =>
      have holds := writer_holding (Or.inl performed)
      obtain ⟨rd, data, _, _, rfl⟩ := perform_set performed
      by_cases own : k = i
      · subst own
        obtain ⟨text, rfl⟩ := silent fault rfl
        obtain ⟨keyspace, cacher⟩ := redis
        refine unserved_kept inv ?_ rfl rfl
        simp only [stepSet, System.move, cacher]
        rfl
      · exact set_unserved inv leased holds timely own fault
    | del k fault =>
      obtain ⟨status, text, _, rfl⟩ := perform_del performed
      exact del_unserved inv fault
    | clean =>
      cases performed
      refine ⟨fun k e v found whose => ?_, inv.served⟩
      rw [placeholder_clean]
      exact inv.blank k e v (clean_view found) whose
    | pollTimeout k => exact advanced performed
    | readBody k read => exact advanced performed
    | execute k answer => exact advanced performed
    | receive k body => exact advanced performed
  exact ⟨after.blank, after.served⟩

theorem handles_no_set {d : Nat} (inv : Sane settings requests p)
    (lost : Stuck settings requests i d p ∨ Refused i p) (handles : e.action = .handle a)
    (moved : poolStep settings requests p e = some q) (fault : Fault) : a ≠ .set i fault := by
  rintro rfl
  rcases pool_step_cases moved with ⟨j, asks, _⟩ | ⟨j, acquires, _⟩ | ⟨j, text, ends, _⟩ |
    ⟨b, same, went, command⟩
  · cases handles.symm.trans asks
  · cases handles.symm.trans acquires
  · cases handles.symm.trans ends
  · cases handles.symm.trans same
    rcases lost with stuck | ⟨text, ended⟩
    · rcases command with ⟨free, _⟩ | ⟨j, used, mem, _⟩
      · cases free
      · cases used
        have idle := inv.accounted.bounded.apart i mem
        rw [stuck.waits] at idle
        cases idle
    · obtain ⟨_, u, performed, _⟩ := step_performed went
      obtain ⟨_, _, _, here, _⟩ := perform_set performed
      cases ended.symm.trans here

theorem pool_step_unserved {d : Nat} (inv : Sane settings requests p)
    (lost : Stuck settings requests i d p ∨ Refused i p) (unserved : Unserved i p.handler)
    (timely : Within settings p e) (moved : poolStep settings requests p e = some q) :
    Unserved i q.handler := by
  have silent := fun a handles fault =>
    handles_no_set (a := a) inv lost handles moved fault
  unfold Within at timely
  rcases pool_step_cases moved with ⟨j, _, _, _, _, same, _⟩ | ⟨j, _, _, _, same, _⟩ |
    ⟨j, text, ends, _, failed, _⟩ | ⟨a, handles, went, _⟩
  · rw [same]
    exact unserved_kept unserved rfl rfl rfl
  · rw [same]
    exact unserved_kept unserved rfl rfl rfl
  · rw [ends] at timely
    rcases fail_cases failed with ⟨_, _, same⟩ | ⟨a, fails, went⟩
    · rw [same]
      exact unserved_kept unserved rfl rfl rfl
    · have own := failing_own fails
      refine step_unserved unserved inv.owned inv.redis (failing_within fails timely) ?_ went
      intro fault stores
      dsimp only at stores
      rw [stores] at own
      have same : i = j := Option.some.inj own.1
      exact ⟨text, own.2.2 fault (by rw [same])⟩
  · rw [handles] at timely
    refine step_unserved unserved inv.owned inv.redis timely ?_ went
    intro fault stores
    exact absurd stores (silent a handles fault)

theorem pool_step_refused (refused : Refused i p) (moved : poolStep settings requests p e = some q) :
    Refused i q := by
  obtain ⟨text, ended⟩ := refused
  refine ⟨text, ?_⟩
  rcases pool_step_cases moved with ⟨j, _, _, _, _, same, _⟩ | ⟨j, _, _, _, same, _⟩ |
    ⟨j, why, _, _, failed, _⟩ | ⟨a, _, went, _⟩
  · rw [same]
    exact ended
  · rw [same]
    exact ended
  · rcases fail_cases failed with ⟨polling, _, same⟩ | ⟨a, _, went⟩
    · have other : i ≠ j := by
        rintro rfl
        cases ended.symm.trans polling
      rw [same]
      exact (Function.update_of_ne other _ _).trans ended
    · exact WaitingDuplicates.step_returned went ended
  · exact WaitingDuplicates.step_returned went ended

theorem run_sane {evs : List PoolEvent}
    (timely : Along (poolStep settings requests) (Within settings) (Pooled.start libs) evs)
    (accepted : run (poolStep settings requests) (Pooled.start libs) evs = some p) :
    Sane settings requests p :=
  run_keeps (fun _ _ _ inv good moved => pool_step_sane inv good moved)
    (start_sane settings requests libs) timely accepted

theorem run_stuck {d : Nat} {more : List PoolEvent} (inv : Sane settings requests p)
    (timely : Along (poolStep settings requests) (Within settings) p more)
    (answers : Along (poolStep settings requests) Answers p more)
    (lost : Stuck settings requests i d p ∨ Refused i p) (unserved : Unserved i p.handler)
    (onwards : run (poolStep settings requests) p more = some q) :
    (Stuck settings requests i d q ∨ Refused i q) ∧ Unserved i q.handler := by
  have all : Sane settings requests q ∧ (Stuck settings requests i d q ∨ Refused i q) ∧
      Unserved i q.handler := by
    refine run_keeps (I := fun p => Sane settings requests p ∧
      (Stuck settings requests i d p ∨ Refused i p) ∧ Unserved i p.handler) ?_
      ⟨inv, lost, unserved⟩ (along_and timely answers) onwards
    intro a e b both good moved
    obtain ⟨sane, lost, unserved⟩ := both
    refine ⟨pool_step_sane sane good.1 moved, ?_,
      pool_step_unserved sane lost unserved good.1 moved⟩
    rcases lost with stuck | refused
    · exact step_stuck sane stuck good.2 moved
    · exact Or.inr (pool_step_refused refused moved)
  exact all.2

end Steps

/-- In every reachable state each of the ten connections is free or with one request, one
    that is in a cache call and waits for no other: none is lost. -/
theorem connections_accounted {libs : Libraries} {settings : Settings} {requests : Nat → Request}
    {evs : List PoolEvent} {p : Pooled libs}
    (accepted : run (poolStep settings requests) (Pooled.start libs) evs = some p) : Accounted p :=
  run_invariant (fun _ _ _ inv moved => pool_step_accounted inv moved) (start_accounted libs)
    accepted

section Sample

def calls (j now : Nat) (a : Action) : List PoolEvent :=
  [⟨now, .ask j⟩, ⟨now, .acquire j⟩, ⟨now, .handle a⟩]

def crowdedRun : List PoolEvent :=
  calls 0 0 (.obtain 0 .none) ++ [⟨1, .handle (.readBody 0 (.ok ()))⟩] ++
    ((List.range 10).flatMap fun n =>
      calls (n + 1) 2 (.obtain (n + 1) .none) ++ calls (n + 1) 2 (.poll (n + 1) .none)) ++
    [⟨500, .handle (.execute 0 (.ok (200, [])))⟩, ⟨501, .handle (.receive 0 (.ok [1]))⟩,
      ⟨502, .ask 0⟩]

def refusedRun : List PoolEvent :=
  [⟨600, .handle (.poll 1 .none)⟩, ⟨3502, .timeOut 0 "Timed out in bb8"⟩]

def pollsLeft : Stage libs → Option Nat
  | .polling counter => some counter
  | _ => none

theorem polls_left {stage : Stage libs} {counter : Nat} (left : pollsLeft stage = some counter) :
    stage = .polling counter := by
  unfold pollsLeft at left
  split at left
  · rw [Option.some.inj left]
  · cases left

def stores : Stage libs → Bool
  | .storing .. => true
  | _ => false

theorem storing_of_stores {stage : Stage libs} (held : stores stage = true) :
    ∃ rd data serialised, stage = .storing rd data serialised := by
  unfold stores at held
  split at held
  · exact ⟨_, _, _, rfl⟩
  · cases held

def crowded (p : Pooled libs) : Bool :=
  decide (p.pool.waits 0 = some 3502) && stores (p.handler.stages 0) &&
    decide (p.handler.since 0 = 0 ∧ p.pool.out.length = maxSize) &&
    p.pool.out.all fun j => decide (pollsLeft (p.handler.stages j) = some 99 ∧ p.wake j = 102)

theorem stuck_of_crowded {p : Pooled libs} (seen : crowded p = true) :
    Stuck defaults postRequest 0 3502 p := by
  simp only [crowded, Bool.and_eq_true, decide_eq_true_eq, List.all_eq_true] at seen
  obtain ⟨⟨⟨waits, storing⟩, since, full⟩, duplicates⟩ := seen
  have ttl : defaults.cacheTtl = 10000 := rfl
  have interval : defaults.pollInterval = 100 := rfl
  refine ⟨waits, storing_of_stores storing, fun _ => ⟨by omega, full, fun j mem => ?_⟩⟩
  obtain ⟨left, wake⟩ := duplicates j mem
  exact ⟨rfl, 99, polls_left left, by omega⟩

theorem crowd_accounted : ∃ p, run (poolStep defaults postRequest)
    (Pooled.start StoredForm.libraries) crowdedRun = some p ∧ Accounted p := by
  obtain ⟨p, accepted⟩ := Option.isSome_iff_exists.mp
    (show (run (poolStep defaults postRequest) (Pooled.start StoredForm.libraries)
      crowdedRun).isSome = true by decide +kernel)
  exact ⟨p, accepted, connections_accounted accepted⟩

end Sample
end RedisPool
