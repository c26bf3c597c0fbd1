import IdempotentProxy.Foundations.EventRuns
import IdempotentProxy.Server.HybridCacher
import IdempotentProxy.Server.StoredForm

/-!
The two back ends run side by side on the same calls of `proxy`: one ttl, one
clock, `set` values that `to_bytes` produced, and cleaning tasks of the in-memory
back end at any time. What `proxy` can tell of a call is its outcome. Memory keeps
an expired entry until a cleaning run, a `set`, a `del` or the next `obtain` meets
it, and its polls still read it; Redis drops it at once.
-/
namespace Interchange
open ExpiringStore EventRuns HybridCache
open MemoryCache (MemoryCacher QueueAgrees QueueExact NoStaleKey)
open RedisCache (Keyspace)
open CachedResponse (Bytes Libraries ResponseData)

structure Serialised (libs : Libraries) where
  data : Bytes
  from_response : ∃ rd, libs.toBytes rd = .ok data

inductive Call (libs : Libraries) where
  | obtain (key : String)
  | poll (key : String)
  | set (key : String) (val : Serialised libs)
  | del (key : String)
  | clean

structure Event (libs : Libraries) where
  now : Nat
  call : Call libs

/-- A call's answer as far as `proxy` distinguishes it. -/
inductive Outcome where
  | leased (lock : Bool)
  | stored
  | failed
  | response (data : Bytes)
  | placeholder
  | nothing
  | ignored
  deriving DecidableEq

def obtainOutcome : Except String Bool → Outcome
  | .ok lock => .leased lock
  | .error _ => .failed

def pollOutcome : Except String (Option Bytes) → Outcome
  | .ok (some data) => .response data
  | .ok none => .placeholder
  | .error _ => .nothing

/-- `Ok(true)` and `Ok(false)` are one to `proxy`. -/
def setOutcome : Except String Bool → Outcome
  | .ok _ => .stored
  | .error _ => .failed

structure Pair where
  memory : MemoryCacher
  redis : Keyspace
  clock : Nat

def Pair.start : Pair := ⟨MemoryCacher.default, fun _ => none, 0⟩

variable {libs : Libraries} (ttl : Nat)

def memoryCall (mc : MemoryCacher) (now : Nat) : Call libs → MemoryCacher × Outcome
  | .obtain key =>
      let done := MemoryCache.obtain mc key ttl now
      (done.cacher, obtainOutcome done.reply)
  | .poll key => (mc, pollOutcome (MemoryCache.pollTurn mc key now).reply)
  | .set key val =>
      let done := MemoryCache.set mc key val.data ttl now
      (done.cacher, setOutcome done.reply)
  | .del key => ((MemoryCache.del mc key).cacher, .ignored)
  | .clean => (MemoryCache.cleanExpiredValues mc now, .ignored)

def redisCall (ks : Keyspace) (now : Nat) : Call libs → Keyspace × Outcome
  | .obtain key =>
      let (ks, reply) := RedisCache.obtain ks key ttl now .none
      (ks, obtainOutcome reply)
  | .poll key => (ks, pollOutcome (RedisCache.pollTurn ks key now .none))
  | .set key val =>
      let (ks, reply) := RedisCache.set ks key val.data ttl now .none
      (ks, setOutcome reply)
  | .del key => ((RedisCache.del ks key .none).1, .ignored)
  | .clean => (ks, .ignored)

def step (p : Pair) (e : Event libs) : Option Pair :=
  if p.clock ≤ e.now then
    some ⟨(memoryCall ttl p.memory e.now e.call).1, (redisCall ttl p.redis e.now e.call).1, e.now⟩
  else none

def Stands (libs : Libraries) (v w : Bytes) : Prop :=
  v = [] ∧ w = RedisCache.obtained ∨ v = w ∧ ∃ rd, libs.toBytes rd = .ok w

theorem obtained_stands : Stands libs [] RedisCache.obtained := Or.inl ⟨rfl, rfl⟩

theorem serialised_stands (val : Serialised libs) : Stands libs val.data val.data :=
  Or.inr ⟨rfl, val.from_response⟩

theorem stands_read {v w : Bytes} (related : Stands libs v w) :
    (if v.isEmpty then none else some v) = if w.length > 1 then some w else none := by
  rcases related with ⟨left, right⟩ | ⟨same, rd, serialised⟩
  · subst left right
    rfl
  · subst same
    have long := libs.to_bytes_long rd v serialised
    have filled : v ≠ [] := by
      rintro rfl
      simp at long
    simp [filled, long]

/-- The simulation relation: live entries under the same keys until the same time. -/
def Agree (libs : Libraries) (p : Pair) : Prop :=
  Alike (Stands libs) p.clock p.memory.kv p.redis

def Overdue (mc : MemoryCacher) (key : String) (now : Nat) : Prop :=
  (mc.kv key).isSome ∧ live mc.kv now key = none

section Calls
variable {mc : MemoryCacher} {ks : Keyspace} {now : Nat}

theorem obtain_agree (alike : Alike (Stands libs) now mc.kv ks) (key : String) :
    Alike (Stands libs) now (memoryCall ttl mc now (.obtain key : Call libs)).1.kv
        (redisCall ttl ks now (.obtain key : Call libs)).1 ∧
      (memoryCall ttl mc now (.obtain key : Call libs)).2 =
        (redisCall ttl ks now (.obtain key : Call libs)).2 := by
  obtain ⟨stored, replied⟩ := MemoryCache.obtain_put_if_absent mc key ttl now
  obtain ⟨kept, same⟩ := alike_put_if_absent alike key (now + ttl) obtained_stands
  constructor
  · simp only [memoryCall, stored]
    exact kept
  · simp only [memoryCall, replied, redisCall, RedisCache.obtain, RedisCache.command, obtainOutcome]
    exact congrArg Outcome.leased same

theorem del_agree (alike : Alike (Stands libs) now mc.kv ks) (key : String) :
    Alike (Stands libs) now (memoryCall ttl mc now (.del key : Call libs)).1.kv
      (redisCall ttl ks now (.del key : Call libs)).1 := by
  simp only [memoryCall, (MemoryCache.del_kv mc key).1]
  exact alike_remove alike key

theorem clean_agree (alike : Alike (Stands libs) now mc.kv ks) (agrees : QueueAgrees mc) :
    Alike (Stands libs) now (memoryCall ttl mc now (.clean : Call libs)).1.kv
      (redisCall ttl ks now (.clean : Call libs)).1 :=
  alike_same_live alike (MemoryCache.clean_keeps_live agrees now)

theorem set_live_agree (alike : Alike (Stands libs) now mc.kv ks) {key : String}
    (alive : (live mc.kv now key).isSome) (val : Serialised libs) :
    Alike (Stands libs) now (memoryCall ttl mc now (.set key val)).1.kv
        (redisCall ttl ks now (.set key val)).1 ∧
      (memoryCall ttl mc now (.set key val)).2 = .stored ∧
      (redisCall ttl ks now (.set key val)).2 = .stored := by
  obtain ⟨e, found⟩ := Option.isSome_iff_exists.mp alive
  obtain ⟨stored, replied⟩ := MemoryCache.set_live found val.data ttl
  rw [alike_isSome alike] at alive
  have kept := alike_put alike key (now + ttl) (serialised_stands val)
  refine ⟨?_, ?_, rfl⟩
  · simp only [memoryCall, stored, redisCall, RedisCache.set, RedisCache.command, putIfPresent,
      alive, ↓reduceIte]
    exact kept
  · simp only [memoryCall, replied, setOutcome]

theorem set_dead_agree (alike : Alike (Stands libs) now mc.kv ks) {key : String}
    (dead : live mc.kv now key = none) (val : Serialised libs) :
    Alike (Stands libs) now (memoryCall ttl mc now (.set key val)).1.kv
        (redisCall ttl ks now (.set key val)).1 ∧
      (memoryCall ttl mc now (.set key val)).2 = .failed ∧
      (redisCall ttl ks now (.set key val)).2 = .stored := by
  obtain ⟨dropped, text, failed⟩ := MemoryCache.set_dead dead val.data ttl
  have absent : (live ks now key).isSome = false := by
    rw [← alike_isSome alike, dead]
    rfl
  refine ⟨?_, ?_, rfl⟩
  · simp only [memoryCall, dropped, redisCall, RedisCache.set, RedisCache.command, putIfPresent,
      absent]
    apply alike_same_live alike
    intro j
    by_cases here : j = key
    · rw [here, dead]
      exact live_remove_same mc.kv now key
    · exact live_congr (remove_other here) now
  · simp only [memoryCall, failed, setOutcome]

theorem poll_live_agree (alike : Alike (Stands libs) now mc.kv ks) {key : String}
    (timely : ¬ Overdue mc key now) :
    (memoryCall ttl mc now (.poll key : Call libs)).2 =
      (redisCall ttl ks now (.poll key : Call libs)).2 := by
  simp only [memoryCall, redisCall, MemoryCache.pollTurn, RedisCache.pollTurn, RedisCache.command]
  rcases alike_cases alike key with ⟨left, right⟩ | ⟨expiry, v, w, left, right, related⟩
  · have absent : mc.kv key = none := by
      by_contra present
      exact timely ⟨Option.isSome_iff_ne_none.mpr present, left⟩
    rw [absent, right]
    rfl
  · obtain ⟨stored, _⟩ := live_some_iff.mp left
    simp only [stored, right, Option.map_some, stands_read related]

theorem poll_overdue (alike : Alike (Stands libs) now mc.kv ks) {key : String}
    (overdue : Overdue mc key now) :
    (memoryCall ttl mc now (.poll key : Call libs)).2 ≠ .nothing ∧
      (redisCall ttl ks now (.poll key : Call libs)).2 = .nothing := by
  obtain ⟨kept, dead⟩ := overdue
  obtain ⟨⟨expiry, v⟩, entry⟩ := Option.isSome_iff_exists.mp kept
  have absent : live ks now key = none := by
    have same := alike_isSome alike key
    rw [dead] at same
    exact Option.isSome_eq_false_iff.mp same.symm |> Option.isNone_iff_eq_none.mp
  constructor
  · simp only [memoryCall, MemoryCache.pollTurn, entry]
    split <;> simp [pollOutcome]
  · simp only [redisCall, RedisCache.pollTurn, RedisCache.command, absent]
    rfl

end Calls

def SameOutcome (p : Pair) (e : Event libs) : Prop :=
  (memoryCall ttl p.memory e.now e.call).2 = (redisCall ttl p.redis e.now e.call).2

instance (p : Pair) (e : Event libs) : Decidable (SameOutcome ttl p e) :=
  inferInstanceAs (Decidable (_ = _))

/-- The agreement the back ends are built for. Reads of an entry past its expiry are
    memory's own; a `set` owes an answer to the holder of a live lease. -/
def AsDesigned (p : Pair) (e : Event libs) : Prop :=
  match e.call with
  | .obtain _ => SameOutcome ttl p e
  | .poll key =>
      (¬ Overdue p.memory key e.now → SameOutcome ttl p e) ∧
        (Overdue p.memory key e.now → (redisCall ttl p.redis e.now e.call).2 = .nothing)
  | .set key _ =>
      (live p.memory.kv e.now key).isSome →
        (memoryCall ttl p.memory e.now e.call).2 = .stored ∧
          (redisCall ttl p.redis e.now e.call).2 = .stored
  | .del _ => SameOutcome ttl p e
  | .clean => SameOutcome ttl p e

/-- No `obtain` comes between a `set` that met its expired entry and the cleaning
    run which that `set` spawned. -/
def TidyObtain (p : Pair) (e : Event libs) : Prop :=
  match e.call with
  | .obtain key => NoStaleKey p.memory key
  | _ => True

instance (p : Pair) (e : Event libs) : Decidable (TidyObtain p e) :=
  match e with
  | ⟨_, .obtain key⟩ => inferInstanceAs (Decidable (NoStaleKey p.memory key))
  | ⟨_, .poll _⟩ => isTrue trivial
  | ⟨_, .set _ _⟩ => isTrue trivial
  | ⟨_, .del _⟩ => isTrue trivial
  | ⟨_, .clean⟩ => isTrue trivial

section Steps
variable {ttl} {p q : Pair} {e : Event libs}

theorem step_moves (moved : step ttl p e = some q) : p.clock ≤ e.now ∧
    q = ⟨(memoryCall ttl p.memory e.now e.call).1, (redisCall ttl p.redis e.now e.call).1,
      e.now⟩ := by
  unfold step at moved
  split at moved
  · rename_i order
    exact ⟨order, (Option.some.inj moved).symm⟩
  · cases moved

theorem agree_start (libs : Libraries) : Agree libs Pair.start := fun _ => Option.Rel.none

theorem step_agree (agrees : QueueAgrees p.memory) (alike : Agree libs p)
    (moved : step ttl p e = some q) : Agree libs q := by
  obtain ⟨order, rfl⟩ := step_moves moved
  have here : Alike (Stands libs) e.now p.memory.kv p.redis := alike_later alike order
  unfold Agree
  cases call : e.call with
  | obtain key => exact (obtain_agree ttl here key).1
  | poll key => exact here
  | set key val =>
    cases found : live p.memory.kv e.now key with
    | some entry => exact (set_live_agree ttl here (by rw [found]; rfl) val).1
    | none => exact (set_dead_agree ttl here found val).1
  | del key => exact del_agree ttl here key
  | clean => exact clean_agree ttl here agrees

theorem step_queue_agrees (agrees : QueueAgrees p.memory) (tidy : TidyObtain p e)
    (moved : step ttl p e = some q) : QueueAgrees q.memory := by
  obtain ⟨_, rfl⟩ := step_moves moved
  cases call : e.call with
  | obtain key =>
    simp only [TidyObtain, call] at tidy
    exact MemoryCache.obtain_queue_agrees agrees tidy ttl e.now
  | poll key => exact agrees
  | set key val => exact MemoryCache.set_queue_agrees agrees key val.data ttl e.now
  | del key => exact MemoryCache.del_queue_agrees agrees key
  | clean => exact MemoryCache.clean_queue_agrees agrees e.now

theorem step_as_designed (alike : Agree libs p) (moved : step ttl p e = some q) :
    AsDesigned ttl p e := by
  obtain ⟨order, _⟩ := step_moves moved
  have here : Alike (Stands libs) e.now p.memory.kv p.redis := alike_later alike order
  unfold AsDesigned SameOutcome
  cases e.call with
  | obtain key => exact (obtain_agree ttl here key).2
  | poll key => exact ⟨poll_live_agree ttl here, fun overdue => (poll_overdue ttl here overdue).2⟩
  | set key val => exact fun alive => (set_live_agree ttl here alive val).2
  | del key => rfl
  | clean => rfl

end Steps

/-- Over every run the back ends agree as designed, and live entries stay alike. -/
theorem interchangeable_as_designed {es : List (Event libs)}
    (tidy : Along (step ttl) TidyObtain Pair.start es) :
    EveryStep (step ttl) (fun p e _ => AsDesigned ttl p e) Pair.start es :=
  every_step_of_along (I := fun p => QueueAgrees p.memory ∧ Agree libs p)
    (fun _ _ _ inv tidy moved =>
      ⟨step_queue_agrees inv.1 tidy moved, step_agree inv.1 inv.2 moved⟩)
    (fun _ _ _ inv _ moved => step_as_designed inv.2 moved)
    ⟨MemoryCache.queue_agrees_default, agree_start libs⟩ tidy

/-- The calls on which the back ends cannot differ at all. -/
def TimelyCall (p : Pair) (e : Event libs) : Prop :=
  match e.call with
  | .poll key => ¬ Overdue p.memory key e.now
  | .set key _ => (live p.memory.kv e.now key).isSome
  | _ => True

section Timely
variable {ttl} {p q : Pair} {e : Event libs}

theorem step_same_outcome_iff (alike : Agree libs p) (moved : step ttl p e = some q) :
    SameOutcome ttl p e ↔ TimelyCall p e := by
  obtain ⟨order, _⟩ := step_moves moved
  have here : Alike (Stands libs) e.now p.memory.kv p.redis := alike_later alike order
  unfold SameOutcome TimelyCall
  cases e.call with
  | obtain key => exact ⟨fun _ => trivial, fun _ => (obtain_agree ttl here key).2⟩
  | poll key =>
    refine ⟨fun same overdue => ?_, poll_live_agree ttl here⟩
    obtain ⟨something, nothing⟩ := poll_overdue ttl here overdue
    exact something (same.trans nothing)
  | set key val =>
    cases found : live p.memory.kv e.now key with
    | some entry =>
      obtain ⟨_, left, right⟩ := set_live_agree ttl here (by rw [found]; rfl) val
      exact ⟨fun _ => by simp [found], fun _ => left.trans right.symm⟩
    | none =>
      obtain ⟨_, left, right⟩ := set_dead_agree ttl here found val
      simp [left, right, found]
  | del key => exact ⟨fun _ => trivial, fun _ => rfl⟩
  | clean => exact ⟨fun _ => trivial, fun _ => rfl⟩

theorem step_queue_exact (exact : QueueExact p.memory) (timely : TimelyCall p e)
    (moved : step ttl p e = some q) : QueueExact q.memory := by
  obtain ⟨_, rfl⟩ := step_moves moved
  cases call : e.call with
  | obtain key => exact MemoryCache.obtain_queue_exact exact key ttl e.now
  | poll key => exact exact
  | set key val =>
    simp only [TimelyCall, call] at timely
    obtain ⟨entry, alive⟩ := Option.isSome_iff_exists.mp timely
    exact MemoryCache.set_queue_exact exact alive val.data ttl
  | del key => exact MemoryCache.del_queue_exact exact key
  | clean => exact MemoryCache.clean_queue_exact exact e.now

end Timely

theorem queue_exact_start : QueueExact Pair.start.memory := by
  intro key mem
  simp [Pair.start, MemoryCacher.default] at mem

theorem same_outcomes_iff_timely {es : List (Event libs)} {p : Pair}
    (accepted : run (step ttl) Pair.start es = some p) :
    EveryStep (step ttl) (fun p e _ => SameOutcome ttl p e) Pair.start es ↔
      Along (step ttl) TimelyCall Pair.start es := by
  have keeps : ∀ (p : Pair) (e : Event libs) (q : Pair),
      QueueExact p.memory ∧ Agree libs p → TimelyCall p e → step ttl p e = some q →
        QueueExact q.memory ∧ Agree libs q := by
    intro p e q inv timely moved
    exact ⟨step_queue_exact inv.1 timely moved,
      step_agree (MemoryCache.exact_agrees inv.1) inv.2 moved⟩
  exact every_step_iff_along_within keeps
    (fun _ _ _ inv moved => step_same_outcome_iff inv.2 moved)
    ⟨queue_exact_start, agree_start libs⟩ accepted

def sample : Serialised StoredForm.libraries :=
  ⟨StoredForm.write ⟨200, [], [111, 107], "text/plain"⟩,
    ⟨200, [], [111, 107], "text/plain"⟩, StoredForm.libraries_to_bytes (by decide)⟩

def servedRun : List (Event StoredForm.libraries) :=
  [⟨0, .obtain "k"⟩, ⟨5, .obtain "k"⟩, ⟨5, .poll "k"⟩, ⟨40, .set "k" sample⟩, ⟨105, .poll "k"⟩,
    ⟨10040, .poll "k"⟩, ⟨10040, .clean⟩, ⟨10041, .poll "k"⟩, ⟨10041, .obtain "k"⟩,
    ⟨10050, .del "k"⟩]

theorem served_run_as_designed :
    (run (step 10000) Pair.start servedRun).isSome ∧
      EveryStep (step 10000) (fun p e _ => AsDesigned 10000 p e) Pair.start servedRun :=
  ⟨by decide, interchangeable_as_designed 10000 (by decide)⟩

/-- A poll and a `set` at the instant of expiry, and a lease taken between that `set` and
    the cleaning run it spawned. -/
theorem late_calls_differ :
    ¬ EveryStep (step 10000) (fun p e _ => SameOutcome 10000 p e) Pair.start
        ([⟨0, .obtain "k"⟩, ⟨10000, .poll "k"⟩] : List (Event StoredForm.libraries)) ∧
      ¬ EveryStep (step 10000) (fun p e _ => SameOutcome 10000 p e) Pair.start
        ([⟨0, .obtain "k"⟩, ⟨10000, .set "k" sample⟩] : List (Event StoredForm.libraries)) ∧
      ¬ EveryStep (step 10000) (fun p e _ => SameOutcome 10000 p e) Pair.start
        ([⟨0, .obtain "k"⟩, ⟨10000, .set "k" sample⟩, ⟨10000, .obtain "k"⟩, ⟨10000, .clean⟩,
          ⟨10000, .obtain "k"⟩] : List (Event StoredForm.libraries)) := by
  refine ⟨fun same => ?_, fun same => ?_, fun same => ?_⟩
  · have poll := same [⟨0, .obtain "k"⟩] _ [] _ _ rfl rfl rfl
    revert poll
    decide
  · have set := same [⟨0, .obtain "k"⟩] _ [] _ _ rfl rfl rfl
    revert set
    decide
  · have lease := same [⟨0, .obtain "k"⟩, ⟨10000, .set "k" sample⟩, ⟨10000, .obtain "k"⟩,
      ⟨10000, .clean⟩] _ [] _ _ rfl rfl rfl
    revert lease
    decide

end Interchange
