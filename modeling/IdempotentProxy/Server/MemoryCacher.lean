import Mathlib.Data.Prod.Lex
import Mathlib.Data.String.Basic
import IdempotentProxy.Foundations.ExpiringStore
import IdempotentProxy.Foundations.OrderedQueue

/-!
The in-memory cache of the Rust server, one definition for each operation body
of `cache/memory.rs`. Clock readings are milliseconds in unbounded Nat: the sums
`now + ttl` are taken not to overflow. An operation reports, beside its result,
whether it spawned a `clean_expired_values` task.
-/
namespace MemoryCache
open ExpiringStore OrderedQueue

abbrev Bytes := List UInt8

structure PriorityKey where
  expireAt : Nat
  key : String
  deriving DecidableEq, Repr

theorem priority_key_injective :
    Function.Injective fun p : PriorityKey => toLex (p.expireAt, p.key) := by
  intro a b same
  cases a; cases b
  simpa using same

/-- The derived `Ord`: the expiry first, then the key. -/
instance : LinearOrder PriorityKey :=
  LinearOrder.lift' (fun p : PriorityKey => toLex (p.expireAt, p.key)) priority_key_injective

structure MemoryCacher where
  priorityQueue : Finset PriorityKey
  kv : Store String Bytes

def MemoryCacher.default : MemoryCacher := ⟨∅, fun _ => none⟩

structure Done (α : Type) where
  cacher : MemoryCacher
  reply : Except String α
  spawned : Bool

def obtain (mc : MemoryCacher) (key : String) (ttl now : Nat) : Done Bool :=
  match mc.kv key with
  | some (expireAt, _) =>
      if expireAt > now then ⟨mc, .ok false, false⟩
      else
        let pq := mc.priorityQueue.erase ⟨expireAt, key⟩
        ⟨⟨insert ⟨now + ttl, key⟩ pq, put mc.kv key (now + ttl) []⟩, .ok true, false⟩
  | none =>
      ⟨⟨insert ⟨now + ttl, key⟩ mc.priorityQueue, put mc.kv key (now + ttl) []⟩, .ok true, false⟩

/-- One turn of the polling loop: `ok (some v)` returns `v`, `ok none` sleeps and
    polls again. -/
def pollTurn (mc : MemoryCacher) (key : String) (now : Nat) : Done (Option Bytes) :=
  match mc.kv key with
  | none => ⟨mc, .error "not obtained", false⟩
  | some (expireAt, value) =>
      ⟨mc, .ok (if value.isEmpty then none else some value), decide (expireAt ≤ now)⟩

def set (mc : MemoryCacher) (key : String) (val : Bytes) (ttl now : Nat) : Done Bool :=
  match mc.kv key with
  | some (expireAt, _) =>
      if expireAt ≤ now then
        ⟨{ mc with kv := remove mc.kv key }, .error "value expired", true⟩
      else
        let pq := mc.priorityQueue.erase ⟨expireAt, key⟩
        ⟨⟨insert ⟨now + ttl, key⟩ pq, put mc.kv key (now + ttl) val⟩, .ok true, false⟩
  | none => ⟨mc, .error "not obtained", false⟩

def del (mc : MemoryCacher) (key : String) : Done Unit :=
  match mc.kv key with
  | some (expireAt, _) =>
      ⟨⟨mc.priorityQueue.erase ⟨expireAt, key⟩, remove mc.kv key⟩, .ok (), true⟩
  | none => ⟨{ mc with kv := remove mc.kv key }, .ok (), true⟩

def due (now : Nat) (p : PriorityKey) : Bool := decide (p.expireAt ≤ now)

/-- The body of a spawned `clean_expired_values` task whose clock read `now`. -/
def cleanExpiredValues (mc : MemoryCacher) (now : Nat) : MemoryCacher :=
  let (pq, kv) := drain (due now) (fun kv p => remove kv p.key) mc.priorityQueue.card
    mc.priorityQueue mc.kv
  ⟨pq, kv⟩

theorem due_downward (now : Nat) : DownwardDue (due now) := by
  intro x y order later
  have first : x.expireAt ≤ y.expireAt := by
    have lex : toLex (x.expireAt, x.key) ≤ toLex (y.expireAt, y.key) := order
    rcases (Prod.Lex.toLex_le_toLex).mp lex with less | ⟨same, _⟩
    · exact Nat.le_of_lt less
    · exact Nat.le_of_eq same
  simp only [due, decide_eq_true_eq] at later ⊢
  omega

theorem clean_queue (mc : MemoryCacher) (now : Nat) :
    (cleanExpiredValues mc now).priorityQueue =
      mc.priorityQueue.filter fun p => ¬ due now p = true :=
  (drain_spec (due_downward now) _ _ mc.priorityQueue mc.kv (Nat.le_refl _)).1

theorem clean_kv (mc : MemoryCacher) (now : Nat) (k : String) :
    (cleanExpiredValues mc now).kv k =
      if ∃ p ∈ mc.priorityQueue, p.expireAt ≤ now ∧ p.key = k then none else mc.kv k := by
  obtain ⟨taken, exact, folded⟩ :=
    (drain_spec (due_downward now) (fun kv p => remove kv p.key) _ mc.priorityQueue mc.kv
      (Nat.le_refl _)).2
  have view : (cleanExpiredValues mc now).kv =
      taken.foldl (fun kv p => remove kv p.key) mc.kv := folded
  rw [view, foldl_remove PriorityKey.key taken mc.kv k]
  have same : (∃ p ∈ taken, p.key = k) ↔
      ∃ p ∈ mc.priorityQueue, p.expireAt ≤ now ∧ p.key = k := by
    simp [exact, due, and_assoc]
  by_cases hit : ∃ p ∈ taken, p.key = k
  · rw [if_pos hit, if_pos (same.mp hit)]
  · rw [if_neg hit, if_neg (fun h => hit (same.mpr h))]

/-- `obtain` is put-if-absent on the map: the expired entry it finds is as good as none. -/
theorem obtain_put_if_absent (mc : MemoryCacher) (key : String) (ttl now : Nat) :
    (obtain mc key ttl now).cacher.kv = (putIfAbsent mc.kv now key (now + ttl) []).1 ∧
      (obtain mc key ttl now).reply = .ok (putIfAbsent mc.kv now key (now + ttl) []).2 := by
  cases entry : mc.kv key with
  | none => simp [obtain, putIfAbsent, live, entry]
  | some e =>
    by_cases ahead : e.1 > now
    · simp [obtain, putIfAbsent, live, entry, ahead]
    · simp [obtain, putIfAbsent, live, entry, ahead]

theorem set_live {mc : MemoryCacher} {key : String} {now : Nat} {e : Nat × Bytes}
    (alive : live mc.kv now key = some e) (val : Bytes) (ttl : Nat) :
    (set mc key val ttl now).cacher.kv = put mc.kv key (now + ttl) val ∧
      (set mc key val ttl now).reply = .ok true := by
  obtain ⟨stored, ahead⟩ := live_some_iff.mp alive
  have late : ¬ e.1 ≤ now := by omega
  simp [set, stored, late]

theorem set_dead {mc : MemoryCacher} {key : String} {now : Nat}
    (dead : live mc.kv now key = none) (val : Bytes) (ttl : Nat) :
    (set mc key val ttl now).cacher.kv = remove mc.kv key ∧
      ∃ msg, (set mc key val ttl now).reply = .error msg := by
  cases entry : mc.kv key with
  | none =>
    have same : remove mc.kv key = mc.kv := by
      funext k
      by_cases here : k = key
      · rw [here, remove_same, entry]
      · exact remove_other here
    simp [set, entry, same]
  | some e =>
    have late : e.1 ≤ now := live_none_iff.mp dead e entry
    simp [set, entry, late]

theorem del_kv (mc : MemoryCacher) (key : String) :
    (del mc key).cacher.kv = remove mc.kv key ∧ (del mc key).reply = .ok () := by
  cases entry : mc.kv key <;> simp [del, entry]

/-- Every queued key whose entry is in the map carries that entry's expiry. Keys
    of entries no longer in the map may be queued as well. -/
def QueueAgrees (mc : MemoryCacher) : Prop :=
  ∀ p ∈ mc.priorityQueue, ∀ e, mc.kv p.key = some e → e.1 = p.expireAt

def NoStaleKey (mc : MemoryCacher) (key : String) : Prop :=
  mc.kv key = none → ∀ p ∈ mc.priorityQueue, p.key ≠ key

instance (mc : MemoryCacher) (key : String) : Decidable (NoStaleKey mc key) :=
  inferInstanceAs (Decidable (mc.kv key = none → ∀ p ∈ mc.priorityQueue, p.key ≠ key))

theorem queue_agrees_default : QueueAgrees MemoryCacher.default := by
  intro p mem
  simp [MemoryCacher.default] at mem

theorem queue_agrees_put {q : Finset PriorityKey} {kv : Store String Bytes} {key : String}
    {expiry : Nat} {val : Bytes} (gone : ∀ p ∈ q, p.key ≠ key)
    (agrees : ∀ p ∈ q, ∀ e, kv p.key = some e → e.1 = p.expireAt) :
    QueueAgrees ⟨insert ⟨expiry, key⟩ q, put kv key expiry val⟩ := by
  intro p mem e stored
  rcases Finset.mem_insert.mp mem with same | mem
  · subst same
    simp only [put_same, Option.some.injEq] at stored
    exact (congrArg Prod.fst stored).symm
  · dsimp only at stored
    rw [put_other _ _ (gone p mem)] at stored
    exact agrees p mem e stored

theorem queue_agrees_erase {mc : MemoryCacher} {key : String} {e : Nat × Bytes}
    (agrees : QueueAgrees mc) (entry : mc.kv key = some e) :
    ∀ p ∈ mc.priorityQueue.erase ⟨e.1, key⟩, p.key ≠ key := by
  intro p mem same
  obtain ⟨ne, mem⟩ := Finset.mem_erase.mp mem
  have expiry := agrees p mem e (by rw [same]; exact entry)
  exact ne (by cases p; simp_all)

theorem queue_agrees_remove {mc : MemoryCacher} (agrees : QueueAgrees mc) (key : String)
    {q : Finset PriorityKey} (sub : q ⊆ mc.priorityQueue) :
    QueueAgrees ⟨q, remove mc.kv key⟩ := by
  intro p mem e stored
  dsimp only at stored
  by_cases same : p.key = key
  · rw [same, remove_same] at stored
    exact absurd stored (by simp)
  · rw [remove_other same] at stored
    exact agrees p (sub mem) e stored

theorem obtain_queue_agrees {mc : MemoryCacher} (agrees : QueueAgrees mc) {key : String}
    (fresh : NoStaleKey mc key) (ttl now : Nat) :
    QueueAgrees (obtain mc key ttl now).cacher := by
  unfold obtain
  cases entry : mc.kv key with
  | none => exact queue_agrees_put (fresh entry) agrees
  | some e =>
    dsimp only
    split
    · exact agrees
    · exact queue_agrees_put (queue_agrees_erase agrees entry)
        (fun p mem => agrees p (Finset.mem_of_mem_erase mem))

theorem set_queue_agrees {mc : MemoryCacher} (agrees : QueueAgrees mc) (key : String)
    (val : Bytes) (ttl now : Nat) : QueueAgrees (set mc key val ttl now).cacher := by
  unfold set
  cases entry : mc.kv key with
  | none => exact agrees
  | some e =>
    dsimp only
    split
    · exact queue_agrees_remove agrees key (Finset.Subset.refl _)
    · exact queue_agrees_put (queue_agrees_erase agrees entry)
        (fun p mem => agrees p (Finset.mem_of_mem_erase mem))

theorem del_queue_agrees {mc : MemoryCacher} (agrees : QueueAgrees mc) (key : String) :
    QueueAgrees (del mc key).cacher := by
  unfold del
  cases mc.kv key with
  | none => exact queue_agrees_remove agrees key (Finset.Subset.refl _)
  | some e => exact queue_agrees_remove agrees key (Finset.erase_subset _ _)

theorem clean_queue_agrees {mc : MemoryCacher} (agrees : QueueAgrees mc) (now : Nat) :
    QueueAgrees (cleanExpiredValues mc now) := by
  intro p mem e stored
  rw [clean_queue, Finset.mem_filter] at mem
  rw [clean_kv] at stored
  split at stored
  · exact absurd stored (by simp)
  · exact agrees p mem.1 e stored

theorem clean_keeps_live {mc : MemoryCacher} (agrees : QueueAgrees mc) (now : Nat) (k : String) :
    live (cleanExpiredValues mc now).kv now k = live mc.kv now k := by
  by_cases hit : ∃ p ∈ mc.priorityQueue, p.expireAt ≤ now ∧ p.key = k
  · have gone : (cleanExpiredValues mc now).kv k = none := by rw [clean_kv, if_pos hit]
    obtain ⟨p, mem, late, named⟩ := hit
    have dead : live mc.kv now k = none := by
      refine live_none_iff.mpr ?_
      intro e stored
      have expiry := agrees p mem e (by rw [named]; exact stored)
      omega
    rw [dead]
    exact live_none_iff.mpr fun e stored => absurd (gone.symm.trans stored) (by simp)
  · exact live_congr (by rw [clean_kv, if_neg hit]) now

/-- Every queued key is that of an entry in the map, under the entry's expiry. Only a
    `set` on an expired entry breaks this. -/
def QueueExact (mc : MemoryCacher) : Prop :=
  ∀ p ∈ mc.priorityQueue, ∃ v, mc.kv p.key = some (p.expireAt, v)

theorem exact_agrees {mc : MemoryCacher} (exact : QueueExact mc) : QueueAgrees mc := by
  intro p mem e stored
  obtain ⟨v, entry⟩ := exact p mem
  rw [entry] at stored
  cases stored
  rfl

theorem exact_no_stale {mc : MemoryCacher} (exact : QueueExact mc) (key : String) :
    NoStaleKey mc key := by
  intro vacant p mem same
  obtain ⟨v, entry⟩ := exact p mem
  rw [same, vacant] at entry
  cases entry

theorem queue_exact_put {q : Finset PriorityKey} {kv : Store String Bytes} {key : String}
    {expiry : Nat} {val : Bytes} (gone : ∀ p ∈ q, p.key ≠ key)
    (exact : ∀ p ∈ q, ∃ v, kv p.key = some (p.expireAt, v)) :
    QueueExact ⟨insert ⟨expiry, key⟩ q, put kv key expiry val⟩ := by
  intro p mem
  rcases Finset.mem_insert.mp mem with same | mem
  · subst same
    exact ⟨val, put_same kv key expiry val⟩
  · obtain ⟨v, entry⟩ := exact p mem
    exact ⟨v, (put_other expiry val (gone p mem)).trans entry⟩

theorem obtain_queue_exact {mc : MemoryCacher} (exact : QueueExact mc) (key : String)
    (ttl now : Nat) : QueueExact (obtain mc key ttl now).cacher := by
  unfold obtain
  cases entry : mc.kv key with
  | none => exact queue_exact_put (exact_no_stale exact key entry) exact
  | some e =>
    dsimp only
    split
    · exact exact
    · exact queue_exact_put (queue_agrees_erase (exact_agrees exact) entry)
        (fun p mem => exact p (Finset.mem_of_mem_erase mem))

theorem set_queue_exact {mc : MemoryCacher} (exact : QueueExact mc) {key : String} {now : Nat}
    {e : Nat × Bytes} (alive : live mc.kv now key = some e) (val : Bytes) (ttl : Nat) :
    QueueExact (set mc key val ttl now).cacher := by
  obtain ⟨entry, ahead⟩ := live_some_iff.mp alive
  have late : ¬ e.1 ≤ now := by omega
  simp only [set, entry, if_neg late]
  exact queue_exact_put (queue_agrees_erase (exact_agrees exact) entry)
    (fun p mem => exact p (Finset.mem_of_mem_erase mem))

theorem del_queue_exact {mc : MemoryCacher} (exact : QueueExact mc) (key : String) :
    QueueExact (del mc key).cacher := by
  unfold del
  cases entry : mc.kv key with
  | none =>
    intro p mem
    obtain ⟨v, stored⟩ := exact p mem
    have other := exact_no_stale exact key entry p mem
    exact ⟨v, (remove_other other).trans stored⟩
  | some e =>
    intro p mem
    have other := queue_agrees_erase (exact_agrees exact) entry p mem
    obtain ⟨v, stored⟩ := exact p (Finset.mem_of_mem_erase mem)
    exact ⟨v, (remove_other other).trans stored⟩

theorem clean_queue_exact {mc : MemoryCacher} (exact : QueueExact mc) (now : Nat) :
    QueueExact (cleanExpiredValues mc now) := by
  intro p mem
  rw [clean_queue, Finset.mem_filter] at mem
  obtain ⟨v, stored⟩ := exact p mem.1
  have ahead : now < p.expireAt := by simpa [due] using mem.2
  have alive := live_some_iff.mpr ⟨stored, ahead⟩
  rw [← clean_keeps_live (exact_agrees exact)] at alive
  exact ⟨v, (live_some_iff.mp alive).1⟩

end MemoryCache
