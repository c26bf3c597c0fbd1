import IdempotentProxy.Server.HybridCacher

/-!
An entry of the cache that stays what it is while nobody sets or deletes its key: up to its
expiry no `obtain` and no cleaning task removes it, as long as nothing stale is queued for
the key.
-/
namespace KeptEntries
open ExpiringStore HybridCache
open MemoryCache (Bytes)
open RedisCache (Fault)

/-- What is queued for the key expires with the key's entry. -/
def QueuedOnce (key : String) : CacherEntry → Prop
  | .memory cacher => ∀ p ∈ cacher.priorityQueue, p.key = key →
      ∃ v, cacher.kv key = some (p.expireAt, v)
  | .redis _ => True

structure Keeps (c : CacherEntry) (key : String) (expiry : Nat) (v : Bytes) : Prop where
  entry : view c key = some (expiry, v)
  queue : QueuedOnce key c

variable {c : CacherEntry} {key : String} {expiry now : Nat} {v : Bytes}

theorem queued_put {mc : MemoryCache.MemoryCacher} (queue : QueuedOnce key (.memory mc))
    {old : Nat} {was : Bytes} (stored : mc.kv key = some (old, was)) (expiry : Nat) (v : Bytes) :
    QueuedOnce key (.memory ⟨insert ⟨expiry, key⟩ (mc.priorityQueue.erase ⟨old, key⟩),
      put mc.kv key expiry v⟩) := by
  intro p mem named
  rcases Finset.mem_insert.mp mem with same | mem
  · subst same
    exact ⟨v, put_same mc.kv key expiry v⟩
  · obtain ⟨differs, mem⟩ := Finset.mem_erase.mp mem
    obtain ⟨w, found⟩ := queue p mem named
    have expires : p.expireAt = old := congrArg Prod.fst (Option.some.inj (found.symm.trans stored))
    exact absurd (by cases p; cases named; cases expires; rfl) differs

theorem keeps_still {mc mc' : MemoryCache.MemoryCacher} (keeps : Keeps (.memory mc) key expiry v)
    (same : mc'.kv key = mc.kv key)
    (queued : ∀ p ∈ mc'.priorityQueue, p.key = key → p ∈ mc.priorityQueue) :
    Keeps (.memory mc') key expiry v := by
  constructor
  · exact same.trans keeps.entry
  · intro p mem named
    obtain ⟨w, found⟩ := keeps.queue p (queued p mem named) named
    exact ⟨w, same.trans found⟩

theorem queued_other {q : Finset MemoryCache.PriorityKey} {other : String} {new : Nat}
    (differs : other ≠ key) : ∀ p ∈ insert ⟨new, other⟩ q, p.key = key → p ∈ q := by
  intro p mem named
  rcases Finset.mem_insert.mp mem with same | mem
  · subst same
    exact absurd named differs
  · exact mem

theorem requeued_other {q : Finset MemoryCache.PriorityKey} {other : String} {new old : Nat}
    (differs : other ≠ key) : ∀ p ∈ insert ⟨new, other⟩ (q.erase ⟨old, other⟩), p.key = key →
      p ∈ q :=
  fun p mem named => Finset.mem_of_mem_erase (queued_other differs p mem named)

theorem keeps_obtain_other (keeps : Keeps c key expiry v) {other : String} (differs : other ≠ key)
    (ttl : Nat) (fault : Fault) : Keeps (obtain c other ttl now fault).1 key expiry v := by
  cases c with
  | memory mc =>
    have apart : ∀ (kv : Store String Bytes) (e : Nat) (w : Bytes), put kv other e w key = kv key :=
      fun kv e w => put_other e w (Ne.symm differs)
    simp only [obtain, MemoryCache.obtain]
    split
    · split
      · exact keeps
      · exact keeps_still keeps (apart _ _ _) (requeued_other differs)
    · exact keeps_still keeps (apart _ _ _) (queued_other differs)
  | redis ks =>
    refine ⟨?_, trivial⟩
    have kept := keeps.entry
    rcases obtain_view (.redis ks) other ttl now fault with ⟨same, _⟩ | ⟨ran, _⟩
    · rw [same]
      exact kept
    · rw [ran]
      unfold putIfAbsent
      split
      · exact kept
      · exact (put_other _ _ (Ne.symm differs)).trans kept

theorem keeps_obtain (keeps : Keeps c key expiry v) (early : now < expiry) (other : String)
    (ttl : Nat) (fault : Fault) : Keeps (obtain c other ttl now fault).1 key expiry v := by
  by_cases here : other = key
  · subst here
    have alive : live (view c) now other = some (expiry, v) :=
      live_some_iff.mpr ⟨keeps.entry, early⟩
    cases c with
    | memory mc =>
      have stored : mc.kv other = some (expiry, v) := keeps.entry
      have ahead : expiry > now := early
      simpa [obtain, MemoryCache.obtain, stored, ahead] using keeps
    | redis ks =>
      refine ⟨?_, trivial⟩
      rcases obtain_view (.redis ks) other ttl now fault with ⟨same, _⟩ | ⟨ran, _⟩
      · rw [same]
        exact keeps.entry
      · rw [ran]
        simp only [putIfAbsent, alive, Option.isSome_some, ↓reduceIte]
        exact keeps.entry
  · exact keeps_obtain_other keeps here ttl fault

theorem keeps_set_other (keeps : Keeps c key expiry v) {other : String} (differs : other ≠ key)
    (val : Bytes) (ttl : Nat) (fault : Fault) :
    Keeps (set c other val ttl now fault).1 key expiry v := by
  cases c with
  | memory mc =>
    simp only [HybridCache.set, MemoryCache.set]
    split
    · split
      · exact keeps_still keeps (remove_other (Ne.symm differs)) (fun p mem _ => mem)
      · exact keeps_still keeps (put_other _ _ (Ne.symm differs)) (requeued_other differs)
    · exact keeps
  | redis ks =>
    refine ⟨?_, trivial⟩
    rcases set_view (.redis ks) other val ttl now fault with stored | dropped | same
    · rw [stored, put_other _ _ (Ne.symm differs)]
      exact keeps.entry
    · rw [dropped, remove_other (Ne.symm differs)]
      exact keeps.entry
    · rw [same]
      exact keeps.entry

theorem keeps_set (keeps : Keeps c key expiry v) (early : now < expiry) (val : Bytes) (ttl : Nat)
    (fault : Fault) {b : Bool} (stored : (set c key val ttl now fault).2 = .ok b) :
    Keeps (set c key val ttl now fault).1 key (now + ttl) val := by
  have alive : live (view c) now key = some (expiry, v) := live_some_iff.mpr ⟨keeps.entry, early⟩
  constructor
  · rcases set_view_live c key val ttl now fault alive with written | ⟨_, text, failed⟩
    · rw [written, put_same]
    · cases stored.symm.trans failed
  · cases c with
    | memory mc =>
      have entry : mc.kv key = some (expiry, v) := keeps.entry
      have ahead : ¬ expiry ≤ now := Nat.not_le.mpr early
      simp only [HybridCache.set, MemoryCache.set, entry, if_neg ahead]
      exact queued_put keeps.queue entry _ _
    | redis ks => trivial

theorem keeps_del_other (keeps : Keeps c key expiry v) {other : String} (differs : other ≠ key)
    (fault : Fault) : Keeps (del c other fault).1 key expiry v := by
  cases c with
  | memory mc =>
    simp only [del, MemoryCache.del]
    split
    · exact keeps_still keeps (remove_other (Ne.symm differs))
        (fun p mem _ => Finset.mem_of_mem_erase mem)
    · exact keeps_still keeps (remove_other (Ne.symm differs)) (fun p mem _ => mem)
  | redis ks =>
    refine ⟨?_, trivial⟩
    rcases del_view (.redis ks) other fault with dropped | same
    · rw [dropped, remove_other (Ne.symm differs)]
      exact keeps.entry
    · rw [same]
      exact keeps.entry

theorem keeps_clean (keeps : Keeps c key expiry v) (early : now < expiry) :
    Keeps (clean now c) key expiry v := by
  cases c with
  | memory mc =>
    have stored : mc.kv key = some (expiry, v) := keeps.entry
    apply keeps_still keeps
    · rw [MemoryCache.clean_kv]
      apply if_neg
      rintro ⟨p, mem, late, named⟩
      obtain ⟨w, found⟩ := keeps.queue p mem named
      have expires : p.expireAt = expiry :=
        congrArg Prod.fst (Option.some.inj (found.symm.trans stored))
      omega
    · intro p mem _
      rw [MemoryCache.clean_queue] at mem
      exact (Finset.mem_filter.mp mem).1
  | redis ks => exact keeps

theorem keeps_granted (queue : QueuedOnce key c) {ttl : Nat} {fault : Fault}
    (granted : (obtain c key ttl now fault).2 = .ok true) :
    Keeps (obtain c key ttl now fault).1 key (now + ttl) (placeholder c) := by
  cases c with
  | memory mc =>
    simp only [obtain, MemoryCache.obtain] at granted ⊢
    split at granted
    · rename_i old was stored
      split at granted
      · cases granted
      · rename_i late
        simp only [if_neg late]
        exact ⟨put_same _ _ _ _, queued_put queue stored _ _⟩
    · rename_i vacant
      refine ⟨put_same _ _ _ _, ?_⟩
      intro p mem named
      rcases Finset.mem_insert.mp mem with same | mem
      · subst same
        exact ⟨_, put_same _ _ _ _⟩
      · obtain ⟨w, found⟩ := queue p mem named
        cases vacant.symm.trans found
  | redis ks =>
    refine ⟨?_, trivial⟩
    rcases obtain_view (.redis ks) key ttl now fault with ⟨_, text, failed⟩ | ⟨ran, replied⟩
    · cases granted.symm.trans failed
    · rcases replied with answer | ⟨text, failed⟩
      · have free := Except.ok.inj (granted.symm.trans answer)
        rw [ran]
        unfold putIfAbsent at free ⊢
        split at free
        · cases free
        · rename_i absent
          rw [if_neg absent]
          exact put_same _ _ _ _
      · cases granted.symm.trans failed

theorem poll_blank (keeps : Keeps c key expiry v) (early : now < expiry)
    (blank : v = placeholder c) : pollTurn c key now .none = .ok none := by
  subst blank
  cases c with
  | memory mc =>
    have stored : mc.kv key = some (expiry, []) := keeps.entry
    simp [pollTurn, MemoryCache.pollTurn, stored]
  | redis ks =>
    have alive : live ks now key = some (expiry, RedisCache.obtained) :=
      live_some_iff.mpr ⟨keeps.entry, early⟩
    simp [pollTurn, RedisCache.pollTurn, RedisCache.command, alive, RedisCache.obtained]

theorem poll_filled (keeps : Keeps c key expiry v) (early : now < expiry)
    (filled : 1 < v.length) : pollTurn c key now .none = .ok (some v) := by
  cases c with
  | memory mc =>
    have stored : mc.kv key = some (expiry, v) := keeps.entry
    have some_bytes : v ≠ [] := List.ne_nil_of_length_pos (by omega)
    simp [pollTurn, MemoryCache.pollTurn, stored, some_bytes]
  | redis ks =>
    have alive : live ks now key = some (expiry, v) := live_some_iff.mpr ⟨keeps.entry, early⟩
    simp [pollTurn, RedisCache.pollTurn, RedisCache.command, alive, filled]

end KeptEntries
