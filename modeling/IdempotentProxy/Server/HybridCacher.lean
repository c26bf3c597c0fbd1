import IdempotentProxy.Server.MemoryCacher
import IdempotentProxy.Server.RedisClient

/-!
`HybridCacher`: the back end chosen at start behind one interface, with the polling
interval and the ttl of its configuration. `view` is what either back end stores;
the lemmas state each operation on it. `fault` is what happens to a Redis command;
the in-memory back end has no use for it.
-/
namespace HybridCache
open ExpiringStore
open MemoryCache (Bytes)

/-- The numbers `main` passes on, after its lower bounds. -/
structure Settings where
  pollInterval : Nat
  cacheTtl : Nat
  poll_bound : 10 ≤ pollInterval
  ttl_bound : 1000 ≤ cacheTtl

def Settings.read (pollInterval requestTimeout : Option Nat) : Settings :=
  ⟨max (pollInterval.getD 100) 10, max (requestTimeout.getD 10000) 1000,
    Nat.le_max_right _ _, Nat.le_max_right _ _⟩

inductive CacherEntry where
  | memory (cacher : MemoryCache.MemoryCacher)
  | redis (keyspace : RedisCache.Keyspace)

inductive Backend where
  | memory
  | redis
  deriving DecidableEq

def CacherEntry.start : Backend → CacherEntry
  | .memory => .memory MemoryCache.MemoryCacher.default
  | .redis => .redis fun _ => none

def view : CacherEntry → Store String Bytes
  | .memory cacher => cacher.kv
  | .redis keyspace => keyspace

def placeholder : CacherEntry → Bytes
  | .memory _ => []
  | .redis _ => RedisCache.obtained

def obtain (c : CacherEntry) (key : String) (ttl now : Nat) (fault : RedisCache.Fault) :
    CacherEntry × Except String Bool :=
  match c with
  | .memory cacher =>
      let done := MemoryCache.obtain cacher key ttl now
      (.memory done.cacher, done.reply)
  | .redis keyspace =>
      let (keyspace, reply) := RedisCache.obtain keyspace key ttl now fault
      (.redis keyspace, reply)

def pollTurn (c : CacherEntry) (key : String) (now : Nat) (fault : RedisCache.Fault) :
    Except String (Option Bytes) :=
  match c with
  | .memory cacher => (MemoryCache.pollTurn cacher key now).reply
  | .redis keyspace => RedisCache.pollTurn keyspace key now fault

def set (c : CacherEntry) (key : String) (val : Bytes) (ttl now : Nat)
    (fault : RedisCache.Fault) : CacherEntry × Except String Bool :=
  match c with
  | .memory cacher =>
      let done := MemoryCache.set cacher key val ttl now
      (.memory done.cacher, done.reply)
  | .redis keyspace =>
      let (keyspace, reply) := RedisCache.set keyspace key val ttl now fault
      (.redis keyspace, reply)

def del (c : CacherEntry) (key : String) (fault : RedisCache.Fault) :
    CacherEntry × Except String Unit :=
  match c with
  | .memory cacher =>
      let done := MemoryCache.del cacher key
      (.memory done.cacher, done.reply)
  | .redis keyspace =>
      let (keyspace, reply) := RedisCache.del keyspace key fault
      (.redis keyspace, reply)

def clean (now : Nat) : CacherEntry → CacherEntry
  | .memory cacher => .memory (MemoryCache.cleanExpiredValues cacher now)
  | .redis keyspace => .redis keyspace

section Backends
variable (c : CacherEntry) (key : String) (val : Bytes) (ttl now : Nat) (fault : RedisCache.Fault)

@[simp] theorem placeholder_obtain :
    placeholder (obtain c key ttl now fault).1 = placeholder c := by cases c <;> rfl

@[simp] theorem placeholder_set :
    placeholder (set c key val ttl now fault).1 = placeholder c := by cases c <;> rfl

@[simp] theorem placeholder_del : placeholder (del c key fault).1 = placeholder c := by
  cases c <;> rfl

@[simp] theorem placeholder_clean : placeholder (clean now c) = placeholder c := by
  cases c <;> rfl

theorem placeholder_short : (placeholder c).length ≤ 1 := by
  cases c with
  | memory cacher => exact Nat.zero_le 1
  | redis keyspace => exact Nat.le_refl 1

theorem obtain_view :
    (view (obtain c key ttl now fault).1 = view c ∧
        ∃ text, (obtain c key ttl now fault).2 = .error text) ∨
      view (obtain c key ttl now fault).1 =
          (putIfAbsent (view c) now key (now + ttl) (placeholder c)).1 ∧
        ((obtain c key ttl now fault).2 =
            .ok (putIfAbsent (view c) now key (now + ttl) (placeholder c)).2 ∨
          ∃ text, (obtain c key ttl now fault).2 = .error text) := by
  cases c with
  | memory cacher =>
    obtain ⟨stored, replied⟩ := MemoryCache.obtain_put_if_absent cacher key ttl now
    exact Or.inr ⟨stored, Or.inl replied⟩
  | redis keyspace =>
    cases fault with
    | none => exact Or.inr ⟨rfl, Or.inl rfl⟩
    | lost text => exact Or.inl ⟨rfl, text, rfl⟩
    | executed text => exact Or.inr ⟨rfl, Or.inr ⟨text, rfl⟩⟩

/-- Either the key stays as it is and no lease is granted, or it was free and now
    holds the placeholder. -/
theorem obtain_cases (lasting : 0 < ttl) :
    (view (obtain c key ttl now fault).1 = view c ∧
        (obtain c key ttl now fault).2 ≠ .ok true) ∨
      live (view c) now key = none ∧
        view (obtain c key ttl now fault).1 =
          put (view c) key (now + ttl) (placeholder c) ∧
        view (obtain c key ttl now fault).1 key ≠ view c key ∧
        (obtain c key ttl now fault).2 ≠ .ok false := by
  cases alive : live (view c) now key with
  | some e =>
    have refused : putIfAbsent (view c) now key (now + ttl) (placeholder c) = (view c, false) := by
      simp [putIfAbsent, alive]
    rcases obtain_view c key ttl now fault with ⟨same, text, failed⟩ | ⟨ran, replied⟩
    · exact Or.inl ⟨same, by simp [failed]⟩
    · rw [refused] at ran replied
      rcases replied with answer | ⟨text, failed⟩
      · exact Or.inl ⟨ran, by simp [answer]⟩
      · exact Or.inl ⟨ran, by simp [failed]⟩
  | none =>
    have granted : putIfAbsent (view c) now key (now + ttl) (placeholder c) =
        (put (view c) key (now + ttl) (placeholder c), true) := by simp [putIfAbsent, alive]
    rcases obtain_view c key ttl now fault with ⟨same, text, failed⟩ | ⟨ran, replied⟩
    · exact Or.inl ⟨same, by simp [failed]⟩
    · rw [granted] at ran replied
      dsimp only at ran replied
      have differs : view (obtain c key ttl now fault).1 key ≠ view c key := by
        rw [ran, put_same]
        intro same
        have late := live_none_iff.mp alive _ same.symm
        dsimp only at late
        omega
      rcases replied with answer | ⟨text, failed⟩
      · exact Or.inr ⟨rfl, ran, differs, by simp [answer]⟩
      · exact Or.inr ⟨rfl, ran, differs, by simp [failed]⟩

theorem set_view_ran {e : Nat × Bytes} (alive : live (view c) now key = some e)
    (ran : ∀ text, fault ≠ .lost text) :
    view (set c key val ttl now fault).1 = put (view c) key (now + ttl) val := by
  cases c with
  | memory cacher => exact (MemoryCache.set_live alive val ttl).1
  | redis keyspace =>
    have found : (live keyspace now key).isSome = true := by
      rw [show live keyspace now key = some e from alive]
      rfl
    cases fault with
    | none => simp [set, RedisCache.set, RedisCache.command, putIfPresent, view, found]
    | lost text => exact absurd rfl (ran text)
    | executed text => simp [set, RedisCache.set, RedisCache.command, putIfPresent, view, found]

theorem set_view_live {e : Nat × Bytes} (alive : live (view c) now key = some e) :
    view (set c key val ttl now fault).1 = put (view c) key (now + ttl) val ∨
      view (set c key val ttl now fault).1 = view c ∧
        ∃ text, (set c key val ttl now fault).2 = .error text := by
  cases c with
  | memory cacher => exact Or.inl (MemoryCache.set_live alive val ttl).1
  | redis keyspace =>
    cases fault with
    | none => exact Or.inl (set_view_ran _ _ _ _ _ _ alive (by simp))
    | lost text => exact Or.inr ⟨rfl, text, rfl⟩
    | executed text => exact Or.inl (set_view_ran _ _ _ _ _ _ alive (by simp))

theorem set_view :
    view (set c key val ttl now fault).1 = put (view c) key (now + ttl) val ∨
      view (set c key val ttl now fault).1 = remove (view c) key ∨
        view (set c key val ttl now fault).1 = view c := by
  cases alive : live (view c) now key with
  | some e =>
    rcases set_view_live c key val ttl now fault alive with stored | ⟨same, _⟩
    · exact Or.inl stored
    · exact Or.inr (Or.inr same)
  | none =>
    cases c with
    | memory cacher => exact Or.inr (Or.inl (MemoryCache.set_dead alive val ttl).1)
    | redis keyspace =>
      have absent : putIfPresent keyspace now key (now + ttl) val = (keyspace, false) := by
        have dead : live keyspace now key = none := alive
        simp [putIfPresent, dead]
      cases fault with
      | lost text => exact Or.inr (Or.inr rfl)
      | none => exact Or.inr (Or.inr (congrArg Prod.fst absent))
      | executed text => exact Or.inr (Or.inr (congrArg Prod.fst absent))

theorem poll_view {data : Bytes} (read : pollTurn c key now fault = .ok (some data)) :
    (∃ expiry, view c key = some (expiry, data)) ∧ data ≠ placeholder c := by
  cases c with
  | memory cacher =>
    simp only [pollTurn, MemoryCache.pollTurn] at read
    split at read
    · cases read
    · rename_i expiry value found
      split at read
      · cases read
      · rename_i filled
        cases read
        exact ⟨⟨expiry, found⟩, by simpa [placeholder] using filled⟩
  | redis keyspace =>
    simp only [pollTurn, RedisCache.pollTurn] at read
    split at read
    · cases read
    · cases read
    · rename_i bs found
      split at read
      · rename_i long
        cases read
        cases fault with
        | none =>
          obtain ⟨entry, alive, value⟩ := Option.map_eq_some_iff.mp (Except.ok.inj found)
          subst value
          refine ⟨⟨entry.1, (live_some_iff.mp alive).1⟩, ?_⟩
          intro same
          have short := placeholder_short (.redis keyspace)
          rw [← same] at short
          omega
        | lost text => cases found
        | executed text => cases found
      · cases read

theorem del_view :
    view (del c key fault).1 = remove (view c) key ∨ view (del c key fault).1 = view c := by
  cases c with
  | memory cacher => exact Or.inl (MemoryCache.del_kv cacher key).1
  | redis keyspace =>
    cases fault with
    | none => exact Or.inl rfl
    | lost text => exact Or.inr rfl
    | executed text => exact Or.inl rfl

end Backends

/-- The expiry queue of the in-memory back end is exact. -/
def Sound : CacherEntry → Prop
  | .memory cacher => MemoryCache.QueueExact cacher
  | .redis _ => True

section Soundness
variable {c : CacherEntry} (sound : Sound c)

theorem start_sound (backend : Backend) : Sound (CacherEntry.start backend) := by
  cases backend with
  | memory =>
    intro p mem
    simp [MemoryCache.MemoryCacher.default] at mem
  | redis => trivial

include sound

theorem obtain_sound (key : String) (ttl now : Nat) (fault : RedisCache.Fault) :
    Sound (obtain c key ttl now fault).1 := by
  cases c with
  | memory cacher => exact MemoryCache.obtain_queue_exact sound key ttl now
  | redis keyspace => trivial

theorem set_sound {key : String} {now : Nat} {e : Nat × Bytes}
    (alive : live (view c) now key = some e) (val : Bytes) (ttl : Nat)
    (fault : RedisCache.Fault) : Sound (set c key val ttl now fault).1 := by
  cases c with
  | memory cacher => exact MemoryCache.set_queue_exact sound alive val ttl
  | redis keyspace => trivial

theorem del_sound (key : String) (fault : RedisCache.Fault) : Sound (del c key fault).1 := by
  cases c with
  | memory cacher => exact MemoryCache.del_queue_exact sound key
  | redis keyspace => trivial

theorem clean_sound (now : Nat) : Sound (clean now c) := by
  cases c with
  | memory cacher => exact MemoryCache.clean_queue_exact sound now
  | redis keyspace => trivial

theorem clean_live (now : Nat) (key : String) :
    live (view (clean now c)) now key = live (view c) now key := by
  cases c with
  | memory cacher => exact MemoryCache.clean_keeps_live (MemoryCache.exact_agrees sound) now key
  | redis keyspace => rfl

end Soundness

theorem clean_view {c : CacherEntry} {now : Nat} {key : String} {e : Nat × Bytes}
    (kept : view (clean now c) key = some e) : view c key = some e := by
  cases c with
  | memory cacher =>
    have gone : (MemoryCache.cleanExpiredValues cacher now).kv key = some e := kept
    rw [MemoryCache.clean_kv] at gone
    split at gone
    · cases gone
    · exact gone
  | redis keyspace => exact kept

end HybridCache
