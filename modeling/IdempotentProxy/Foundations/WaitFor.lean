import Mathlib.Logic.Basic

/-!
Tasks that hold locks and wait for locks, in read or write mode. A deadlock is a
nonempty set of tasks each of which holds a lock and waits for one held, in a
conflicting mode, by another task of the set.
-/
namespace WaitFor
variable {T L : Type}

inductive Mode where
  | read
  | write
  deriving DecidableEq, Repr

def Mode.conflicts (a b : Mode) : Bool := decide (a = .write) || decide (b = .write)

structure Locks (T L : Type) where
  holds : T → L → Mode → Prop
  waits : T → L → Mode → Prop

def Locks.BlockedBy (v : Locks T L) (t u : T) : Prop :=
  ∃ l m m', v.waits t l m ∧ v.holds u l m' ∧ m.conflicts m' = true

def Locks.Deadlocked (v : Locks T L) : Prop :=
  ∃ set : T → Prop, (∃ t, set t) ∧
    ∀ t, set t → (∃ l m, v.holds t l m) ∧ ∃ u, set u ∧ u ≠ t ∧ v.BlockedBy t u

/-- A bounded rank that rises from every lock a task holds to every lock the same
    task waits for leaves no room for a deadlock. -/
theorem ranked_not_deadlocked {v : Locks T L} (rank : L → Nat) (top : Nat)
    (bounded : ∀ l, rank l ≤ top)
    (rises : ∀ t l m l' m', v.holds t l m → v.waits t l' m' → rank l < rank l') :
    ¬ v.Deadlocked := by
  rintro ⟨set, ⟨first, mem⟩, waiting⟩
  have climbs : ∀ n, ∃ t l m, set t ∧ v.holds t l m ∧ n ≤ rank l := by
    intro n
    induction n with
    | zero =>
      obtain ⟨⟨l, m, held⟩, _⟩ := waiting first mem
      exact ⟨first, l, m, mem, held, Nat.zero_le _⟩
    | succ n ih =>
      obtain ⟨t, l, m, ht, held, high⟩ := ih
      obtain ⟨_, u, hu, _, l', a, b, waits, holds, _⟩ := waiting t ht
      exact ⟨u, l', b, hu, holds, Nat.lt_of_le_of_lt high (rises t l m l' a held waits)⟩
  obtain ⟨t, l, m, _, _, high⟩ := climbs (top + 1)
  have := bounded l
  omega

theorem crossing_deadlocked {v : Locks T L} {a b : T} (distinct : a ≠ b)
    (forth : v.BlockedBy a b) (back : v.BlockedBy b a) : v.Deadlocked := by
  have holder : ∀ t u, v.BlockedBy t u → ∃ l m, v.holds u l m := by
    rintro t u ⟨l, _, m', _, held, _⟩
    exact ⟨l, m', held⟩
  refine ⟨fun t => t = a ∨ t = b, ⟨a, Or.inl rfl⟩, ?_⟩
  rintro t (same | same)
  · subst same
    exact ⟨holder b t back, b, Or.inr rfl, Ne.symm distinct, forth⟩
  · subst same
    exact ⟨holder a t forth, a, Or.inl rfl, distinct, back⟩

end WaitFor
