import IdempotentProxy.Foundations.EventRuns

/-!
Two machines driven by the same events. While every step meets a condition on the
first machine, a relation between their states is kept, each accepts what the other
accepts, and an observer who sees both notices nothing; where the condition is exact,
the first step that misses it shows.
-/
namespace PairedRuns
open EventRuns
variable {S T E : Type}

structure Matched (stepA : S → E → Option S) (stepB : T → E → Option T) (R : S → T → Prop)
    (Q : S → E → Prop) : Prop where
  forward : ∀ a b e a', R a b → Q a e → stepA a e = some a' →
    ∃ b', stepB b e = some b' ∧ R a' b'
  backward : ∀ a b e b', R a b → Q a e → stepB b e = some b' →
    ∃ a', stepA a e = some a' ∧ R a' b'

/-- The observer sees the same of both machines whenever both have taken the same steps. -/
def SeenAlike (stepA : S → E → Option S) (stepB : T → E → Option T) (Same : S → T → Prop)
    (a : S) (b : T) (es : List E) : Prop :=
  ∀ pre post a' b', es = pre ++ post → run stepA a pre = some a' → run stepB b pre = some b' →
    Same a' b'

variable {stepA : S → E → Option S} {stepB : T → E → Option T} {R : S → T → Prop}
  {Q : S → E → Prop} {Same : S → T → Prop} {a a' : S} {b b' : T} {es : List E}

section Matching
variable (matched : Matched stepA stepB R Q)
include matched

theorem run_forward (related : R a b) (all : Along stepA Q a es)
    (accepted : run stepA a es = some a') : ∃ b', run stepB b es = some b' ∧ R a' b' := by
  induction es generalizing a b with
  | nil =>
    cases accepted
    exact ⟨b, rfl, related⟩
  | cons e es ih =>
    obtain ⟨m, first, rest⟩ := run_cons_iff.mp accepted
    obtain ⟨n, second, next⟩ := matched.forward a b e m related all.1 first
    obtain ⟨b', reached, last⟩ := ih next (all.2 m first) rest
    exact ⟨b', run_cons_iff.mpr ⟨n, second, reached⟩, last⟩

theorem run_related (related : R a b) (all : Along stepA Q a es)
    (first : run stepA a es = some a') (second : run stepB b es = some b') : R a' b' := by
  obtain ⟨found, reached, last⟩ := run_forward matched related all first
  have same : found = b' := Option.some.inj (reached.symm.trans second)
  rw [← same]
  exact last

theorem seen_alike_of_along (sees : ∀ a b, R a b → Same a b) (related : R a b)
    (all : Along stepA Q a es) : SeenAlike stepA stepB Same a b es := by
  intro pre post a' b' split first second
  subst split
  exact sees a' b' (run_related matched related (along_append all).1 first second)

end Matching

theorem seen_alike_tail {e : E} (every : SeenAlike stepA stepB Same a b (e :: es))
    (first : stepA a e = some a') (second : stepB b e = some b') :
    SeenAlike stepA stepB Same a' b' es := by
  intro pre post u v split left right
  exact every (e :: pre) post u v (by rw [split]; rfl) (run_cons_iff.mpr ⟨a', first, left⟩)
    (run_cons_iff.mpr ⟨b', second, right⟩)

/-- Where a step that misses `Q` is seen, `Q` decides whether anything is. -/
theorem seen_alike_iff_along (matched : Matched stepA stepB R Q) (sees : ∀ a b, R a b → Same a b)
    (shows : ∀ a b e a' b', R a b → ¬ Q a e → stepA a e = some a' → stepB b e = some b' →
      ¬ Same a' b')
    (related : R a b) (first : run stepA a es = some a') (second : run stepB b es = some b') :
    SeenAlike stepA stepB Same a b es ↔ Along stepA Q a es := by
  constructor
  · intro every
    induction es generalizing a b with
    | nil => trivial
    | cons e es ih =>
      obtain ⟨m, left, rest⟩ := run_cons_iff.mp first
      obtain ⟨n, right, others⟩ := run_cons_iff.mp second
      have alike : Same m n :=
        every [e] es m n rfl (run_single_iff.mpr left) (run_single_iff.mpr right)
      have good : Q a e := by
        by_contra missed
        exact shows a b e m n related missed left right alike
      have single : Along stepA Q a [e] := ⟨good, fun _ _ => trivial⟩
      have next : R m n :=
        run_related matched related single (run_single_iff.mpr left) (run_single_iff.mpr right)
      exact along_cons left good (ih next rest others (seen_alike_tail every left right))
  · exact seen_alike_of_along matched sees related

end PairedRuns
