import Mathlib.Data.Finset.Max
import Mathlib.Data.Finset.Card
import Mathlib.Order.Defs.LinearOrder

/-!
An ordered set used as a priority queue: the least element is popped first, and
a draining loop pops while the least element is due, putting back the first one
that is not. The fuel of the loop is the number of elements, which suffices.
-/
namespace OrderedQueue
variable {α σ : Type} [LinearOrder α]

def popFirst (q : Finset α) : Option (α × Finset α) :=
  if h : q.Nonempty then some (q.min' h, q.erase (q.min' h)) else none

theorem popFirst_none_iff (q : Finset α) : popFirst q = none ↔ q = ∅ := by
  simp [popFirst, Finset.not_nonempty_iff_eq_empty]

theorem popFirst_some {q rest : Finset α} {x : α} (popped : popFirst q = some (x, rest)) :
    x ∈ q ∧ rest = q.erase x ∧ ∀ y ∈ q, x ≤ y := by
  unfold popFirst at popped
  split at popped
  · rename_i nonempty
    simp only [Option.some.injEq, Prod.mk.injEq] at popped
    obtain ⟨least, left⟩ := popped
    subst least
    exact ⟨q.min'_mem nonempty, left.symm, fun y hy => q.min'_le y hy⟩
  · exact absurd popped (by simp)

theorem popFirst_card {q rest : Finset α} {x : α} (popped : popFirst q = some (x, rest)) :
    rest.card + 1 = q.card := by
  obtain ⟨mem, left, _⟩ := popFirst_some popped
  rw [left]
  exact Finset.card_erase_add_one mem

/-- Pop while the least element is due, acting on each; the first one that is not
    due is put back. -/
def drain (due : α → Bool) (act : σ → α → σ) : Nat → Finset α → σ → Finset α × σ
  | 0, q, st => (q, st)
  | fuel + 1, q, st =>
      match popFirst q with
      | none => (q, st)
      | some (x, rest) =>
          if due x then drain due act fuel rest (act st x) else (insert x rest, st)

def DownwardDue (due : α → Bool) : Prop := ∀ x y, x ≤ y → due y = true → due x = true

/-- With fuel for every element the loop takes exactly the due elements, however
    many of them there are, and leaves exactly the others. -/
theorem drain_spec {due : α → Bool} (downward : DownwardDue due) (act : σ → α → σ)
    (fuel : Nat) (q : Finset α) (st : σ) (enough : q.card ≤ fuel) :
    (drain due act fuel q st).1 = q.filter (fun x => ¬ due x = true) ∧
      ∃ taken : List α, (∀ x, x ∈ taken ↔ x ∈ q ∧ due x = true) ∧
        (drain due act fuel q st).2 = taken.foldl act st := by
  induction fuel generalizing q st with
  | zero =>
    have empty : q = ∅ := Finset.card_eq_zero.mp (by omega)
    subst empty
    exact ⟨by simp [drain], [], by simp, rfl⟩
  | succ fuel ih =>
    rw [drain]
    cases popped : popFirst q with
    | none =>
      have empty := (popFirst_none_iff q).mp popped
      subst empty
      exact ⟨by simp, [], by simp, rfl⟩
    | some pair =>
      obtain ⟨x, rest⟩ := pair
      have smaller := popFirst_card popped
      obtain ⟨mem, left, least⟩ := popFirst_some popped
      subst left
      dsimp only
      by_cases isDue : due x = true
      · simp only [isDue, ↓reduceIte]
        obtain ⟨kept, taken, exact, folded⟩ := ih (q.erase x) (act st x) (by omega)
        refine ⟨?_, x :: taken, ?_, folded⟩
        · rw [kept]
          ext y
          simp only [Finset.mem_filter, Finset.mem_erase]
          constructor
          · exact fun h => ⟨h.1.2, h.2⟩
          · exact fun h => ⟨⟨fun same => h.2 (same ▸ isDue), h.1⟩, h.2⟩
        · intro y
          simp only [List.mem_cons, exact, Finset.mem_erase]
          constructor
          · rintro (same | ⟨⟨_, hy⟩, hd⟩)
            · exact same ▸ ⟨mem, isDue⟩
            · exact ⟨hy, hd⟩
          · rintro ⟨hy, hd⟩
            by_cases same : y = x
            · exact Or.inl same
            · exact Or.inr ⟨⟨same, hy⟩, hd⟩
      · simp only [isDue]
        have none_due : ∀ y ∈ q, ¬ due y = true :=
          fun y hy hd => isDue (downward x y (least y hy) hd)
        refine ⟨?_, [], ?_, rfl⟩
        · simp only [Bool.false_eq_true, ↓reduceIte, Finset.insert_erase mem]
          exact (Finset.filter_true_of_mem none_due).symm
        · intro y
          simp only [List.not_mem_nil, false_iff, not_and]
          exact none_due y

inductive Drains (due : α → Bool) (act : σ → α → σ) : Finset α → σ → Finset α → σ → Prop where
  | empty {q : Finset α} {st : σ} (popped : popFirst q = none) : Drains due act q st q st
  | putBack {q rest : Finset α} {st : σ} {x : α} (popped : popFirst q = some (x, rest))
      (live : due x = false) : Drains due act q st (insert x rest) st
  | take {q rest left : Finset α} {st done : σ} {x : α} (popped : popFirst q = some (x, rest))
      (dead : due x = true) (more : Drains due act rest (act st x) left done) :
      Drains due act q st left done

theorem drains_drain (due : α → Bool) (act : σ → α → σ) (fuel : Nat) (q : Finset α) (st : σ)
    (enough : q.card ≤ fuel) :
    Drains due act q st (drain due act fuel q st).1 (drain due act fuel q st).2 := by
  induction fuel generalizing q st with
  | zero =>
    have empty : q = ∅ := Finset.card_eq_zero.mp (by omega)
    exact Drains.empty ((popFirst_none_iff q).mpr empty)
  | succ fuel ih =>
    rw [drain]
    cases popped : popFirst q with
    | none => exact Drains.empty popped
    | some pair =>
      obtain ⟨x, rest⟩ := pair
      have smaller := popFirst_card popped
      dsimp only
      cases isDue : due x with
      | true => exact Drains.take popped isDue (ih rest (act st x) (by omega))
      | false => exact Drains.putBack popped isDue

end OrderedQueue
