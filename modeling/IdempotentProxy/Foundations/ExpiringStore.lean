import Mathlib.Logic.Function.Basic
import Mathlib.Data.List.Basic

/-!
Key-value stores whose entries carry an expiry time. An entry is live while its
expiry lies strictly ahead of the clock; a dead entry may stay stored, but no
operation stated over `live` can tell it from an absent one.
-/
namespace ExpiringStore

abbrev Store (κ V : Type) := κ → Option (Nat × V)

section Reading
variable {κ V : Type}

def live (st : Store κ V) (now : Nat) (k : κ) : Option (Nat × V) :=
  (st k).filter fun e => decide (now < e.1)

theorem live_some_iff {st : Store κ V} {now : Nat} {k : κ} {e : Nat × V} :
    live st now k = some e ↔ st k = some e ∧ now < e.1 := by
  simp [live, Option.filter_eq_some_iff]

theorem live_none_iff {st : Store κ V} {now : Nat} {k : κ} :
    live st now k = none ↔ ∀ e, st k = some e → e.1 ≤ now := by
  simp [live, Option.filter_eq_none_iff]

theorem live_filter {now later : Nat} (order : now ≤ later) (st : Store κ V) (k : κ) :
    live st later k = (live st now k).filter fun e => decide (later < e.1) := by
  cases entry : st k with
  | none => simp [live, entry]
  | some e =>
    by_cases ahead : later < e.1
    · have both : now < e.1 := by omega
      simp [live, entry, Option.filter, ahead, both]
    · by_cases before : now < e.1 <;> simp [live, entry, Option.filter, ahead, before]

theorem live_congr {st st' : Store κ V} {k : κ} (same : st' k = st k) (now : Nat) :
    live st' now k = live st now k := by simp [live, same]

end Reading

section Writing
variable {κ V : Type} [DecidableEq κ]

def put (st : Store κ V) (k : κ) (expiry : Nat) (v : V) : Store κ V :=
  Function.update st k (some (expiry, v))

def remove (st : Store κ V) (k : κ) : Store κ V := Function.update st k none

def putIfAbsent (st : Store κ V) (now : Nat) (k : κ) (expiry : Nat) (v : V) : Store κ V × Bool :=
  if (live st now k).isSome then (st, false) else (put st k expiry v, true)

def putIfPresent (st : Store κ V) (now : Nat) (k : κ) (expiry : Nat) (v : V) : Store κ V × Bool :=
  if (live st now k).isSome then (put st k expiry v, true) else (st, false)

@[simp] theorem put_same (st : Store κ V) (k : κ) (expiry : Nat) (v : V) :
    put st k expiry v k = some (expiry, v) := by simp [put]

@[simp] theorem put_other {st : Store κ V} {k j : κ} (expiry : Nat) (v : V) (other : j ≠ k) :
    put st k expiry v j = st j := by simp [put, other]

@[simp] theorem remove_same (st : Store κ V) (k : κ) : remove st k k = none := by simp [remove]

@[simp] theorem remove_other {st : Store κ V} {k j : κ} (other : j ≠ k) :
    remove st k j = st j := by simp [remove, other]

theorem live_put_same {st : Store κ V} {k : κ} {expiry now : Nat} {v : V} (ahead : now < expiry) :
    live (put st k expiry v) now k = some (expiry, v) :=
  live_some_iff.mpr ⟨put_same st k expiry v, ahead⟩

theorem live_remove_same (st : Store κ V) (now : Nat) (k : κ) :
    live (remove st k) now k = none := by simp [live]

theorem foldl_remove {α : Type} (name : α → κ) (taken : List α) (st : Store κ V) (k : κ) :
    taken.foldl (fun s x => remove s (name x)) st k =
      if ∃ x ∈ taken, name x = k then none else st k := by
  induction taken generalizing st with
  | nil => simp
  | cons x taken ih =>
    rw [List.foldl_cons, ih]
    by_cases later : ∃ y ∈ taken, name y = k
    · have some_named : ∃ y ∈ x :: taken, name y = k := by
        obtain ⟨y, mem, named⟩ := later
        exact ⟨y, List.mem_cons_of_mem x mem, named⟩
      rw [if_pos later, if_pos some_named]
    · by_cases here : name x = k
      · rw [if_neg later, if_pos ⟨x, by simp, here⟩, here, remove_same]
      · have none_named : ¬ ∃ y ∈ x :: taken, name y = k := by
          rintro ⟨y, mem, named⟩
          rcases List.mem_cons.mp mem with same | mem
          · exact here (same ▸ named)
          · exact later ⟨y, mem, named⟩
        rw [if_neg later, if_neg none_named, remove_other (Ne.symm here)]

end Writing

section Relating
variable {κ V W : Type} {R : V → W → Prop}

/-- Two stores hold, at `now`, entries under the same keys, with the same expiries and
    related values. -/
def Alike (R : V → W → Prop) (now : Nat) (st : Store κ V) (st' : Store κ W) : Prop :=
  ∀ k, Option.Rel (fun a b => a.1 = b.1 ∧ R a.2 b.2) (live st now k) (live st' now k)

theorem alike_cases {now : Nat} {st : Store κ V} {st' : Store κ W} (alike : Alike R now st st')
    (k : κ) : (live st now k = none ∧ live st' now k = none) ∨
      ∃ expiry v w, live st now k = some (expiry, v) ∧
        live st' now k = some (expiry, w) ∧ R v w := by
  have here := alike k
  cases left : live st now k with
  | none =>
    cases right : live st' now k with
    | none => exact Or.inl ⟨rfl, rfl⟩
    | some b =>
      rw [left, right] at here
      cases here
  | some a =>
    cases right : live st' now k with
    | none =>
      rw [left, right] at here
      cases here
    | some b =>
      rw [left, right] at here
      cases here with
      | some related =>
        obtain ⟨expiry, v⟩ := a
        obtain ⟨expiry', w⟩ := b
        obtain ⟨same, values⟩ := related
        dsimp only at same
        subst same
        exact Or.inr ⟨expiry, v, w, rfl, rfl, values⟩

theorem alike_later {now later : Nat} {st : Store κ V} {st' : Store κ W}
    (alike : Alike R now st st') (order : now ≤ later) : Alike R later st st' := by
  intro k
  rw [live_filter order st, live_filter order st']
  rcases alike_cases alike k with ⟨left, right⟩ | ⟨expiry, v, w, left, right, related⟩
  · rw [left, right]
    exact Option.Rel.none
  · rw [left, right]
    by_cases ahead : later < expiry
    · simp only [Option.filter, ahead, decide_true, ↓reduceIte]
      exact Option.Rel.some ⟨rfl, related⟩
    · simp only [Option.filter, ahead, decide_false, Bool.false_eq_true, ↓reduceIte]
      exact Option.Rel.none

theorem alike_isSome {now : Nat} {st : Store κ V} {st' : Store κ W} (alike : Alike R now st st')
    (k : κ) : (live st now k).isSome = (live st' now k).isSome := by
  rcases alike_cases alike k with ⟨left, right⟩ | ⟨expiry, v, w, left, right, _⟩
  · rw [left, right]
    rfl
  · rw [left, right]
    rfl

theorem alike_same_live {now : Nat} {st st₁ : Store κ V} {st' : Store κ W}
    (alike : Alike R now st st') (same : ∀ k, live st₁ now k = live st now k) :
    Alike R now st₁ st' := by
  intro k
  rw [same]
  exact alike k

variable [DecidableEq κ] {now : Nat} {st : Store κ V} {st' : Store κ W}

theorem alike_update {st₁ : Store κ V} {st₁' : Store κ W} (alike : Alike R now st st') (k : κ)
    (left : ∀ j, j ≠ k → st₁ j = st j) (right : ∀ j, j ≠ k → st₁' j = st' j)
    (here : Option.Rel (fun a b => a.1 = b.1 ∧ R a.2 b.2) (live st₁ now k) (live st₁' now k)) :
    Alike R now st₁ st₁' := by
  intro j
  by_cases same : j = k
  · rw [same]
    exact here
  · rw [live_congr (left j same), live_congr (right j same)]
    exact alike j

theorem alike_put (alike : Alike R now st st') (k : κ) (expiry : Nat) {v : V} {w : W}
    (related : R v w) : Alike R now (put st k expiry v) (put st' k expiry w) := by
  apply alike_update alike k (fun j => put_other expiry v) (fun j => put_other expiry w)
  by_cases ahead : now < expiry
  · rw [live_put_same ahead, live_put_same ahead]
    exact Option.Rel.some ⟨rfl, related⟩
  · simp only [live, put_same, Option.filter, ahead, decide_false, Bool.false_eq_true, ↓reduceIte]
    exact Option.Rel.none

theorem alike_remove (alike : Alike R now st st') (k : κ) :
    Alike R now (remove st k) (remove st' k) := by
  apply alike_update alike k (fun _ => remove_other) (fun _ => remove_other)
  rw [live_remove_same, live_remove_same]
  exact Option.Rel.none

theorem alike_put_if_absent (alike : Alike R now st st') (k : κ) (expiry : Nat) {v : V} {w : W}
    (related : R v w) :
    Alike R now (putIfAbsent st now k expiry v).1 (putIfAbsent st' now k expiry w).1 ∧
      (putIfAbsent st now k expiry v).2 = (putIfAbsent st' now k expiry w).2 := by
  unfold putIfAbsent
  rw [alike_isSome alike k]
  split
  · exact ⟨alike, rfl⟩
  · exact ⟨alike_put alike k expiry related, rfl⟩

end Relating
end ExpiringStore
