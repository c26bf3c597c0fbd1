import Mathlib.Logic.Basic

/-!
When a computation that may fail comes to a result.
-/
namespace Results
variable {ε ε' α β : Type}

theorem bind_ok_iff {first : Except ε α} {next : α → Except ε β} {b : β} :
    (first >>= next) = .ok b ↔ ∃ a, first = .ok a ∧ next a = .ok b := by
  cases first with
  | error err => simp [bind, Except.bind]
  | ok a => simp [bind, Except.bind]

theorem bind_error_iff {first : Except ε α} {next : α → Except ε β} {err : ε} :
    (first >>= next) = .error err ↔
      first = .error err ∨ ∃ a, first = .ok a ∧ next a = .error err := by
  cases first with
  | error err => simp [bind, Except.bind]
  | ok a => simp [bind, Except.bind]

theorem map_error_ok_iff {first : Except ε α} {f : ε → ε'} {a : α} :
    first.mapError f = .ok a ↔ first = .ok a := by
  cases first with
  | error err => constructor <;> (intro same; cases same)
  | ok b => constructor <;> (intro same; cases same; rfl)

theorem map_ok_iff {first : Except ε α} {f : α → β} {b : β} :
    first.map f = .ok b ↔ ∃ a, first = .ok a ∧ f a = b := by
  cases first <;> simp [Except.map]

end Results
