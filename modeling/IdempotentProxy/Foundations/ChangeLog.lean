import Mathlib.Data.List.Basic

/-!
A log of additions to and removals from a set, newest first. An element is in the set as
its last change left it, or as it was at the opening of the log.
-/
namespace ChangeLog
variable {α : Type} [DecidableEq α]

inductive Change (α : Type) where
  | added (x : α)
  | removed (x : α)
  deriving DecidableEq

def Change.subject : Change α → α
  | .added x => x
  | .removed x => x

/-- The change of `x` that was made last. -/
def lastChange (log : List (Change α)) (x : α) : Option (Change α) :=
  log.find? fun c => c.subject = x

def Holds (opening : α → Prop) (log : List (Change α)) (x : α) : Prop :=
  lastChange log x = some (.added x) ∨ (lastChange log x = none ∧ opening x)

def record (change : α → Change α) (xs : List α) (log : List (Change α)) : List (Change α) :=
  xs.foldl (fun log x => change x :: log) log

variable {opening : α → Prop} {log : List (Change α)} {x : α}

theorem holds_nil : Holds opening [] x ↔ opening x := by simp [Holds, lastChange]

theorem holds_added (y : α) : Holds opening (.added y :: log) x ↔ x = y ∨ Holds opening log x := by
  unfold Holds lastChange
  rw [List.find?_cons]
  by_cases same : x = y
  · simp [Change.subject, same]
  · simp [Change.subject, same, Ne.symm same]

theorem holds_removed (y : α) :
    Holds opening (.removed y :: log) x ↔ x ≠ y ∧ Holds opening log x := by
  unfold Holds lastChange
  rw [List.find?_cons]
  by_cases same : x = y
  · simp [Change.subject, same]
  · simp [Change.subject, same, Ne.symm same]

theorem holds_all_added (xs : List α) :
    Holds opening (record .added xs log) x ↔ x ∈ xs ∨ Holds opening log x := by
  induction xs generalizing log with
  | nil => simp [record]
  | cons y xs ih =>
    have rest := @ih (.added y :: log)
    rw [holds_added] at rest
    rw [record, List.foldl_cons, List.mem_cons, or_comm (a := x = y), or_assoc]
    exact rest

theorem holds_all_removed (xs : List α) :
    Holds opening (record .removed xs log) x ↔ x ∉ xs ∧ Holds opening log x := by
  induction xs generalizing log with
  | nil => simp [record]
  | cons y xs ih =>
    have rest := @ih (.removed y :: log)
    rw [holds_removed] at rest
    rw [record, List.foldl_cons, List.mem_cons, not_or, and_comm (a := x ≠ y), and_assoc]
    exact rest

end ChangeLog
