import IdempotentProxy.Foundations.Prefixes

/-!
Tables of named values, such as a process's environment, of which a program reads single
names and every name with a given start.
-/
namespace NamedTables
open Prefixes

abbrev Table (α : Type) := List (String × α)

variable {α β : Type}

def startingWith (start : String) (t : Table α) : Table α := t.filter fun v => startsWith v.1 start

/-- Every value parsed under its name, or nothing where one does not parse. -/
def parseAll (parse : α → Option β) : Table α → Option (Table β)
  | [] => some []
  | (name, value) :: t =>
      (parse value).bind fun parsed => (parseAll parse t).map fun rest => (name, parsed) :: rest

theorem lookup_cons_other {name other : String} (differs : name ≠ other) (value : α) (t : Table α) :
    ((other, value) :: t).lookup name = t.lookup name := by
  rw [List.lookup_cons, beq_false_of_ne differs]

theorem lookup_starting_with (start name : String) (t : Table α) :
    (startingWith start t).lookup name = if startsWith name start then t.lookup name else none := by
  unfold startingWith
  induction t with
  | nil => simp
  | cons v t ih =>
    obtain ⟨other, value⟩ := v
    rw [List.filter_cons]
    by_cases here : name = other
    · subst here
      split
      · simp
      · rename_i not_started
        rw [ih, if_neg not_started]
    · rw [lookup_cons_other here, ← ih]
      split
      · exact lookup_cons_other here value _
      · rfl

theorem parse_all_cons {parse : α → Option β} {name : String} {value : α} {t : Table α}
    {parsed : Table β} : parseAll parse ((name, value) :: t) = some parsed ↔
      ∃ b rest, parse value = some b ∧ parseAll parse t = some rest ∧ parsed = (name, b) :: rest := by
  simp only [parseAll, Option.bind_eq_some_iff, Option.map_eq_some_iff]
  constructor
  · rintro ⟨b, read, rest, others, same⟩
    exact ⟨b, rest, read, others, same.symm⟩
  · rintro ⟨b, rest, read, others, same⟩
    exact ⟨b, read, rest, others, same.symm⟩

theorem lookup_parse_all {parse : α → Option β} {t : Table α} {parsed : Table β}
    (read : parseAll parse t = some parsed) (name : String) :
    parsed.lookup name = (t.lookup name).bind parse := by
  induction t generalizing parsed with
  | nil =>
    cases read
    rfl
  | cons v t ih =>
    obtain ⟨other, value⟩ := v
    obtain ⟨b, rest, here, others, rfl⟩ := parse_all_cons.mp read
    rw [List.lookup_cons, List.lookup_cons, ih others]
    split
    · exact here.symm
    · rfl

theorem parse_all_mem {parse : α → Option β} {t : Table α} {parsed : Table β}
    (read : parseAll parse t = some parsed) {b : β} (mem : b ∈ parsed.map Prod.snd) :
    ∃ v ∈ t, parse v.2 = some b := by
  induction t generalizing parsed with
  | nil =>
    cases read
    cases mem
  | cons v t ih =>
    obtain ⟨name, value⟩ := v
    obtain ⟨first, rest, here, others, rfl⟩ := parse_all_cons.mp read
    rw [List.map_cons, List.mem_cons] at mem
    rcases mem with rfl | mem
    · exact ⟨_, List.mem_cons_self, here⟩
    · obtain ⟨v, inside, made⟩ := ih others mem
      exact ⟨v, List.mem_cons_of_mem _ inside, made⟩

theorem parse_all_covers {parse : α → Option β} {t : Table α} {parsed : Table β}
    (read : parseAll parse t = some parsed) {v : String × α} (mem : v ∈ t) :
    ∃ b ∈ parsed.map Prod.snd, parse v.2 = some b := by
  induction t generalizing parsed with
  | nil => cases mem
  | cons first t ih =>
    obtain ⟨name, value⟩ := first
    obtain ⟨b, rest, here, others, rfl⟩ := parse_all_cons.mp read
    rw [List.map_cons]
    rcases List.mem_cons.mp mem with same | mem
    · exact ⟨b, List.mem_cons_self, same ▸ here⟩
    · obtain ⟨b', inside, made⟩ := ih others mem
      exact ⟨b', List.mem_cons_of_mem b inside, made⟩

theorem parse_all_length {parse : α → Option β} {t : Table α} {parsed : Table β}
    (read : parseAll parse t = some parsed) : parsed.length = t.length := by
  induction t generalizing parsed with
  | nil =>
    cases read
    rfl
  | cons v t ih =>
    obtain ⟨_, rest, _, others, rfl⟩ := parse_all_cons.mp read
    rw [List.length_cons, List.length_cons, ih others]

theorem starting_with_empty_iff {start : String} {t : Table α} :
    startingWith start t = [] ↔ ∀ v ∈ t, startsWith v.1 start = false := by
  simp [startingWith, List.filter_eq_nil_iff]

end NamedTables
