import Mathlib.Data.List.Basic
import Mathlib.Data.List.DropRight
import Mathlib.Data.String.Basic

/-!
`starts_with` and `strip_prefix` of a string, how two texts with a separator in them can
be the same, and texts trimmed at both ends.
-/
namespace Prefixes

def startsWith (s start : String) : Bool := start.toList.isPrefixOf s.toList

def stripPrefix (s start : String) : String := String.ofList (s.toList.drop start.length)

theorem starts_with_iff {s start : String} :
    startsWith s start = true ↔ ∃ rest, s = start ++ rest := by
  unfold startsWith
  rw [List.isPrefixOf_iff_prefix]
  constructor
  · rintro ⟨rest, same⟩
    refine ⟨String.ofList rest, ?_⟩
    rw [← String.toList_inj, String.toList_append, String.toList_ofList, same]
  · rintro ⟨rest, rfl⟩
    exact ⟨rest.toList, by rw [String.toList_append]⟩

@[simp] theorem starts_with_append (start rest : String) :
    startsWith (start ++ rest) start = true := starts_with_iff.mpr ⟨rest, rfl⟩

@[simp] theorem strip_prefix_append (start rest : String) :
    stripPrefix (start ++ rest) start = rest := by
  unfold stripPrefix
  rw [String.toList_append, ← String.length_toList, List.drop_left, String.ofList_toList]

section Separators
variable {α : Type} {c : α} {xs ys rest rest' : List α}

/-- Two texts cut at a separator are cut at the same place, or one is cut within the
    other's front. -/
theorem separator_cases (same : xs ++ c :: rest = ys ++ c :: rest') :
    (xs = ys ∧ rest = rest') ∨ (∃ t, ys = xs ++ c :: t ∧ rest = t ++ c :: rest') ∨
      ∃ t, xs = ys ++ c :: t ∧ rest' = t ++ c :: rest := by
  rcases List.append_eq_append_iff.mp same with ⟨t, longer, tail⟩ | ⟨t, longer, tail⟩
  · cases t with
    | nil => exact Or.inl ⟨by rw [longer, List.append_nil], (List.cons.inj tail).2⟩
    | cons d t =>
      obtain ⟨rfl, cut⟩ := List.cons.inj tail
      exact Or.inr (Or.inl ⟨t, longer, cut⟩)
  · cases t with
    | nil => exact Or.inl ⟨by rw [longer, List.append_nil], (List.cons.inj tail).2.symm⟩
    | cons d t =>
      obtain ⟨rfl, cut⟩ := List.cons.inj tail
      exact Or.inr (Or.inr ⟨t, longer, cut⟩)

theorem separator_cut (plain : c ∉ xs) (same : xs ++ c :: rest = ys ++ c :: rest') :
    (xs = ys ∧ rest = rest') ∨ ∃ t, ys = xs ++ c :: t ∧ rest = t ++ c :: rest' := by
  rcases separator_cases same with both | longer | ⟨t, longer, _⟩
  · exact Or.inl both
  · exact Or.inr longer
  · exact absurd (longer ▸ List.mem_append_right ys List.mem_cons_self) plain

theorem separator_injective (plain : c ∉ xs) (plain' : c ∉ ys)
    (same : xs ++ c :: rest = ys ++ c :: rest') : xs = ys ∧ rest = rest' := by
  rcases separator_cut plain same with both | ⟨t, longer, _⟩
  · exact both
  · exact absurd (longer ▸ List.mem_append_right xs List.mem_cons_self) plain'

end Separators
section Trimming
variable {α : Type} (p : α → Bool) (xs : List α)

theorem trimmed_front :
    ((xs.dropWhile p).rdropWhile p).dropWhile p = (xs.dropWhile p).rdropWhile p := by
  obtain ⟨rest, front⟩ := List.rdropWhile_prefix p (xs.dropWhile p)
  cases trimmed : (xs.dropWhile p).rdropWhile p with
  | nil => rfl
  | cons y ys =>
    rw [trimmed, List.cons_append] at front
    have again : (y :: (ys ++ rest)).dropWhile p = y :: (ys ++ rest) := by
      rw [front]
      exact List.dropWhile_idempotent p xs
    have kept : ¬ p y = true := List.dropWhile_eq_self_iff.mp again (Nat.zero_lt_succ _)
    exact List.dropWhile_cons_of_neg kept

theorem trimmed_again :
    ((((xs.dropWhile p).rdropWhile p).dropWhile p).rdropWhile p) =
      (xs.dropWhile p).rdropWhile p := by
  rw [trimmed_front]
  exact List.rdropWhile_idempotent p (xs.dropWhile p)

variable {p xs} {ys : List α}

theorem trimmed_iff : (xs.dropWhile p).rdropWhile p = xs ↔
    xs.dropWhile p = xs ∧ xs.rdropWhile p = xs := by
  constructor
  · intro trimmed
    have front := trimmed_front p xs
    have back := List.rdropWhile_idempotent p (xs.dropWhile p)
    rw [trimmed] at front
    unfold List.rdropWhile at back trimmed ⊢
    rw [trimmed] at back
    exact ⟨front, back⟩
  · rintro ⟨front, back⟩
    rw [front, back]

theorem trimmed_between (front : (xs.dropWhile p).rdropWhile p = xs) (filled : xs ≠ [])
    (back : (ys.dropWhile p).rdropWhile p = ys) (filled' : ys ≠ []) (zs : List α) :
    ((xs ++ zs ++ ys).dropWhile p).rdropWhile p = xs ++ zs ++ ys := by
  have first := (trimmed_iff.mp front).1
  have last := (trimmed_iff.mp back).2
  obtain ⟨x, xs, rfl⟩ := List.exists_cons_of_ne_nil filled
  obtain ⟨ys, y, rfl⟩ := (List.eq_nil_or_concat ys).resolve_left filled'
  have opens : ¬ p x = true := List.dropWhile_eq_self_iff.mp first (Nat.zero_lt_succ _)
  have closes : ¬ p y = true := by
    have ending := List.rdropWhile_eq_self_iff.mp last (by simp)
    simpa using ending
  rw [trimmed_iff, List.dropWhile_eq_self_iff, List.rdropWhile_eq_self_iff]
  exact ⟨fun _ => opens, fun _ => by simpa using closes⟩

end Trimming
end Prefixes
