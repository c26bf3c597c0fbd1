import Mathlib.Data.Fin.Basic
import Mathlib.Algebra.Ring.Nat

/-!
Fixed-width unsigned counters: saturating addition to a counter of `w` bits, and
the wrapping sum of two numbers.
-/
namespace FixedWidth
variable {w : Nat}

abbrev Word (w : Nat) := Fin (2 ^ w)

def saturatingAdd (a : Word w) (n : Nat) : Word w :=
  ⟨min (a.val + n) (2 ^ w - 1), by have := Nat.two_pow_pos w; omega⟩

def wrappingAdd (w a b : Nat) : Nat := (a + b) % 2 ^ w

@[simp] theorem saturating_zero (a : Word w) : saturatingAdd a 0 = a := by
  apply Fin.ext
  have bound := a.isLt
  simp only [saturatingAdd]
  omega

theorem saturating_add (a : Word w) (m n : Nat) :
    saturatingAdd (saturatingAdd a m) n = saturatingAdd a (m + n) := by
  apply Fin.ext
  simp only [saturatingAdd]
  omega

theorem saturating_exact {a : Word w} {n : Nat} (fits : a.val + n < 2 ^ w) :
    (saturatingAdd a n).val = a.val + n := by
  simp only [saturatingAdd]
  omega

theorem wrapping_exact {a b : Nat} (fits : a + b < 2 ^ w) : wrappingAdd w a b = a + b :=
  Nat.mod_eq_of_lt fits

/-- A product of two smaller factors is smaller, unless both factors are what they were. -/
theorem product_exact_iff {a b a' b' : Nat} (first : a' ≤ a) (second : b' ≤ b) (apos : 0 < a)
    (bpos : 0 < b) : a' * b' = a * b ↔ a' = a ∧ b' = b := by
  constructor
  · intro same
    constructor
    · by_contra differ
      have less : a' * b < a * b := Nat.mul_lt_mul_of_pos_right (by omega) bpos
      have most := Nat.mul_le_mul_left a' second
      omega
    · by_contra differ
      have less : a * b' < a * b := Nat.mul_lt_mul_of_pos_left (by omega) apos
      have most := Nat.mul_le_mul_right b' first
      omega
  · intro ⟨same, same'⟩
    rw [same, same']

end FixedWidth
