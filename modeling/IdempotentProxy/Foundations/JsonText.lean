import Mathlib.Data.List.Basic
import Mathlib.Data.String.Basic

/-!
JSON values without numbers and their compact text. A printer is given by the order
in which it takes an object's members; strings are escaped as every printer does that
escapes no more than it must. What is printed of an object tells its keys apart.
-/
namespace JsonText

abbrev Text := List Char

inductive Json where
  | null
  | bool (b : Bool)
  | str (s : String)
  | arr (items : List Json)
  | obj (members : List (String × Json))

def quote : Char := Char.ofNat 34
def backslash : Char := Char.ofNat 92

def hexDigit (n : Nat) : Char := if n < 10 then Char.ofNat (48 + n) else Char.ofNat (87 + n)

def hexValue (c : Char) : Nat := if c.toNat < 58 then c.toNat - 48 else c.toNat - 87

def shortEscape (c : Char) : Option Char :=
  if c.toNat = 8 then some 'b'
  else if c.toNat = 9 then some 't'
  else if c.toNat = 10 then some 'n'
  else if c.toNat = 12 then some 'f'
  else if c.toNat = 13 then some 'r'
  else if c = quote ∨ c = backslash then some c
  else none

def escape (c : Char) : Text :=
  match shortEscape c with
  | some letter => [backslash, letter]
  | none =>
      if c.toNat < 32 then
        [backslash, 'u', '0', '0', hexDigit (c.toNat / 16), hexDigit (c.toNat % 16)]
      else [c]

def quoted (s : String) : Text := quote :: (s.toList.flatMap escape ++ [quote])

def printMember (m : String × Text) : Text := quoted m.1 ++ ':' :: m.2

def printRest : List (String × Text) → Text
  | [] => ['\x7d']
  | m :: ms => ',' :: (printMember m ++ printRest ms)

def printObject : List (String × Text) → Text
  | [] => ['\x7b', '\x7d']
  | m :: ms => '\x7b' :: (printMember m ++ printRest ms)

def printItems : List Text → Text
  | [] => ['[', ']']
  | t :: ts => '[' :: (t ++ ts.flatMap (',' :: ·) ++ [']'])

section Printing
variable (order : List (String × Text) → List (String × Text))

mutual

def print : Json → Text
  | .null => "null".toList
  | .bool true => "true".toList
  | .bool false => "false".toList
  | .str s => quoted s
  | .arr items => printItems (printAll items)
  | .obj members => printObject (order (printMembers members))

def printAll : List Json → List Text
  | [] => []
  | v :: vs => print v :: printAll vs

def printMembers : List (String × Json) → List (String × Text)
  | [] => []
  | (k, v) :: ms => (k, print v) :: printMembers ms

end

end Printing

section Prefixes

def unescape : Text → Option (Char × Text)
  | [] => none
  | c :: rest =>
      if c = quote then none
      else if c ≠ backslash then some (c, rest)
      else
        match rest with
        | [] => none
        | letter :: rest =>
            if letter = 'b' then some (Char.ofNat 8, rest)
            else if letter = 't' then some (Char.ofNat 9, rest)
            else if letter = 'n' then some (Char.ofNat 10, rest)
            else if letter = 'f' then some (Char.ofNat 12, rest)
            else if letter = 'r' then some (Char.ofNat 13, rest)
            else if letter = 'u' then
              match rest with
              | _ :: _ :: h :: l :: rest => some (Char.ofNat (16 * hexValue h + hexValue l), rest)
              | _ => none
            else some (letter, rest)

theorem hex_value_digit : ∀ n < 16, hexValue (hexDigit n) = n := by decide

theorem char_of_code {c : Char} {n : Nat} (code : c.toNat = n) : c = Char.ofNat n := by
  rw [← code, Char.ofNat_toNat]

theorem unescape_short {c letter : Char} (short : shortEscape c = some letter) (rest : Text) :
    unescape (backslash :: letter :: rest) = some (c, rest) := by
  unfold shortEscape at short
  split_ifs at short with code code code code code either
  iterate 5
    · cases short
      rw [char_of_code code]
      rfl
  · cases short
    rcases either with rfl | rfl <;> rfl

theorem unescape_escape (c : Char) (rest : Text) :
    unescape (escape c ++ rest) = some (c, rest) := by
  unfold escape
  cases short : shortEscape c with
  | some letter => exact unescape_short short rest
  | none =>
    have plain : c ≠ quote ∧ c ≠ backslash := by
      constructor <;> (rintro rfl; cases short)
    dsimp only
    split
    · rename_i control
      have code : Char.ofNat (16 * hexValue (hexDigit (c.toNat / 16)) +
          hexValue (hexDigit (c.toNat % 16))) = c := by
        rw [hex_value_digit _ (by omega), hex_value_digit _ (by omega), Nat.div_add_mod,
          Char.ofNat_toNat]
      calc unescape ([backslash, 'u', '0', '0', hexDigit (c.toNat / 16),
              hexDigit (c.toNat % 16)] ++ rest)
          = some (Char.ofNat (16 * hexValue (hexDigit (c.toNat / 16)) +
              hexValue (hexDigit (c.toNat % 16))), rest) := rfl
        _ = some (c, rest) := by rw [code]
    · rw [List.singleton_append]
      unfold unescape
      dsimp only
      rw [if_neg plain.1, if_pos plain.2]

theorem escaped_injective {cs ds rest rest' : Text}
    (same : cs.flatMap escape ++ quote :: rest = ds.flatMap escape ++ quote :: rest') :
    cs = ds ∧ rest = rest' := by
  induction cs generalizing ds with
  | nil =>
    cases ds with
    | nil => exact ⟨rfl, (List.cons.inj same).2⟩
    | cons d ds =>
      have read := congrArg unescape same
      rw [List.flatMap_cons, List.append_assoc, unescape_escape] at read
      cases read
  | cons c cs ih =>
    cases ds with
    | nil =>
      have read := congrArg unescape same
      rw [List.flatMap_cons, List.append_assoc, unescape_escape] at read
      cases read
    | cons d ds =>
      have read := congrArg unescape same
      rw [List.flatMap_cons, List.flatMap_cons, List.append_assoc, List.append_assoc,
        unescape_escape, unescape_escape] at read
      obtain ⟨first, later⟩ := Prod.mk.inj (Option.some.inj read)
      obtain ⟨others, tail⟩ := ih later
      exact ⟨by rw [first, others], tail⟩

theorem quoted_injective {s s' : String} {rest rest' : Text}
    (same : quoted s ++ rest = quoted s' ++ rest') : s = s' ∧ rest = rest' := by
  simp only [quoted, List.cons_append, List.append_assoc] at same
  obtain ⟨chars, tail⟩ := escaped_injective (List.cons.inj same).2
  exact ⟨String.toList_inj.mp chars, tail⟩

/-- Objects that have one value for each key print alike only with the same keys in the
    same order. -/
theorem print_rest_keys (value : String → Text) {ks ls : List String}
    (same : printRest (ks.map fun k => (k, value k)) = printRest (ls.map fun k => (k, value k))) :
    ks = ls := by
  induction ks generalizing ls with
  | nil =>
    cases ls with
    | nil => rfl
    | cons l ls => exact absurd (List.cons.inj same).1 (by decide)
  | cons k ks ih =>
    cases ls with
    | nil => exact absurd (List.cons.inj same).1 (by decide)
    | cons l ls =>
      have members := (List.cons.inj same).2
      simp only [printMember, List.append_assoc] at members
      obtain ⟨rfl, tails⟩ := quoted_injective members
      have rest := List.append_cancel_left (List.cons.inj tails).2
      rw [ih rest]

theorem print_object_keys (value : String → Text) {ks ls : List String}
    (same : printObject (ks.map fun k => (k, value k)) =
      printObject (ls.map fun k => (k, value k))) : ks = ls := by
  cases ks with
  | nil =>
    cases ls with
    | nil => rfl
    | cons l ls =>
      exact absurd (List.cons.inj (List.cons.inj same).2).1 (by decide)
  | cons k ks =>
    cases ls with
    | nil => exact absurd (List.cons.inj (List.cons.inj same).2).1 (by decide)
    | cons l ls =>
      have members := (List.cons.inj same).2
      simp only [printMember, List.append_assoc] at members
      obtain ⟨rfl, tails⟩ := quoted_injective members
      rw [print_rest_keys value (List.append_cancel_left (List.cons.inj tails).2)]

end Prefixes
end JsonText
