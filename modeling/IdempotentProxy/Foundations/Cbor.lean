import Mathlib.Data.Option.Basic
import Mathlib.Data.String.Basic
import Mathlib.Data.List.Basic

/-!
The canonical CBOR writers for integers, byte strings, texts and the headers of
arrays and maps, and readers that take an item off the front of the input. A
reader accepts the shortest form of a length only through what the writer emits;
nothing here speaks of indefinite lengths, tags or floats.
-/
namespace Cbor

abbrev Bytes := List UInt8

/-- `n` in `width` bytes, the most significant first. -/
def word : Nat → Nat → Bytes
  | 0, _ => []
  | width + 1, n => UInt8.ofNat (n / 256 ^ width) :: word width (n % 256 ^ width)

def readWord : Nat → Nat → Bytes → Option (Nat × Bytes)
  | 0, acc, input => some (acc, input)
  | width + 1, acc, b :: input => readWord width (acc * 256 + b.toNat) input
  | _ + 1, _, [] => none

theorem read_word (width acc n : Nat) (rest : Bytes) (bound : n < 256 ^ width) :
    readWord width acc (word width n ++ rest) = some (acc * 256 ^ width + n, rest) := by
  induction width generalizing acc n with
  | zero =>
    have zero : n = 0 := by simpa using bound
    simp [word, readWord, zero]
  | succ width ih =>
    have positive : 0 < 256 ^ width := Nat.pow_pos (by decide)
    have small : n / 256 ^ width < 256 := by
      rw [Nat.div_lt_iff_lt_mul positive, Nat.mul_comm, ← Nat.pow_succ]
      exact bound
    have exact_digit : (UInt8.ofNat (n / 256 ^ width)).toNat = n / 256 ^ width := by
      rw [UInt8.toNat_ofNat']
      exact Nat.mod_eq_of_lt small
    have parts : acc * 256 ^ (width + 1) + n =
        (acc * 256 + n / 256 ^ width) * 256 ^ width + n % 256 ^ width := by
      have divided := Nat.div_add_mod n (256 ^ width)
      calc acc * 256 ^ (width + 1) + n
          = acc * 256 * 256 ^ width + (256 ^ width * (n / 256 ^ width) + n % 256 ^ width) := by
            rw [divided, Nat.pow_succ, Nat.mul_assoc, Nat.mul_comm 256]
        _ = (acc * 256 + n / 256 ^ width) * 256 ^ width + n % 256 ^ width := by
            rw [Nat.add_mul, Nat.mul_comm (256 ^ width) (n / 256 ^ width)]
            omega
    rw [word, List.cons_append, readWord, exact_digit, ih _ _ (Nat.mod_lt n positive), parts]

/-- The initial byte and the argument of an item of major type `major`. -/
def head (major n : Nat) : Bytes :=
  if n < 24 then [UInt8.ofNat (32 * major + n)]
  else if n < 256 then UInt8.ofNat (32 * major + 24) :: word 1 n
  else if n < 65536 then UInt8.ofNat (32 * major + 25) :: word 2 n
  else if n < 4294967296 then UInt8.ofNat (32 * major + 26) :: word 4 n
  else UInt8.ofNat (32 * major + 27) :: word 8 n

def readHead : Bytes → Option (Nat × Nat × Bytes)
  | [] => none
  | b :: input =>
      let major := b.toNat / 32
      let argument :=
        match b.toNat % 32 with
        | 24 => readWord 1 0 input
        | 25 => readWord 2 0 input
        | 26 => readWord 4 0 input
        | 27 => readWord 8 0 input
        | n => if n < 24 then some (n, input) else none
      argument.map fun (n, rest) => (major, n, rest)

theorem initial_byte {major : Nat} (low : Nat) (kind : major < 8) (bound : low < 32) :
    (UInt8.ofNat (32 * major + low)).toNat / 32 = major ∧
      (UInt8.ofNat (32 * major + low)).toNat % 32 = low := by
  rw [UInt8.toNat_ofNat']
  omega

theorem read_head {major n : Nat} (kind : major < 8) (bound : n < 2 ^ 64) (rest : Bytes) :
    readHead (head major n ++ rest) = some (major, n, rest) := by
  have wide (width : Nat) (fits : n < 256 ^ width) :
      readWord width 0 (word width n ++ rest) = some (n, rest) := by
    simpa using read_word width 0 n rest fits
  unfold head
  split
  · rename_i small
    obtain ⟨top, low⟩ := initial_byte n kind (by omega)
    simp only [List.cons_append, List.nil_append, readHead, top, low]
    split
    all_goals first | omega | simp [small]
  · split
    · rename_i fits
      obtain ⟨top, low⟩ := initial_byte 24 kind (by decide)
      simp only [List.cons_append, readHead, top, low, wide 1 (by omega), Option.map_some]
    · split
      · rename_i fits
        obtain ⟨top, low⟩ := initial_byte 25 kind (by decide)
        simp only [List.cons_append, readHead, top, low, wide 2 (by omega), Option.map_some]
      · split
        · rename_i fits
          obtain ⟨top, low⟩ := initial_byte 26 kind (by decide)
          simp only [List.cons_append, readHead, top, low, wide 4 (by omega), Option.map_some]
        · obtain ⟨top, low⟩ := initial_byte 27 kind (by decide)
          simp only [List.cons_append, readHead, top, low, wide 8 (by omega), Option.map_some]

theorem head_length (major n : Nat) : 0 < (head major n).length := by
  unfold head
  split
  · simp
  · split
    · simp
    · split
      · simp
      · split <;> simp

def uint (n : Nat) : Bytes := head 0 n
def bytes (b : Bytes) : Bytes := head 2 b.length ++ b
def utf8 (s : String) : Bytes := s.toUTF8.data.toList
def text (s : String) : Bytes := head 3 (utf8 s).length ++ utf8 s
def arrayHead (n : Nat) : Bytes := head 4 n
def mapHead (n : Nat) : Bytes := head 5 n

def readKind (major : Nat) (input : Bytes) : Option (Nat × Bytes) :=
  match readHead input with
  | some (kind, n, rest) => if kind = major then some (n, rest) else none
  | none => none

def readUint : Bytes → Option (Nat × Bytes) := readKind 0

def readBytes (input : Bytes) : Option (Bytes × Bytes) :=
  (readKind 2 input).bind fun (n, rest) =>
    if n ≤ rest.length then some (rest.take n, rest.drop n) else none

def fromUtf8 (b : Bytes) : Option String := String.fromUTF8? ⟨b.toArray⟩

def readText (input : Bytes) : Option (String × Bytes) :=
  (readKind 3 input).bind fun (n, rest) =>
    if n ≤ rest.length then (fromUtf8 (rest.take n)).map fun s => (s, rest.drop n) else none

def readArrayHead : Bytes → Option (Nat × Bytes) := readKind 4

theorem read_kind {major n : Nat} (kind : major < 8) (bound : n < 2 ^ 64) (rest : Bytes) :
    readKind major (head major n ++ rest) = some (n, rest) := by
  simp [readKind, read_head kind bound]

theorem read_uint {n : Nat} (bound : n < 2 ^ 64) (rest : Bytes) :
    readUint (uint n ++ rest) = some (n, rest) := read_kind (by decide) bound rest

theorem read_array_head {n : Nat} (bound : n < 2 ^ 64) (rest : Bytes) :
    readArrayHead (arrayHead n ++ rest) = some (n, rest) := read_kind (by decide) bound rest

theorem read_bytes {b : Bytes} (bound : b.length < 2 ^ 64) (rest : Bytes) :
    readBytes (bytes b ++ rest) = some (b, rest) := by
  simp [readBytes, bytes, List.append_assoc, read_kind (by decide : 2 < 8) bound]

theorem from_utf8 (s : String) : fromUtf8 (utf8 s) = some s := by
  have back : (⟨(utf8 s).toArray⟩ : ByteArray) = s.toUTF8 := by
    rw [utf8, Array.toArray_toList]
  rw [fromUtf8, back, String.fromUTF8?, String.toUTF8_eq_toByteArray, dif_pos s.isValidUTF8]
  rfl

theorem read_text {s : String} (bound : (utf8 s).length < 2 ^ 64) (rest : Bytes) :
    readText (text s ++ rest) = some (s, rest) := by
  simp [readText, text, List.append_assoc, read_kind (by decide : 3 < 8) bound, from_utf8]

def readName (name : String) (input : Bytes) : Option Bytes :=
  (readText input).bind fun (s, rest) => if s = name then some rest else none

theorem read_name {name : String} (short : (utf8 name).length < 2 ^ 64) (rest : Bytes) :
    readName name (text name ++ rest) = some rest := by
  simp [readName, read_text short]

section Sequences
variable {α : Type}

def array (write : α → Bytes) (xs : List α) : Bytes := arrayHead xs.length ++ xs.flatMap write

def readMany (read : Bytes → Option (α × Bytes)) : Nat → Bytes → Option (List α × Bytes)
  | 0, input => some ([], input)
  | n + 1, input =>
      (read input).bind fun (x, rest) =>
        (readMany read n rest).map fun (xs, rest) => (x :: xs, rest)

def readArray (read : Bytes → Option (α × Bytes)) (input : Bytes) : Option (List α × Bytes) :=
  (readArrayHead input).bind fun (n, rest) => readMany read n rest

variable {write : α → Bytes} {read : Bytes → Option (α × Bytes)} {xs : List α}
  (each : ∀ x ∈ xs, ∀ rest, read (write x ++ rest) = some (x, rest))
include each

theorem read_many (rest : Bytes) :
    readMany read xs.length (xs.flatMap write ++ rest) = some (xs, rest) := by
  induction xs with
  | nil => rfl
  | cons x xs ih =>
    have later := ih fun y mem => each y (List.mem_cons_of_mem x mem)
    simp [readMany, List.append_assoc, each x List.mem_cons_self, later]

theorem read_array (bound : xs.length < 2 ^ 64) (rest : Bytes) :
    readArray read (array write xs ++ rest) = some (xs, rest) := by
  rw [array, List.append_assoc, readArray, read_array_head bound, Option.bind_some]
  exact read_many each rest

end Sequences
end Cbor
