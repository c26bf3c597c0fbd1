import Mathlib.Data.List.Basic

/-!
Base64 over an alphabet given by its last two symbols, without padding. `decode`
accepts what `encode` writes and nothing else; `unpack` alone drops the bits that
fill up the last symbol, whatever they are.
-/
namespace Base64

abbrev Bytes := List UInt8

def pack : Bytes → List Nat
  | a :: b :: c :: rest =>
      a.toNat / 4 :: (a.toNat % 4 * 16 + b.toNat / 16) :: (b.toNat % 16 * 4 + c.toNat / 64) ::
        c.toNat % 64 :: pack rest
  | [a, b] => [a.toNat / 4, a.toNat % 4 * 16 + b.toNat / 16, b.toNat % 16 * 4]
  | [a] => [a.toNat / 4, a.toNat % 4 * 16]
  | [] => []

def unpack : List Nat → Option Bytes
  | s :: t :: u :: v :: rest =>
      (unpack rest).map fun bytes => UInt8.ofNat (s * 4 + t / 16) ::
        UInt8.ofNat (t % 16 * 16 + u / 4) :: UInt8.ofNat (u % 4 * 64 + v) :: bytes
  | [s, t, u] => some [UInt8.ofNat (s * 4 + t / 16), UInt8.ofNat (t % 16 * 16 + u / 4)]
  | [s, t] => some [UInt8.ofNat (s * 4 + t / 16)]
  | [_] => none
  | [] => some []

theorem byte_of (b : UInt8) {n : Nat} (same : n = b.toNat) : UInt8.ofNat n = b := by
  rw [same, UInt8.ofNat_toNat]

theorem unpack_pack (bytes : Bytes) : unpack (pack bytes) = some bytes := by
  induction bytes using pack.induct with
  | case1 a b c rest ih =>
    have first := b.toNat_lt
    have second := c.toNat_lt
    rw [pack, unpack, ih, Option.map_some, byte_of a (by omega), byte_of b (by omega),
      byte_of c (by omega)]
  | case2 a b =>
    have bound := b.toNat_lt
    rw [pack, unpack, byte_of a (by omega), byte_of b (by omega)]
  | case3 a => rw [pack, unpack, byte_of a (by omega)]
  | case4 => rfl

theorem pack_bound (bytes : Bytes) : ∀ s ∈ pack bytes, s < 64 := by
  induction bytes using pack.induct with
  | case1 a b c rest ih =>
    have first := a.toNat_lt
    have second := b.toNat_lt
    have third := c.toNat_lt
    simp only [pack, List.mem_cons]
    rintro s (rfl | rfl | rfl | rfl | mem)
    · omega
    · omega
    · omega
    · omega
    · exact ih s mem
  | case2 a b =>
    have first := a.toNat_lt
    have second := b.toNat_lt
    simp only [pack, List.mem_cons, List.not_mem_nil, or_false]
    omega
  | case3 a =>
    have first := a.toNat_lt
    simp only [pack, List.mem_cons, List.not_mem_nil, or_false]
    omega
  | case4 => simp [pack]

def plainSymbol (n : Nat) : Char :=
  if n < 26 then Char.ofNat (65 + n)
  else if n < 52 then Char.ofNat (97 + (n - 26))
  else Char.ofNat (48 + (n - 52))

def plainIndex (c : Char) : Option Nat :=
  let n := c.toNat
  if 65 ≤ n ∧ n ≤ 90 then some (n - 65)
  else if 97 ≤ n ∧ n ≤ 122 then some (n - 97 + 26)
  else if 48 ≤ n ∧ n ≤ 57 then some (n - 48 + 52)
  else none

theorem plain_index_symbol : ∀ n < 62, plainIndex (plainSymbol n) = some n := by decide

theorem plain_symbol_index {c : Char} {n : Nat} (found : plainIndex c = some n) :
    n < 62 ∧ plainSymbol n = c := by
  simp only [plainIndex] at found
  split at found
  · cases found
    have same : 65 + (c.toNat - 65) = c.toNat := by omega
    rw [plainSymbol, if_pos (by omega), same, Char.ofNat_toNat]
    exact ⟨by omega, rfl⟩
  · split at found
    · cases found
      have same : 97 + (c.toNat - 97 + 26 - 26) = c.toNat := by omega
      rw [plainSymbol, if_neg (by omega), if_pos (by omega), same, Char.ofNat_toNat]
      exact ⟨by omega, rfl⟩
    · split at found
      · cases found
        have same : 48 + (c.toNat - 48 + 52 - 52) = c.toNat := by omega
        rw [plainSymbol, if_neg (by omega), if_neg (by omega), same, Char.ofNat_toNat]
        exact ⟨by omega, rfl⟩
      · cases found

structure Alphabet where
  symbol62 : Char
  symbol63 : Char
  apart : symbol62 ≠ symbol63
  not_plain : plainIndex symbol62 = none ∧ plainIndex symbol63 = none

def standard : Alphabet := ⟨'+', '/', by decide, by decide⟩
def urlSafe : Alphabet := ⟨'-', '_', by decide, by decide⟩

variable (α : Alphabet)

def Alphabet.symbol (n : Nat) : Char :=
  if n = 62 then α.symbol62 else if n = 63 then α.symbol63 else plainSymbol n

def Alphabet.index (c : Char) : Option Nat :=
  if c = α.symbol62 then some 62 else if c = α.symbol63 then some 63 else plainIndex c

theorem index_symbol {n : Nat} (bound : n < 64) : α.index (α.symbol n) = some n := by
  obtain ⟨c62, c63, apart, first, second⟩ := α
  unfold Alphabet.index Alphabet.symbol
  by_cases is62 : n = 62
  · simp [is62]
  · by_cases is63 : n = 63
    · simp [is63, Ne.symm apart]
    · have plain := plain_index_symbol n (by omega)
      have not62 : plainSymbol n ≠ c62 := by
        intro same
        rw [same, first] at plain
        cases plain
      have not63 : plainSymbol n ≠ c63 := by
        intro same
        rw [same, second] at plain
        cases plain
      simp only [is62, is63, not62, not63, ↓reduceIte, plain]

theorem symbol_index {c : Char} {n : Nat} (found : α.index c = some n) :
    n < 64 ∧ α.symbol n = c := by
  unfold Alphabet.index at found
  unfold Alphabet.symbol
  split at found
  · rename_i same
    cases found
    exact ⟨by decide, by simp [same]⟩
  · split at found
    · rename_i same
      cases found
      exact ⟨by decide, by simp [same]⟩
    · obtain ⟨small, plain⟩ := plain_symbol_index found
      rw [if_neg (by omega), if_neg (by omega)]
      exact ⟨by omega, plain⟩

def indices : List Char → Option (List Nat)
  | [] => some []
  | c :: cs => (α.index c).bind fun n => (indices cs).map fun ns => n :: ns

theorem indices_map {ns : List Nat} (bound : ∀ n ∈ ns, n < 64) :
    indices α (ns.map α.symbol) = some ns := by
  induction ns with
  | nil => rfl
  | cons n ns ih =>
    have later := ih fun m mem => bound m (List.mem_cons_of_mem n mem)
    simp [indices, index_symbol α (bound n (by simp)), later]

theorem map_indices {cs : List Char} {ns : List Nat} (found : indices α cs = some ns) :
    cs = ns.map α.symbol := by
  induction cs generalizing ns with
  | nil =>
    cases found
    rfl
  | cons c cs ih =>
    obtain ⟨n, first, rest⟩ := Option.bind_eq_some_iff.mp found
    obtain ⟨ms, later, same⟩ := Option.map_eq_some_iff.mp rest
    subst same
    rw [List.map_cons, (symbol_index α first).2, ← ih later]

def encode (bytes : Bytes) : List Char := (pack bytes).map α.symbol

def decode (cs : List Char) : Option Bytes :=
  (indices α cs).bind fun ns =>
    (unpack ns).bind fun bytes => if pack bytes = ns then some bytes else none

theorem decode_encode (bytes : Bytes) : decode α (encode α bytes) = some bytes := by
  simp [decode, encode, indices_map α (pack_bound bytes), unpack_pack]

theorem decode_some {cs : List Char} {bytes : Bytes} (accepted : decode α cs = some bytes) :
    indices α cs = some (pack bytes) := by
  obtain ⟨ns, indexed, rest⟩ := Option.bind_eq_some_iff.mp accepted
  obtain ⟨found, _, same⟩ := Option.bind_eq_some_iff.mp rest
  split at same
  · rename_i packed
    cases same
    rw [indexed, packed]
  · cases same

theorem decode_iff {cs : List Char} {bytes : Bytes} :
    decode α cs = some bytes ↔ cs = encode α bytes := by
  constructor
  · intro accepted
    exact map_indices α (decode_some α accepted)
  · rintro rfl
    exact decode_encode α bytes

end Base64
