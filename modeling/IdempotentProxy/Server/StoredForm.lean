import IdempotentProxy.Foundations.Cbor
import IdempotentProxy.Server.ResponseData

/-!
The CBOR map that the derived `Serialize` of `ResponseData` writes: the fields in
the order of the struct, headers as two-element arrays, the body as a byte string.
The reader takes back that map, the fields in the same order.
-/
namespace StoredForm
open CachedResponse
open Cbor hiding Bytes

abbrev Header := String × String

def writeHeader (h : Header) : Bytes := arrayHead 2 ++ (text h.1 ++ text h.2)

def write (rd : ResponseData) : Bytes :=
  mapHead 4 ++ (text "status" ++ (uint rd.status ++ (text "headers" ++
    (array writeHeader rd.headers ++ (text "body" ++ (bytes rd.body ++
      (text "mime" ++ text rd.mime)))))))

def Fits (rd : ResponseData) : Prop :=
  rd.status < 2 ^ 16 ∧ rd.headers.length < 2 ^ 64 ∧
    (∀ h ∈ rd.headers, (utf8 h.1).length < 2 ^ 64 ∧ (utf8 h.2).length < 2 ^ 64) ∧
    rd.body.length < 2 ^ 64 ∧ (utf8 rd.mime).length < 2 ^ 64

instance (rd : ResponseData) : Decidable (Fits rd) :=
  inferInstanceAs (Decidable (_ ∧ _))

def readHeader (input : Bytes) : Option (Header × Bytes) :=
  (readArrayHead input).bind fun (n, rest) =>
    if n = 2 then
      (readText rest).bind fun (k, rest) => (readText rest).map fun (v, rest) => ((k, v), rest)
    else none

def read (input : Bytes) : Option ResponseData := do
  let (n, input) ← readKind 5 input
  guard (n = 4)
  let input ← readName "status" input
  let (status, input) ← readUint input
  let input ← readName "headers" input
  let (headers, input) ← readArray readHeader input
  let input ← readName "body" input
  let (body, input) ← readBytes input
  let input ← readName "mime" input
  let (mime, _) ← readText input
  return ⟨status, headers, body, mime⟩

theorem read_header {h : Header} (first : (utf8 h.1).length < 2 ^ 64)
    (second : (utf8 h.2).length < 2 ^ 64) (rest : Bytes) :
    readHeader (writeHeader h ++ rest) = some (h, rest) := by
  simp [readHeader, writeHeader, List.append_assoc, read_array_head (by decide : 2 < 2 ^ 64),
    read_text first, read_text second]

theorem read_write {rd : ResponseData} (fits : Fits rd) : read (write rd) = some rd := by
  obtain ⟨status, count, headers, body, mime⟩ := fits
  have narrow : rd.status < 2 ^ 64 := by omega
  have each : ∀ h ∈ rd.headers, ∀ rest, readHeader (writeHeader h ++ rest) = some (h, rest) :=
    fun h mem => read_header (headers h mem).1 (headers h mem).2
  have closing : readText (text rd.mime) = some (rd.mime, []) := by
    simpa using read_text mime []
  simp only [read, write, mapHead, read_kind (by decide : 5 < 8) (by decide : 4 < 2 ^ 64),
    Option.bind_eq_bind, Option.bind_some, guard_true, Option.pure_def,
    read_name (by decide : (utf8 "status").length < 2 ^ 64),
    read_name (by decide : (utf8 "headers").length < 2 ^ 64),
    read_name (by decide : (utf8 "body").length < 2 ^ 64),
    read_name (by decide : (utf8 "mime").length < 2 ^ 64), read_uint narrow,
    read_array each count, read_bytes body, closing]

theorem write_long (rd : ResponseData) : 1 < (write rd).length := by
  have first := head_length 5 4
  have second := head_length 3 (utf8 "status").length
  simp only [write, mapHead, text, List.length_append]
  omega

/-- The libraries with the stored form as it is written; no masking takes place. -/
def libraries : Libraries where
  Json := Empty
  parseJson := fun _ => .error "not called"
  jsonField := fun _ _ => none
  printJson := fun _ => .error "not called"
  Cbor := Empty
  parseCbor := fun _ => .error "not called"
  cborMap := fun _ => none
  cborText := fun _ => none
  printCborMap := fun _ => .error "not called"
  toBytes := fun rd => if Fits rd then .ok (write rd) else .error "out of memory"
  tryFrom := fun data =>
    match read data with
    | some rd => .ok rd
    | none => .error "invalid value"
  to_bytes_long := by
    intro rd data serialised
    split at serialised
    · cases serialised
      exact write_long rd
    · cases serialised
  fromUtf8Lossy := fun _ => ""

theorem libraries_to_bytes {rd : ResponseData} (fits : Fits rd) :
    libraries.toBytes rd = .ok (write rd) := by
  simp [libraries, fits]

theorem libraries_round_trip {rd : ResponseData} {data : Bytes}
    (serialised : libraries.toBytes rd = .ok data) : libraries.tryFrom data = .ok rd := by
  simp only [libraries] at serialised ⊢
  split at serialised
  · rename_i fits
    cases serialised
    rw [read_write fits]
  · cases serialised

example : write ⟨200, [("date", "d")], [1, 2], "text/plain"⟩ =
    [0xa4, 0x66, 0x73, 0x74, 0x61, 0x74, 0x75, 0x73, 0x18, 0xc8, 0x67, 0x68, 0x65, 0x61, 0x64,
      0x65, 0x72, 0x73, 0x81, 0x82, 0x64, 0x64, 0x61, 0x74, 0x65, 0x61, 0x64, 0x64, 0x62, 0x6f,
      0x64, 0x79, 0x42, 0x01, 0x02, 0x64, 0x6d, 0x69, 0x6d, 0x65, 0x6a, 0x74, 0x65, 0x78, 0x74,
      0x2f, 0x70, 0x6c, 0x61, 0x69, 0x6e] := by decide

end StoredForm
