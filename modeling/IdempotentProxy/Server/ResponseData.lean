import Mathlib.Data.List.Infix

/-!
The response the Rust server caches and replays, `ResponseData` of `cache/mod.rs`,
and how it is built from the upstream's answer. The JSON and CBOR libraries are
parameters; `serde_json`'s map is the sorted one it has without `preserve_order`.
-/
namespace CachedResponse

abbrev Bytes := List UInt8

structure ResponseData where
  status : Nat
  headers : List (String × String)
  body : Bytes
  mime : String
  deriving DecidableEq

structure Libraries where
  Json : Type
  parseJson : Bytes → Except String Json
  jsonField : Json → String → Option Json
  printJson : List (String × Json) → Except String Bytes
  Cbor : Type
  parseCbor : Bytes → Except String Cbor
  cborMap : Cbor → Option (List (Cbor × Cbor))
  cborText : Cbor → Option String
  printCborMap : List (Cbor × Cbor) → Except String Bytes
  toBytes : ResponseData → Except String Bytes
  tryFrom : Bytes → Except String ResponseData
  /-- A serialised struct has at least a map header and the name of a field. -/
  to_bytes_long : ∀ rd data, toBytes rd = .ok data → 1 < data.length
  fromUtf8Lossy : Bytes → String

def ResponseData.new (status : Nat) : ResponseData := ⟨status, [], [], "text/plain"⟩

/-- The characters `str::trim` takes off, Unicode's White_Space. -/
def isWhitespace (c : Char) : Bool :=
  let n := c.toNat
  (9 ≤ n && n ≤ 13) || n = 32 || n = 0x85 || n = 0xA0 || n = 0x1680 ||
    (0x2000 ≤ n && n ≤ 0x200A) || n = 0x2028 || n = 0x2029 || n = 0x202F || n = 0x205F ||
    n = 0x3000

def trim (s : List Char) : List Char :=
  ((s.dropWhile isWhitespace).reverse.dropWhile isWhitespace).reverse

def splitFiltering (filtering : String) : List String :=
  (filtering.toList.splitOn ',').filterMap fun s =>
    let s := trim s
    if s.isEmpty then none else some (String.ofList s)

def toAsciiLowercase (s : String) : String := String.ofList (s.toList.map Char.toLower)

def contains (s part : String) : Bool := decide (part.toList <:+: s.toList)

/-- One header of the upstream's answer; its value is `none` where `to_str` fails. -/
def addHeader (filtering : List String) (rd : ResponseData) :
    String × Option String → ResponseData
  | (_, none) => rd
  | (k, some v) =>
      if k = "content-type" then { rd with mime := v }
      else if k = "content-length" ∨ k = "transfer-encoding" then rd
      else if filtering.isEmpty ∨ k ∈ filtering then { rd with headers := rd.headers ++ [(k, v)] }
      else rd

def ResponseData.withHeaders (rd : ResponseData) (headers : List (String × Option String))
    (filtering : String) : ResponseData :=
  headers.foldl (addHeader (splitFiltering (toAsciiLowercase filtering))) rd

def insertField {α : Type} (k : String) (v : α) : List (String × α) → List (String × α)
  | [] => [(k, v)]
  | (k', v') :: rest =>
      if k < k' then (k, v) :: (k', v') :: rest
      else if k = k' then (k, v) :: rest
      else (k', v') :: insertField k v rest

section Masking
variable (libs : Libraries)

def maskJson (filtering : List String) (body : Bytes) : Except String Bytes := do
  let obj ← libs.parseJson body
  libs.printJson (filtering.foldl (fun fields k =>
    match libs.jsonField obj k with
    | some v => insertField k v fields
    | none => fields) [])

def maskCbor (filtering : List String) (body : Bytes) : Except String Bytes := do
  let value ← libs.parseCbor body
  let listed (e : libs.Cbor × libs.Cbor) : Bool :=
    match libs.cborText e.1 with
    | some t => filtering.contains t
    | none => false
  libs.printCborMap (((libs.cborMap value).getD []).filter listed)

def ResponseData.withBody (rd : ResponseData) (body : Bytes) (filtering : String) :
    Except String ResponseData :=
  let filtering := splitFiltering filtering
  if rd.status ≥ 300 ∨ filtering.isEmpty then .ok { rd with body := rd.body ++ body }
  else if contains rd.mime "application/json" then do
    let masked ← maskJson libs filtering body
    return { rd with body := masked }
  else if contains rd.mime "application/cbor" then do
    let masked ← maskCbor libs filtering body
    return { rd with body := masked }
  else .ok { rd with body := rd.body ++ body }

end Masking
end CachedResponse
