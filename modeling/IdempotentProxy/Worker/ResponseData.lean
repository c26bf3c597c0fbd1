import Mathlib.Data.List.Infix
import IdempotentProxy.Foundations.Results
import IdempotentProxy.Types.FetchHeaders
import IdempotentProxy.Server.StoredForm
import IdempotentProxy.Worker.Cacher

/-!
The worker's `ResponseData` of `util.ts`, from the upstream's answer to the responses
given at first and on replay. JSON, CBOR and the objects they make are parameters.
-/
namespace WorkerResponse
open FetchHeaders Results

abbrev Bytes := List UInt8

structure ResponseData where
  status : Nat
  headers : List Entry
  body : Option Bytes
  mime : String
  deriving DecidableEq

structure Libraries where
  Value : Type
  Object : Type
  /-- `JSON.parse(new TextDecoder().decode(body))` -/
  parseJson : Bytes → Except String Value
  /-- `new TextEncoder().encode(JSON.stringify(obj))` -/
  stringify : Object → Bytes
  decodeCbor : Bytes → Except String Value
  encodeCbor : Object → Except String Bytes
  /-- The property if `Object.hasOwn`, which fails on null. -/
  ownProperty : Value → String → Except String (Option Value)
  emptyObject : Object
  /-- `obj[key] = value` -/
  assign : Object → String → Value → Object
  encode : ResponseData → Bytes
  decode : Bytes → Except String ResponseData

def construct (status : Nat) : ResponseData := ⟨status, [], none, "text/plain"⟩

def isWhitespace (c : Char) : Bool :=
  let n := c.toNat
  (9 ≤ n && n ≤ 13) || n = 32 || n = 0xA0 || n = 0x1680 || (0x2000 ≤ n && n ≤ 0x200A) ||
    n = 0x2028 || n = 0x2029 || n = 0x202F || n = 0x205F || n = 0x3000 || n = 0xFEFF

def trim (s : List Char) : List Char :=
  ((s.dropWhile isWhitespace).reverse.dropWhile isWhitespace).reverse

def listed (filtering : String) : List String :=
  ((filtering.toList.splitOn ',').map fun v => String.ofList (trim v)).filter fun v => !v.isEmpty

/-- `toLocaleLowerCase` on the characters a header value has. -/
def toLocaleLowerCase (s : String) : String :=
  String.ofList (s.toList.map fun c =>
    if 0xC0 ≤ c.toNat ∧ c.toNat ≤ 0xDE ∧ c.toNat ≠ 0xD7 then Char.ofNat (c.toNat + 32)
    else c.toLower)

def includes (s part : String) : Bool := decide (part.toList <:+: s.toList)

def keeps (fi : List String) (h : Entry) : Bool :=
  h.1 ≠ "content-length" && h.1 ≠ "transfer-encoding" && (fi.isEmpty || fi.contains h.1)

def addHeader (fi : List String) (rd : ResponseData) (h : Entry) : ResponseData :=
  if h.1 = "content-type" then { rd with mime := h.2 }
  else if keeps fi h then { rd with headers := rd.headers ++ [h] }
  else rd

def ResponseData.setHeaders (rd : ResponseData) (headers : Headers) (filtering : String) :
    ResponseData :=
  (iterate headers.list).foldl (addHeader (listed (toLocaleLowerCase filtering))) rd

section Bodies
variable (libs : Libraries)

def pick (obj : libs.Value) (fi : List String) : Except String libs.Object :=
  fi.foldlM (fun newObj key => do
    match ← libs.ownProperty obj key with
    | some v => return libs.assign newObj key v
    | none => return newObj) libs.emptyObject

def ResponseData.setBody (rd : ResponseData) (body : Bytes) (filtering : String) :
    Except String ResponseData :=
  let fi := listed filtering
  if ¬ fi.isEmpty ∧ rd.status < 300 ∧ includes rd.mime "application/json" then do
    let obj ← libs.parseJson body
    let newObj ← pick libs obj fi
    return { rd with body := some (libs.stringify newObj) }
  else if ¬ fi.isEmpty ∧ rd.status < 300 ∧ includes rd.mime "application/cbor" then do
    let obj ← libs.decodeCbor body
    let newObj ← pick libs obj fi
    let encoded ← libs.encodeCbor newObj
    return { rd with body := some encoded }
  else .ok { rd with body := some body }

def ResponseData.toBytes (rd : ResponseData) : Bytes := libs.encode rd

def fromBytes (data : Bytes) : Except String ResponseData := do
  let obj ← libs.decode data
  return { construct obj.status with headers := obj.headers, body := obj.body, mime := obj.mime }

end Bodies

structure Response where
  status : Nat
  headers : Headers
  body : Option Bytes

def ResponseData.toResponse (rd : ResponseData) : Except String Response := do
  let headers ← fill rd.headers
  let headers ← headers.set "content-type" rd.mime
  return ⟨200, headers, rd.body⟩

def answer (libs : Libraries) (status : Nat) (upstream : Headers) (body : Bytes)
    (responseHeaders jsonMask : String) : Except String ResponseData := do
  let headers ← fill (iterate upstream.list)
  ((construct status).setHeaders headers responseHeaders).setBody libs body jsonMask

/-- Status, content type, headers and body as the upstream's answer asks for. -/
def Reports (status : Nat) (upstream : Headers) (rd : ResponseData) (res : Except String Response) :
    Prop :=
  ∃ r, res = .ok r ∧ r.status = status ∧
    r.headers.get "content-type" = some ((upstream.get "content-type").getD "text/plain") ∧
    (iterate r.headers.list).filter (fun h => h.1 ≠ "content-type") = rd.headers ∧
    r.body = rd.body

section Kept
variable {libs : Libraries} {rd : ResponseData}

theorem fold_headers (fi : List String) (rd : ResponseData) (list : List Entry) :
    list.foldl (addHeader fi) rd =
      { rd with
        headers := rd.headers ++ list.filter fun h => h.1 ≠ "content-type" && keeps fi h
        mime := (valuesOf "content-type" list).foldl (fun _ v => v) rd.mime } := by
  induction list generalizing rd with
  | nil => simp [valuesOf]
  | cons h rest ih =>
    rw [List.foldl_cons, ih]
    by_cases typed : h.1 = "content-type"
    · simp [addHeader, typed, valuesOf]
    · by_cases kept : keeps fi h = true
      · simp [addHeader, typed, kept, valuesOf]
      · simp [addHeader, typed, kept, valuesOf]

theorem set_body_keeps {body : Bytes} {filtering : String} {done : ResponseData}
    (built : rd.setBody libs body filtering = .ok done) :
    done.headers = rd.headers ∧ done.mime = rd.mime := by
  unfold ResponseData.setBody at built
  dsimp only at built
  split at built
  · obtain ⟨obj, _, rest⟩ := bind_ok_iff.mp built
    obtain ⟨newObj, _, same⟩ := bind_ok_iff.mp rest
    cases same
    exact ⟨rfl, rfl⟩
  · split at built
    · obtain ⟨obj, _, rest⟩ := bind_ok_iff.mp built
      obtain ⟨newObj, _, rest⟩ := bind_ok_iff.mp rest
      obtain ⟨encoded, _, same⟩ := bind_ok_iff.mp rest
      cases same
      exact ⟨rfl, rfl⟩
    · cases built
      exact ⟨rfl, rfl⟩

theorem copy_spec (upstream : Headers) :
    ∃ copy, fill (iterate upstream.list) = .ok copy ∧ iterate copy.list = copy.list ∧
      valuesOf "content-type" copy.list =
        ((upstream.get "content-type").map normalizeValue).toList := by
  obtain ⟨copy, filled, list⟩ := fill_ok (valid_iterate upstream.valid)
  refine ⟨copy, filled, ?_, ?_⟩
  · apply iterate_again
    rw [list]
    exact List.pairwise_map.mpr (iterate_canonical upstream.list)
  · have lowered : lower "content-type" = "content-type" := by decide
    have joined := values_iterate (by decide : "content-type" ≠ "set-cookie") upstream.list
    have trimmed (entries : List Entry) :
        valuesOf "content-type" (entries.map fun h => (h.1, normalizeValue h.2)) =
          (valuesOf "content-type" entries).map normalizeValue := by
      unfold valuesOf
      rw [List.filter_map, List.map_map, List.map_map]
      rfl
    rw [list, trimmed, joined, Headers.get, lowered]
    cases join (valuesOf "content-type" upstream.list) <;> rfl

structure Sendable (rd : ResponseData) : Prop where
  valid : ∀ h ∈ rd.headers, Valid h ∧ normalizeValue h.2 = h.2
  sorted : Canonical rd.headers
  untyped : ∀ h ∈ rd.headers, h.1 ≠ "content-type"
  mime : Valid ("content-type", rd.mime) ∧ normalizeValue rd.mime = rd.mime

theorem answer_sendable {status : Nat} {upstream : Headers} {body : Bytes}
    {responseHeaders jsonMask : String}
    (built : answer libs status upstream body responseHeaders jsonMask = .ok rd) :
    Sendable rd ∧
      rd.mime = ((upstream.get "content-type").map normalizeValue).getD "text/plain" := by
  obtain ⟨copy, filled, again, typed⟩ := copy_spec upstream
  obtain ⟨copy', filled', masked⟩ := bind_ok_iff.mp built
  cases filled.symm.trans filled'
  obtain ⟨headers, mime⟩ := set_body_keeps masked
  rw [ResponseData.setHeaders, again, fold_headers] at headers mime
  rw [typed] at mime
  have kept : ∀ h ∈ rd.headers, h ∈ copy.list ∧ h.1 ≠ "content-type" := by
    intro h mem
    rw [headers] at mem
    obtain ⟨inside, keep⟩ := List.mem_filter.mp mem
    rw [Bool.and_eq_true] at keep
    exact ⟨inside, of_decide_eq_true keep.1⟩
  have named : rd.mime = ((upstream.get "content-type").map normalizeValue).getD "text/plain" := by
    rw [mime]
    cases upstream.get "content-type" <;> rfl
  refine ⟨⟨fun h mem => ⟨copy.valid h (kept h mem).1, copy.trimmed h (kept h mem).1⟩, ?_,
    fun h mem => (kept h mem).2, ?_⟩, named⟩
  · have canonical : Canonical copy.list := again ▸ iterate_canonical copy.list
    rw [headers]
    exact canonical_sublist canonical List.filter_sublist
  · rw [named]
    cases found : upstream.get "content-type" with
    | none => exact ⟨⟨by decide, by decide, by decide⟩, by decide⟩
    | some v =>
      rw [found] at typed
      have there : normalizeValue v ∈ valuesOf "content-type" copy.list := by
        rw [typed]
        exact List.mem_singleton_self _
      obtain ⟨h, mem, value⟩ := List.mem_map.mp there
      obtain ⟨inside, name⟩ := List.mem_filter.mp mem
      have same : h = ("content-type", normalizeValue v) := Prod.ext (of_decide_eq_true name) value
      rw [same] at inside
      have trimmed := copy.trimmed _ inside
      rw [Option.map_some, Option.getD_some]
      exact ⟨copy.valid _ inside, trimmed⟩

/-- The response is the data's own, but for the status. -/
theorem to_response_spec (sendable : Sendable rd) :
    ∃ r, rd.toResponse = .ok r ∧ r.status = 200 ∧
      r.headers.get "content-type" = some rd.mime ∧
      (iterate r.headers.list).filter (fun h => h.1 ≠ "content-type") = rd.headers ∧
      r.body = rd.body := by
  obtain ⟨first, filled, list⟩ := fill_ok fun h mem => (sendable.valid h mem).1
  obtain ⟨last, typed, entries⟩ := set_ok first sendable.mime.1
  have kept : rd.headers.map (fun h => (h.1, normalizeValue h.2)) = rd.headers := by
    conv_rhs => rw [← List.map_id rd.headers]
    exact List.map_congr_left fun h mem => Prod.ext rfl (sendable.valid h mem).2
  rw [list, kept, sendable.mime.2, set_entry_fresh sendable.untyped] at entries
  refine ⟨⟨200, last, rd.body⟩, ?_, rfl, ?_, ?_, rfl⟩
  · simp only [ResponseData.toResponse, filled, typed, bind, Except.bind, pure, Except.pure]
  · have lowered : lower "content-type" = "content-type" := by decide
    have none_kept : valuesOf "content-type" rd.headers = [] :=
      values_none_iff.mpr sendable.untyped
    have values : valuesOf "content-type" (rd.headers ++ [("content-type", rd.mime)]) =
        valuesOf "content-type" rd.headers ++ [rd.mime] := by simp [valuesOf]
    rw [Headers.get, lowered, entries, values, none_kept]
    rfl
  · dsimp only
    rw [entries, iterate_append, iterate_again sendable.sorted]
    exact insert_filter sendable.untyped

end Kept

/-- The worker's two responses report the upstream's exactly if that has status 200 and
    a content type without white space at its ends. -/
theorem reports_upstream_iff {libs : Libraries} {status : Nat} {upstream : Headers} {body : Bytes}
    {responseHeaders jsonMask : String} {rd : ResponseData}
    (reads_back : libs.decode (libs.encode rd) = .ok rd)
    (built : answer libs status upstream body responseHeaders jsonMask = .ok rd)
    (object : WorkerCacher.Cacher) (now : Nat) :
    (Reports status upstream rd rd.toResponse ∧
        ∃ data replayed, WorkerCacher.get (WorkerCacher.set object (rd.toBytes libs) now) =
            .ok (some data) ∧
          fromBytes libs data = .ok replayed ∧ Reports status upstream rd replayed.toResponse) ↔
      status = 200 ∧ ∀ v, upstream.get "content-type" = some v → normalizeValue v = v := by
  obtain ⟨sendable, named⟩ := answer_sendable built
  obtain ⟨r, sent, code, typed, kept, same_body⟩ := to_response_spec sendable
  have reports : Reports status upstream rd rd.toResponse ↔
      status = 200 ∧ ∀ v, upstream.get "content-type" = some v → normalizeValue v = v := by
    have mime : rd.mime = (upstream.get "content-type").getD "text/plain" ↔
        ∀ v, upstream.get "content-type" = some v → normalizeValue v = v := by
      rw [named]
      cases upstream.get "content-type" <;> simp
    constructor
    · rintro ⟨r', sent', code', typed', _⟩
      cases sent.symm.trans sent'
      exact ⟨code'.symm.trans code, mime.mp (Option.some.inj (typed.symm.trans typed'))⟩
    · rintro ⟨rfl, trimmed⟩
      exact ⟨r, sent, code, typed.trans (congrArg some (mime.mpr trimmed)), kept, same_body⟩
  have stored : WorkerCacher.get (WorkerCacher.set object (rd.toBytes libs) now) =
      .ok (some (libs.encode rd)) := rfl
  have read : fromBytes libs (libs.encode rd) = .ok rd := by
    rw [fromBytes, reads_back]
    rfl
  constructor
  · exact fun both => reports.mp both.1
  · intro holds
    exact ⟨reports.mpr holds, _, rd, stored, read, reports.mpr holds⟩

section Sample
open Cbor hiding Bytes
open StoredForm (writeHeader readHeader)

def write (rd : ResponseData) (body : Bytes) : Bytes :=
  mapHead 4 ++ (text "body" ++ (bytes body ++ (text "mime" ++ (text rd.mime ++ (text "status" ++
    (uint rd.status ++ (text "headers" ++ array writeHeader rd.headers)))))))

def read (input : Bytes) : Option ResponseData := do
  let (n, input) ← readKind 5 input
  guard (n = 4)
  let input ← readName "body" input
  let (body, input) ← readBytes input
  let input ← readName "mime" input
  let (mime, input) ← readText input
  let input ← readName "status" input
  let (status, input) ← readUint input
  let input ← readName "headers" input
  let (headers, _) ← readArray readHeader input
  return ⟨status, headers, some body, mime⟩

def sampleLibraries : Libraries where
  Value := Empty
  Object := Unit
  parseJson := fun _ => .error "not called"
  stringify := fun _ => []
  decodeCbor := fun _ => .error "not called"
  encodeCbor := fun _ => .error "not called"
  ownProperty := fun _ _ => .ok none
  emptyObject := ()
  assign := fun o _ _ => o
  encode := fun rd => match rd.body with
    | some body => write rd body
    | none => []
  decode := fun data => match read data with
    | some rd => .ok rd
    | none => .error "decode error"

theorem read_write {rd : ResponseData} {body : Bytes} (stored : rd.body = some body)
    (fits : StoredForm.Fits ⟨rd.status, rd.headers, body, rd.mime⟩) :
    sampleLibraries.decode (sampleLibraries.encode rd) = .ok rd := by
  obtain ⟨status, count, headers, length, mime⟩ := fits
  have narrow : rd.status < 2 ^ 64 := by
    dsimp only at status
    omega
  have each : ∀ h ∈ rd.headers, ∀ rest, readHeader (writeHeader h ++ rest) = some (h, rest) :=
    fun h mem => StoredForm.read_header (headers h mem).1 (headers h mem).2
  have closing : readArray readHeader (array writeHeader rd.headers) = some (rd.headers, []) := by
    simpa using read_array each count []
  have back : read (write rd body) = some ⟨rd.status, rd.headers, some body, rd.mime⟩ := by
    simp only [read, write, mapHead, read_kind (by decide : 5 < 8) (by decide : 4 < 2 ^ 64),
      Option.bind_eq_bind, Option.bind_some, guard_true, Option.pure_def,
      read_name (by decide : (utf8 "body").length < 2 ^ 64),
      read_name (by decide : (utf8 "mime").length < 2 ^ 64),
      read_name (by decide : (utf8 "status").length < 2 ^ 64),
      read_name (by decide : (utf8 "headers").length < 2 ^ 64), read_bytes length, read_text mime,
      read_uint narrow, closing]
  simp only [sampleLibraries, stored, back]
  rw [← stored]

def sampleUpstream : Headers where
  list := [("date", "Wed"), ("content-type", "text/html")]
  valid := by
    have date : Valid ("date", "Wed") := ⟨by decide, by decide, by decide⟩
    have typed : Valid ("content-type", "text/html") := ⟨by decide, by decide, by decide⟩
    simp [date, typed]
  trimmed := by
    have date : normalizeValue "Wed" = "Wed" := by decide
    have typed : normalizeValue "text/html" = "text/html" := by decide
    simp [date, typed]

def sampleAnswer (status : Nat) : ResponseData :=
  ⟨status, [("date", "Wed")], some [104, 105], "text/html"⟩

theorem sample_answer (status : Nat) :
    answer sampleLibraries status sampleUpstream [104, 105] "" "" = .ok (sampleAnswer status) := by
  rfl

theorem sample_reported :
    (Reports 200 sampleUpstream (sampleAnswer 200) (sampleAnswer 200).toResponse ∧
        ∃ data replayed, WorkerCacher.get (WorkerCacher.set ⟨10000, 1, WorkerCacher.Storage.empty⟩
            ((sampleAnswer 200).toBytes sampleLibraries) 5) = .ok (some data) ∧
          fromBytes sampleLibraries data = .ok replayed ∧
          Reports 200 sampleUpstream (sampleAnswer 200) replayed.toResponse) ↔
      200 = 200 ∧ ∀ v, sampleUpstream.get "content-type" = some v → normalizeValue v = v :=
  reports_upstream_iff (read_write rfl (by decide)) (sample_answer 200) _ 5

/-- The upstream's 404 is a 200 for the client. -/
theorem not_found_reported_as_ok :
    answer sampleLibraries 404 sampleUpstream [104, 105] "" "" = .ok (sampleAnswer 404) ∧
      ¬ Reports 404 sampleUpstream (sampleAnswer 404) (sampleAnswer 404).toResponse := by
  refine ⟨sample_answer 404, ?_⟩
  rintro ⟨r, sent, code, _⟩
  obtain ⟨filled, _, rest⟩ := bind_ok_iff.mp sent
  obtain ⟨typed, _, same⟩ := bind_ok_iff.mp rest
  cases same
  cases code

end Sample
end WorkerResponse
