import IdempotentProxy.Foundations.Results
import IdempotentProxy.Types.Headers
import IdempotentProxy.Server.ProxyHandler
import IdempotentProxy.Server.StoredForm

/-!
From the upstream's answer to the reply: `with_headers`, `with_body` and
`into_response`, whose unwraps are `none` where they panic. Header names are tokens of
RFC 9110 in lower case.
-/
namespace IntoResponse
open CachedResponse Results
open HttpHeaders hiding Bytes

def nameFromBytes (src : Bytes) : Option String :=
  let cs := src.map fun b => Char.ofNat b.toNat
  if src ≠ [] ∧ src.length < 2 ^ 16 ∧ cs.all tokenChar then
    some (String.ofList (cs.map Char.toLower))
  else none

def valueFromBytes (src : Bytes) : Option Bytes :=
  if src.all fun b => b == 9 || (32 ≤ b && b != 127) then some src else none

def IsName (name : String) : Prop :=
  name ≠ "" ∧ name.toList.length < 2 ^ 16 ∧
    name.toList.all (fun c => tokenChar c && c.toLower == c) = true

instance (name : String) : Decidable (IsName name) := inferInstanceAs (Decidable (_ ∧ _))

/-- The header map of an upstream's answer, as `iter` lists it. -/
structure UpstreamHeaders where
  entries : HeaderMap
  names : ∀ h ∈ entries, IsName h.1
  grouped : Grouped entries

def readable (hm : HeaderMap) : List (String × Option String) := hm.map fun h => (h.1, toStr h.2)

structure Response where
  status : Nat
  headers : HeaderMap
  body : Bytes
  deriving DecidableEq

/-- `StatusCode::from_u16(status).unwrap_or(StatusCode::OK)` -/
def statusCode (status : Nat) : Nat := if 100 ≤ status ∧ status < 1000 then status else 200

def appendAll : HeaderMap → List (String × String) → Option HeaderMap
  | hm, [] => some hm
  | hm, (k, v) :: rest =>
      (nameFromBytes (utf8 k)).bind fun name => (valueFromBytes (utf8 v)).bind fun value =>
        appendAll (append name value hm) rest

def intoResponse (rd : ResponseData) : Option Response := do
  let headers ← appendAll [] rd.headers
  let mime ← valueFromBytes (utf8 rd.mime)
  let headers := HttpHeaders.insert "content-type" mime headers
  let headers := HttpHeaders.insert "content-length" (utf8 (toString rd.body.length)) headers
  return ⟨statusCode rd.status, headers, rd.body⟩

def ownHeaders : List String := ["content-type", "content-length", "transfer-encoding"]

/-- Readable, none of the server's own, and listed if anything is. -/
def kept (filtering : String) (h : String × Bytes) : Bool :=
  (toStr h.2).isSome && !ownHeaders.contains h.1 &&
    ((splitFiltering filtering).isEmpty ||
      ((splitFiltering filtering).map toAsciiLowercase).contains h.1)

def text (value : Bytes) : String := (toStr value).getD ""

section Filtering

theorem to_lower_comma (c : Char) : (c.toLower == ',') = (c == ',') := by
  rcases to_lower_cases c with same | ⟨low, high, moved⟩
  · rw [same]
  · have upper : c ≠ ',' := by
      rintro rfl
      exact absurd low (by decide)
    have lower : c.toLower ≠ ',' := by
      intro comma
      rw [comma] at moved
      have code : (',' : Char).toNat = 44 := by decide
      omega
    rw [beq_false_of_ne upper, beq_false_of_ne lower]

theorem to_lower_whitespace (c : Char) : isWhitespace c.toLower = isWhitespace c := by
  rcases to_lower_cases c with same | ⟨low, high, moved⟩
  · rw [same]
  · have upper : isWhitespace c = false := by
      simp only [isWhitespace, Bool.or_eq_false_iff, Bool.and_eq_false_iff, decide_eq_false_iff_not]
      omega
    have lower : isWhitespace c.toLower = false := by
      simp only [isWhitespace, Bool.or_eq_false_iff, Bool.and_eq_false_iff, decide_eq_false_iff_not]
      omega
    rw [upper, lower]

theorem split_lower (cs : List Char) :
    (cs.map Char.toLower).splitOn ',' = (cs.splitOn ',').map (List.map Char.toLower) := by
  induction cs with
  | nil => rfl
  | cons c cs ih =>
    rw [List.map_cons, List.splitOn_cons_eq_if_modifyHead, List.splitOn_cons_eq_if_modifyHead,
      to_lower_comma, ih]
    split
    · rfl
    · cases cs.splitOn ',' with
      | nil => rfl
      | cons part parts => rfl

theorem trim_lower (cs : List Char) : trim (cs.map Char.toLower) = (trim cs).map Char.toLower := by
  have same : isWhitespace ∘ Char.toLower = isWhitespace := funext to_lower_whitespace
  unfold trim
  rw [List.dropWhile_map, same, ← List.map_reverse, List.dropWhile_map, same, List.map_reverse]

theorem split_filtering_lower (filtering : String) :
    splitFiltering (toAsciiLowercase filtering) =
      (splitFiltering filtering).map toAsciiLowercase := by
  unfold splitFiltering toAsciiLowercase
  rw [String.toList_ofList, split_lower, List.filterMap_map, List.map_filterMap]
  refine List.filterMap_congr fun part _ => ?_
  simp only [Function.comp_apply, trim_lower, List.isEmpty_map]
  split
  · rfl
  · rw [Option.map_some, String.toList_ofList]

end Filtering

section Headers
variable {rd : ResponseData} {filtering : String}

theorem add_header (rd : ResponseData) (filtering : String) (h : String × Bytes) :
    addHeader ((splitFiltering filtering).map toAsciiLowercase) rd (h.1, toStr h.2) =
      { rd with
        headers := rd.headers ++ if kept filtering h then [(h.1, text h.2)] else []
        mime := if h.1 = "content-type" then (toStr h.2).getD rd.mime else rd.mime } := by
  unfold kept text
  cases read : toStr h.2 with
  | none => simp [addHeader]
  | some v =>
    by_cases typed : h.1 = "content-type"
    · simp [addHeader, typed, ownHeaders]
    · by_cases own : h.1 = "content-length" ∨ h.1 = "transfer-encoding"
      · have mine : ownHeaders.contains h.1 = true := by
          rcases own with same | same <;> simp [ownHeaders, same]
        simp only [addHeader, if_neg typed, if_pos own, mine]
        simp
      · have other : ownHeaders.contains h.1 = false := by
          simpa [ownHeaders, typed] using own
        simp only [addHeader, if_neg typed, if_neg own, other]
        have empty_iff : ((splitFiltering filtering).map toAsciiLowercase).isEmpty =
            (splitFiltering filtering).isEmpty := List.isEmpty_map
        by_cases listed : (splitFiltering filtering).isEmpty ∨
            h.1 ∈ (splitFiltering filtering).map toAsciiLowercase
        · have flag : ((splitFiltering filtering).isEmpty ||
              ((splitFiltering filtering).map toAsciiLowercase).contains h.1) = true := by
            simpa using listed
          rw [empty_iff, if_pos listed, flag]
          rfl
        · have flag : ((splitFiltering filtering).isEmpty ||
              ((splitFiltering filtering).map toAsciiLowercase).contains h.1) = false := by
            simpa using listed
          rw [empty_iff, if_neg listed, flag]
          simp

theorem fold_headers (hm : HeaderMap) (rd : ResponseData) (filtering : String) :
    ∃ mime, (rd.withHeaders (readable hm) filtering) =
        { rd with
          headers := rd.headers ++ (hm.filter (kept filtering)).map fun h => (h.1, text h.2)
          mime := mime } ∧
      (mime = rd.mime ∨ ∃ value, toStr value = some mime) := by
  unfold ResponseData.withHeaders readable
  rw [split_filtering_lower]
  induction hm generalizing rd with
  | nil => exact ⟨rd.mime, by simp, Or.inl rfl⟩
  | cons h hm ih =>
    rw [List.map_cons, List.foldl_cons, add_header]
    obtain ⟨mime, folded, source⟩ := ih _
    refine ⟨mime, ?_, ?_⟩
    · rw [folded, List.filter_cons]
      by_cases keeps : kept filtering h = true <;> simp [keeps]
    · rcases source with earlier | later
      · dsimp only at earlier
        split at earlier
        · cases read : toStr h.2 with
          | none =>
            rw [read] at earlier
            exact Or.inl earlier
          | some v =>
            rw [read] at earlier
            exact Or.inr ⟨h.2, by rw [read, earlier]; rfl⟩
        · exact Or.inl earlier
      · exact Or.inr later

theorem with_body_keeps {libs : Libraries} {body : Bytes} {masked : ResponseData}
    (built : rd.withBody libs body filtering = .ok masked) :
    masked.status = rd.status ∧ masked.headers = rd.headers ∧ masked.mime = rd.mime := by
  unfold ResponseData.withBody at built
  dsimp only at built
  split at built
  · cases built
    exact ⟨rfl, rfl, rfl⟩
  · split at built
    · obtain ⟨out, _, same⟩ := bind_ok_iff.mp built
      cases same
      exact ⟨rfl, rfl, rfl⟩
    · split at built
      · obtain ⟨out, _, same⟩ := bind_ok_iff.mp built
        cases same
        exact ⟨rfl, rfl, rfl⟩
      · cases built
        exact ⟨rfl, rfl, rfl⟩

end Headers

section Unwraps

theorem name_from_bytes {name : String} (valid : IsName name) :
    nameFromBytes (utf8 name) = some name := by
  obtain ⟨filled, short, all_tokens⟩ := valid
  have tokens : ∀ c ∈ name.toList, tokenChar c = true ∧ c.toLower = c := by
    intro c mem
    simpa using List.all_eq_true.mp all_tokens c mem
  have seen : ∀ c ∈ name.toList, visibleChar c = true :=
    fun c mem => token_visible (tokens c mem).1
  have chars : (utf8 name).map (fun b => Char.ofNat b.toNat) = name.toList := by
    rw [← String.ofList_inj, utf8_chars seen, String.ofList_toList]
  have length : (utf8 name).length = name.toList.length := by
    rw [← chars, List.length_map]
  have nonempty : utf8 name ≠ [] := by
    intro empty
    rw [empty, List.length_nil] at length
    exact filled (String.toList_inj.mp (List.eq_nil_of_length_eq_zero length.symm))
  have all : name.toList.all tokenChar = true :=
    List.all_eq_true.mpr fun c mem => (tokens c mem).1
  have lower : name.toList.map Char.toLower = name.toList := by
    conv_rhs => rw [← List.map_id name.toList]
    exact List.map_congr_left fun c mem => (tokens c mem).2
  unfold nameFromBytes
  dsimp only
  rw [chars, length, if_pos ⟨nonempty, short, all⟩, lower, String.ofList_toList]

theorem value_from_bytes {value : Bytes} (seen : value.all visible = true) :
    valueFromBytes value = some value := by
  unfold valueFromBytes
  refine if_pos (List.all_eq_true.mpr fun b mem => ?_)
  have byte := List.all_eq_true.mp seen b mem
  simp only [visible, Bool.or_eq_true, beq_iff_eq, Bool.and_eq_true, decide_eq_true_eq,
    UInt8.lt_iff_toNat_lt, UInt8.le_iff_toNat_le, bne_iff_ne, ne_eq, ← UInt8.toNat_inj] at byte ⊢
  have codes : (127 : UInt8).toNat = 127 ∧ (32 : UInt8).toNat = 32 := by decide
  omega

theorem text_from_bytes {value : Bytes} {s : String} (read : toStr value = some s) :
    valueFromBytes (utf8 s) = some value := by
  rw [utf8_to_str read]
  apply value_from_bytes
  unfold toStr at read
  split at read
  · assumption
  · cases read

theorem append_all (before after : HeaderMap) (grouped : Grouped (before ++ after))
    (names : ∀ h ∈ after, IsName h.1) (readable : ∀ h ∈ after, (toStr h.2).isSome = true) :
    appendAll before (after.map fun h => (h.1, text h.2)) = some (before ++ after) := by
  induction after generalizing before with
  | nil => rw [List.append_nil]; rfl
  | cons h after ih =>
    obtain ⟨s, read⟩ := Option.isSome_iff_exists.mp (readable h List.mem_cons_self)
    have value : valueFromBytes (utf8 (text h.2)) = some h.2 := by
      rw [text, read]
      exact text_from_bytes read
    have whole : before ++ [(h.1, h.2)] ++ after = before ++ h :: after := by simp
    rw [List.map_cons, appendAll, name_from_bytes (names h List.mem_cons_self), Option.bind_some,
      value, Option.bind_some, append_ends (grouped before h after rfl), ← whole]
    rw [← whole] at grouped
    exact ih _ grouped (fun x mem => names x (List.mem_cons_of_mem h mem))
      fun x mem => readable x (List.mem_cons_of_mem h mem)

end Unwraps

section Reply
variable (libs : Libraries) (upstream : UpstreamHeaders) (status : Nat) (body : Bytes)
  (request : ProxyHandler.Request)

def answer : Except String ResponseData :=
  ((ResponseData.new status).withHeaders (readable upstream.entries)
    request.responseHeaders).withBody libs body request.jsonMask

variable {libs upstream status body request} {rd : ResponseData}

theorem answer_parts (built : answer libs upstream status body request = .ok rd) :
    rd.status = status ∧
      rd.headers = (upstream.entries.filter (kept request.responseHeaders)).map
        (fun h => (h.1, text h.2)) ∧
      valueFromBytes (utf8 rd.mime) = some (utf8 rd.mime) := by
  obtain ⟨mime, folded, source⟩ :=
    fold_headers upstream.entries (ResponseData.new status) request.responseHeaders
  obtain ⟨same_status, same_headers, same_mime⟩ := with_body_keeps built
  rw [folded] at same_status same_headers same_mime
  refine ⟨same_status, ?_, ?_⟩
  · rw [same_headers]
    rfl
  · rw [same_mime]
    rcases source with plain | ⟨value, read⟩
    · have seen : ∀ c ∈ "text/plain".toList, visibleChar c = true :=
        List.all_eq_true.mp (by decide)
      have text_plain : mime = "text/plain" := plain
      dsimp only
      rw [text_plain]
      exact value_from_bytes (utf8_all_visible seen)
    · rw [text_from_bytes read, utf8_to_str read]

/-- The reply carries the kept headers as they came, then its own two. -/
theorem into_response_spec (status_range : 200 ≤ status ∧ status ≤ 500)
    (built : answer libs upstream status body request = .ok rd) :
    intoResponse rd = some ⟨status, upstream.entries.filter (kept request.responseHeaders) ++
      [("content-type", utf8 rd.mime), ("content-length", utf8 (toString rd.body.length))],
      rd.body⟩ := by
  obtain ⟨same_status, headers, mime⟩ := answer_parts built
  have grouped : Grouped ([] ++ upstream.entries.filter (kept request.responseHeaders)) :=
    grouped_filter upstream.grouped _
  have names : ∀ h ∈ upstream.entries.filter (kept request.responseHeaders), IsName h.1 :=
    fun h mem => upstream.names h (List.mem_of_mem_filter mem)
  have flags : ∀ h ∈ upstream.entries.filter (kept request.responseHeaders),
      (toStr h.2).isSome = true ∧ h.1 ∉ ownHeaders := by
    intro h mem
    have keeps := List.of_mem_filter mem
    simp only [kept, Bool.and_eq_true, Bool.not_eq_true', List.contains_eq_mem,
      decide_eq_false_iff_not] at keeps
    exact keeps.1
  have appended := append_all [] _ grouped names fun h mem => (flags h mem).1
  have typed : ∀ h ∈ upstream.entries.filter (kept request.responseHeaders), h.1 ≠ "content-type" :=
    fun h mem own => (flags h mem).2 (by simp [own, ownHeaders])
  have sized : ∀ h ∈ upstream.entries.filter (kept request.responseHeaders) ++
      [("content-type", utf8 rd.mime)], h.1 ≠ "content-length" := by
    intro h mem
    rcases List.mem_append.mp mem with inside | last
    · exact fun own => (flags h inside).2 (by simp [own, ownHeaders])
    · have other : "content-type" ≠ "content-length" := by decide
      rw [List.mem_singleton.mp last]
      exact other
  have code : statusCode rd.status = status := by
    rw [statusCode, same_status, if_pos (by omega)]
  unfold intoResponse
  rw [headers, appended, mime]
  simp only [Option.bind_eq_bind, Option.bind_some, Option.pure_def, List.nil_append,
    insert_fresh typed, insert_fresh sized, code, List.append_assoc, List.singleton_append]

theorem respond_stores {data : Bytes} (status_range : 200 ≤ status ∧ status ≤ 500)
    (built : answer libs upstream status body request = .ok rd)
    (written : libs.toBytes rd = .ok data) :
    ProxyHandler.respond request status (readable upstream.entries) body =
      .storing rd data written := by
  unfold answer at built
  unfold ProxyHandler.respond
  dsimp only
  rw [if_pos status_range]
  split
  · rename_i refused
    rw [built] at refused
    cases refused
  · rename_i same
    rw [built] at same
    cases same
    split
    · rename_i failed
      rw [written] at failed
      cases failed
    · rename_i data' again
      have same_data : data' = data := Except.ok.inj (again.symm.trans written)
      subst same_data
      rfl

/-- What is stored, what a later request replays, and that neither reply panics. -/
theorem replay_equals_reply
    (reads_back : ∀ rd data, libs.toBytes rd = .ok data → libs.tryFrom data = .ok rd)
    (status_range : 200 ≤ status ∧ status ≤ 500)
    (built : answer libs upstream status body request = .ok rd) :
    rd.headers = (upstream.entries.filter (kept request.responseHeaders)).map
        (fun h => (h.1, text h.2)) ∧
      (∀ data (written : libs.toBytes rd = .ok data),
        ProxyHandler.respond request status (readable upstream.entries) body =
            .storing rd data written ∧
          ∃ replayed, ProxyHandler.replay libs data = .ok replayed ∧
            intoResponse replayed = intoResponse rd) ∧
      ∃ reply, intoResponse rd = some reply ∧ reply.status = status ∧ reply.body = rd.body ∧
        reply.headers = upstream.entries.filter (kept request.responseHeaders) ++
          [("content-type", utf8 rd.mime),
            ("content-length", utf8 (toString rd.body.length))] := by
  obtain ⟨_, headers, _⟩ := answer_parts built
  refine ⟨headers, ?_, _, into_response_spec status_range built, rfl, rfl, rfl⟩
  intro data written
  have replayed : ProxyHandler.replay libs data = .ok rd := by
    rw [ProxyHandler.replay, reads_back rd data written]
  exact ⟨respond_stores status_range built written, rd, replayed, rfl⟩

end Reply

section Sample

def sampleUpstream : UpstreamHeaders where
  entries := [("date", utf8 "Wed"), ("set-cookie", utf8 "a=1"), ("set-cookie", [0x80]),
    ("content-type", utf8 "text/html")]
  names := by
    intro h mem
    simp only [List.mem_cons, List.not_mem_nil, or_false] at mem
    rcases mem with rfl | rfl | rfl | rfl
    · exact (by decide : IsName "date")
    · exact (by decide : IsName "set-cookie")
    · exact (by decide : IsName "set-cookie")
    · exact (by decide : IsName "content-type")
  grouped := by
    have date : Grouped ([] ++ [("date", utf8 "Wed")]) :=
      grouped_snoc grouped_nil ⟨[], [], rfl, by simp, by simp⟩
    have cookie : Grouped ([] ++ [("date", utf8 "Wed")] ++ [("set-cookie", utf8 "a=1")]) :=
      grouped_snoc date ⟨_, [], (List.append_nil _).symm, by simp, by simp⟩
    have cookies : Grouped ([] ++ [("date", utf8 "Wed")] ++ [("set-cookie", utf8 "a=1")] ++
        [("set-cookie", [0x80])]) :=
      grouped_snoc cookie ⟨_, [("set-cookie", utf8 "a=1")], rfl, by simp, by simp⟩
    exact grouped_snoc cookies ⟨_, [], (List.append_nil _).symm, by simp, by simp⟩

def sampleRequest : ProxyHandler.Request := ⟨"ANON:GET:k1", true, "", " Set-Cookie ,, etag"⟩

def sampleAnswer : ResponseData := ⟨404, [("set-cookie", "a=1")], [104, 105], "text/html"⟩

theorem sample_replayed :
    sampleAnswer.headers = (sampleUpstream.entries.filter (kept " Set-Cookie ,, etag")).map
        (fun h => (h.1, text h.2)) ∧
      (∀ data (written : StoredForm.libraries.toBytes sampleAnswer = .ok data),
        ProxyHandler.respond sampleRequest 404 (readable sampleUpstream.entries) [104, 105] =
            .storing sampleAnswer data written ∧
          ∃ replayed, ProxyHandler.replay StoredForm.libraries data = .ok replayed ∧
            intoResponse replayed = intoResponse sampleAnswer) ∧
      ∃ reply, intoResponse sampleAnswer = some reply ∧ reply.status = 404 ∧
        reply.body = sampleAnswer.body ∧
        reply.headers = sampleUpstream.entries.filter (kept " Set-Cookie ,, etag") ++
          [("content-type", utf8 sampleAnswer.mime),
            ("content-length", utf8 (toString sampleAnswer.body.length))] := by
  have built : answer StoredForm.libraries sampleUpstream 404 [104, 105] sampleRequest =
      .ok sampleAnswer := by rfl
  have whole := replay_equals_reply (fun rd data => StoredForm.libraries_round_trip)
    (by decide) built
  exact whole

end Sample
end IntoResponse
