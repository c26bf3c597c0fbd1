import IdempotentProxy.Server.AccessControl

/-!
What the holder of a lease sends upstream: `alter_headers`, the body under its limit and
the request put together from them. The order of the names in a header map says nothing
to an upstream; two messages are the same where every name has the same values in the
same order.
-/
namespace SentUpstream
open AccessControl HttpHeaders Results

structure ServerState (libs : Libraries) extends AppState libs where
  headerVars : List (String × Bytes)

/-- A request with its body, read to its end or to what its stream failed with. -/
structure Incoming extends HttpRequest where
  body : Except String Bytes

structure Outgoing (libs : Libraries) where
  method : String
  url : libs.Url
  headers : HeaderMap
  body : Option Bytes

def removedHeaders : List String :=
  ["host", "forwarded", "proxy-authorization", "x-forwarded-for", "x-forwarded-host",
    "x-forwarded-proto"]

def removeAll (headers : HeaderMap) : HeaderMap :=
  removedHeaders.foldl (fun headers name => remove name headers) headers

def replaceValue (headerVars : List (String × Bytes)) (val : Bytes) : Bytes :=
  match toStr val with
  | none => val
  | some s => (headerVars.lookup s).getD val

def alterHeaders (headerVars : List (String × Bytes)) (headers : HeaderMap) : HeaderMap :=
  if headerVars.isEmpty then removeAll headers
  else mapValues (replaceValue headerVars) (removeAll headers)

def bodyLimit : Nat := 1024 * 1024

def toBytes (body : Except String Bytes) (limit : Nat) : Except String Bytes := do
  let bytes ← body
  if bytes.length ≤ limit then return bytes else throw "length limit exceeded"

variable {libs : Libraries}

def outgoing (server : ServerState libs) (entry : Entry libs) (req : Incoming) :
    Except Refused (Outgoing libs) :=
  let headers := alterHeaders server.headerVars req.headers
  if isSafe req.method then .ok ⟨req.method, entry.url, headers, none⟩
  else do
    let body ← (toBytes req.body bodyLimit).mapError fun err => (400, err)
    return ⟨req.method, entry.url, headers, some body⟩

def forward (server : ServerState libs) (req : Incoming) (unixMs : UInt64) :
    Except Refused (Outgoing libs) := do
  let entry ← proxy server.toAppState req.toHttpRequest unixMs
  outgoing server entry req

theorem get_all_remove_all (headers : HeaderMap) (name : String) :
    getAll (removeAll headers) name = if name ∈ removedHeaders then [] else getAll headers name := by
  unfold removeAll
  generalize removedHeaders = names
  induction names generalizing headers with
  | nil => rfl
  | cons first names ih =>
    rw [List.foldl_cons, ih]
    by_cases later : name ∈ names
    · rw [if_pos later, if_pos (List.mem_cons_of_mem first later)]
    · rw [if_neg later]
      by_cases here : name = first
      · rw [here, if_pos List.mem_cons_self, get_all_remove_same]
      · have neither : name ∉ first :: names := by simp [here, later]
        rw [if_neg neither, get_all_remove_other here]

theorem replace_value_unknown {headerVars : List (String × Bytes)} {val : Bytes}
    (unknown : ∀ s, toStr val = some s → headerVars.lookup s = none) :
    replaceValue headerVars val = val := by
  unfold replaceValue
  split
  · rfl
  · rename_i s read
    rw [unknown s read]
    rfl

theorem mem_remove_all {headers : HeaderMap} {h : String × Bytes} (left : h ∈ removeAll headers) :
    h ∈ headers ∧ h.1 ∉ removedHeaders := by
  have found := mem_get_all.mpr left
  rw [get_all_remove_all] at found
  split at found
  · cases found
  · rename_i kept
    exact ⟨mem_get_all.mp found, kept⟩

/-- With no constants the pass is left out, which comes to the same. -/
theorem alter_headers_eq (headerVars : List (String × Bytes)) (headers : HeaderMap) :
    alterHeaders headerVars headers = mapValues (replaceValue headerVars) (removeAll headers) := by
  unfold alterHeaders
  split
  · rename_i empty
    have none_known : headerVars = [] := List.isEmpty_iff.mp empty
    subst none_known
    have nothing : ∀ h ∈ removeAll headers, (h.1, replaceValue [] h.2) = h := by
      intro h _
      rw [replace_value_unknown fun s _ => rfl]
    rw [mapValues, List.map_congr_left nothing, List.map_id']
  · rfl

theorem get_all_alter_headers (headerVars : List (String × Bytes)) (headers : HeaderMap)
    (name : String) :
    getAll (alterHeaders headerVars headers) name =
      if name ∈ removedHeaders then []
      else (getAll headers name).map (replaceValue headerVars) := by
  rw [alter_headers_eq, get_all_map_values, get_all_remove_all]
  split
  · rfl
  · rfl

theorem alter_headers_congr {headerVars headerVars' : List (String × Bytes)} {headers : HeaderMap}
    (same : ∀ h ∈ headers, h.1 ∉ removedHeaders → ∀ s, toStr h.2 = some s →
      headerVars.lookup s = headerVars'.lookup s) :
    alterHeaders headerVars headers = alterHeaders headerVars' headers := by
  rw [alter_headers_eq, alter_headers_eq, mapValues, mapValues]
  refine List.map_congr_left fun h mem => ?_
  obtain ⟨inside, kept⟩ := mem_remove_all mem
  have value : replaceValue headerVars h.2 = replaceValue headerVars' h.2 := by
    unfold replaceValue
    split
    · rfl
    · rename_i s read
      rw [same h inside kept s read]
  rw [value]

structure SameMessage (out out' : Outgoing libs) : Prop where
  method : out.method = out'.method
  url : out.url = out'.url
  headers : ∀ name, getAll out.headers name = getAll out'.headers name
  body : out.body = out'.body

/-- The requests ask for the same: they may differ in the token, in what hops before the
    proxy have added, and in every value of x-forwarded-host but the one that is read. -/
structure AskTheSame (req req' : Incoming) : Prop where
  method : req.method = req'.method
  path : req.path = req'.path
  pathAndQuery : req.pathAndQuery = req'.pathAndQuery
  host : extractHeader req.headers "x-forwarded-host" "" =
    extractHeader req'.headers "x-forwarded-host" ""
  headers : ∀ name ∉ removedHeaders, getAll req.headers name = getAll req'.headers name
  body : req.body = req'.body

section Sending
variable {server : ServerState libs} {req req' : Incoming} {unixMs unixMs' : UInt64}
  {entry : Entry libs} {out out' : Outgoing libs}

theorem target_url_same (same : AskTheSame req req') (app : AppState libs) :
    targetUrl app req.toHttpRequest = targetUrl app req'.toHttpRequest := by
  simp only [targetUrl, same.path, same.pathAndQuery, same.host]

theorem outgoing_parts (sent : outgoing server entry req = .ok out) :
    out.method = req.method ∧ out.url = entry.url ∧
      out.headers = alterHeaders server.headerVars req.headers ∧
      (if isSafe req.method then out.body = none
        else ∃ bytes, req.body = .ok bytes ∧ bytes.length ≤ bodyLimit ∧ out.body = some bytes) := by
  unfold outgoing at sent
  dsimp only at sent
  split at sent
  · cases sent
    exact ⟨rfl, rfl, rfl, by simp [*]⟩
  · rename_i unsafe_method
    obtain ⟨body, limited, same⟩ := bind_ok_iff.mp sent
    cases same
    obtain ⟨bytes, read, within⟩ := bind_ok_iff.mp (map_error_ok_iff.mp limited)
    split at within
    · rename_i short
      cases within
      exact ⟨rfl, rfl, rfl, by rw [if_neg unsafe_method]; exact ⟨body, read, short, rfl⟩⟩
    · cases within

theorem forward_stages (sent : forward server req unixMs = .ok out) :
    ∃ entry, proxy server.toAppState req.toHttpRequest unixMs = .ok entry ∧
      outgoing server entry req = .ok out :=
  bind_ok_iff.mp sent

theorem forward_url (sent : forward server req unixMs = .ok out) :
    ∃ text, targetUrl server.toAppState req.toHttpRequest = .ok text ∧
      libs.parseUrl text = .ok out.url := by
  obtain ⟨entry, reached, made⟩ := forward_stages sent
  obtain ⟨_, _, ⟨text, target, parsed⟩, _, _⟩ := proxy_stages reached
  rw [(outgoing_parts made).2.1]
  exact ⟨text, target, parsed⟩

structure SameConstants (server server' : ServerState libs) : Prop where
  headers : ∀ name, server.headerVars.lookup name = server'.headerVars.lookup name
  urls : ∀ name, server.urlVars name = server'.urlVars name

theorem target_url_constants {server' : ServerState libs} (same : SameConstants server server')
    (req : AccessControl.HttpRequest) :
    targetUrl server.toAppState req = targetUrl server'.toAppState req := by
  simp only [targetUrl, same.urls]

theorem forward_alike {server' : ServerState libs} (constants : SameConstants server server')
    (same : AskTheSame req req') (sent : forward server req unixMs = .ok out)
    (sent' : forward server' req' unixMs' = .ok out') : SameMessage out out' := by
  obtain ⟨entry, reached, made⟩ := forward_stages sent
  obtain ⟨entry', reached', made'⟩ := forward_stages sent'
  obtain ⟨method, _, headers, body⟩ := outgoing_parts made
  obtain ⟨method', _, headers', body'⟩ := outgoing_parts made'
  obtain ⟨text, target, parsed⟩ := forward_url sent
  obtain ⟨text', target', parsed'⟩ := forward_url sent'
  have altered : alterHeaders server.headerVars req'.headers =
      alterHeaders server'.headerVars req'.headers :=
    alter_headers_congr fun _ _ _ s _ => constants.headers s
  constructor
  · rw [method, method', same.method]
  · rw [target_url_same same, target_url_constants constants, target'] at target
    cases target
    exact Except.ok.inj (parsed.symm.trans parsed')
  · intro name
    rw [headers, headers', ← altered, get_all_alter_headers, get_all_alter_headers]
    split
    · rfl
    · rename_i kept
      rw [same.headers name kept]
  · rw [same.method, same.body] at body
    split at body
    · rename_i safe
      rw [if_pos safe] at body'
      rw [body, body']
    · rename_i unsafe_method
      rw [if_neg unsafe_method] at body'
      obtain ⟨bytes, read, _, whole⟩ := body
      obtain ⟨bytes', read', _, whole'⟩ := body'
      rw [whole, whole', Except.ok.inj (read.symm.trans read')]

end Sending

/-- The upstream cannot tell who asked: of two requests that ask for the same, both let
    through, by whatever agents and at whatever times, it sees one message. -/
theorem askers_indistinguishable {server : ServerState libs} {req req' : Incoming}
    {unixMs unixMs' : UInt64} {out out' : Outgoing libs} (same : AskTheSame req req')
    (sent : forward server req unixMs = .ok out)
    (sent' : forward server req' unixMs' = .ok out') : SameMessage out out' := by
  have constants : SameConstants server server := ⟨fun _ => rfl, fun _ => rfl⟩
  exact forward_alike constants same sent sent'

section Sample

def sampleServer : ServerState sampleLibraries where
  agents := ∅
  urlVars := fun _ => none
  ecdsaPubKeys := []
  ed25519PubKeys := []
  headerVars := [("HEADER_TOKEN", utf8 "Bearer HEADER_TOKEN")]

def sharedHeaders : HeaderMap :=
  [("x-forwarded-host", utf8 "httpbin.org"), ("authorization", utf8 "HEADER_TOKEN"),
    ("idempotency-key", utf8 "k1")]

def sampleIncoming (own : HeaderMap) : Incoming where
  method := "POST"
  path := "/post"
  pathAndQuery := some "/post?a=1"
  headers := own ++ sharedHeaders
  body := .ok (utf8 "hi")

def sampleOutgoing (headers : HeaderMap) : Outgoing sampleLibraries where
  method := "POST"
  url := "https://httpbin.org/post?a=1"
  headers := headers
  body := some (utf8 "hi")

def firstHop : HeaderMap := [("forwarded", utf8 "for=10.0.0.1")]
def secondHop : HeaderMap :=
  [("proxy-authorization", utf8 "Bearer b"), ("x-forwarded-for", utf8 "10.0.0.2")]

/-- What the constant stands for is not looked up again. -/
example : alterHeaders sampleServer.headerVars (sampleIncoming secondHop).headers =
    [("idempotency-key", utf8 "k1"), ("authorization", utf8 "Bearer HEADER_TOKEN")] := by
  decide +kernel

theorem sample_asks_the_same : AskTheSame (sampleIncoming firstHop) (sampleIncoming secondHop) := by
  refine ⟨rfl, rfl, rfl, by decide +kernel, fun name kept => ?_, rfl⟩
  have fresh : ∀ own : HeaderMap, (∀ h ∈ own, h.1 ∈ removedHeaders) → getAll own name = [] := by
    intro own removed
    exact get_all_none fun h mem here => kept (here ▸ removed h mem)
  simp only [sampleIncoming, get_all_append, fresh firstHop (by decide), fresh secondHop (by decide)]

theorem sample_askers_alike :
    SameMessage (sampleOutgoing (alterHeaders sampleServer.headerVars (firstHop ++ sharedHeaders)))
      (sampleOutgoing (alterHeaders sampleServer.headerVars (secondHop ++ sharedHeaders))) :=
  @askers_indistinguishable _ sampleServer _ _ 0 1 _ _ sample_asks_the_same rfl rfl

end Sample
end SentUpstream
