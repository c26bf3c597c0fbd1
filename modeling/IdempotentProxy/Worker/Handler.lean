import IdempotentProxy.Types.FetchHeaders
import IdempotentProxy.Server.Startup
import IdempotentProxy.Worker.ObjectNames

/-!
The worker's `fetch` handler up to its first call on the Durable Object, and the request
it sends upstream once it holds the lease; beside it the Rust server on the same variables
and requests. URLs are the runtime's.
-/
namespace WorkerHandler
open FetchHeaders NamedTables Prefixes Results WorkerAuth
open AccessControl (AppState Refused bearer)
open HttpHeaders (Bytes HeaderMap extractHeader getAll toStr visibleChar)
open SentUpstream (Incoming removedHeaders)
open Startup (Environment Started)

structure Libraries where
  auth : WorkerAuth.Libraries
  /-- `${err}` -/
  errorText : String → String
  Url : Type
  parseUrl : String → Except String Url
  pathname : Url → String
  setPort : Url → String → Url
  setProtocol : Url → String → Url
  setHost : Url → String → Url

/-- ALLOW_AGENTS is an array of texts; `vars` are the variables that are texts. -/
structure Env where
  allowAgents : List String
  vars : Environment

structure Request (libs : Libraries) where
  method : String
  url : libs.Url
  headers : Headers
  body : Option Bytes

inductive Stop where
  | response (status : Nat) (text : String)
  | thrown (err : String)
  deriving DecidableEq

structure Entry (libs : Libraries) where
  agent : String
  url : libs.Url
  name : String

structure Outgoing (libs : Libraries) where
  method : String
  url : libs.Url
  headers : Headers
  body : Option Bytes

def getString (vars : Environment) (key : String) : String := (vars.lookup key).getD ""

/-- `req.headers.get(name) || ''` -/
def header (headers : Headers) (name : String) : String := (headers.get name).getD ""

variable {libs : Libraries} (env : Env) (req : Request libs)

def verifyAgent (now : DateNow) : Except Stop String :=
  match parsePubkeys env.vars with
  | none => .error (.thrown "InvalidCharacterError")
  | some pubKeys =>
      if pubKeys.ecdsa.length > 0 ∨ pubKeys.ed25519.length > 0 then
        (verifyToken libs.auth pubKeys (header req.headers "proxy-authorization") now).mapError
          fun err => .response 407 (libs.errorText err)
      else .ok "ANON"

def checkAllowed (agent : String) : Except Stop Unit :=
  if env.allowAgents.length > 0 ∧ agent ∉ env.allowAgents then
    .error (.response 403 ("agent " ++ agent ++ " is not allowed"))
  else .ok ()

def banner : Except Stop Unit :=
  if req.method = "GET" ∧ libs.pathname req.url = "/" then
    .error (.response 200 "idempotent-proxy-cf-worker")
  else .ok ()

def targetUrl : Except Stop libs.Url :=
  if startsWith (libs.pathname req.url) "/URL_" then
    (libs.parseUrl (getString env.vars (stripPrefix (libs.pathname req.url) "/"))).mapError .thrown
  else
    let host := header req.headers "x-forwarded-host"
    if host.isEmpty then .error (.response 400 "missing header: x-forwarded-host")
    else .ok (libs.setHost (libs.setProtocol (libs.setPort req.url "") "https") host)

def idempotencyKey : Except Stop String :=
  let key := header req.headers "idempotency-key"
  if key.isEmpty then .error (.response 400 "missing header: idempotency-key") else .ok key

def fetch (now : DateNow) : Except Stop (Entry libs) := do
  let agent ← verifyAgent env req now
  checkAllowed env agent
  banner req
  let url ← targetUrl env req
  let key ← idempotencyKey req
  return ⟨agent, url, ObjectNames.objectName ⟨agent, req.method, key⟩⟩

def filterHeaders : List String :=
  ["host", "forwarded", "proxy-authorization", "x-forwarded-for", "x-forwarded-host",
    "x-forwarded-proto", "idempotency-key"]

def requestValue (vars : Environment) (value : String) : String :=
  if startsWith value "HEADER_" then getString vars value else value

def proxyRequestHeaders (headers : Headers) (vars : Environment) : Except String Headers :=
  (iterate headers.list).foldlM (fun newHeaders h =>
    if filterHeaders.contains h.1 then .ok newHeaders
    else newHeaders.append h.1 (requestValue vars h.2)) Headers.empty

/-- The upstream request of a handler whose `obtain` returned true; what fails is caught. -/
def outgoing (entry : Entry libs) : Except Stop (Outgoing libs) := do
  let headers ← (proxyRequestHeaders req.headers env.vars).mapError fun err =>
    .response 500 (libs.errorText err)
  return ⟨req.method, entry.url, headers, req.body⟩

section Incoming

/-- A value as the runtime hands it to the worker, one character a byte. -/
def asText (value : Bytes) : String := String.ofList (value.map fun b => Char.ofNat b.toNat)

def SameHeaders (hm : HeaderMap) (headers : Headers) : Prop :=
  headers.list = hm.map fun h => (h.1, asText h.2)

def ReadAlike (hm : HeaderMap) (name : String) : Prop :=
  getAll hm name = [] ∨ ∃ value s, getAll hm name = [value] ∧ toStr value = some s

variable {hm : HeaderMap} {headers : Headers} {name : String}

theorem as_text_read {value : Bytes} {s : String} (read : toStr value = some s) :
    asText value = s := by
  unfold toStr at read
  split at read
  · exact Option.some.inj read
  · cases read

theorem values_as_text (same : SameHeaders hm headers) (name : String) :
    valuesOf name headers.list = (getAll hm name).map asText := by
  rw [valuesOf, same, getAll, List.filter_map, List.map_map, List.map_map]
  rfl

theorem header_read_alike (same : SameHeaders hm headers) (lowered : lower name = name)
    (alike : ReadAlike hm name) : header headers name = extractHeader hm name "" := by
  rw [header, Headers.get, lowered, values_as_text same, extractHeader, HttpHeaders.get_eq_head]
  rcases alike with none_there | ⟨value, s, only, read⟩
  · rw [none_there]
    rfl
  · rw [only, List.head?_cons, List.map_cons, List.map_nil, as_text_read read]
    simp only [read]
    rfl

end Incoming

section Tokens
variable {auth : TokenAuth.Libraries} {js : WorkerAuth.Libraries}

theorem load_keys_of_read {vars : Environment} {ecdsa : Table auth.ecdsa.Key}
    {ed25519 : Table auth.ed25519.Key}
    (first : parseAll (Startup.readKey auth.ecdsa) (startingWith "ECDSA_PUB_KEY" vars) = some ecdsa)
    (second : parseAll (Startup.readKey auth.ed25519) (startingWith "ED25519_PUB_KEY" vars) =
      some ed25519) :
    loadKeys auth vars = some (ecdsa.map Prod.snd, ed25519.map Prod.snd) := by
  induction vars generalizing ecdsa ed25519 with
  | nil =>
    cases first
    cases second
    rfl
  | cons v vars ih =>
    obtain ⟨name, value⟩ := v
    simp only [startingWith, List.filter_cons] at ih first second
    rw [loadKeys]
    by_cases starts : startsWith name "ECDSA_PUB_KEY" = true
    · rw [if_pos starts] at first
      rw [if_neg (by simpa using Startup.key_names_differ starts)] at second
      obtain ⟨key, rest, read, others, rfl⟩ := parse_all_cons.mp first
      rw [Startup.readKey] at read
      rw [if_pos starts, read, ih others second]
      rfl
    · rw [if_neg starts] at first
      rw [if_neg starts]
      by_cases starts' : startsWith name "ED25519_PUB_KEY" = true
      · rw [if_pos starts'] at second
        obtain ⟨key, rest, read, others, rfl⟩ := parse_all_cons.mp second
        rw [Startup.readKey] at read
        rw [if_pos starts', read, ih first others]
        rfl
      · rw [if_neg starts'] at second
        rw [if_neg starts', ih first second]

/-- The text is no bearer token, or one whose bytes both libraries read as one token, with
    a number of seconds that JavaScript can tell apart and not in its last second, or both
    do not read. -/
def TokenAlike (auth : TokenAuth.Libraries) (js : WorkerAuth.Libraries) (text : String)
    (now : DateNow) : Prop :=
  startsWith text "Bearer " = true → ∃ data, text = bearer data ∧
    ((∃ token, js.decode data = .ok token ∧ auth.fromReader data = some token.served ∧
        token.expireAt < 2 ^ 53 ∧
        (now.val / 1000 = token.expireAt + permittedDrift → now.val % 1000 = 0)) ∨
      ((∃ err, js.decode data = .error err) ∧ auth.fromReader data = none))

theorem cut_before {e n : Nat} (apart : n / 1000 = e → n % 1000 = 0) :
    e * 1000 < n ↔ e * 1000 < n / 1000 * 1000 := by omega

theorem late_alike {token : Token} {now : DateNow} (small : token.expireAt < 2 ^ 53)
    (apart : now.val / 1000 = token.expireAt + permittedDrift → now.val % 1000 = 0) :
    toNumber (token.expireAt + permittedDrift) * 1000 < now.val ↔
      TokenAuth.Expired token.served (UInt64.ofNat now.val) := by
  have range := now.property
  obtain ⟨whole, cut⟩ : ∃ w : DateNow, w.val = now.val / 1000 * 1000 := ⟨⟨_, by omega⟩, rfl⟩
  have rounded := late_iff_expired small (cut ▸ Nat.mul_mod_left _ _ : whole.val % 1000 = 0)
  have clock : UInt64.ofNat now.val / 1000 = UInt64.ofNat whole.val / 1000 := by
    rw [← UInt64.toNat_inj, UInt64.toNat_div, UInt64.toNat_div, UInt64.toNat_ofNat',
      UInt64.toNat_ofNat']
    have thousand : (1000 : UInt64).toNat = 1000 := rfl
    have rest := whole.property
    rw [thousand, cut]
    omega
  rw [TokenAuth.Expired, clock, ← TokenAuth.Expired, ← rounded, cut]
  by_cases exact_sum : token.expireAt + permittedDrift ≤ 2 ^ 53
  · rw [toNumber, if_pos (Or.inl exact_sum)]
    exact cut_before apart
  · have high : 2 ^ 53 ≤ toNumber (token.expireAt + permittedDrift) := by
      clear rounded clock
      unfold toNumber
      split
      · omega
      · split <;> omega
    clear rounded clock apart
    omega

end Tokens

section Verdicts
variable {server : AccessControl.Libraries} {app : AppState server} {js : WorkerAuth.Libraries}
  {pubKeys : Pubkeys} {text : String} {now : DateNow}

theorem ecdsa_verify_token {data : Bytes} (some_keys : pubKeys.ecdsa.length > 0) :
    verifyToken js pubKeys (bearer data) now =
      (ecdsaVerify js pubKeys.ecdsa data now).map Token.agent := by
  have started : startsWith (bearer data) "Bearer " = true := starts_with_append _ _
  have stripped : base64ToBytes (stripPrefix (bearer data) "Bearer ") = some data := by
    rw [bearer, strip_prefix_append]
    apply base64_to_bytes_of_decode
    rw [String.toList_ofList, Base64.decode_encode]
  rw [verifyToken, if_pos started, stripped]
  dsimp only
  rw [if_pos some_keys]

theorem verdict_alike (agreement : Agreement server.auth js)
    (same : SameKeys server.auth.ecdsa pubKeys.ecdsa app.ecdsaPubKeys)
    (keys : app.ecdsaPubKeys ≠ []) (alike : TokenAlike server.auth js text now) (agent : String) :
    verifyToken js pubKeys text now = .ok agent ↔
      app.verifyToken text (UInt64.ofNat now.val) = .ok agent := by
  have some_keys : pubKeys.ecdsa.length > 0 := (same_keys_length same).mpr keys
  by_cases started : startsWith text "Bearer " = true
  · obtain ⟨data, rfl, ⟨token, read, served, small, apart⟩ | ⟨⟨err, unread⟩, none_read⟩⟩ :=
      alike started
    · have covered : js.sha3 (js.encodePair token.expireAt token.agent) =
          TokenAuth.signedPart server.auth server.auth.sha3_256 token.served := by
        rw [agreement.hash, agreement.pair _ _ small]
        rfl
      have signed := any_iff_signed agreement.ecdsa same covered
      rw [server_accepts_iff served, ecdsa_verify_token some_keys, map_ok_iff, ecdsaVerify]
      simp only [verify_with_ok_iff js read, late_alike small apart]
      constructor
      · rintro ⟨found, ⟨rfl, fresh, verified⟩, named⟩
        exact ⟨named, fresh, Or.inl ⟨keys, signed.mp verified⟩⟩
      · rintro ⟨named, fresh, ⟨_, valid⟩ | ⟨no_keys, _⟩⟩
        · exact ⟨token, ⟨rfl, fresh, signed.mpr valid⟩, named⟩
        · exact absurd no_keys keys
    · rw [ecdsa_verify_token some_keys, AccessControl.verify_token_iff]
      constructor
      · intro accepted
        obtain ⟨found, verified, _⟩ := map_ok_iff.mp accepted
        obtain ⟨token, decoded, _⟩ := bind_ok_iff.mp verified
        rw [unread] at decoded
        cases decoded
      · rintro ⟨data', token, written, read, _⟩
        rw [← AccessControl.bearer_injective written, none_read] at read
        cases read
  · constructor
    · intro accepted
      rw [verifyToken, if_neg started] at accepted
      cases accepted
    · intro accepted
      rw [AppState.verifyToken, if_neg started] at accepted
      cases accepted

end Verdicts

section Forwarding
variable {hm : HeaderMap} {headers : Headers} {vars : Environment} {name : String}

/-- A single value that names a constant of visible characters, or values that name none,
    and no empty one among several. -/
def ForwardedAlike (vars : Environment) (values : List Bytes) : Prop :=
  (∃ value s c, values = [value] ∧ toStr value = some s ∧ startsWith s "HEADER_" = true ∧
      vars.lookup s = some c ∧ (∀ ch ∈ c.toList, visibleChar ch = true) ∧ normalizeValue c = c) ∨
    ((∀ value ∈ values, startsWith (asText value) "HEADER_" = false) ∧
      (2 ≤ values.length → [] ∉ values))

def combined (name : String) (values : List String) : List String :=
  if name = "set-cookie" then values else (join values).toList

theorem values_iterate_combined (name : String) (list : List FetchHeaders.Entry) :
    valuesOf name (iterate list) = combined name (valuesOf name list) := by
  unfold combined
  split
  · rename_i cookie
    rw [cookie, values_iterate_cookie]
  · rename_i single
    exact values_iterate single list

theorem as_text_nonempty {value : Bytes} (filled : value ≠ []) : asText value ≠ "" := by
  intro empty
  have chars := congrArg (fun s => s.toList.length) empty
  simp [asText, filled] at chars

theorem visible_valid {c : String} (seen : ∀ ch ∈ c.toList, visibleChar ch = true) :
    validValue c = true := by
  refine List.all_eq_true.mpr fun ch mem => ?_
  have one := seen ch mem
  simp only [visibleChar, Bool.or_eq_true, beq_iff_eq, Bool.and_eq_true, decide_eq_true_eq] at one
  simp only [validChar, Bool.and_eq_true, decide_eq_true_eq]
  omega

theorem request_value_plain {value : String} (plain : startsWith value "HEADER_" = false) :
    requestValue vars value = value := by
  rw [requestValue, if_neg (by simp [plain])]

theorem request_value_constant {s c : String} (constant : startsWith s "HEADER_" = true)
    (known : vars.lookup s = some c) : requestValue vars s = c := by
  rw [requestValue, if_pos constant, getString, known, Option.getD_some]

theorem combined_plain {values : List Bytes}
    (plain : ∀ value ∈ values, startsWith (asText value) "HEADER_" = false)
    (filled : 2 ≤ values.length → [] ∉ values)
    (trimmed : ∀ v ∈ values.map asText, normalizeValue v = v) (name : String) :
    (∀ v ∈ combined name (values.map asText),
        startsWith v "HEADER_" = false ∧ normalizeValue v = v) ∧
      join (combined name (values.map asText)) = join (values.map asText) := by
  have each : ∀ v ∈ values.map asText, startsWith v "HEADER_" = false := by
    intro v mem
    obtain ⟨value, inside, rfl⟩ := List.mem_map.mp mem
    exact plain value inside
  unfold combined
  split
  · exact ⟨fun v mem => ⟨each v mem, trimmed v mem⟩, rfl⟩
  · cases joined : join (values.map asText) with
    | none => exact ⟨fun v mem => absurd mem (List.not_mem_nil), rfl⟩
    | some j =>
      refine ⟨fun v mem => ?_, rfl⟩
      rw [Option.toList_some, List.mem_singleton] at mem
      subst mem
      constructor
      · have comma : ',' ∉ "HEADER_".toList := by decide
        by_contra starts
        obtain ⟨u, inside, here⟩ := join_starts comma joined (by simpa using starts)
        rw [each u inside] at here
        cases here
      · match values with
        | [] => cases joined
        | [value] =>
          cases joined
          exact trimmed _ List.mem_cons_self
        | first :: second :: rest =>
          refine (join_trimmed trimmed (fun u mem => ?_) joined).1
          obtain ⟨value, inside, rfl⟩ := List.mem_map.mp mem
          apply as_text_nonempty
          rintro rfl
          exact filled (Nat.le_add_left 2 rest.length) inside

theorem proxy_headers_spec
    (valid : ∀ h ∈ iterate headers.list, h.1 ∉ filterHeaders →
      Valid (h.1, requestValue vars h.2)) :
    ∃ sent, proxyRequestHeaders headers vars = .ok sent ∧
      sent.list = ((iterate headers.list).filter fun h => h.1 ∉ filterHeaders).map
        fun h => (h.1, normalizeValue (requestValue vars h.2)) := by
  unfold proxyRequestHeaders
  have grow : ∀ hs : Headers, ∃ sent, (iterate headers.list).foldlM (fun newHeaders h =>
        if filterHeaders.contains h.1 then .ok newHeaders
        else newHeaders.append h.1 (requestValue vars h.2)) hs =
          (.ok sent : Except String Headers) ∧
      sent.list = hs.list ++ ((iterate headers.list).filter fun h => h.1 ∉ filterHeaders).map
        fun h => (h.1, normalizeValue (requestValue vars h.2)) := by
    generalize iterate headers.list = entries at valid
    induction entries with
    | nil => exact fun hs => ⟨hs, rfl, (List.append_nil _).symm⟩
    | cons h rest ih =>
      intro hs
      obtain ⟨first, tail⟩ := List.forall_mem_cons.mp valid
      rw [List.foldlM_cons]
      by_cases filtered : h.1 ∈ filterHeaders
      · obtain ⟨sent, made, list⟩ := ih tail hs
        refine ⟨sent, ?_, ?_⟩
        · rw [if_pos (List.contains_iff_mem.mpr filtered)]
          exact made
        · rw [list, List.filter_cons_of_neg (by simpa using filtered)]
      · obtain ⟨more, appended, entry⟩ := append_ok hs (first filtered)
        obtain ⟨sent, made, list⟩ := ih tail more
        refine ⟨sent, ?_, ?_⟩
        · rw [if_neg (by simpa using filtered), appended]
          exact made
        · rw [list, entry, List.filter_cons_of_pos (by simpa using filtered), List.map_cons,
            List.append_assoc, List.singleton_append]
  exact grow Headers.empty

theorem sent_values {sent : Headers} {entries : List FetchHeaders.Entry}
    (list : sent.list = (entries.filter fun h => h.1 ∉ filterHeaders).map
      fun h => (h.1, normalizeValue (requestValue vars h.2))) (name : String) :
    valuesOf name sent.list = if name ∈ filterHeaders then []
      else (valuesOf name entries).map fun v => normalizeValue (requestValue vars v) := by
  rw [list]
  split
  · rename_i filtered
    refine values_none_iff.mpr fun h mem same => ?_
    obtain ⟨g, kept, rfl⟩ := List.mem_map.mp mem
    have unfiltered := (List.mem_filter.mp kept).2
    rw [same] at unfiltered
    simp [filtered] at unfiltered
  · rename_i unfiltered
    have others : (entries.filter fun h => h.1 ∉ filterHeaders).filter (fun h => h.1 = name) =
        entries.filter fun h => h.1 = name := by
      rw [List.filter_filter]
      refine List.filter_congr fun h _ => ?_
      by_cases here : h.1 = name
      · simp [here, unfiltered]
      · simp [here]
    simp only [valuesOf, List.filter_map, List.map_map]
    rw [← others]
    rfl

theorem value_alike {headerVars : Table Bytes}
    (constants : ∀ s, headerVars.lookup s = if startsWith s "HEADER_" then
      (vars.lookup s).bind fun v => IntoResponse.valueFromBytes (HttpHeaders.utf8 v) else none)
    {values : List Bytes} (alike : ForwardedAlike vars values)
    (trimmed : ∀ v ∈ values.map asText, normalizeValue v = v) (name : String) :
    join ((combined name (values.map asText)).map fun v => normalizeValue (requestValue vars v)) =
        join ((values.map (SentUpstream.replaceValue headerVars)).map asText) ∧
      ∀ v ∈ combined name (values.map asText),
        requestValue vars v = v ∨ validValue (requestValue vars v) = true := by
  rcases alike with ⟨value, s, c, rfl, read, constant, known, seen, trim⟩ | ⟨plain, filled⟩
  · have only : combined name [s] = [s] := by
      unfold combined
      split
      · rfl
      · rfl
    have replaced : SentUpstream.replaceValue headerVars value = HttpHeaders.utf8 c := by
      have visible := HttpHeaders.utf8_all_visible seen
      simp only [SentUpstream.replaceValue, read, constants, if_pos constant, known,
        Option.bind_some, IntoResponse.value_from_bytes visible, Option.getD_some]
    have text : asText (HttpHeaders.utf8 c) = c := HttpHeaders.utf8_chars seen
    have sent := request_value_constant constant known
    rw [List.map_singleton, as_text_read read, only, List.map_singleton, List.map_singleton,
      List.map_singleton, replaced, text, sent, trim]
    refine ⟨rfl, fun v mem => ?_⟩
    rw [List.mem_singleton.mp mem, sent]
    exact Or.inr (visible_valid seen)
  · obtain ⟨each, joined⟩ := combined_plain plain filled trimmed name
    have worker : (combined name (values.map asText)).map
        (fun v => normalizeValue (requestValue vars v)) = combined name (values.map asText) := by
      conv_rhs => rw [← List.map_id (combined name (values.map asText))]
      refine List.map_congr_left fun v mem => ?_
      obtain ⟨none_named, trim⟩ := each v mem
      rw [request_value_plain none_named, trim, id]
    have rust : values.map (SentUpstream.replaceValue headerVars) = values := by
      conv_rhs => rw [← List.map_id values]
      refine List.map_congr_left fun value mem => ?_
      rw [id]
      apply SentUpstream.replace_value_unknown
      intro s read
      have none_named := plain value mem
      rw [as_text_read read] at none_named
      rw [constants, if_neg (by simp [none_named])]
    rw [worker, joined, rust]
    exact ⟨rfl, fun v mem => Or.inl (request_value_plain (each v mem).1)⟩

end Forwarding

/-- The worker has the server's variables, as far as a request can reach them, its allow
    list and libraries that agree with the server's; keys are ECDSA keys, if there are any. -/
structure SetUpAlike (server : AccessControl.Libraries) (libs : Libraries)
    (environment : Environment) (started : Started server) (env : Env) : Prop where
  up : Startup.main server environment = some started
  agents : ∀ agent, agent ∈ env.allowAgents ↔ agent ∈ Startup.listedAgents environment
  ecdsa : startingWith "ECDSA_PUB_KEY" env.vars = startingWith "ECDSA_PUB_KEY" environment
  ed25519 : startingWith "ED25519_PUB_KEY" env.vars = startingWith "ED25519_PUB_KEY" environment
  urls : startingWith "URL_" env.vars = startingWith "URL_" environment
  constants : startingWith "HEADER_" env.vars = startingWith "HEADER_" environment
  libraries : Agreement server.auth libs.auth
  keys : started.server.ecdsaPubKeys ≠ [] ∨ started.server.ed25519PubKeys = []

/-- The URL_ variable that the path names holds an http URL, or else the host, if one is
    given, makes one; `Same` says which URLs of the two libraries are one. -/
def TargetAlike {server : AccessControl.Libraries} {libs : Libraries}
    (Same : server.Url → libs.Url → Prop) (vars : Environment) (req : Incoming)
    (given : libs.Url) : Prop :=
  if startsWith req.path "/URL_" then
    ∃ text url target, vars.lookup (stripPrefix req.path "/") = some text ∧
      startsWith text "http" = true ∧ server.parseUrl text = .ok url ∧
      libs.parseUrl text = .ok target ∧ Same url target
  else
    let host := extractHeader req.headers "x-forwarded-host" ""
    host.isEmpty = false →
      ∃ url, server.parseUrl ("https://" ++ host ++ req.pathAndQuery.getD req.path) = .ok url ∧
        Same url (libs.setHost (libs.setProtocol (libs.setPort given "") "https") host)

/-- One request as it comes to either side. The server routes no other paths than those
    with a segment, and reads no more than the first MiB of a body. -/
structure SameRequest {server : AccessControl.Libraries} {libs : Libraries}
    (Same : server.Url → libs.Url → Prop) (vars : Environment) (incoming : Incoming)
    (req : Request libs) (now : DateNow) : Prop where
  method : req.method = incoming.method
  path : libs.pathname req.url = incoming.path
  routed : incoming.path ≠ "/"
  headers : SameHeaders incoming.headers req.headers
  read : ∀ name ∈ ["proxy-authorization", "x-forwarded-host", "idempotency-key"],
    ReadAlike incoming.headers name
  token : TokenAlike server.auth libs.auth
    (extractHeader incoming.headers "proxy-authorization" "") now
  target : TargetAlike Same vars incoming req.url
  forwarded : ∀ name ∉ filterHeaders, ForwardedAlike vars (getAll incoming.headers name)
  body : if AccessControl.isSafe incoming.method then req.body = none
    else ∃ bytes, incoming.body = .ok bytes ∧ bytes.length ≤ SentUpstream.bodyLimit ∧
      req.body.getD [] = bytes

structure SameMessage {server : AccessControl.Libraries} {libs : Libraries}
    (Same : server.Url → libs.Url → Prop) (out : SentUpstream.Outgoing server)
    (sent : Outgoing libs) : Prop where
  method : sent.method = out.method
  url : Same out.url sent.url
  headers : ∀ name, lower name = name → name ≠ "idempotency-key" →
    sent.headers.get name = join ((getAll out.headers name).map asText)
  unkeyed : sent.headers.get "idempotency-key" = none
  body : sent.body.getD [] = out.body.getD []

section Agreeing
variable {server : AccessControl.Libraries} {environment : Environment} {started : Started server}
  {env : Env} {Same : server.Url → libs.Url → Prop} {incoming : Incoming} {req : Request libs}
  {now : DateNow}

theorem asked_alike (setup : SetUpAlike server libs environment started env)
    (same : SameRequest Same env.vars incoming req now) :
    (∃ text text', AccessControl.accessAgent started.server.toAppState incoming.toHttpRequest
          (UInt64.ofNat now.val) = .error (407, text) ∧
        verifyAgent env req now = .error (.response 407 text')) ∨
      ∃ agent, AccessControl.accessAgent started.server.toAppState incoming.toHttpRequest
          (UInt64.ofNat now.val) = .ok agent ∧ verifyAgent env req now = .ok agent := by
  obtain ⟨_, _, _, loaded⟩ := Startup.main_parts setup.up
  obtain ⟨ecdsa, ed25519, first, second, pair⟩ := Startup.load_keys_read loaded
  rw [← setup.ecdsa] at first
  rw [← setup.ed25519] at second
  have shared := load_keys_of_read first second
  rw [← pair] at shared
  obtain ⟨pubKeys, parsed, sameEcdsa, sameEd25519⟩ := parse_of_load shared
  have configured : (pubKeys.ecdsa.length > 0 ∨ pubKeys.ed25519.length > 0) ↔
      (¬ started.server.ecdsaPubKeys.isEmpty ∨ ¬ started.server.ed25519PubKeys.isEmpty) := by
    rw [same_keys_length sameEcdsa, same_keys_length sameEd25519]
    simp
  have text : header req.headers "proxy-authorization" =
      extractHeader incoming.headers "proxy-authorization" "" :=
    header_read_alike same.headers (by decide) (same.read _ (by simp))
  rw [AccessControl.accessAgent, verifyAgent, parsed]
  dsimp only
  rw [text]
  by_cases asked : pubKeys.ecdsa.length > 0 ∨ pubKeys.ed25519.length > 0
  · have keys : started.server.ecdsaPubKeys ≠ [] := by
      rcases setup.keys with some_keys | none_left
      · exact some_keys
      · rw [← same_keys_length sameEcdsa]
        refine asked.resolve_right fun some_ed => ?_
        exact (same_keys_length sameEd25519).mp some_ed none_left
    rw [if_pos asked, if_pos (configured.mp asked)]
    have verdict (agent : String) := @verdict_alike _ started.server.toAppState _ _ _ _
      setup.libraries sameEcdsa keys same.token agent
    cases accepted : verifyToken libs.auth pubKeys
        (extractHeader incoming.headers "proxy-authorization" "") now with
    | ok agent =>
      rw [(verdict agent).mp accepted]
      exact Or.inr ⟨agent, rfl, rfl⟩
    | error err =>
      cases served : started.server.toAppState.verifyToken
          (extractHeader incoming.headers "proxy-authorization" "") (UInt64.ofNat now.val) with
      | ok agent =>
        rw [(verdict agent).mpr served] at accepted
        cases accepted
      | error text => exact Or.inl ⟨text, libs.errorText err, rfl, rfl⟩
  · rw [if_neg asked, if_neg fun some_keys => asked (configured.mpr some_keys)]
    exact Or.inr ⟨"ANON", rfl, rfl⟩

theorem allowed_alike (setup : SetUpAlike server libs environment started env) (agent : String) :
    (∃ text, AccessControl.checkAllowed started.server.toAppState agent = .error (403, text) ∧
        checkAllowed env agent = .error (.response 403 text)) ∨
      (AccessControl.checkAllowed started.server.toAppState agent = .ok () ∧
        checkAllowed env agent = .ok ()) := by
  obtain ⟨agents, _⟩ := Startup.main_parts setup.up
  have listed : (env.allowAgents.length > 0 ∧ agent ∉ env.allowAgents) ↔
      (started.server.agents ≠ ∅ ∧ agent ∉ started.server.agents) := by
    rw [agents, List.mem_toFinset, setup.agents, Ne, List.toFinset_eq_empty_iff, gt_iff_lt,
      List.length_pos_iff_exists_mem]
    refine and_congr_left fun _ => ?_
    simp only [setup.agents, List.eq_nil_iff_forall_not_mem, not_forall, not_not]
  rw [AccessControl.checkAllowed, checkAllowed]
  by_cases refused : started.server.agents ≠ ∅ ∧ agent ∉ started.server.agents
  · rw [if_pos refused, if_pos (listed.mpr refused)]
    exact Or.inl ⟨_, rfl, rfl⟩
  · rw [if_neg refused, if_neg fun both => refused (listed.mp both)]
    exact Or.inr ⟨rfl, rfl⟩

theorem target_alike (setup : SetUpAlike server libs environment started env)
    (same : SameRequest Same env.vars incoming req now) :
    (∃ text, AccessControl.targetUrl started.server.toAppState incoming.toHttpRequest =
          .error (400, text) ∧ targetUrl env req = .error (.response 400 text)) ∨
      ∃ text url target, AccessControl.targetUrl started.server.toAppState incoming.toHttpRequest =
          .ok text ∧ server.parseUrl text = .ok url ∧ targetUrl env req = .ok target ∧
        Same url target := by
  have alike := same.target
  obtain ⟨_, urls, _, _⟩ := Startup.main_parts setup.up
  rw [AccessControl.targetUrl, targetUrl, same.path]
  unfold TargetAlike at alike
  by_cases constant : startsWith incoming.path "/URL_" = true
  · rw [if_pos constant] at alike
    obtain ⟨text, url, target, known, http, parsed, parsed', one⟩ := alike
    have found : started.server.urlVars (stripPrefix incoming.path "/") = some text := by
      have named := Startup.url_name_starts constant
      have shared := lookup_starting_with "URL_" (stripPrefix incoming.path "/") env.vars
      rw [setup.urls, if_pos named, known] at shared
      rw [urls]
      exact shared
    rw [if_pos constant, if_pos constant, found, getString, known]
    simp only [Option.getD_some, http, ↓reduceIte, parsed']
    exact Or.inr ⟨text, url, target, rfl, parsed, rfl, one⟩
  · rw [if_neg constant] at alike
    have host : header req.headers "x-forwarded-host" =
        extractHeader incoming.headers "x-forwarded-host" "" :=
      header_read_alike same.headers (by decide) (same.read _ (by simp))
    rw [if_neg constant, if_neg constant, host]
    dsimp only at alike ⊢
    by_cases missing : (extractHeader incoming.headers "x-forwarded-host" "").isEmpty = true
    · rw [if_pos missing, if_pos missing]
      exact Or.inl ⟨_, rfl, rfl⟩
    · obtain ⟨url, parsed, one⟩ := alike (by simpa using missing)
      rw [if_neg missing, if_neg missing]
      exact Or.inr ⟨_, url, _, rfl, parsed, rfl, one⟩

theorem key_alike (same : SameRequest Same env.vars incoming req now) :
    (∃ text, AccessControl.idempotencyKey incoming.toHttpRequest = .error (400, text) ∧
        idempotencyKey req = .error (.response 400 text)) ∨
      ∃ key, AccessControl.idempotencyKey incoming.toHttpRequest = .ok key ∧
        idempotencyKey req = .ok key := by
  have key : header req.headers "idempotency-key" =
      extractHeader incoming.headers "idempotency-key" "" :=
    header_read_alike same.headers (by decide) (same.read _ (by simp))
  rw [AccessControl.idempotencyKey, idempotencyKey, key]
  split
  · exact Or.inl ⟨_, rfl, rfl⟩
  · exact Or.inr ⟨_, rfl, rfl⟩

theorem fetch_alike (setup : SetUpAlike server libs environment started env)
    (same : SameRequest Same env.vars incoming req now) :
    (∃ status text text', AccessControl.proxy started.server.toAppState incoming.toHttpRequest
          (UInt64.ofNat now.val) = .error (status, text) ∧
        fetch env req now = .error (.response status text')) ∨
      ∃ entry entry', AccessControl.proxy started.server.toAppState incoming.toHttpRequest
          (UInt64.ofNat now.val) = .ok entry ∧ fetch env req now = .ok entry' ∧
        entry'.agent = entry.agent ∧ entry'.name = entry.request.idempotencyKey ∧
        Same entry.url entry'.url := by
  have no_banner : banner req = .ok () := by
    rw [banner, if_neg]
    rintro ⟨_, root⟩
    exact same.routed (same.path ▸ root)
  unfold AccessControl.proxy fetch
  rcases asked_alike setup same with ⟨text, text', asked, asked'⟩ | ⟨agent, asked, asked'⟩
  · rw [asked, asked']
    exact Or.inl ⟨407, text, text', rfl, rfl⟩
  rcases allowed_alike setup agent with ⟨text, allowed, allowed'⟩ | ⟨allowed, allowed'⟩
  · simp only [asked, asked', allowed, allowed', bind, Except.bind]
    exact Or.inl ⟨403, text, text, rfl, rfl⟩
  rcases target_alike setup same with
    ⟨text, target, target'⟩ | ⟨text, url, url', target, parsed, target', one⟩
  · simp only [asked, asked', allowed, allowed', no_banner, target, target', bind, Except.bind]
    exact Or.inl ⟨400, text, text, rfl, rfl⟩
  rcases key_alike same with ⟨text, key, key'⟩ | ⟨key, found, found'⟩
  · simp only [asked, asked', allowed, allowed', no_banner, target, target', parsed, key, key',
      bind, Except.bind, Except.mapError]
    exact Or.inl ⟨400, text, text, rfl, rfl⟩
  · simp only [asked, asked', allowed, allowed', no_banner, target, target', parsed, found, found',
      bind, Except.bind, Except.mapError, pure, Except.pure]
    refine Or.inr ⟨_, _, rfl, rfl, rfl, ?_, one⟩
    simp only [ObjectNames.objectName, AccessControl.cacheKey, same.method]

theorem headers_alike (setup : SetUpAlike server libs environment started env)
    (same : SameRequest Same env.vars incoming req now) :
    ∃ sent, proxyRequestHeaders req.headers env.vars = .ok sent ∧
      sent.get "idempotency-key" = none ∧
      ∀ name, lower name = name → name ≠ "idempotency-key" → sent.get name =
        join ((getAll (SentUpstream.alterHeaders started.server.headerVars incoming.headers)
          name).map asText) := by
  obtain ⟨_, _, read, _⟩ := Startup.main_parts setup.up
  have constants : ∀ s, started.server.headerVars.lookup s = if startsWith s "HEADER_" then
      (env.vars.lookup s).bind fun v => IntoResponse.valueFromBytes (HttpHeaders.utf8 v)
      else none := by
    intro s
    have shared := lookup_starting_with "HEADER_" s env.vars
    rw [setup.constants, lookup_starting_with] at shared
    rw [Startup.header_var_lookup read]
    split
    · rename_i constant
      rw [if_pos constant, if_pos constant] at shared
      rw [shared]
    · rfl
  have trimmed : ∀ name, ∀ v ∈ (getAll incoming.headers name).map asText,
      normalizeValue v = v := by
    intro name v mem
    rw [← values_as_text same.headers, valuesOf] at mem
    obtain ⟨h, inside, rfl⟩ := List.mem_map.mp mem
    exact req.headers.trimmed h (List.mem_of_mem_filter inside)
  have each := fun name (kept : name ∉ filterHeaders) =>
    value_alike constants (same.forwarded name kept) (trimmed name) name
  have joined : ∀ name, valuesOf name (iterate req.headers.list) =
      combined name ((getAll incoming.headers name).map asText) := by
    intro name
    rw [values_iterate_combined, values_as_text same.headers]
  have valid : ∀ h ∈ iterate req.headers.list, h.1 ∉ filterHeaders →
      Valid (h.1, requestValue env.vars h.2) := by
    intro h mem kept
    have whole := valid_iterate req.headers.valid h mem
    have inside : h.2 ∈ valuesOf h.1 (iterate req.headers.list) :=
      List.mem_map.mpr ⟨h, List.mem_filter.mpr ⟨mem, by simp⟩, rfl⟩
    rw [joined] at inside
    rcases (each h.1 kept).2 h.2 inside with unchanged | valid
    · rw [unchanged]
      exact whole
    · exact ⟨whole.name, whole.lower, valid⟩
  obtain ⟨sent, made, list⟩ := proxy_headers_spec valid
  refine ⟨sent, made, ?_, ?_⟩
  · have lowered : lower "idempotency-key" = "idempotency-key" := by decide
    rw [Headers.get, lowered, sent_values list, if_pos (by decide)]
    rfl
  · intro name lowered other
    rw [Headers.get, lowered, sent_values list, SentUpstream.get_all_alter_headers]
    have filtered : name ∈ filterHeaders ↔ name ∈ removedHeaders := by
      have added : filterHeaders = removedHeaders ++ ["idempotency-key"] := rfl
      rw [added, List.mem_append, List.mem_singleton]
      exact or_iff_left other
    by_cases kept : name ∈ filterHeaders
    · rw [if_pos kept, if_pos (filtered.mp kept)]
      rfl
    · rw [if_neg kept, if_neg fun removed => kept (filtered.mpr removed), joined]
      exact (each name kept).1

end Agreeing

section Sample
open TokenAuth (writeToken sampleToken)

structure SampleUrl where
  origin : String
  pathname : String
  search : String

def sampleLibraries : Libraries where
  auth := sampleJs
  errorText := fun err => "Error: " ++ err
  Url := SampleUrl
  parseUrl := fun text => .ok ⟨text, "", ""⟩
  pathname := SampleUrl.pathname
  setPort := fun url _ => url
  setProtocol := fun url _ => url
  setHost := fun url host => { url with origin := "https://" ++ host }

def sampleEnvironment : Environment :=
  [("PATH", "/bin"), ("HEADER_TOKEN", "Bearer t"), ("ALLOW_AGENTS", " ICPandaDAO ,,"),
    sampleEcdsaVar]

def sampleEnv : Env where
  allowAgents := ["ICPandaDAO"]
  vars := [("HEADER_TOKEN", "Bearer t"), sampleEcdsaVar]

def sampleHeaders : HeaderMap :=
  [("proxy-authorization", HttpHeaders.utf8 (bearer (writeToken sampleToken))),
    ("x-forwarded-host", HttpHeaders.utf8 "httpbin.org"),
    ("idempotency-key", HttpHeaders.utf8 "k1"), ("accept", HttpHeaders.utf8 "text/html"),
    ("authorization", HttpHeaders.utf8 "HEADER_TOKEN"), ("accept", HttpHeaders.utf8 "text/plain")]

def sampleIncoming : Incoming where
  method := "POST"
  path := "/post"
  pathAndQuery := some "/post?a=1"
  headers := sampleHeaders
  body := .ok (HttpHeaders.utf8 "hi")

theorem sample_valid : ∀ h ∈ sampleHeaders.map (fun h => (h.1, asText h.2)),
    Valid h ∧ normalizeValue h.2 = h.2 := by
  have all : (sampleHeaders.map fun h => (h.1, asText h.2)).all (fun h => validName h.1 &&
      (lower h.1 == h.1) && validValue h.2 && (normalizeValue h.2 == h.2)) = true := by
    decide +kernel
  intro h mem
  have each := List.all_eq_true.mp all h mem
  simp only [Bool.and_eq_true, beq_iff_eq] at each
  exact ⟨⟨each.1.1.1, each.1.1.2, each.1.2⟩, each.2⟩

def sampleRequest : Request sampleLibraries where
  method := "POST"
  url := ⟨"https://worker", "/post", "?a=1"⟩
  headers := ⟨_, fun h mem => (sample_valid h mem).1, fun h mem => (sample_valid h mem).2⟩
  body := some (HttpHeaders.utf8 "hi")

def SampleSame (url : AccessControl.sampleLibraries.Url) (given : sampleLibraries.Url) : Prop :=
  url = SampleUrl.origin given ++ (SampleUrl.pathname given ++ SampleUrl.search given)

theorem sample_same_request :
    SameRequest SampleSame sampleEnv.vars sampleIncoming sampleRequest startOfToken := by
  have seen : toStr (HttpHeaders.utf8 (bearer (writeToken sampleToken))) =
      some (bearer (writeToken sampleToken)) :=
    HttpHeaders.to_str_utf8 (AccessControl.bearer_visible _)
  have token : extractHeader sampleIncoming.headers "proxy-authorization" "" =
      bearer (writeToken sampleToken) :=
    HttpHeaders.extract_header_utf8 (by simp [HttpHeaders.get, sampleIncoming, sampleHeaders])
      (AccessControl.bearer_visible _)
  refine ⟨rfl, rfl, by decide, rfl, ?_, ?_, ?_, ?_, ?_⟩
  · intro name mem
    simp only [List.mem_cons, List.not_mem_nil, or_false] at mem
    rcases mem with rfl | rfl | rfl
    · exact Or.inr ⟨_, _, by simp [getAll, sampleIncoming, sampleHeaders], seen⟩
    · exact Or.inr ⟨_, "httpbin.org", rfl, by decide +kernel⟩
    · exact Or.inr ⟨_, "k1", rfl, by decide +kernel⟩
  · intro _
    refine ⟨_, token, Or.inl ⟨sampleRead, by decide, ?_, by decide, by decide⟩⟩
    exact TokenAuth.read_token (by decide) (by decide)
  · unfold TargetAlike
    have host : extractHeader sampleIncoming.headers "x-forwarded-host" "" = "httpbin.org" := by
      decide +kernel
    have whole : "https://" ++ "httpbin.org" ++ "/post?a=1" =
        "https://" ++ "httpbin.org" ++ ("/post" ++ "?a=1") := by decide +kernel
    rw [if_neg (by decide +kernel), host]
    exact fun _ => ⟨_, rfl, whole⟩
  · intro name unfiltered
    by_cases constant : name = "authorization"
    · subst constant
      have read : toStr (HttpHeaders.utf8 "HEADER_TOKEN") = some "HEADER_TOKEN" :=
        HttpHeaders.to_str_utf8 (List.all_eq_true.mp (by decide))
      have visible : ∀ ch ∈ "Bearer t".toList, visibleChar ch = true :=
        List.all_eq_true.mp (by decide)
      exact Or.inl ⟨_, "HEADER_TOKEN", "Bearer t", rfl, read, by decide, by decide, visible,
        by decide⟩
    · by_cases several : name = "accept"
      · subst several
        exact Or.inr ⟨by decide +kernel, by decide +kernel⟩
      · have names : ∀ h ∈ sampleHeaders,
            h.1 ∈ filterHeaders ∨ h.1 = "authorization" ∨ h.1 = "accept" := by decide +kernel
        have nothing : getAll sampleIncoming.headers name = [] := by
          refine HttpHeaders.get_all_none fun h mem same => ?_
          rcases names h mem with filtered | one | other
          · exact unfiltered (same ▸ filtered)
          · exact constant (same.symm.trans one)
          · exact several (same.symm.trans other)
        rw [nothing]
        exact Or.inr ⟨fun value mem => absurd mem List.not_mem_nil, fun _ => List.not_mem_nil⟩
  · exact ⟨_, rfl, by decide +kernel, rfl⟩

theorem sample_set_up : ∃ started, SetUpAlike AccessControl.sampleLibraries sampleLibraries
    sampleEnvironment started sampleEnv := by
  have configured : (Startup.main AccessControl.sampleLibraries sampleEnvironment).map
      (fun started => started.server.ecdsaPubKeys.isEmpty) = some false := by decide +kernel
  obtain ⟨started, up, keys⟩ := Option.map_eq_some_iff.mp configured
  have listed : Startup.listedAgents sampleEnvironment = sampleEnv.allowAgents := by
    decide +kernel
  exact ⟨started, up, fun agent => by rw [listed], by decide +kernel, by decide +kernel,
    by decide +kernel, by decide +kernel, sample_agreement,
    Or.inl fun none_left => by simp [none_left] at keys⟩

end Sample
end WorkerHandler
