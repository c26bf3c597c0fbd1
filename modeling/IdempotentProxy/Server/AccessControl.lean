import IdempotentProxy.Foundations.Base64
import IdempotentProxy.Foundations.Prefixes
import IdempotentProxy.Foundations.Results
import IdempotentProxy.Types.Auth
import IdempotentProxy.Types.Headers
import IdempotentProxy.Server.ProxyHandler

/-!
The handler `proxy` of the Rust server up to its `obtain`: who asks, for which URL,
under which cache key. Every later step of the handler starts from an `Entry`;
whatever is refused here reaches neither the cache nor the upstream. The URL parser
and the text of a base64 error are the libraries'.
-/
namespace AccessControl
open HttpHeaders Prefixes Results
open TokenAuth hiding Bytes

structure Libraries where
  auth : TokenAuth.Libraries
  base64Error : String → String
  Url : Type
  parseUrl : String → Except String Url

structure AppState (libs : Libraries) where
  agents : Finset String
  urlVars : String → Option String
  ecdsaPubKeys : List libs.auth.ecdsa.Key
  ed25519PubKeys : List libs.auth.ed25519.Key

structure HttpRequest where
  method : String
  path : String
  pathAndQuery : Option String
  headers : HeaderMap

/-- The router's one route, `/*any`, wants a segment; any other path is answered 404. -/
def route (req : HttpRequest) : Option HttpRequest :=
  match req.path.toList with
  | '/' :: _ :: _ => some req
  | _ => none

theorem route_some_iff {req got : HttpRequest} :
    route req = some got ↔ (∃ c cs, req.path.toList = '/' :: c :: cs) ∧ got = req := by
  unfold route
  split
  · rename_i c cs leads
    exact ⟨fun same => ⟨⟨c, cs, leads⟩, (Option.some.inj same).symm⟩, fun both => by rw [both.2]⟩
  · rename_i other
    apply iff_of_false
    · simp
    · rintro ⟨⟨c, cs, leads⟩, _⟩
      exact other c cs leads

variable {libs : Libraries} (app : AppState libs)

def verifyFailed (err : String) : String := "proxy authentication verify failed: " ++ err

def AppState.verifyToken (accessToken : String) (unixMs : UInt64) : Except String String :=
  if startsWith accessToken "Bearer " then
    match Base64.decode Base64.urlSafe (stripPrefix accessToken "Bearer ").toList with
    | none => .error (libs.base64Error (stripPrefix accessToken "Bearer "))
    | some token =>
        if ¬ app.ecdsaPubKeys.isEmpty then
          ((ecdsaVerify libs.auth app.ecdsaPubKeys token unixMs).map Token.agent).mapError
            verifyFailed
        else if ¬ app.ed25519PubKeys.isEmpty then
          ((ed25519Verify libs.auth app.ed25519PubKeys token unixMs).map Token.agent).mapError
            verifyFailed
        else .error "proxy authentication verify failed"
  else .error "invalid proxy-authorization header"

abbrev Refused := Nat × String

def accessAgent (req : HttpRequest) (unixMs : UInt64) : Except Refused String :=
  if ¬ app.ecdsaPubKeys.isEmpty ∨ ¬ app.ed25519PubKeys.isEmpty then
    (app.verifyToken (extractHeader req.headers "proxy-authorization" "") unixMs).mapError
      fun err => (407, err)
  else .ok "ANON"

def checkAllowed (agent : String) : Except Refused Unit :=
  if app.agents ≠ ∅ ∧ agent ∉ app.agents then .error (403, "agent " ++ agent ++ " is not allowed")
  else .ok ()

def targetUrl (req : HttpRequest) : Except Refused String :=
  if startsWith req.path "/URL_" then
    let url := (app.urlVars (stripPrefix req.path "/")).getD ""
    if startsWith url "http" then .ok url else .error (400, "invalid url: " ++ url)
  else
    let host := extractHeader req.headers "x-forwarded-host" ""
    if host.isEmpty then .error (400, "missing header: x-forwarded-host")
    else .ok ("https://" ++ host ++ req.pathAndQuery.getD req.path)

def idempotencyKey (req : HttpRequest) : Except Refused String :=
  let key := extractHeader req.headers "idempotency-key" ""
  if key.isEmpty then .error (400, "missing header: idempotency-key") else .ok key

def cacheKey (agent method key : String) : String := agent ++ ":" ++ method ++ ":" ++ key

def isSafe (method : String) : Bool := method ∈ ["GET", "HEAD", "OPTIONS", "TRACE"]

/-- What the handler knows when it calls `obtain`. -/
structure Entry (libs : Libraries) where
  agent : String
  url : libs.Url
  key : String
  request : ProxyHandler.Request

def proxy (req : HttpRequest) (unixMs : UInt64) : Except Refused (Entry libs) := do
  let agent ← accessAgent app req unixMs
  checkAllowed app agent
  let text ← targetUrl app req
  let url ← (libs.parseUrl text).mapError fun err => (400, err)
  let key ← idempotencyKey req
  return ⟨agent, url, key, ⟨cacheKey agent req.method key, isSafe req.method,
    extractHeader req.headers "x-json-mask" "", extractHeader req.headers "response-headers" ""⟩⟩

/-- The signature of the scheme in use: ECDSA as soon as one such key is configured. -/
def Authentic (token : Token) : Prop :=
  (app.ecdsaPubKeys ≠ [] ∧
      SignedBy libs.auth libs.auth.ecdsa libs.auth.sha3_256 app.ecdsaPubKeys token) ∨
    (app.ecdsaPubKeys = [] ∧ app.ed25519PubKeys ≠ [] ∧
      SignedBy libs.auth libs.auth.ed25519 id app.ed25519PubKeys token)

def bearer (data : Bytes) : String :=
  "Bearer " ++ String.ofList (Base64.encode Base64.urlSafe data)

theorem bearer_injective {data data' : Bytes} (same : bearer data = bearer data') :
    data = data' := by
  have coded := (String.append_right_inj "Bearer ").mp same
  rw [String.ofList_inj] at coded
  have back := Base64.decode_encode Base64.urlSafe data
  rw [coded, Base64.decode_encode] at back
  exact (Option.some.inj back).symm

theorem verify_token_iff {accessToken agent : String} {unixMs : UInt64} :
    app.verifyToken accessToken unixMs = .ok agent ↔
      ∃ data token, accessToken = bearer data ∧ libs.auth.fromReader data = some token ∧
        ¬ Expired token unixMs ∧ Authentic app token ∧ token.agent = agent := by
  unfold AppState.verifyToken Authentic
  constructor
  · intro accepted
    split at accepted
    · rename_i started
      obtain ⟨text, rfl⟩ := starts_with_iff.mp started
      rw [strip_prefix_append] at accepted
      split at accepted
      · cases accepted
      · rename_i data decoded
        have written : "Bearer " ++ text = bearer data := by
          rw [bearer, ← (Base64.decode_iff _).mp decoded, String.ofList_toList]
        split at accepted
        · rename_i keys
          obtain ⟨token, verified, named⟩ := map_ok_iff.mp (map_error_ok_iff.mp accepted)
          obtain ⟨read, fresh, signed⟩ := (ecdsa_verify_iff _).mp verified
          exact ⟨data, token, written, read, fresh, Or.inl ⟨by simpa using keys, signed⟩, named⟩
        · rename_i no_keys
          split at accepted
          · rename_i keys
            obtain ⟨token, verified, named⟩ := map_ok_iff.mp (map_error_ok_iff.mp accepted)
            obtain ⟨read, fresh, signed⟩ := (ed25519_verify_iff _).mp verified
            exact ⟨data, token, written, read, fresh,
              Or.inr ⟨by simpa using no_keys, by simpa using keys, signed⟩, named⟩
          · cases accepted
    · cases accepted
  · rintro ⟨data, token, rfl, read, fresh, authentic, rfl⟩
    have started : startsWith (bearer data) "Bearer " = true := starts_with_append _ _
    have stripped : stripPrefix (bearer data) "Bearer " =
        String.ofList (Base64.encode Base64.urlSafe data) := strip_prefix_append _ _
    rw [if_pos started]
    simp only [stripped, String.toList_ofList, Base64.decode_encode]
    rcases authentic with ⟨keys, signed⟩ | ⟨no_keys, keys, signed⟩
    · rw [if_pos (by simpa using keys)]
      have verified := (ecdsa_verify_iff _).mpr ⟨read, fresh, signed⟩
      exact map_error_ok_iff.mpr (map_ok_iff.mpr ⟨token, verified, rfl⟩)
    · rw [if_neg (by simpa using no_keys), if_pos (by simpa using keys)]
      have verified := (ed25519_verify_iff _).mpr ⟨read, fresh, signed⟩
      exact map_error_ok_iff.mpr (map_ok_iff.mpr ⟨token, verified, rfl⟩)

theorem url_safe_visible : ∀ n < 64, visibleChar (Base64.urlSafe.symbol n) = true := by decide

theorem bearer_visible (data : Bytes) : ∀ c ∈ (bearer data).toList, visibleChar c = true := by
  have word : ∀ c ∈ "Bearer ".toList, visibleChar c = true :=
    List.all_eq_true.mp (by decide)
  intro c mem
  rw [bearer, String.toList_append, List.mem_append] at mem
  rcases mem with first | coded
  · exact word c first
  · rw [String.toList_ofList] at coded
    obtain ⟨n, packed, rfl⟩ := List.mem_map.mp coded
    exact url_safe_visible n (Base64.pack_bound data n packed)

/-- `proxy` admits `agent` in one of two ways: nobody is asked for a token, or the first
    proxy-authorization header carries a valid one of that agent. -/
def Admits (req : HttpRequest) (unixMs : UInt64) (agent : String) : Prop :=
  (app.ecdsaPubKeys = [] ∧ app.ed25519PubKeys = [] ∧ agent = "ANON") ∨
    ∃ value data token, get req.headers "proxy-authorization" = some value ∧
      toStr value = some (bearer data) ∧ libs.auth.fromReader data = some token ∧
      (token.expireAt.toNat + 10 < 2 ^ 64 →
        unixMs.toNat / 1000 ≤ token.expireAt.toNat + 10) ∧
      Authentic app token ∧ agent = token.agent

section Soundness
variable {app} {req : HttpRequest} {unixMs : UInt64} {agent : String}

theorem extract_header_text {hm : HeaderMap} {name text : String} (filled : text ≠ "")
    (found : extractHeader hm name "" = text) :
    ∃ value, get hm name = some value ∧ toStr value = some text := by
  unfold extractHeader at found
  split at found
  · exact absurd found.symm filled
  · rename_i value first
    refine ⟨value, first, ?_⟩
    cases read : toStr value with
    | none =>
      rw [read] at found
      exact absurd found.symm filled
    | some s =>
      rw [read] at found
      exact congrArg some found

theorem bearer_nonempty (data : Bytes) : bearer data ≠ "" := by
  intro empty
  have length := congrArg (fun s => s.toList.length) empty
  simp [bearer] at length

theorem access_agent_admits (granted : accessAgent app req unixMs = .ok agent) :
    Admits app req unixMs agent := by
  unfold accessAgent at granted
  split at granted
  · rename_i configured
    obtain ⟨data, token, written, read, fresh, authentic, named⟩ :=
      (verify_token_iff app).mp (map_error_ok_iff.mp granted)
    obtain ⟨value, first, text⟩ := extract_header_text (bearer_nonempty data) written
    refine Or.inr ⟨value, data, token, first, text, read, ?_, authentic, named.symm⟩
    intro bounded
    rw [expired_iff bounded] at fresh
    omega
  · rename_i unconfigured
    cases granted
    have none_left : app.ecdsaPubKeys = [] ∧ app.ed25519PubKeys = [] := by simpa using unconfigured
    exact Or.inl ⟨none_left.1, none_left.2, rfl⟩

theorem check_allowed_ok (passed : checkAllowed app agent = .ok ()) :
    app.agents = ∅ ∨ agent ∈ app.agents := by
  unfold checkAllowed at passed
  split at passed
  · cases passed
  · rename_i allowed
    by_contra refused
    exact allowed ⟨fun none => refused (Or.inl none), fun mem => refused (Or.inr mem)⟩

theorem idempotency_key_ok {key : String} (found : idempotencyKey req = .ok key) :
    key ≠ "" ∧
      ∃ value, get req.headers "idempotency-key" = some value ∧ toStr value = some key := by
  unfold idempotencyKey at found
  dsimp only at found
  split at found
  · cases found
  · rename_i filled
    cases found
    have nonempty : extractHeader req.headers "idempotency-key" "" ≠ "" := by simpa using filled
    exact ⟨nonempty, extract_header_text nonempty rfl⟩

theorem proxy_stages {entry : Entry libs} (reached : proxy app req unixMs = .ok entry) :
    accessAgent app req unixMs = .ok entry.agent ∧ checkAllowed app entry.agent = .ok () ∧
      (∃ text, targetUrl app req = .ok text ∧ libs.parseUrl text = .ok entry.url) ∧
      idempotencyKey req = .ok entry.key ∧
      entry.request.idempotencyKey = cacheKey entry.agent req.method entry.key := by
  obtain ⟨agent, granted, rest⟩ := bind_ok_iff.mp reached
  obtain ⟨_, allowed, rest⟩ := bind_ok_iff.mp rest
  obtain ⟨text, target, rest⟩ := bind_ok_iff.mp rest
  obtain ⟨url, parsed, rest⟩ := bind_ok_iff.mp rest
  obtain ⟨key, found, same⟩ := bind_ok_iff.mp rest
  cases same
  exact ⟨granted, allowed, ⟨text, target, map_error_ok_iff.mp parsed⟩, found, rfl⟩

end Soundness

/-- A request comes to `obtain` only with an admitted agent, on the allow list if there
    is one, and under that agent's cache key. -/
theorem access_control_sound {req : HttpRequest} {unixMs : UInt64} {entry : Entry libs}
    (reached : proxy app req unixMs = .ok entry) :
    Admits app req unixMs entry.agent ∧ (app.agents = ∅ ∨ entry.agent ∈ app.agents) ∧
      entry.request.idempotencyKey = cacheKey entry.agent req.method entry.key := by
  obtain ⟨granted, allowed, _, _, keyed⟩ := proxy_stages reached
  exact ⟨access_agent_admits granted, check_allowed_ok allowed, keyed⟩

section Sample

def sampleLibraries : Libraries where
  auth := TokenAuth.sampleLibraries
  base64Error := fun _ => "Invalid byte"
  Url := String
  parseUrl := .ok

def guarded : AppState sampleLibraries where
  agents := {"ICPandaDAO"}
  urlVars := fun _ => none
  ecdsaPubKeys := [sampleKey]
  ed25519PubKeys := []

def sampleRequest : HttpRequest where
  method := "GET"
  path := "/get"
  pathAndQuery := some "/get"
  headers := [("proxy-authorization", utf8 (bearer (writeToken sampleToken))),
    ("x-forwarded-host", utf8 "httpbin.org"), ("idempotency-key", utf8 "k1")]

def sampleEntry : Entry sampleLibraries :=
  ⟨"ICPandaDAO", "https://httpbin.org/get", "k1", ⟨"ICPandaDAO:GET:k1", true, "", ""⟩⟩

theorem sample_request_admitted :
    Admits guarded sampleRequest 1717844361000 "ICPandaDAO" ∧
      (guarded.agents = ∅ ∨ "ICPandaDAO" ∈ guarded.agents) ∧
      "ICPandaDAO:GET:k1" = cacheKey "ICPandaDAO" "GET" "k1" := by
  have header : extractHeader sampleRequest.headers "proxy-authorization" "" =
      bearer (writeToken sampleToken) :=
    extract_header_utf8 (by simp [HttpHeaders.get, sampleRequest]) (bearer_visible _)
  have read : readToken (writeToken sampleToken) = some sampleToken :=
    read_token (by decide) (by decide)
  have verified : guarded.verifyToken (bearer (writeToken sampleToken)) 1717844361000 =
      .ok "ICPandaDAO" :=
    (verify_token_iff guarded).mpr ⟨writeToken sampleToken, sampleToken, rfl, read, by decide,
      Or.inl ⟨List.cons_ne_nil _ _, sampleToken.signature, rfl, sampleKey,
        List.mem_singleton_self _, by decide⟩, rfl⟩
  have granted : accessAgent guarded sampleRequest 1717844361000 = .ok "ICPandaDAO" := by
    rw [accessAgent, header, verified]
    rfl
  have reached : proxy guarded sampleRequest 1717844361000 = .ok sampleEntry := by
    rw [proxy, granted]
    rfl
  exact access_control_sound guarded reached

end Sample
end AccessControl
