import Mathlib.Algebra.BigOperators.Group.List.Basic
import IdempotentProxy.Canister.Requests

/-!
The bytes the canister charges for against the bytes it sends. The charge counts the
caller's request and adds a fixed allowance for the headers `build_request` adds,
whose sizes are those of the agent's endpoint, the target's host and the token.
-/
namespace SentBytes
open CycleCosts AgentRequests Prefixes
open ProxyTokens (Agent)

def headerBytes (h : HttpHeader) : Nat := h.name.utf8ByteSize + h.value.utf8ByteSize + 3

def headersBytes (headers : List HttpHeader) : Nat := (headers.map headerBytes).sum

/-- The count before it is reduced to the 32 bits of `usize`. -/
def requestBytes (req : CanisterHttpRequestArgument) : Nat :=
  req.url.utf8ByteSize + (req.body.map List.length).getD 0 + headersBytes req.headers

/-- The request lies in the 32-bit memory of the canister. -/
def Addressable (req : CanisterHttpRequestArgument) : Prop := requestBytes req < 2 ^ 32

instance (req : CanisterHttpRequestArgument) : Decidable (Addressable req) :=
  inferInstanceAs (Decidable (_ < _))

@[simp] theorem headers_bytes_nil : headersBytes [] = 0 := rfl

@[simp] theorem headers_bytes_cons (h : HttpHeader) (rest : List HttpHeader) :
    headersBytes (h :: rest) = headerBytes h + headersBytes rest := by
  simp [headersBytes]

@[simp] theorem headers_bytes_append (first second : List HttpHeader) :
    headersBytes (first ++ second) = headersBytes first + headersBytes second := by
  simp [headersBytes]

theorem len_toNat (s : String) : (len s).toNat = s.utf8ByteSize % 2 ^ 32 := UInt32.toNat_ofNat'

theorem add_headers (headers : List HttpHeader) (total : UInt32) :
    (headers.foldl addHeader total).toNat =
      (total.toNat + headersBytes headers) % 2 ^ 32 := by
  induction headers generalizing total with
  | nil =>
    have bound := total.toNat_lt
    simp only [List.foldl_nil, headers_bytes_nil]
    omega
  | cons h rest ih =>
    have three : (3 : UInt32).toNat = 3 := rfl
    rw [List.foldl_cons, ih, headers_bytes_cons, addHeader, headerBytes]
    simp only [UInt32.toNat_add, len_toNat, three]
    omega

theorem count_request {c : Calculator} (charged : c.subnetSize ≠ 0)
    {req : CanisterHttpRequestArgument} (fits : Addressable req) :
    (c.countRequestBytes req).toNat = requestBytes req := by
  have small : requestBytes req < 2 ^ 32 := fits
  unfold Calculator.countRequestBytes
  rw [if_neg charged]
  dsimp only
  rw [add_headers, UInt32.toNat_add, len_toNat, UInt32.toNat_ofNat']
  unfold requestBytes at small ⊢
  omega

variable (parseUri : String → Except String Uri)

def targetBytes (agent : Agent) (url : String) : Nat :=
  if startsWith url "URL_" then agent.endpoint.utf8ByteSize + 1 + url.utf8ByteSize
  else
    match parseUri url with
    | .error _ => 0
    | .ok uri => agent.endpoint.utf8ByteSize + (uri.pathAndQuery.getD "/").utf8ByteSize +
        (uri.host.map fun host => 19 + host.utf8ByteSize).getD 0

def filterBytes (req : CanisterHttpRequestArgument) : Nat :=
  if hasHeader req.headers "response-headers" then 0 else 23

def tokenBytes (agent : Agent) : Nat :=
  (agent.proxyToken.map fun token => 29 + token.utf8ByteSize).getD 0

/-- What the rewriting adds is within the allowance. -/
def WithinAllowance (agent : Agent) (req : CanisterHttpRequestArgument) : Prop :=
  targetBytes parseUri agent req.url + filterBytes req + tokenBytes agent ≤
    req.url.utf8ByteSize + httpOutcallRequestOverheadBytes.toNat

variable {parseUri} {agent : Agent} {req : CanisterHttpRequestArgument}

theorem rewrite_url_bytes {url rewritten : String} {host : List HttpHeader}
    (done : rewriteUrl parseUri agent url = .ok (rewritten, host)) :
    rewritten.utf8ByteSize + headersBytes host = targetBytes parseUri agent url := by
  unfold rewriteUrl at done
  unfold targetBytes
  split at done
  · rename_i constant
    cases done
    have slash : "/".utf8ByteSize = 1 := by decide
    rw [if_pos constant, String.utf8ByteSize_append, String.utf8ByteSize_append, slash,
      headers_bytes_nil]
    omega
  · rename_i full
    rw [if_neg full]
    cases parsed : parseUri url with
    | error err => simp [parsed] at done
    | ok uri =>
      simp only [parsed] at done
      cases target : uri.host with
      | none => simp [target] at done
      | some name =>
        simp only [target] at done
        cases done
        have header : "x-forwarded-host".utf8ByteSize = 16 := by decide
        simp only [headers_bytes_cons, headers_bytes_nil, headerBytes, header, target,
          String.utf8ByteSize_append, Option.map_some, Option.getD_some]
        omega

theorem response_headers_bytes (req : CanisterHttpRequestArgument) {url rewritten : String} {host : List HttpHeader}
    (done : rewriteUrl parseUri agent url = .ok (rewritten, host)) :
    headersBytes (responseHeaders (req.headers ++ host)) = filterBytes req := by
  have same : hasHeader (req.headers ++ host) "response-headers" =
      hasHeader req.headers "response-headers" := by
    have other : hasHeader host "response-headers" = false := by
      rw [hasHeader, List.any_eq_false]
      intro h mem
      rw [rewrite_url_host done h mem]
      decide
    rw [hasHeader, List.any_append]
    rw [hasHeader] at other
    rw [other, Bool.or_false]
    rfl
  have size : headersBytes [⟨"response-headers", "date"⟩] = 23 := by decide
  unfold responseHeaders filterBytes
  rw [same]
  split
  · rfl
  · exact size

theorem proxy_authorization_bytes (agent : Agent) :
    headersBytes (proxyAuthorization agent) = tokenBytes agent := by
  have name : "proxy-authorization".utf8ByteSize = 19 := by decide
  have scheme : "Bearer ".utf8ByteSize = 7 := by decide
  unfold proxyAuthorization tokenBytes
  cases agent.proxyToken with
  | none => rfl
  | some token =>
    simp only [headers_bytes_cons, headers_bytes_nil, headerBytes, name, scheme,
      String.utf8ByteSize_append, Option.map_some, Option.getD_some]
    omega

/-- The law of the rewriting: the caller's URL is replaced, and three headers may come. -/
theorem sent_bytes {outcall : Outcall} (built : buildRequest parseUri agent req = .ok outcall) :
    requestBytes outcall.request + req.url.utf8ByteSize =
      requestBytes req + (targetBytes parseUri agent req.url + filterBytes req +
        tokenBytes agent) := by
  obtain ⟨url, host, rewritten, sent, headers, body⟩ := build_request_ok built
  have target := rewrite_url_bytes rewritten
  have filter := response_headers_bytes req rewritten
  have token := proxy_authorization_bytes agent
  simp only [requestBytes, sent, headers, body, headers_bytes_append]
  omega

/-- The charged bytes cover the sent ones exactly when the URL on the agent's endpoint
    and the added headers are at most 150 bytes longer than the caller's URL. -/
theorem charged_for_sent_iff {c : Calculator} {outcall : Outcall} (charged : c.subnetSize ≠ 0)
    (built : buildRequest parseUri agent req = .ok outcall) (given : Addressable req)
    (sent : Addressable outcall.request) :
    (c.countRequestBytes outcall.request).toNat ≤
        (c.countRequestBytes req).toNat + httpOutcallRequestOverheadBytes.toNat ↔
      WithinAllowance parseUri agent req := by
  have law := sent_bytes built
  rw [count_request charged given, count_request charged sent, WithinAllowance]
  omega

def noUris (_ : String) : Except String Uri := .error "unused"

def plainAgent : Agent := ⟨"a", "https://proxy.example.com", 0, none⟩

def namedAgent : Agent :=
  ⟨"ICPandaDAO", "https://proxy.example.com", 0,
    some ("gxpmZDmJaklDUGFuZGFEQU9YQMQr36UI8JV2jJEM_PMe96GsgymHzjfsbZyAsFSHF0FU" ++
      "Nsuj6LKsqHg2dzYG9RoxQRtrcGsphYsNiQJwG3g9Ju4")⟩

def shortRequest : CanisterHttpRequestArgument :=
  ⟨"URL_A", none, [⟨"idempotency-key", "k1"⟩], none⟩

def sentBy (agent : Agent) : Outcall :=
  ⟨{ shortRequest with
      url := agent.endpoint ++ "/" ++ "URL_A"
      headers := shortRequest.headers ++ [⟨"response-headers", "date"⟩] ++
        proxyAuthorization agent }, "inner_transform_response"⟩

theorem plain_agent_covered :
    ((⟨13, 100000000⟩ : Calculator).countRequestBytes (sentBy plainAgent).request).toNat ≤
        ((⟨13, 100000000⟩ : Calculator).countRequestBytes shortRequest).toNat +
          httpOutcallRequestOverheadBytes.toNat ↔
      WithinAllowance noUris plainAgent shortRequest :=
  charged_for_sent_iff (by decide) rfl (by decide) (by decide)

theorem minted_token_exceeds_allowance :
    ¬ ∀ (parseUri : String → Except String Uri) (c : Calculator) (agent : Agent)
      (req : CanisterHttpRequestArgument) (outcall : Outcall), c.subnetSize ≠ 0 →
        buildRequest parseUri agent req = .ok outcall → Addressable req →
        Addressable outcall.request →
        (c.countRequestBytes outcall.request).toNat ≤
          (c.countRequestBytes req).toNat + httpOutcallRequestOverheadBytes.toNat := by
  intro claim
  have covered := claim noUris ⟨13, 100000000⟩ namedAgent shortRequest (sentBy namedAgent)
    (by decide) rfl (by decide) (by decide +kernel)
  revert covered
  decide +kernel

end SentBytes
