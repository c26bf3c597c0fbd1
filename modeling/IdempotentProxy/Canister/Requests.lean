import IdempotentProxy.Foundations.Prefixes
import IdempotentProxy.Types.Headers
import IdempotentProxy.Canister.Calculator
import IdempotentProxy.Canister.ProxyTokens

/-!
`Agent::build_request`: how a caller's request becomes the outcall to an agent's
proxy, and the headers the proxy then sees. The parser of `http::Uri` is a parameter.
-/
namespace AgentRequests
open CycleCosts Prefixes
open HttpHeaders (HeaderMap utf8)
open ProxyTokens (Agent)

structure Uri where
  host : Option String
  pathAndQuery : Option String

/-- The rewritten request, and the name of its transform function. -/
structure Outcall where
  request : CanisterHttpRequestArgument
  transform : String

def hasHeader (headers : List HttpHeader) (name : String) : Bool :=
  headers.any fun h => h.name = name

variable (parseUri : String → Except String Uri)

/-- The URL on the agent's endpoint, and the header that keeps the target's host. -/
def rewriteUrl (agent : Agent) (url : String) : Except String (String × List HttpHeader) :=
  if startsWith url "URL_" then .ok (agent.endpoint ++ "/" ++ url, [])
  else
    match parseUri url with
    | .error err => .error ("parse url " ++ url ++ " error: " ++ err)
    | .ok uri =>
        match uri.host with
        | none => .error ("url host is empty: " ++ url)
        | some host =>
            .ok (agent.endpoint ++ uri.pathAndQuery.getD "/", [⟨"x-forwarded-host", host⟩])

def responseHeaders (headers : List HttpHeader) : List HttpHeader :=
  if hasHeader headers "response-headers" then [] else [⟨"response-headers", "date"⟩]

def proxyAuthorization (agent : Agent) : List HttpHeader :=
  match agent.proxyToken with
  | some token => [⟨"proxy-authorization", "Bearer " ++ token⟩]
  | none => []

def buildRequest (agent : Agent) (req : CanisterHttpRequestArgument) : Except String Outcall :=
  if ¬ hasHeader req.headers "idempotency-key" then .error "idempotency-key header is missing"
  else do
    let (url, host) ← rewriteUrl parseUri agent req.url
    let headers := req.headers ++ host
    let headers := headers ++ responseHeaders headers
    return ⟨{ req with url := url, headers := headers ++ proxyAuthorization agent },
      "inner_transform_response"⟩

def toAsciiLowercase (s : String) : String := String.ofList (s.toList.map Char.toLower)

/-- The outcall's headers as the proxy's server reads them off the wire. -/
def received (headers : List HttpHeader) : HeaderMap :=
  headers.map fun h => (toAsciiLowercase h.name, utf8 h.value)

def Lacks (headers : List HttpHeader) (name : String) : Prop :=
  ∀ h ∈ headers, toAsciiLowercase h.name ≠ name

instance (headers : List HttpHeader) (name : String) : Decidable (Lacks headers name) :=
  inferInstanceAs (Decidable (∀ h ∈ headers, toAsciiLowercase h.name ≠ name))

section Received
variable {headers more : List HttpHeader} {name : String}

theorem received_none (absent : Lacks headers name) :
    HttpHeaders.get (received headers) name = none := by
  rw [HttpHeaders.get, Option.map_eq_none_iff, List.find?_eq_none]
  intro h mem
  obtain ⟨header, inside, rfl⟩ := List.mem_map.mp mem
  simpa using absent header inside

theorem received_append (absent : Lacks headers name) :
    HttpHeaders.get (received (headers ++ more)) name = HttpHeaders.get (received more) name := by
  have none_found : (received headers).find? (fun h => h.1 = name) = none := by
    have nothing := received_none absent
    rwa [HttpHeaders.get, Option.map_eq_none_iff] at nothing
  rw [HttpHeaders.get, received, List.map_append, List.find?_append]
  rw [received] at none_found
  rw [none_found, Option.none_or]
  rfl

theorem received_first {h : HttpHeader} (here : toAsciiLowercase h.name = name) :
    HttpHeaders.get (received (h :: more)) name = some (utf8 h.value) := by
  simp [HttpHeaders.get, received, here]

end Received

variable {parseUri}

theorem build_request_ok {agent : Agent} {req : CanisterHttpRequestArgument} {outcall : Outcall}
    (built : buildRequest parseUri agent req = .ok outcall) :
    ∃ url host, rewriteUrl parseUri agent req.url = .ok (url, host) ∧ outcall.request.url = url ∧
      outcall.request.headers = req.headers ++ (host ++ (responseHeaders (req.headers ++ host) ++
        proxyAuthorization agent)) ∧ outcall.request.body = req.body := by
  unfold buildRequest at built
  split at built
  · cases built
  · cases rewritten : rewriteUrl parseUri agent req.url with
    | error err =>
      rw [rewritten] at built
      cases built
    | ok parts =>
      obtain ⟨url, host⟩ := parts
      rw [rewritten] at built
      cases built
      exact ⟨url, host, rfl, rfl, by simp [List.append_assoc], rfl⟩

theorem rewrite_url_host {agent : Agent} {url rewritten : String} {host : List HttpHeader}
    (done : rewriteUrl parseUri agent url = .ok (rewritten, host)) :
    ∀ h ∈ host, h.name = "x-forwarded-host" := by
  unfold rewriteUrl at done
  split at done
  · cases done
    simp
  · split at done
    · cases done
    · split at done
      · cases done
      · cases done
        simp

theorem response_headers_name (headers : List HttpHeader) :
    ∀ h ∈ responseHeaders headers, h.name = "response-headers" := by
  unfold responseHeaders
  split <;> simp

theorem lacks_named {headers : List HttpHeader} {given name : String}
    (all : ∀ h ∈ headers, h.name = given) (other : toAsciiLowercase given ≠ name) :
    Lacks headers name := by
  intro h mem
  rw [all h mem]
  exact other

theorem received_authorization {agent : Agent} {req : CanisterHttpRequestArgument}
    {outcall : Outcall} {token : String} (built : buildRequest parseUri agent req = .ok outcall)
    (own : Lacks req.headers "proxy-authorization") (minted : agent.proxyToken = some token) :
    HttpHeaders.get (received outcall.request.headers) "proxy-authorization" =
      some (utf8 ("Bearer " ++ token)) := by
  obtain ⟨url, host, rewritten, _, headers, _⟩ := build_request_ok built
  have forwarded : Lacks host "proxy-authorization" :=
    lacks_named (rewrite_url_host rewritten) (by decide)
  have filtered : Lacks (responseHeaders (req.headers ++ host)) "proxy-authorization" :=
    lacks_named (response_headers_name _) (by decide)
  rw [headers, received_append own, received_append forwarded, received_append filtered,
    proxyAuthorization, minted]
  have named : toAsciiLowercase "proxy-authorization" = "proxy-authorization" := by decide
  exact received_first named

end AgentRequests
