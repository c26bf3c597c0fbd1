import IdempotentProxy.Canister.AgentCalls
import IdempotentProxy.Canister.TargetUrl
import IdempotentProxy.Server.SentUpstream

/-!
A failover is not seen upstream. `proxy_http_request` asks one agent after the other, each
through its own proxy with its own endpoint and token; the servers behind them, where they
know the same constants, send the upstream one and the same message.
-/
namespace AskedAlike
open AgentCalls AgentRequests SentUpstream
open CanisterEndpoints (Call Machine Message Outcome)
open CycleCosts (CanisterHttpRequestArgument HttpHeader HttpResponse)
open HttpHeaders (HeaderMap extractHeader getAll)
open ProxyTokens (Agent)
open TargetUrl (Origin arrival inAuthority onWire wireTarget)

def incoming (method : String) (request : CanisterHttpRequestArgument) : Option Incoming :=
  (arrival method request).map fun req => { req with body := .ok (request.body.getD []) }

theorem incoming_some {method : String} {request : CanisterHttpRequestArgument} {got : Incoming}
    (routed : incoming method request = some got) :
    got = { onWire method request with body := .ok (request.body.getD []) } := by
  obtain ⟨arrived, handled, same⟩ := Option.map_eq_some_iff.mp routed
  obtain ⟨_, wired⟩ := AccessControl.route_some_iff.mp handled
  rw [← same, wired]

section Asked
variable {Code : Type} {debugCode : Code → String} {parseUri : String → Except String Uri}
  {encode : List HttpResponse → CycleCosts.Bytes}

def Ahead (agents : List Agent) (req : CanisterHttpRequestArgument) : Call → Prop
  | .proxy _ asked _ agent rest => asked = req ∧ agent ∈ agents ∧ ∀ a ∈ rest, a ∈ agents
  | _ => True

theorem serve_asked {agents : List Agent} {req : CanisterHttpRequestArgument}
    {asked : List (Agent × CanisterHttpRequestArgument)} {call : Call} {m : Machine}
    {turns : List (Turn Code)} {s : Served}
    (served : serve debugCode parseUri encode asked call m turns = some s)
    (ahead : Ahead agents req call) (before : ∀ p ∈ asked, p.1 ∈ agents ∧ p.2 = req) :
    ∀ p ∈ s.asked, p.1 ∈ agents ∧ p.2 = req := by
  induction turns generalizing asked call m with
  | nil => cases call <;> cases served
  | cons turn turns ih =>
    cases call with
    | all | any => cases served
    | proxy account sent reqSize agent rest =>
      obtain ⟨same, listed, others⟩ := ahead
      subst same
      have longer : ∀ p ∈ asked ++ [(agent, sent)], p.1 ∈ agents ∧ p.2 = sent := by
        intro p mem
        rcases List.mem_append.mp mem with old | new
        · exact before p old
        · rw [List.mem_singleton.mp new]
          exact ⟨listed, rfl⟩
      cases outcome : AgentCalls.call debugCode parseUri agent turn.http sent with
      | ok res =>
        obtain ⟨charged, received⟩ := CanisterEndpoints.receive_ignoring
          (account.calculator.httpOutcallResponseCost
            (account.calculator.countResponseBytes res) 1)
          { m with state := turn.others m.state }
        simp only [serve, outcome, CanisterEndpoints.resume, received] at served
        cases served
        exact longer
      | error res =>
        cases rest with
        | nil =>
          simp only [serve, outcome, CanisterEndpoints.resume, CanisterEndpoints.nextAgent] at served
          cases served
          exact longer
        | cons next rest =>
          rw [serve_error asked outcome] at served
          split at served
          · have onwards : Ahead agents sent (.proxy account sent reqSize next rest) :=
              ⟨rfl, others next List.mem_cons_self, fun a mem => others a (List.mem_cons_of_mem _ mem)⟩
            exact ih served onwards longer
          · cases served
            exact longer

theorem started_ahead {msg : Message} {now : Nat} {m n : Machine} {call : Call}
    (begun : CanisterEndpoints.start .proxyHttpRequest msg now m = .ok (n, .waiting call)) :
    Ahead m.state.agents msg.req call := by
  unfold CanisterEndpoints.start at begun
  split at begun
  · cases begun
  · split at begun
    · cases begun
    · dsimp only at begun
      obtain ⟨charged, _, tried⟩ := Results.bind_ok_iff.mp begun
      cases agents : m.state.agents with
      | nil =>
        rw [agents] at tried
        cases tried
      | cons agent rest =>
        rw [agents] at tried
        obtain ⟨_, _, waits⟩ := Results.bind_ok_iff.mp tried
        cases waits
        exact ⟨rfl, List.mem_cons_self, fun a mem => List.mem_cons_of_mem _ mem⟩

theorem asked_agents {msg : Message} {now : Nat} {state : CanisterEndpoints.State}
    {turns : List (Turn Code)} {s : Served}
    (served : proxyHttpRequest debugCode parseUri encode msg now state turns = some s) :
    ∀ p ∈ s.asked, p.1 ∈ state.agents ∧ p.2 = msg.req := by
  unfold proxyHttpRequest at served
  split at served
  · cases served
    simp
  · cases served
    simp
  · rename_i m call begun
    exact serve_asked served (started_ahead begun) (by simp)

end Asked

section Built
variable {parseUri : String → Except String Uri} {agent agent' : Agent}
  {req : CanisterHttpRequestArgument} {outcall outcall' : Outcall}

def rewriteTarget (parseUri : String → Except String Uri) (url : String) :
    Except String (String × List HttpHeader) :=
  if Prefixes.startsWith url "URL_" then .ok ("/" ++ url, [])
  else
    match parseUri url with
    | .error err => .error ("parse url " ++ url ++ " error: " ++ err)
    | .ok uri =>
        match uri.host with
        | none => .error ("url host is empty: " ++ url)
        | some host => .ok (uri.pathAndQuery.getD "/", [⟨"x-forwarded-host", host⟩])

theorem rewrite_url_eq (agent : Agent) (url : String) :
    rewriteUrl parseUri agent url =
      (rewriteTarget parseUri url).map fun parts => (agent.endpoint ++ parts.1, parts.2) := by
  unfold rewriteUrl rewriteTarget
  split
  · simp only [Except.map, String.append_assoc]
  · cases parseUri url with
    | error err => rfl
    | ok uri =>
      cases named : uri.host with
      | none => simp only [named, Except.map]
      | some host => simp only [named, Except.map]

theorem wire_target_behind {endpoint : String} (origin : Origin endpoint) (rest : String) :
    wireTarget (endpoint ++ rest) = rest.toList.dropWhile inAuthority := by
  obtain ⟨scheme, authority, written, plain, all⟩ := origin
  have colon : ∀ c ∈ scheme, decide (c ≠ ':') = true := by
    intro c mem
    simpa using fun same : c = ':' => plain (same ▸ mem)
  have stop : "://".toList ++ authority ++ rest.toList = [] ∨ ∃ y ys,
      "://".toList ++ authority ++ rest.toList = y :: ys ∧ decide (y ≠ ':') = false :=
    Or.inr ⟨':', '/' :: '/' :: (authority ++ rest.toList), by simp, by decide⟩
  obtain ⟨_, dropped⟩ := TargetUrl.while_append colon stop
  rw [wireTarget, String.toList_append, written, List.append_assoc, dropped]
  exact List.dropWhile_append_of_pos all

theorem received_authorized {name : String} (other : name ≠ "proxy-authorization")
    (headers : List HttpHeader) (agent : Agent) :
    getAll (received (headers ++ proxyAuthorization agent)) name = getAll (received headers) name := by
  rw [received, List.map_append, HttpHeaders.get_all_append]
  have nothing : getAll ((proxyAuthorization agent).map fun h =>
      (toAsciiLowercase h.name, HttpHeaders.utf8 h.value)) name = [] := by
    refine HttpHeaders.get_all_none fun h mem => ?_
    obtain ⟨header, inside, rfl⟩ := List.mem_map.mp mem
    have named : header.name = "proxy-authorization" := by
      unfold proxyAuthorization at inside
      split at inside
      · rw [List.mem_singleton.mp inside]
      · cases inside
    have lower : toAsciiLowercase "proxy-authorization" = "proxy-authorization" := by decide
    rw [named, lower]
    exact other.symm
  rw [nothing, List.append_nil]
  rfl

/-- Two agents make the same of a request, but for the endpoint and the token. -/
theorem built_alike (origin : Origin agent.endpoint) (origin' : Origin agent'.endpoint)
    (built : buildRequest parseUri agent req = .ok outcall)
    (built' : buildRequest parseUri agent' req = .ok outcall') {method : String}
    {got got' : Incoming} (routed : incoming method outcall.request = some got)
    (routed' : incoming method outcall'.request = some got') : AskTheSame got got' := by
  rw [incoming_some routed, incoming_some routed']
  obtain ⟨url, host, rewritten, written, headers, body⟩ := build_request_ok built
  obtain ⟨url', host', rewritten', written', headers', body'⟩ := build_request_ok built'
  rw [rewrite_url_eq] at rewritten rewritten'
  obtain ⟨parts, target, same⟩ := Results.map_ok_iff.mp rewritten
  obtain ⟨parts', target', same'⟩ := Results.map_ok_iff.mp rewritten'
  rw [target] at target'
  cases target'
  cases same
  cases same'
  have wired : wireTarget outcall.request.url = wireTarget outcall'.request.url := by
    rw [written, written', wire_target_behind origin, wire_target_behind origin']
  have all : ∀ name ≠ "proxy-authorization", getAll (received outcall.request.headers) name =
      getAll (received outcall'.request.headers) name := by
    intro name other
    rw [headers, headers', ← List.append_assoc, ← List.append_assoc, ← List.append_assoc,
      ← List.append_assoc, received_authorized other, received_authorized other]
  refine ⟨rfl, ?_, ?_, ?_, ?_, ?_⟩
  · simp only [onWire, wired]
  · simp only [onWire, wired]
  · have first : HttpHeaders.get (received outcall.request.headers) "x-forwarded-host" =
        HttpHeaders.get (received outcall'.request.headers) "x-forwarded-host" := by
      rw [HttpHeaders.get_eq_head, HttpHeaders.get_eq_head, all _ (by decide)]
    simp only [onWire, extractHeader, first]
  · intro name kept
    refine all name fun same => kept ?_
    rw [same]
    decide
  · simp only [body, body']

end Built

/-- Whichever agents a run of `proxy_http_request` comes to ask, and however long after one
    another, the upstream is sent one message. -/
theorem failover_unseen {Code : Type} {debugCode : Code → String}
    {parseUri : String → Except String Uri} {encode : List HttpResponse → CycleCosts.Bytes}
    {msg : Message} {now : Nat} {state : CanisterEndpoints.State} {turns : List (Turn Code)}
    {s : Served} {libs : AccessControl.Libraries} {server server' : ServerState libs}
    {agent agent' : Agent} {req req' : CanisterHttpRequestArgument} {outcall outcall' : Outcall}
    {method : String} {got got' : Incoming} {unixMs unixMs' : UInt64} {out out' : Outgoing libs}
    (origins : ∀ a ∈ state.agents, Origin a.endpoint) (constants : SameConstants server server')
    (served : proxyHttpRequest debugCode parseUri encode msg now state turns = some s)
    (asked : (agent, req) ∈ s.asked) (asked' : (agent', req') ∈ s.asked)
    (built : buildRequest parseUri agent req = .ok outcall)
    (built' : buildRequest parseUri agent' req' = .ok outcall')
    (routed : incoming method outcall.request = some got)
    (routed' : incoming method outcall'.request = some got')
    (sent : forward server got unixMs = .ok out)
    (sent' : forward server' got' unixMs' = .ok out') : SameMessage out out' := by
  obtain ⟨listed, same⟩ := asked_agents served _ asked
  obtain ⟨listed', same'⟩ := asked_agents served _ asked'
  dsimp only at listed same listed' same'
  subst same
  subst same'
  exact forward_alike constants
    (built_alike (origins _ listed) (origins _ listed') built built' routed routed') sent sent'

section Sample

def sampleAgents : List Agent :=
  [⟨"a", "https://a.example", 0, none⟩, ⟨"b", "https://b.example:8443", 0, some "t"⟩]

def sampleState : CanisterEndpoints.State := { AgentCalls.twoAgents with agents := sampleAgents }

def sampleMessage : Message :=
  ⟨AgentCalls.caller, TargetUrl.asking "https://httpbin.org/get?a=1", 200, 500000000⟩

def sampleOutcall (endpoint : String) (token : List HttpHeader) : Outcall :=
  ⟨⟨endpoint ++ "/get?a=1", none, [⟨"idempotency-key", "k1"⟩, ⟨"x-forwarded-host", "httpbin.org"⟩,
    ⟨"response-headers", "date"⟩] ++ token, none⟩, "inner_transform_response"⟩

theorem sample_origins : ∀ a ∈ sampleState.agents, Origin a.endpoint := by
  intro a mem
  rcases List.mem_cons.mp mem with rfl | rest
  · exact ⟨"https".toList, "a.example".toList, by decide, by decide,
      List.all_eq_true.mp (by decide)⟩
  · rw [List.mem_singleton.mp rest]
    exact ⟨"https".toList, "b.example:8443".toList, by decide, by decide,
      List.all_eq_true.mp (by decide)⟩

def sampleSent (token : List HttpHeader) (endpoint : String) :
    Outgoing AccessControl.sampleLibraries where
  method := "GET"
  url := "https://httpbin.org/get?a=1"
  headers := alterHeaders sampleServer.headerVars
    (received (sampleOutcall endpoint token).request.headers)
  body := none

theorem sample_sent (token : List HttpHeader) (endpoint : String)
    (known : (endpoint, token) = ("https://a.example", []) ∨ (endpoint, token) =
      ("https://b.example:8443", [⟨"proxy-authorization", "Bearer t"⟩])) (unixMs : UInt64) :
    ∃ got, incoming "GET" (sampleOutcall endpoint token).request = some got ∧
      forward sampleServer got unixMs = .ok (sampleSent token endpoint) := by
  rcases known with same | same
  · cases same
    exact ⟨_, by rfl, by rfl⟩
  · cases same
    exact ⟨_, by rfl, by rfl⟩

/-- The first agent's proxy answers 502, the second is asked. -/
theorem sample_failover_unseen :
    SameMessage (sampleSent [] "https://a.example")
      (sampleSent [⟨"proxy-authorization", "Bearer t"⟩] "https://b.example:8443") := by
  have seen : (proxyHttpRequest Nat.repr TargetUrl.splitter (fun _ => []) sampleMessage 0 sampleState
      AgentCalls.secondAnswers).map (fun s => s.asked) =
        some (sampleAgents.map fun agent => (agent, sampleMessage.req)) := by decide +kernel
  obtain ⟨s, served, asked⟩ := Option.map_eq_some_iff.mp seen
  have constants : SameConstants sampleServer sampleServer := ⟨fun _ => rfl, fun _ => rfl⟩
  have first : (⟨"a", "https://a.example", 0, none⟩, sampleMessage.req) ∈ s.asked := by
    rw [asked]
    exact List.mem_cons_self
  have second : (⟨"b", "https://b.example:8443", 0, some "t"⟩, sampleMessage.req) ∈ s.asked := by
    rw [asked]
    exact List.mem_cons_of_mem _ List.mem_cons_self
  have built : buildRequest TargetUrl.splitter ⟨"a", "https://a.example", 0, none⟩
      sampleMessage.req = .ok (sampleOutcall "https://a.example" []) := by rfl
  have built' : buildRequest TargetUrl.splitter ⟨"b", "https://b.example:8443", 0, some "t"⟩
      sampleMessage.req = .ok (sampleOutcall "https://b.example:8443"
        [⟨"proxy-authorization", "Bearer t"⟩]) := by rfl
  obtain ⟨_, routed, sent⟩ := sample_sent _ _ (Or.inl rfl) 0
  obtain ⟨_, routed', sent'⟩ := sample_sent _ _ (Or.inr rfl) 1
  exact failover_unseen sample_origins constants served first second built built' routed routed'
    sent sent'

end Sample
end AskedAlike
