import IdempotentProxy.Canister.Requests
import IdempotentProxy.Canister.SingleCall

/-!
`Agent::call`, and `proxy_http_request` run against what `http_request` gives for
each attempt. The agent asked and the request it is handed are read off the
suspended call. `http_request`, its rejection codes and the `Uri` parser are
parameters.
-/
namespace AgentCalls
open CycleCosts CanisterEndpoints SingleCall AgentRequests
open ProxyTokens (Agent)

abbrev Http (Code : Type) := Outcall → Nat → Except (Code × String) HttpResponse

/-- One attempt's environment: the outcall, the time it comes back, and what other
    messages have done to the state by then. -/
structure Turn (Code : Type) where
  http : Http Code
  now : Nat
  others : State → State

structure Served where
  ending : End
  asked : List (Agent × CanisterHttpRequestArgument)

variable {Code : Type} (debugCode : Code → String) (parseUri : String → Except String Uri)

/-- A request that cannot be built and a status up to 500 are `Ok`. -/
def call (agent : Agent) (http : Http Code) (req : CanisterHttpRequestArgument) : Outcome :=
  match buildRequest parseUri agent req with
  | .error err => .ok ⟨400, [], err.toUTF8.toList⟩
  | .ok outcall =>
      match http outcall agent.maxCycles.toNat with
      | .ok res => if res.status ≤ 500 then .ok res else .error res
      | .error (code, message) =>
          .error ⟨503, [], ("http_request resulted into error. code: " ++ debugCode code ++
            ", error: " ++ message).toUTF8.toList⟩

variable (encode : List HttpResponse → Bytes)

def serve : List (Agent × CanisterHttpRequestArgument) → Call → Machine → List (Turn Code) →
    Option Served
  | asked, .proxy account req reqSize agent rest, m, turn :: turns =>
      let asked := asked ++ [(agent, req)]
      let before : Machine := { m with state := turn.others m.state }
      match resume encode 0 (call debugCode parseUri agent turn.http req) turn.now before
          (.proxy account req reqSize agent rest) with
      | .error text => some ⟨⟨.error text, before, asked.length⟩, asked⟩
      | .ok (after, .finished res) => some ⟨⟨.ok res, after, asked.length⟩, asked⟩
      | .ok (after, .waiting next) => serve asked next after turns
  | _, _, _, _ => none

def proxyHttpRequest (msg : Message) (now : Nat) (state : State) (turns : List (Turn Code)) :
    Option Served :=
  match start .proxyHttpRequest msg now ⟨state, msg.attached⟩ with
  | .error text => some ⟨⟨.error text, ⟨state, msg.attached⟩, 0⟩, []⟩
  | .ok (m, .finished res) => some ⟨⟨.ok res, m, 0⟩, []⟩
  | .ok (m, .waiting call) => serve debugCode parseUri encode [] call m turns

def outcomes (agents : List Agent) (turns : List (Turn Code))
    (req : CanisterHttpRequestArgument) : List Outcome :=
  List.zipWith (fun agent turn => call debugCode parseUri agent turn.http req) agents turns

/-- The call returned `res` after asking the first `tried` agents for `req`, each with
    the caller's own request, and left `paid` less than was available. -/
def Returns (agents : List Agent) (req : CanisterHttpRequestArgument) (res : HttpResponse)
    (tried paid available : Nat) (served : Option Served) : Prop :=
  ∃ s, served = some s ∧ s.ending.reply = .ok res ∧
    s.asked = (agents.take tried).map (fun agent => (agent, req)) ∧
    s.ending.machine.available + paid = available

section Serve
variable {debugCode parseUri encode} {account : Account} {req : CanisterHttpRequestArgument}
  {reqSize : UInt32} {agent : Agent} {rest : List Agent} {m : Machine} {turn : Turn Code}
  {turns : List (Turn Code)}

theorem serve_ok (asked : List (Agent × CanisterHttpRequestArgument)) {res : HttpResponse}
    (good : call debugCode parseUri agent turn.http req = .ok res)
    (enough : account.calculator.httpOutcallResponseCost
      (account.calculator.countResponseBytes res) 1 ≤ m.available) :
    ∃ s, serve debugCode parseUri encode asked (.proxy account req reqSize agent rest) m
        (turn :: turns) = some s ∧ s.ending.reply = .ok res ∧
      s.asked = asked ++ [(agent, req)] ∧
      s.ending.machine.available + account.calculator.httpOutcallResponseCost
        (account.calculator.countResponseBytes res) 1 = m.available := by
  have received := receive_enough true (m := { m with state := turn.others m.state }) enough
  refine ⟨_, by simp only [serve, good, resume, received]; rfl, rfl, rfl, ?_⟩
  exact Nat.sub_add_cancel enough

theorem serve_last_error (asked : List (Agent × CanisterHttpRequestArgument)) {res : HttpResponse}
    (bad : call debugCode parseUri agent turn.http req = .error res) :
    ∃ s, serve debugCode parseUri encode asked (.proxy account req reqSize agent []) m
        (turn :: turns) = some s ∧ s.ending.reply = .ok res ∧
      s.asked = asked ++ [(agent, req)] ∧ s.ending.machine.available = m.available :=
  ⟨_, by simp only [serve, bad, resume, nextAgent]; rfl, rfl, rfl, rfl⟩

theorem serve_error (asked : List (Agent × CanisterHttpRequestArgument)) {res : HttpResponse}
    {next : Agent} (bad : call debugCode parseUri agent turn.http req = .error res) :
    serve debugCode parseUri encode asked (.proxy account req reqSize agent (next :: rest)) m
        (turn :: turns) =
      if account.calculator.httpOutcallRequestCost reqSize 1 ≤ m.available then
        serve debugCode parseUri encode (asked ++ [(agent, req)])
          (.proxy account req reqSize next rest)
          (Machine.accept { m with state := turn.others m.state }
            (account.calculator.httpOutcallRequestCost reqSize 1)) turns
      else some ⟨⟨.error "insufficient cycles", { m with state := turn.others m.state },
        (asked ++ [(agent, req)]).length⟩, asked ++ [(agent, req)]⟩ := by
  simp only [serve, bad, resume, nextAgent]
  rw [receive_then]
  by_cases covered : account.calculator.httpOutcallRequestCost reqSize 1 ≤ m.available
  · rw [if_pos covered, if_pos covered]
    rfl
  · rw [if_neg covered, if_neg covered]

theorem serve_next (encode : List HttpResponse → Bytes)
    (asked : List (Agent × CanisterHttpRequestArgument)) {res : HttpResponse} {next : Agent}
    (bad : call debugCode parseUri agent turn.http req = .error res)
    (covered : account.calculator.httpOutcallRequestCost reqSize 1 ≤ m.available) :
    ∃ after : Machine, after.available + account.calculator.httpOutcallRequestCost reqSize 1 =
        m.available ∧
      serve debugCode parseUri encode asked (.proxy account req reqSize agent (next :: rest)) m
          (turn :: turns) =
        serve debugCode parseUri encode (asked ++ [(agent, req)])
          (.proxy account req reqSize next rest) after turns := by
  refine ⟨Machine.accept { m with state := turn.others m.state }
    (account.calculator.httpOutcallRequestCost reqSize 1), ?_, ?_⟩
  · exact Nat.sub_add_cancel covered
  · rw [serve_error asked bad, if_pos covered]

theorem serve_first_ok (encode : List HttpResponse → Bytes) (account : Account)
    (reqSize : UInt32) (asked : List (Agent × CanisterHttpRequestArgument)) {k : Nat}
    {res : HttpResponse}
    (found : (outcomes debugCode parseUri (agent :: rest) turns req)[k]? = some (.ok res))
    (before : ∀ i < k, ∃ err,
      (outcomes debugCode parseUri (agent :: rest) turns req)[i]? = some (.error err))
    (enough : k * account.calculator.httpOutcallRequestCost reqSize 1 +
      account.calculator.httpOutcallResponseCost
        (account.calculator.countResponseBytes res) 1 ≤ m.available) :
    ∃ s, serve debugCode parseUri encode asked (.proxy account req reqSize agent rest) m turns =
        some s ∧ s.ending.reply = .ok res ∧
      s.asked = asked ++ ((agent :: rest).take (k + 1)).map (fun agent => (agent, req)) ∧
      s.ending.machine.available + (k * account.calculator.httpOutcallRequestCost reqSize 1 +
        account.calculator.httpOutcallResponseCost
          (account.calculator.countResponseBytes res) 1) = m.available := by
  induction k generalizing asked agent rest m turns with
  | zero =>
    cases turns with
    | nil => simp [outcomes] at found
    | cons turn turns =>
      simp only [outcomes, List.zipWith_cons_cons, List.getElem?_cons_zero,
        Option.some.injEq] at found
      simp only [Nat.zero_mul, Nat.zero_add] at enough ⊢
      obtain ⟨s, served, reply, whom, paid⟩ := serve_ok asked found enough
      exact ⟨s, served, reply, by simpa using whom, paid⟩
  | succ k ih =>
    cases turns with
    | nil => simp [outcomes] at found
    | cons turn turns =>
      obtain ⟨err, bad⟩ := before 0 (Nat.succ_pos k)
      simp only [outcomes, List.zipWith_cons_cons, List.getElem?_cons_zero,
        Option.some.injEq] at bad
      cases rest with
      | nil => simp [outcomes] at found
      | cons next rest =>
        rw [Nat.add_mul, Nat.one_mul] at enough
        have later : ∀ i < k, ∃ err,
            (outcomes debugCode parseUri (next :: rest) turns req)[i]? = some (.error err) := by
          intro i bound
          simpa [outcomes] using before (i + 1) (by omega)
        have covered : account.calculator.httpOutcallRequestCost reqSize 1 ≤ m.available := by
          omega
        obtain ⟨after, left, moved⟩ := serve_next encode asked bad covered
        obtain ⟨s, served, reply, whom, paid⟩ := ih (m := after) (asked ++ [(agent, req)])
          (by simpa [outcomes] using found) later (by omega)
        refine ⟨s, moved.trans served, reply, ?_, ?_⟩
        · rw [whom]
          simp
        · rw [Nat.add_mul, Nat.one_mul]
          omega

theorem serve_all_fail (encode : List HttpResponse → Bytes) (account : Account)
    (reqSize : UInt32) (asked : List (Agent × CanisterHttpRequestArgument)) {res : HttpResponse}
    (count : turns.length = rest.length + 1)
    (failed : ∀ o ∈ outcomes debugCode parseUri (agent :: rest) turns req, ∃ err, o = .error err)
    (last : (outcomes debugCode parseUri (agent :: rest) turns req).getLast? = some (.error res))
    (enough : rest.length * account.calculator.httpOutcallRequestCost reqSize 1 ≤ m.available) :
    ∃ s, serve debugCode parseUri encode asked (.proxy account req reqSize agent rest) m turns =
        some s ∧ s.ending.reply = .ok res ∧
      s.asked = asked ++ (agent :: rest).map (fun agent => (agent, req)) ∧
      s.ending.machine.available +
        rest.length * account.calculator.httpOutcallRequestCost reqSize 1 = m.available := by
  induction rest generalizing asked agent m turns with
  | nil =>
    obtain ⟨turn, rfl⟩ := List.length_eq_one_iff.mp count
    simp only [outcomes, List.zipWith_cons_cons, List.zipWith_nil_left, List.getLast?_singleton,
      Option.some.injEq] at last
    obtain ⟨s, served, reply, whom, paid⟩ := serve_last_error asked last
    exact ⟨s, served, reply, whom, by simpa using paid⟩
  | cons next rest ih =>
    cases turns with
    | nil => simp at count
    | cons turn turns =>
      have remaining : turns.length = rest.length + 1 := by simpa using count
      obtain ⟨err, bad⟩ := failed (call debugCode parseUri agent turn.http req) (by simp [outcomes])
      rw [List.length_cons, Nat.add_mul, Nat.one_mul] at enough
      have later : ∀ o ∈ outcomes debugCode parseUri (next :: rest) turns req,
          ∃ err, o = .error err := by
        intro o mem
        exact failed o (List.mem_cons_of_mem _ mem)
      have nonempty : outcomes debugCode parseUri (next :: rest) turns req ≠ [] := by
        intro none
        have length := congrArg List.length none
        simp [outcomes, remaining] at length
      have still : (outcomes debugCode parseUri (next :: rest) turns req).getLast? =
          some (.error res) := by
        rw [← last]
        exact (List.getLast?_cons_of_ne_nil nonempty).symm
      have covered : account.calculator.httpOutcallRequestCost reqSize 1 ≤ m.available := by
        omega
      obtain ⟨after, left, moved⟩ := serve_next encode asked bad covered
      obtain ⟨s, served, reply, whom, paid⟩ := ih (m := after) (asked ++ [(agent, req)])
        remaining later still (by omega)
      refine ⟨s, moved.trans served, reply, ?_, ?_⟩
      · rw [whom]
        simp
      · rw [List.length_cons, Nat.add_mul, Nat.one_mul]
        omega

theorem serve_trap {asked : List (Agent × CanisterHttpRequestArgument)} {call : Call} {s : Served}
    {text : String} (served : serve debugCode parseUri encode asked call m turns = some s)
    (trapped : s.ending.reply = .error text) : text = "insufficient cycles" := by
  induction turns generalizing asked call m with
  | nil => cases call <;> cases served
  | cons turn turns ih =>
    cases call with
    | all | any => cases served
    | proxy account req reqSize agent rest =>
      cases outcome : AgentCalls.call debugCode parseUri agent turn.http req with
      | ok res =>
        obtain ⟨charged, received⟩ := receive_ignoring
          (account.calculator.httpOutcallResponseCost
            (account.calculator.countResponseBytes res) 1)
          { m with state := turn.others m.state }
        simp only [serve, outcome, resume, received] at served
        cases served
        cases trapped
      | error res =>
        cases rest with
        | nil =>
          simp only [serve, outcome, resume, nextAgent] at served
          cases served
          cases trapped
        | cons next rest =>
          rw [serve_error asked outcome] at served
          split at served
          · exact ih served
          · cases served
            cases trapped
            rfl

end Serve

def FirstOk (outcomes : List Outcome) (k : Nat) (res : HttpResponse) : Prop :=
  outcomes[k]? = some (.ok res) ∧ ∀ i < k, ∃ err, outcomes[i]? = some (.error err)

def AllFail (outcomes : List Outcome) (res : HttpResponse) : Prop :=
  (∀ o ∈ outcomes, ∃ err, o = .error err) ∧ outcomes.getLast? = some (.error res)

def responseCharge (state : State) (res : HttpResponse) : Nat :=
  let calculator := cyclesCalculator state
  calculator.httpOutcallResponseCost (calculator.countResponseBytes res) 1

/-- The agents are asked in order for the caller's own request, up to the first whose
    call is `Ok`, and the charge is for these requests and that response. If all fail
    the last error is returned and the requests are charged. A trap is always one for
    cycles. -/
theorem sequential_failover {msg : Message} {now : Nat} {state : State}
    {turns : List (Turn Code)} (some_agents : state.agents ≠ [])
    (allowed : isAllowed state msg.caller = true) (count : turns.length = state.agents.length) :
    (∀ k res, FirstOk (outcomes debugCode parseUri state.agents turns msg.req) k res →
      ingressCharge state msg + (k + 1) * requestCharge state msg + responseCharge state res ≤
        msg.attached →
      Returns state.agents msg.req res (k + 1)
        (ingressCharge state msg + (k + 1) * requestCharge state msg + responseCharge state res)
        msg.attached (proxyHttpRequest debugCode parseUri encode msg now state turns)) ∧
    (∀ res, AllFail (outcomes debugCode parseUri state.agents turns msg.req) res →
      ingressCharge state msg + state.agents.length * requestCharge state msg ≤ msg.attached →
      Returns state.agents msg.req res state.agents.length
        (ingressCharge state msg + state.agents.length * requestCharge state msg)
        msg.attached (proxyHttpRequest debugCode parseUri encode msg now state turns)) ∧
    ∀ s text, proxyHttpRequest debugCode parseUri encode msg now state turns = some s →
      s.ending.reply = .error text → text = "insufficient cycles" := by
  obtain ⟨agent, rest, agents⟩ := List.exists_cons_of_ne_nil some_agents
  have first : start .proxyHttpRequest msg now ⟨state, msg.attached⟩ =
      if ingressCharge state msg + requestCharge state msg ≤ msg.attached then
        .ok (opened state msg (ingressCharge state msg + requestCharge state msg),
          .waiting (.proxy (account state msg) msg.req (requestSize state msg) agent rest))
      else .error "insufficient cycles" := start_sequential allowed agents
  have opening : ingressCharge state msg + requestCharge state msg ≤ msg.attached →
      proxyHttpRequest debugCode parseUri encode msg now state turns =
        serve debugCode parseUri encode []
          (.proxy (account state msg) msg.req (requestSize state msg) agent rest)
          (opened state msg (ingressCharge state msg + requestCharge state msg)) turns := by
    intro covered
    rw [proxyHttpRequest, first, if_pos covered]
  have left : (opened state msg (ingressCharge state msg + requestCharge state msg)).available =
      msg.attached - (ingressCharge state msg + requestCharge state msg) := rfl
  have request : (account state msg).calculator.httpOutcallRequestCost (requestSize state msg) 1 =
      requestCharge state msg := rfl
  refine ⟨?_, ?_, ?_⟩
  · intro k res firstOk enough
    rw [agents] at firstOk
    rw [Nat.add_mul, Nat.one_mul] at enough ⊢
    have response : (account state msg).calculator.httpOutcallResponseCost
        ((account state msg).calculator.countResponseBytes res) 1 = responseCharge state res := rfl
    obtain ⟨s, served, reply, whom, paid⟩ := serve_first_ok encode (account state msg)
      (requestSize state msg)
      (m := opened state msg (ingressCharge state msg + requestCharge state msg)) []
      firstOk.1 firstOk.2 (by rw [request, response, left]; omega)
    rw [request, response, left] at paid
    refine ⟨s, ?_, reply, by rw [whom, agents, List.nil_append], by omega⟩
    rw [opening (by omega), served]
  · intro res fail enough
    rw [agents] at fail count
    rw [agents, List.length_cons, Nat.add_mul, Nat.one_mul] at enough ⊢
    obtain ⟨s, served, reply, whom, paid⟩ := serve_all_fail encode (account state msg)
      (requestSize state msg)
      (m := opened state msg (ingressCharge state msg + requestCharge state msg)) []
      count fail.1 fail.2 (by rw [request, left]; omega)
    rw [request, left] at paid
    refine ⟨s, ?_, reply, ?_, by omega⟩
    · rw [opening (by omega), served]
    · rw [whom, List.nil_append, List.take_of_length_le (by simp)]
  · intro s text served trapped
    by_cases covered : ingressCharge state msg + requestCharge state msg ≤ msg.attached
    · rw [opening covered] at served
      exact serve_trap served trapped
    · rw [proxyHttpRequest, first, if_neg covered] at served
      cases served
      cases trapped
      rfl

def caller : Principal := [1]

def twoAgents : State :=
  ⟨[⟨"a", "https://a.example", 0, none⟩, ⟨"b", "https://b.example", 0, none⟩],
    Function.update (fun _ => none) caller (some (0, 0)), 13, 100000000, 0, 0⟩

def message : Message :=
  ⟨caller, ⟨"URL_A", none, [⟨"idempotency-key", "k1"⟩], none⟩, 200, 500000000⟩

def secondAnswers : List (Turn Nat) :=
  [⟨fun _ _ => .ok ⟨502, [], []⟩, 1, id⟩, ⟨fun _ _ => .ok ⟨200, [], [1, 2, 3]⟩, 2, id⟩]

def noUris (_ : String) : Except String Uri := .error "unused"

theorem second_agent_serves :
    Returns twoAgents.agents message.req ⟨200, [], [1, 2, 3]⟩ 2
      (ingressCharge twoAgents message + 2 * requestCharge twoAgents message +
        responseCharge twoAgents ⟨200, [], [1, 2, 3]⟩) message.attached
      (proxyHttpRequest Nat.repr noUris (fun _ => []) message 0 twoAgents secondAnswers) := by
  refine (sequential_failover Nat.repr noUris (fun _ => []) (by decide) (by decide) rfl).1 1 _
    ⟨by decide, ?_⟩ (by decide)
  intro i first
  have zero : i = 0 := by omega
  subst zero
  exact ⟨_, rfl⟩

end AgentCalls
