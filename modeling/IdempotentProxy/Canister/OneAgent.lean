import IdempotentProxy.Canister.SingleCall

/-!
With one configured agent the three endpoints differ only in how they charge
before the outcall: the sequential one takes the ingress and the request cost one
after the other, the parallel ones take the sum of the two, a wrapping `u128`.
-/
namespace OneAgent
open FixedWidth CycleCosts CanisterEndpoints SingleCall
open ProxyTokens (Agent)

variable (encode : List HttpResponse → Bytes)

/-- Reply or trap, canister state and accepted cycles are the same. -/
def Equivalent (msg : Message) (now : Nat) (state : State) (answer : Answer) : Prop :=
  ∀ first second : Endpoint,
    perform encode first msg now state [answer] = perform encode second msg now state [answer]

def parallelSum (state : State) (msg : Message) : Nat :=
  wrappingAdd 128 (ingressCharge state msg) (requestCharge state msg)

theorem resume_one_agent (account : Account) (req : CanisterHttpRequestArgument)
    (reqSize : UInt32) (agent : Agent) (outcome : Outcome) (now : Nat) (m : Machine) :
    resume encode 0 outcome now m (.all account [none]) =
        resume encode 0 outcome now m (.proxy account req reqSize agent []) ∧
      resume encode 0 outcome now m (.any account 1 [0]) =
        resume encode 0 outcome now m (.proxy account req reqSize agent []) := by
  cases outcome with
  | ok res => exact ⟨rfl, rfl⟩
  | error res => exact ⟨rfl, rfl⟩

theorem drive_one_agent (account : Account) (req : CanisterHttpRequestArgument)
    (reqSize : UInt32) (agent : Agent) (m : Machine) {answer : Answer} (only : answer.agent = 0) :
    drive encode 0 (.all account [none]) m [answer] =
        drive encode 0 (.proxy account req reqSize agent []) m [answer] ∧
      drive encode 0 (.any account 1 [0]) m [answer] =
        drive encode 0 (.proxy account req reqSize agent []) m [answer] := by
  obtain ⟨i, outcome, now, others⟩ := answer
  dsimp only at only
  subst only
  obtain ⟨all, any⟩ := resume_one_agent encode account req reqSize agent outcome now
    { m with state := others m.state }
  simp only [drive, all, any]
  exact ⟨rfl, rfl⟩

theorem sequential_ends (account : Account) (req : CanisterHttpRequestArgument)
    (reqSize : UInt32) (agent : Agent) (m : Machine) (answer : Answer) :
    ∃ res after, drive encode 0 (.proxy account req reqSize agent []) m [answer] =
      some ⟨.ok res, after, 1⟩ := by
  obtain ⟨i, outcome, now, others⟩ := answer
  cases outcome with
  | ok res =>
    obtain ⟨charged, received⟩ := receive_ignoring
      (account.calculator.httpOutcallResponseCost (account.calculator.countResponseBytes res) 1)
      { m with state := others m.state }
    exact ⟨res, account.credit now charged, by simp [drive, Call.awaits, resume, received]⟩
  | error res => exact ⟨res, account.credit now { m with state := others m.state }, rfl⟩

section
variable {msg : Message} {now : Nat} {state : State} {answer : Answer} {agent : Agent}

theorem perform_proxy (allowed : isAllowed state msg.caller = true) (one : state.agents = [agent]) :
    perform encode .proxyHttpRequest msg now state [answer] =
      if ingressCharge state msg + requestCharge state msg ≤ msg.attached then
        drive encode 0 (.proxy (account state msg) msg.req (requestSize state msg) agent [])
          (opened state msg (ingressCharge state msg + requestCharge state msg)) [answer]
      else some ⟨.error "insufficient cycles", ⟨state, msg.attached⟩, 0⟩ :=
  perform_waiting encode (start_sequential allowed one)

theorem perform_parallel (allowed : isAllowed state msg.caller = true)
    (one : state.agents = [agent]) (only : answer.agent = 0) {endpoint : Endpoint}
    (parallel : endpoint ≠ .proxyHttpRequest) :
    perform encode endpoint msg now state [answer] =
      if parallelSum state msg ≤ msg.attached then
        drive encode 0 (.proxy (account state msg) msg.req (requestSize state msg) agent [])
          (opened state msg (parallelSum state msg)) [answer]
      else some ⟨.error "insufficient cycles", ⟨state, msg.attached⟩, 0⟩ := by
  obtain ⟨all, any⟩ := drive_one_agent encode (account state msg) msg.req (requestSize state msg)
    agent (opened state msg (parallelSum state msg)) only
  obtain ⟨startAll, startAny⟩ := start_parallel now allowed one
  rw [one] at startAll startAny
  cases endpoint with
  | proxyHttpRequest => exact absurd rfl parallel
  | parallelCallAllOk =>
    rw [← all]
    exact perform_waiting encode startAll
  | parallelCallAnyOk =>
    rw [← any]
    exact perform_waiting encode startAny

theorem sum_le (state : State) (msg : Message) :
    parallelSum state msg ≤ ingressCharge state msg + requestCharge state msg :=
  Nat.mod_le _ _

theorem equivalent_iff (one : state.agents = [agent]) (only : answer.agent = 0) :
    Equivalent encode msg now state answer ↔
      isAllowed state msg.caller = false ∨
        ingressCharge state msg + requestCharge state msg < 2 ^ 128 ∨
          msg.attached < parallelSum state msg := by
  constructor
  · intro same
    by_contra differ
    obtain ⟨known, wraps, covered⟩ : ¬ isAllowed state msg.caller = false ∧
        ¬ ingressCharge state msg + requestCharge state msg < 2 ^ 128 ∧
          ¬ msg.attached < parallelSum state msg := by simpa only [not_or] using differ
    have allowed : isAllowed state msg.caller = true := by simpa using known
    have bound := msg.attached.isLt
    have equal := same .proxyHttpRequest .parallelCallAllOk
    rw [perform_proxy encode allowed one, if_neg (by omega),
      perform_parallel encode allowed one only (by decide), if_pos (by omega)] at equal
    obtain ⟨res, after, ends⟩ := sequential_ends encode (account state msg) msg.req
      (requestSize state msg) agent (opened state msg (parallelSum state msg)) answer
    rw [ends] at equal
    cases equal
  · intro condition
    suffices sequential : ∀ endpoint : Endpoint, perform encode endpoint msg now state [answer] =
        perform encode .proxyHttpRequest msg now state [answer] by
      intro first second
      rw [sequential first, sequential second]
    intro endpoint
    by_cases parallel : endpoint = .proxyHttpRequest
    · rw [parallel]
    cases allowed : isAllowed state msg.caller with
    | false => rw [perform_forbidden encode allowed, perform_forbidden encode allowed]
    | true =>
      rw [perform_parallel encode allowed one only parallel, perform_proxy encode allowed one]
      rcases condition with unknown | fits | short
      · rw [unknown] at allowed
        cases allowed
      · rw [parallelSum, wrapping_exact fits]
      · have larger := sum_le state msg
        rw [if_neg (by omega), if_neg (by omega)]

end

def caller : Principal := [1]

def oneAgent (subnetSize serviceFee : UInt64) : State :=
  ⟨[⟨"a", "https://a.example", 0, none⟩], Function.update (fun _ => none) caller (some (0, 0)),
    subnetSize, serviceFee, 0, 0⟩

def request : CanisterHttpRequestArgument :=
  ⟨"URL_A", none, [⟨"idempotency-key", "12345678"⟩], none⟩

def reply : Answer := ⟨0, .ok ⟨200, [], [1]⟩, 1, id⟩

theorem priced_call_equivalent :
    Equivalent (fun _ => []) ⟨caller, request, 9364, 300000000⟩ 0 (oneAgent 13 100000000) reply :=
  (equivalent_iff (fun _ => []) rfl rfl).mpr (Or.inr (Or.inl (by decide)))

/-- The two costs add up to 2^128: the sequential endpoint traps on a call without
    cycles, the parallel ones charge it nothing. -/
theorem wrapped_sum_differs :
    ¬ ∀ (encode : List HttpResponse → Bytes) (msg : Message) (now : Nat) (state : State)
      (agent : Agent) (answer : Answer), state.agents = [agent] → answer.agent = 0 →
        Equivalent encode msg now state answer := by
  intro claim
  have same := claim (fun _ => []) ⟨caller, request, 9364, 0⟩ 0
    (oneAgent 18446744073709551216 160000) _ reply rfl rfl .proxyHttpRequest .parallelCallAnyOk
  have replies := congrArg (Option.map fun e => e.reply.toBool) same
  revert replies
  decide

end OneAgent
