import IdempotentProxy.Canister.SingleCall

/-!
`proxy_http_request_cost` against `proxy_http_request`: the quote prices one
attempt and one response, the endpoint charges every attempt, and the response is
charged last, from what is left.
-/
namespace SequentialQuote
open FixedWidth CycleCosts CanisterEndpoints SingleCall
open ProxyTokens (Agent)

/-- The response part of the quote; `as usize` keeps 32 bits. -/
def responseQuote (state : State) (msg : Message) : Nat :=
  (cyclesCalculator state).httpOutcallResponseCost
    (msg.req.maxResponseBytes.getD 10240).toUInt32 1

def proxyHttpRequestCost (state : State) (msg : Message) : Nat :=
  wrappingAdd 128 (wrappingAdd 128 (ingressCharge state msg) (requestCharge state msg))
    (responseQuote state msg)

def attempts : List Answer → Nat
  | [] => 0
  | answer :: rest =>
      match answer.outcome with
      | .ok _ => 1
      | .error _ => attempts rest + 1

/-- The first Ok response, else the last error. -/
def expected : List Answer → Option HttpResponse
  | [] => none
  | answer :: rest =>
      match answer.outcome with
      | .ok res => some res
      | .error res => if rest.isEmpty then some res else expected rest

/-- The call, having taken `taken` answers before these, returns that response and
    asks the agents up to the one it came from. -/
def ServesFrom (taken : Nat) (answers : List Answer) (ending : Option End) : Prop :=
  ∃ e res, ending = some e ∧ e.reply = .ok res ∧ expected answers = some res ∧
    e.taken = taken + attempts answers

def Serves (answers : List Answer) (ending : Option End) : Prop := ServesFrom 0 answers ending

variable (encode : List HttpResponse → Bytes)

theorem attempts_positive {answers : List Answer} (some : answers ≠ []) : 1 ≤ attempts answers := by
  cases answers with
  | nil => exact absurd rfl some
  | cons answer rest =>
    simp only [attempts]
    split <;> omega

theorem drive_ok (taken : Nat) (account : Account) (req : CanisterHttpRequestArgument)
    (reqSize : UInt32) (agent : Agent) (rest : List Agent) (m : Machine) {answer : Answer}
    {others : List Answer} {res : HttpResponse} (good : answer.outcome = .ok res) :
    ∃ after, drive encode taken (.proxy account req reqSize agent rest) m (answer :: others) =
      some ⟨.ok res, after, taken + 1⟩ := by
  obtain ⟨charged, received⟩ := receive_ignoring
    (account.calculator.httpOutcallResponseCost (account.calculator.countResponseBytes res) 1)
    { m with state := answer.others m.state }
  exact ⟨account.credit answer.now charged, by simp [drive, Call.awaits, resume, good, received]⟩

theorem drive_last_error (taken : Nat) (account : Account) (req : CanisterHttpRequestArgument)
    (reqSize : UInt32) (agent : Agent) (m : Machine) {answer : Answer} {others : List Answer}
    {res : HttpResponse} (bad : answer.outcome = .error res) :
    ∃ after, drive encode taken (.proxy account req reqSize agent []) m (answer :: others) =
      some ⟨.ok res, after, taken + 1⟩ :=
  ⟨account.credit answer.now { m with state := answer.others m.state },
    by simp [drive, Call.awaits, resume, nextAgent, bad]⟩

theorem drive_error (taken : Nat) (account : Account) (req : CanisterHttpRequestArgument)
    (reqSize : UInt32) (agent next : Agent) (rest : List Agent) (m : Machine) {answer : Answer}
    {others : List Answer} {res : HttpResponse} (bad : answer.outcome = .error res) :
    drive encode taken (.proxy account req reqSize agent (next :: rest)) m (answer :: others) =
      if account.calculator.httpOutcallRequestCost reqSize 1 ≤ m.available then
        drive encode (taken + 1) (.proxy account req reqSize next rest)
          (Machine.accept { m with state := answer.others m.state }
            (account.calculator.httpOutcallRequestCost reqSize 1)) others
      else some ⟨.error "insufficient cycles", { m with state := answer.others m.state },
        taken + 1⟩ := by
  simp only [drive, Call.awaits, resume, nextAgent, bad, ↓reduceIte]
  rw [receive_then]
  by_cases covered : account.calculator.httpOutcallRequestCost reqSize 1 ≤ m.available
  · rw [if_pos covered, if_pos covered]
    rfl
  · rw [if_neg covered, if_neg covered]

theorem serves_after_error {taken : Nat} {answer : Answer} {others : List Answer}
    {ending : Option End} {res : HttpResponse} (bad : answer.outcome = .error res)
    (more : others ≠ []) :
    ServesFrom taken (answer :: others) ending ↔ ServesFrom (taken + 1) others ending := by
  have nonempty : others.isEmpty = false := by simpa using more
  simp only [ServesFrom, expected, attempts, bad, nonempty, Bool.false_eq_true, ↓reduceIte,
    Nat.add_assoc, Nat.add_comm 1]

theorem not_serves_error {taken : Nat} {answers : List Answer} {text : String} {m : Machine}
    {n : Nat} : ¬ ServesFrom taken answers (some ⟨.error text, m, n⟩) := by
  rintro ⟨e, res, same, reply, _⟩
  cases same
  cases reply

theorem drive_serves_iff (account : Account) (req : CanisterHttpRequestArgument)
    (reqSize : UInt32) (agent : Agent) (rest : List Agent) (m : Machine) (taken : Nat)
    {answers : List Answer} (length : answers.length = rest.length + 1) :
    ServesFrom taken answers
        (drive encode taken (.proxy account req reqSize agent rest) m answers) ↔
      (attempts answers - 1) * account.calculator.httpOutcallRequestCost reqSize 1 ≤
        m.available := by
  induction rest generalizing agent m taken answers with
  | nil =>
    obtain ⟨answer, rfl⟩ := List.length_eq_one_iff.mp length
    cases outcome : answer.outcome with
    | ok res =>
      obtain ⟨after, ends⟩ := drive_ok encode taken account req reqSize agent [] m outcome
      rw [ends]
      exact iff_of_true ⟨_, res, rfl, rfl, by simp [expected, outcome], by simp [attempts, outcome]⟩
        (by simp [attempts, outcome])
    | error res =>
      obtain ⟨after, ends⟩ := drive_last_error encode taken account req reqSize agent m
        outcome
      rw [ends]
      exact iff_of_true ⟨_, res, rfl, rfl, by simp [expected, outcome], by simp [attempts, outcome]⟩
        (by simp [attempts, outcome])
  | cons next rest ih =>
    cases answers with
    | nil => simp at length
    | cons answer others =>
      have remaining : others.length = rest.length + 1 := by simpa using length
      have more : others ≠ [] := by
        intro none
        simp [none] at remaining
      cases outcome : answer.outcome with
      | ok res =>
        obtain ⟨after, ends⟩ := drive_ok encode taken account req reqSize agent (next :: rest) m
          outcome
        rw [ends]
        exact iff_of_true ⟨_, res, rfl, rfl, by simp [expected, outcome],
          by simp [attempts, outcome]⟩ (by simp [attempts, outcome])
      | error res =>
        have positive := attempts_positive more
        have tried : attempts (answer :: others) - 1 = (attempts others - 1) + 1 := by
          simp only [attempts, outcome]
          omega
        rw [drive_error encode taken account req reqSize agent next rest m outcome,
          serves_after_error outcome more, tried, Nat.add_mul, Nat.one_mul]
        by_cases covered : account.calculator.httpOutcallRequestCost reqSize 1 ≤ m.available
        · rw [if_pos covered, ih next _ (taken + 1) remaining]
          exact Nat.le_sub_iff_add_le covered
        · rw [if_neg covered]
          exact iff_of_false not_serves_error (by omega)

/-- An attached quote serves a registered caller whose retries fit into the part of
    the quote meant for the response, and nobody else. -/
theorem quote_serves_iff {msg : Message} {now : Nat} {state : State} {answers : List Answer}
    (agents : state.agents ≠ []) (length : answers.length = state.agents.length)
    (fits : ingressCharge state msg + requestCharge state msg + responseQuote state msg < 2 ^ 128)
    (quoted : msg.attached.val = proxyHttpRequestCost state msg) :
    Serves answers (perform encode .proxyHttpRequest msg now state answers) ↔
      isAllowed state msg.caller = true ∧
        (attempts answers - 1) * requestCharge state msg ≤ responseQuote state msg := by
  have price : msg.attached.val =
      ingressCharge state msg + requestCharge state msg + responseQuote state msg := by
    rw [quoted, proxyHttpRequestCost, wrapping_exact (by omega : ingressCharge state msg +
      requestCharge state msg < 2 ^ 128), wrapping_exact fits]
  cases some : state.agents with
  | nil => exact absurd some agents
  | cons agent rest =>
    have asked : answers.length = rest.length + 1 := by rw [length, some, List.length_cons]
    cases allowed : isAllowed state msg.caller with
    | false =>
      have positive := attempts_positive (List.ne_nil_of_length_eq_add_one asked)
      rw [perform_forbidden encode allowed]
      apply iff_of_false
      · rintro ⟨e, res, same, _, _, taken⟩
        cases same
        simp only at taken
        omega
      · simp
    | true =>
      rw [perform_waiting encode (start_sequential allowed some), if_pos (by omega), Serves,
        drive_serves_iff encode (account state msg) msg.req (requestSize state msg) agent rest _ 0
          asked]
      have left : (opened state msg (ingressCharge state msg + requestCharge state msg)).available =
          responseQuote state msg := by
        simp only [opened, Machine.accept]
        omega
      rw [left]
      simp [requestCharge, requestSize, account]

def caller : Principal := [1]

def twoAgents : State :=
  ⟨[⟨"a", "https://a.example", 0, none⟩, ⟨"b", "https://b.example", 0, none⟩],
    Function.update (fun _ => none) caller (some (0, 0)), 13, 100000000, 0, 0⟩

def message (maxResponseBytes : Option UInt64) (attached : U128) : Message :=
  ⟨caller, ⟨"URL_A", maxResponseBytes, [⟨"idempotency-key", "k1"⟩], none⟩, 200, attached⟩

def failover : List Answer :=
  [⟨0, .error ⟨503, [], []⟩, 1, id⟩, ⟨1, .ok ⟨200, [], [1, 2, 3]⟩, 2, id⟩]

theorem large_quote_serves_failover :
    Serves failover (perform (fun _ => []) .proxyHttpRequest (message (some 20000) 391850000) 0
      twoAgents failover) :=
  (quote_serves_iff (fun _ => []) (by decide) rfl (by decide) (by decide)).mpr (by decide)

/-- The quote for the default response size does not cover a second attempt. -/
theorem default_quote_traps_failover :
    ¬ ∀ (encode : List HttpResponse → Bytes) (msg : Message) (now : Nat) (state : State)
      (answers : List Answer), state.agents ≠ [] → answers.length = state.agents.length →
        isAllowed state msg.caller = true →
        (∀ res ∈ expected answers, ((cyclesCalculator state).countResponseBytes res).toNat ≤
          (msg.req.maxResponseBytes.getD 10240).toNat) →
        ingressCharge state msg + requestCharge state msg + responseQuote state msg < 2 ^ 128 →
        msg.attached.val = proxyHttpRequestCost state msg →
        Serves answers (perform encode .proxyHttpRequest msg now state answers) := by
  intro claim
  have trapped : (perform (fun _ => []) .proxyHttpRequest (message none 290346000) 0 twoAgents
      failover).map (fun e => e.reply.toBool) = some false := by decide
  obtain ⟨e, res, ends, reply, _⟩ := claim (fun _ => []) (message none 290346000) 0 twoAgents
    failover (by decide) rfl (by decide) (by decide) (by decide) (by decide)
  rw [ends, Option.map_some, reply] at trapped
  cases trapped

end SequentialQuote
