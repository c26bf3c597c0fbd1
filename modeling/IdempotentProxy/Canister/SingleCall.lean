import IdempotentProxy.Canister.Endpoints

/-!
One call of an endpoint from its first slice to its reply, against a list of agent
answers. What other messages do to the canister's state while the call waits is
part of the answer that ends the wait.
-/
namespace SingleCall
open FixedWidth CycleCosts CanisterEndpoints
open ProxyTokens (Agent)

structure Answer where
  agent : Nat
  outcome : Outcome
  now : Nat
  others : State → State

/-- The reply or the trap, the state and cycles it leaves, and how many of the
    answers the call took. -/
structure End where
  reply : Except String HttpResponse
  machine : Machine
  taken : Nat

variable (encode : List HttpResponse → Bytes)

def drive (taken : Nat) (call : Call) (m : Machine) : List Answer → Option End
  | [] => none
  | answer :: rest =>
      let before : Machine := { m with state := answer.others m.state }
      if call.awaits answer.agent then
        match resume encode answer.agent answer.outcome answer.now before call with
        | .error text => some ⟨.error text, before, taken + 1⟩
        | .ok (after, .finished res) => some ⟨.ok res, after, taken + 1⟩
        | .ok (after, .waiting next) => drive (taken + 1) next after rest
      else none

def perform (endpoint : Endpoint) (msg : Message) (now : Nat) (state : State)
    (answers : List Answer) : Option End :=
  match start endpoint msg now ⟨state, msg.attached⟩ with
  | .error text => some ⟨.error text, ⟨state, msg.attached⟩, 0⟩
  | .ok (m, .finished res) => some ⟨.ok res, m, 0⟩
  | .ok (m, .waiting call) => drive encode 0 call m answers

def ingressCharge (state : State) (msg : Message) : Nat :=
  (cyclesCalculator state).ingressCost msg.argBytes

def requestCharge (state : State) (msg : Message) : Nat :=
  let calculator := cyclesCalculator state
  calculator.httpOutcallRequestCost (calculator.countRequestBytes msg.req) 1

theorem perform_forbidden {endpoint : Endpoint} {msg : Message} {now : Nat} {state : State}
    {answers : List Answer} (unknown : isAllowed state msg.caller = false) :
    perform encode endpoint msg now state answers =
      some ⟨.ok forbidden, ⟨state, msg.attached⟩, 0⟩ := by
  simp [perform, start, unknown]

theorem receive_then {cycles : Nat} {m : Machine}
    (next : Machine → Except String (Machine × Progress)) :
    (receiveCycles cycles false m >>= next) =
      if cycles ≤ m.available then next (m.accept cycles) else .error "insufficient cycles" := by
  split
  · rename_i enough
    rw [receive_enough false enough]
    rfl
  · rename_i short
    rw [receive_short (Nat.lt_of_not_le short)]
    rfl

theorem receive_twice {first second : Nat} {m : Machine}
    (next : Machine → Except String (Machine × Progress)) :
    (receiveCycles first false m >>= fun n => receiveCycles second false n >>= next) =
      if first + second ≤ m.available then next (m.accept (first + second))
      else .error "insufficient cycles" := by
  rw [receive_then]
  by_cases covered : first ≤ m.available
  · rw [if_pos covered, receive_then, accept_accept]
    have left : (m.accept first).available = m.available - first := rfl
    simp only [left, Nat.le_sub_iff_add_le' covered]
  · rw [if_neg covered, if_neg (by omega)]

def account (state : State) (msg : Message) : Account :=
  ⟨msg.caller, msg.attached, cyclesCalculator state⟩

def requestSize (state : State) (msg : Message) : UInt32 :=
  (cyclesCalculator state).countRequestBytes msg.req

def opened (state : State) (msg : Message) (cycles : Nat) : Machine :=
  Machine.accept ⟨state, msg.attached⟩ cycles

def waitingFor (state : State) (msg : Message) (cycles : Nat) (call : Call) :
    Except String (Machine × Progress) :=
  if cycles ≤ msg.attached then .ok (opened state msg cycles, .waiting call)
  else .error "insufficient cycles"

theorem start_sequential {msg : Message} {now : Nat} {state : State} {agent : Agent}
    {rest : List Agent} (allowed : isAllowed state msg.caller = true)
    (agents : state.agents = agent :: rest) :
    start .proxyHttpRequest msg now ⟨state, msg.attached⟩ =
      waitingFor state msg (ingressCharge state msg + requestCharge state msg)
        (.proxy (account state msg) msg.req (requestSize state msg) agent rest) := by
  unfold start
  rw [if_neg (by simp [allowed]), if_neg (by simp [agents])]
  simp only [agents]
  exact receive_twice _

theorem start_parallel {msg : Message} (now : Nat) {state : State} {agent : Agent}
    {rest : List Agent} (allowed : isAllowed state msg.caller = true)
    (agents : state.agents = agent :: rest) :
    start .parallelCallAllOk msg now ⟨state, msg.attached⟩ =
        waitingFor state msg
          (parallelCharge msg (cyclesCalculator state) (UInt32.ofNat state.agents.length))
          (.all (account state msg) (state.agents.map fun _ => none)) ∧
      start .parallelCallAnyOk msg now ⟨state, msg.attached⟩ =
        waitingFor state msg
          (parallelCharge msg (cyclesCalculator state) (UInt32.ofNat state.agents.length))
          (.any (account state msg) (UInt32.ofNat state.agents.length)
            (List.range state.agents.length)) := by
  constructor
  · unfold start
    rw [if_neg (by simp [allowed]), if_neg (by simp [agents])]
    exact receive_then _
  · unfold start
    rw [if_neg (by simp [allowed]), if_neg (by simp [agents])]
    exact receive_then _

theorem perform_waiting {endpoint : Endpoint} {msg : Message} {now cycles : Nat} {state : State}
    {answers : List Answer} {call : Call}
    (first : start endpoint msg now ⟨state, msg.attached⟩ = waitingFor state msg cycles call) :
    perform encode endpoint msg now state answers =
      if cycles ≤ msg.attached then drive encode 0 call (opened state msg cycles) answers
      else some ⟨.error "insufficient cycles", ⟨state, msg.attached⟩, 0⟩ := by
  rw [perform, first, waitingFor]
  by_cases covered : cycles ≤ msg.attached
  · simp only [if_pos covered]
  · simp only [if_neg covered]

end SingleCall
