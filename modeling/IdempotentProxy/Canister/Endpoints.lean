import Mathlib.Logic.Function.Basic
import IdempotentProxy.Foundations.FixedWidth
import IdempotentProxy.Foundations.Results
import IdempotentProxy.Canister.Calculator
import IdempotentProxy.Canister.ProxyTokens

/-!
The canister's three proxy endpoints, cut at their awaits. A slice is what one
message execution does: it starts the call or takes the outcome of one
`Agent::call`, and ends in a reply, in the next await, or in a trap. A trap undoes
its own slice, state and accepted cycles alike, and nothing before it. The CBOR
writer for inconsistent results is the parameter `encode`.
-/
namespace CanisterEndpoints
open FixedWidth CycleCosts ProxyTokens Results

abbrev U128 := Word 128

instance u128_nonzero : NeZero (2 ^ 128) := ⟨by decide⟩

abbrev Principal := Bytes

/-- What `Agent::call` returns: `Ok` up to status 500, `Err` above or when the
    outcall failed. -/
abbrev Outcome := Except HttpResponse HttpResponse

structure State where
  agents : List Agent
  callers : Principal → Option (U128 × Nat)
  subnetSize : UInt64
  serviceFee : UInt64
  incomingCycles : U128
  uncollectibleCycles : U128

/-- The state as a call's slice sees it, and the cycles of the call not yet accepted. -/
structure Machine where
  state : State
  available : Nat

def forbidden : HttpResponse := ⟨403, [], "caller is not allowed".toUTF8.toList⟩
def noAgents : HttpResponse := ⟨503, [], "no agents available".toUTF8.toList⟩

def cyclesCalculator (s : State) : Calculator := ⟨s.subnetSize, s.serviceFee⟩

def isAllowed (s : State) (caller : Principal) : Bool := (s.callers caller).isSome

def updateCallerState (s : State) (caller : Principal) (cycles nowMs : Nat) : State :=
  match s.callers caller with
  | some (total, _) =>
      { s with callers := Function.update s.callers caller
                (some (saturatingAdd total cycles, nowMs)) }
  | none => s

def Machine.accept (m : Machine) (cycles : Nat) : Machine :=
  ⟨{ m.state with incomingCycles := saturatingAdd m.state.incomingCycles cycles },
    m.available - cycles⟩

def receiveCycles (cycles : Nat) (ignoreInsufficient : Bool) (m : Machine) :
    Except String Machine :=
  if cycles = 0 then .ok m
  else
    let received := min cycles m.available
    let accepted := m.accept received
    if received < cycles then
      if ignoreInsufficient then
        .ok { accepted with state := { accepted.state with
          uncollectibleCycles := saturatingAdd m.state.uncollectibleCycles (cycles - received) } }
      else .error "insufficient cycles"
    else .ok accepted

structure Account where
  caller : Principal
  balance : Nat
  calculator : Calculator

def Account.credit (a : Account) (now : Nat) (m : Machine) : Machine :=
  { m with state := updateCallerState m.state a.caller (a.balance - m.available) (now / 1000000) }

/-- A suspended endpoint. `proxy` awaits `agent` and has `rest` to try after it;
    `all` keeps the results in agent order; `any` keeps the agents not heard from. -/
inductive Call where
  | proxy (account : Account) (req : CanisterHttpRequestArgument) (reqSize : UInt32)
      (agent : Agent) (rest : List Agent)
  | all (account : Account) (results : List (Option HttpResponse))
  | any (account : Account) (duplicates : UInt32) (pending : List Nat)

def Call.account : Call → Account
  | .proxy account .. => account
  | .all account _ => account
  | .any account .. => account

def Call.awaits (i : Nat) : Call → Bool
  | .proxy .. => true
  | .all _ results => results[i]? = some none
  | .any _ _ pending => i ∈ pending

inductive Progress where
  | finished (res : HttpResponse)
  | waiting (call : Call)

structure Message where
  caller : Principal
  req : CanisterHttpRequestArgument
  argBytes : UInt32
  attached : U128

inductive Endpoint where
  | proxyHttpRequest
  | parallelCallAllOk
  | parallelCallAnyOk
  deriving DecidableEq

/-- The loop of `proxy_http_request`, from the agents not yet tried. -/
def nextAgent (account : Account) (req : CanisterHttpRequestArgument) (reqSize : UInt32)
    (lastErr : Option HttpResponse) (now : Nat) (m : Machine) :
    List Agent → Except String (Machine × Progress)
  | [] =>
      match lastErr with
      | some res => .ok (account.credit now m, .finished res)
      | none => .error "called `Option::unwrap()` on a `None` value"
  | agent :: rest => do
      let m ← receiveCycles (account.calculator.httpOutcallRequestCost reqSize 1) false m
      return (m, .waiting (.proxy account req reqSize agent rest))

def proxyHttpRequest (msg : Message) (now : Nat) (account : Account) (agents : List Agent)
    (m : Machine) : Except String (Machine × Progress) := do
  let m ← receiveCycles (account.calculator.ingressCost msg.argBytes) false m
  nextAgent account msg.req (account.calculator.countRequestBytes msg.req) none now m agents

def parallelCharge (msg : Message) (calculator : Calculator) (duplicates : UInt32) : Nat :=
  wrappingAdd 128 (calculator.ingressCost msg.argBytes)
    (calculator.httpOutcallRequestCost (calculator.countRequestBytes msg.req) duplicates)

def parallelCallAllOk (msg : Message) (account : Account) (agents : List Agent) (m : Machine) :
    Except String (Machine × Progress) := do
  let m ← receiveCycles
    (parallelCharge msg account.calculator (UInt32.ofNat agents.length)) false m
  return (m, .waiting (.all account (agents.map fun _ => none)))

def parallelCallAnyOk (msg : Message) (account : Account) (agents : List Agent) (m : Machine) :
    Except String (Machine × Progress) := do
  let m ← receiveCycles
    (parallelCharge msg account.calculator (UInt32.ofNat agents.length)) false m
  return (m, .waiting (.any account (UInt32.ofNat agents.length) (List.range agents.length)))

def start (endpoint : Endpoint) (msg : Message) (now : Nat) (m : Machine) :
    Except String (Machine × Progress) :=
  if ¬ isAllowed m.state msg.caller then .ok (m, .finished forbidden)
  else if m.state.agents.isEmpty then .ok (m, .finished noAgents)
  else
    let account : Account := ⟨msg.caller, m.available, cyclesCalculator m.state⟩
    match endpoint with
    | .proxyHttpRequest => proxyHttpRequest msg now account m.state.agents m
    | .parallelCallAllOk => parallelCallAllOk msg account m.state.agents m
    | .parallelCallAnyOk => parallelCallAnyOk msg account m.state.agents m

def allAnswered : List (Option HttpResponse) → Option (List HttpResponse)
  | [] => some []
  | none :: _ => none
  | some res :: rest => (allAnswered rest).map (res :: ·)

def consistentResult (encode : List HttpResponse → Bytes) (base : HttpResponse)
    (results : List HttpResponse) : HttpResponse :=
  let inconsistent := results.filter (· ≠ base)
  if inconsistent.isEmpty then base else ⟨500, [], encode (inconsistent ++ [base])⟩

def resume (encode : List HttpResponse → Bytes) (i : Nat) (outcome : Outcome) (now : Nat)
    (m : Machine) : Call → Except String (Machine × Progress)
  | .proxy account req reqSize _ rest =>
      match outcome with
      | .ok res => do
          let cycles := account.calculator.httpOutcallResponseCost
            (account.calculator.countResponseBytes res) 1
          let m ← receiveCycles cycles true m
          return (account.credit now m, .finished res)
      | .error res => nextAgent account req reqSize (some res) now m rest
  | .all account results =>
      match outcome with
      | .error res => .ok (account.credit now m, .finished res)
      | .ok res =>
          let results := results.set i (some res)
          match allAnswered results with
          | none => .ok (m, .waiting (.all account results))
          | some answers => do
              let base := answers.head?.getD noAgents
              let cycles := account.calculator.httpOutcallResponseCost
                (account.calculator.countResponseBytes base) (UInt32.ofNat results.length)
              let m ← receiveCycles cycles true m
              return (account.credit now m, .finished (consistentResult encode base answers.tail))
  | .any account duplicates pending =>
      match outcome with
      | .ok res => do
          let cycles := account.calculator.httpOutcallResponseCost
            (account.calculator.countResponseBytes res) duplicates
          let m ← receiveCycles cycles true m
          return (account.credit now m, .finished res)
      | .error res =>
          let pending := pending.erase i
          if pending.isEmpty then .ok (account.credit now m, .finished res)
          else .ok (m, .waiting (.any account duplicates pending))

/-- Cycles moved from the call to the canister's counter, and nothing else but the
    count of uncollectible cycles. -/
structure Charged (m n : Machine) : Prop where
  available : n.available ≤ m.available
  incoming : n.state.incomingCycles =
    saturatingAdd m.state.incomingCycles (m.available - n.available)
  callers : n.state.callers = m.state.callers
  agents : n.state.agents = m.state.agents

theorem charged_refl (m : Machine) : Charged m m := by
  apply Charged.mk (Nat.le_refl _) _ rfl rfl
  rw [Nat.sub_self, saturating_zero]

theorem charged_trans {l m n : Machine} (first : Charged l m) (second : Charged m n) :
    Charged l n := by
  have less := first.available
  have least := second.available
  apply Charged.mk (by omega)
  · rw [second.incoming, first.incoming, saturating_add]
    congr 1
    omega
  · rw [second.callers, first.callers]
  · rw [second.agents, first.agents]

theorem accept_accept (m : Machine) (a b : Nat) : (m.accept a).accept b = m.accept (a + b) := by
  simp [Machine.accept, saturating_add, Nat.sub_sub]

theorem receive_enough {cycles : Nat} {m : Machine} (ignoreInsufficient : Bool)
    (enough : cycles ≤ m.available) :
    receiveCycles cycles ignoreInsufficient m = .ok (m.accept cycles) := by
  unfold receiveCycles
  split
  · rename_i zero
    simp [zero, Machine.accept]
  · simp [Nat.min_eq_left enough]

theorem receive_short {cycles : Nat} {m : Machine} (short : m.available < cycles) :
    receiveCycles cycles false m = .error "insufficient cycles" := by
  unfold receiveCycles
  rw [if_neg (by omega), Nat.min_eq_right (by omega), if_pos short]
  rfl

theorem receive_charged {cycles : Nat} {ignoreInsufficient : Bool} {m n : Machine}
    (received : receiveCycles cycles ignoreInsufficient m = .ok n) : Charged m n := by
  by_cases enough : cycles ≤ m.available
  · rw [receive_enough ignoreInsufficient enough] at received
    cases received
    exact ⟨Nat.sub_le _ _, by simp only [Machine.accept, Nat.sub_sub_self enough], rfl, rfl⟩
  · have short : m.available < cycles := by omega
    unfold receiveCycles at received
    rw [if_neg (by omega), Nat.min_eq_right (by omega), if_pos short] at received
    cases ignoreInsufficient with
    | true =>
      cases received
      exact ⟨Nat.sub_le _ _, by simp [Machine.accept], rfl, rfl⟩
    | false => cases received

theorem receive_ignoring (cycles : Nat) (m : Machine) :
    ∃ n, receiveCycles cycles true m = .ok n := by
  by_cases enough : cycles ≤ m.available
  · exact ⟨_, receive_enough true enough⟩
  · unfold receiveCycles
    rw [if_neg (by omega), Nat.min_eq_right (by omega), if_pos (by omega)]
    exact ⟨_, rfl⟩

/-- What a slice of the call with `account` leaves: a reply with the caller
    credited, or the next await. -/
def Leaves (account : Account) (now : Nat) (m n : Machine) : Progress → Prop
  | .finished _ => ∃ charged, Charged m charged ∧ n = account.credit now charged
  | .waiting call => Charged m n ∧ call.account = account

theorem next_agent_leaves {account : Account} {req : CanisterHttpRequestArgument}
    {reqSize : UInt32} {lastErr : Option HttpResponse} {now : Nat} {m n : Machine}
    {agents : List Agent} {progress : Progress}
    (done : nextAgent account req reqSize lastErr now m agents = .ok (n, progress)) :
    Leaves account now m n progress := by
  cases agents with
  | nil =>
    cases lastErr with
    | none => cases done
    | some res =>
      cases done
      exact ⟨m, charged_refl m, rfl⟩
  | cons agent rest =>
    obtain ⟨charged, received, same⟩ := bind_ok_iff.mp done
    cases same
    exact ⟨receive_charged received, rfl⟩

theorem credit_leaves {account : Account} {cycles now : Nat} {m n : Machine} {res : HttpResponse}
    {progress : Progress}
    (done : (receiveCycles cycles true m >>= fun charged =>
      (Except.ok (account.credit now charged, .finished res) : Except String _)) =
        .ok (n, progress)) :
    Leaves account now m n progress := by
  obtain ⟨charged, received, same⟩ := bind_ok_iff.mp done
  cases same
  exact ⟨charged, receive_charged received, rfl⟩

theorem resume_leaves {encode : List HttpResponse → Bytes} {i now : Nat} {outcome : Outcome}
    {m n : Machine} {call : Call} {progress : Progress}
    (done : resume encode i outcome now m call = .ok (n, progress)) :
    Leaves call.account now m n progress := by
  cases call with
  | proxy account req reqSize agent rest =>
    cases outcome with
    | ok res => exact credit_leaves done
    | error res =>
      simp only [resume] at done
      exact next_agent_leaves done
  | all account results =>
    cases outcome with
    | error res =>
      cases done
      exact ⟨m, charged_refl m, rfl⟩
    | ok res =>
      simp only [resume] at done
      split at done
      · cases done
        exact ⟨charged_refl m, rfl⟩
      · exact credit_leaves done
  | any account duplicates pending =>
    cases outcome with
    | ok res => exact credit_leaves done
    | error res =>
      simp only [resume] at done
      split at done
      · cases done
        exact ⟨m, charged_refl m, rfl⟩
      · cases done
        exact ⟨charged_refl m, rfl⟩

theorem start_leaves {endpoint : Endpoint} {msg : Message} {now : Nat} {m n : Machine}
    {progress : Progress} (done : start endpoint msg now m = .ok (n, progress)) :
    ((∃ res, progress = .finished res) ∧ n = m) ∨
      ∃ call, progress = .waiting call ∧ Charged m n ∧ isAllowed m.state msg.caller = true ∧
        call.account = ⟨msg.caller, m.available, cyclesCalculator m.state⟩ := by
  unfold start at done
  split at done
  · cases done
    exact Or.inl ⟨⟨_, rfl⟩, rfl⟩
  split at done
  · cases done
    exact Or.inl ⟨⟨_, rfl⟩, rfl⟩
  rename_i allowed some
  refine Or.inr ?_
  have known : isAllowed m.state msg.caller = true := by simpa using allowed
  cases endpoint with
  | proxyHttpRequest =>
    obtain ⟨first, received, next⟩ := bind_ok_iff.mp done
    cases agents : m.state.agents with
    | nil => simp [agents] at some
    | cons agent rest =>
      rw [agents] at next
      obtain ⟨second, again, same⟩ := bind_ok_iff.mp next
      cases same
      exact ⟨_, rfl, charged_trans (receive_charged received) (receive_charged again), known, rfl⟩
  | parallelCallAllOk =>
    obtain ⟨charged, received, same⟩ := bind_ok_iff.mp done
    cases same
    exact ⟨_, rfl, receive_charged received, known, rfl⟩
  | parallelCallAnyOk =>
    obtain ⟨charged, received, same⟩ := bind_ok_iff.mp done
    cases same
    exact ⟨_, rfl, receive_charged received, known, rfl⟩

theorem credit_never_traps (cycles : Nat) (m : Machine) (text : String)
    (next : Machine → Machine × Progress) :
    ¬ (receiveCycles cycles true m >>= fun charged =>
        (Except.ok (next charged) : Except String _)) = .error text := by
  obtain ⟨n, received⟩ := receive_ignoring cycles m
  rw [received]
  intro trapped
  cases trapped

/-- A slice after an await traps only in `proxy_http_request`, when the next
    attempt costs more than the call has left. -/
theorem resume_traps_iff {encode : List HttpResponse → Bytes} {i now : Nat} {outcome : Outcome}
    {m : Machine} {call : Call} :
    (∃ text, resume encode i outcome now m call = .error text) ↔
      ∃ account req reqSize agent next rest res,
        call = .proxy account req reqSize agent (next :: rest) ∧ outcome = .error res ∧
          m.available < account.calculator.httpOutcallRequestCost reqSize 1 := by
  constructor
  · intro ⟨text, trapped⟩
    cases call with
    | proxy account req reqSize agent rest =>
      cases outcome with
      | ok res => exact absurd trapped (credit_never_traps _ _ _ _)
      | error res =>
        cases rest with
        | nil => cases trapped
        | cons next rest =>
          refine ⟨account, req, reqSize, agent, next, rest, res, rfl, rfl, ?_⟩
          by_contra enough
          simp only [resume, nextAgent, receive_enough false (Nat.le_of_not_lt enough)] at trapped
          cases trapped
    | all account results =>
      cases outcome with
      | error res => cases trapped
      | ok res =>
        simp only [resume] at trapped
        split at trapped
        · cases trapped
        · exact absurd trapped (credit_never_traps _ _ _ _)
    | any account duplicates pending =>
      cases outcome with
      | ok res => exact absurd trapped (credit_never_traps _ _ _ _)
      | error res =>
        simp only [resume] at trapped
        split at trapped
        · cases trapped
        · cases trapped
  · rintro ⟨account, req, reqSize, agent, next, rest, res, rfl, rfl, short⟩
    exact ⟨_, by simp only [resume, nextAgent, receive_short short]; rfl⟩

end CanisterEndpoints
