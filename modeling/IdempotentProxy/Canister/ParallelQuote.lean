import IdempotentProxy.Canister.AllResults
import IdempotentProxy.Canister.ExactCosts

/-!
`parallel_call_cost` against the two parallel endpoints. Both charge the ingress and
all requests first and one response times the number of agents at the end, so a
quote for a response at least as large covers them, whatever the agents answer and
in whatever order.
-/
namespace ParallelQuote
open FixedWidth CycleCosts CanisterEndpoints SingleCall ExactCosts

def duplicates (state : State) : UInt32 := UInt32.ofNat state.agents.length

def largestResponse (msg : Message) : UInt64 := msg.req.maxResponseBytes.getD 10240

/-- The response part of the quote; `as usize` keeps 32 bits. -/
def responseQuote (state : State) (msg : Message) : Nat :=
  (cyclesCalculator state).httpOutcallResponseCost (largestResponse msg).toUInt32
    (duplicates state)

def parallelCallCost (state : State) (msg : Message) : Nat :=
  let calculator := cyclesCalculator state
  wrappingAdd 128
    (wrappingAdd 128 (calculator.ingressCost msg.argBytes)
      (calculator.httpOutcallRequestCost (calculator.countRequestBytes msg.req)
        (duplicates state)))
    (responseQuote state msg)

structure ExactQuote (state : State) (msg : Message) : Prop where
  size : (largestResponse msg).toNat < 2 ^ 32
  sum : (cyclesCalculator state).ingressCost msg.argBytes +
    (cyclesCalculator state).httpOutcallRequestCost (requestSize state msg) (duplicates state) +
      responseQuote state msg < 2 ^ 128

/-- The response whose size is charged: the first agent's when all are `Ok`, or the
    first `Ok` to come in. -/
def chargedResponse : Endpoint → List Answer → Option HttpResponse
  | .parallelCallAllOk, answers =>
      if answers.all fun a => a.outcome.isOk then
        (answers.find? fun a => decide (a.agent = 0)).bind fun a => a.outcome.toOption
      else none
  | _, answers => answers.findSome? fun a => a.outcome.toOption

/-- A reply was reached that took at most `price` of what was available, and nothing
    was added to the uncollectible cycles beyond what other messages do to them. -/
def Settles (kept : U128 → Prop) (m : Machine) (price : Nat) (ending : Option End) : Prop :=
  ∃ e res, ending = some e ∧ e.reply = .ok res ∧ e.machine.available ≤ m.available ∧
    m.available ≤ e.machine.available + price ∧ kept e.machine.state.uncollectibleCycles

def OthersKeep (kept : U128 → Prop) (answers : List Answer) : Prop :=
  ∀ a ∈ answers, ∀ s, kept s.uncollectibleCycles → kept (a.others s).uncollectibleCycles

@[simp] theorem credit_uncollectible (account : Account) (now : Nat) (m : Machine) :
    (account.credit now m).state.uncollectibleCycles = m.state.uncollectibleCycles := by
  simp only [Account.credit, updateCallerState]
  split <;> rfl

@[simp] theorem credit_available (account : Account) (now : Nat) (m : Machine) :
    (account.credit now m).available = m.available := rfl

@[simp] theorem accept_uncollectible (m : Machine) (cycles : Nat) :
    (m.accept cycles).state.uncollectibleCycles = m.state.uncollectibleCycles := rfl

section Drive
variable (encode : List HttpResponse → Bytes) {kept : U128 → Prop} {account : Account}
  {price : Nat} {m : Machine}

theorem settles_free (now taken : Nat) (res : HttpResponse)
    (good : kept m.state.uncollectibleCycles) :
    Settles kept m price (some ⟨.ok res, account.credit now m, taken⟩) :=
  ⟨_, res, rfl, rfl, Nat.le_refl _, Nat.le_add_right _ _, by simpa using good⟩

theorem settles_charged {cycles : Nat} (account : Account) (now taken : Nat) (res : HttpResponse)
    (good : kept m.state.uncollectibleCycles) (within : cycles ≤ price) :
    Settles kept m price (some ⟨.ok res, account.credit now (m.accept cycles), taken⟩) := by
  refine ⟨_, res, rfl, rfl, Nat.sub_le _ _, ?_, by simpa using good⟩
  simp only [credit_available, Machine.accept]
  omega

theorem drive_any_settles {duplicates : UInt32} {pending : List Nat} {answers : List Answer}
    (taken : Nat) (some_left : answers ≠ [])
    (order : (answers.map Answer.agent).Perm pending) (covered : price ≤ m.available)
    (bounded : ∀ res ∈ answers.findSome? fun a => a.outcome.toOption,
      account.calculator.httpOutcallResponseCost (account.calculator.countResponseBytes res)
        duplicates ≤ price)
    (good : kept m.state.uncollectibleCycles) (others : OthersKeep kept answers) :
    Settles kept m price (drive encode taken (.any account duplicates pending) m answers) := by
  induction answers generalizing taken m pending with
  | nil => exact absurd rfl some_left
  | cons a rest ih =>
    have awaited : a.agent ∈ pending := order.subset (by simp)
    have good := others a (by simp) m.state good
    cases outcome : a.outcome with
    | ok res =>
      have within := bounded res (by simp [outcome, Except.toOption])
      have received := receive_enough true (m := { m with state := a.others m.state })
        (Nat.le_trans within covered)
      have settled := settles_charged (m := { m with state := a.others m.state })
        account a.now (taken + 1) res good within
      simp only [drive, Call.awaits, awaited, decide_true, ↓reduceIte, resume, outcome, received]
      exact settled
    | error res =>
      have rest_order : (rest.map Answer.agent).Perm (pending.erase a.agent) := by
        have erased := order.erase a.agent
        rwa [List.map_cons, List.erase_cons_head] at erased
      simp only [drive, Call.awaits, awaited, decide_true, ↓reduceIte, resume, outcome]
      cases rest with
      | nil =>
        have empty : pending.erase a.agent = [] := rest_order.symm.eq_nil
        simp only [empty, List.isEmpty_nil, ↓reduceIte]
        exact settles_free (m := { m with state := a.others m.state }) a.now (taken + 1) res good
      | cons b rest =>
        have more : (pending.erase a.agent).isEmpty = false := by
          have length := rest_order.length_eq
          cases left : pending.erase a.agent with
          | nil => simp [left] at length
          | cons => rfl
        simp only [more, Bool.false_eq_true, ↓reduceIte]
        exact ih (m := { m with state := a.others m.state }) (taken + 1) (by simp) rest_order
          covered (by simpa [outcome, Except.toOption] using bounded) good
          (fun c mem => others c (List.mem_cons_of_mem a mem))

def Awaiting (given : List (Option HttpResponse)) (answers : List Answer) : Prop :=
  ∀ i, given[i]? = some none ↔ i ∈ answers.map Answer.agent

theorem all_answered_filled {given : List (Option HttpResponse)} (filled : none ∉ given) :
    ∃ results, allAnswered given = some results ∧ given = results.map some := by
  induction given with
  | nil => exact ⟨[], rfl, rfl⟩
  | cons first rest ih =>
    cases first with
    | none => simp at filled
    | some res =>
      obtain ⟨results, answered, same⟩ := ih (by simpa using filled)
      exact ⟨res :: results, by simp [allAnswered, answered], by simp [same]⟩

theorem awaiting_set {given : List (Option HttpResponse)} {a : Answer} {rest : List Answer}
    (awaiting : Awaiting given (a :: rest)) (fresh : a.agent ∉ rest.map Answer.agent)
    (res : HttpResponse) : Awaiting (given.set a.agent (some res)) rest := by
  intro i
  have before := awaiting i
  rw [List.map_cons, List.mem_cons] at before
  rw [List.getElem?_set]
  by_cases same : a.agent = i
  · subst same
    have empty := before.mpr (Or.inl rfl)
    have bound := (List.getElem?_eq_some_iff.mp empty).1
    simp [bound, fresh]
  · rw [if_neg same, before]
    simp [Ne.symm same]

theorem first_known {given : List (Option HttpResponse)} {a : Answer} {rest : List Answer}
    {res first : HttpResponse} (awaited : given[a.agent]? = some none)
    (outcome : a.outcome = .ok res)
    (known : (given.set a.agent (some res))[0]? = some (some first) ∨
      ∃ b ∈ rest, b.agent = 0 ∧ b.outcome = .ok first) :
    given[0]? = some (some first) ∨ ∃ b ∈ a :: rest, b.agent = 0 ∧ b.outcome = .ok first := by
  rcases known with filled | ⟨b, mem, zero, answered⟩
  · by_cases here : a.agent = 0
    · have bound : 0 < given.length := by
        have inside := (List.getElem?_eq_some_iff.mp awaited).1
        omega
      rw [here, List.getElem?_set_self bound] at filled
      cases filled
      exact Or.inr ⟨a, by simp, here, outcome⟩
    · rw [List.getElem?_set_ne here] at filled
      exact Or.inl filled
  · exact Or.inr ⟨b, List.mem_cons_of_mem a mem, zero, answered⟩

theorem heard_answered {given : List (Option HttpResponse)} (awaiting : Awaiting given [])
    (slots : given ≠ []) :
    ∃ base tail, allAnswered given = some (base :: tail) ∧ given[0]? = some (some base) := by
  have filled : none ∉ given := by
    intro missing
    obtain ⟨i, empty⟩ := List.mem_iff_getElem?.mp missing
    simpa using (awaiting i).mp empty
  obtain ⟨results, answered, same⟩ := all_answered_filled filled
  have nonempty : results ≠ [] := by
    intro none
    rw [none] at same
    exact slots same
  obtain ⟨base, tail, split⟩ := List.exists_cons_of_ne_nil nonempty
  subst split
  exact ⟨base, tail, answered, by rw [same]; rfl⟩

/-- By induction on the answers still to come. `bounded` speaks of the first agent's
    response alone, filled in or still to come, and only if nobody fails. -/
theorem drive_all_settles {given : List (Option HttpResponse)} {answers : List Answer}
    (taken : Nat) (some_left : answers ≠ []) (awaiting : Awaiting given answers)
    (once : (answers.map Answer.agent).Nodup) (covered : price ≤ m.available)
    (bounded : (∀ a ∈ answers, a.outcome.isOk = true) → ∀ res,
      (given[0]? = some (some res) ∨ ∃ a ∈ answers, a.agent = 0 ∧ a.outcome = .ok res) →
        account.calculator.httpOutcallResponseCost (account.calculator.countResponseBytes res)
          (UInt32.ofNat given.length) ≤ price)
    (good : kept m.state.uncollectibleCycles) (others : OthersKeep kept answers) :
    Settles kept m price (drive encode taken (.all account given) m answers) := by
  induction answers generalizing taken m given with
  | nil => exact absurd rfl some_left
  | cons a rest ih =>
    rw [List.map_cons, List.nodup_cons] at once
    have awaited : given[a.agent]? = some none := (awaiting a.agent).mpr (by simp)
    have good := others a (by simp) m.state good
    cases outcome : a.outcome with
    | error res =>
      simp only [drive, Call.awaits, awaited, decide_true, ↓reduceIte, resume, outcome]
      exact settles_free (m := { m with state := a.others m.state }) a.now (taken + 1) res good
    | ok res =>
      have remaining := awaiting_set awaiting once.1 res
      have bounded_rest : (∀ b ∈ rest, b.outcome.isOk = true) → ∀ first,
          ((given.set a.agent (some res))[0]? = some (some first) ∨
            ∃ b ∈ rest, b.agent = 0 ∧ b.outcome = .ok first) →
          account.calculator.httpOutcallResponseCost
            (account.calculator.countResponseBytes first)
            (UInt32.ofNat (given.set a.agent (some res)).length) ≤ price := by
        intro all first known
        rw [List.length_set]
        have every : ∀ b ∈ a :: rest, b.outcome.isOk = true := by
          intro b mem
          rcases List.mem_cons.mp mem with same | mem
          · rw [same, outcome]
            rfl
          · exact all b mem
        exact bounded every first (first_known awaited outcome known)
      simp only [drive, Call.awaits, awaited, decide_true, ↓reduceIte, resume, outcome]
      cases rest with
      | nil =>
        have slots : given.set a.agent (some res) ≠ [] := by
          have inside := (List.getElem?_eq_some_iff.mp awaited).1
          exact List.ne_nil_of_length_pos (by rw [List.length_set]; omega)
        obtain ⟨base, tail, answered, front⟩ := heard_answered remaining slots
        have within := bounded_rest (by simp) base (Or.inl front)
        have received := receive_enough true (m := { m with state := a.others m.state })
          (Nat.le_trans within covered)
        simp only [answered, List.head?_cons, Option.getD_some, received]
        exact settles_charged (m := { m with state := a.others m.state }) account a.now (taken + 1) _
          good within
      | cons b rest =>
        have missing : none ∈ given.set a.agent (some res) :=
          List.mem_of_getElem? ((remaining b.agent).mpr (by simp))
        simp only [AllResults.all_answered_waiting missing]
        exact ih (m := { m with state := a.others m.state }) (taken + 1) (by simp) remaining once.2
          covered bounded_rest good (fun c mem => others c (List.mem_cons_of_mem a mem))

end Drive

theorem response_cost_mono (c : Calculator) (n : UInt32) {a b : UInt32} (less : a ≤ b) :
    c.httpOutcallResponseCost a n ≤ c.httpOutcallResponseCost b n := by
  rw [response_cost_eq, response_cost_eq]
  exact Nat.mul_le_mul_right _ (Nat.mul_le_mul_left _ (UInt32.le_iff_toNat_le.mp less))

section Quote
variable {msg : Message} {state : State}

theorem quote_parts (exact : ExactQuote state msg) :
    parallelCallCost state msg =
      parallelCharge msg (cyclesCalculator state) (duplicates state) + responseQuote state msg := by
  have first : (cyclesCalculator state).ingressCost msg.argBytes +
      (cyclesCalculator state).httpOutcallRequestCost (requestSize state msg) (duplicates state) <
        2 ^ 128 := by
    have whole := exact.sum
    omega
  have sum : parallelCharge msg (cyclesCalculator state) (duplicates state) =
      (cyclesCalculator state).ingressCost msg.argBytes +
        (cyclesCalculator state).httpOutcallRequestCost (requestSize state msg)
          (duplicates state) := wrapping_exact first
  have whole : parallelCharge msg (cyclesCalculator state) (duplicates state) +
      responseQuote state msg < 2 ^ 128 := by
    rw [sum]
    exact exact.sum
  exact wrapping_exact whole

theorem response_within (exact : ExactQuote state msg) {res : HttpResponse}
    (small : ((cyclesCalculator state).countResponseBytes res).toNat ≤
      (largestResponse msg).toNat) :
    (cyclesCalculator state).httpOutcallResponseCost
      ((cyclesCalculator state).countResponseBytes res) (duplicates state) ≤
        responseQuote state msg := by
  have narrowed : (largestResponse msg).toUInt32.toNat = (largestResponse msg).toNat := by
    rw [UInt64.toNat_toUInt32]
    exact Nat.mod_eq_of_lt exact.size
  exact response_cost_mono _ _ (UInt32.le_iff_toNat_le.mpr (by omega))

theorem first_agent_found {answers : List Answer} (once : (answers.map Answer.agent).Nodup)
    {a : Answer} (mem : a ∈ answers) (zero : a.agent = 0) :
    (answers.find? fun b => decide (b.agent = 0)) = some a := by
  cases found : answers.find? fun b => decide (b.agent = 0) with
  | none =>
    have missing := List.find?_eq_none.mp found a mem
    simp [zero] at missing
  | some b =>
    have here := List.mem_of_find?_eq_some found
    have first : b.agent = 0 := by simpa using List.find?_some found
    have same := List.inj_on_of_nodup_map once here mem (first.trans zero.symm)
    rw [same]

theorem drive_settles (encode : List HttpResponse → Bytes) {endpoint : Endpoint}
    (parallel : endpoint ≠ .proxyHttpRequest) {answers : List Answer} (kept : U128 → Prop)
    {m : Machine} (now : Nat) (some_agents : state.agents ≠ [])
    (allowed : isAllowed state msg.caller = true)
    (order : (answers.map Answer.agent).Perm (List.range state.agents.length))
    (exact : ExactQuote state msg) (covered : responseQuote state msg ≤ m.available)
    (bounded : ∀ res ∈ chargedResponse endpoint answers,
      ((cyclesCalculator state).countResponseBytes res).toNat ≤ (largestResponse msg).toNat)
    (good : kept m.state.uncollectibleCycles) (others : OthersKeep kept answers) :
    ∃ call, start endpoint msg now ⟨state, msg.attached⟩ =
        waitingFor state msg (parallelCharge msg (cyclesCalculator state) (duplicates state)) call ∧
      Settles kept m (responseQuote state msg) (drive encode 0 call m answers) := by
  obtain ⟨agent, rest, agents⟩ := List.exists_cons_of_ne_nil some_agents
  obtain ⟨startAll, startAny⟩ := start_parallel now allowed agents
  have some_left : answers ≠ [] := by
    intro none
    have length := order.length_eq
    simp [none, agents] at length
  cases endpoint with
  | proxyHttpRequest => exact absurd rfl parallel
  | parallelCallAllOk =>
    refine ⟨_, startAll, ?_⟩
    have once := order.nodup_iff.mpr List.nodup_range
    refine drive_all_settles encode 0 some_left ?_ once covered ?_ good others
    · intro i
      rw [order.mem_iff, List.mem_range]
      simp [List.getElem?_replicate]
    · intro all res known
      rw [List.length_map]
      refine response_within exact (bounded res ?_)
      rcases known with filled | ⟨a, mem, zero, outcome⟩
      · simp [List.getElem?_replicate] at filled
      · have every : (answers.all fun a => a.outcome.isOk) = true := List.all_eq_true.mpr all
        simp [chargedResponse, every, first_agent_found once mem zero, outcome, Except.toOption]
  | parallelCallAnyOk =>
    exact ⟨_, startAny, drive_any_settles encode 0 some_left order covered
      (fun res mem => response_within exact (bounded res mem)) good others⟩

end Quote

/-- A caller who attaches the quote gets a reply, pays the quote at most, and leaves
    nothing uncollectible. -/
theorem quote_bounds_parallel (encode : List HttpResponse → Bytes) {endpoint : Endpoint}
    (parallel : endpoint ≠ .proxyHttpRequest) {msg : Message} (now : Nat) {state : State}
    {answers : List Answer} (some_agents : state.agents ≠ [])
    (order : (answers.map Answer.agent).Perm (List.range state.agents.length))
    (exact : ExactQuote state msg) (quoted : parallelCallCost state msg ≤ msg.attached)
    (bounded : ∀ res ∈ chargedResponse endpoint answers,
      ((cyclesCalculator state).countResponseBytes res).toNat ≤ (largestResponse msg).toNat) :
    ∃ e res, perform encode endpoint msg now state answers = some e ∧ e.reply = .ok res ∧
      e.machine.available ≤ msg.attached ∧
      msg.attached ≤ e.machine.available + parallelCallCost state msg ∧
      ∀ kept : U128 → Prop, kept state.uncollectibleCycles → OthersKeep kept answers →
        kept e.machine.state.uncollectibleCycles := by
  cases allowed : isAllowed state msg.caller with
  | false =>
    exact ⟨_, forbidden, perform_forbidden encode allowed, rfl, Nat.le_refl _,
      Nat.le_add_right _ _, fun kept good _ => good⟩
  | true =>
    have parts := quote_parts exact
    have first : parallelCharge msg (cyclesCalculator state) (duplicates state) ≤ msg.attached := by
      omega
    have left : responseQuote state msg ≤ (opened state msg
        (parallelCharge msg (cyclesCalculator state) (duplicates state))).available := by
      simp only [opened, Machine.accept]
      omega
    have settled : ∀ kept : U128 → Prop, kept state.uncollectibleCycles →
        OthersKeep kept answers → Settles kept
          (opened state msg (parallelCharge msg (cyclesCalculator state) (duplicates state)))
          (responseQuote state msg) (perform encode endpoint msg now state answers) := by
      intro kept good others
      obtain ⟨call, started, settles⟩ := drive_settles encode parallel kept now
        some_agents allowed order exact left bounded good others
      rw [perform_waiting encode started, if_pos first]
      exact settles
    obtain ⟨e, res, ended, replied, less, most, _⟩ :=
      settled (fun _ => True) trivial (fun _ _ _ _ => trivial)
    simp only [opened, Machine.accept] at less most
    refine ⟨e, res, ended, replied, by omega, by omega, ?_⟩
    intro kept good others
    obtain ⟨e', res', ended', _, _, _, keeps⟩ := settled kept good others
    have same : e' = e := Option.some.inj (ended'.symm.trans ended)
    rw [← same]
    exact keeps

def twoAgents : State :=
  ⟨[⟨"a", "https://a.example", 0, none⟩, ⟨"b", "https://b.example", 0, none⟩],
    fun p => if p = [1] then some (0, 0) else none, 13, 100000000, 0, 0⟩

def asking (attached : U128) : Message :=
  ⟨[1], ⟨"URL_A", none, [⟨"idempotency-key", "k1"⟩], none⟩, 200, attached⟩

def secondFirst : List Answer :=
  [⟨1, .ok ⟨200, [], [1, 2, 3]⟩, 1, id⟩, ⟨0, .error ⟨503, [], []⟩, 2, id⟩]

theorem attached_quote_serves_any :
    ∃ e res, perform (fun _ => []) .parallelCallAnyOk (asking 459892000) 0 twoAgents secondFirst =
        some e ∧ e.reply = .ok res ∧ e.machine.available ≤ 459892000 ∧
      459892000 ≤ e.machine.available + parallelCallCost twoAgents (asking 459892000) ∧
      ∀ kept : U128 → Prop, kept 0 → OthersKeep kept secondFirst →
        kept e.machine.state.uncollectibleCycles :=
  quote_bounds_parallel (fun _ => []) (by decide) 0 (by decide) (by decide)
    ⟨by decide, by decide⟩ (by decide) (by decide)

end ParallelQuote
