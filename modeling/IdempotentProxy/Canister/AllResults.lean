import Mathlib.Data.Nat.Digits.Lemmas
import Mathlib.Tactic.FinCases
import IdempotentProxy.Foundations.Cbor
import IdempotentProxy.Canister.SingleCall

/-!
What `parallel_call_all_ok` replies when every agent's call is `Ok`, the outcomes
arriving in any order. The list of inconsistent results is every later result that
differs from the first, and then the first one, once.
-/
namespace AllResults
open CycleCosts CanisterEndpoints SingleCall

/-- The slots of the results while the agents of `pending` have not answered. -/
def slots (results : List HttpResponse) (pending : List Nat) : List (Option HttpResponse) :=
  results.mapIdx fun i res => if i ∈ pending then none else some res

theorem slots_get (results : List HttpResponse) (pending : List Nat) (i : Nat) :
    (slots results pending)[i]? =
      results[i]?.map fun res => if i ∈ pending then none else some res := by
  simp [slots, List.getElem?_mapIdx]

theorem slots_start (results : List HttpResponse) {pending : List Nat}
    (everyone : ∀ i, i < results.length → i ∈ pending) :
    slots results pending = results.map fun _ => none := by
  apply List.ext_getElem?
  intro i
  rw [slots_get, List.getElem?_map]
  cases entry : results[i]? with
  | none => rfl
  | some res =>
    have bound := (List.getElem?_eq_some_iff.mp entry).1
    simp [everyone i bound]

theorem slots_done (results : List HttpResponse) : slots results [] = results.map some := by
  apply List.ext_getElem?
  intro i
  rw [slots_get, List.getElem?_map]
  rfl

theorem slots_set {results : List HttpResponse} {pending : List Nat} {i : Nat} {res : HttpResponse}
    (here : results[i]? = some res) (once : i ∉ pending) :
    (slots results (i :: pending)).set i (some res) = slots results pending := by
  apply List.ext_getElem?
  intro j
  rw [slots_get, List.getElem?_set]
  by_cases same : i = j
  · subst same
    have bound : i < (slots results (i :: pending)).length := by
      simpa [slots] using (List.getElem?_eq_some_iff.mp here).1
    simp [bound, here, once]
  · rw [if_neg same, slots_get]
    simp [Ne.symm same]

theorem all_answered_done (results : List HttpResponse) :
    allAnswered (results.map some) = some results := by
  induction results with
  | nil => rfl
  | cons res rest ih => simp [allAnswered, ih]

theorem all_answered_waiting {given : List (Option HttpResponse)} (missing : none ∈ given) :
    allAnswered given = none := by
  induction given with
  | nil => simp at missing
  | cons first rest ih =>
    cases first with
    | none => rfl
    | some res => simp [allAnswered, ih (by simpa using missing)]

variable (encode : List HttpResponse → Bytes)

def allOkReply (results : List HttpResponse) : HttpResponse :=
  consistentResult encode (results.head?.getD noAgents) results.tail

def Brings (results : List HttpResponse) (answers : List Answer) : Prop :=
  ∀ a ∈ answers, ∃ res, results[a.agent]? = some res ∧ a.outcome = .ok res

theorem drive_all {results : List HttpResponse} {answers : List Answer} {account : Account}
    (taken : Nat) (m : Machine) (some_left : answers ≠ []) (brings : Brings results answers)
    (once : (answers.map Answer.agent).Nodup) :
    ∃ after,
      drive encode taken (.all account (slots results (answers.map Answer.agent))) m answers =
        some ⟨.ok (allOkReply encode results), after, taken + answers.length⟩ := by
  induction answers generalizing taken m with
  | nil => exact absurd rfl some_left
  | cons a rest ih =>
    obtain ⟨res, here, outcome⟩ := brings a (by simp)
    rw [List.map_cons, List.nodup_cons] at once
    obtain ⟨fresh, once⟩ := once
    have awaited : (slots results (a.agent :: rest.map Answer.agent))[a.agent]? = some none := by
      simp [slots_get, here]
    have filled := slots_set here fresh
    cases rest with
    | nil =>
      rw [List.map_nil] at awaited
      rw [List.map_nil, slots_done] at filled
      obtain ⟨charged, received⟩ := receive_ignoring
        (account.calculator.httpOutcallResponseCost
          (account.calculator.countResponseBytes (results.head?.getD noAgents))
          (UInt32.ofNat (results.map some).length))
        { m with state := a.others m.state }
      refine ⟨account.credit a.now charged, ?_⟩
      simp only [drive, Call.awaits, List.map_cons, List.map_nil, awaited, decide_true, ↓reduceIte,
        resume, outcome, filled, all_answered_done, received]
      rfl
    | cons b rest =>
      have waiting : none ∈ slots results ((b :: rest).map Answer.agent) := by
        obtain ⟨other, there, _⟩ := brings b (by simp)
        refine List.mem_of_getElem? (i := b.agent) ?_
        simp [slots_get, there]
      obtain ⟨after, driven⟩ := ih (taken + 1) { m with state := a.others m.state } (by simp)
        (fun c mem => brings c (List.mem_cons_of_mem a mem)) once
      have total : taken + 1 + (b :: rest).length = taken + (a :: b :: rest).length := by
        simp only [List.length_cons]
        omega
      refine ⟨after, ?_⟩
      rw [drive, List.map_cons]
      simp only [Call.awaits, awaited, decide_true, ↓reduceIte, resume, outcome, filled,
        all_answered_waiting waiting]
      rw [driven, total]

theorem perform_all {msg : Message} (now : Nat) {state : State} {results : List HttpResponse}
    {answers : List Answer} (allowed : isAllowed state msg.caller = true)
    (some_agents : state.agents ≠ [])
    (covered : parallelCharge msg (cyclesCalculator state) (UInt32.ofNat state.agents.length) ≤
      msg.attached)
    (count : results.length = state.agents.length)
    (order : (answers.map Answer.agent).Perm (List.range state.agents.length))
    (brings : Brings results answers) :
    ∃ after, perform encode .parallelCallAllOk msg now state answers =
      some ⟨.ok (allOkReply encode results), after, answers.length⟩ := by
  obtain ⟨agent, rest, agents⟩ := List.exists_cons_of_ne_nil some_agents
  have everyone : ∀ i, i < results.length → i ∈ answers.map Answer.agent := by
    intro i bound
    rw [order.mem_iff, List.mem_range, ← count]
    exact bound
  have some_left : answers ≠ [] := by
    intro none_left
    subst none_left
    have length := order.length_eq
    simp [agents] at length
  have blank : state.agents.map (fun _ => none) = slots results (answers.map Answer.agent) := by
    rw [slots_start results everyone, List.map_const', List.map_const', count]
  rw [perform_waiting encode (start_parallel now allowed agents).1, if_pos covered, blank]
  obtain ⟨after, driven⟩ := drive_all encode 0
    (opened state msg
      (parallelCharge msg (cyclesCalculator state) (UInt32.ofNat state.agents.length)))
    some_left brings (order.nodup_iff.mpr List.nodup_range)
  exact ⟨after, by rw [driven, Nat.zero_add]⟩

/-- What the doc comment promises: the common result, or status 500 with all results. -/
def ReportsAll (results : List HttpResponse) (reply : HttpResponse) : Prop :=
  (∀ base, (∀ res ∈ results, res = base) → reply = base) ∧
    ((¬ ∃ base, ∀ res ∈ results, res = base) →
      reply.status = 500 ∧ ∃ listed, listed.Perm results ∧ reply.body = encode listed)

/-- No agent after the first repeats the first one's result, unless all do. -/
def FirstNotRepeated : List HttpResponse → Prop
  | [] => True
  | base :: rest => base ∉ rest ∨ ∀ res ∈ rest, res = base

theorem reply_consistent {base : HttpResponse} {rest : List HttpResponse}
    (same : ∀ res ∈ rest, res = base) : allOkReply encode (base :: rest) = base := by
  have kept : (rest.filter (· ≠ base)).isEmpty = true := by simpa using same
  exact if_pos kept

theorem reply_inconsistent {base : HttpResponse} {rest : List HttpResponse}
    (differs : ¬ ∀ res ∈ rest, res = base) :
    allOkReply encode (base :: rest) =
      ⟨500, [], encode (rest.filter (· ≠ base) ++ [base])⟩ := by
  have kept : ¬ (rest.filter (· ≠ base)).isEmpty = true := by simpa using differs
  exact if_neg kept

theorem reports_all_iff {results : List HttpResponse} (nonempty : results ≠ [])
    {decode : Bytes → Option (List HttpResponse)}
    (read_back : ∀ listed, listed ⊆ results → listed.length ≤ results.length →
      decode (encode listed) = some listed) :
    ReportsAll encode results (allOkReply encode results) ↔ FirstNotRepeated results := by
  obtain ⟨base, rest, rfl⟩ := List.exists_cons_of_ne_nil nonempty
  by_cases same : ∀ res ∈ rest, res = base
  · refine ⟨fun _ => Or.inr same, fun _ => ⟨?_, ?_⟩⟩
    · intro common all
      rw [reply_consistent encode same]
      exact all base (by simp)
    · intro differs
      exact absurd ⟨base, by simpa using same⟩ differs
  · have differs : ¬ ∃ common, ∀ res ∈ base :: rest, res = common := by
      rintro ⟨common, all⟩
      refine same fun res mem => ?_
      rw [all res (List.mem_cons_of_mem base mem), all base (by simp)]
    rw [reply_inconsistent encode same]
    constructor
    · intro reports
      obtain ⟨_, listed, perm, body⟩ := reports.2 differs
      have written := read_back listed perm.subset perm.length_eq.le
      have sub : rest.filter (· ≠ base) ++ [base] ⊆ base :: rest := by
        intro res mem
        rcases List.mem_append.mp mem with kept | last
        · exact List.mem_cons_of_mem base (List.mem_of_mem_filter kept)
        · simpa using Or.inl (List.mem_singleton.mp last)
      have short : (rest.filter (· ≠ base) ++ [base]).length ≤ (base :: rest).length := by
        simpa using List.length_filter_le (· ≠ base) rest
      dsimp only at body
      rw [← body, read_back _ sub short] at written
      have length : (rest.filter (· ≠ base) ++ [base]).length = (base :: rest).length :=
        (Option.some.inj written) ▸ perm.length_eq
      left
      intro repeated
      have kept := List.length_filter_eq_length_iff.mp
        (show (rest.filter (· ≠ base)).length = rest.length by simpa using length)
      simpa using kept base repeated
    · rintro (fresh | all)
      · refine ⟨fun common all => absurd ⟨common, all⟩ differs, fun _ => ⟨rfl, _, ?_, rfl⟩⟩
        have kept : rest.filter (· ≠ base) = rest := by
          rw [List.filter_eq_self]
          intro res mem
          have other : res ≠ base := by
            rintro rfl
            exact fresh mem
          simpa using other
        rw [kept]
        exact (List.perm_append_singleton base rest)
      · exact absurd all same

/-- `parallel_call_all_ok` reports every answer exactly when the first agent's result
    is not repeated among the others, or all agree. -/
theorem reports_every_answer_iff {msg : Message} {now : Nat} {state : State}
    {results : List HttpResponse} {answers : List Answer}
    {decode : Bytes → Option (List HttpResponse)}
    (allowed : isAllowed state msg.caller = true) (some_agents : state.agents ≠ [])
    (covered : parallelCharge msg (cyclesCalculator state) (UInt32.ofNat state.agents.length) ≤
      msg.attached)
    (count : results.length = state.agents.length)
    (order : (answers.map Answer.agent).Perm (List.range state.agents.length))
    (brings : Brings results answers)
    (read_back : ∀ listed, listed ⊆ results → listed.length ≤ results.length →
      decode (encode listed) = some listed) :
    (∃ reply after, perform encode .parallelCallAllOk msg now state answers =
        some ⟨.ok reply, after, answers.length⟩ ∧ ReportsAll encode results reply) ↔
      FirstNotRepeated results := by
  have nonempty : results ≠ [] := by
    intro none_left
    rw [none_left] at count
    exact some_agents (List.eq_nil_of_length_eq_zero count.symm)
  obtain ⟨after, performed⟩ :=
    perform_all encode now allowed some_agents covered count order brings
  rw [← reports_all_iff encode nonempty read_back]
  constructor
  · rintro ⟨reply, _, replied, reports⟩
    rw [performed] at replied
    cases replied
    exact reports
  · intro reports
    exact ⟨_, after, performed, reports⟩

section Written
open Cbor hiding Bytes

/-- A `candid::Nat` as its serialiser writes it: 32-bit digits, the least first. -/
def writeNat (n : Nat) : Bytes := array uint (Nat.digits 4294967296 n)

def writeHeader (h : HttpHeader) : Bytes :=
  mapHead 2 ++ (text "name" ++ (text h.name ++ (text "value" ++ text h.value)))

def writeResponse (res : HttpResponse) : Bytes :=
  mapHead 3 ++ (text "status" ++ (writeNat res.status ++ (text "headers" ++
    (array writeHeader res.headers ++ (text "body" ++ array (fun b => uint b.toNat) res.body)))))

def writeResults (results : List HttpResponse) : Bytes := array writeResponse results

def readNat (input : Bytes) : Option (Nat × Bytes) :=
  (readArray readUint input).map fun (digits, rest) => (Nat.ofDigits 4294967296 digits, rest)

def readHeader (input : Bytes) : Option (HttpHeader × Bytes) := do
  let (n, input) ← readKind 5 input
  guard (n = 2)
  let input ← readName "name" input
  let (name, input) ← readText input
  let input ← readName "value" input
  let (value, input) ← readText input
  return (⟨name, value⟩, input)

def readByte (input : Bytes) : Option (UInt8 × Bytes) :=
  (readUint input).map fun (n, rest) => (UInt8.ofNat n, rest)

def readResponse (input : Bytes) : Option (HttpResponse × Bytes) := do
  let (n, input) ← readKind 5 input
  guard (n = 3)
  let input ← readName "status" input
  let (status, input) ← readNat input
  let input ← readName "headers" input
  let (headers, input) ← readArray readHeader input
  let input ← readName "body" input
  let (body, input) ← readArray readByte input
  return (⟨status, headers, body⟩, input)

def readResults (input : Bytes) : Option (List HttpResponse) :=
  (readArray readResponse input).map Prod.fst

def Fits (res : HttpResponse) : Prop :=
  (Nat.digits 4294967296 res.status).length < 2 ^ 64 ∧ res.headers.length < 2 ^ 64 ∧
    (∀ h ∈ res.headers, (utf8 h.name).length < 2 ^ 64 ∧ (utf8 h.value).length < 2 ^ 64) ∧
    res.body.length < 2 ^ 64

instance (res : HttpResponse) : Decidable (Fits res) := inferInstanceAs (Decidable (_ ∧ _))

theorem read_nat {n : Nat} (bound : (Nat.digits 4294967296 n).length < 2 ^ 64) (rest : Bytes) :
    readNat (writeNat n ++ rest) = some (n, rest) := by
  have each : ∀ d ∈ Nat.digits 4294967296 n,
      ∀ rest, readUint (uint d ++ rest) = some (d, rest) := by
    intro d mem rest
    have small := Nat.digits_lt_base (by decide) mem
    exact read_uint (by omega) rest
  rw [readNat, writeNat, read_array each bound, Option.map_some]
  dsimp only
  rw [Nat.ofDigits_digits]

theorem read_header {h : HttpHeader} (name : (utf8 h.name).length < 2 ^ 64)
    (value : (utf8 h.value).length < 2 ^ 64) (rest : Bytes) :
    readHeader (writeHeader h ++ rest) = some (h, rest) := by
  simp only [readHeader, writeHeader, mapHead, List.append_assoc,
    read_kind (by decide : 5 < 8) (by decide : 2 < 2 ^ 64), Option.bind_eq_bind, Option.bind_some,
    guard_true, Option.pure_def, read_name (by decide : (utf8 "name").length < 2 ^ 64),
    read_name (by decide : (utf8 "value").length < 2 ^ 64), read_text name, read_text value]

theorem read_byte (b : UInt8) (rest : Bytes) :
    readByte (uint b.toNat ++ rest) = some (b, rest) := by
  have small := b.toNat_lt
  rw [readByte, read_uint (by omega), Option.map_some]
  dsimp only
  rw [UInt8.ofNat_toNat]

theorem read_response {res : HttpResponse} (fits : Fits res) (rest : Bytes) :
    readResponse (writeResponse res ++ rest) = some (res, rest) := by
  obtain ⟨digits, count, headers, body⟩ := fits
  have each : ∀ h ∈ res.headers, ∀ rest, readHeader (writeHeader h ++ rest) = some (h, rest) :=
    fun h mem => read_header (headers h mem).1 (headers h mem).2
  simp only [readResponse, writeResponse, mapHead, List.append_assoc,
    read_kind (by decide : 5 < 8) (by decide : 3 < 2 ^ 64), Option.bind_eq_bind, Option.bind_some,
    guard_true, Option.pure_def, read_name (by decide : (utf8 "status").length < 2 ^ 64),
    read_name (by decide : (utf8 "headers").length < 2 ^ 64),
    read_name (by decide : (utf8 "body").length < 2 ^ 64), read_nat digits, read_array each count,
    read_array (fun b _ => read_byte b) body]

theorem read_results {results listed : List HttpResponse} (fits : ∀ res ∈ results, Fits res)
    (bound : results.length < 2 ^ 64) (sub : listed ⊆ results)
    (short : listed.length ≤ results.length) : readResults (writeResults listed) = some listed := by
  have whole := read_array (fun res mem => read_response (fits res (sub mem)))
    (Nat.lt_of_le_of_lt short bound) []
  rw [List.append_nil] at whole
  rw [readResults, writeResults, whole, Option.map_some]

end Written

instance FirstNotRepeated.decidable : (results : List HttpResponse) →
    Decidable (FirstNotRepeated results)
  | [] => isTrue trivial
  | base :: rest => inferInstanceAs (Decidable (base ∉ rest ∨ ∀ res ∈ rest, res = base))

def told (body : Bytes) : HttpResponse := ⟨200, [], body⟩

/-- Free of charge: a subnet of size 0. -/
def threeAgents : State :=
  ⟨["a", "b", "c"].map fun name => ⟨name, "https://" ++ name, 0, none⟩,
    fun p => if p = [1] then some (0, 0) else none, 0, 0, 0, 0⟩

def askAll : Message := ⟨[1], ⟨"https://example.com/", none, [], none⟩, 200, 0⟩

def arriving (outcomes : List (Nat × HttpResponse)) : List Answer :=
  outcomes.map fun (i, res) => ⟨i, .ok res, 1, id⟩

theorem three_answers_reported :
    (∃ reply after, perform writeResults .parallelCallAllOk askAll 0 threeAgents
        (arriving [(2, told [121]), (0, told [120]), (1, told [121])]) =
          some ⟨.ok reply, after, 3⟩ ∧
      ReportsAll writeResults [told [120], told [121], told [121]] reply) ↔
      FirstNotRepeated [told [120], told [121], told [121]] := by
  refine reports_every_answer_iff writeResults (by decide) (by decide) (by decide) (by decide)
    (by decide) ?_ (fun listed => read_results (by decide) (by decide))
  intro a mem
  fin_cases mem
  · exact ⟨told [121], rfl, rfl⟩
  · exact ⟨told [120], rfl, rfl⟩
  · exact ⟨told [121], rfl, rfl⟩

/-- The third agent repeats the first one's answer, which is listed once. -/
theorem repeated_answer_lost :
    ∃ reply after, perform writeResults .parallelCallAllOk askAll 0 threeAgents
        (arriving [(0, told [120]), (1, told [121]), (2, told [120])]) =
          some ⟨.ok reply, after, 3⟩ ∧
      reply.body = writeResults [told [121], told [120]] ∧
      ¬ ReportsAll writeResults [told [120], told [121], told [120]] reply := by
  refine ⟨allOkReply writeResults [told [120], told [121], told [120]], _, rfl, by decide, ?_⟩
  intro reports
  have first := (reports_all_iff writeResults (by decide)
    (fun listed => read_results (by decide) (by decide))).mp reports
  revert first
  decide

end AllResults
