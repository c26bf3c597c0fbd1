import Mathlib.Algebra.BigOperators.Group.List.Basic
import IdempotentProxy.Foundations.EventRuns
import IdempotentProxy.Canister.Endpoints

/-!
Any number of proxy calls interleaved at their awaits, with agents and callers
changing in between. `book` lists, newest first, the calls that ended with the
cycles accepted from them and kept, and the registrations of callers. A caller is
not removed while a call of its own is in flight.
-/
namespace CycleAccounting
open EventRuns FixedWidth CycleCosts ProxyTokens CanisterEndpoints

/-- A suspended call and the cycles its committed slices have not accepted. -/
structure InFlight where
  call : Call
  available : Nat

def InFlight.caller (f : InFlight) : Principal := f.call.account.caller
def InFlight.kept (f : InFlight) : Nat := f.call.account.balance - f.available

inductive Entry where
  | ended (caller : Principal) (kept : Nat)
  | registered (caller : Principal)

def Entry.kept : Entry → Nat
  | .ended _ kept => kept
  | .registered _ => 0

structure System where
  state : State
  calls : List InFlight
  book : List Entry

inductive Event where
  | start (endpoint : Endpoint) (msg : Message) (now : Nat)
  | resume (n i : Nat) (outcome : Outcome) (now : Nat)
  | setAgents (agents : List Agent)
  | addCaller (id : Principal)
  | removeCaller (id : Principal)

def System.start (state : State) : System := ⟨state, [], []⟩

variable (encode : List HttpResponse → Bytes)

def stepStart (s : System) (endpoint : Endpoint) (msg : Message) (now : Nat) : System :=
  match start endpoint msg now ⟨s.state, msg.attached⟩ with
  | .error _ => { s with book := .ended msg.caller 0 :: s.book }
  | .ok (m, .finished _) =>
      { s with state := m.state, book := .ended msg.caller (msg.attached - m.available) :: s.book }
  | .ok (m, .waiting call) => { s with state := m.state, calls := s.calls ++ [⟨call, m.available⟩] }

/-- The call `f`, taken off the list, gets agent `i`'s outcome. A trap keeps what
    the earlier slices accepted and undoes this one. -/
def stepResume (s : System) (f : InFlight) (others : List InFlight) (i : Nat) (outcome : Outcome)
    (now : Nat) : System :=
  match resume encode i outcome now ⟨s.state, f.available⟩ f.call with
  | .error _ => { s with calls := others, book := .ended f.caller f.kept :: s.book }
  | .ok (m, .finished _) =>
      ⟨m.state, others, .ended f.caller (f.call.account.balance - m.available) :: s.book⟩
  | .ok (m, .waiting call) => { s with state := m.state, calls := others ++ [⟨call, m.available⟩] }

def step (s : System) : Event → Option System
  | .start endpoint msg now => some (stepStart s endpoint msg now)
  | .resume n i outcome now =>
      match s.calls[n]? with
      | none => none
      | some f =>
          if f.call.awaits i then some (stepResume encode s f (s.calls.eraseIdx n) i outcome now)
          else none
  | .setAgents agents => some { s with state := { s.state with agents := agents } }
  | .addCaller id =>
      if isAllowed s.state id then some s
      else some { s with
        state := { s.state with callers := Function.update s.state.callers id (some (0, 0)) }
        book := .registered id :: s.book }
  | .removeCaller id =>
      if ∃ f ∈ s.calls, f.caller = id then none
      else some { s with
        state := { s.state with callers := Function.update s.state.callers id none } }

def keptBy (book : List Entry) : Nat := (book.map Entry.kept).sum

/-- What `p`'s calls have left with the canister since `p` was last registered, on
    top of the opening balance if it was registered from the start. -/
def creditDue (opening : Principal → Nat) (p : Principal) : List Entry → Nat
  | [] => opening p
  | .registered q :: book => if q = p then 0 else creditDue opening p book
  | .ended q kept :: book => creditDue opening p book + if q = p then kept else 0

def openingBalance (state : State) (p : Principal) : Nat := ((state.callers p).map (·.1.val)).getD 0

/-- The property of a state with no call in flight, on sums below 2^128. -/
def Conserved (state : State) (s : System) : Prop :=
  s.calls = [] →
    (state.incomingCycles + keptBy s.book < 2 ^ 128 →
      s.state.incomingCycles.val = state.incomingCycles + keptBy s.book) ∧
    ∀ p total time, s.state.callers p = some (total, time) →
      creditDue (openingBalance state) p s.book < 2 ^ 128 →
        total.val = creditDue (openingBalance state) p s.book

/-- The sequential endpoint's next attempt, if it comes to one, is covered by what
    the call has left. -/
def NextAffordable (available : Nat) : Call → Outcome → Prop
  | .proxy account _ reqSize _ (_ :: _), .error _ =>
      account.calculator.httpOutcallRequestCost reqSize 1 ≤ available
  | _, _ => True

instance (available : Nat) (call : Call) (outcome : Outcome) :
    Decidable (NextAffordable available call outcome) := by
  unfold NextAffordable
  split <;> infer_instance

def Affordable (s : System) : Event → Prop
  | .resume n _ outcome _ => ∀ f ∈ s.calls[n]?, NextAffordable f.available f.call outcome
  | _ => True

instance (s : System) (e : Event) : Decidable (Affordable s e) := by
  cases e <;> simp only [Affordable] <;> infer_instance

structure Booked (state : State) (s : System) : Prop where
  incoming : s.state.incomingCycles =
    saturatingAdd state.incomingCycles (keptBy s.book + (s.calls.map InFlight.kept).sum)
  within : ∀ f ∈ s.calls, f.available ≤ f.call.account.balance
  registered : ∀ f ∈ s.calls, isAllowed s.state f.caller = true

def Credited (state : State) (s : System) : Prop :=
  ∀ p total time, s.state.callers p = some (total, time) →
    total.val = min (creditDue (openingBalance state) p s.book) (2 ^ 128 - 1)

section Inversion
variable {encode} {s t : System}

theorem step_resume {n i now : Nat} {outcome : Outcome}
    (moved : step encode s (.resume n i outcome now) = some t) :
    ∃ f, s.calls[n]? = some f ∧
      t = stepResume encode s f (s.calls.eraseIdx n) i outcome now := by
  simp only [step] at moved
  split at moved
  · cases moved
  · rename_i f found
    split at moved
    · cases moved
      exact ⟨f, found, rfl⟩
    · cases moved

theorem step_add_caller {id : Principal} (moved : step encode s (.addCaller id) = some t) :
    t = s ∨ t = { s with
      state := { s.state with callers := Function.update s.state.callers id (some (0, 0)) }
      book := .registered id :: s.book } := by
  simp only [step] at moved
  split at moved
  · cases moved
    exact Or.inl rfl
  · cases moved
    exact Or.inr rfl

theorem step_remove_caller {id : Principal} (moved : step encode s (.removeCaller id) = some t) :
    (∀ f ∈ s.calls, f.caller ≠ id) ∧ t = { s with
      state := { s.state with callers := Function.update s.state.callers id none } } := by
  simp only [step] at moved
  split at moved
  · cases moved
  · rename_i free
    cases moved
    exact ⟨fun f mem same => free ⟨f, mem, same⟩, rfl⟩

end Inversion

theorem credit_spec (account : Account) (now : Nat) (m : Machine) :
    (account.credit now m).available = m.available ∧
      (account.credit now m).state.incomingCycles = m.state.incomingCycles ∧
      (∀ p, isAllowed (account.credit now m).state p = isAllowed m.state p) ∧
      ∀ p total time, (account.credit now m).state.callers p = some (total, time) →
        ∃ before time', m.state.callers p = some (before, time') ∧
          total = saturatingAdd before
            (if account.caller = p then account.balance - m.available else 0) := by
  cases known : m.state.callers account.caller with
  | none =>
    simp only [Account.credit, updateCallerState, known, implies_true, true_and]
    intro p total time found
    refine ⟨total, time, found, ?_⟩
    rw [if_neg (by intro same; rw [same, found] at known; cases known), saturating_zero]
  | some entry =>
    obtain ⟨before, time'⟩ := entry
    simp only [Account.credit, updateCallerState, known, true_and]
    constructor
    · intro p
      by_cases same : p = account.caller
      · simp [isAllowed, same, known]
      · simp [isAllowed, same]
    · intro p total time found
      by_cases same : p = account.caller
      · subst same
        rw [Function.update_self] at found
        cases found
        exact ⟨before, time', known, by rw [if_pos rfl]⟩
      · rw [Function.update_of_ne same] at found
        refine ⟨total, time, found, ?_⟩
        rw [if_neg (Ne.symm same), saturating_zero]

theorem take_call_kept {calls : List InFlight} {n : Nat} {f : InFlight}
    (found : calls[n]? = some f) :
    (calls.map InFlight.kept).sum = f.kept + ((calls.eraseIdx n).map InFlight.kept).sum := by
  rw [((take_call found).map InFlight.kept).sum_eq]
  simp

theorem kept_after {f : InFlight} {state : State} {charged : Machine}
    (within : f.available ≤ f.call.account.balance)
    (charge : Charged ⟨state, f.available⟩ charged) :
    f.call.account.balance - charged.available = f.kept + (f.available - charged.available) ∧
      charged.available ≤ f.call.account.balance := by
  have less : charged.available ≤ f.available := charge.available
  simp only [InFlight.kept]
  omega

theorem allowed_of_callers {s t : State} (same : t.callers = s.callers) (p : Principal) :
    isAllowed t p = isAllowed s p := by rw [isAllowed, isAllowed, same]

theorem start_booked {state : State} {s : System} (inv : Booked state s) (endpoint : Endpoint)
    (msg : Message) (now : Nat) : Booked state (stepStart s endpoint msg now) := by
  unfold stepStart
  split
  · apply Booked.mk
    · rw [inv.incoming]
      simp [keptBy, Entry.kept]
    · exact inv.within
    · exact inv.registered
  · rename_i m res done
    rcases start_leaves done with ⟨_, same⟩ | ⟨call, waits, _⟩
    · subst same
      apply Booked.mk
      · rw [inv.incoming]
        simp [keptBy, Entry.kept]
      · exact inv.within
      · exact inv.registered
    · cases waits
  · rename_i m call done
    rcases start_leaves done with ⟨⟨res, ends⟩, _⟩ | ⟨_, waits, charge, allowed, account⟩
    · cases ends
    · cases waits
      have less : m.available ≤ msg.attached.val := charge.available
      apply Booked.mk
      · rw [charge.incoming, inv.incoming, saturating_add]
        simp only [List.map_append, List.sum_append, List.map_cons, List.map_nil, List.sum_cons,
          List.sum_nil, InFlight.kept, account]
        congr 1
        omega
      · intro f mem
        rcases List.mem_append.mp mem with before | new
        · exact inv.within f before
        · rw [List.mem_singleton.mp new, account]
          exact less
      · intro f mem
        rw [allowed_of_callers charge.callers]
        rcases List.mem_append.mp mem with before | new
        · exact inv.registered f before
        · rw [List.mem_singleton.mp new, InFlight.caller, account]
          exact allowed

theorem resume_booked {state : State} {s : System} (inv : Booked state s) {n : Nat} {f : InFlight}
    (found : s.calls[n]? = some f) (i : Nat) (outcome : Outcome) (now : Nat) :
    Booked state (stepResume encode s f (s.calls.eraseIdx n) i outcome now) := by
  have picked := take_call found
  have here : f ∈ s.calls := picked.mem_iff.mpr List.mem_cons_self
  have others : ∀ g ∈ s.calls.eraseIdx n, g ∈ s.calls := fun g mem => List.mem_of_mem_eraseIdx mem
  have total := take_call_kept found
  have incoming := inv.incoming
  unfold stepResume
  split
  · apply Booked.mk
    · rw [incoming, total]
      simp only [keptBy, List.map_cons, List.sum_cons, Entry.kept]
      congr 1
      omega
    · exact fun g mem => inv.within g (others g mem)
    · exact fun g mem => inv.registered g (others g mem)
  · rename_i m res done
    obtain ⟨charged, charge, same⟩ := resume_leaves done
    subst same
    obtain ⟨available, counter, allowed, _⟩ := credit_spec f.call.account now charged
    have split := kept_after (inv.within f here) charge
    apply Booked.mk
    · rw [counter, charge.incoming, incoming, total, saturating_add]
      simp only [keptBy, List.map_cons, List.sum_cons, Entry.kept, available, split.1]
      congr 1
      omega
    · exact fun g mem => inv.within g (others g mem)
    · intro g mem
      rw [allowed, allowed_of_callers charge.callers]
      exact inv.registered g (others g mem)
  · rename_i m call done
    obtain ⟨charge, account⟩ := resume_leaves done
    have split := kept_after (inv.within f here) charge
    apply Booked.mk
    · rw [charge.incoming, incoming, total, saturating_add]
      simp only [List.map_append, List.sum_append, List.map_cons, List.map_nil, List.sum_cons,
        List.sum_nil, InFlight.kept, account]
      simp only [InFlight.kept] at split
      rw [split.1]
      congr 1
      omega
    · intro g mem
      rcases List.mem_append.mp mem with before | new
      · exact inv.within g (others g before)
      · rw [List.mem_singleton.mp new, account]
        exact split.2
    · intro g mem
      rw [allowed_of_callers charge.callers]
      rcases List.mem_append.mp mem with before | new
      · exact inv.registered g (others g before)
      · rw [List.mem_singleton.mp new, InFlight.caller, account]
        exact inv.registered f here

theorem step_booked {state : State} {s t : System} {e : Event} (inv : Booked state s)
    (moved : step encode s e = some t) : Booked state t := by
  cases e with
  | start endpoint msg now =>
    cases moved
    exact start_booked inv endpoint msg now
  | resume n i outcome now =>
    obtain ⟨f, found, same⟩ := step_resume moved
    subst same
    exact resume_booked encode inv found i outcome now
  | setAgents agents =>
    cases moved
    exact ⟨inv.incoming, inv.within, inv.registered⟩
  | addCaller id =>
    rcases step_add_caller moved with same | same
    · subst same
      exact inv
    · subst same
      apply Booked.mk
      · rw [inv.incoming]
        simp [keptBy, Entry.kept]
      · exact inv.within
      · intro f mem
        have known := inv.registered f mem
        by_cases same : f.caller = id
        · simp [isAllowed, same]
        · simpa [isAllowed, same] using known
  | removeCaller id =>
    obtain ⟨free, same⟩ := step_remove_caller moved
    subst same
    apply Booked.mk
    · exact inv.incoming
    · exact inv.within
    · intro f mem
      have known := inv.registered f mem
      simpa [isAllowed, free f mem] using known

theorem credited_frame {state : State} {s t : System} (inv : Credited state s)
    (callers : t.state.callers = s.state.callers)
    (due : ∀ p, creditDue (openingBalance state) p t.book =
      creditDue (openingBalance state) p s.book) : Credited state t := by
  intro p total time found
  rw [callers] at found
  rw [due]
  exact inv p total time found

theorem start_credited {state : State} {s : System} (inv : Credited state s) (endpoint : Endpoint)
    (msg : Message) (now : Nat) : Credited state (stepStart s endpoint msg now) := by
  unfold stepStart
  split
  · exact credited_frame inv rfl (by simp [creditDue])
  · rename_i m res done
    rcases start_leaves done with ⟨_, same⟩ | ⟨call, waits, _⟩
    · subst same
      exact credited_frame inv rfl (by simp [creditDue])
    · cases waits
  · rename_i m call done
    rcases start_leaves done with ⟨⟨res, ends⟩, _⟩ | ⟨_, _, charge, _⟩
    · cases ends
    · exact credited_frame inv charge.callers (fun _ => rfl)

theorem resume_credited {state : State} {s : System} (inv : Credited state s) {f : InFlight}
    {others : List InFlight} {i : Nat} {outcome : Outcome} {now : Nat}
    (covered : NextAffordable f.available f.call outcome) :
    Credited state (stepResume encode s f others i outcome now) := by
  unfold stepResume
  split
  · rename_i text trapped
    obtain ⟨account, req, reqSize, agent, next, rest, res, call, failed, short⟩ :=
      resume_traps_iff.mp ⟨text, trapped⟩
    rw [call, failed] at covered
    exact absurd short (Nat.not_lt.mpr covered)
  · rename_i m res done
    obtain ⟨charged, charge, same⟩ := resume_leaves done
    subst same
    obtain ⟨available, _, _, entries⟩ := credit_spec f.call.account now charged
    intro p total time found
    obtain ⟨before, time', earlier, added⟩ := entries p total time found
    rw [charge.callers] at earlier
    have due := inv p before time' earlier
    rw [added]
    simp only [creditDue, saturatingAdd, due, available, InFlight.caller]
    omega
  · rename_i m call done
    obtain ⟨charge, _⟩ := resume_leaves done
    exact credited_frame inv charge.callers (fun _ => rfl)

theorem step_credited {state : State} {s t : System} {e : Event} (inv : Credited state s)
    (covered : Affordable s e) (moved : step encode s e = some t) : Credited state t := by
  cases e with
  | start endpoint msg now =>
    cases moved
    exact start_credited inv endpoint msg now
  | resume n i outcome now =>
    obtain ⟨f, found, same⟩ := step_resume moved
    subst same
    exact resume_credited encode inv (covered f found)
  | setAgents agents =>
    cases moved
    exact inv
  | addCaller id =>
    rcases step_add_caller moved with same | same
    · subst same
      exact inv
    · subst same
      intro p total time found
      dsimp only at found ⊢
      by_cases same : p = id
      · subst same
        rw [Function.update_self] at found
        cases found
        simp [creditDue]
      · rw [Function.update_of_ne same] at found
        simpa [creditDue, Ne.symm same] using inv p total time found
  | removeCaller id =>
    obtain ⟨_, same⟩ := step_remove_caller moved
    subst same
    intro p total time found
    dsimp only at found ⊢
    by_cases same : p = id
    · subst same
      rw [Function.update_self] at found
      cases found
    · rw [Function.update_of_ne same] at found
      exact inv p total time found

theorem start_booked_credited (state : State) :
    Booked state (System.start state) ∧ Credited state (System.start state) := by
  constructor
  · apply Booked.mk
    · simp [System.start, keptBy]
    · simp [System.start]
    · simp [System.start]
  · intro p total time found
    have bound := total.isLt
    have opening : openingBalance state p = total.val := by
      rw [openingBalance, show state.callers p = some (total, time) from found]
      rfl
    simp only [System.start, creditDue, opening]
    omega

theorem idle_counter {state : State} {s : System} (booked : Booked state s) (idle : s.calls = [])
    (fits : state.incomingCycles + keptBy s.book < 2 ^ 128) :
    s.state.incomingCycles.val = state.incomingCycles + keptBy s.book := by
  have counter := booked.incoming
  rw [idle, List.map_nil, List.sum_nil, Nat.add_zero] at counter
  rw [counter]
  exact saturating_exact fits

theorem conserved_of_booked {state : State} {s : System} (booked : Booked state s)
    (credited : Credited state s) : Conserved state s := by
  intro idle
  constructor
  · exact idle_counter booked idle
  · intro p total time found fits
    have due := credited p total time found
    omega

/-- The canister's own counter is right in every run. -/
theorem incoming_always_kept {state : State} {evs : List Event} {s : System}
    (reached : run (step encode) (System.start state) evs = some s) (idle : s.calls = [])
    (fits : state.incomingCycles + keptBy s.book < 2 ^ 128) :
    s.state.incomingCycles.val = state.incomingCycles + keptBy s.book := by
  have booked := run_invariant (fun _ _ _ inv moved => step_booked encode inv moved)
    (start_booked_credited state).1 reached
  exact idle_counter booked idle fits

theorem cycles_conserved {state : State} {evs : List Event}
    (covered : Along (step encode) Affordable (System.start state) evs) :
    Throughout (step encode) (Conserved state) (System.start state) evs := by
  have both : Throughout (step encode) (fun s => Booked state s ∧ Credited state s)
      (System.start state) evs :=
    throughout_of_along
      (fun _ _ _ inv good moved =>
        ⟨step_booked encode inv.1 moved, step_credited encode inv.2 good moved⟩)
      (start_booked_credited state) covered
  intro pre post s split reached
  obtain ⟨booked, credited⟩ := both pre post s split reached
  exact conserved_of_booked booked credited

def caller : Principal := [1]

def twoAgents : State :=
  ⟨[⟨"a", "https://a.example", 0, none⟩, ⟨"b", "https://b.example", 0, none⟩],
    Function.update (fun _ => none) caller (some (0, 0)), 13, 100000000, 0, 0⟩

def request : CanisterHttpRequestArgument := ⟨"URL_A", none, [⟨"idempotency-key", "k1"⟩], none⟩

def attempt (attached : U128) : Event := .start .proxyHttpRequest ⟨caller, request, 200, attached⟩ 0

def failed : Outcome := .error ⟨503, [], []⟩
def answered : Outcome := .ok ⟨200, [], [1, 2, 3]⟩

theorem failover_run_conserved :
    Throughout (step fun _ => []) (Conserved twoAgents) (System.start twoAgents)
      [attempt 400000000, .resume 0 0 failed 1, .resume 0 1 answered 2] :=
  cycles_conserved (fun _ => []) (by decide)

/-- The second attempt is not covered: the first one's charges are kept and the
    caller's account does not show them. -/
theorem uncovered_retry_not_credited :
    ¬ ∀ (encode : List HttpResponse → Bytes) (state : State) (evs : List Event),
      Throughout (step encode) (Conserved state) (System.start state) evs := by
  intro claim
  have after : (run (step fun _ => []) (System.start twoAgents)
      [attempt 200000000, .resume 0 0 failed 1]).map
        (fun s => (s.calls.length, (s.state.callers caller).map (·.1.val),
          creditDue (openingBalance twoAgents) caller s.book)) =
      some (0, some 0, 183850000) := by decide
  obtain ⟨s, reached, seen⟩ := Option.map_eq_some_iff.mp after
  simp only [Prod.mk.injEq, List.length_eq_zero_iff, Option.map_eq_some_iff] at seen
  obtain ⟨idle, ⟨⟨total, time⟩, found, zero⟩, due⟩ := seen
  have kept := (claim (fun _ => []) twoAgents _ _ [] s (List.append_nil _).symm reached idle).2
    caller total time found
  rw [due] at kept
  have credited := kept (by decide)
  have uncredited : total.val = 0 := zero
  omega

end CycleAccounting
