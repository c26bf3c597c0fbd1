import IdempotentProxy.Server.KeptEntries
import IdempotentProxy.Server.ProxyHandler
import IdempotentProxy.Server.StoredForm

/-!
A request that finds its key taken and polls. It reads the key when its `obtain` has
returned and after every interval, as many times as the interval goes into the ttl, and
sleeps once more after the last read. Reads take no time and get through, sleeps take the
interval.
-/
namespace WaitingDuplicates
open EventRuns HybridCache KeptEntries CachedResponse ProxyHandler
open RedisCache (Fault)

variable {libs : Libraries}

def wakes (r : Nat) : Action → Bool
  | .poll i _ | .pollTimeout i => i == r
  | _ => false

def getsThrough : Action → Bool
  | .poll _ fault => decide (fault = .none)
  | _ => true

def Spares (requests : Nat → Request) (key : String) : Action → Prop
  | .set i _ | .del i _ => (requests i).idempotencyKey ≠ key
  | _ => True

section Steps
variable {settings : Settings} {requests : Nat → Request} {s t : System libs} {now : Nat}
  {a : Action} {e : Event}

/-- One step moves one request at most, on from where it was and never back to its start;
    a polling request moves when it wakes. -/
theorem perform_stages (performed : perform settings requests s now a = some t) :
    t.stages = s.stages ∨ ∃ i next, t.stages = Function.update s.stages i next ∧
      (s.stages i).isReturned = false ∧ next ≠ .arrived ∧
      ∀ counter, s.stages i = .polling counter → wakes i a = true := by
  have advanced : ∀ i, (∀ counter, s.stages i = .polling counter → wakes i a = true) →
      (advance (requests i) (s.stages i) a).map (s.move i) = some t →
      ∃ i next, t.stages = Function.update s.stages i next ∧
        (s.stages i).isReturned = false ∧ next ≠ .arrived ∧
        ∀ counter, s.stages i = .polling counter → wakes i a = true := by
    intro i woken moved
    obtain ⟨next, went, same⟩ := Option.map_eq_some_iff.mp moved
    subst same
    obtain ⟨busy, onwards, _⟩ := advance_moves went
    exact ⟨i, next, rfl, busy, onwards, woken⟩
  cases a with
  | obtain i fault =>
    obtain ⟨here, same⟩ := perform_obtain performed
    subst same
    right
    have still : ∀ counter, s.stages i = .polling counter → wakes i (.obtain i fault) = true := by
      intro counter polling
      cases here.symm.trans polling
    obtain ⟨next, onwards, stages⟩ := obtain_stages settings requests s i now fault
    exact ⟨i, next, stages, by rw [here]; rfl, onwards, still⟩
  | poll i fault =>
    obtain ⟨counter, here, same⟩ := perform_poll performed
    subst same
    right
    obtain ⟨next, onwards, stages⟩ := poll_stages requests s i counter now fault
    exact ⟨i, next, stages, by rw [here]; rfl, onwards, fun _ _ => by simp [wakes]⟩
  | set i fault =>
    obtain ⟨rd, data, serialised, here, same⟩ := perform_set performed
    subst same
    right
    refine ⟨i, _, rfl, by rw [here]; rfl, by simp, ?_⟩
    intro counter polling
    cases here.symm.trans polling
  | del i fault =>
    obtain ⟨status, text, here, same⟩ := perform_del performed
    subst same
    right
    refine ⟨i, _, rfl, by rw [here]; rfl, by simp, ?_⟩
    intro counter polling
    cases here.symm.trans polling
  | clean =>
    cases performed
    exact Or.inl rfl
  | pollTimeout i => exact Or.inr (advanced i (fun _ _ => by simp [wakes]) performed)
  | readBody i read =>
    refine Or.inr (advanced i ?_ performed)
    intro counter polling
    simp [perform, polling, advance] at performed
  | execute i answer =>
    refine Or.inr (advanced i ?_ performed)
    intro counter polling
    simp [perform, polling, advance] at performed
  | receive i body =>
    refine Or.inr (advanced i ?_ performed)
    intro counter polling
    simp [perform, polling, advance] at performed

theorem step_returned (moved : step settings requests s e = some t) {i : Nat} {reply : Reply}
    (ended : s.stages i = .returned reply) : t.stages i = .returned reply := by
  obtain ⟨_, u, performed, same⟩ := step_performed moved
  subst same
  rcases perform_stages performed with kept | ⟨j, next, updated, busy, _⟩
  · exact (congrFun kept i).trans ended
  · have other : i ≠ j := by
      intro same
      subst same
      rw [ended] at busy
      cases busy
    exact ((congrFun updated i).trans (Function.update_of_ne other _ _)).trans ended

theorem step_arrived (moved : step settings requests s e = some t) {i : Nat}
    (waits : t.stages i = .arrived) : s.stages i = .arrived := by
  obtain ⟨_, u, performed, same⟩ := step_performed moved
  subst same
  dsimp only at waits
  rcases perform_stages performed with kept | ⟨j, next, updated, _, onwards, _⟩
  · exact (congrFun kept i).symm.trans waits
  · rw [updated] at waits
    by_cases here : i = j
    · subst here
      rw [Function.update_self] at waits
      exact absurd waits onwards
    · rw [Function.update_of_ne here] at waits
      exact waits

theorem step_asleep (moved : step settings requests s e = some t) {r counter : Nat}
    (polling : s.stages r = .polling counter) (asleep : wakes r e.action = false) :
    t.stages r = .polling counter := by
  obtain ⟨_, u, performed, same⟩ := step_performed moved
  subst same
  rcases perform_stages performed with kept | ⟨j, next, updated, _, _, woken⟩
  · exact (congrFun kept r).trans polling
  · have other : r ≠ j := by
      intro same
      subst same
      rw [woken counter polling] at asleep
      cases asleep
    exact ((congrFun updated r).trans (Function.update_of_ne other _ _)).trans polling

theorem step_clock (moved : step settings requests s e = some t) :
    s.clock ≤ e.now ∧ t.clock = e.now := by
  obtain ⟨order, u, _, same⟩ := step_performed moved
  subst same
  exact ⟨order, rfl⟩

theorem step_ticks (settings : Settings) (requests : Nat → Request) (s : System libs) (e : Event)
    (t : System libs) : step settings requests s e = some t → s.clock ≤ e.now ∧ t.clock = e.now :=
  step_clock

theorem run_arrived {evs : List Event} (accepted : run (step settings requests) s evs = some t)
    {i : Nat} (waits : t.stages i = .arrived) : s.stages i = .arrived := by
  induction evs generalizing s with
  | nil =>
    cases accepted
    exact waits
  | cons e evs ih =>
    obtain ⟨m, first, rest⟩ := run_cons_iff.mp accepted
    exact step_arrived first (ih rest)

theorem step_keeps {key : String} {expiry : Nat} {v : Bytes}
    (keeps : Keeps s.cacher key expiry v) (early : e.now < expiry)
    (spared : Spares requests key e.action) (moved : step settings requests s e = some t) :
    Keeps t.cacher key expiry v ∧ placeholder t.cacher = placeholder s.cacher := by
  obtain ⟨_, u, performed, same⟩ := step_performed moved
  subst same
  have advanced : ∀ {i : Nat},
      (advance (requests i) (s.stages i) e.action).map (s.move i) = some u →
      Keeps u.cacher key expiry v ∧ placeholder u.cacher = placeholder s.cacher := by
    intro i went
    obtain ⟨next, _, same⟩ := Option.map_eq_some_iff.mp went
    subst same
    exact ⟨keeps, rfl⟩
  obtain ⟨now, action⟩ := e
  dsimp only at early spared performed advanced ⊢
  cases action with
  | obtain i fault =>
    obtain ⟨_, same⟩ := perform_obtain performed
    subst same
    rw [obtain_cacher]
    exact ⟨keeps_obtain keeps early _ _ _, placeholder_obtain _ _ _ _ _⟩
  | poll i fault =>
    obtain ⟨counter, _, same⟩ := perform_poll performed
    subst same
    rw [poll_cacher]
    exact ⟨keeps, rfl⟩
  | set i fault =>
    obtain ⟨rd, data, _, _, same⟩ := perform_set performed
    subst same
    exact ⟨keeps_set_other keeps spared _ _ _, placeholder_set _ _ _ _ _ _⟩
  | del i fault =>
    obtain ⟨status, text, _, same⟩ := perform_del performed
    subst same
    exact ⟨keeps_del_other keeps spared _, placeholder_del _ _ _⟩
  | clean =>
    cases performed
    exact ⟨keeps_clean keeps early, placeholder_clean _ _⟩
  | pollTimeout i => exact advanced performed
  | readBody i read => exact advanced performed
  | execute i answer => exact advanced performed
  | receive i body => exact advanced performed

theorem run_keeps_entry {key : String} {expiry : Nat} {v : Bytes} {evs : List Event}
    (keeps : Keeps s.cacher key expiry v) (spared : ∀ e ∈ evs, Spares requests key e.action)
    (accepted : run (step settings requests) s evs = some t) (early : t.clock < expiry) :
    Keeps t.cacher key expiry v ∧ placeholder t.cacher = placeholder s.cacher := by
  refine run_keeps_until (step_ticks settings requests)
    (I := fun u => Keeps u.cacher key expiry v ∧ placeholder u.cacher = placeholder s.cacher)
    ?_ ⟨keeps, rfl⟩ (along_forall spared) accepted early
  intro a e b kept spared early moved
  obtain ⟨still, backend⟩ := step_keeps kept.1 early spared moved
  exact ⟨still, backend.trans kept.2⟩

end Steps

/-- The `counter` that `polling_get` is called with. -/
def polls (settings : Settings) : Nat := settings.cacheTtl / settings.pollInterval

/-- When the sleeps so far have passed, with `counter` reads still to come. -/
def dueAt (settings : Settings) (arrival counter : Nat) : Nat :=
  arrival + (polls settings - counter) * settings.pollInterval

def lastRead (settings : Settings) (arrival : Nat) : Nat := dueAt settings arrival 1

/-- While `r` polls, nothing happens past its next read, and it reads when that is due. -/
def OnTime (settings : Settings) (r arrival : Nat) (s : System libs) (e : Event) : Prop :=
  match s.stages r with
  | .polling counter => e.now ≤ dueAt settings arrival counter ∧
      (wakes r e.action = true →
        e.now = dueAt settings arrival counter ∧ getsThrough e.action = true)
  | _ => True

instance (settings : Settings) (r arrival : Nat) (s : System libs) (e : Event) :
    Decidable (OnTime settings r arrival s e) := by
  unfold OnTime
  split <;> infer_instance

def timedOut : Reply := badGateway "polling get cache timeout"

def Waited (settings : Settings) (arrival clock : Nat) : Stage libs → Prop
  | .polling counter => counter ≤ polls settings ∧
      (counter < polls settings → dueAt settings arrival (counter + 1) ≤ clock)
  | .returned reply => reply = timedOut ∧ (0 < polls settings → lastRead settings arrival ≤ clock)
  | _ => False

section Loop
variable {settings : Settings} {requests : Nat → Request} {s t : System libs} {e : Event}
  {r arrival expiry : Nat} {key : String} {v : Bytes}

theorem due_steps (counter : Nat) :
    dueAt settings arrival (counter + 1) ≤ dueAt settings arrival counter := by
  unfold dueAt
  have fewer : polls settings - (counter + 1) ≤ polls settings - counter := by omega
  have scaled := Nat.mul_le_mul_right settings.pollInterval fewer
  omega

theorem due_last {counter : Nat} (some_left : 0 < counter) :
    dueAt settings arrival counter ≤ lastRead settings arrival := by
  unfold lastRead dueAt
  have fewer : polls settings - counter ≤ polls settings - 1 := by omega
  have scaled := Nat.mul_le_mul_right settings.pollInterval fewer
  omega

theorem last_read_early (some_reads : 0 < polls settings) :
    lastRead settings arrival < arrival + settings.cacheTtl := by
  have whole : polls settings * settings.pollInterval ≤ settings.cacheTtl :=
    Nat.div_mul_le_self _ _
  have apart : (polls settings - 1) * settings.pollInterval + settings.pollInterval =
      polls settings * settings.pollInterval := by
    obtain ⟨n, same⟩ := Nat.exists_eq_succ_of_ne_zero (Nat.pos_iff_ne_zero.mp some_reads)
    rw [same, Nat.succ_sub_one, Nat.succ_mul]
  have wide := settings.poll_bound
  unfold lastRead dueAt
  omega

theorem polls_iff : 0 < polls settings ↔ settings.pollInterval ≤ settings.cacheTtl := by
  have wide := settings.poll_bound
  exact Nat.div_pos_iff.trans ⟨fun both => both.2, fun fits => ⟨by omega, fits⟩⟩

theorem waited_later {clock later : Nat} {stage : Stage libs} (order : clock ≤ later)
    (waited : Waited settings arrival clock stage) : Waited settings arrival later stage := by
  cases stage with
  | polling counter => exact ⟨waited.1, fun fewer => Nat.le_trans (waited.2 fewer) order⟩
  | returned reply => exact ⟨waited.1, fun some_reads => Nat.le_trans (waited.2 some_reads) order⟩
  | _ => exact waited.elim

theorem step_woken {counter : Nat} (moved : step settings requests s e = some t)
    (polling : s.stages r = .polling counter) (woken : wakes r e.action = true) :
    (∃ left fault, counter = left + 1 ∧ e.action = .poll r fault ∧
      t.stages = (stepPoll requests s r left e.now fault).stages) ∨
      counter = 0 ∧ t.stages r = .returned timedOut := by
  obtain ⟨_, u, performed, same⟩ := step_performed moved
  subst same
  obtain ⟨now, action⟩ := e
  cases action with
  | poll i fault =>
    have mine : i = r := by simpa [wakes] using woken
    subst mine
    obtain ⟨left, here, same⟩ := perform_poll performed
    subst same
    have count := polling.symm.trans here
    injection count with count
    exact Or.inl ⟨left, fault, count, rfl, rfl⟩
  | pollTimeout i =>
    have mine : i = r := by simpa [wakes] using woken
    subst mine
    cases counter with
    | zero =>
      simp only [perform, polling, advance, Option.map_some, Option.some.injEq] at performed
      subst performed
      exact Or.inr ⟨rfl, Function.update_self _ _ _⟩
    | succ left => simp [perform, polling, advance] at performed
  | _ => cases woken

theorem step_waited (waited : Waited settings arrival s.clock (s.stages r))
    (sameKey : (requests r).idempotencyKey = key)
    (keeps : Keeps s.cacher key expiry v) (blank : v = placeholder s.cacher)
    (early : e.now < expiry) (onTime : OnTime settings r arrival s e)
    (moved : step settings requests s e = some t) :
    Waited settings arrival t.clock (t.stages r) := by
  obtain ⟨order, read⟩ := step_clock moved
  cases here : s.stages r with
  | returned reply =>
    rw [step_returned moved here]
    rw [here] at waited
    exact waited_later (by omega) waited
  | polling counter =>
    rw [here] at waited
    simp only [OnTime, here] at onTime
    cases woken : wakes r e.action with
    | false =>
      rw [step_asleep moved here woken]
      exact waited_later (by omega) waited
    | true =>
      obtain ⟨due, through⟩ := onTime.2 woken
      rcases step_woken moved here woken with
        ⟨left, fault, count, acts, polled⟩ | ⟨none_left, timeout⟩
      · have clear : fault = .none := by simpa [acts, getsThrough] using through
        subst clear count
        rw [polled]
        simp only [stepPoll, sameKey, poll_blank keeps early blank, System.move,
          Function.update_self]
        exact ⟨Nat.le_of_succ_le waited.1, fun _ => by omega⟩
      · subst none_left
        rw [timeout, read, due]
        exact ⟨rfl, fun _ => due_steps 0⟩
  | _ =>
    rw [here] at waited
    exact waited.elim

theorem run_waited {evs : List Event} (waited : Waited settings arrival s.clock (s.stages r))
    (sameKey : (requests r).idempotencyKey = key)
    (keeps : Keeps s.cacher key expiry v) (blank : v = placeholder s.cacher)
    (spared : ∀ e ∈ evs, Spares requests key e.action)
    (onTime : Along (step settings requests) (OnTime settings r arrival) s evs)
    (accepted : run (step settings requests) s evs = some t) (early : t.clock < expiry) :
    Waited settings arrival t.clock (t.stages r) := by
  refine (run_keeps_until (step_ticks settings requests)
    (I := fun u => Waited settings arrival u.clock (u.stages r) ∧
      Keeps u.cacher key expiry v ∧ v = placeholder u.cacher)
    ?_ ⟨waited, keeps, blank⟩ (along_and (along_forall spared) onTime) accepted early).1
  rintro a e b ⟨waited, keeps, blank⟩ ⟨spared, onTime⟩ early moved
  obtain ⟨kept, backend⟩ := step_keeps keeps early spared moved
  exact ⟨step_waited waited sameKey keeps blank early onTime moved, kept,
    blank.trans backend.symm⟩

/-- With a read to come that the entry outlives, a loop over a filled entry is about to
    return it or has. -/
def Served (settings : Settings) (r arrival expiry : Nat) (key : String) (v : Bytes)
    (s : System libs) : Prop :=
  (∃ counter, s.stages r = .polling (counter + 1) ∧ Keeps s.cacher key expiry v ∧
    dueAt settings arrival (counter + 1) < expiry) ∨
  s.stages r = .returned (replay libs v)

theorem step_served (served : Served settings r arrival expiry key v s)
    (sameKey : (requests r).idempotencyKey = key) (filled : 1 < v.length)
    (spared : Spares requests key e.action) (onTime : OnTime settings r arrival s e)
    (moved : step settings requests s e = some t) :
    Served settings r arrival expiry key v t := by
  rcases served with ⟨counter, here, keeps, lasts⟩ | ended
  · simp only [OnTime, here] at onTime
    have early : e.now < expiry := Nat.lt_of_le_of_lt onTime.1 lasts
    cases woken : wakes r e.action with
    | false =>
      exact Or.inl ⟨counter, step_asleep moved here woken,
        (step_keeps keeps early spared moved).1, lasts⟩
    | true =>
      obtain ⟨_, through⟩ := onTime.2 woken
      right
      rcases step_woken moved here woken with ⟨left, fault, _, acts, polled⟩ | ⟨none_left, _⟩
      · have clear : fault = .none := by simpa [acts, getsThrough] using through
        subst clear
        rw [polled]
        simp only [stepPoll, sameKey, poll_filled keeps early filled, System.move,
          Function.update_self]
      · cases none_left
  · exact Or.inr (step_returned moved ended)

theorem run_served {evs : List Event} (served : Served settings r arrival expiry key v s)
    (sameKey : (requests r).idempotencyKey = key) (filled : 1 < v.length)
    (spared : ∀ e ∈ evs, Spares requests key e.action)
    (onTime : Along (step settings requests) (OnTime settings r arrival) s evs)
    (accepted : run (step settings requests) s evs = some t) :
    Served settings r arrival expiry key v t :=
  run_keeps (fun _ _ _ served good moved => step_served served sameKey filled good.1 good.2 moved)
    served (along_and (along_forall spared) onTime) accepted

def Missed (r : Nat) (s : System libs) : Prop :=
  s.stages r = .polling 0 ∨ s.stages r = .returned timedOut

theorem step_missed (missed : Missed r s) (moved : step settings requests s e = some t) :
    Missed r t := by
  rcases missed with here | ended
  · cases woken : wakes r e.action with
    | false => exact Or.inl (step_asleep moved here woken)
    | true =>
      rcases step_woken moved here woken with ⟨left, fault, count, _⟩ | ⟨_, timeout⟩
      · cases count
      · exact Or.inr timeout
  · exact Or.inr (step_returned moved ended)

theorem run_missed {evs : List Event} (missed : Missed r s)
    (accepted : run (step settings requests) s evs = some t) : Missed r t :=
  run_invariant (fun _ _ _ => step_missed) missed accepted

def Punctual (settings : Settings) (r arrival : Nat) (s : System libs) : Prop :=
  (s.stages r).isReturned = true ∨
    ∃ counter, s.stages r = .polling counter ∧ s.clock ≤ dueAt settings arrival counter

theorem poll_left (requests : Nat → Request) (s : System libs) (r left now : Nat) (fault : Fault) :
    (stepPoll requests s r left now fault).stages r = .polling left ∨
      ((stepPoll requests s r left now fault).stages r).isReturned = true := by
  unfold stepPoll
  dsimp only
  split
  · exact Or.inr (by simp [System.move, Stage.isReturned])
  · exact Or.inl (by simp [System.move])
  · exact Or.inr (by simp [System.move, Stage.isReturned])

theorem step_punctual (punctual : Punctual settings r arrival s)
    (onTime : OnTime settings r arrival s e) (moved : step settings requests s e = some t) :
    Punctual settings r arrival t := by
  have read := (step_clock moved).2
  rcases punctual with ended | ⟨counter, here, _⟩
  · cases stage : s.stages r with
    | returned reply =>
      left
      rw [step_returned moved stage]
      rfl
    | _ =>
      rw [stage] at ended
      cases ended
  · simp only [OnTime, here] at onTime
    cases woken : wakes r e.action with
    | false => exact Or.inr ⟨counter, step_asleep moved here woken, by rw [read]; exact onTime.1⟩
    | true =>
      rcases step_woken moved here woken with ⟨left, fault, count, _, polled⟩ | ⟨_, timeout⟩
      · subst count
        have due : t.clock = dueAt settings arrival (left + 1) := read.trans (onTime.2 woken).1
        rcases poll_left requests s r left e.now fault with polling | ended
        · exact Or.inr ⟨left, by rw [polled]; exact polling, by rw [due]; exact due_steps left⟩
        · exact Or.inl (by rw [polled]; exact ended)
      · left
        rw [timeout]
        rfl

theorem run_punctual {evs : List Event} (punctual : Punctual settings r arrival s)
    (onTime : Along (step settings requests) (OnTime settings r arrival) s evs)
    (accepted : run (step settings requests) s evs = some t) : Punctual settings r arrival t :=
  run_keeps (fun _ _ _ inv good moved => step_punctual inv good moved) punctual onTime accepted

theorem punctual_ended (punctual : Punctual settings r arrival s)
    (late : dueAt settings arrival 0 < s.clock) : (s.stages r).isReturned = true := by
  rcases punctual with ended | ⟨counter, _, waits⟩
  · exact ended
  · have fewer : polls settings - counter ≤ polls settings - 0 := by omega
    have scaled := Nat.mul_le_mul_right settings.pollInterval fewer
    unfold dueAt at waits late
    omega

/-- A polling request can always go on, and by its own steps alone ends its loop. By
    induction on the reads still to come. -/
theorem punctual_returns (requests : Nat → Request) (punctual : Punctual settings r arrival s) :
    ∃ evs u, run (step settings requests) s evs = some u ∧
      Along (step settings requests) (OnTime settings r arrival) s evs ∧
      (u.stages r).isReturned = true := by
  rcases punctual with ended | ⟨counter, here, waits⟩
  · exact ⟨[], s, rfl, trivial, ended⟩
  · induction counter generalizing s with
    | zero =>
      have moved : step settings requests s ⟨dueAt settings arrival 0, .pollTimeout r⟩ =
          some { s.move r (.returned timedOut) with clock := dueAt settings arrival 0 } := by
        simp only [step, if_pos waits, perform, here, advance]
        rfl
      refine ⟨_, _, run_single_iff.mpr moved, along_cons moved ?_ trivial, ?_⟩
      · simp [OnTime, here, getsThrough]
      · simp [System.move, Stage.isReturned]
    | succ left ih =>
      have moved : step settings requests s ⟨dueAt settings arrival (left + 1), .poll r .none⟩ =
          some { stepPoll requests s r left (dueAt settings arrival (left + 1)) .none with
            clock := dueAt settings arrival (left + 1) } := by
        simp only [step, if_pos waits, perform, here]
        rfl
      have good : OnTime settings r arrival s
          ⟨dueAt settings arrival (left + 1), .poll r .none⟩ := by
        simp [OnTime, here, getsThrough]
      rcases poll_left requests s r left (dueAt settings arrival (left + 1)) .none with
        polling | ended
      · obtain ⟨evs, u, rest, onTime, ended⟩ := ih
          (s := { stepPoll requests s r left (dueAt settings arrival (left + 1)) .none with
            clock := dueAt settings arrival (left + 1) }) polling (due_steps left)
        exact ⟨_ :: evs, u, run_cons_iff.mpr ⟨_, moved, rest⟩, along_cons moved good onTime, ended⟩
      · exact ⟨_, _, run_single_iff.mpr moved, along_cons moved good trivial, ended⟩

end Loop

/-- `holder` obtains the key and `waiter` finds it taken; `holder`'s `set`, executed before
    that or after, replies `Ok` inside its lease, and nobody deletes the key. The waiter
    comes before the ttl that the `set` gives the answer is over. The run goes on until the
    waiter has returned, or past its last sleep. -/
structure Wait (libs : Libraries) (settings : Settings) (requests : Nat → Request) where
  holder : Nat
  waiter : Nat
  sameKey : (requests waiter).idempotencyKey = (requests holder).idempotencyKey
  start : System libs
  leaseFrom : Nat
  obtainFault : Fault
  leased : System libs
  obtained : step settings requests start ⟨leaseFrom, .obtain holder obtainFault⟩ = some leased
  granted : (leased.stages holder).holding = true
  events : List Event
  done : System libs
  accepted : run (step settings requests) leased events = some done
  arrival : Nat
  arrivalFault : Fault
  before : List Event
  found : System libs
  waiting : System libs
  after : List Event
  arrives : StepAt (step settings requests) leased events before found
    ⟨arrival, .obtain waiter arrivalFault⟩ waiting after
  refused : waiting.stages waiter = .polling (polls settings)
  setAt : Nat
  setFault : Fault
  earlier : List Event
  filling : System libs
  filled : System libs
  later : List Event
  sets : StepAt (step settings requests) leased events earlier filling
    ⟨setAt, .set holder setFault⟩ filled later
  answer : ResponseData
  replied : filled.stages holder = .returned (.ok answer)
  inLease : setAt < leaseFrom + settings.cacheTtl
  inside : arrival < setAt + settings.cacheTtl
  undeleted : ∀ e ∈ events, ∀ i fault, e.action = .del i fault →
    (requests i).idempotencyKey ≠ (requests holder).idempotencyKey
  onTime : Along (step settings requests) (OnTime settings waiter arrival) waiting after
  elapsed : (done.stages waiter).isReturned = true ∨
    dueAt settings arrival 0 < done.clock

def readLeft : Stage libs → Bool
  | .arrived | .polling (_ + 1) => true
  | _ => false

namespace Wait
variable {settings : Settings} {requests : Nat → Request} (w : Wait libs settings requests)

abbrev key : String := (requests w.holder).idempotencyKey

def Alone : Prop := ∀ e ∈ w.earlier ++ w.later, ∀ i fault, e.action = .set i fault →
  (requests i).idempotencyKey ≠ w.key

def InTime : Prop := settings.pollInterval ≤ settings.cacheTtl ∧
  (w.setAt < lastRead settings w.arrival ∨ w.setAt = lastRead settings w.arrival ∧
    readLeft (w.filling.stages w.waiter) = true)

def Answered : Prop := w.done.stages w.waiter = .returned (.ok w.answer)

variable {w} (queue : QueuedOnce w.key w.start.cacher) (alone : w.Alone)

theorem leased_keeps (queue : QueuedOnce w.key w.start.cacher) :
    Keeps w.leased.cacher w.key (w.leaseFrom + settings.cacheTtl)
      (placeholder w.leased.cacher) := by
  obtain ⟨_, u, performed, same⟩ := step_performed w.obtained
  obtain ⟨_, stepped⟩ := perform_obtain performed
  have held := w.granted
  rw [same, stepped] at held ⊢
  unfold stepObtain at held ⊢
  dsimp only at held ⊢
  split at held
  · simp [System.move, Stage.holding] at held
  · simp [System.move, Stage.holding] at held
  · rename_i granted
    simp only [System.move, placeholder_obtain]
    exact keeps_granted queue granted

theorem spares (alone : w.Alone) :
    ∀ e ∈ w.earlier ++ w.later, Spares requests w.key e.action := by
  intro e mem
  have listed : e ∈ w.events := by
    rw [w.sets.split]
    rcases List.mem_append.mp mem with front | back
    · exact List.mem_append_left _ front
    · exact List.mem_append_right _ (List.mem_cons_of_mem _ back)
  cases acts : e.action with
  | set i fault => exact alone e mem i fault acts
  | del i fault => exact w.undeleted e listed i fault acts
  | _ => trivial

theorem returned (w : Wait libs settings requests) :
    (w.done.stages w.waiter).isReturned = true := by
  have arrived : Punctual settings w.waiter w.arrival w.waiting := by
    have read : w.waiting.clock = w.arrival := (step_clock w.arrives.moved).2
    exact Or.inr ⟨polls settings, w.refused, by simp [dueAt, read]⟩
  have punctual := run_punctual arrived w.onTime (step_at_rest w.arrives w.accepted)
  rcases w.elapsed with ended | late
  · exact ended
  · exact punctual_ended punctual late

theorem served_answered (roundTrip : ∀ rd data, libs.toBytes rd = .ok data →
      libs.tryFrom data = .ok rd) {data : Bytes} (serialised : libs.toBytes w.answer = .ok data)
    {s : System libs} {evs : List Event}
    (served : Served settings w.waiter w.arrival (w.setAt + settings.cacheTtl) w.key data s)
    (spared : ∀ e ∈ evs, Spares requests w.key e.action)
    (onTime : Along (step settings requests) (OnTime settings w.waiter w.arrival) s evs)
    (accepted : run (step settings requests) s evs = some w.done) : w.Answered := by
  have ended := w.returned
  rcases run_served served w.sameKey (libs.to_bytes_long w.answer data serialised) spared onTime
    accepted with ⟨_, polling, _⟩ | replayed
  · rw [polling] at ended
    cases ended
  · simpa [Answered, replay, roundTrip _ _ serialised] using replayed

theorem missed_timed_out {s : System libs} {evs : List Event} (missed : Missed w.waiter s)
    (accepted : run (step settings requests) s evs = some w.done) :
    w.done.stages w.waiter = .returned timedOut := by
  have ended := w.returned
  rcases run_missed missed accepted with polling | timeout
  · rw [polling] at ended
    cases ended
  · exact timeout

include queue alone

theorem set_keeps : ∃ data, libs.toBytes w.answer = .ok data ∧
    Keeps w.filled.cacher w.key (w.setAt + settings.cacheTtl) data := by
  obtain ⟨order, u, performed, same⟩ := step_performed w.sets.moved
  have early : w.filling.clock < w.leaseFrom + settings.cacheTtl :=
    Nat.lt_of_le_of_lt order w.inLease
  obtain ⟨keeps, _⟩ := run_keeps_entry (leased_keeps queue)
    (fun e mem => spares alone e (List.mem_append_left _ mem)) w.sets.reached early
  obtain ⟨rd, data, serialised, _, stepped⟩ := perform_set performed
  have ended := w.replied
  rw [same, stepped] at ended ⊢
  simp only [stepSet, System.move, Function.update_self, Stage.returned.injEq] at ended ⊢
  cases reply : (set w.filling.cacher w.key data settings.cacheTtl w.setAt w.setFault).2 with
  | error text =>
    rw [reply] at ended
    cases ended
  | ok stored =>
    rw [reply] at ended
    cases ended
    exact ⟨data, serialised, keeps_set keeps w.inLease data settings.cacheTtl w.setFault reply⟩

theorem waited_at_set {mid : List Event}
    (front : w.earlier = w.before ++ ⟨w.arrival, .obtain w.waiter w.arrivalFault⟩ :: mid)
    (sets : StepAt (step settings requests) w.waiting w.after mid w.filling
      ⟨w.setAt, .set w.holder w.setFault⟩ w.filled w.later) :
    Waited settings w.arrival w.filling.clock (w.filling.stages w.waiter) := by
  have spared : ∀ e ∈ w.earlier, Spares requests w.key e.action :=
    fun e mem => spares alone e (List.mem_append_left _ mem)
  have order : w.found.clock ≤ w.arrival := (step_clock w.arrives.moved).1
  have read : w.waiting.clock = w.arrival := (step_clock w.arrives.moved).2
  have reached := (run_clock (step_ticks settings requests) sets.reached).1
  have setting : w.filling.clock ≤ w.setAt := (step_clock sets.moved).1
  have inLease := w.inLease
  obtain ⟨found, backend⟩ := run_keeps_entry (leased_keeps queue)
    (fun e mem => spared e (front ▸ List.mem_append_left _ mem)) w.arrives.reached (by omega)
  have early : w.arrival < w.leaseFrom + settings.cacheTtl := by omega
  obtain ⟨blank, backend'⟩ := step_keeps found early (by trivial) w.arrives.moved
  have start : Waited settings w.arrival w.waiting.clock (w.waiting.stages w.waiter) := by
    rw [w.refused]
    exact ⟨Nat.le_refl _, fun fewer => absurd fewer (Nat.lt_irrefl _)⟩
  exact run_waited start w.sameKey blank (backend.symm.trans backend'.symm)
    (fun e mem => spared e (front ▸ List.mem_append_right _ (List.mem_cons_of_mem _ mem)))
    (along_append (sets.split ▸ w.onTime)).1 sets.reached (by omega)

theorem arrived_first (roundTrip : ∀ rd data, libs.toBytes rd = .ok data →
      libs.tryFrom data = .ok rd) {mid : List Event}
    (front : w.earlier = w.before ++ ⟨w.arrival, .obtain w.waiter w.arrivalFault⟩ :: mid)
    (sets : StepAt (step settings requests) w.waiting w.after mid w.filling
      ⟨w.setAt, .set w.holder w.setFault⟩ w.filled w.later) :
    w.InTime ∧ w.Answered ∨ ¬ w.InTime ∧ w.done.stages w.waiter = .returned timedOut := by
  obtain ⟨data, serialised, keeps⟩ := set_keeps queue alone
  have waited := waited_at_set queue alone front sets
  have tail := step_at_rest sets (step_at_rest w.arrives w.accepted)
  have setting : w.filling.clock ≤ w.setAt := (step_clock sets.moved).1
  have read : w.waiting.clock = w.arrival := (step_clock w.arrives.moved).2
  have reached := (run_clock (step_ticks settings requests) sets.reached).1
  obtain ⟨timely, onTime⟩ := (along_append (sets.split ▸ w.onTime)).2 w.filling sets.reached
  have missed_late : (0 < polls settings → lastRead settings w.arrival ≤ w.filling.clock) →
      readLeft (w.filling.stages w.waiter) = false → ¬ w.InTime := by
    rintro late none_left ⟨fits, earlier | ⟨_, left⟩⟩
    · have passed := late (polls_iff.mpr fits)
      omega
    · rw [none_left] at left
      cases left
  cases here : w.filling.stages w.waiter with
  | returned reply =>
    rw [here] at waited
    obtain ⟨timeout, late⟩ := waited
    subst timeout
    right
    refine ⟨missed_late late (by rw [here]; rfl), ?_⟩
    exact missed_timed_out (Or.inr (step_returned sets.moved here)) tail
  | polling counter =>
    rw [here] at waited
    simp only [OnTime, here] at timely
    have asleep := step_asleep sets.moved here rfl
    cases counter with
    | zero =>
      right
      exact ⟨missed_late waited.2 (by rw [here]; rfl), missed_timed_out (Or.inl asleep) tail⟩
    | succ left =>
      have some_reads : 0 < polls settings := Nat.lt_of_lt_of_le (Nat.succ_pos left) waited.1
      have last : dueAt settings w.arrival (left + 1) ≤ lastRead settings w.arrival :=
        due_last (Nat.succ_pos left)
      have lasts : lastRead settings w.arrival < w.arrival + settings.cacheTtl :=
        last_read_early some_reads
      have waits : w.setAt ≤ dueAt settings w.arrival (left + 1) := timely.1
      left
      constructor
      · refine ⟨polls_iff.mp some_reads, ?_⟩
        rcases Nat.lt_or_eq_of_le (Nat.le_trans waits last) with earlier | same
        · exact Or.inl earlier
        · exact Or.inr ⟨same, by rw [here]; rfl⟩
      · exact served_answered roundTrip serialised
          (Or.inl ⟨left, asleep, keeps, by omega⟩)
          (fun e mem => spares alone e (List.mem_append_right _ mem))
          (onTime w.filled sets.moved) tail
  | _ =>
    rw [here] at waited
    exact waited.elim

theorem set_first (roundTrip : ∀ rd data, libs.toBytes rd = .ok data →
      libs.tryFrom data = .ok rd) {mid : List Event}
    (arrives : StepAt (step settings requests) w.filled w.later mid w.found
      ⟨w.arrival, .obtain w.waiter w.arrivalFault⟩ w.waiting w.after) :
    w.InTime ∧ w.Answered ∨ ¬ w.InTime ∧ w.done.stages w.waiter = .returned timedOut := by
  obtain ⟨data, serialised, keeps⟩ := set_keeps queue alone
  have spared : ∀ e ∈ w.later, Spares requests w.key e.action :=
    fun e mem => spares alone e (List.mem_append_right _ mem)
  have tail := step_at_rest w.arrives w.accepted
  have order : w.found.clock ≤ w.arrival := (step_clock arrives.moved).1
  have reached := (run_clock (step_ticks settings requests) arrives.reached).1
  have setting : w.filled.clock = w.setAt := (step_clock w.sets.moved).2
  have inside := w.inside
  obtain ⟨found, _⟩ := run_keeps_entry keeps
    (fun e mem => spared e (arrives.split ▸ List.mem_append_left _ mem)) arrives.reached (by omega)
  obtain ⟨filled, _⟩ := step_keeps found inside (by trivial) arrives.moved
  obtain ⟨_, u, performed, _⟩ := step_performed arrives.moved
  have new : w.filling.stages w.waiter = .arrived :=
    step_arrived w.sets.moved (run_arrived arrives.reached (perform_obtain performed).1)
  by_cases fits : settings.pollInterval ≤ settings.cacheTtl
  · obtain ⟨left, count⟩ := Nat.exists_eq_succ_of_ne_zero
      (Nat.pos_iff_ne_zero.mp (polls_iff.mpr fits))
    have polling : w.waiting.stages w.waiter = .polling (left + 1) := by
      rw [w.refused, count]
    have now : dueAt settings w.arrival (left + 1) = w.arrival := by
      simp [dueAt, count]
    have last : dueAt settings w.arrival (left + 1) ≤ lastRead settings w.arrival :=
      due_last (Nat.succ_pos left)
    left
    constructor
    · refine ⟨fits, ?_⟩
      rcases Nat.lt_or_eq_of_le (show w.setAt ≤ lastRead settings w.arrival by omega) with
        earlier | same
      · exact Or.inl earlier
      · exact Or.inr ⟨same, by rw [new]; rfl⟩
    · exact served_answered roundTrip serialised
        (Or.inl ⟨left, polling, filled, by omega⟩)
        (fun e mem => spared e (arrives.split ▸
          List.mem_append_right _ (List.mem_cons_of_mem _ mem)))
        w.onTime tail
  · have none_left : polls settings = 0 :=
      Nat.eq_zero_of_not_pos fun some_reads => fits (polls_iff.mp some_reads)
    right
    refine ⟨fun inTime => fits inTime.1, missed_timed_out (Or.inl ?_) tail⟩
    rw [w.refused, none_left]

end Wait

/-- Where the holder's `set` is the only one and nothing stale is queued for the key, the
    waiter returns the holder's answer exactly when the `set` comes before its last read,
    and times out otherwise. -/
theorem answered_iff {settings : Settings} {requests : Nat → Request}
    (w : Wait libs settings requests)
    (roundTrip : ∀ rd data, libs.toBytes rd = .ok data → libs.tryFrom data = .ok rd)
    (queue : QueuedOnce w.key w.start.cacher) (alone : w.Alone) :
    (w.Answered ↔ w.InTime) ∧
      (w.done.stages w.waiter = .returned timedOut ↔ ¬ w.InTime) := by
  have outcome : w.InTime ∧ w.Answered ∨
      ¬ w.InTime ∧ w.done.stages w.waiter = .returned timedOut := by
    rcases step_at_order (by simp) w.arrives w.sets with ⟨mid, front, sets⟩ | ⟨mid, _, arrives⟩
    · exact Wait.arrived_first queue alone roundTrip front sets
    · exact Wait.set_first queue alone roundTrip arrives
  have apart : w.Answered → w.done.stages w.waiter ≠ .returned timedOut := by
    intro answered timeout
    cases answered.symm.trans timeout
  rcases outcome with ⟨inTime, answered⟩ | ⟨late, timeout⟩
  · exact ⟨⟨fun _ => inTime, fun _ => answered⟩,
      ⟨fun timeout => absurd timeout (apart answered), fun late => absurd inTime late⟩⟩
  · exact ⟨⟨fun answered => absurd timeout (apart answered), fun inTime => absurd inTime late⟩,
      ⟨fun _ => late, fun _ => timeout⟩⟩

def coarse : Settings := ⟨300, 1000, by decide, by decide⟩

def sampleAnswer : ResponseData := ⟨200, [], [1], "text/plain"⟩

def heldThrough (evs : List Event) : System StoredForm.libraries :=
  (run (step coarse postRequest) (System.start StoredForm.libraries .memory)
    (⟨0, .obtain 0 .none⟩ :: evs)).getD (System.start StoredForm.libraries .memory)

def untilSet : List Event :=
  [⟨0, .readBody 0 (.ok ())⟩, ⟨0, .obtain 1 .none⟩, ⟨0, .poll 1 .none⟩, ⟨300, .poll 1 .none⟩,
    ⟨590, .execute 0 (.ok (200, []))⟩, ⟨600, .receive 0 (.ok [1])⟩]

def timelyRun : List Event := untilSet ++ [⟨600, .set 0 .none⟩, ⟨600, .poll 1 .none⟩]

def timelyWait : Wait StoredForm.libraries coarse postRequest where
  holder := 0
  waiter := 1
  sameKey := rfl
  start := System.start StoredForm.libraries .memory
  leaseFrom := 0
  obtainFault := .none
  leased := heldThrough []
  obtained := rfl
  granted := rfl
  events := timelyRun
  done := heldThrough timelyRun
  accepted := rfl
  arrival := 0
  arrivalFault := .none
  before := timelyRun.take 1
  found := heldThrough (timelyRun.take 1)
  waiting := heldThrough (timelyRun.take 2)
  after := timelyRun.drop 2
  arrives := ⟨rfl, rfl, rfl⟩
  refused := rfl
  setAt := 600
  setFault := .none
  earlier := untilSet
  filling := heldThrough untilSet
  filled := heldThrough (timelyRun.take 7)
  later := timelyRun.drop 7
  sets := ⟨rfl, rfl, rfl⟩
  answer := sampleAnswer
  replied := rfl
  inLease := by decide
  inside := by decide
  undeleted := by simp [timelyRun, untilSet]
  onTime := by decide
  elapsed := Or.inl rfl

theorem timely_wait_answered : timelyWait.Answered := by
  have queue : QueuedOnce timelyWait.key timelyWait.start.cacher := by
    intro p mem
    simp [MemoryCache.MemoryCacher.default] at mem
  have alone : timelyWait.Alone := by
    simp [Wait.Alone, timelyWait, timelyRun, untilSet]
  have inTime : timelyWait.InTime := ⟨by decide, Or.inr ⟨rfl, rfl⟩⟩
  exact (answered_iff timelyWait (fun _ _ => StoredForm.libraries_round_trip) queue alone).1.mpr
    inTime

/-- The answer is set while the waiter sleeps for the last time, well inside the lease. -/
def lateRun : List Event :=
  untilSet ++ [⟨600, .poll 1 .none⟩, ⟨900, .set 0 .none⟩, ⟨900, .pollTimeout 1⟩]

def lateWait : Wait StoredForm.libraries coarse postRequest where
  holder := 0
  waiter := 1
  sameKey := rfl
  start := System.start StoredForm.libraries .memory
  leaseFrom := 0
  obtainFault := .none
  leased := heldThrough []
  obtained := rfl
  granted := rfl
  events := lateRun
  done := heldThrough lateRun
  accepted := rfl
  arrival := 0
  arrivalFault := .none
  before := lateRun.take 1
  found := heldThrough (lateRun.take 1)
  waiting := heldThrough (lateRun.take 2)
  after := lateRun.drop 2
  arrives := ⟨rfl, rfl, rfl⟩
  refused := rfl
  setAt := 900
  setFault := .none
  earlier := lateRun.take 7
  filling := heldThrough (lateRun.take 7)
  filled := heldThrough (lateRun.take 8)
  later := lateRun.drop 8
  sets := ⟨rfl, rfl, rfl⟩
  answer := sampleAnswer
  replied := rfl
  inLease := by decide
  inside := by decide
  undeleted := by simp [lateRun, untilSet]
  onTime := by decide
  elapsed := Or.inl rfl

theorem late_answer_missed :
    ¬ ∀ (libs : Libraries) (settings : Settings) (requests : Nat → Request)
      (w : Wait libs settings requests),
      (∀ rd data, libs.toBytes rd = .ok data → libs.tryFrom data = .ok rd) → w.Answered := by
  intro claim
  have answered : (heldThrough lateRun).stages 1 = .returned (.ok sampleAnswer) :=
    claim _ _ _ lateWait fun _ _ => StoredForm.libraries_round_trip
  have timeout : (heldThrough lateRun).stages 1 = .returned timedOut := rfl
  cases answered.symm.trans timeout

end WaitingDuplicates
