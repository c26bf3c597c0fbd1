import IdempotentProxy.Server.CacheKeys
import IdempotentProxy.Server.WaitingDuplicates

/-!
How often the upstream is called. While every holder is done with its lease in time, a key
that one request has obtained is not granted to another for a whole ttl, nor for a whole
ttl after the response was stored, unless the first one gives its lease up by a `del`.
-/
namespace OneCall
open CachedResponse EventRuns ExpiringStore HybridCache ProxyHandler
open CacheKeys (perform_other)
open Ownership (Leased Owned WithinLease key)
open RedisCache (Fault)
open WaitingDuplicates (step_clock)

variable {libs : Libraries} {settings : Settings} {requests : Nat → Request} {s t a b : System libs}
  {i j now later : Nat}

/-- For a ttl from `since` the key is taken by the entry of `i`'s lease. -/
def Taken (settings : Settings) (requests : Nat → Request) (i since now : Nat) (s : System libs) :
    Prop :=
  now < since + settings.cacheTtl → ∃ e v,
    live (view s.cacher) now (key requests i) = some (e, v) ∧ since + settings.cacheTtl ≤ e ∧
      s.creator (key requests i) = some i

def Keeps (i : Nat) (e : Event) : Prop := ∀ fault, e.action ≠ .del i fault

theorem taken_later {since : Nat} (taken : Taken settings requests i since now s)
    (order : now ≤ later) : Taken settings requests i since later s := by
  intro early
  obtain ⟨e, v, alive, lasts, whose⟩ := taken (by omega)
  refine ⟨e, v, ?_, lasts, whose⟩
  exact live_some_iff.mpr ⟨(live_some_iff.mp alive).1, by omega⟩

theorem taken_still {since : Nat} (taken : Taken settings requests i since now s)
    (entry : live (view t.cacher) now (key requests i) = live (view s.cacher) now (key requests i))
    (record : t.creator (key requests i) = s.creator (key requests i)) :
    Taken settings requests i since now t := by
  intro early
  rw [entry, record]
  exact taken early

theorem obtain_taken {since : Nat} (taken : Taken settings requests i since now s) (fault : Fault)
    (performed : perform settings requests s now (.obtain j fault) = some t) :
    Taken settings requests i since now t := by
  intro early
  have bound := settings.ttl_bound
  obtain ⟨e, v, alive, lasts, whose⟩ := taken early
  have same : view t.cacher (key requests i) = view s.cacher (key requests i) := by
    by_cases shared : key requests i = key requests j
    · obtain ⟨_, rfl⟩ := perform_obtain performed
      rw [obtain_cacher]
      rcases obtain_cases s.cacher (requests j).idempotencyKey settings.cacheTtl now fault
        (by omega) with ⟨same, _⟩ | ⟨free, _⟩
      · rw [same]
      · rw [shared, show key requests j = (requests j).idempotencyKey from rfl, free] at alive
        cases alive
    · exact perform_other performed rfl shared
  obtain ⟨_, rfl⟩ := perform_obtain performed
  refine ⟨e, v, ?_, lasts, ?_⟩
  · rw [live_congr same]
    exact alive
  · rw [obtain_record fault same]
    exact whose

theorem set_taken {since : Nat} (inv : Leased settings requests now s)
    (taken : Taken settings requests i since now s) (begun : since ≤ now) (fault : Fault)
    (timely : now < s.since j + settings.cacheTtl)
    (performed : perform settings requests s now (.set j fault) = some t) :
    Taken settings requests i since now t := by
  have holds := writer_holding (Or.inl performed)
  have other := fun differs => perform_other performed rfl differs (k := key requests i)
  obtain ⟨rd, data, _, _, rfl⟩ := perform_set performed
  intro early
  obtain ⟨e, v, alive, lasts, whose⟩ := taken early
  have record : (stepSet settings requests s j rd data now fault).creator (key requests i) =
      some i := whose
  by_cases shared : key requests i = key requests j
  · obtain ⟨mine, _⟩ := Ownership.lease_entry inv holds timely
    rcases set_view_live s.cacher (key requests j) data settings.cacheTtl now fault mine with
      stored | ⟨same, _⟩
    · refine ⟨now + settings.cacheTtl, data, live_some_iff.mpr ⟨?_, by omega⟩, by omega, record⟩
      rw [shared]
      exact (congrFun stored _).trans (put_same _ _ _ _)
    · exact ⟨e, v, (live_congr (congrFun same _) now).trans alive, lasts, record⟩
  · refine ⟨e, v, ?_, lasts, record⟩
    rw [live_congr (other shared)]
    exact alive

theorem del_taken {since : Nat} (inv : Leased settings requests now s)
    (taken : Taken settings requests i since now s) (fault : Fault) (differs : j ≠ i)
    (timely : now < s.since j + settings.cacheTtl)
    (performed : perform settings requests s now (.del j fault) = some t) :
    Taken settings requests i since now t := by
  have holds := writer_holding (Or.inr performed)
  intro early
  obtain ⟨e, v, alive, lasts, whose⟩ := taken early
  have apart : key requests i ≠ key requests j := by
    intro shared
    obtain ⟨_, owner⟩ := Ownership.lease_entry inv holds timely
    rw [← shared, whose] at owner
    exact differs (Option.some.inj owner).symm
  have same := perform_other performed rfl apart
  obtain ⟨status, text, _, rfl⟩ := perform_del performed
  refine ⟨e, v, ?_, lasts, whose⟩
  rw [live_congr same]
  exact alive

theorem advance_taken {since : Nat} (taken : Taken settings requests i since now s) {act : Action}
    (moved : (advance (requests j) (s.stages j) act).map (s.move j) = some t) :
    Taken settings requests i since now t := by
  obtain ⟨next, _, rfl⟩ := Option.map_eq_some_iff.mp moved
  exact taken_still taken rfl rfl

theorem perform_taken {since : Nat} {act : Action} (inv : Leased settings requests now s)
    (taken : Taken settings requests i since now s) (begun : since ≤ now)
    (timely : WithinLease settings s ⟨now, act⟩) (keeps : Keeps i ⟨now, act⟩)
    (performed : perform settings requests s now act = some t) :
    Taken settings requests i since now t := by
  cases act with
  | obtain j fault => exact obtain_taken taken fault performed
  | set j fault => exact set_taken inv taken begun fault timely performed
  | del j fault =>
    have differs : j ≠ i := by
      rintro rfl
      exact keeps fault rfl
    exact del_taken inv taken fault differs timely performed
  | poll j fault =>
    obtain ⟨counter, _, rfl⟩ := perform_poll performed
    apply taken_still taken
    · rw [poll_cacher]
    · unfold stepPoll
      dsimp only
      split <;> rfl
  | clean =>
    cases performed
    exact taken_still taken (clean_live inv.sound now _) rfl
  | pollTimeout j => exact advance_taken taken performed
  | readBody j read => exact advance_taken taken performed
  | execute j answer => exact advance_taken taken performed
  | receive j body => exact advance_taken taken performed

def Guarded (settings : Settings) (requests : Nat → Request) (i since : Nat) (s : System libs) :
    Prop :=
  Owned settings requests s ∧ since ≤ s.clock ∧ Taken settings requests i since s.clock s

theorem step_guarded {since : Nat} {e : Event} (guarded : Guarded settings requests i since s)
    (timely : WithinLease settings s e) (keeps : Keeps i e)
    (moved : step settings requests s e = some t) : Guarded settings requests i since t := by
  obtain ⟨owned, begun, taken⟩ := guarded
  obtain ⟨order, read⟩ := step_clock moved
  refine ⟨Ownership.step_owned settings requests owned timely moved, by omega, ?_⟩
  obtain ⟨_, u, performed, rfl⟩ := step_performed moved
  have kept : Taken settings requests i since e.now u :=
    perform_taken (Ownership.leased_later owned.1 order) (taken_later taken order) (by omega)
      timely keeps performed
  exact kept

theorem run_guarded {since : Nat} {evs : List Event} (guarded : Guarded settings requests i since s)
    (timely : Along (step settings requests) (WithinLease settings) s evs)
    (keeps : ∀ e ∈ evs, Keeps i e) (accepted : run (step settings requests) s evs = some t) :
    Guarded settings requests i since t :=
  run_keeps (fun _ _ _ inv both moved => step_guarded inv both.1 both.2 moved) guarded
    (along_and timely (along_forall keeps)) accepted

/-- The step by which a request comes to hold a lease is an `obtain` that found its key
    free. -/
theorem turns_holding {e : Event} (moved : step settings requests s e = some t)
    (idle : ¬ (s.stages i).holding = true) (holds : (t.stages i).holding = true) :
    (∃ fault, e.action = .obtain i fault) ∧ t.since i = e.now ∧
      live (view s.cacher) e.now (key requests i) = none := by
  obtain ⟨_, u, performed, rfl⟩ := step_performed moved
  have elsewhere : ∀ {k : Nat} {stage : Stage libs},
      u.stages = Function.update s.stages k stage → (stage.holding = true → k ≠ i) → False := by
    intro k stage stages rest
    have here : (u.stages i).holding = true := holds
    rw [stages] at here
    by_cases same : i = k
    · subst same
      rw [Function.update_self] at here
      exact rest here rfl
    · rw [Function.update_of_ne same] at here
      exact idle here
  have advanced : ∀ {k : Nat} {act : Action},
      (advance (requests k) (s.stages k) act).map (s.move k) = some u → False := by
    intro k act went
    obtain ⟨next, on, rfl⟩ := Option.map_eq_some_iff.mp went
    obtain ⟨_, _, keeps⟩ := advance_moves on
    refine elsewhere rfl fun held same => ?_
    subst same
    exact idle (keeps held)
  obtain ⟨now, act⟩ := e
  cases act with
  | obtain k fault =>
    have bound := settings.ttl_bound
    obtain ⟨_, rfl⟩ := perform_obtain performed
    obtain ⟨stage, _, stages⟩ := obtain_stages settings requests s k now fault
    have same : k = i := by
      by_contra other
      exact elsewhere stages fun _ => other
    subst same
    refine ⟨⟨fault, rfl⟩, ?_⟩
    unfold stepObtain at holds ⊢
    dsimp only at holds ⊢
    split at holds
    · simp [System.move, Stage.holding] at holds
    · simp [System.move, Stage.holding] at holds
    · rename_i granted
      refine ⟨Function.update_self _ _ _, ?_⟩
      rcases obtain_cases s.cacher (requests k).idempotencyKey settings.cacheTtl now fault
        (by omega) with ⟨_, refused⟩ | ⟨free, _⟩
      · exact absurd granted refused
      · exact free
  | poll k fault =>
    obtain ⟨counter, _, rfl⟩ := perform_poll performed
    exfalso
    unfold stepPoll at elsewhere
    dsimp only at elsewhere
    split at elsewhere
    · exact elsewhere rfl fun held => by cases held
    · exact elsewhere rfl fun held => by cases held
    · exact elsewhere rfl fun held => by cases held
  | set k fault =>
    obtain ⟨rd, data, _, _, rfl⟩ := perform_set performed
    exact absurd (elsewhere rfl fun held => by cases held) id
  | del k fault =>
    obtain ⟨status, text, _, rfl⟩ := perform_del performed
    exact absurd (elsewhere rfl fun held => by cases held) id
  | clean =>
    cases performed
    exact absurd holds idle
  | pollTimeout k => exact absurd (advanced performed) id
  | readBody k read => exact absurd (advanced performed) id
  | execute k answer => exact absurd (advanced performed) id
  | receive k body => exact absurd (advanced performed) id

theorem step_since {e : Event} (moved : step settings requests s e = some t)
    (begun : s.stages i ≠ .arrived) : t.stages i ≠ .arrived ∧ t.since i = s.since i := by
  refine ⟨fun waits => begun (WaitingDuplicates.step_arrived moved waits), ?_⟩
  obtain ⟨_, u, performed, rfl⟩ := step_performed moved
  have advanced : ∀ {k : Nat} {act : Action},
      (advance (requests k) (s.stages k) act).map (s.move k) = some u → u.since i = s.since i := by
    intro k act went
    obtain ⟨next, _, rfl⟩ := Option.map_eq_some_iff.mp went
    rfl
  obtain ⟨now, act⟩ := e
  cases act with
  | obtain k fault =>
    obtain ⟨here, rfl⟩ := perform_obtain performed
    have other : i ≠ k := by
      rintro rfl
      exact begun here
    unfold stepObtain
    dsimp only
    split
    · rfl
    · rfl
    · exact Function.update_of_ne other _ _
  | poll k fault =>
    obtain ⟨counter, _, rfl⟩ := perform_poll performed
    unfold stepPoll
    dsimp only
    split <;> rfl
  | set k fault =>
    obtain ⟨rd, data, _, _, rfl⟩ := perform_set performed
    rfl
  | del k fault =>
    obtain ⟨status, text, _, rfl⟩ := perform_del performed
    rfl
  | clean =>
    cases performed
    rfl
  | pollTimeout k => exact advanced performed
  | readBody k read => exact advanced performed
  | execute k answer => exact advanced performed
  | receive k body => exact advanced performed

theorem run_since {evs : List Event} (begun : s.stages i ≠ .arrived)
    (accepted : run (step settings requests) s evs = some t) : t.since i = s.since i :=
  (run_invariant (I := fun u => u.stages i ≠ .arrived ∧ u.since i = s.since i)
    (fun _ _ _ inv moved =>
      ⟨(step_since moved inv.1).1, (step_since moved inv.1).2.trans inv.2⟩)
    ⟨begun, rfl⟩ accepted).2

theorem holding_begun (holds : (s.stages i).holding = true) : s.stages i ≠ .arrived := by
  intro waits
  rw [waits] at holds
  cases holds

section Leases
variable {evs before mid after rest : List Event} {e f : Event} {backend : Backend}
  {a' b' : System libs}

structure OwnedAt (settings : Settings) (requests : Nat → Request) (a : System libs) (e : Event)
    (b : System libs) (after : List Event) : Prop where
  before : Owned settings requests a
  within : WithinLease settings a e
  next : Owned settings requests b
  rest : Along (step settings requests) (WithinLease settings) b after

theorem owned_at (timely : Along (step settings requests) (WithinLease settings)
      (System.start libs backend) evs)
    (at_e : StepAt (step settings requests) (System.start libs backend) evs before a e b after) :
    OwnedAt settings requests a e b after := by
  rw [at_e.split] at timely
  obtain ⟨front, back⟩ := along_append timely
  have owned : Owned settings requests a :=
    run_keeps (fun _ _ _ inv good moved => Ownership.step_owned settings requests inv good moved)
      (Ownership.start_owned settings requests backend) front at_e.reached
  obtain ⟨good, rest⟩ := back a at_e.reached
  exact ⟨owned, good, Ownership.step_owned settings requests owned good at_e.moved,
    rest b at_e.moved⟩

theorem guarded_from_obtain (owned : Owned settings requests b)
    (moved : step settings requests a e = some b) (holds : (b.stages i).holding = true)
    (begun : b.since i = e.now) : Guarded settings requests i e.now b := by
  obtain ⟨_, read⟩ := step_clock moved
  refine ⟨owned, by omega, fun early => ?_⟩
  rw [← begun] at early ⊢
  obtain ⟨alive, whose⟩ := Ownership.lease_entry owned.1 holds early
  exact ⟨_, _, alive, Nat.le_refl _, whose⟩

/-- The `set` stored the response: it was answered `Ok`, or Redis ran it and the reply was
    lost. -/
def Stored (b : System libs) (i : Nat) (fault : Fault) : Prop :=
  (∃ rd, b.stages i = .returned (.ok rd)) ∨ ∃ text, fault = .executed text

theorem guarded_from_set (owned : Owned settings requests a) (owned' : Owned settings requests b)
    {fault : Fault} (stores : e.action = .set i fault)
    (timely : WithinLease settings a e) (moved : step settings requests a e = some b)
    (stored : Stored b i fault) : Guarded settings requests i e.now b := by
  obtain ⟨order, read⟩ := step_clock moved
  refine ⟨owned', by omega, fun early => ?_⟩
  obtain ⟨_, u, performed, rfl⟩ := step_performed moved
  obtain ⟨now, act⟩ := e
  dsimp only at stores
  subst stores
  have holds := writer_holding (Or.inl performed)
  obtain ⟨mine, whose⟩ :=
    Ownership.lease_entry (Ownership.leased_later owned.1 order) holds timely
  obtain ⟨rd', data, _, _, rfl⟩ := perform_set performed
  have written : view (HybridCache.set a.cacher (key requests i) data settings.cacheTtl now
      fault).1 = put (view a.cacher) (key requests i) (now + settings.cacheTtl) data := by
    rcases stored with ⟨rd, replied⟩ | ⟨text, rfl⟩
    · rcases set_view_live a.cacher (key requests i) data settings.cacheTtl now fault mine with
        written | ⟨_, text, failed⟩
      · exact written
      · have answered : setReply rd' (HybridCache.set a.cacher (requests i).idempotencyKey data
            settings.cacheTtl now fault).2 = .ok rd := by
          simpa [stepSet, System.move] using replied
        rw [show (requests i).idempotencyKey = key requests i from rfl, failed] at answered
        cases answered
    · exact set_view_ran _ _ _ _ _ _ mine (by simp)
  refine ⟨now + settings.cacheTtl, data, live_some_iff.mpr ⟨?_, early⟩, Nat.le_refl _, whose⟩
  exact (congrFun written _).trans (put_same _ _ _ _)

theorem guarded_blocks {since : Nat} (guarded : Guarded settings requests i since b)
    (timely : Along (step settings requests) (WithinLease settings) b after)
    (keeps : ∀ e ∈ after, Keeps i e) (sameKey : key requests i = key requests j)
    (at_f : StepAt (step settings requests) b after mid a' f b' rest)
    (idle : ¬ (a'.stages j).holding = true) (holds : (b'.stages j).holding = true) :
    since + settings.cacheTtl ≤ f.now := by
  have inside : ∀ e ∈ mid, Keeps i e := fun e mem =>
    keeps e (by rw [at_f.split]; exact List.mem_append_left _ mem)
  rw [at_f.split] at timely
  obtain ⟨_, _, taken⟩ := run_guarded guarded (along_append timely).1 inside at_f.reached
  obtain ⟨order, _⟩ := step_clock at_f.moved
  obtain ⟨_, _, free⟩ := turns_holding at_f.moved idle holds
  by_contra early
  obtain ⟨e, v, alive, _⟩ := taken_later taken order (by omega)
  rw [sameKey, free] at alive
  cases alive

end Leases

def Called (evs : List Event) (i : Nat) : Prop := ∃ now answer, ⟨now, .execute i answer⟩ ∈ evs

def GaveUp (evs : List Event) (i : Nat) : Prop := ∃ now fault, ⟨now, .del i fault⟩ ∈ evs

theorem called_obtained {evs : List Event} {backend : Backend}
    (accepted : run (step settings requests) (System.start libs backend) evs = some t)
    (called : Called evs i) :
    ∃ before a e b after,
      StepAt (step settings requests) (System.start libs backend) evs before a e b after ∧
      ¬ (a.stages i).holding = true ∧ (b.stages i).holding = true ∧
      (∃ fault, e.action = .obtain i fault) ∧ b.since i = e.now ∧ t.since i = e.now := by
  obtain ⟨now, answer, mem⟩ := called
  obtain ⟨front, back, split⟩ := List.append_of_mem mem
  subst split
  obtain ⟨m, reached, rest⟩ := run_append_iff.mp accepted
  obtain ⟨n, moved, _⟩ := run_cons_iff.mp rest
  have executing : (m.stages i).holding = true := by
    obtain ⟨_, u, performed, _⟩ := step_performed moved
    obtain ⟨next, on, _⟩ := Option.map_eq_some_iff.mp performed
    cases stage : m.stages i with
    | executing => rfl
    | _ => simp [stage, advance] at on
  have start : ¬ ((System.start libs backend).stages i).holding = true := by simp [System.start,
    Stage.holding]
  obtain ⟨before, a, e, b, after, at_e, idle, holds⟩ :=
    run_turns (P := fun u => (u.stages i).holding = true) start reached executing
  obtain ⟨obtains, begun, _⟩ := turns_holding at_e.moved idle holds
  have whole := step_at_extend at_e (⟨now, .execute i answer⟩ :: back)
  refine ⟨before, a, e, b, _, whole, idle, holds, obtains, begun, ?_⟩
  rw [run_since (holding_begun holds) (step_at_rest whole accepted), begun]

/-- `j` obtained the key a whole ttl after `i` did, and after `i`'s response was stored,
    whether or not `i` came to know. -/
structure Follows (settings : Settings) (requests : Nat → Request) (backend : Backend)
    (evs : List Event) (t : System libs) (i j : Nat) : Prop where
  lease : t.since i + settings.cacheTtl ≤ t.since j
  response : ∀ before a u fault b after,
    StepAt (step settings requests) (System.start libs backend) evs before a ⟨u, .set i fault⟩ b
      after → Stored b i fault → u + settings.cacheTtl ≤ t.since j

theorem kept_of_not_given_up {evs after : List Event} (kept : ¬ GaveUp evs i)
    (inside : ∀ e ∈ after, e ∈ evs) : ∀ e ∈ after, Keeps i e := by
  rintro ⟨now, act⟩ mem fault rfl
  exact kept ⟨now, fault, inside _ mem⟩

theorem step_at_inside {evs before after : List Event} {e : Event} {backend : Backend}
    (at_e : StepAt (step settings requests) (System.start libs backend) evs before a e b after) :
    ∀ f ∈ after, f ∈ evs := by
  intro f mem
  rw [at_e.split]
  exact List.mem_append_right _ (List.mem_cons_of_mem e mem)

theorem set_not_after {evs front back mid after : List Event} {m n b' : System libs} {f : Event}
    {u : Nat} {fault : Fault} {backend : Backend}
    (accepted : run (step settings requests) (System.start libs backend) evs = some t)
    (at_set : StepAt (step settings requests) (System.start libs backend) evs front m
      ⟨u, .set i fault⟩ n back) (within : WithinLease settings m ⟨u, .set i fault⟩)
    (at_set' : StepAt (step settings requests) b' after mid m ⟨u, .set i fault⟩ n back)
    (clock : b'.clock = f.now) (lease : t.since i + settings.cacheTtl ≤ f.now) : False := by
  obtain ⟨order, u', performed, same⟩ := step_performed at_set.moved
  have holds := writer_holding (Or.inl performed)
  obtain ⟨begun, kept⟩ := step_since at_set.moved (holding_begun holds)
  have whole : t.since i = m.since i :=
    (run_since begun (step_at_rest at_set accepted)).trans kept
  have forward := (run_clock (WaitingDuplicates.step_ticks settings requests) at_set'.reached).1
  have early : u < m.since i + settings.cacheTtl := within
  dsimp only at order
  omega

theorem follows_of_order {evs before before' mid after after' : List Event} {e f : Event}
    {backend : Backend} {a' b' : System libs}
    (timely : Along (step settings requests) (WithinLease settings) (System.start libs backend) evs)
    (accepted : run (step settings requests) (System.start libs backend) evs = some t)
    (sameKey : key requests i = key requests j) (kept : ¬ GaveUp evs i)
    (at_e : StepAt (step settings requests) (System.start libs backend) evs before a e b after)
    (holds : (b.stages i).holding = true) (begun : b.since i = e.now) (whole : t.since i = e.now)
    (at_f : StepAt (step settings requests) (System.start libs backend) evs before' a' f b' after')
    (at_f' : StepAt (step settings requests) b after mid a' f b' after')
    (obtains : ∃ fault, f.action = .obtain j fault)
    (idle : ¬ (a'.stages j).holding = true) (holds' : (b'.stages j).holding = true)
    (whole' : t.since j = f.now) :
    Follows settings requests backend evs t i j := by
  have owned := owned_at timely at_e
  have lease : e.now + settings.cacheTtl ≤ f.now :=
    guarded_blocks (guarded_from_obtain owned.next at_e.moved holds begun) owned.rest
      (kept_of_not_given_up kept (step_at_inside at_e)) sameKey at_f' idle holds'
  refine ⟨by rw [whole, whole']; exact lease, ?_⟩
  intro front m u fault n back at_set stored
  have owned_set := owned_at timely at_set
  have differs : (⟨u, .set i fault⟩ : Event) ≠ f := by
    rintro rfl
    obtain ⟨_, obtains⟩ := obtains
    cases obtains
  rw [whole']
  rcases step_at_order differs at_set at_f with ⟨between, _, at_later⟩ | ⟨between, _, at_earlier⟩
  · exact guarded_blocks
      (guarded_from_set owned_set.before owned_set.next rfl owned_set.within at_set.moved stored)
      owned_set.rest (kept_of_not_given_up kept (step_at_inside at_set)) sameKey at_later idle holds'
  · have clock := (step_clock at_f.moved).2
    exact absurd (set_not_after accepted at_set owned_set.within at_earlier clock
      (by rw [whole]; exact lease)) id

/-- Two requests with one key for both of which the upstream was called, and of which
    neither gave its lease up, obtained the key at least a ttl apart, and the later one at
    least a ttl after the earlier one's response was stored. -/
theorem one_call_per_lease {libs : Libraries} {settings : Settings} {requests : Nat → Request}
    {backend : Backend} {evs : List Event} {t : System libs} {i j : Nat}
    (timely : Along (step settings requests) (WithinLease settings) (System.start libs backend) evs)
    (accepted : run (step settings requests) (System.start libs backend) evs = some t)
    (differ : i ≠ j) (sameKey : (requests i).idempotencyKey = (requests j).idempotencyKey)
    (called : Called evs i ∧ Called evs j) (kept : ¬ GaveUp evs i ∧ ¬ GaveUp evs j) :
    Follows settings requests backend evs t i j ∨ Follows settings requests backend evs t j i := by
  obtain ⟨before, a, e, b, after, at_e, idle, holds, ⟨fault, obtains⟩, begun, whole⟩ :=
    called_obtained accepted called.1
  obtain ⟨before', a', f, b', after', at_f, idle', holds', ⟨fault', obtains'⟩, begun', whole'⟩ :=
    called_obtained accepted called.2
  have apart : e ≠ f := by
    rintro rfl
    rw [obtains] at obtains'
    cases obtains'
    exact differ rfl
  rcases step_at_order apart at_e at_f with ⟨mid, _, at_f'⟩ | ⟨mid, _, at_e'⟩
  · exact Or.inl (follows_of_order timely accepted sameKey kept.1 at_e holds begun whole at_f at_f'
      ⟨fault', obtains'⟩ idle' holds' whole')
  · exact Or.inr (follows_of_order timely accepted sameKey.symm kept.2 at_f holds' begun' whole'
      at_e at_e' ⟨fault, obtains⟩ idle holds whole)

def sampleRun : List Event :=
  [⟨0, .obtain 0 .none⟩, ⟨1, .readBody 0 (.ok ())⟩, ⟨3, .execute 0 (.ok (200, []))⟩,
    ⟨4, .receive 0 (.ok [1])⟩, ⟨5, .set 0 .none⟩, ⟨10005, .obtain 1 .none⟩,
    ⟨10006, .readBody 1 (.ok ())⟩, ⟨10007, .execute 1 (.error "timeout")⟩]

theorem sample_calls_apart : ∃ t,
    run (step defaults postRequest) (System.start StoredForm.libraries .memory) sampleRun = some t ∧
      (Follows defaults postRequest .memory sampleRun t 0 1 ∨
        Follows defaults postRequest .memory sampleRun t 1 0) := by
  obtain ⟨t, accepted⟩ := Option.isSome_iff_exists.mp
    (show (run (step defaults postRequest) (System.start StoredForm.libraries .memory)
      sampleRun).isSome = true by decide +kernel)
  have kept : ∀ i, ¬ GaveUp sampleRun i := by
    rintro i ⟨now, fault, mem⟩
    simp [sampleRun] at mem
  refine ⟨t, accepted, one_call_per_lease (by decide +kernel) accepted (by decide) rfl
    ⟨⟨3, .ok (200, []), ?_⟩, 10007, .error "timeout", ?_⟩ ⟨kept 0, kept 1⟩⟩
  · simp [sampleRun]
  · simp [sampleRun]

end OneCall
