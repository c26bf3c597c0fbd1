import Mathlib.Logic.Basic
import Mathlib.Data.List.Basic

/-!
Finite runs of a partial, deterministic step function over a list of events.
An event carries everything the environment chooses (who moves, the clock, the
outcome of a foreign call), so a run is determined by its start and its events.
-/
namespace EventRuns
variable {S E : Type}

def run (step : S → E → Option S) : S → List E → Option S
  | s, [] => some s
  | s, e :: es => (step s e).bind fun t => run step t es

/-- Every step the run takes meets `Q`, a condition on the state before the step
    and the event. Steps after a refused event are not looked at. -/
def Along (step : S → E → Option S) (Q : S → E → Prop) : S → List E → Prop
  | _, [] => True
  | s, e :: es => Q s e ∧ ∀ t ∈ step s e, Along step Q t es

def Throughout (step : S → E → Option S) (P : S → Prop) (s : S) (es : List E) : Prop :=
  ∀ pre post t, es = pre ++ post → run step s pre = some t → P t

def EveryStep (step : S → E → Option S) (P : S → E → S → Prop) (s : S) (es : List E) : Prop :=
  ∀ pre e post a b, es = pre ++ e :: post → run step s pre = some a → step a e = some b → P a e b

/-- Where in a run a step stands: what comes before it, its states, what comes after. -/
structure StepAt (step : S → E → Option S) (s : S) (es before : List E) (a : S) (e : E) (b : S)
    (after : List E) : Prop where
  split : es = before ++ e :: after
  reached : run step s before = some a
  moved : step a e = some b

/-- Every step the run takes meets `Q`, a condition on the events before it, the state
    before it and its event. -/
def AlongPast (step : S → E → Option S) (Q : List E → S → E → Prop) (s : S) (es : List E) : Prop :=
  ∀ before a e b after, StepAt step s es before a e b after → Q before a e

instance Along.decidable (step : S → E → Option S) (Q : S → E → Prop)
    [inst : ∀ s e, Decidable (Q s e)] : ∀ s es, Decidable (Along step Q s es)
  | _, [] => isTrue trivial
  | s, e :: es =>
    match h : step s e with
    | none => decidable_of_iff (Q s e) (by simp [Along, h])
    | some t =>
      have := Along.decidable step Q t es
      decidable_of_iff (Q s e ∧ Along step Q t es) (by simp [Along, h])

variable {step : S → E → Option S}

@[simp] theorem run_nil (s : S) : run step s [] = some s := rfl

theorem run_cons_iff {s u : S} {e : E} {es : List E} :
    run step s (e :: es) = some u ↔ ∃ t, step s e = some t ∧ run step t es = some u := by
  simp [run, Option.bind_eq_some_iff]

theorem run_append_iff {s u : S} {es fs : List E} :
    run step s (es ++ fs) = some u ↔ ∃ t, run step s es = some t ∧ run step t fs = some u := by
  induction es generalizing s with
  | nil => simp
  | cons e es ih =>
    simp only [List.cons_append, run_cons_iff, ih]
    constructor
    · rintro ⟨t, first, v, rest, last⟩
      exact ⟨v, ⟨t, first, rest⟩, last⟩
    · rintro ⟨v, ⟨t, first, rest⟩, last⟩
      exact ⟨t, first, v, rest, last⟩

theorem run_single_iff {s t : S} {e : E} : run step s [e] = some t ↔ step s e = some t := by
  simp [run_cons_iff]

theorem along_cons {Q : S → E → Prop} {s t : S} {e : E} {es : List E}
    (first : step s e = some t) (good : Q s e) (rest : Along step Q t es) :
    Along step Q s (e :: es) := by
  refine ⟨good, ?_⟩
  intro t' moved
  have same : t' = t := Option.some.inj (moved.symm.trans first)
  subst same
  exact rest

theorem along_append {Q : S → E → Prop} {s : S} {es fs : List E}
    (all : Along step Q s (es ++ fs)) :
    Along step Q s es ∧ ∀ t, run step s es = some t → Along step Q t fs := by
  induction es generalizing s with
  | nil =>
    refine ⟨trivial, ?_⟩
    intro t same
    cases same
    exact all
  | cons e es ih =>
    obtain ⟨first, rest⟩ := all
    refine ⟨⟨first, fun t ht => (ih (rest t ht)).1⟩, ?_⟩
    intro u reached
    obtain ⟨t, ht, tail⟩ := run_cons_iff.mp reached
    exact (ih (rest t ht)).2 u tail

theorem along_join {Q : S → E → Prop} {s t : S} {es fs : List E} (front : Along step Q s es)
    (reached : run step s es = some t) (back : Along step Q t fs) :
    Along step Q s (es ++ fs) := by
  induction es generalizing s with
  | nil =>
    cases reached
    exact back
  | cons e es ih =>
    obtain ⟨m, first, rest⟩ := run_cons_iff.mp reached
    exact along_cons first front.1 (ih (front.2 m first) rest)

theorem along_forall {Q : E → Prop} {s : S} {es : List E} (each : ∀ e ∈ es, Q e) :
    Along step (fun _ e => Q e) s es := by
  induction es generalizing s with
  | nil => trivial
  | cons e es ih =>
    exact ⟨each e List.mem_cons_self,
      fun t _ => ih fun f mem => each f (List.mem_cons_of_mem e mem)⟩

theorem along_and {Q R : S → E → Prop} {s : S} {es : List E} (left : Along step Q s es)
    (right : Along step R s es) : Along step (fun s e => Q s e ∧ R s e) s es := by
  induction es generalizing s with
  | nil => trivial
  | cons e es ih => exact ⟨⟨left.1, right.1⟩, fun t moved => ih (left.2 t moved) (right.2 t moved)⟩

theorem along_event {Q : S → E → Prop} {s t : S} {pre post : List E} {e : E}
    (all : Along step Q s (pre ++ e :: post)) (reached : run step s pre = some t) : Q t e :=
  ((along_append all).2 t reached).1

/-- A property kept by every step that meets the condition holds after a run whose
    steps all meet it. -/
theorem run_keeps {I : S → Prop} {Q : S → E → Prop}
    (keeps : ∀ s e t, I s → Q s e → step s e = some t → I t)
    {s u : S} {es : List E} (start : I s) (all : Along step Q s es)
    (reached : run step s es = some u) : I u := by
  induction es generalizing s with
  | nil =>
    cases reached
    exact start
  | cons e es ih =>
    obtain ⟨t, first, rest⟩ := run_cons_iff.mp reached
    exact ih (keeps s e t start all.1 first) (all.2 t first) rest

theorem run_invariant {I : S → Prop} (keeps : ∀ s e t, I s → step s e = some t → I t)
    {s u : S} {es : List E} (start : I s) (reached : run step s es = some u) : I u :=
  run_keeps (fun s e t inv _ moved => keeps s e t inv moved) start
    (along_forall (fun _ _ => trivial)) reached

theorem run_history {I : List E → S → Prop}
    (keeps : ∀ past s e t, I past s → step s e = some t → I (past ++ [e]) t)
    {s u : S} {es : List E} (start : I [] s) (accepted : run step s es = some u) : I es u := by
  have onwards : ∀ es past s, I past s → run step s es = some u → I (past ++ es) u := by
    intro es
    induction es with
    | nil =>
      intro past s here reached
      cases reached
      rwa [List.append_nil]
    | cons e es ih =>
      intro past s here reached
      obtain ⟨t, first, rest⟩ := run_cons_iff.mp reached
      have later := ih (past ++ [e]) t (keeps past s e t here first) rest
      rwa [List.append_assoc] at later
  exact onwards es [] s start accepted

section Clocked
variable {clock : S → Nat} {now : E → Nat}
  (ticks : ∀ s e t, step s e = some t → clock s ≤ now e ∧ clock t = now e)
include ticks

theorem run_clock {s u : S} {es : List E} (accepted : run step s es = some u) :
    clock s ≤ clock u ∧ ∀ e ∈ es, clock s ≤ now e ∧ now e ≤ clock u := by
  induction es generalizing s with
  | nil =>
    cases accepted
    simp
  | cons e es ih =>
    obtain ⟨t, first, rest⟩ := run_cons_iff.mp accepted
    obtain ⟨order, read⟩ := ticks s e t first
    obtain ⟨forward, inside⟩ := ih rest
    refine ⟨by omega, ?_⟩
    intro f mem
    rcases List.mem_cons.mp mem with same | mem
    · subst same
      omega
    · have between := inside f mem
      omega

theorem run_keeps_until {I : S → Prop} {Q : S → E → Prop} {due : Nat}
    (keeps : ∀ s e t, I s → Q s e → now e < due → step s e = some t → I t)
    {s u : S} {es : List E} (start : I s) (all : Along step Q s es)
    (accepted : run step s es = some u) (early : clock u < due) : I u := by
  induction es generalizing s with
  | nil =>
    cases accepted
    exact start
  | cons e es ih =>
    have before := ((run_clock ticks accepted).2 e List.mem_cons_self).2
    obtain ⟨t, first, rest⟩ := run_cons_iff.mp accepted
    have next := keeps s e t start all.1 (Nat.lt_of_le_of_lt before early) first
    exact ih next (all.2 t first) rest

end Clocked

theorem throughout_of_along {I : S → Prop} {Q : S → E → Prop}
    (keeps : ∀ s e t, I s → Q s e → step s e = some t → I t)
    {s : S} {es : List E} (start : I s) (all : Along step Q s es) :
    Throughout step I s es := by
  intro pre post t split reached
  subst split
  exact run_keeps keeps start (along_append all).1 reached

theorem throughout_tail {P : S → Prop} {s t : S} {e : E} {es : List E}
    (every : Throughout step P s (e :: es)) (first : step s e = some t) :
    Throughout step P t es := by
  intro pre post u split reached
  exact every (e :: pre) post u (by rw [split]; rfl) (run_cons_iff.mpr ⟨t, first, reached⟩)

/-- Where `Q` decides, step by step, whether `P` survives, a run keeps `P` in all
    its states exactly when all its steps meet `Q`. The invariant `I` is what every
    step keeps anyway. -/
theorem throughout_iff_along {I P : S → Prop} {Q : S → E → Prop}
    (invariant : ∀ s e t, I s → step s e = some t → I t)
    (decides : ∀ s e t, I s → P s → step s e = some t → (P t ↔ Q s e))
    {s u : S} {es : List E} (inv : I s) (start : P s) (accepted : run step s es = some u) :
    Throughout step P s es ↔ Along step Q s es := by
  constructor
  · intro every
    induction es generalizing s with
    | nil => trivial
    | cons e es ih =>
      obtain ⟨t, first, rest⟩ := run_cons_iff.mp accepted
      have next : P t := every [e] es t rfl (run_single_iff.mpr first)
      have good : Q s e := (decides s e t inv start first).mp next
      exact along_cons first good
        (ih (invariant s e t inv first) next rest (throughout_tail every first))
  · intro all
    have both : Throughout step (fun s => I s ∧ P s) s es :=
      throughout_of_along
        (fun s e t h q first => ⟨invariant s e t h.1 first, (decides s e t h.1 h.2 first).mpr q⟩)
        ⟨inv, start⟩ all
    exact fun pre post t split reached => (both pre post t split reached).2

theorem every_step_of_along {I : S → Prop} {Q : S → E → Prop} {P : S → E → S → Prop}
    (keeps : ∀ s e t, I s → Q s e → step s e = some t → I t)
    (gives : ∀ s e t, I s → Q s e → step s e = some t → P s e t)
    {s : S} {es : List E} (start : I s) (all : Along step Q s es) : EveryStep step P s es := by
  intro pre e post a b split reached moved
  subst split
  have inv := run_keeps keeps start (along_append all).1 reached
  exact gives a e b inv (along_event all reached) moved

/-- Where `Q` decides which steps satisfy `P`, it decides it for the run. The
    invariant `I` need only survive the steps that meet `Q`. -/
theorem every_step_iff_along_within {I : S → Prop} {P : S → E → S → Prop} {Q : S → E → Prop}
    (keeps : ∀ s e t, I s → Q s e → step s e = some t → I t)
    (decides : ∀ s e t, I s → step s e = some t → (P s e t ↔ Q s e))
    {s u : S} {es : List E} (start : I s) (accepted : run step s es = some u) :
    EveryStep step P s es ↔ Along step Q s es := by
  constructor
  · intro every
    induction es generalizing s with
    | nil => trivial
    | cons e es ih =>
      obtain ⟨t, first, rest⟩ := run_cons_iff.mp accepted
      have good : Q s e := (decides s e t start first).mp (every [] e es s t rfl rfl first)
      refine along_cons first good (ih (keeps s e t start good first) rest ?_)
      intro pre f post a b split reached moved
      exact every (e :: pre) f post a b (by rw [split]; rfl)
        (run_cons_iff.mpr ⟨t, first, reached⟩) moved
  · exact every_step_of_along keeps
      (fun a e b inv good moved => (decides a e b inv moved).mpr good) start

theorem every_step_iff_along_past {P : S → E → S → Prop} {Q : List E → S → E → Prop} {s : S}
    {es : List E} (decides : ∀ before a e b after, StepAt step s es before a e b after →
      (P a e b ↔ Q before a e)) : EveryStep step P s es ↔ AlongPast step Q s es := by
  constructor
  · intro every before a e b after at_e
    exact (decides before a e b after at_e).mp
      (every before e after a b at_e.split at_e.reached at_e.moved)
  · intro all before e after a b split reached moved
    have at_e : StepAt step s es before a e b after := ⟨split, reached, moved⟩
    exact (decides before a e b after at_e).mpr (all before a e b after at_e)

theorem along_past_of_along {R : S → E → Prop} {Q : List E → S → E → Prop} {s : S} {es : List E}
    (enough : ∀ past a e, R a e → Q past a e) (all : Along step R s es) :
    AlongPast step Q s es := by
  intro before a e b after at_e
  have split := at_e.split
  subst split
  exact enough before a e (along_event all at_e.reached)

section Positions
variable {s u a b : S} {es before after : List E} {e : E}

theorem step_at_rest (at_e : StepAt step s es before a e b after)
    (accepted : run step s es = some u) : run step b after = some u := by
  rw [at_e.split] at accepted
  obtain ⟨a', front, back⟩ := run_append_iff.mp accepted
  obtain ⟨b', moved, rest⟩ := run_cons_iff.mp back
  have same : a' = a := Option.some.inj (front.symm.trans at_e.reached)
  subst same
  have next : b' = b := Option.some.inj (moved.symm.trans at_e.moved)
  rw [← next]
  exact rest

theorem step_at_drop {m : S} {front back : List E}
    (at_e : StepAt step s (front ++ back) (front ++ before) a e b after)
    (reached : run step s front = some m) : StepAt step m back before a e b after := by
  refine ⟨?_, ?_, at_e.moved⟩
  · have split := at_e.split
    rw [List.append_assoc] at split
    exact List.append_cancel_left split
  · obtain ⟨m', first, rest⟩ := run_append_iff.mp at_e.reached
    have same : m' = m := Option.some.inj (first.symm.trans reached)
    rw [← same]
    exact rest

theorem step_at_extend (at_e : StepAt step s es before a e b after) (more : List E) :
    StepAt step s (es ++ more) before a e b (after ++ more) :=
  ⟨by rw [at_e.split, List.append_assoc, List.cons_append], at_e.reached, at_e.moved⟩

theorem step_at_snoc {m : S} {f : E} (reached : run step s es = some m)
    (at_e : StepAt step s (es ++ [f]) before a e b after) :
    (∃ rest, StepAt step s es before a e b rest) ∨ e = f ∧ a = m := by
  rcases List.eq_nil_or_concat after with last | ⟨rest, x, more⟩
  · subst last
    obtain ⟨same, event⟩ := List.append_inj' at_e.split rfl
    subst same
    refine Or.inr ⟨(List.cons.inj event).1.symm, ?_⟩
    exact Option.some.inj (at_e.reached.symm.trans reached)
  · subst more
    have split := at_e.split
    rw [List.concat_eq_append, ← List.cons_append, ← List.append_assoc] at split
    obtain ⟨same, _⟩ := List.append_inj' split rfl
    exact Or.inl ⟨rest, same, at_e.reached, at_e.moved⟩

/-- What does not hold at the start of a run and holds at its end comes about in a step. -/
theorem run_turns {P : S → Prop} (start : ¬ P s) (accepted : run step s es = some u)
    (ended : P u) : ∃ before a e b after, StepAt step s es before a e b after ∧ ¬ P a ∧ P b := by
  induction es generalizing s with
  | nil =>
    cases accepted
    exact absurd ended start
  | cons e es ih =>
    obtain ⟨t, first, rest⟩ := run_cons_iff.mp accepted
    by_cases here : P t
    · exact ⟨[], s, e, t, es, ⟨rfl, rfl, first⟩, start, here⟩
    · obtain ⟨before, a, f, b, after, at_f, turns⟩ := ih here rest
      refine ⟨e :: before, a, f, b, after, ⟨?_, ?_, at_f.moved⟩, turns⟩
      · rw [at_f.split, List.cons_append]
      · exact run_cons_iff.mpr ⟨t, first, at_f.reached⟩

theorem step_at_order {a' b' : S} {before' after' : List E} {e' : E} (differs : e ≠ e')
    (at_e : StepAt step s es before a e b after)
    (at_e' : StepAt step s es before' a' e' b' after') :
    (∃ mid, before' = before ++ e :: mid ∧ StepAt step b after mid a' e' b' after') ∨
      ∃ mid, before = before' ++ e' :: mid ∧ StepAt step b' after' mid a e b after := by
  have later : ∀ {x y x' y' : S} {pre post pre' post' : List E} {f f' : E} (mid : List E),
      StepAt step s es pre x f y post → StepAt step s es pre' x' f' y' post' →
      pre' = pre ++ f :: mid → StepAt step y post mid x' f' y' post' := by
    intro x y x' y' pre post pre' post' f f' mid at_f at_f' shape
    have through : run step s (pre ++ [f]) = some y :=
      run_append_iff.mpr ⟨x, at_f.reached, run_single_iff.mpr at_f.moved⟩
    have whole : es = (pre ++ [f]) ++ post := by simpa using at_f.split
    rw [whole, shape, show pre ++ f :: mid = (pre ++ [f]) ++ mid by simp] at at_f'
    exact step_at_drop at_f' through
  rcases List.append_eq_append_iff.mp (at_e.split.symm.trans at_e'.split) with
    ⟨rest, front, back⟩ | ⟨rest, front, back⟩
  · cases rest with
    | nil => exact absurd (List.cons.inj back).1 differs
    | cons x mid =>
      obtain ⟨same, _⟩ := List.cons.inj back
      subst same
      exact Or.inl ⟨mid, front, later mid at_e at_e' front⟩
  · cases rest with
    | nil => exact absurd (List.cons.inj back).1.symm differs
    | cons x mid =>
      obtain ⟨same, _⟩ := List.cons.inj back
      subst same
      exact Or.inr ⟨mid, front, later mid at_e' at_e front⟩

end Positions
end EventRuns
