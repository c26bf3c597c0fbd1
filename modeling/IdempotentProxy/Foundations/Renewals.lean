import Mathlib.Data.List.Basic

/-!
A result kept good by renewals that overlap. A renewal runs for a while and ends by putting
its result in the place of the last one's, in whatever order they end; its result is good for
`interval + margin` from its start. A timer starts one renewal soon after the opening and one
an interval after another, late by `jitter` at most; others are started at any time.
-/
namespace Renewals

structure Renewal where
  start : Nat
  timed : Bool
  deriving DecidableEq

/-- `ticks` are the starts of the timer's renewals since the opening, the last one first;
    `renewed` is the start of the renewal whose result stands, unless it is older than that. -/
structure Board where
  opened : Nat
  interval : Nat
  clock : Nat
  ticks : List Nat
  running : List Renewal
  renewed : Option Nat
  good : Nat

def limit (opened interval jitter : Nat) : List Nat → Nat
  | [] => opened + jitter
  | last :: _ => last + interval + jitter

def Spaced (opened interval jitter : Nat) : List Nat → Prop
  | [] => True
  | tick :: before => tick ≤ limit opened interval jitter before ∧
      Spaced opened interval jitter before

theorem tick_before {opened interval jitter : Nat} {ticks : List Nat}
    (spaced : Spaced opened interval jitter ticks) {x : Nat}
    (early : x ≤ limit opened interval jitter ticks) :
    x ≤ opened + jitter ∨ ∃ t ∈ ticks, t < x ∧ x ≤ t + interval + jitter := by
  induction ticks with
  | nil => exact Or.inl early
  | cons tick before ih =>
    obtain ⟨here, rest⟩ := spaced
    by_cases past : tick < x
    · exact Or.inr ⟨tick, List.mem_cons_self, past, early⟩
    · rcases ih rest (by omega) with first | ⟨t, mem, between⟩
      · exact Or.inl first
      · exact Or.inr ⟨t, List.mem_cons_of_mem tick mem, between⟩

variable (delay jitter margin : Nat)

structure Board.Timely (b : Board) : Prop where
  prompt : ∀ r ∈ b.running, b.clock ≤ r.start + delay
  ticking : b.clock ≤ limit b.opened b.interval jitter b.ticks

/-- A renewal of the timer that no longer runs has ended, and whatever stands since then was
    started at most `delay` before it. -/
structure Board.Inv (b : Board) : Prop where
  timely : b.Timely delay jitter
  since : b.opened ≤ b.clock
  spaced : Spaced b.opened b.interval jitter b.ticks
  began : ∀ r ∈ b.running, b.opened ≤ r.start ∧ r.start ≤ b.clock
  past : ∀ t ∈ b.ticks, t ≤ b.clock
  covered : ∀ t ∈ b.ticks, ⟨t, true⟩ ∈ b.running ∨ ∃ w ∈ b.renewed, t ≤ w + delay
  older : b.renewed = none → b.opened + jitter + delay ≤ b.good
  newer : ∀ w ∈ b.renewed, b.opened ≤ w ∧ w + b.interval + margin ≤ b.good

def Board.elapse (b : Board) (now : Nat) : Board := { b with clock := now }

def Board.tick (b : Board) (running : List Renewal) : Board :=
  { b with ticks := b.clock :: b.ticks, running := running }

def Board.turn (b : Board) (running : List Renewal) : Board := { b with running := running }

def Board.finish (b : Board) (start : Nat) (running : List Renewal) : Board :=
  { b with running := running, renewed := some start, good := start + b.interval + margin }

def Board.reopen (b : Board) (interval : Nat) : Board :=
  { b with opened := b.clock, interval := interval, ticks := [], running := [], renewed := none }

variable {delay jitter margin} {b : Board}

section Now
variable (inv : b.Inv delay jitter margin)
include inv

theorem answered {t : Nat} (mem : t ∈ b.ticks) (old : t + delay < b.clock) :
    ∃ w ∈ b.renewed, t ≤ w + delay := by
  rcases inv.covered t mem with runs | done
  · have late := inv.timely.prompt _ runs
    dsimp only at late
    omega
  · exact done

theorem recent_tick : b.clock ≤ b.opened + jitter + delay ∨
    ∃ t w, b.renewed = some w ∧ t ≤ w + delay ∧ b.clock ≤ t + b.interval + jitter + delay := by
  have early : b.clock - delay ≤ limit b.opened b.interval jitter b.ticks :=
    Nat.le_trans (Nat.sub_le b.clock delay) inv.timely.ticking
  rcases tick_before inv.spaced early with first | ⟨t, mem, after, within⟩
  · exact Or.inl (by omega)
  · obtain ⟨w, stands, near⟩ := answered inv mem (by omega)
    exact Or.inr ⟨t, w, stands, near, by omega⟩

theorem renewed_recently {w : Nat} (stands : b.renewed = some w) :
    b.clock ≤ w + 2 * delay + b.interval + jitter := by
  have since := (inv.newer w stands).1
  rcases recent_tick inv with first | ⟨t, v, stands', near, within⟩
  · omega
  · cases stands.symm.trans stands'
    omega

theorem renewed_soon (old : b.renewed = none) : b.clock ≤ b.opened + jitter + delay := by
  rcases recent_tick inv with first | ⟨t, w, stands, _, _⟩
  · exact first
  · cases old.symm.trans stands

theorem good_now (enough : 2 * delay + jitter ≤ margin) : b.clock ≤ b.good := by
  cases stands : b.renewed with
  | none => exact Nat.le_trans (renewed_soon inv stands) (inv.older stands)
  | some w =>
    have recent := renewed_recently inv stands
    have good := (inv.newer w stands).2
    omega

end Now
section Steps
variable {running : List Renewal} (inv : b.Inv delay jitter margin)
include inv

theorem elapse_keeps {now : Nat} (later : b.clock ≤ now)
    (timely : (b.elapse now).Timely delay jitter) : (b.elapse now).Inv delay jitter margin where
  timely := timely
  since := Nat.le_trans inv.since later
  spaced := inv.spaced
  began := fun r mem => ⟨(inv.began r mem).1, Nat.le_trans (inv.began r mem).2 later⟩
  past := fun t mem => Nat.le_trans (inv.past t mem) later
  covered := inv.covered
  older := inv.older
  newer := inv.newer

theorem tick_keeps (runs : ⟨b.clock, true⟩ ∈ running)
    (others : ∀ r ∈ b.running, r ∈ running)
    (known : ∀ r ∈ running, r = ⟨b.clock, true⟩ ∨ r ∈ b.running) :
    (b.tick running).Inv delay jitter margin where
  timely := by
    refine ⟨fun r mem => ?_, Nat.le_add_right_of_le (Nat.le_add_right _ _)⟩
    rcases known r mem with same | before
    · subst same
      exact Nat.le_add_right _ _
    · exact inv.timely.prompt r before
  since := inv.since
  spaced := ⟨inv.timely.ticking, inv.spaced⟩
  began := by
    intro r mem
    rcases known r mem with same | before
    · subst same
      exact ⟨inv.since, Nat.le_refl _⟩
    · exact inv.began r before
  past := List.forall_mem_cons.mpr ⟨Nat.le_refl _, inv.past⟩
  covered := by
    refine List.forall_mem_cons.mpr ⟨Or.inl runs, fun t mem => ?_⟩
    exact (inv.covered t mem).imp_left (others _)
  older := inv.older
  newer := inv.newer

theorem turn_keeps (others : ∀ r ∈ b.running, r.timed = true → r ∈ running)
    (known : ∀ r ∈ running, r.start = b.clock ∨ r ∈ b.running) :
    (b.turn running).Inv delay jitter margin where
  timely := by
    refine ⟨fun r mem => ?_, inv.timely.ticking⟩
    rcases known r mem with now | before
    · exact Nat.le_trans (Nat.le_of_eq now.symm) (Nat.le_add_right _ _)
    · exact inv.timely.prompt r before
  since := inv.since
  spaced := inv.spaced
  began := by
    intro r mem
    rcases known r mem with now | before
    · exact ⟨now ▸ inv.since, Nat.le_of_eq now⟩
    · exact inv.began r before
  past := inv.past
  covered := fun t mem => (inv.covered t mem).imp_left fun runs => others _ runs rfl
  older := inv.older
  newer := inv.newer

theorem finish_keeps {start : Nat} (since : b.opened ≤ start) (prompt : b.clock ≤ start + delay)
    (known : ∀ r ∈ running, r ∈ b.running) :
    (b.finish margin start running).Inv delay jitter margin where
  timely := ⟨fun r mem => inv.timely.prompt r (known r mem), inv.timely.ticking⟩
  since := inv.since
  spaced := inv.spaced
  began := fun r mem => inv.began r (known r mem)
  past := inv.past
  covered := fun t mem => Or.inr ⟨start, rfl, Nat.le_trans (inv.past t mem) prompt⟩
  older := nofun
  newer := by
    intro w stands
    cases stands
    exact ⟨since, Nat.le_refl _⟩

/-- Long enough after an opening the result that stands is good until the first renewal
    after the next one has ended. -/
theorem reopen_keeps (enough : 3 * delay + 2 * jitter ≤ margin)
    (up : b.opened + jitter + delay < b.clock) (interval : Nat) :
    (b.reopen interval).Inv delay jitter margin where
  timely := ⟨nofun, Nat.le_add_right _ _⟩
  since := Nat.le_refl _
  spaced := trivial
  began := nofun
  past := nofun
  covered := nofun
  older := by
    intro _
    cases stands : b.renewed with
    | none =>
      have soon := renewed_soon inv stands
      omega
    | some w =>
      have recent := renewed_recently inv stands
      have good := (inv.newer w stands).2
      simp only [Board.reopen]
      omega
  newer := nofun

end Steps
end Renewals
