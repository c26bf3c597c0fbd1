import Mathlib.Logic.Function.Basic
import Mathlib.Data.List.Basic
import Mathlib.Data.List.Nodup

/-!
A pool of a fixed number of resources, by its laws. Any client may ask for one and waits,
until its deadline at most; it keeps what it is given until it puts it back. Clients that
ask for nothing while they have a resource keep the pool bounded.
-/
namespace ResourcePool
variable {C : Type}

/-- `out` lists who has a resource, `waits` says until when a client waits for one. -/
structure Pool (C : Type) where
  out : List C
  waits : C → Option Nat

def Pool.start : Pool C := ⟨[], fun _ => none⟩

structure Bounded (size : Nat) (p : Pool C) : Prop where
  once : p.out.Nodup
  within : p.out.length ≤ size
  apart : ∀ c ∈ p.out, p.waits c = none

theorem start_bounded (size : Nat) : Bounded size (Pool.start : Pool C) :=
  ⟨List.nodup_nil, Nat.zero_le _, by simp [Pool.start]⟩

theorem waiting_apart {size : Nat} {c : C} {p : Pool C} (inv : Bounded size p)
    (waiting : p.waits c ≠ none) : c ∉ p.out :=
  fun mem => waiting (inv.apart c mem)

variable [DecidableEq C]

def ask (c : C) (deadline : Nat) (p : Pool C) : Option (Pool C) :=
  if (p.waits c).isSome then none
  else some { p with waits := Function.update p.waits c (some deadline) }

def acquire (size : Nat) (c : C) (now : Nat) (p : Pool C) : Option (Pool C) :=
  match p.waits c with
  | none => none
  | some deadline =>
      if now ≤ deadline ∧ p.out.length < size then
        some ⟨c :: p.out, Function.update p.waits c none⟩
      else none

def giveUp (c : C) (now : Nat) (p : Pool C) : Option (Pool C) :=
  match p.waits c with
  | none => none
  | some deadline =>
      if deadline ≤ now then some { p with waits := Function.update p.waits c none } else none

def release (c : C) (p : Pool C) : Pool C := { p with out := p.out.erase c }

variable {size now deadline : Nat} {c d : C} {p q : Pool C}

theorem ask_spec (asked : ask c deadline p = some q) :
    p.waits c = none ∧ q.out = p.out ∧ q.waits = Function.update p.waits c (some deadline) := by
  unfold ask at asked
  split at asked
  · cases asked
  · rename_i idle
    cases asked
    exact ⟨by simpa using idle, rfl, rfl⟩

theorem acquire_spec (given : acquire size c now p = some q) :
    (∃ deadline, p.waits c = some deadline ∧ now ≤ deadline) ∧ p.out.length < size ∧
      q.out = c :: p.out ∧ q.waits = Function.update p.waits c none := by
  unfold acquire at given
  split at given
  · cases given
  · rename_i deadline waiting
    split at given
    · rename_i room
      cases given
      exact ⟨⟨deadline, waiting, room.1⟩, room.2, rfl, rfl⟩
    · cases given

theorem give_up_spec (gone : giveUp c now p = some q) :
    (∃ deadline, p.waits c = some deadline ∧ deadline ≤ now) ∧ q.out = p.out ∧
      q.waits = Function.update p.waits c none := by
  unfold giveUp at gone
  split at gone
  · cases gone
  · rename_i deadline waiting
    split at gone
    · rename_i past
      cases gone
      exact ⟨⟨deadline, waiting, past⟩, rfl, rfl⟩
    · cases gone

theorem still_waiting (waits : q.waits = Function.update p.waits c none)
    (still : q.waits d ≠ none) : d ≠ c ∧ p.waits d ≠ none := by
  rw [waits] at still
  by_cases same : d = c
  · rw [same, Function.update_self] at still
    exact absurd rfl still
  · rw [Function.update_of_ne same] at still
    exact ⟨same, still⟩

theorem ask_bounded (inv : Bounded size p) (outside : c ∉ p.out)
    (asked : ask c deadline p = some q) : Bounded size q := by
  obtain ⟨_, out, waits⟩ := ask_spec asked
  refine ⟨by rw [out]; exact inv.once, by rw [out]; exact inv.within, fun d mem => ?_⟩
  rw [out] at mem
  have other : d ≠ c := fun same => outside (same ▸ mem)
  rw [waits, Function.update_of_ne other]
  exact inv.apart d mem

theorem acquire_bounded (inv : Bounded size p) (given : acquire size c now p = some q) :
    Bounded size q := by
  obtain ⟨⟨deadline, waiting, _⟩, room, out, waits⟩ := acquire_spec given
  have outside : c ∉ p.out := waiting_apart inv (by rw [waiting]; simp)
  refine ⟨?_, ?_, fun d mem => ?_⟩
  · rw [out]
    exact List.nodup_cons.mpr ⟨outside, inv.once⟩
  · rw [out, List.length_cons]
    omega
  · rw [out] at mem
    rw [waits]
    rcases List.mem_cons.mp mem with rfl | inside
    · exact Function.update_self _ _ _
    · have other : d ≠ c := fun same => outside (same ▸ inside)
      rw [Function.update_of_ne other]
      exact inv.apart d inside

theorem give_up_bounded (inv : Bounded size p) (gone : giveUp c now p = some q) :
    Bounded size q := by
  obtain ⟨_, out, waits⟩ := give_up_spec gone
  refine ⟨by rw [out]; exact inv.once, by rw [out]; exact inv.within, fun d mem => ?_⟩
  rw [out] at mem
  rw [waits]
  by_cases same : d = c
  · rw [same]
    exact Function.update_self _ _ _
  · rw [Function.update_of_ne same]
    exact inv.apart d mem

theorem release_bounded (inv : Bounded size p) (c : C) : Bounded size (release c p) := by
  refine ⟨inv.once.erase c, ?_, fun d mem => inv.apart d (List.mem_of_mem_erase mem)⟩
  exact Nat.le_trans (List.length_erase_le) inv.within

end ResourcePool
