import IdempotentProxy.Server.LockSteps
import IdempotentProxy.Server.MemoryLease

/-!
No entry of the in-memory cache is out of reach of the cleaning: each one in the
map has its key queued under its own expiry. The queue may hold more (keys of
entries that are gone), never less. Between the two locks of a vacant `obtain` the
entry is in the map and its key not yet queued; the task there holds `kv`, so
nobody sees that state, and no cleaning task gets past its second lock in it.
-/
namespace EntryLeaks
open EventRuns ExpiringStore OrderedQueue MemoryCache

/-- Every entry is queued under its expiry, or among those `waiting` to be. -/
def Covered (waiting : PriorityKey → Prop) (mc : MemoryCacher) : Prop :=
  ∀ k e v, mc.kv k = some (e, v) → ⟨e, k⟩ ∈ mc.priorityQueue ∨ waiting ⟨e, k⟩

def QueueCovers (mc : MemoryCacher) : Prop :=
  ∀ k e v, mc.kv k = some (e, v) → ⟨e, k⟩ ∈ mc.priorityQueue

structure NothingDue (mc : MemoryCacher) (now : Nat) : Prop where
  entries : ∀ k e v, mc.kv k = some (e, v) → now < e
  queued : ∀ p ∈ mc.priorityQueue, now < p.expireAt

theorem covers_iff (mc : MemoryCacher) : QueueCovers mc ↔ Covered (fun _ => False) mc := by
  simp [QueueCovers, Covered]

theorem default_covered (W : PriorityKey → Prop) : Covered W MemoryCacher.default := by
  intro k e v stored
  simp [MemoryCacher.default] at stored

section Operations
variable {W : PriorityKey → Prop} {mc : MemoryCacher}

theorem covered_mono {W' : PriorityKey → Prop} (covered : Covered W mc)
    (wider : ∀ p, W p → W' p) : Covered W' mc := by
  intro k e v stored
  rcases covered k e v stored with queued | waiting
  · exact Or.inl queued
  · exact Or.inr (wider _ waiting)

theorem covered_requeue (covered : Covered W mc) (key : String) (old expiry : Nat)
    (val : Bytes) :
    Covered W ⟨insert ⟨expiry, key⟩ (mc.priorityQueue.erase ⟨old, key⟩),
      put mc.kv key expiry val⟩ := by
  intro k e v stored
  dsimp only at stored ⊢
  by_cases same : k = key
  · subst same
    rw [put_same] at stored
    cases stored
    exact Or.inl (Finset.mem_insert_self _ _)
  · rw [put_other _ _ same] at stored
    rcases covered k e v stored with queued | waiting
    · have other : (⟨e, k⟩ : PriorityKey) ≠ ⟨old, key⟩ := by simp [same]
      exact Or.inl (Finset.mem_insert_of_mem (Finset.mem_erase.mpr ⟨other, queued⟩))
    · exact Or.inr waiting

theorem covered_put (covered : Covered W mc) (key : String) (expiry : Nat) (val : Bytes) :
    Covered (fun p => W p ∨ p = ⟨expiry, key⟩)
      { mc with kv := put mc.kv key expiry val } := by
  intro k e v stored
  dsimp only at stored ⊢
  by_cases same : k = key
  · subst same
    rw [put_same] at stored
    cases stored
    exact Or.inr (Or.inr rfl)
  · rw [put_other _ _ same] at stored
    rcases covered k e v stored with queued | waiting
    · exact Or.inl queued
    · exact Or.inr (Or.inl waiting)

theorem covered_insert (p : PriorityKey) (covered : Covered W mc) :
    Covered (fun q => W q ∧ q ≠ p) { mc with priorityQueue := insert p mc.priorityQueue } := by
  intro k e v stored
  dsimp only
  by_cases same : (⟨e, k⟩ : PriorityKey) = p
  · exact Or.inl (Finset.mem_insert.mpr (Or.inl same))
  · rcases covered k e v stored with queued | waiting
    · exact Or.inl (Finset.mem_insert_of_mem queued)
    · exact Or.inr ⟨waiting, same⟩

theorem covered_remove (covered : Covered W mc) (key : String) :
    Covered W { mc with kv := remove mc.kv key } := by
  intro k e v stored
  dsimp only at stored
  by_cases same : k = key
  · rw [same, remove_same] at stored
    cases stored
  · rw [remove_other same] at stored
    exact covered k e v stored

theorem covered_erase (covered : Covered W mc) {key : String} (old : Nat)
    (gone : mc.kv key = none) :
    Covered W { mc with priorityQueue := mc.priorityQueue.erase ⟨old, key⟩ } := by
  intro k e v stored
  have other : k ≠ key := by
    intro same
    rw [same, gone] at stored
    cases stored
  rcases covered k e v stored with queued | waiting
  · exact Or.inl (Finset.mem_erase.mpr ⟨by simp [other], queued⟩)
  · exact Or.inr waiting

theorem covered_clean (covered : Covered W mc) (now : Nat) :
    Covered W (cleanExpiredValues mc now) := by
  intro k e v stored
  rw [clean_kv] at stored
  split at stored
  · cases stored
  · rename_i none_due
    rcases covered k e v stored with queued | waiting
    · refine Or.inl ?_
      rw [clean_queue, Finset.mem_filter]
      refine ⟨queued, ?_⟩
      intro late
      exact none_due ⟨⟨e, k⟩, queued, by simpa [due] using late, rfl⟩
    · exact Or.inr waiting

end Operations

theorem clean_nothing_due {mc : MemoryCacher} (covers : QueueCovers mc) (now : Nat) :
    NothingDue (cleanExpiredValues mc now) now := by
  have ahead : ∀ p ∈ (cleanExpiredValues mc now).priorityQueue, now < p.expireAt := by
    intro p mem
    rw [clean_queue, Finset.mem_filter] at mem
    simpa [due] using mem.2
  have still := (covers_iff _).mpr (covered_clean ((covers_iff mc).mp covers) now)
  exact ⟨fun k e v stored => ahead ⟨e, k⟩ (still k e v stored), ahead⟩

theorem clean_drains (mc : MemoryCacher) (now : Nat) :
    Drains (due now) (fun kv p => remove kv p.key) mc.priorityQueue mc.kv
      (cleanExpiredValues mc now).priorityQueue (cleanExpiredValues mc now).kv :=
  drains_drain (due now) _ _ mc.priorityQueue mc.kv (Nat.le_refl _)

section Calls
variable {mc : MemoryCacher}

theorem obtain_covers (covers : QueueCovers mc) (key : String) (ttl now : Nat) :
    QueueCovers (obtain mc key ttl now).cacher := by
  rw [covers_iff] at covers ⊢
  unfold obtain
  cases entry : mc.kv key with
  | none =>
    refine covered_mono (covered_insert ⟨now + ttl, key⟩ (covered_put covers key (now + ttl) [])) ?_
    rintro p ⟨none_waits | same, other⟩
    · exact none_waits
    · exact other same
  | some e =>
    dsimp only
    split
    · exact covers
    · exact covered_requeue covers key e.1 (now + ttl) []

theorem set_covers (covers : QueueCovers mc) (key : String) (val : Bytes) (ttl now : Nat) :
    QueueCovers (MemoryCache.set mc key val ttl now).cacher := by
  rw [covers_iff] at covers ⊢
  unfold MemoryCache.set
  cases entry : mc.kv key with
  | none => exact covers
  | some e =>
    dsimp only
    split
    · exact covered_remove covers key
    · exact covered_requeue covers key e.1 (now + ttl) val

theorem del_covers (covers : QueueCovers mc) (key : String) :
    QueueCovers (del mc key).cacher := by
  rw [covers_iff] at covers ⊢
  unfold del
  cases entry : mc.kv key with
  | none => exact covered_remove covers key
  | some e => exact covered_erase (covered_remove covers key) e.1 (remove_same _ _)

theorem effect_covers (covers : QueueCovers mc) (now : Nat) (call : MemoryLease.Call) :
    QueueCovers (MemoryLease.effect mc now call) := by
  cases call with
  | obtain key ttl reply => exact obtain_covers covers key ttl now
  | poll key reply =>
    simp only [MemoryLease.effect, MemoryLease.pollTurn_cacher]
    exact covers
  | set key val ttl reply => exact set_covers covers key val ttl now
  | del key => exact del_covers covers key
  | clean =>
    exact (covers_iff _).mpr (covered_clean ((covers_iff mc).mp covers) now)

end Calls

theorem run_covers {evs : List MemoryLease.Event} {s : MemoryLease.System}
    (accepted : run MemoryLease.step MemoryLease.System.start evs = some s) :
    QueueCovers s.cacher := by
  refine run_invariant (I := fun s => QueueCovers s.cacher) ?_ ?_ accepted
  · intro a e b covers moved
    rw [(MemoryLease.step_some moved).2.2.1]
    exact effect_covers covers e.now e.call
  · exact (covers_iff _).mpr (default_covered _)

/-! The same at the level of the locks. -/

open WaitFor LockSteps

/-- The queue keys that tasks are about to insert, `kv` still held. -/
def Pending (tasks : List Task) (p : PriorityKey) : Prop := .enqueue p.key p.expireAt ∈ tasks

/-- No two tasks hold one lock in conflicting modes, a key is taken from the queue
    after its entry has left the map, and the entries are covered. -/
structure Guarded (s : LockSteps.System) : Prop where
  apart : ∀ (i j : Nat) (t u : Task), i ≠ j → s.tasks[i]? = some t → s.tasks[j]? = some u →
    blocks t.held u.held = false
  removed : ∀ key e, .unqueue key e ∈ s.tasks → s.cacher.kv key = none
  covered : Covered (Pending s.tasks) s.cacher

theorem blocks_comm (a b : Option (Lock × Mode)) : blocks a b = blocks b a := by
  cases a with
  | none => cases b <;> rfl
  | some x =>
    cases b with
    | none => rfl
    | some y => simp only [blocks, Mode.conflicts, Bool.or_comm, eq_comm]

theorem granted_iff {tasks : List Task} {i : Nat} {t : Task} :
    granted tasks i t = true ↔
      ∀ j u, j ≠ i → tasks[j]? = some u → blocks t.wanted u.held = false := by
  simp only [granted, List.all_eq_true, List.mem_range, Bool.or_eq_true, decide_eq_true_eq,
    Bool.not_eq_true']
  constructor
  · intro all j u other at_j
    obtain ⟨bound, _⟩ := List.getElem?_eq_some_iff.mp at_j
    rcases all j bound with same | free
    · exact absurd same other
    · simpa [at_j] using free
  · intro all j bound
    by_cases same : j = i
    · exact Or.inl same
    · refine Or.inr ?_
      have at_j := List.getElem?_eq_getElem bound
      rw [at_j]
      exact all j _ same at_j

theorem advance_held {mc : MemoryCacher} {now : Nat} {t : Task} {l : Lock × Mode}
    (held : (advance mc now t).task.held = some l) : t.wanted = some l := by
  cases t with
  | obtain key ttl =>
    simp only [advance] at held
    split at held
    · split at held
      · cases held
      · exact held
    · exact held
  | set key val ttl =>
    simp only [advance] at held
    split at held
    · split at held
      · cases held
      · exact held
    · cases held
  | del key =>
    simp only [advance] at held
    split at held
    · exact held
    · cases held
  | poll key interval counter =>
    simp only [advance] at held
    split at held
    · cases held
    · rename_i more
      split at held
      · cases held
      · cases held
      · simpa [Task.wanted, Task.held, more] using held
  | cleanQueue read => exact held
  | _ => cases held

theorem advance_kv (mc : MemoryCacher) (now : Nat) (t : Task) :
    (advance mc now t).cacher.kv = mc.kv ∨ t.wanted = some (.kv, .write) ∨
      t.held = some (.kv, .write) := by
  cases t with
  | obtain | set | del | cleanMap => exact Or.inr (Or.inl rfl)
  | renew | enqueue | store | unqueue => exact Or.inr (Or.inr rfl)
  | poll key interval counter =>
    refine Or.inl ?_
    simp only [advance]
    split
    · rfl
    · split <;> rfl
  | _ => exact Or.inl rfl

theorem advance_removed {mc : MemoryCacher} {now e : Nat} {t : Task} {key : String}
    (next : (advance mc now t).task = .unqueue key e) :
    (advance mc now t).cacher.kv key = none := by
  cases t with
  | del name =>
    simp only [advance] at next ⊢
    split at next
    · cases next
      exact remove_same _ _
    · cases next
  | obtain name ttl =>
    simp only [advance] at next
    split at next
    · split at next <;> cases next
    · cases next
  | set name val ttl =>
    simp only [advance] at next
    split at next
    · split at next <;> cases next
    · cases next
  | poll name interval counter =>
    simp only [advance] at next
    split at next
    · cases next
    · split at next <;> cases next
  | _ => cases next

/-- The step lemma: what is waiting to be queued afterwards is what was waiting
    before and is not what this step queued, or what this step put off. -/
theorem advance_covered {W : PriorityKey → Prop} {mc : MemoryCacher} {t : Task}
    (covered : Covered W mc) (now : Nat)
    (removed : ∀ key e, t = .unqueue key e → mc.kv key = none) :
    Covered (fun p => (W p ∧ t ≠ .enqueue p.key p.expireAt) ∨
      (advance mc now t).task = .enqueue p.key p.expireAt) (advance mc now t).cacher := by
  have stays : ∀ {mc' : MemoryCacher}, Covered W mc' → (∀ key e, t ≠ .enqueue key e) →
      ∀ next : Task, Covered (fun p => (W p ∧ t ≠ .enqueue p.key p.expireAt) ∨
        next = .enqueue p.key p.expireAt) mc' := by
    intro mc' kept other next
    exact covered_mono kept fun p waits => Or.inl ⟨waits, other p.key p.expireAt⟩
  cases t with
  | obtain key ttl =>
    simp only [advance]
    split
    · split
      · exact stays covered (by simp) _
      · exact stays covered (by simp) _
    · refine covered_mono (covered_put covered key (now + ttl) []) ?_
      rintro p (waits | same)
      · exact Or.inl ⟨waits, by simp⟩
      · exact Or.inr (by rw [same])
  | renew key ttl read expireAt =>
    exact stays (covered_requeue covered key expireAt (read + ttl) []) (by simp) _
  | store key val ttl read expireAt =>
    exact stays (covered_requeue covered key expireAt (read + ttl) val) (by simp) _
  | enqueue key expireAt =>
    refine covered_mono (covered_insert ⟨expireAt, key⟩ covered) ?_
    rintro p ⟨waits, other⟩
    refine Or.inl ⟨waits, ?_⟩
    intro same
    cases same
    exact other rfl
  | set key val ttl =>
    simp only [advance]
    split
    · split
      · exact stays (covered_remove covered key) (by simp) _
      · exact stays covered (by simp) _
    · exact stays covered (by simp) _
  | del key =>
    simp only [advance]
    split
    · exact stays (covered_remove covered key) (by simp) _
    · exact stays (covered_remove covered key) (by simp) _
  | unqueue key expireAt =>
    exact stays (covered_erase covered expireAt (removed key expireAt rfl)) (by simp) _
  | cleanMap read => exact stays (covered_clean covered read) (by simp) _
  | poll key interval counter =>
    simp only [advance]
    split
    · exact stays covered (by simp) _
    · split <;> exact stays covered (by simp) _
  | _ => exact stays covered (by simp) _

section Steps
variable {s : LockSteps.System} {i now : Nat} {u : Task}

theorem after_cases {extra : List Task} {x w : Task} {j : Nat}
    (at_j : (s.tasks.set i x ++ extra)[j]? = some w) :
    (j = i ∧ w = x) ∨ (j ≠ i ∧ s.tasks[j]? = some w) ∨ w ∈ extra := by
  by_cases inside : j < s.tasks.length
  · rw [List.getElem?_append_left (by simpa using inside)] at at_j
    by_cases same : j = i
    · subst same
      rw [List.getElem?_set_self inside] at at_j
      exact Or.inl ⟨rfl, (Option.some.inj at_j).symm⟩
    · rw [List.getElem?_set_ne (Ne.symm same)] at at_j
      exact Or.inr (Or.inl ⟨same, at_j⟩)
  · rw [List.getElem?_append_right (by simpa using inside)] at at_j
    exact Or.inr (Or.inr (List.mem_of_getElem? at_j))

theorem advance_apart (inv : Guarded s) (free : granted s.tasks i u = true) {extra : List Task}
    (idle : ∀ w ∈ extra, w = .spawned) {j k : Nat} {t w : Task} (differ : j ≠ k)
    (at_j : (s.tasks.set i (advance s.cacher now u).task ++ extra)[j]? = some t)
    (at_k : (s.tasks.set i (advance s.cacher now u).task ++ extra)[k]? = some w) :
    blocks t.held w.held = false := by
  have idle_held : ∀ w ∈ extra, w.held = none := by
    intro w mem
    rw [idle w mem]
    rfl
  have clear : ∀ j w, j ≠ i → s.tasks[j]? = some w →
      blocks (advance s.cacher now u).task.held w.held = false := by
    intro j w other at_j
    cases held : (advance s.cacher now u).task.held with
    | none => rfl
    | some l =>
      rw [← advance_held held]
      exact granted_iff.mp free j w other at_j
  rcases after_cases at_j with ⟨hj, ht⟩ | ⟨hj, at_j⟩ | mem
  · subst ht
    rcases after_cases at_k with ⟨hk, _⟩ | ⟨hk, at_k⟩ | mem
    · exact absurd (hj.trans hk.symm) differ
    · exact clear k w hk at_k
    · rw [idle_held w mem, blocks_comm]
      rfl
  · rcases after_cases at_k with ⟨_, hw⟩ | ⟨hk, at_k⟩ | mem
    · subst hw
      rw [blocks_comm]
      exact clear j t hj at_j
    · exact inv.apart j k t w differ at_j at_k
    · rw [idle_held w mem, blocks_comm]
      rfl
  · rw [idle_held t mem]
    rfl

theorem advance_guarded (inv : Guarded s) (here : s.tasks[i]? = some u)
    (free : granted s.tasks i u = true) {extra : List Task}
    (idle : ∀ w ∈ extra, w = .spawned) :
    Guarded ⟨(advance s.cacher now u).cacher, now,
      s.tasks.set i (advance s.cacher now u).task ++ extra⟩ := by
  have others := granted_iff.mp free
  refine ⟨?_, ?_, ?_⟩
  · intro j k t w differ at_j at_k
    exact advance_apart inv free idle differ at_j at_k
  · intro key e mem
    obtain ⟨j, at_j⟩ := List.mem_iff_getElem?.mp mem
    rcases after_cases at_j with ⟨_, moved⟩ | ⟨hj, at_j⟩ | mem
    · exact advance_removed moved.symm
    · -- the task that has removed the entry still holds `kv`, so this one did not write it
      have gone := inv.removed key e (List.mem_of_getElem? at_j)
      rcases advance_kv s.cacher now u with same | wants | holds
      · rw [same]
        exact gone
      · have clash := others j _ hj at_j
        rw [wants] at clash
        cases clash
      · have clash := inv.apart i j u _ (Ne.symm hj) here at_j
        rw [holds] at clash
        cases clash
    · exact absurd (idle _ mem) (by simp)
  · have gone : ∀ key e, u = .unqueue key e → s.cacher.kv key = none := by
      intro key e same
      exact inv.removed key e (same ▸ List.mem_of_getElem? here)
    obtain ⟨bound, _⟩ := List.getElem?_eq_some_iff.mp here
    refine covered_mono (advance_covered inv.covered now gone) ?_
    rintro p (⟨waits, other⟩ | next)
    · obtain ⟨j, at_j⟩ := List.mem_iff_getElem?.mp waits
      have apart : j ≠ i := by
        intro same
        subst same
        exact other (Option.some.inj (here.symm.trans at_j))
      refine List.mem_append_left _ (List.mem_of_getElem? (i := j) ?_)
      rw [List.getElem?_set_ne (Ne.symm apart)]
      exact at_j
    · exact List.mem_append_left _ (next ▸ List.mem_set bound _)

end Steps

theorem step_guarded {s t : LockSteps.System} {e : LockSteps.Event} (inv : Guarded s)
    (moved : LockSteps.step s e = some t) : Guarded t := by
  cases e with
  | call op =>
    cases moved
    have quiet : op.task.held = none := by cases op <;> rfl
    have cases_at : ∀ {j : Nat} {w : Task}, (s.tasks ++ [op.task])[j]? = some w →
        s.tasks[j]? = some w ∨ w.held = none := by
      intro j w at_j
      by_cases inside : j < s.tasks.length
      · rw [List.getElem?_append_left inside] at at_j
        exact Or.inl at_j
      · rw [List.getElem?_append_right (by omega)] at at_j
        have last := List.mem_of_getElem? at_j
        rw [List.mem_singleton] at last
        exact Or.inr (last ▸ quiet)
    refine ⟨?_, ?_, ?_⟩
    · intro j k t w differ at_j at_k
      rcases cases_at at_j with at_j | held
      · rcases cases_at at_k with at_k | held
        · exact inv.apart j k t w differ at_j at_k
        · rw [held, blocks_comm]
          rfl
      · rw [held]
        rfl
    · intro key e mem
      rcases List.mem_append.mp mem with mem | mem
      · exact inv.removed key e mem
      · cases op <;> simp [Op.task] at mem
    · exact covered_mono inv.covered fun p waits => List.mem_append_left _ waits
  | advance i now =>
    obtain ⟨u, here, free, same⟩ := LockSteps.step_advance moved
    subst same
    refine advance_guarded inv here free ?_
    intro w mem
    split at mem
    · exact List.mem_singleton.mp mem
    · cases mem

theorem start_guarded : Guarded LockSteps.System.start := by
  refine ⟨?_, ?_, default_covered _⟩
  · intro i j t u _ at_i
    cases at_i
  · intro key e mem
    cases mem

theorem run_guarded {evs : List LockSteps.Event} {s : LockSteps.System}
    (accepted : run LockSteps.step LockSteps.System.start evs = some s) : Guarded s :=
  run_invariant (fun _ _ _ => step_guarded) start_guarded accepted

theorem sweep_covers {s : LockSteps.System} {i read : Nat} (inv : Guarded s)
    (free : granted s.tasks i (.cleanMap read) = true)
    (here : s.tasks[i]? = some (.cleanMap read)) : QueueCovers s.cacher := by
  intro k e v stored
  rcases inv.covered k e v stored with queued | waiting
  · exact queued
  · obtain ⟨j, at_j⟩ := List.mem_iff_getElem?.mp waiting
    have other : j ≠ i := by
      intro same
      subst same
      cases here.symm.trans at_j
    have clash := granted_iff.mp free j _ other at_j
    cases clash

/-- Every entry is queued under its own expiry, whatever was called in whatever
    order; lock by lock, the only exception is an entry whose `obtain` still holds
    `kv`. A cleaning run ends and leaves nothing that is due at its clock reading. -/
theorem no_entry_leaks :
    (∀ (evs : List MemoryLease.Event) (s : MemoryLease.System),
      run MemoryLease.step MemoryLease.System.start evs = some s →
        QueueCovers s.cacher ∧ ∀ now,
          Drains (due now) (fun kv p => remove kv p.key) s.cacher.priorityQueue s.cacher.kv
            (cleanExpiredValues s.cacher now).priorityQueue
            (cleanExpiredValues s.cacher now).kv ∧
          NothingDue (cleanExpiredValues s.cacher now) now) ∧
    (∀ (evs : List LockSteps.Event) (s : LockSteps.System),
      run LockSteps.step LockSteps.System.start evs = some s →
        Covered (Pending s.tasks) s.cacher ∧
        ∀ i read now t, s.tasks[i]? = some (.cleanMap read) →
          LockSteps.step s (.advance i now) = some t →
            QueueCovers s.cacher ∧ t.cacher = cleanExpiredValues s.cacher read ∧
              NothingDue t.cacher read) := by
  constructor
  · intro evs s accepted
    have covers := run_covers accepted
    exact ⟨covers, fun now => ⟨clean_drains s.cacher now, clean_nothing_due covers now⟩⟩
  · intro evs s accepted
    have inv := run_guarded accepted
    refine ⟨inv.covered, ?_⟩
    intro i read now t here moved
    obtain ⟨u, at_i, free, same⟩ := LockSteps.step_advance moved
    have this_one : u = .cleanMap read := Option.some.inj (at_i.symm.trans here)
    subst this_one same
    have covers := sweep_covers inv free here
    exact ⟨covers, rfl, clean_nothing_due covers read⟩

def sweptRun : List MemoryLease.Event :=
  [⟨0, .obtain "k" 100 (.ok true)⟩, ⟨50, .set "k" [1] 100 (.ok true)⟩,
   ⟨120, .obtain "j" 50 (.ok true)⟩, ⟨130, .del "x"⟩]

theorem swept_run_leaves_nothing :
    ∃ s, run MemoryLease.step MemoryLease.System.start sweptRun = some s ∧
      s.cacher.kv "k" = some (150, [1]) ∧ s.cacher.kv "j" = some (170, []) ∧
      NothingDue (cleanExpiredValues s.cacher 200) 200 := by
  have accepted :
      (run MemoryLease.step MemoryLease.System.start sweptRun).isSome = true := by
    decide
  obtain ⟨s, reached⟩ := Option.isSome_iff_exists.mp accepted
  have stored : (run MemoryLease.step MemoryLease.System.start sweptRun).map
      (fun s => (s.cacher.kv "k", s.cacher.kv "j")) = some (some (150, [1]), some (170, [])) := by
    decide
  rw [reached] at stored
  simp only [Option.map_some, Option.some.injEq, Prod.mk.injEq] at stored
  exact ⟨s, reached, stored.1, stored.2, ((no_entry_leaks.1 _ s reached).2 200).2⟩

end EntryLeaks
