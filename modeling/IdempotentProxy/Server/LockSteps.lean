import IdempotentProxy.Foundations.EventRuns
import IdempotentProxy.Foundations.WaitFor
import IdempotentProxy.Server.MemoryCacher

/-!
The in-memory cache at the level of its two locks, `kv` and `priority_queue`.
Taking a lock is the atomic step: a task takes the lock it waits for and runs to
its next acquisition or to its end, where its guards are dropped. `obtain`, `set`
and `del` take `kv` and then, on the paths that touch the queue, `priority_queue`
while `kv` is held; a cleaning task takes them the other way round; a polling turn
keeps its read guard on `kv` through its sleep.
-/
namespace LockSteps
open EventRuns WaitFor ExpiringStore MemoryCache

inductive Lock where
  | kv
  | priorityQueue
  deriving DecidableEq, Repr

inductive Reply where
  | flag (reply : Except String Bool)
  | value (reply : Except String Bytes)
  | unit (reply : Except String Unit)

/-- Where a task stands between two acquisitions, with its local variables. -/
inductive Task where
  | obtain (key : String) (ttl : Nat)
  | renew (key : String) (ttl now expireAt : Nat)
  | enqueue (key : String) (expireAt : Nat)
  | set (key : String) (val : Bytes) (ttl : Nat)
  | store (key : String) (val : Bytes) (ttl now expireAt : Nat)
  | del (key : String)
  | unqueue (key : String) (expireAt : Nat)
  | spawned
  | cleanQueue (now : Nat)
  | cleanMap (now : Nat)
  | poll (key : String) (interval counter : Nat)
  | sleep (key : String) (interval counter : Nat)
  | done (reply : Option Reply)

/-- The lock a suspended task holds: no task is suspended with both. -/
def Task.held : Task → Option (Lock × Mode)
  | .renew .. | .enqueue .. | .store .. | .unqueue .. => some (.kv, .write)
  | .sleep .. => some (.kv, .read)
  | .cleanMap _ => some (.priorityQueue, .write)
  | _ => none

/-- The lock a suspended task waits for. A sleeping task, and a spawned one that
    has not read its clock, wait for none. -/
def Task.wanted : Task → Option (Lock × Mode)
  | .obtain .. | .set .. | .del .. | .cleanMap _ => some (.kv, .write)
  | .poll _ _ counter => if counter = 0 then none else some (.kv, .read)
  | .renew .. | .enqueue .. | .store .. | .unqueue .. | .cleanQueue _ =>
      some (.priorityQueue, .write)
  | _ => none

structure Moved where
  cacher : MemoryCacher
  task : Task
  spawned : Bool

def advance (mc : MemoryCacher) (now : Nat) : Task → Moved
  | .obtain key ttl =>
      match mc.kv key with
      | some (expireAt, _) =>
          if expireAt > now then ⟨mc, .done (some (.flag (.ok false))), false⟩
          else ⟨mc, .renew key ttl now expireAt, false⟩
      | none =>
          ⟨{ mc with kv := put mc.kv key (now + ttl) [] }, .enqueue key (now + ttl), false⟩
  | .renew key ttl read expireAt =>
      let pq := mc.priorityQueue.erase ⟨expireAt, key⟩
      ⟨⟨insert ⟨read + ttl, key⟩ pq, put mc.kv key (read + ttl) []⟩,
        .done (some (.flag (.ok true))), false⟩
  | .enqueue key expireAt =>
      ⟨{ mc with priorityQueue := insert ⟨expireAt, key⟩ mc.priorityQueue },
        .done (some (.flag (.ok true))), false⟩
  | .set key val ttl =>
      match mc.kv key with
      | some (expireAt, _) =>
          if expireAt ≤ now then
            ⟨{ mc with kv := remove mc.kv key },
              .done (some (.flag (.error "value expired"))), true⟩
          else ⟨mc, .store key val ttl now expireAt, false⟩
      | none => ⟨mc, .done (some (.flag (.error "not obtained"))), false⟩
  | .store key val ttl read expireAt =>
      let pq := mc.priorityQueue.erase ⟨expireAt, key⟩
      ⟨⟨insert ⟨read + ttl, key⟩ pq, put mc.kv key (read + ttl) val⟩,
        .done (some (.flag (.ok true))), false⟩
  | .del key =>
      match mc.kv key with
      | some (expireAt, _) => ⟨{ mc with kv := remove mc.kv key }, .unqueue key expireAt, false⟩
      | none => ⟨{ mc with kv := remove mc.kv key }, .done (some (.unit (.ok ()))), true⟩
  | .unqueue key expireAt =>
      ⟨{ mc with priorityQueue := mc.priorityQueue.erase ⟨expireAt, key⟩ },
        .done (some (.unit (.ok ()))), true⟩
  | .spawned => ⟨mc, .cleanQueue now, false⟩
  | .cleanQueue read => ⟨mc, .cleanMap read, false⟩
  | .cleanMap read => ⟨cleanExpiredValues mc read, .done none, false⟩
  | .poll key interval counter =>
      if counter = 0 then
        ⟨mc, .done (some (.value (.error "polling get cache timeout"))), false⟩
      else
        let turn := pollTurn mc key now
        match turn.reply with
        | .error msg => ⟨mc, .done (some (.value (.error msg))), turn.spawned⟩
        | .ok (some value) => ⟨mc, .done (some (.value (.ok value))), turn.spawned⟩
        | .ok none => ⟨mc, .sleep key interval (counter - 1), turn.spawned⟩
  | .sleep key interval counter => ⟨mc, .poll key interval counter, false⟩
  | .done reply => ⟨mc, .done reply, false⟩

structure System where
  cacher : MemoryCacher
  clock : Nat
  tasks : List Task

def System.start : System := ⟨MemoryCacher.default, 0, []⟩

inductive Op where
  | obtain (key : String) (ttl : Nat)
  | set (key : String) (val : Bytes) (ttl : Nat)
  | del (key : String)
  | pollingGet (key : String) (pollInterval counter : Nat)

def Op.task : Op → Task
  | .obtain key ttl => .obtain key ttl
  | .set key val ttl => .set key val ttl
  | .del key => .del key
  | .pollingGet key interval counter => .poll key interval counter

inductive Event where
  | call (op : Op)
  | advance (i now : Nat)

def blocks (wanted held : Option (Lock × Mode)) : Bool :=
  match wanted, held with
  | some (l, m), some (l', m') => decide (l = l') && m.conflicts m'
  | _, _ => false

def granted (tasks : List Task) (i : Nat) (t : Task) : Bool :=
  (List.range tasks.length).all fun j =>
    decide (j = i) || !blocks t.wanted ((tasks[j]?).bind Task.held)

def step (s : System) : Event → Option System
  | .call op => some { s with tasks := s.tasks ++ [op.task] }
  | .advance i now =>
      match s.tasks[i]? with
      | none => none
      | some t =>
          if s.clock ≤ now ∧ granted s.tasks i t = true then
            let m := advance s.cacher now t
            some ⟨m.cacher, now, s.tasks.set i m.task ++ if m.spawned then [.spawned] else []⟩
          else none

def locks (s : System) : Locks Nat Lock where
  holds i l m := ∃ t, s.tasks[i]? = some t ∧ t.held = some (l, m)
  waits i l m := ∃ t, s.tasks[i]? = some t ∧ t.wanted = some (l, m)

def Deadlocked (s : System) : Prop := (locks s).Deadlocked

/-- Between its two acquisitions: `kv` held, `priority_queue` waited for. -/
def Task.upgrading : Task → Bool
  | .renew .. | .enqueue .. | .store .. | .unqueue .. => true
  | _ => false

def Task.sweeping : Task → Bool
  | .cleanMap _ => true
  | _ => false

def Task.opensSweep : Task → Bool
  | .cleanQueue _ => true
  | _ => false

/-- Whether the path an operation takes goes on to the queue, from the state in
    which it gets `kv`. -/
def needsQueue (mc : MemoryCacher) (now : Nat) : Task → Bool
  | .obtain key _ => (live mc.kv now key).isNone
  | .set key _ _ => (live mc.kv now key).isSome
  | .del key => (mc.kv key).isSome
  | _ => false

/-- A cleaning task takes its first lock only while no call is between its two
    acquisitions, and a call that goes on to the queue takes its first lock only
    while no cleaning task is between its two. -/
def Untangled (s : System) : Event → Prop
  | .call _ => True
  | .advance i now => ∀ t ∈ s.tasks[i]?,
      (t.opensSweep = true → ∀ u ∈ s.tasks, u.upgrading = false) ∧
      (needsQueue s.cacher now t = true → ∀ u ∈ s.tasks, u.sweeping = false)

instance (s : System) (e : Event) : Decidable (Untangled s e) := by
  cases e <;> simp only [Untangled] <;> infer_instance

theorem held_while_waiting {t : Task} {l l' : Lock} {m m' : Mode}
    (held : t.held = some (l, m)) (wanted : t.wanted = some (l', m')) :
    (t.upgrading = true ∧ l = .kv ∧ l' = .priorityQueue) ∨
      (t.sweeping = true ∧ l = .priorityQueue ∧ l' = .kv) := by
  cases t with
  | renew | enqueue | store | unqueue =>
    cases held
    cases wanted
    exact Or.inl ⟨rfl, rfl, rfl⟩
  | cleanMap =>
    cases held
    cases wanted
    exact Or.inr ⟨rfl, rfl, rfl⟩
  | sleep => cases wanted
  | _ => cases held

theorem upgrading_locks {t : Task} (up : t.upgrading = true) :
    t.held = some (.kv, .write) ∧ t.wanted = some (.priorityQueue, .write) := by
  cases t with
  | renew | enqueue | store | unqueue => exact ⟨rfl, rfl⟩
  | _ => cases up

theorem sweeping_locks {t : Task} (sweep : t.sweeping = true) :
    t.held = some (.priorityQueue, .write) ∧ t.wanted = some (.kv, .write) := by
  cases t with
  | cleanMap => exact ⟨rfl, rfl⟩
  | _ => cases sweep

def kvRank : Lock → Nat
  | .kv => 1
  | .priorityQueue => 0

def queueRank : Lock → Nat
  | .kv => 0
  | .priorityQueue => 1

/-- The only deadlock the two locks allow: a call between its two acquisitions
    against a cleaning task between its two. -/
theorem deadlocked_iff (s : System) :
    Deadlocked s ↔ (∃ u ∈ s.tasks, u.upgrading = true) ∧ ∃ u ∈ s.tasks, u.sweeping = true := by
  constructor
  · intro dead
    constructor
    · by_contra noUpgrade
      refine ranked_not_deadlocked kvRank 1 (by intro l; cases l <;> decide) ?_ dead
      rintro i l m l' m' ⟨t, at_i, held⟩ ⟨t', at_i', wanted⟩
      have same : t' = t := Option.some.inj (at_i'.symm.trans at_i)
      subst same
      rcases held_while_waiting held wanted with ⟨up, _, _⟩ | ⟨_, hl, hl'⟩
      · exact absurd ⟨t', List.mem_of_getElem? at_i, up⟩ noUpgrade
      · subst hl; subst hl'
        decide
    · by_contra noSweep
      refine ranked_not_deadlocked queueRank 1 (by intro l; cases l <;> decide) ?_ dead
      rintro i l m l' m' ⟨t, at_i, held⟩ ⟨t', at_i', wanted⟩
      have same : t' = t := Option.some.inj (at_i'.symm.trans at_i)
      subst same
      rcases held_while_waiting held wanted with ⟨_, hl, hl'⟩ | ⟨sweep, _, _⟩
      · subst hl; subst hl'
        decide
      · exact absurd ⟨t', List.mem_of_getElem? at_i, sweep⟩ noSweep
  · rintro ⟨⟨u, mu, up⟩, w, mw, sweep⟩
    obtain ⟨i, at_i⟩ := List.mem_iff_getElem?.mp mu
    obtain ⟨j, at_j⟩ := List.mem_iff_getElem?.mp mw
    obtain ⟨uHeld, uWants⟩ := upgrading_locks up
    obtain ⟨wHeld, wWants⟩ := sweeping_locks sweep
    refine crossing_deadlocked (a := i) (b := j) ?_ ?_ ?_
    · intro same
      subst same
      have one : u = w := Option.some.inj (at_i.symm.trans at_j)
      subst one
      rw [uHeld] at wHeld
      exact absurd wHeld (by decide)
    · exact ⟨.priorityQueue, .write, .write, ⟨u, at_i, uWants⟩, ⟨w, at_j, wHeld⟩, rfl⟩
    · exact ⟨.kv, .write, .write, ⟨w, at_j, wWants⟩, ⟨u, at_i, uHeld⟩, rfl⟩

theorem advance_upgrading (mc : MemoryCacher) (now : Nat) (t : Task) :
    (advance mc now t).task.upgrading = needsQueue mc now t := by
  cases t with
  | obtain key ttl =>
    cases entry : mc.kv key with
    | none => simp [advance, entry, needsQueue, live, Task.upgrading]
    | some e =>
      by_cases ahead : e.1 > now <;>
        simp [advance, entry, needsQueue, live, ahead, Task.upgrading]
  | set key val ttl =>
    cases entry : mc.kv key with
    | none => simp [advance, entry, needsQueue, live, Task.upgrading]
    | some e =>
      by_cases late : e.1 ≤ now
      · have behind : ¬ now < e.1 := by omega
        simp [advance, entry, needsQueue, live, late, behind, Task.upgrading]
      · have ahead : now < e.1 := by omega
        simp [advance, entry, needsQueue, live, late, ahead, Task.upgrading]
  | del key => cases entry : mc.kv key <;> simp [advance, entry, needsQueue, Task.upgrading]
  | poll key interval counter =>
    simp only [advance, needsQueue]
    split
    · rfl
    · split <;> rfl
  | _ => rfl

theorem advance_sweeping (mc : MemoryCacher) (now : Nat) (t : Task) :
    (advance mc now t).task.sweeping = t.opensSweep := by
  cases t with
  | obtain key ttl =>
    simp only [advance]
    split
    · split <;> rfl
    · rfl
  | set key val ttl =>
    simp only [advance]
    split
    · split <;> rfl
    · rfl
  | del key =>
    simp only [advance]
    split <;> rfl
  | poll key interval counter =>
    simp only [advance]
    split
    · rfl
    · split <;> rfl
  | _ => rfl

def Elsewhere (tasks : List Task) (i : Nat) (p : Task → Bool) : Prop :=
  ∃ j u, j ≠ i ∧ tasks[j]? = some u ∧ p u = true

theorem present_after_set {tasks : List Task} {i : Nat} {t x : Task} (p : Task → Bool)
    (here : tasks[i]? = some t) (extra : List Task) (plain : ∀ u ∈ extra, p u = false) :
    (∃ u ∈ tasks.set i x ++ extra, p u = true) ↔ p x = true ∨ Elsewhere tasks i p := by
  obtain ⟨bound, _⟩ := List.getElem?_eq_some_iff.mp here
  constructor
  · rintro ⟨u, mem, kind⟩
    rcases List.mem_append.mp mem with mem | mem
    · obtain ⟨j, at_j⟩ := List.mem_iff_getElem?.mp mem
      by_cases same : j = i
      · subst same
        rw [List.getElem?_set_self bound] at at_j
        exact Or.inl (by rw [Option.some.inj at_j]; exact kind)
      · rw [List.getElem?_set_ne (Ne.symm same)] at at_j
        exact Or.inr ⟨j, u, same, at_j, kind⟩
    · exact absurd kind (by simp [plain u mem])
  · rintro (kind | ⟨j, u, other, at_j, kind⟩)
    · exact ⟨x, List.mem_append_left _ (List.mem_set bound x), kind⟩
    · refine ⟨u, List.mem_append_left _ (List.mem_of_getElem? (i := j) ?_), kind⟩
      rw [List.getElem?_set_ne (Ne.symm other)]
      exact at_j

theorem present_before {tasks : List Task} {i : Nat} {t : Task} (p : Task → Bool)
    (here : tasks[i]? = some t) :
    (∃ u ∈ tasks, p u = true) ↔ p t = true ∨ Elsewhere tasks i p := by
  have same : tasks.set i t = tasks := by
    obtain ⟨bound, value⟩ := List.getElem?_eq_some_iff.mp here
    rw [← value]
    exact List.set_getElem_self bound
  have moved := present_after_set (x := t) p here [] (by simp)
  rwa [same, List.append_nil] at moved

theorem call_keeps_kinds (s : System) (op : Op) (p : Task → Bool) (plain : p op.task = false) :
    (∃ u ∈ s.tasks ++ [op.task], p u = true) ↔ ∃ u ∈ s.tasks, p u = true := by
  simp [or_and_right, exists_or, plain]

theorem step_advance {s t : System} {i now : Nat} (moved : step s (.advance i now) = some t) :
    ∃ u, s.tasks[i]? = some u ∧ granted s.tasks i u = true ∧
      t = ⟨(advance s.cacher now u).cacher, now, s.tasks.set i (advance s.cacher now u).task ++
        if (advance s.cacher now u).spawned then [.spawned] else []⟩ := by
  simp only [step] at moved
  cases here : s.tasks[i]? with
  | none => simp [here] at moved
  | some u =>
    simp only [here] at moved
    split at moved
    · rename_i guard
      cases moved
      exact ⟨u, rfl, guard.2, rfl⟩
    · cases moved

theorem advance_deadlocked_iff {s t : System} {i now : Nat} {u : Task}
    (here : s.tasks[i]? = some u)
    (after : t.tasks = s.tasks.set i (advance s.cacher now u).task ++
      if (advance s.cacher now u).spawned then [.spawned] else []) :
    Deadlocked t ↔
      (needsQueue s.cacher now u = true ∨ Elsewhere s.tasks i Task.upgrading) ∧
        (u.opensSweep = true ∨ Elsewhere s.tasks i Task.sweeping) := by
  have plain : ∀ p : Task → Bool, p .spawned = false →
      ∀ w ∈ (if (advance s.cacher now u).spawned then [Task.spawned] else []), p w = false := by
    intro p idle w mem
    split at mem
    · rw [List.mem_singleton.mp mem]
      exact idle
    · simp at mem
  rw [deadlocked_iff, after, present_after_set _ here _ (plain _ rfl),
    present_after_set _ here _ (plain _ rfl), advance_upgrading, advance_sweeping]

theorem needs_queue_kind {mc : MemoryCacher} {now : Nat} {t : Task}
    (needs : needsQueue mc now t = true) : t.sweeping = false ∧ t.opensSweep = false := by
  cases t with
  | obtain | set | del => exact ⟨rfl, rfl⟩
  | _ => cases needs

theorem opens_sweep_kind {t : Task} (opens : t.opensSweep = true) : t.upgrading = false := by
  cases t with
  | cleanQueue => rfl
  | _ => cases opens

theorem untangled_iff {s : System} {i now : Nat} {u : Task} (here : s.tasks[i]? = some u) :
    Untangled s (.advance i now) ↔
      (u.opensSweep = true → ¬ Elsewhere s.tasks i Task.upgrading) ∧
        (needsQueue s.cacher now u = true → ¬ Elsewhere s.tasks i Task.sweeping) := by
  have none_of : ∀ p : Task → Bool, p u = false →
      ((∀ w ∈ s.tasks, p w = false) ↔ ¬ Elsewhere s.tasks i p) := by
    intro p idle
    have present := present_before p here
    rw [idle, Bool.false_eq_true, false_or] at present
    rw [← present]
    simp
  simp only [Untangled, here, Option.mem_some_iff, forall_eq']
  constructor
  · intro ⟨cleanFree, callFree⟩
    constructor
    · intro opens
      exact (none_of _ (opens_sweep_kind opens)).mp (cleanFree opens)
    · intro needs
      exact (none_of _ (needs_queue_kind needs).1).mp (callFree needs)
  · intro ⟨cleanFree, callFree⟩
    constructor
    · intro opens
      exact (none_of _ (opens_sweep_kind opens)).mpr (cleanFree opens)
    · intro needs
      exact (none_of _ (needs_queue_kind needs).1).mpr (callFree needs)

theorem step_deadlock_iff {s t : System} {e : Event} (safe : ¬ Deadlocked s)
    (moved : step s e = some t) : ¬ Deadlocked t ↔ Untangled s e := by
  cases e with
  | call op =>
    cases moved
    have quiet : op.task.upgrading = false ∧ op.task.sweeping = false := by
      cases op <;> exact ⟨rfl, rfl⟩
    rw [deadlocked_iff] at safe ⊢
    rw [call_keeps_kinds s op _ quiet.1, call_keeps_kinds s op _ quiet.2]
    exact iff_of_true safe trivial
  | advance i now =>
    obtain ⟨u, here, _, after⟩ := step_advance moved
    rw [advance_deadlocked_iff here (congrArg System.tasks after), untangled_iff here]
    rw [deadlocked_iff, present_before _ here, present_before _ here] at safe
    constructor
    · intro free
      constructor
      · intro opens up
        exact free ⟨Or.inr up, Or.inl opens⟩
      · intro needs sweep
        exact free ⟨Or.inl needs, Or.inr sweep⟩
    · rintro ⟨cleanFree, callFree⟩ ⟨needs | up, opens | sweep⟩
      · rw [(needs_queue_kind needs).2] at opens
        cases opens
      · exact callFree needs sweep
      · exact cleanFree opens up
      · exact safe ⟨Or.inr up, Or.inr sweep⟩

theorem start_not_deadlocked : ¬ Deadlocked System.start := by
  rw [deadlocked_iff]
  simp [System.start]

/-- A run meets no deadlock exactly when none of its steps starts the second half
    of a crossing. -/
theorem deadlock_free_iff {evs : List Event} {s : System}
    (accepted : run step System.start evs = some s) :
    Throughout step (fun s => ¬ Deadlocked s) System.start evs ↔
      Along step Untangled System.start evs :=
  throughout_iff_along (I := fun _ => True) (fun _ _ _ _ _ => trivial)
    (fun _ _ _ _ safe moved => step_deadlock_iff safe moved) trivial start_not_deadlocked accepted

def tidyRun : List Event :=
  [.call (.obtain "k" 100), .advance 0 0, .advance 0 0, .call (.del "k"), .advance 1 5,
   .advance 1 5, .advance 2 6, .advance 2 6, .advance 2 6]

theorem tidy_run_deadlock_free :
    Throughout step (fun s => ¬ Deadlocked s) System.start tidyRun := by
  have accepted : (run step System.start tidyRun).isSome = true := by decide
  exact (deadlock_free_iff (Option.some_get accepted).symm).mpr (by decide)

/-- A `del` of an absent key spawns a cleaning task, which takes the queue; an
    `obtain` then takes the map. -/
def crossedRun : List Event :=
  [.call (.del "x"), .advance 0 0, .advance 1 0, .advance 1 0,
   .call (.obtain "k" 100), .advance 2 0]

def crossedState : System :=
  ⟨⟨∅, put (remove (fun _ => none) "x") "k" 100 []⟩, 0,
    [.done (some (.unit (.ok ()))), .cleanMap 0, .enqueue "k" 100]⟩

theorem crossed_run_deadlocks :
    ¬ ∀ (evs : List Event) (s : System), run step System.start evs = some s →
      Throughout step (fun s => ¬ Deadlocked s) System.start evs := by
  intro claim
  have accepted : run step System.start crossedRun = some crossedState := rfl
  have safe := claim crossedRun crossedState accepted crossedRun [] crossedState (by simp) accepted
  refine safe ((deadlocked_iff _).mpr ⟨⟨.enqueue "k" 100, ?_, rfl⟩, .cleanMap 0, ?_, rfl⟩)
  · simp [crossedState]
  · simp [crossedState]

end LockSteps
