import Mathlib.Logic.Function.Basic
import Mathlib.Data.List.Basic
import IdempotentProxy.Worker.Cacher

/-!
The worker's `fetch` handler from its first call on the Durable Object: any number
of requests, all mapped to one object, take their steps in any order. A call on
the stub may be refused, or carried out with its answer lost. `stub.del()` is sent
and not awaited: it reaches the object by a later event of its own. Requests share
one `catch` block, so whatever fails, the failing request sends a `del`.
-/
namespace WorkerFetch
open EventRuns WorkerCacher

structure Env where
  pollInterval : Nat
  requestTimeout : Nat
  poll_pos : 0 < pollInterval

inductive Stage where
  | start
  | polling (counter : Nat)
  | fetching
  | buffering (status : Nat)
  | storing (status : Nat) (value : Bytes)
  | draining (status : Nat)
  | responded (status : Nat)
  deriving DecidableEq

/-- Past an `obtain` that returned true, before the request's own `set` or `del`. -/
def Stage.holding : Stage → Bool
  | .fetching | .buffering _ | .storing .. => true
  | _ => false

inductive Rpc where
  | answered
  | refused
  | lost
  deriving DecidableEq

/-- `leased i` records that the object granted request `i` an `obtain`. -/
structure System where
  object : Cacher
  stages : Nat → Stage
  dels : List Nat
  leased : Nat → Bool

inductive Event where
  | obtain (i : Nat) (rpc : Rpc)
  | get (i : Nat) (rpc : Rpc) (decodes : Bool)
  | timeout (i : Nat)
  | fetch (i : Nat) (status : Option Nat)
  | buffer (i : Nat) (value : Option Bytes)
  | set (i : Nat) (now : Nat) (rpc : Rpc) (responds : Bool)
  | text (i : Nat) (reads : Bool)
  | deliver (i : Nat)
  deriving DecidableEq

def Event.request : Event → Nat
  | .obtain i _ | .get i _ _ | .timeout i | .fetch i _ | .buffer i _ | .set i _ _ _
  | .text i _ | .deliver i => i

def System.start (object : Cacher) : System := ⟨object, fun _ => .start, [], fun _ => false⟩

def System.move (s : System) (i : Nat) (stage : Stage) : System :=
  { s with stages := Function.update s.stages i stage }

/-- The `catch` block: send a `del`, answer 500. -/
def System.fail (s : System) (i : Nat) : System :=
  { s.move i (.responded 500) with dels := i :: s.dels }

def stepObtain (env : Env) (s : System) (i : Nat) : Rpc → System
  | .answered =>
      let (object, lock) := obtain s.object
      if lock then
        { s.move i .fetching with object := object, leased := Function.update s.leased i true }
      else { s.move i (.polling (env.requestTimeout / env.pollInterval)) with object := object }
  | .refused => s.fail i
  | .lost =>
      let (object, lock) := obtain s.object
      { s with object := object
               leased := if lock then Function.update s.leased i true else s.leased }.fail i

def stepGet (s : System) (i counter : Nat) (rpc : Rpc) (decodes : Bool) : System :=
  if rpc = .answered then
    match get s.object with
    | .error _ => s.fail i
    | .ok none => s.move i (.polling counter)
    | .ok (some _) => if decodes then s.move i (.responded 200) else s.fail i
  else s.fail i

def stepFetch (s : System) (i : Nat) : Option Nat → System
  | none => s.fail i
  | some status =>
      if 200 ≤ status ∧ status ≤ 500 then s.move i (.buffering status)
      else { s.move i (.draining status) with dels := i :: s.dels }

def stepSet (s : System) (i : Nat) (value : Bytes) (now : Nat) (rpc : Rpc) (responds : Bool) :
    System :=
  let written := { s with object := set s.object value now }
  match rpc with
  | .answered => if responds then written.move i (.responded 200) else written.fail i
  | .refused => s.fail i
  | .lost => written.fail i

/-- What `new Response(text, { status })` takes; it throws a `RangeError` for the rest. -/
def inRange (status : Nat) : Bool := decide (200 ≤ status ∧ status ≤ 599)

def stepText (s : System) (i status : Nat) (reads : Bool) : System :=
  if reads && inRange status then s.move i (.responded status) else s.fail i

def step (env : Env) (s : System) : Event → Option System
  | .obtain i rpc =>
      match s.stages i with
      | .start => some (stepObtain env s i rpc)
      | _ => none
  | .get i rpc decodes =>
      match s.stages i with
      | .polling (counter + 1) => some (stepGet s i counter rpc decodes)
      | _ => none
  | .timeout i =>
      match s.stages i with
      | .polling 0 => some (s.fail i)
      | _ => none
  | .fetch i status =>
      match s.stages i with
      | .fetching => some (stepFetch s i status)
      | _ => none
  | .buffer i value =>
      match s.stages i with
      | .buffering status =>
          match value with
          | none => some (s.fail i)
          | some bytes => some (s.move i (.storing status bytes))
      | _ => none
  | .set i now rpc responds =>
      match s.stages i with
      | .storing _ value => some (stepSet s i value now rpc responds)
      | _ => none
  | .text i reads =>
      match s.stages i with
      | .draining status => some (stepText s i status reads)
      | _ => none
  | .deliver i =>
      if i ∈ s.dels then some { s with object := del s.object, dels := s.dels.erase i } else none

def NoHolder (stages : Nat → Stage) : Prop := ∀ j, (stages j).holding = false

def SoleHolder (stages : Nat → Stage) (i : Nat) : Prop := ∀ j, (stages j).holding = true ↔ j = i

def SingleHolder (s : System) : Prop :=
  ∀ i, (s.stages i).holding = true → s.object.status = 1 ∧ SoleHolder s.stages i

def OnlyHoldersChange (env : Env) (start : System) (evs : List Event) : Prop :=
  ∀ pre e post s t, evs = pre ++ e :: post → run (step env) start pre = some s →
    step env s e = some t → t.object ≠ s.object → t.leased e.request = true

def passedOn : Stage → Option Nat
  | .draining status => some status
  | _ => none

/-- No request other than the holder fails: its `obtain` and `get` calls are
    answered (an `obtain` that takes the lease may lose its answer), the object is
    not free when it polls, the value it finds decodes, it does not run out of
    polls, and having sent its `del` it reads the upstream's text to the end and has
    a status for its `Response`. -/
def NoStrayDel (s : System) : Event → Prop
  | .obtain _ rpc => rpc = .answered ∨ rpc = .lost ∧ s.object.status = 0
  | .get _ rpc decodes => rpc = .answered ∧ s.object.status ≠ 0 ∧ decodes = true
  | .timeout _ => False
  | .text i reads => reads = true ∧ (passedOn (s.stages i)).all inRange = true
  | _ => True

instance (s : System) (e : Event) : Decidable (NoStrayDel s e) := by
  cases e <;> simp only [NoStrayDel] <;> infer_instance

section Inversion
variable {env : Env} {s t : System} {i : Nat} {rpc : Rpc}

theorem step_obtain (moved : step env s (.obtain i rpc) = some t) :
    s.stages i = .start ∧ t = stepObtain env s i rpc := by
  simp only [step] at moved
  split at moved
  · rename_i here
    cases moved
    exact ⟨here, rfl⟩
  · cases moved

theorem step_get {decodes : Bool} (moved : step env s (.get i rpc decodes) = some t) :
    ∃ counter, s.stages i = .polling (counter + 1) ∧ t = stepGet s i counter rpc decodes := by
  simp only [step] at moved
  split at moved
  · rename_i counter here
    cases moved
    exact ⟨counter, here, rfl⟩
  · cases moved

theorem step_timeout (moved : step env s (.timeout i) = some t) : t = s.fail i := by
  simp only [step] at moved
  split at moved
  · cases moved
    rfl
  · cases moved

theorem step_fetch {status : Option Nat} (moved : step env s (.fetch i status) = some t) :
    s.stages i = .fetching ∧ t = stepFetch s i status := by
  simp only [step] at moved
  split at moved
  · rename_i here
    cases moved
    exact ⟨here, rfl⟩
  · cases moved

theorem step_buffer {value : Option Bytes} (moved : step env s (.buffer i value) = some t) :
    (s.stages i).holding = true ∧
      (t = s.fail i ∨ ∃ status bytes, t = s.move i (.storing status bytes)) := by
  simp only [step] at moved
  split at moved
  · rename_i status here
    refine ⟨by rw [here]; rfl, ?_⟩
    cases value with
    | none =>
      cases moved
      exact Or.inl rfl
    | some bytes =>
      cases moved
      exact Or.inr ⟨status, bytes, rfl⟩
  · cases moved

theorem step_set {now : Nat} {responds : Bool}
    (moved : step env s (.set i now rpc responds) = some t) :
    (s.stages i).holding = true ∧ ∃ value, t = stepSet s i value now rpc responds := by
  simp only [step] at moved
  split at moved
  · rename_i status value here
    cases moved
    exact ⟨by rw [here]; rfl, value, rfl⟩
  · cases moved

theorem step_text {reads : Bool} (moved : step env s (.text i reads) = some t) :
    ∃ status, s.stages i = .draining status ∧ t = stepText s i status reads := by
  simp only [step] at moved
  split at moved
  · rename_i status here
    cases moved
    exact ⟨status, here, rfl⟩
  · cases moved

theorem step_deliver (moved : step env s (.deliver i) = some t) :
    i ∈ s.dels ∧ t = { s with object := del s.object, dels := s.dels.erase i } := by
  simp only [step] at moved
  split at moved
  · rename_i mem
    cases moved
    exact ⟨mem, rfl⟩
  · cases moved

end Inversion

/-- The object's status against the holder and the `del` calls under way. -/
inductive Phase (s : System) : Prop where
  | free (status : s.object.status = 0) (holder : NoHolder s.stages) (dels : s.dels = [])
  | held (i : Nat) (status : s.object.status = 1) (holder : SoleHolder s.stages i)
      (dels : s.dels = [])
  | dropping (i : Nat) (status : s.object.status = 1) (holder : NoHolder s.stages)
      (dels : s.dels = [i])
  | cached (status : s.object.status = 2) (holder : NoHolder s.stages)
      (dels : s.dels.length ≤ 1)

structure Orderly (s : System) : Prop where
  phase : Phase s
  holders : ∀ i, (s.stages i).holding = true → s.leased i = true
  senders : ∀ i ∈ s.dels, s.leased i = true

theorem holding_update (stages : Nat → Stage) (i j : Nat) (stage : Stage) :
    (Function.update stages i stage j).holding =
      if j = i then stage.holding else (stages j).holding := by
  by_cases same : j = i
  · simp [same]
  · simp [same]

theorem no_holder_move {stages : Nat → Stage} (none : NoHolder stages) (i : Nat) {stage : Stage}
    (idle : stage.holding = false) : NoHolder (Function.update stages i stage) := by
  intro j
  rw [holding_update]
  split
  · exact idle
  · exact none j

theorem sole_holder_leaves {stages : Nat → Stage} {i : Nat} (sole : SoleHolder stages i)
    {stage : Stage} (idle : stage.holding = false) :
    NoHolder (Function.update stages i stage) := by
  intro j
  rw [holding_update]
  split
  · exact idle
  · rename_i other
    have absent := (not_congr (sole j)).mpr other
    simpa using absent

theorem sole_holder_kept {stages : Nat → Stage} {h i : Nat} (sole : SoleHolder stages h)
    {stage : Stage} (same : stage.holding = (stages i).holding) :
    SoleHolder (Function.update stages i stage) h := by
  intro j
  rw [holding_update]
  split
  · rename_i here
    rw [same, here]
    exact sole i
  · exact sole j

theorem first_holder {stages : Nat → Stage} (none : NoHolder stages) (i : Nat) {stage : Stage}
    (holds : stage.holding = true) : SoleHolder (Function.update stages i stage) i := by
  intro j
  rw [holding_update]
  split
  · rename_i here
    simp [holds, here]
  · rename_i other
    simp [none j, other]

theorem holder_phase {s : System} {i : Nat} (phase : Phase s)
    (holds : (s.stages i).holding = true) :
    s.object.status = 1 ∧ SoleHolder s.stages i ∧ s.dels = [] := by
  cases phase with
  | free _ holder _ => exact absurd holds (by simp [holder i])
  | held h status holder dels =>
    have same := (holder i).mp holds
    subst same
    exact ⟨status, holder, dels⟩
  | dropping _ _ holder _ => exact absurd holds (by simp [holder i])
  | cached _ holder _ => exact absurd holds (by simp [holder i])

theorem orderly_move {s : System} (inv : Orderly s) (i : Nat) {stage : Stage}
    (same : stage.holding = (s.stages i).holding) : Orderly (s.move i stage) := by
  have stays : NoHolder s.stages → NoHolder (Function.update s.stages i stage) :=
    fun none => no_holder_move none i (by rw [same]; exact none i)
  refine ⟨?_, ?_, inv.senders⟩
  · cases inv.phase with
    | free status holder dels => exact .free status (stays holder) dels
    | held h status holder dels => exact .held h status (sole_holder_kept holder same) dels
    | dropping h status holder dels => exact .dropping h status (stays holder) dels
    | cached status holder dels => exact .cached status (stays holder) dels
  · intro j holds
    simp only [System.move, holding_update] at holds
    split at holds
    · rename_i here
      exact inv.holders j (by rw [here, ← same]; exact holds)
    · exact inv.holders j holds

theorem orderly_drop {s : System} (inv : Orderly s) {i : Nat} {stage : Stage}
    (holds : (s.stages i).holding = true) (idle : stage.holding = false) :
    Orderly { s.move i stage with dels := i :: s.dels } := by
  obtain ⟨status, sole, none⟩ := holder_phase inv.phase holds
  have left := sole_holder_leaves sole idle
  refine ⟨.dropping i status left (by simp [none]), ?_, ?_⟩
  · intro j now
    exact absurd now (by simp [System.move, left j])
  · intro j mem
    rcases List.mem_cons.mp mem with same | mem
    · subst same
      exact inv.holders _ holds
    · exact inv.senders j mem

theorem orderly_written {s : System} (inv : Orderly s) {i status : Nat}
    (holds : (s.stages i).holding = true) (value : Bytes) (now : Nat) (extra : List Nat)
    (sent : extra = [] ∨ extra = [i]) :
    Orderly { s.move i (.responded status) with
      object := set s.object value now, dels := extra ++ s.dels } := by
  obtain ⟨_, sole, none⟩ := holder_phase inv.phase holds
  have left : NoHolder (Function.update s.stages i (.responded status)) :=
    sole_holder_leaves sole rfl
  refine ⟨.cached rfl left ?_, ?_, ?_⟩
  · rcases sent with empty | one
    · simp [empty, none]
    · simp [one, none]
  · intro j now
    exact absurd now (by simp [System.move, left j])
  · intro j mem
    rw [none, List.append_nil] at mem
    rcases sent with empty | one
    · simp [empty] at mem
    · rw [one, List.mem_singleton] at mem
      rw [mem]
      exact inv.holders i holds

theorem free_phase {s : System} (phase : Phase s) (free : s.object.status = 0) :
    NoHolder s.stages ∧ s.dels = [] := by
  cases phase with
  | free _ holder dels => exact ⟨holder, dels⟩
  | held _ status _ _ => omega
  | dropping _ status _ _ => omega
  | cached status _ _ => omega

theorem orderly_obtain {env : Env} {s : System} (inv : Orderly s) (i : Nat)
    (here : s.stages i = .start) : Orderly (stepObtain env s i .answered) := by
  by_cases free : s.object.status = 0
  · obtain ⟨none, quiet⟩ := free_phase inv.phase free
    have first : SoleHolder (Function.update s.stages i .fetching) i := first_holder none i rfl
    simp only [stepObtain, WorkerCacher.obtain, free, ↓reduceIte]
    apply Orderly.mk
    · exact .held i rfl first quiet
    · intro j holds
      have same := (first j).mp holds
      simp [same]
    · intro j mem
      exact absurd mem (by simp [System.move, quiet])
  · have idle : (s.stages i).holding = false := by rw [here]; rfl
    have taken := obtain_taken free
    simp only [stepObtain, taken]
    exact orderly_move inv i (by rw [idle]; rfl)

theorem orderly_obtain_lost {env : Env} {s : System} (inv : Orderly s) (i : Nat)
    (free : s.object.status = 0) : Orderly (stepObtain env s i .lost) := by
  obtain ⟨none, quiet⟩ := free_phase inv.phase free
  have left : NoHolder (Function.update s.stages i (.responded 500)) :=
    no_holder_move none i rfl
  simp only [stepObtain, WorkerCacher.obtain, free, ↓reduceIte]
  apply Orderly.mk
  · exact .dropping i rfl left (by simp [System.fail, quiet])
  · intro j holds
    exact absurd holds (by simp [System.fail, System.move, left j])
  · intro j mem
    simp only [System.fail, quiet, List.mem_singleton] at mem
    simp [System.fail, System.move, mem]

theorem get_unfailing {o : Cacher} (taken : o.status ≠ 0) :
    ∃ reply, WorkerCacher.get o = .ok reply := by
  unfold WorkerCacher.get
  rw [if_neg taken]
  split
  · exact ⟨none, rfl⟩
  · exact ⟨_, rfl⟩

theorem orderly_deliver {s : System} (inv : Orderly s) {i : Nat} (mem : i ∈ s.dels) :
    Orderly { s with object := del s.object, dels := s.dels.erase i } := by
  have single : NoHolder s.stages ∧ s.dels = [i] := by
    cases inv.phase with
    | free _ _ dels => simp [dels] at mem
    | held _ _ _ dels => simp [dels] at mem
    | dropping j _ holder dels =>
      rw [dels, List.mem_singleton] at mem
      exact ⟨holder, by rw [dels, mem]⟩
    | cached _ holder dels =>
      refine ⟨holder, ?_⟩
      cases sent : s.dels with
      | nil => simp [sent] at mem
      | cons j rest =>
        rw [sent, List.length_cons] at dels
        have last : rest = [] := List.length_eq_zero_iff.mp (by omega)
        rw [sent, last, List.mem_singleton] at mem
        rw [last, mem]
  have empty : s.dels.erase i = [] := by simp [single.2]
  refine ⟨.free rfl single.1 empty, inv.holders, ?_⟩
  intro j left
  exact absurd left (by simp [empty])

theorem orderly_get {s : System} (inv : Orderly s) {i counter : Nat}
    (here : s.stages i = .polling (counter + 1)) (taken : s.object.status ≠ 0) :
    Orderly (stepGet s i counter .answered true) := by
  have idle : (s.stages i).holding = false := by rw [here]; rfl
  obtain ⟨reply, found⟩ := get_unfailing taken
  simp only [stepGet, found, ↓reduceIte]
  cases reply with
  | none => exact orderly_move inv i (by rw [idle]; rfl)
  | some v => exact orderly_move inv i (by rw [idle]; rfl)

theorem orderly_fetch {s : System} (inv : Orderly s) {i : Nat}
    (holds : (s.stages i).holding = true) (status : Option Nat) :
    Orderly (stepFetch s i status) := by
  cases status with
  | none => exact orderly_drop inv holds rfl
  | some code =>
    simp only [stepFetch]
    split
    · exact orderly_move inv i (by rw [holds]; rfl)
    · exact orderly_drop inv holds rfl

theorem orderly_set {s : System} (inv : Orderly s) {i : Nat} (holds : (s.stages i).holding = true)
    (value : Bytes) (now : Nat) (rpc : Rpc) (responds : Bool) :
    Orderly (stepSet s i value now rpc responds) := by
  cases rpc with
  | answered =>
    simp only [stepSet]
    split
    · exact orderly_written inv holds value now [] (Or.inl rfl)
    · exact orderly_written inv holds value now [i] (Or.inr rfl)
  | refused => exact orderly_drop inv holds rfl
  | lost => exact orderly_written inv holds value now [i] (Or.inr rfl)

theorem step_orderly {env : Env} {s t : System} {e : Event} (inv : Orderly s)
    (calm : NoStrayDel s e) (moved : step env s e = some t) : Orderly t := by
  cases e with
  | obtain i rpc =>
    obtain ⟨here, same⟩ := step_obtain moved
    subst same
    rcases calm with answered | ⟨lost, free⟩
    · rw [answered]
      exact orderly_obtain inv i here
    · rw [lost]
      exact orderly_obtain_lost inv i free
  | get i rpc decodes =>
    obtain ⟨counter, here, same⟩ := step_get moved
    obtain ⟨answered, taken, good⟩ := calm
    subst same; subst answered; subst good
    exact orderly_get inv here taken
  | timeout i => exact False.elim calm
  | fetch i status =>
    obtain ⟨here, same⟩ := step_fetch moved
    subst same
    exact orderly_fetch inv (by rw [here]; rfl) status
  | buffer i value =>
    obtain ⟨holds, same | ⟨status, bytes, same⟩⟩ := step_buffer moved
    · subst same
      exact orderly_drop inv holds rfl
    · subst same
      exact orderly_move inv i (by rw [holds]; rfl)
  | set i now rpc responds =>
    obtain ⟨holds, value, same⟩ := step_set moved
    subst same
    exact orderly_set inv holds value now rpc responds
  | text i reads =>
    obtain ⟨status, here, same⟩ := step_text moved
    obtain ⟨good, range⟩ := calm
    rw [here] at range
    have passes : inRange status = true := range
    subst same; subst good
    rw [stepText, passes]
    exact orderly_move inv i (by rw [here]; rfl)
  | deliver i =>
    obtain ⟨mem, same⟩ := step_deliver moved
    subst same
    exact orderly_deliver inv mem

theorem start_orderly {object : Cacher} (free : object.status = 0) :
    Orderly (System.start object) := by
  apply Orderly.mk
  · exact .free free (fun _ => rfl) rfl
  · intro i holds
    exact absurd holds (by simp [System.start, Stage.holding])
  · intro i mem
    exact absurd mem (by simp [System.start])

theorem orderly_single_holder {s : System} (inv : Orderly s) : SingleHolder s := by
  intro i holds
  obtain ⟨status, sole, _⟩ := holder_phase inv.phase holds
  exact ⟨status, sole⟩

theorem obtain_refused {o : Cacher} (refused : (WorkerCacher.obtain o).2 = false) :
    (WorkerCacher.obtain o).1 = o := by
  unfold WorkerCacher.obtain at refused ⊢
  split
  · rename_i free
    simp [free] at refused
  · rfl

theorem obtain_leases {env : Env} {s : System} {i : Nat} {rpc : Rpc}
    (changed : (stepObtain env s i rpc).object ≠ s.object) :
    (stepObtain env s i rpc).leased i = true := by
  cases rpc with
  | answered =>
    simp only [stepObtain] at changed ⊢
    split
    · simp
    · rename_i refused
      simp only [if_neg refused] at changed
      exact absurd (obtain_refused (by simpa using refused)) changed
  | refused => exact absurd rfl changed
  | lost =>
    simp only [stepObtain, System.fail, System.move] at changed ⊢
    cases lock : (WorkerCacher.obtain s.object).2 with
    | true => simp
    | false => exact absurd (obtain_refused lock) changed

theorem get_object (s : System) (i counter : Nat) (rpc : Rpc) (decodes : Bool) :
    (stepGet s i counter rpc decodes).object = s.object := by
  unfold stepGet
  split
  · split
    · rfl
    · rfl
    · split <;> rfl
  · rfl

theorem fetch_object (s : System) (i : Nat) (status : Option Nat) :
    (stepFetch s i status).object = s.object := by
  unfold stepFetch
  split
  · rfl
  · split <;> rfl

theorem set_leased (s : System) (i : Nat) (value : Bytes) (now : Nat) (rpc : Rpc)
    (responds : Bool) : (stepSet s i value now rpc responds).leased = s.leased := by
  cases rpc with
  | answered =>
    simp only [stepSet]
    split <;> rfl
  | refused => rfl
  | lost => rfl

theorem changed_leased {env : Env} {s t : System} {e : Event} (inv : Orderly s)
    (moved : step env s e = some t) (changed : t.object ≠ s.object) :
    t.leased e.request = true := by
  cases e with
  | obtain i rpc =>
    obtain ⟨_, same⟩ := step_obtain moved
    subst same
    exact obtain_leases changed
  | get i rpc decodes =>
    obtain ⟨counter, _, same⟩ := step_get moved
    subst same
    exact absurd (get_object s i counter rpc decodes) changed
  | timeout i =>
    rw [step_timeout moved] at changed
    exact absurd rfl changed
  | fetch i status =>
    obtain ⟨_, same⟩ := step_fetch moved
    subst same
    exact absurd (fetch_object s i status) changed
  | buffer i value =>
    obtain ⟨_, same | ⟨status, bytes, same⟩⟩ := step_buffer moved
    · subst same
      exact absurd rfl changed
    · subst same
      exact absurd rfl changed
  | set i now rpc responds =>
    obtain ⟨holds, value, same⟩ := step_set moved
    subst same
    rw [set_leased]
    exact inv.holders i holds
  | text i reads =>
    obtain ⟨status, _, same⟩ := step_text moved
    subst same
    refine absurd ?_ changed
    unfold stepText
    split <;> rfl
  | deliver i =>
    obtain ⟨mem, same⟩ := step_deliver moved
    subst same
    exact inv.senders i mem

theorem single_holder_without_stray_del (env : Env) {object : Cacher} {evs : List Event}
    (fresh : object.status = 0)
    (calm : Along (step env) NoStrayDel (System.start object) evs) :
    Throughout (step env) SingleHolder (System.start object) evs ∧
      OnlyHoldersChange env (System.start object) evs := by
  have orderly : Throughout (step env) Orderly (System.start object) evs :=
    throughout_of_along (fun _ _ _ inv good moved => step_orderly inv good moved)
      (start_orderly fresh) calm
  constructor
  · intro pre post s split reached
    exact orderly_single_holder (orderly pre post s split reached)
  · intro pre e post s t split reached moved changed
    exact changed_leased (orderly pre (e :: post) s split reached) moved changed

def freshObject : Cacher := ⟨20000, 0, .empty⟩

def oneRetry : Env := ⟨1000, 1000, by decide⟩

def servedRun : List Event :=
  [.obtain 0 .answered, .obtain 1 .answered, .fetch 0 (some 200), .buffer 0 (some [7]),
    .set 0 50 .answered true, .get 1 .answered true]

theorem served_run_single_holder :
    Throughout (step oneRetry) SingleHolder (System.start freshObject) servedRun ∧
      OnlyHoldersChange oneRetry (System.start freshObject) servedRun :=
  single_holder_without_stray_del oneRetry rfl (by decide)

/-- Request 1 runs out of polls while request 0 is still fetching; the `del` it
    sends frees the object for request 2. -/
def strayRun : List Event :=
  [.obtain 0 .answered, .obtain 1 .answered, .get 1 .answered true, .timeout 1, .deliver 1,
    .obtain 2 .answered]

theorem timed_out_poller_frees_object :
    ¬ ∀ (env : Env) (object : Cacher) (evs : List Event), object.status = 0 →
      Throughout (step env) SingleHolder (System.start object) evs ∧
        OnlyHoldersChange env (System.start object) evs := by
  intro claim
  have two : (run (step oneRetry) (System.start freshObject) strayRun).map
      (fun s => ((s.stages 0).holding, (s.stages 2).holding)) = some (true, true) := by decide
  obtain ⟨s, reached, holding⟩ := Option.map_eq_some_iff.mp two
  obtain ⟨first, third⟩ := Prod.mk.inj holding
  have single := (claim oneRetry freshObject strayRun rfl).1 strayRun [] s (by simp) reached
  have same := ((single 0 first).2 2).mp third
  cases same

end WorkerFetch
