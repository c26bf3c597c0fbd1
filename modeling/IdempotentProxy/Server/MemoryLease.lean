import IdempotentProxy.Foundations.EventRuns
import IdempotentProxy.Server.MemoryCacher

/-!
Runs of the in-memory cache: any number of tasks call it in any order, each
operation body is one event, and a spawned cleaning task may run any time later.
A lease on a key lasts `ttl` from the successful `obtain`, and a stored value
lasts `ttl` from its `set`. One path breaks this: a `set` that finds the entry
expired drops it from the map and leaves its key queued, and when the key is
obtained again before the spawned cleaning runs, the cleaning drops the new entry.
-/
namespace MemoryLease
open EventRuns ExpiringStore MemoryCache

/-- The cache, the last clock reading, and the spawned cleaning tasks not yet run. -/
structure System where
  cacher : MemoryCacher
  clock : Nat
  cleaners : Nat

def System.start : System := ⟨MemoryCacher.default, 0, 0⟩

inductive Call where
  | obtain (key : String) (ttl : Nat) (reply : Except String Bool)
  | poll (key : String) (reply : Except String (Option Bytes))
  | set (key : String) (val : Bytes) (ttl : Nat) (reply : Except String Bool)
  | del (key : String)
  | clean
  deriving DecidableEq

structure Event where
  now : Nat
  call : Call
  deriving DecidableEq

def effect (mc : MemoryCacher) (now : Nat) : Call → MemoryCacher
  | .obtain key ttl _ => (obtain mc key ttl now).cacher
  | .poll key _ => (pollTurn mc key now).cacher
  | .set key val ttl _ => (set mc key val ttl now).cacher
  | .del key => (del mc key).cacher
  | .clean => cleanExpiredValues mc now

def spawns (mc : MemoryCacher) (now : Nat) : Call → Bool
  | .obtain key ttl _ => (obtain mc key ttl now).spawned
  | .poll key _ => (pollTurn mc key now).spawned
  | .set key val ttl _ => (set mc key val ttl now).spawned
  | .del key => (del mc key).spawned
  | .clean => false

def answers (mc : MemoryCacher) (now : Nat) : Call → Bool
  | .obtain key ttl reply => decide ((obtain mc key ttl now).reply = reply)
  | .poll key reply => decide ((pollTurn mc key now).reply = reply)
  | .set key val ttl reply => decide ((set mc key val ttl now).reply = reply)
  | .del _ => true
  | .clean => true

def running (cleaners : Nat) (call : Call) : Nat :=
  if call = .clean then cleaners - 1 else cleaners

def step (s : System) (e : Event) : Option System :=
  if s.clock ≤ e.now ∧ answers s.cacher e.now e.call = true ∧
      (e.call = .clean → 0 < s.cleaners) then
    some ⟨effect s.cacher e.now e.call, e.now,
      running s.cleaners e.call + (spawns s.cacher e.now e.call).toNat⟩
  else none

def ttlIs (ttl : Nat) : Call → Prop
  | .obtain _ given _ => given = ttl
  | .set _ _ given _ => given = ttl
  | _ => True

instance (ttl : Nat) (c : Call) : Decidable (ttlIs ttl c) := by
  cases c <;> simp only [ttlIs] <;> infer_instance

def OneTtl (ttl : Nat) (evs : List Event) : Prop := ∀ e ∈ evs, ttlIs ttl e.call

instance (ttl : Nat) (evs : List Event) : Decidable (OneTtl ttl evs) :=
  inferInstanceAs (Decidable (∀ e ∈ evs, ttlIs ttl e.call))

/-- What a polling turn answers on an entry holding `v`: an empty value is how an
    entry that was never set looks. -/
def answer (v : Bytes) : Option Bytes := if v.isEmpty then none else some v

def latestSet (k : String) (v : Bytes) (mid : List Event) : Bytes :=
  mid.foldl (fun last e =>
    match e.call with
    | .set key val _ (.ok true) => if key = k then val else last
    | _ => last) v

/-- No second `obtain` of the key succeeds while the lease runs and nobody deletes it. -/
def LeaseExclusive (ttl : Nat) (evs : List Event) : Prop :=
  ∀ pre mid post k t t',
    evs = pre ++ ⟨t, .obtain k ttl (.ok true)⟩ ::
      (mid ++ ⟨t', .obtain k ttl (.ok true)⟩ :: post) →
    (∀ e ∈ mid, e.call ≠ .del k) → t + ttl ≤ t'

/-- A value set under a running lease is what every poll answers for `ttl` from then on. -/
def LeaseReadable (ttl : Nat) (evs : List Event) : Prop :=
  ∀ pre mid later post k v t u w reply,
    evs = pre ++ ⟨t, .obtain k ttl (.ok true)⟩ ::
      (mid ++ ⟨u, .set k v ttl (.ok true)⟩ :: (later ++ ⟨w, .poll k reply⟩ :: post)) →
    (∀ e ∈ mid, e.call ≠ .del k) → (∀ e ∈ later, e.call ≠ .del k) →
    u < t + ttl → w < u + ttl → reply = .ok (answer (latestSet k v later))

def LeaseIntegrity (ttl : Nat) (evs : List Event) : Prop :=
  LeaseExclusive ttl evs ∧ LeaseReadable ttl evs

/-- An `obtain` that finds no entry in the map finds no key queued for it either. -/
def FreshKey (s : System) (e : Event) : Prop :=
  match e.call with
  | .obtain key _ _ => NoStaleKey s.cacher key
  | _ => True

instance (s : System) (e : Event) : Decidable (FreshKey s e) := by
  unfold FreshKey
  split <;> infer_instance

theorem step_some {s t : System} {e : Event} (moved : step s e = some t) :
    s.clock ≤ e.now ∧ answers s.cacher e.now e.call = true ∧
      t.cacher = effect s.cacher e.now e.call ∧ t.clock = e.now := by
  unfold step at moved
  split at moved
  · rename_i guard
    cases moved
    exact ⟨guard.1, guard.2.1, rfl, rfl⟩
  · exact absurd moved (by simp)

theorem effect_agrees {mc : MemoryCacher} (agrees : QueueAgrees mc) (now : Nat) (call : Call)
    (fresh : ∀ key ttl reply, call = .obtain key ttl reply → NoStaleKey mc key) :
    QueueAgrees (effect mc now call) := by
  cases call with
  | obtain key ttl reply => exact obtain_queue_agrees agrees (fresh key ttl reply rfl) ttl now
  | poll key reply =>
    simp only [effect, pollTurn]
    split <;> exact agrees
  | set key val ttl reply => exact set_queue_agrees agrees key val ttl now
  | del key => exact del_queue_agrees agrees key
  | clean => exact clean_queue_agrees agrees now

theorem step_agrees {s t : System} {e : Event} (agrees : QueueAgrees s.cacher)
    (fresh : FreshKey s e) (moved : step s e = some t) : QueueAgrees t.cacher := by
  rw [(step_some moved).2.2.1]
  refine effect_agrees agrees e.now e.call ?_
  intro key ttl reply same
  simpa [FreshKey, same] using fresh

theorem run_agrees {s t : System} {evs : List Event} (agrees : QueueAgrees s.cacher)
    (fresh : Along step FreshKey s evs) (reached : run step s evs = some t) :
    QueueAgrees t.cacher :=
  run_keeps (I := fun s => QueueAgrees s.cacher) (fun _ _ _ => step_agrees) agrees fresh reached

theorem pollTurn_cacher (mc : MemoryCacher) (key : String) (now : Nat) :
    (pollTurn mc key now).cacher = mc := by
  unfold pollTurn
  split <;> rfl

theorem effect_keeps_entry {mc : MemoryCacher} {now ttl due E : Nat} {k : String} {v : Bytes}
    {call : Call} (agrees : QueueAgrees mc) (held : mc.kv k = some (E, v)) (lasts : due ≤ E)
    (early : now < due) (renewed : due ≤ now + ttl) (fixed : ttlIs ttl call)
    (kept : call ≠ .del k) (answered : answers mc now call = true) :
    ∃ E', (effect mc now call).kv k = some (E', latestSet k v [⟨now, call⟩]) ∧ due ≤ E' := by
  have alive : live mc.kv now k = some (E, v) :=
    live_some_iff.mpr ⟨held, Nat.lt_of_lt_of_le early lasts⟩
  cases call with
  | obtain key given reply =>
    refine ⟨E, ?_, lasts⟩
    simp only [effect, latestSet, List.foldl_cons, List.foldl_nil]
    rw [(obtain_put_if_absent mc key given now).1]
    by_cases same : key = k
    · subst same
      simp [putIfAbsent, alive, held]
    · unfold putIfAbsent
      split
      · exact held
      · exact (put_other _ _ (Ne.symm same)).trans held
  | poll key reply =>
    refine ⟨E, ?_, lasts⟩
    simp only [effect, pollTurn_cacher, latestSet, List.foldl_cons, List.foldl_nil, held]
  | set key val given reply =>
    have width : given = ttl := fixed
    subst width
    by_cases same : key = k
    · subst same
      obtain ⟨stored, replied⟩ := set_live alive val given
      have good : reply = .ok true := by
        have recorded : (MemoryCache.set mc key val given now).reply = reply := by
          simpa [answers] using answered
        exact recorded.symm.trans replied
      subst good
      refine ⟨now + given, ?_, renewed⟩
      simp only [effect, stored, put_same, latestSet, List.foldl_cons, List.foldl_nil, ↓reduceIte]
    · refine ⟨E, ?_, lasts⟩
      have value : latestSet k v [⟨now, .set key val given reply⟩] = v := by
        simp only [latestSet, List.foldl_cons, List.foldl_nil]
        split
        · rename_i heq
          cases heq
          exact if_neg same
        · rfl
      rw [value]
      simp only [effect]
      cases other : live mc.kv now key with
      | some e => rw [(set_live other val given).1, put_other _ _ (Ne.symm same), held]
      | none => rw [(set_dead other val given).1, remove_other (Ne.symm same), held]
  | del key =>
    have other : k ≠ key := fun same => kept (by rw [same])
    refine ⟨E, ?_, lasts⟩
    simp only [effect, (del_kv mc key).1, latestSet, List.foldl_cons, List.foldl_nil]
    rw [remove_other other, held]
  | clean =>
    refine ⟨E, ?_, lasts⟩
    have still := (clean_keeps_live agrees now k).trans alive
    simpa [effect, latestSet] using (live_some_iff.mp still).1

theorem latestSet_cons (k : String) (v : Bytes) (e : Event) (mid : List Event) :
    latestSet k v (e :: mid) = latestSet k (latestSet k v [e]) mid := by
  simp [latestSet]

theorem step_clock {s t : System} {e : Event} (moved : step s e = some t) :
    s.clock ≤ e.now ∧ t.clock = e.now := by
  obtain ⟨order, _, _, clock⟩ := step_some moved
  exact ⟨order, clock⟩

theorem run_keeps_entry {s t : System} {mid : List Event} {k : String} {v : Bytes}
    {ttl due E : Nat} (agrees : QueueAgrees s.cacher) (fresh : Along step FreshKey s mid)
    (held : s.cacher.kv k = some (E, v)) (lasts : due ≤ E) (renewed : due ≤ s.clock + ttl)
    (fixed : OneTtl ttl mid) (kept : ∀ e ∈ mid, e.call ≠ .del k)
    (reached : run step s mid = some t) (early : t.clock < due) :
    ∃ E', t.cacher.kv k = some (E', latestSet k v mid) ∧ due ≤ E' := by
  induction mid generalizing s v E with
  | nil =>
    cases reached
    exact ⟨E, held, lasts⟩
  | cons e mid ih =>
    obtain ⟨m, first, rest⟩ := run_cons_iff.mp reached
    obtain ⟨before, answered, moved, clock⟩ := step_some first
    have ahead := (run_clock (fun _ _ _ => step_clock) rest).1
    obtain ⟨E', held', lasts'⟩ := effect_keeps_entry agrees held lasts
      (by omega : e.now < due) (by omega : due ≤ e.now + ttl) (fixed e (by simp))
      (kept e (by simp)) answered
    rw [← moved] at held'
    rw [latestSet_cons]
    exact ih (step_agrees agrees fresh.1 first) (fresh.2 m first) held' lasts' (by omega)
      (fun f mem => fixed f (by simp [mem])) (fun f mem => kept f (by simp [mem])) rest

theorem obtained_entry {s t : System} {now ttl : Nat} {k : String}
    (moved : step s ⟨now, .obtain k ttl (.ok true)⟩ = some t) :
    t.cacher.kv k = some (now + ttl, []) := by
  obtain ⟨_, answered, effect_eq, _⟩ := step_some moved
  obtain ⟨map, reply⟩ := obtain_put_if_absent s.cacher k ttl now
  have recorded : (MemoryCache.obtain s.cacher k ttl now).reply = .ok true := by
    simpa [answers] using answered
  rw [effect_eq]
  simp only [effect]
  rw [map]
  unfold putIfAbsent at reply ⊢
  split at reply
  · rw [recorded] at reply
    exact absurd reply (by simp)
  · rename_i free
    rw [if_neg free]
    exact put_same _ _ _ _

theorem obtain_refused {s t : System} {now ttl E : Nat} {k : String} {v : Bytes}
    (held : s.cacher.kv k = some (E, v)) (ahead : now < E)
    (moved : step s ⟨now, .obtain k ttl (.ok true)⟩ = some t) : False := by
  have alive : live s.cacher.kv now k = some (E, v) := live_some_iff.mpr ⟨held, ahead⟩
  have recorded : (MemoryCache.obtain s.cacher k ttl now).reply = .ok true := by
    simpa [answers] using (step_some moved).2.1
  rw [(obtain_put_if_absent s.cacher k ttl now).2] at recorded
  simp [putIfAbsent, alive] at recorded

theorem set_entry {s t : System} {now ttl : Nat} {k : String} {v : Bytes}
    (moved : step s ⟨now, .set k v ttl (.ok true)⟩ = some t) :
    t.cacher.kv k = some (now + ttl, v) := by
  obtain ⟨_, answered, effect_eq, _⟩ := step_some moved
  have recorded : (MemoryCache.set s.cacher k v ttl now).reply = .ok true := by
    simpa [answers] using answered
  rw [effect_eq]
  simp only [effect]
  cases found : live s.cacher.kv now k with
  | some e => rw [(set_live found v ttl).1, put_same]
  | none =>
    obtain ⟨_, msg, failed⟩ := set_dead found v ttl
    rw [failed] at recorded
    exact absurd recorded (by simp)

theorem poll_answer {s t : System} {now E : Nat} {k : String} {v : Bytes}
    {reply : Except String (Option Bytes)} (held : s.cacher.kv k = some (E, v))
    (moved : step s ⟨now, .poll k reply⟩ = some t) : reply = .ok (answer v) := by
  have recorded : (pollTurn s.cacher k now).reply = reply := by
    simpa [answers] using (step_some moved).2.1
  rw [← recorded]
  simp [pollTurn, held, answer]

theorem lease_exclusive {ttl : Nat} {evs : List Event} {s : System}
    (accepted : run step System.start evs = some s) (fixed : OneTtl ttl evs)
    (fresh : Along step FreshKey System.start evs) : LeaseExclusive ttl evs := by
  intro pre mid post k t t' split kept
  subst split
  obtain ⟨a, reached, rest⟩ := run_append_iff.mp accepted
  obtain ⟨b, taken, rest⟩ := run_cons_iff.mp rest
  obtain ⟨c, between, rest⟩ := run_append_iff.mp rest
  obtain ⟨d, again, _⟩ := run_cons_iff.mp rest
  obtain ⟨freshPre, freshRest⟩ := along_append fresh
  have agreesA := run_agrees queue_agrees_default freshPre reached
  have freshTaken := freshRest a reached
  have agreesB := step_agrees agreesA freshTaken.1 taken
  by_contra overlap
  have clockB := (step_some taken).2.2.2
  have order := (step_some again).1
  obtain ⟨E, held, lasts⟩ := run_keeps_entry agreesB
    (along_append (freshTaken.2 b taken)).1 (obtained_entry taken) (Nat.le_refl _)
    (by simp [clockB]) (fun e mem => fixed e (by simp [mem])) kept between
    (by simp only at order; omega)
  exact obtain_refused held (by omega) again

theorem lease_readable {ttl : Nat} {evs : List Event} {s : System}
    (accepted : run step System.start evs = some s) (fixed : OneTtl ttl evs)
    (fresh : Along step FreshKey System.start evs) : LeaseReadable ttl evs := by
  intro pre mid later post k v t u w reply split _ kept _ inside
  have regroup : evs = (pre ++ ⟨t, .obtain k ttl (.ok true)⟩ :: mid) ++
      ⟨u, .set k v ttl (.ok true)⟩ :: (later ++ ⟨w, .poll k reply⟩ :: post) := by
    rw [split]
    simp
  rw [regroup] at accepted fresh
  obtain ⟨a, reached, rest⟩ := run_append_iff.mp accepted
  obtain ⟨b, stored, rest⟩ := run_cons_iff.mp rest
  obtain ⟨c, between, rest⟩ := run_append_iff.mp rest
  obtain ⟨d, polled, _⟩ := run_cons_iff.mp rest
  obtain ⟨freshPre, freshRest⟩ := along_append fresh
  have freshSet := freshRest a reached
  have agreesB := step_agrees (run_agrees queue_agrees_default freshPre reached) freshSet.1 stored
  have clockB := (step_some stored).2.2.2
  have order := (step_some polled).1
  obtain ⟨E, held, _⟩ := run_keeps_entry agreesB
    (along_append (freshSet.2 b stored)).1 (set_entry stored) (Nat.le_refl _)
    (by simp [clockB]) (fun e mem => fixed e (by rw [regroup]; simp [mem])) kept between
    (by simp only at order; omega)
  exact poll_answer held polled

theorem lease_integrity {ttl : Nat} {evs : List Event} {s : System}
    (accepted : run step System.start evs = some s) (fixed : OneTtl ttl evs)
    (fresh : Along step FreshKey System.start evs) : LeaseIntegrity ttl evs :=
  ⟨lease_exclusive accepted fixed fresh, lease_readable accepted fixed fresh⟩

def sharedRun : List Event :=
  [⟨0, .obtain "k" 100 (.ok true)⟩, ⟨20, .obtain "k" 100 (.ok false)⟩,
   ⟨50, .set "k" [1, 2] 100 (.ok true)⟩, ⟨120, .poll "k" (.ok (some [1, 2]))⟩,
   ⟨130, .del "k"⟩, ⟨131, .obtain "k" 100 (.ok true)⟩, ⟨140, .clean⟩]

theorem lease_integrity_shared : LeaseIntegrity 100 sharedRun := by
  have accepted : (run step System.start sharedRun).isSome = true := by decide
  exact lease_integrity (Option.some_get accepted).symm (by decide) (by decide)

/-- The key is re-obtained between a `set` that found its entry expired and the
    cleaning that `set` spawned. -/
def reobtainedRun : List Event :=
  [⟨0, .obtain "k" 100 (.ok true)⟩, ⟨100, .set "k" [1] 100 (.error "value expired")⟩,
   ⟨100, .obtain "k" 100 (.ok true)⟩, ⟨100, .clean⟩, ⟨100, .obtain "k" 100 (.ok true)⟩]

theorem reobtained_lease_lost :
    ¬ ∀ (ttl : Nat) (evs : List Event) (s : System), 0 < ttl →
      run step System.start evs = some s → OneTtl ttl evs → LeaseIntegrity ttl evs := by
  intro claim
  have accepted : (run step System.start reobtainedRun).isSome = true := by decide
  have integrity := claim 100 reobtainedRun _ (by decide) (Option.some_get accepted).symm
    (by decide)
  have late := integrity.1 (reobtainedRun.take 2) [⟨100, .clean⟩] [] "k" 100 100 rfl (by decide)
  omega

/-- A key still queued for an entry that left the map is due, and a cleaning run
    that will take it has been spawned. -/
def StaleDue (s : System) : Prop :=
  ∀ p ∈ s.cacher.priorityQueue, s.cacher.kv p.key = none →
    p.expireAt ≤ s.clock ∧ 0 < s.cleaners

theorem put_stale {q : Finset PriorityKey} {kv : Store String Bytes} {key : String}
    {expiry : Nat} {val : Bytes} {p : PriorityKey} (mem : p ∈ insert ⟨expiry, key⟩ q)
    (absent : put kv key expiry val p.key = none) : p ∈ q ∧ kv p.key = none := by
  have other : p.key ≠ key := by
    intro same
    rw [same, put_same] at absent
    exact absurd absent (by simp)
  rw [put_other _ _ other] at absent
  rcases Finset.mem_insert.mp mem with same | mem
  · exact absurd (congrArg PriorityKey.key same) other
  · exact ⟨mem, absent⟩

theorem obtain_stale {mc : MemoryCacher} {key : String} {ttl now : Nat} {p : PriorityKey}
    (mem : p ∈ (MemoryCache.obtain mc key ttl now).cacher.priorityQueue)
    (absent : (MemoryCache.obtain mc key ttl now).cacher.kv p.key = none) :
    p ∈ mc.priorityQueue ∧ mc.kv p.key = none := by
  unfold MemoryCache.obtain at mem absent
  cases entry : mc.kv key with
  | none =>
    rw [entry] at mem absent
    exact put_stale mem absent
  | some e =>
    simp only [entry] at mem absent
    split at mem
    · rename_i ahead
      rw [if_pos ahead] at absent
      exact ⟨mem, absent⟩
    · rename_i late
      rw [if_neg late] at absent
      obtain ⟨left, gone⟩ := put_stale mem absent
      exact ⟨Finset.mem_of_mem_erase left, gone⟩

theorem set_stale {mc : MemoryCacher} {key : String} {val : Bytes} {ttl now : Nat}
    {p : PriorityKey} (agrees : QueueAgrees mc)
    (mem : p ∈ (MemoryCache.set mc key val ttl now).cacher.priorityQueue)
    (absent : (MemoryCache.set mc key val ttl now).cacher.kv p.key = none) :
    (p ∈ mc.priorityQueue ∧ mc.kv p.key = none) ∨
      (p.expireAt ≤ now ∧ (MemoryCache.set mc key val ttl now).spawned = true) := by
  unfold MemoryCache.set at mem absent ⊢
  cases entry : mc.kv key with
  | none =>
    rw [entry] at mem absent
    exact Or.inl ⟨mem, absent⟩
  | some e =>
    simp only [entry] at mem absent ⊢
    by_cases late : e.1 ≤ now
    · simp only [late, ↓reduceIte] at mem absent ⊢
      by_cases same : p.key = key
      · have expiry := agrees p mem e (by rw [same]; exact entry)
        exact Or.inr ⟨by omega, trivial⟩
      · rw [remove_other same] at absent
        exact Or.inl ⟨mem, absent⟩
    · simp only [late, ↓reduceIte] at mem absent
      obtain ⟨left, gone⟩ := put_stale mem absent
      exact Or.inl ⟨Finset.mem_of_mem_erase left, gone⟩

theorem del_stale {mc : MemoryCacher} {key : String} {p : PriorityKey} (agrees : QueueAgrees mc)
    (mem : p ∈ (MemoryCache.del mc key).cacher.priorityQueue)
    (absent : (MemoryCache.del mc key).cacher.kv p.key = none) :
    p ∈ mc.priorityQueue ∧ mc.kv p.key = none := by
  unfold MemoryCache.del at mem absent
  cases entry : mc.kv key with
  | none =>
    simp only [entry] at mem absent
    by_cases same : p.key = key
    · exact ⟨mem, by rw [same]; exact entry⟩
    · rw [remove_other same] at absent
      exact ⟨mem, absent⟩
  | some e =>
    simp only [entry] at mem absent
    have other := queue_agrees_erase agrees entry p mem
    rw [remove_other other] at absent
    exact ⟨Finset.mem_of_mem_erase mem, absent⟩

theorem clean_stale {mc : MemoryCacher} {now : Nat} {p : PriorityKey} (agrees : QueueAgrees mc)
    (mem : p ∈ (cleanExpiredValues mc now).priorityQueue)
    (absent : (cleanExpiredValues mc now).kv p.key = none) :
    p ∈ mc.priorityQueue ∧ mc.kv p.key = none ∧ now < p.expireAt := by
  rw [clean_queue, Finset.mem_filter] at mem
  have ahead : now < p.expireAt := by simpa [MemoryCache.due] using mem.2
  refine ⟨mem.1, ?_, ahead⟩
  cases stored : mc.kv p.key with
  | none => rfl
  | some e =>
    have expiry := agrees p mem.1 e stored
    have alive : live mc.kv now p.key = some e := live_some_iff.mpr ⟨stored, by omega⟩
    have still := (live_some_iff.mp ((clean_keeps_live agrees now p.key).trans alive)).1
    exact absurd (still.symm.trans absent) (by simp)

/-- Where the stale keys of a state come from: they were stale before, or the
    event is a `set` on an expired entry, which spawns a cleaning. -/
theorem effect_stale {mc : MemoryCacher} {now : Nat} {call : Call} {p : PriorityKey}
    (agrees : QueueAgrees mc) (mem : p ∈ (effect mc now call).priorityQueue)
    (absent : (effect mc now call).kv p.key = none) :
    (p ∈ mc.priorityQueue ∧ mc.kv p.key = none ∧ (call = .clean → now < p.expireAt)) ∨
      (p.expireAt ≤ now ∧ spawns mc now call = true) := by
  cases call with
  | obtain key ttl reply =>
    obtain ⟨queued, gone⟩ := obtain_stale mem absent
    exact Or.inl ⟨queued, gone, by simp⟩
  | poll key reply =>
    simp only [effect, pollTurn_cacher] at mem absent
    exact Or.inl ⟨mem, absent, by simp⟩
  | set key val ttl reply =>
    rcases set_stale agrees mem absent with ⟨queued, gone⟩ | spawned
    · exact Or.inl ⟨queued, gone, by simp⟩
    · exact Or.inr spawned
  | del key =>
    obtain ⟨queued, gone⟩ := del_stale agrees mem absent
    exact Or.inl ⟨queued, gone, by simp⟩
  | clean =>
    obtain ⟨queued, gone, ahead⟩ := clean_stale agrees mem absent
    exact Or.inl ⟨queued, gone, fun _ => ahead⟩

theorem step_stale_due {s t : System} {e : Event} (agrees : QueueAgrees s.cacher)
    (stale : StaleDue s) (moved : step s e = some t) : StaleDue t := by
  unfold step at moved
  split at moved
  · rename_i guard
    cases moved
    intro p mem absent
    dsimp only at mem absent ⊢
    rcases effect_stale agrees mem absent with ⟨before, gone, later⟩ | ⟨late, spawned⟩
    · obtain ⟨past, waiting⟩ := stale p before gone
      have notClean : e.call ≠ .clean := fun same => by
        have := later same
        omega
      exact ⟨by omega, by simp only [running, notClean, ↓reduceIte]; omega⟩
    · exact ⟨late, by simp [spawned]⟩
  · exact absurd moved (by simp)

theorem run_stale_due {s : System} {evs : List Event}
    (fresh : Along step FreshKey System.start evs)
    (accepted : run step System.start evs = some s) : QueueAgrees s.cacher ∧ StaleDue s := by
  refine run_keeps (I := fun s => QueueAgrees s.cacher ∧ StaleDue s) ?_ ?_ fresh accepted
  · intro a e b inv ok moved
    exact ⟨step_agrees inv.1 ok moved, step_stale_due inv.1 inv.2 moved⟩
  · exact ⟨queue_agrees_default, by simp [StaleDue, System.start, MemoryCacher.default]⟩

def retry (now : Nat) (key : String) (ttl : Nat) (reply : Except String Bool) : List Event :=
  [⟨now, .obtain key ttl (.ok true)⟩, ⟨now, .clean⟩, ⟨now, .obtain key ttl reply⟩]

theorem stale_retry_accepted {s : System} {k : String} {now ttl : Nat} {p : PriorityKey}
    (forward : s.clock ≤ now) (stale : StaleDue s)
    (vacant : s.cacher.kv k = none) (queued : p ∈ s.cacher.priorityQueue) (named : p.key = k) :
    ∃ t, run step s (retry now k ttl (.ok true)) = some t := by
  obtain ⟨past, waiting⟩ := stale p queued (by rw [named]; exact vacant)
  let mc₁ : MemoryCacher :=
    ⟨insert ⟨now + ttl, k⟩ s.cacher.priorityQueue, put s.cacher.kv k (now + ttl) []⟩
  have first : step s ⟨now, .obtain k ttl (.ok true)⟩ = some ⟨mc₁, now, s.cleaners⟩ := by
    simp [step, forward, answers, effect, spawns, running, MemoryCache.obtain, vacant, mc₁]
  let mc₂ := cleanExpiredValues mc₁ now
  have second : step ⟨mc₁, now, s.cleaners⟩ ⟨now, .clean⟩ =
      some ⟨mc₂, now, s.cleaners - 1⟩ := by
    simp [step, answers, effect, spawns, running, waiting, mc₂]
  have dropped : mc₂.kv k = none := by
    rw [clean_kv, if_pos ⟨p, Finset.mem_insert_of_mem queued, by omega, named⟩]
  have third : ∃ t, step ⟨mc₂, now, s.cleaners - 1⟩ ⟨now, .obtain k ttl (.ok true)⟩ = some t := by
    simp [step, answers, MemoryCache.obtain, dropped]
  obtain ⟨t, again⟩ := third
  exact ⟨t, by simp [retry, run, first, second, again]⟩

theorem retry_one_ttl {ttl : Nat} {evs : List Event} (fixed : OneTtl ttl evs) (now : Nat)
    (key : String) (reply : Except String Bool) : OneTtl ttl (evs ++ retry now key ttl reply) := by
  intro e mem
  rcases List.mem_append.mp mem with mem | mem
  · exact fixed e mem
  · simp only [retry, List.mem_cons, List.not_mem_nil, or_false] at mem
    rcases mem with same | same | same <;> subst same <;> simp [ttlIs]

theorem retry_fresh {s t : System} {k : String} {now ttl : Nat} {reply : Except String Bool}
    (agrees : QueueAgrees s.cacher) (pos : 0 < ttl) (noKey : NoStaleKey s.cacher k)
    (moved : run step s (retry now k ttl reply) = some t) :
    Along step FreshKey s (retry now k ttl reply) := by
  obtain ⟨a, first, rest⟩ := run_cons_iff.mp moved
  obtain ⟨b, second, _⟩ := run_cons_iff.mp rest
  have agreesA := step_agrees (e := ⟨now, .obtain k ttl (.ok true)⟩) agrees noKey first
  have cleaned : b.cacher = cleanExpiredValues a.cacher now := (step_some second).2.2.1
  have kept : b.cacher.kv k = some (now + ttl, []) := by
    have alive : live a.cacher.kv now k = some (now + ttl, []) :=
      live_some_iff.mpr ⟨obtained_entry first, by simp only; omega⟩
    rw [cleaned]
    exact (live_some_iff.mp ((clean_keeps_live agreesA now k).trans alive)).1
  refine ⟨noKey, fun a' ha => ?_⟩
  have sameA : a' = a := Option.some.inj (ha.symm.trans first)
  subst sameA
  refine ⟨trivial, fun b' hb => ?_⟩
  have sameB : b' = b := Option.some.inj (hb.symm.trans second)
  subst sameB
  refine ⟨?_, fun _ _ => trivial⟩
  intro gone
  exact absurd (kept.symm.trans gone) (by simp)

/-- The condition is exact: from any state a good run reaches, obtaining a vacant
    key is safe against the cleaning runs due at that moment exactly when no key is
    queued for it. -/
theorem reobtain_safe_iff {ttl now : Nat} {evs : List Event} {s : System} {k : String}
    (pos : 0 < ttl) (accepted : run step System.start evs = some s) (fixed : OneTtl ttl evs)
    (fresh : Along step FreshKey System.start evs) (forward : s.clock ≤ now)
    (vacant : s.cacher.kv k = none) :
    NoStaleKey s.cacher k ↔
      ∀ reply t, run step s (retry now k ttl reply) = some t →
        LeaseIntegrity ttl (evs ++ retry now k ttl reply) := by
  obtain ⟨agrees, stale⟩ := run_stale_due fresh accepted
  constructor
  · intro noKey reply t moved
    have whole := run_append_iff.mpr ⟨s, accepted, moved⟩
    have oneTtl := retry_one_ttl fixed now k reply
    have freshAll := along_join fresh accepted (retry_fresh agrees pos noKey moved)
    exact ⟨lease_exclusive whole oneTtl freshAll, lease_readable whole oneTtl freshAll⟩
  · intro safe _ p queued named
    obtain ⟨t, broken⟩ := stale_retry_accepted forward stale vacant queued named
    have late := (safe _ t broken).1 evs [⟨now, .clean⟩] [] k now now rfl (by simp)
    omega

end MemoryLease
