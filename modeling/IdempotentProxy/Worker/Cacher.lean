import IdempotentProxy.Foundations.EventRuns

/-!
The Durable Object `Cacher` of the Cloudflare worker. `storage` outlives the
instance; `status` and `ttl` are fields of the live instance and are set by the
constructor. Each method body is one event: the runtime delivers no other call to
the object while a storage operation is pending. A fired alarm is taken off the
schedule before its handler runs.
-/
namespace WorkerCacher
open EventRuns

abbrev Bytes := List UInt8

structure Promise (α : Type) where
  resolved : α

/-- `p == null` on a promise object: false whatever the promise resolves to. -/
def Promise.isNull {α : Type} (_ : Promise α) : Bool := false

structure Storage where
  s : Option Nat
  v : Option Bytes
  alarm : Option Nat
  deriving DecidableEq

def Storage.empty : Storage := ⟨none, none, none⟩

def Storage.getAlarm (st : Storage) : Promise (Option Nat) := ⟨st.alarm⟩
def Storage.setAlarm (st : Storage) (time : Nat) : Storage := { st with alarm := some time }
def Storage.deleteAlarm (st : Storage) : Storage := { st with alarm := none }
def Storage.deleteAll (st : Storage) : Storage := { st with s := none, v := none }

structure Cacher where
  ttl : Nat
  status : Nat
  storage : Storage
  deriving DecidableEq

/-- The constructor, on an environment whose REQUEST_TIMEOUT is absent or a number. -/
def construct (requestTimeout : Option Nat) (now : Nat) (storage : Storage) : Cacher :=
  let ttl := match requestTimeout with
    | some t => if t = 0 then 10 * 1000 else t
    | none => 10 * 1000
  let status := storage.s.getD 0
  if storage.getAlarm.isNull then ⟨ttl, status, storage.setAlarm (now + ttl)⟩
  else ⟨ttl, status, storage⟩

def obtain (c : Cacher) : Cacher × Bool :=
  if c.status = 0 then ({ c with status := 1, storage := { c.storage with s := some 1 } }, true)
  else (c, false)

def get (c : Cacher) : Except String (Option Bytes) :=
  if c.status = 0 then .error "not obtained"
  else if c.status ≠ 2 then .ok none
  else .ok c.storage.v

def set (c : Cacher) (value : Bytes) (now : Nat) : Cacher :=
  let storage := c.storage.setAlarm (now + c.ttl)
  { c with status := 2, storage := { storage with s := some 2, v := some value } }

def del (c : Cacher) : Cacher :=
  { c with status := 0, storage := c.storage.deleteAlarm.deleteAll }

def alarm (c : Cacher) : Cacher := del c

inductive Event where
  | obtain
  | get
  | set (value : Bytes) (now : Nat)
  | del
  | alarm (now : Nat)
  | evict (now : Nat)
  deriving DecidableEq

/-- An eviction drops the instance; the next call constructs it from storage. -/
def step (requestTimeout : Option Nat) (c : Cacher) : Event → Option Cacher
  | .obtain => some (obtain c).1
  | .get => some c
  | .set value now => some (set c value now)
  | .del => some (del c)
  | .alarm now =>
      match c.storage.alarm with
      | some time => if time ≤ now then some (alarm { c with storage := c.storage.deleteAlarm })
          else none
      | none => none
  | .evict now => some (construct requestTimeout now c.storage)

def Expires (c : Cacher) : Prop :=
  c.storage.s = some 1 ∨ c.storage.s = some 2 → c.storage.alarm.isSome = true

instance (c : Cacher) : Decidable (Expires c) :=
  inferInstanceAs (Decidable (_ → _))

def TakesNoLease (c : Cacher) : Event → Prop
  | .obtain => c.status ≠ 0
  | _ => True

instance (c : Cacher) (e : Event) : Decidable (TakesNoLease c e) := by
  cases e <;> simp only [TakesNoLease] <;> infer_instance

inductive Stored : Storage → Prop where
  | free (v : Option Bytes) : Stored ⟨none, v, none⟩
  | leased (v : Option Bytes) : Stored ⟨some 1, v, none⟩
  | filled (v : Option Bytes) (time : Nat) : Stored ⟨some 2, v, some time⟩

/-- The live status mirrors the stored one, and an alarm is scheduled exactly when
    a response is stored. -/
structure Mirrors (c : Cacher) : Prop where
  status : c.status = c.storage.s.getD 0
  stored : Stored c.storage

theorem construct_storage (requestTimeout : Option Nat) (now : Nat) (storage : Storage) :
    (construct requestTimeout now storage).storage = storage ∧
      (construct requestTimeout now storage).status = storage.s.getD 0 := ⟨rfl, rfl⟩

theorem construct_mirrors (requestTimeout : Option Nat) (now : Nat) {storage : Storage}
    (stored : Stored storage) : Mirrors (construct requestTimeout now storage) :=
  ⟨rfl, stored⟩

theorem del_mirrors (c : Cacher) : Mirrors (del c) := ⟨rfl, .free none⟩

theorem obtain_taken {c : Cacher} (taken : c.status ≠ 0) : obtain c = (c, false) := by
  simp [obtain, taken]

theorem step_mirrors {requestTimeout : Option Nat} {c d : Cacher} {e : Event} (inv : Mirrors c)
    (moved : step requestTimeout c e = some d) : Mirrors d := by
  cases e with
  | obtain =>
    cases moved
    by_cases free : c.status = 0
    · obtain ⟨ttl, status, storage⟩ := c
      obtain ⟨mirrored, stored⟩ := inv
      dsimp only at mirrored stored free
      subst free
      cases stored with
      | free v => exact ⟨rfl, .leased v⟩
      | leased v => cases mirrored
      | filled v time => cases mirrored
    · rw [obtain_taken free]
      exact inv
  | get =>
    cases moved
    exact inv
  | set value now =>
    cases moved
    exact ⟨rfl, .filled _ _⟩
  | del =>
    cases moved
    exact del_mirrors c
  | alarm now =>
    simp only [step] at moved
    split at moved
    · split at moved
      · cases moved
        exact del_mirrors _
      · cases moved
    · cases moved
  | evict now =>
    cases moved
    exact construct_mirrors requestTimeout now inv.stored

theorem expires_iff_not_leased {c : Cacher} (inv : Mirrors c) :
    Expires c ↔ c.storage.s ≠ some 1 := by
  obtain ⟨ttl, status, storage⟩ := c
  obtain ⟨_, stored⟩ := inv
  dsimp only at stored
  cases stored <;> simp [Expires]

theorem step_expires_iff {requestTimeout : Option Nat} {c d : Cacher} {e : Event}
    (inv : Mirrors c) (before : Expires c) (moved : step requestTimeout c e = some d) :
    Expires d ↔ TakesNoLease c e := by
  rw [expires_iff_not_leased (step_mirrors inv moved)]
  rw [expires_iff_not_leased inv] at before
  cases e with
  | obtain =>
    cases moved
    by_cases free : c.status = 0
    · simp [obtain, free, TakesNoLease]
    · simp [obtain_taken free, free, before, TakesNoLease]
  | get =>
    cases moved
    exact iff_of_true before trivial
  | set value now =>
    cases moved
    exact iff_of_true (by simp [set, Storage.setAlarm]) trivial
  | del =>
    cases moved
    exact iff_of_true (by simp [del, Storage.deleteAlarm, Storage.deleteAll]) trivial
  | alarm now =>
    simp only [step] at moved
    split at moved
    · split at moved
      · cases moved
        exact iff_of_true (by simp [alarm, del, Storage.deleteAlarm, Storage.deleteAll]) trivial
      · cases moved
    · cases moved
  | evict now =>
    cases moved
    exact iff_of_true before trivial

theorem expires_iff_never_leased (requestTimeout : Option Nat) (born : Nat) {evs : List Event}
    {c : Cacher}
    (accepted : run (step requestTimeout) (construct requestTimeout born .empty) evs = some c) :
    Throughout (step requestTimeout) Expires (construct requestTimeout born .empty) evs ↔
      Along (step requestTimeout) TakesNoLease (construct requestTimeout born .empty) evs :=
  throughout_iff_along (I := Mirrors) (fun _ _ _ inv moved => step_mirrors inv moved)
    (fun _ _ _ inv before moved => step_expires_iff inv before moved)
    (construct_mirrors requestTimeout born (.free none))
    ((expires_iff_not_leased (construct_mirrors requestTimeout born (.free none))).mpr
      (by simp [construct_storage])) accepted

def servedRun : List Event :=
  [.get, .set [1, 2] 50, .obtain, .evict 60, .get, .alarm 20050]

theorem served_run_expires :
    Throughout (step (some 20000)) Expires (construct (some 20000) 0 .empty) servedRun := by
  have accepted : (run (step (some 20000)) (construct (some 20000) 0 .empty)
      servedRun).isSome = true := by decide
  exact (expires_iff_never_leased (some 20000) 0 (Option.some_get accepted).symm).mpr (by decide)

/-- One `obtain` on a fresh object: the lease is stored and no alarm is scheduled. -/
theorem obtained_lease_never_expires :
    ¬ ∀ (requestTimeout : Option Nat) (born : Nat) (evs : List Event) (c : Cacher),
      run (step requestTimeout) (construct requestTimeout born .empty) evs = some c →
      Throughout (step requestTimeout) Expires (construct requestTimeout born .empty) evs := by
  intro claim
  have leased := claim (some 20000) 0 [.obtain] ⟨20000, 1, ⟨some 1, none, none⟩⟩ rfl
    [.obtain] [] ⟨20000, 1, ⟨some 1, none, none⟩⟩ rfl rfl
  revert leased
  decide

end WorkerCacher
