import IdempotentProxy.Server.ProxyHandler

/-!
Whose entry a `set` or `del` touches. Neither names its holder, so what protects an
entry is time alone: while every `set` and `del` takes effect within the ttl of its own
`obtain`, the entry it finds under its key is the one that `obtain` stored.
-/
namespace Ownership
open ExpiringStore EventRuns HybridCache CachedResponse ProxyHandler
open RedisCache (Fault)

variable {libs : Libraries} (settings : Settings) (requests : Nat → Request)

def key (i : Nat) : String := (requests i).idempotencyKey

/-- A `set` or `del` changes the cache only where its own `obtain` stored the entry. -/
def TouchesOwnEntry (s : System libs) (e : Event) (t : System libs) : Prop :=
  match e.action with
  | .set i _ | .del i _ => view t.cacher ≠ view s.cacher →
      (view s.cacher (key requests i)).isSome = true ∧ s.creator (key requests i) = some i
  | _ => True

def SameResponse (s : System libs) : Prop :=
  ∀ i j c v w, s.served i = some (c, v) → s.served j = some (c, w) →
    v = w ∧ s.stages i = s.stages j

/-- A `set` or `del` is executed before the ttl of its own `obtain` is over; one that was
    issued in time and waited for the lock or for Redis may not be. -/
def WithinLease (s : System libs) (e : Event) : Prop :=
  match e.action with
  | .set i _ | .del i _ => e.now < s.since i + settings.cacheTtl
  | _ => True

instance (s : System libs) : ∀ e : Event, Decidable (WithinLease settings s e)
  | ⟨now, .set i _⟩ | ⟨now, .del i _⟩ =>
      inferInstanceAs (Decidable (now < s.since i + settings.cacheTtl))
  | ⟨_, .readBody _ _⟩ | ⟨_, .execute _ _⟩ | ⟨_, .receive _ _⟩ | ⟨_, .obtain _ _⟩ | ⟨_, .poll _ _⟩
  | ⟨_, .pollTimeout _⟩ | ⟨_, .clean⟩ => isTrue trivial

/-- Up to `now`, a holder whose lease still runs has its placeholder under its key;
    what else is stored was given to `set` by the request whose lease it is. -/
structure Leased (now : Nat) (s : System libs) : Prop where
  sound : Sound s.cacher
  lease : ∀ i, (s.stages i).holding = true → now < s.since i + settings.cacheTtl →
    view s.cacher (key requests i) = some (s.since i + settings.cacheTtl, placeholder s.cacher) ∧
      s.creator (key requests i) = some i
  filled : ∀ k e v, view s.cacher k = some (e, v) →
    v = placeholder s.cacher ∨ ∃ c, s.creator k = some c ∧ s.wrote c = some v

/-- A request gives one value to `set`, with its last step, and a client is served
    such a value. -/
structure Recorded (s : System libs) : Prop where
  once : ∀ i v, s.wrote i = some v → (s.stages i).isReturned = true
  served : ∀ i c v, s.served i = some (c, v) →
    s.wrote c = some v ∧ s.stages i = .returned (replay libs v)

section
variable {settings} {requests} {now : Nat} {s t : System libs} {i : Nat} {stage : Stage libs}

theorem same_response (rec : Recorded s) : SameResponse s := by
  intro i j c v w first second
  obtain ⟨wroteV, stageI⟩ := rec.served i c v first
  obtain ⟨wroteW, stageJ⟩ := rec.served j c w second
  have same : v = w := Option.some.inj (wroteV.symm.trans wroteW)
  exact ⟨same, by rw [stageI, stageJ, same]⟩

theorem not_written (once : ∀ j v, s.wrote j = some v → (s.stages j).isReturned = true)
    (busy : (s.stages i).isReturned = false) : s.wrote i = none := by
  cases found : s.wrote i with
  | none => rfl
  | some v =>
    rw [once i v found] at busy
    cases busy

theorem written_kept (once : ∀ j v, s.wrote j = some v → (s.stages j).isReturned = true)
    (busy : (s.stages i).isReturned = false)
    (others : ∀ j, j ≠ i → t.wrote j = s.wrote j) {c : Nat} {v : Bytes}
    (wrote : s.wrote c = some v) : t.wrote c = some v := by
  have other : c ≠ i := by
    intro same
    rw [same, not_written once busy] at wrote
    cases wrote
  exact (others c other).trans wrote

theorem recorded_moved (rec : Recorded s) (busy : (s.stages i).isReturned = false)
    (stages : t.stages = Function.update s.stages i stage)
    (wrote : ∀ j, j ≠ i → t.wrote j = s.wrote j)
    (last : ∀ v, t.wrote i = some v → stage.isReturned = true)
    (served : ∀ j, j ≠ i → t.served j = s.served j)
    (own : ∀ c v, t.served i = some (c, v) →
      s.wrote c = some v ∧ stage = .returned (replay libs v)) : Recorded t := by
  apply Recorded.mk
  · intro j v found
    rw [stages]
    by_cases same : j = i
    · subst same
      rw [Function.update_self]
      exact last v found
    · rw [Function.update_of_ne same]
      exact rec.once j v ((wrote j same).symm.trans found)
  · intro j c v found
    rw [stages]
    by_cases same : j = i
    · subst same
      obtain ⟨given, replied⟩ := own c v found
      rw [Function.update_self]
      exact ⟨written_kept rec.once busy wrote given, replied⟩
    · obtain ⟨given, replied⟩ := rec.served j c v ((served j same).symm.trans found)
      rw [Function.update_of_ne same]
      exact ⟨written_kept rec.once busy wrote given, replied⟩

theorem busy_of_holding (holds : (s.stages i).holding = true) :
    (s.stages i).isReturned = false := by
  cases at_i : s.stages i with
  | returned reply => rw [at_i] at holds; cases holds
  | _ => rfl

theorem leased_later {later : Nat} (inv : Leased settings requests now s) (order : now ≤ later) :
    Leased settings requests later s :=
  ⟨inv.sound, fun i holds early => inv.lease i holds (by omega), inv.filled⟩

theorem leased_moved (inv : Leased settings requests now s)
    (holds : stage.holding = true → (s.stages i).holding = true) :
    Leased settings requests now (s.move i stage) := by
  refine ⟨inv.sound, ?_, inv.filled⟩
  intro j held early
  by_cases same : j = i
  · subst same
    simp only [System.move, Function.update_self] at held
    exact inv.lease j (holds held) early
  · simp only [System.move, Function.update_of_ne same] at held
    exact inv.lease j held early

/-- The last step of a holder within its lease: no other holder has a running lease
    on the key, so what it does there is its own affair. -/
theorem leased_finished (inv : Leased settings requests now s) (rec : Recorded s)
    (holds : (s.stages i).holding = true) (early : now < s.since i + settings.cacheTtl)
    (stages : t.stages = Function.update s.stages i stage) (idle : stage.holding = false)
    (creator : t.creator = s.creator) (since : t.since = s.since)
    (wrote : ∀ j, j ≠ i → t.wrote j = s.wrote j) (sound : Sound t.cacher)
    (back : placeholder t.cacher = placeholder s.cacher)
    (others : ∀ k, k ≠ key requests i → view t.cacher k = view s.cacher k)
    (here : ∀ e v, view t.cacher (key requests i) = some (e, v) →
      v = placeholder s.cacher ∨ t.wrote i = some v) : Leased settings requests now t := by
  have owner := (inv.lease i holds early).2
  have busy := busy_of_holding holds
  refine ⟨sound, ?_, ?_⟩
  · intro j held running
    rw [stages] at held
    rw [since] at running ⊢
    rw [creator, back]
    by_cases same : j = i
    · subst same
      rw [Function.update_self, idle] at held
      cases held
    · rw [Function.update_of_ne same] at held
      obtain ⟨entry, own⟩ := inv.lease j held running
      have other : key requests j ≠ key requests i := by
        intro shared
        rw [shared, owner] at own
        exact same (Option.some.inj own).symm
      exact ⟨(others _ other).trans entry, own⟩
  · intro k e v found
    rw [back, creator]
    by_cases same : k = key requests i
    · subst same
      rcases here e v found with initial | given
      · exact Or.inl initial
      · exact Or.inr ⟨i, owner, given⟩
    · rw [others k same] at found
      rcases inv.filled k e v found with initial | ⟨c, whose, given⟩
      · exact Or.inl initial
      · exact Or.inr ⟨c, whose, written_kept rec.once busy wrote given⟩

theorem leased_same_view (inv : Leased settings requests now s) {c : CacherEntry} (sound : Sound c)
    (same : view c = view s.cacher) (back : placeholder c = placeholder s.cacher) :
    Leased settings requests now { s with cacher := c } := by
  refine ⟨sound, ?_, ?_⟩
  · simp only [same, back]
    exact inv.lease
  · simp only [same, back]
    exact inv.filled

theorem leased_taken (inv : Leased settings requests now s) {c : CacherEntry} (sound : Sound c)
    (back : placeholder c = placeholder s.cacher)
    (free : live (view s.cacher) now (key requests i) = none)
    (stored : view c = put (view s.cacher) (key requests i) (now + settings.cacheTtl)
      (placeholder s.cacher))
    (cacher : t.cacher = c) (stages : t.stages = Function.update s.stages i stage)
    (creator : t.creator = Function.update s.creator (key requests i) (some i))
    (wrote : t.wrote = s.wrote) (since : ∀ j, j ≠ i → t.since j = s.since j)
    (taken : stage.holding = true → t.since i = now) : Leased settings requests now t := by
  subst cacher
  refine ⟨sound, ?_, ?_⟩
  · intro j held running
    rw [stages] at held
    rw [stored, creator, back]
    by_cases same : j = i
    · subst same
      rw [Function.update_self] at held
      rw [taken held, Function.update_self, put_same]
      exact ⟨rfl, rfl⟩
    · rw [Function.update_of_ne same] at held
      rw [since j same] at running ⊢
      obtain ⟨entry, own⟩ := inv.lease j held running
      have other : key requests j ≠ key requests i := by
        intro shared
        rw [shared] at entry
        have alive := live_some_iff.mpr ⟨entry, running⟩
        rw [free] at alive
        cases alive
      rw [put_other _ _ other, Function.update_of_ne other]
      exact ⟨entry, own⟩
  · intro k e v found
    rw [stored] at found
    rw [back, creator, wrote]
    by_cases same : k = key requests i
    · subst same
      rw [put_same] at found
      cases found
      exact Or.inl rfl
    · rw [put_other _ _ same] at found
      rw [Function.update_of_ne same]
      exact inv.filled k e v found

theorem recorded_still (rec : Recorded s) (busy : (s.stages i).isReturned = false)
    (stages : t.stages = Function.update s.stages i stage) (wrote : t.wrote = s.wrote)
    (served : t.served = s.served) : Recorded t := by
  apply recorded_moved rec busy stages
  · intro j _
    rw [wrote]
  · intro v found
    rw [wrote, not_written rec.once busy] at found
    cases found
  · intro j _
    rw [served]
  · intro c v found
    rw [served] at found
    rw [(rec.served i c v found).2] at busy
    cases busy

theorem obtain_recorded (rec : Recorded s) (here : s.stages i = .arrived) (fault : Fault) :
    Recorded (stepObtain settings requests s i now fault) := by
  have busy : (s.stages i).isReturned = false := by rw [here]; rfl
  obtain ⟨stage, _, stages⟩ := obtain_stages settings requests s i now fault
  obtain ⟨wrote, served⟩ := obtain_records settings requests s i now fault
  exact recorded_still rec busy stages wrote served

theorem obtain_leased (inv : Leased settings requests now s) (fault : Fault) :
    Leased settings requests now (stepObtain settings requests s i now fault) := by
  have bound := settings.ttl_bound
  have sound := obtain_sound inv.sound (key requests i) settings.cacheTtl now fault
  have back := placeholder_obtain s.cacher (key requests i) settings.cacheTtl now fault
  unfold stepObtain
  dsimp only
  rcases obtain_cases s.cacher (key requests i) settings.cacheTtl now fault (by omega) with
    ⟨same, refused⟩ | ⟨free, stored, differs, granted⟩
  · have kept := leased_same_view inv sound same back
    have still : view (obtain s.cacher (requests i).idempotencyKey settings.cacheTtl now fault).1
        (requests i).idempotencyKey = view s.cacher (requests i).idempotencyKey := congrFun same _
    rw [if_pos still]
    split
    · exact leased_moved kept (by simp [Stage.holding])
    · exact leased_moved kept (by simp [Stage.holding])
    · rename_i taken
      exact absurd taken refused
  · have differs' : ¬ view (obtain s.cacher (requests i).idempotencyKey settings.cacheTtl now
        fault).1 (requests i).idempotencyKey = view s.cacher (requests i).idempotencyKey := differs
    rw [if_neg differs']
    split
    · exact leased_taken inv sound back free stored rfl rfl rfl rfl (fun _ _ => rfl)
        (by simp [Stage.holding])
    · rename_i taken
      exact absurd taken granted
    · exact leased_taken inv sound back free stored rfl rfl rfl rfl
        (fun j other => Function.update_of_ne other _ _) (fun _ => Function.update_self _ _ _)

theorem poll_leased (inv : Leased settings requests now s) (counter : Nat) (fault : Fault) :
    Leased settings requests now (stepPoll requests s i counter now fault) := by
  unfold stepPoll
  dsimp only
  split
  · exact leased_moved inv (by simp [Stage.holding])
  · exact leased_moved inv (by simp [Stage.holding])
  · rename_i data _
    have moved : Leased settings requests now (s.move i (.returned (replay libs data))) :=
      leased_moved inv (by simp [Stage.holding])
    exact ⟨moved.sound, moved.lease, moved.filled⟩

theorem poll_recorded (inv : Leased settings requests now s) (rec : Recorded s) {counter : Nat}
    (here : s.stages i = .polling (counter + 1)) (fault : Fault) :
    Recorded (stepPoll requests s i counter now fault) := by
  have busy : (s.stages i).isReturned = false := by rw [here]; rfl
  unfold stepPoll
  dsimp only
  split
  · exact recorded_still rec busy rfl rfl rfl
  · exact recorded_still rec busy rfl rfl rfl
  · rename_i data read
    apply recorded_moved rec busy
    · rfl
    · exact fun _ _ => rfl
    · exact fun _ _ => rfl
    · exact fun j other => Function.update_of_ne other _ _
    · intro c v found
      obtain ⟨⟨expiry, stored⟩, filled⟩ := poll_view _ _ _ _ read
      simp only [Function.update_self] at found
      obtain ⟨whose, owner, same⟩ := Option.map_eq_some_iff.mp found
      cases same
      rcases inv.filled _ _ _ stored with initial | ⟨d, whose, given⟩
      · exact absurd initial filled
      · have one : d = c := Option.some.inj (whose.symm.trans owner)
        rw [← one]
        exact ⟨given, rfl⟩

theorem lease_entry (inv : Leased settings requests now s) (holds : (s.stages i).holding = true)
    (early : now < s.since i + settings.cacheTtl) :
    live (view s.cacher) now (key requests i) =
        some (s.since i + settings.cacheTtl, placeholder s.cacher) ∧
      s.creator (key requests i) = some i := by
  obtain ⟨entry, owner⟩ := inv.lease i holds early
  exact ⟨live_some_iff.mpr ⟨entry, early⟩, owner⟩

theorem set_leased (inv : Leased settings requests now s) (rec : Recorded s)
    (holds : (s.stages i).holding = true) (early : now < s.since i + settings.cacheTtl)
    (rd : ResponseData) (data : Bytes) (fault : Fault) :
    Leased settings requests now (stepSet settings requests s i rd data now fault) := by
  obtain ⟨alive, _⟩ := lease_entry inv holds early
  have sound := set_sound inv.sound alive data settings.cacheTtl fault
  have written := set_view_live s.cacher (key requests i) data settings.cacheTtl now fault alive
  refine leased_finished inv rec holds early rfl rfl rfl rfl
    (fun j other => Function.update_of_ne other _ _) sound (placeholder_set _ _ _ _ _ _) ?_ ?_
  · intro k other
    rcases written with stored | ⟨same, _⟩
    · exact (congrFun stored k).trans (put_other _ _ other)
    · exact congrFun same k
  · intro e v found
    rcases written with stored | ⟨same, _⟩
    · have now_stored := (congrFun stored (key requests i)).symm.trans found
      rw [put_same] at now_stored
      cases now_stored
      exact Or.inr (Function.update_self _ _ _)
    · have before := (congrFun same (key requests i)).symm.trans found
      rw [(live_some_iff.mp alive).1] at before
      cases before
      exact Or.inl rfl

theorem set_recorded (rec : Recorded s) (holds : (s.stages i).holding = true) (rd : ResponseData)
    (data : Bytes) (fault : Fault) :
    Recorded (stepSet settings requests s i rd data now fault) := by
  have busy := busy_of_holding holds
  apply recorded_moved rec busy
  · rfl
  · exact fun j other => Function.update_of_ne other _ _
  · exact fun _ _ => rfl
  · exact fun _ _ => rfl
  · intro c v found
    rw [(rec.served i c v found).2] at busy
    cases busy

theorem del_leased (inv : Leased settings requests now s) (rec : Recorded s)
    (holds : (s.stages i).holding = true) (early : now < s.since i + settings.cacheTtl)
    (status : Nat) (text : String) (fault : Fault) :
    Leased settings requests now (stepDel requests s i status text fault) := by
  obtain ⟨alive, _⟩ := lease_entry inv holds early
  have sound := del_sound inv.sound (key requests i) fault
  have deleted := del_view s.cacher (key requests i) fault
  refine leased_finished inv rec holds early rfl rfl rfl rfl (fun _ _ => rfl) sound
    (placeholder_del _ _ _) ?_ ?_
  · intro k other
    rcases deleted with gone | same
    · exact (congrFun gone k).trans (remove_other other)
    · exact congrFun same k
  · intro e v found
    rcases deleted with gone | same
    · have absent := (congrFun gone (key requests i)).symm.trans found
      rw [remove_same] at absent
      cases absent
    · have before := (congrFun same (key requests i)).symm.trans found
      rw [(live_some_iff.mp alive).1] at before
      cases before
      exact Or.inl rfl

theorem clean_leased (inv : Leased settings requests now s) :
    Leased settings requests now { s with cacher := clean now s.cacher } := by
  refine ⟨clean_sound inv.sound now, ?_, ?_⟩
  · intro j held early
    obtain ⟨alive, owner⟩ := lease_entry inv held early
    rw [← clean_live inv.sound] at alive
    rw [placeholder_clean]
    exact ⟨(live_some_iff.mp alive).1, owner⟩
  · intro k e v found
    rw [placeholder_clean]
    exact inv.filled k e v (clean_view found)

theorem advance_owned (inv : Leased settings requests now s) (rec : Recorded s) {a : Action}
    (moved : (advance (requests i) (s.stages i) a).map (s.move i) = some t) :
    Leased settings requests now t ∧ Recorded t := by
  obtain ⟨next, advanced, same⟩ := Option.map_eq_some_iff.mp moved
  subst same
  obtain ⟨busy, _, holds⟩ := advance_moves advanced
  exact ⟨leased_moved inv holds, recorded_still rec busy rfl rfl rfl⟩

theorem perform_owned {a : Action} (inv : Leased settings requests now s) (rec : Recorded s)
    (early : WithinLease settings s ⟨now, a⟩)
    (performed : ProxyHandler.perform settings requests s now a = some t) :
    Leased settings requests now t ∧ Recorded t := by
  cases a with
  | obtain i fault =>
    obtain ⟨here, same⟩ := perform_obtain performed
    subst same
    exact ⟨obtain_leased inv fault, obtain_recorded rec here fault⟩
  | poll i fault =>
    obtain ⟨counter, here, same⟩ := perform_poll performed
    subst same
    exact ⟨poll_leased inv counter fault, poll_recorded inv rec here fault⟩
  | set i fault =>
    have holds := writer_holding (Or.inl performed)
    obtain ⟨rd, data, _, _, same⟩ := perform_set performed
    subst same
    exact ⟨set_leased inv rec holds early rd data fault, set_recorded rec holds rd data fault⟩
  | del i fault =>
    have holds := writer_holding (Or.inr performed)
    obtain ⟨status, text, _, same⟩ := perform_del performed
    subst same
    exact ⟨del_leased inv rec holds early status text fault,
      recorded_still rec (busy_of_holding holds) rfl rfl rfl⟩
  | clean =>
    cases performed
    exact ⟨clean_leased inv, rec.once, rec.served⟩
  | pollTimeout i => exact advance_owned inv rec performed
  | readBody i read => exact advance_owned inv rec performed
  | execute i answer => exact advance_owned inv rec performed
  | receive i body => exact advance_owned inv rec performed

end

def Owned (s : System libs) : Prop := Leased settings requests s.clock s ∧ Recorded s

theorem step_owned {s t : System libs} {e : Event} (inv : Owned settings requests s)
    (early : WithinLease settings s e) (moved : step settings requests s e = some t) :
    Owned settings requests t := by
  obtain ⟨order, u, performed, same⟩ := step_performed moved
  subst same
  obtain ⟨leased, recorded⟩ := perform_owned (leased_later inv.1 order) inv.2 early performed
  exact ⟨⟨leased.sound, leased.lease, leased.filled⟩, ⟨recorded.once, recorded.served⟩⟩

theorem step_touches_own {s t : System libs} {e : Event} (inv : Owned settings requests s)
    (early : WithinLease settings s e) (moved : step settings requests s e = some t) :
    TouchesOwnEntry requests s e t := by
  obtain ⟨order, u, performed, _⟩ := step_performed moved
  have finds : ∀ i, (s.stages i).holding = true → e.now < s.since i + settings.cacheTtl →
      (view s.cacher (key requests i)).isSome = true ∧ s.creator (key requests i) = some i := by
    intro i holds running
    obtain ⟨entry, owner⟩ := inv.1.lease i holds (by omega)
    exact ⟨by rw [entry]; rfl, owner⟩
  obtain ⟨now, action⟩ := e
  cases action with
  | set i fault => exact fun _ => finds i (writer_holding (Or.inl performed)) early
  | del i fault => exact fun _ => finds i (writer_holding (Or.inr performed)) early
  | _ => trivial

theorem start_owned (backend : Backend) : Owned settings requests (System.start libs backend) := by
  constructor
  · refine ⟨start_sound backend, ?_, ?_⟩
    · intro i held
      cases held
    · intro k e v found
      cases backend with
      | memory => cases found
      | redis => cases found
  · constructor
    · intro i v wrote
      cases wrote
    · intro i c v served
      cases served

theorem entries_owned_within_lease (backend : Backend) {evs : List Event}
    (early : Along (step settings requests) (WithinLease settings) (System.start libs backend) evs) :
    EveryStep (step settings requests) (TouchesOwnEntry requests)
        (System.start libs backend) evs ∧
      Throughout (step settings requests) SameResponse (System.start libs backend) evs := by
  have start : Owned settings requests (System.start libs backend) :=
    start_owned settings requests backend
  constructor
  · exact every_step_of_along
      (fun _ _ _ inv good moved => step_owned settings requests inv good moved)
      (fun _ _ _ inv good moved => step_touches_own settings requests inv good moved) start early
  · intro pre post s split reached
    have owned := throughout_of_along
      (fun _ _ _ inv good moved => step_owned settings requests inv good moved) start early
      pre post s split reached
    exact same_response owned.2

def timelyRun : List Event :=
  [⟨0, .obtain 0 .none⟩, ⟨1, .readBody 0 (.ok ())⟩, ⟨2, .obtain 1 .none⟩, ⟨2, .poll 1 .none⟩,
    ⟨9000, .execute 0 (.ok (503, []))⟩, ⟨9001, .receive 0 (.ok [])⟩, ⟨9999, .del 0 .none⟩,
    ⟨9999, .clean⟩]

theorem timely_run_owned :
    EveryStep (step defaults postRequest) (TouchesOwnEntry postRequest)
        (System.start unusedLibraries .memory) timelyRun ∧
      Throughout (step defaults postRequest) SameResponse (System.start unusedLibraries .memory)
        timelyRun :=
  entries_owned_within_lease defaults postRequest .memory (by decide)

/-- Request 0's lease has run out and request 1 holds the key. -/
def overdueRun : List Event :=
  [⟨0, .obtain 0 .none⟩, ⟨1, .readBody 0 (.ok ())⟩, ⟨2, .execute 0 (.ok (503, []))⟩,
    ⟨10000, .obtain 1 .none⟩, ⟨10001, .receive 0 (.ok [])⟩]

theorem overdue_del_drops_later_lease :
    ¬ ∀ (libs : Libraries) (settings : Settings) (requests : Nat → Request) (backend : Backend)
      (evs : List Event),
      EveryStep (step settings requests) (TouchesOwnEntry requests) (System.start libs backend)
          evs ∧
        Throughout (step settings requests) SameResponse (System.start libs backend) evs := by
  intro claim
  have seen : (run (step defaults postRequest) (System.start unusedLibraries .memory)
      overdueRun).map (fun s => (s.creator "ANON:POST:k1",
        (step defaults postRequest s ⟨10001, .del 0 .none⟩).map fun t =>
          decide (view t.cacher "ANON:POST:k1" = view s.cacher "ANON:POST:k1"))) =
      some (some 1, some false) := by decide
  obtain ⟨s, reached, facts⟩ := Option.map_eq_some_iff.mp seen
  obtain ⟨creator, after⟩ := Prod.mk.inj facts
  obtain ⟨t, moved, changed⟩ := Option.map_eq_some_iff.mp after
  have own := (claim unusedLibraries defaults postRequest .memory
    (overdueRun ++ [⟨10001, .del 0 .none⟩])).1 overdueRun ⟨10001, .del 0 .none⟩ [] s t rfl
    reached moved
  have mine := (own fun same => of_decide_eq_false changed (congrFun same _)).2
  exact absurd (creator.symm.trans mine) (by decide)

end Ownership
