import IdempotentProxy.Server.CacheKeys
import IdempotentProxy.Server.StoredForm
import IdempotentProxy.Server.StuckLease

/-!
Where a successful reply comes from. Whatever the order of the steps, the faults of the
cache and the lateness of holders, a client that is answered `Ok` is given what the
upstream answered, earlier in the same run, to a request with the client's cache key.
-/
namespace Provenance
open CachedResponse EventRuns ExpiringStore HybridCache ProxyHandler
open CacheKeys (Keyed)
open Ownership (busy_of_holding not_written)
open RedisCache (Fault)

variable {libs : Libraries} {requests : Nat → Request} {evs more : List Event} {s t : System libs}
  {i : Nat}

/-- The upstream's answer to `c`, as its handler makes a response of it, is `rd`. -/
def Answered (libs : Libraries) (requests : Nat → Request) (evs : List Event) (c : Nat)
    (rd : ResponseData) : Prop :=
  ∃ status headers body,
    (∃ now, ⟨now, .execute c (.ok (status, headers))⟩ ∈ evs) ∧
    (∃ now, ⟨now, .receive c (.ok body)⟩ ∈ evs) ∧ 200 ≤ status ∧ status ≤ 500 ∧
    ((ResponseData.new status).withHeaders headers (requests c).responseHeaders).withBody libs body
      (requests c).jsonMask = .ok rd

structure History (requests : Nat → Request) (evs : List Event) (s : System libs) : Prop where
  receiving : ∀ i status headers, s.stages i = .receiving status headers →
    ∃ now, ⟨now, .execute i (.ok (status, headers))⟩ ∈ evs
  storing : ∀ i rd data serialised, s.stages i = .storing rd data serialised →
    Answered libs requests evs i rd
  wrote : ∀ i v, s.wrote i = some v →
    ∃ rd, libs.toBytes rd = .ok v ∧ Answered libs requests evs i rd
  replied : ∀ i rd, s.stages i = .returned (.ok rd) → ∃ c v,
    (requests c).idempotencyKey = (requests i).idempotencyKey ∧ s.wrote c = some v ∧
      libs.toBytes rd = .ok v

theorem answered_more {rd : ResponseData} {c : Nat} (built : Answered libs requests evs c rd) :
    Answered libs requests (evs ++ more) c rd := by
  obtain ⟨status, headers, body, ⟨now, executed⟩, ⟨then', received⟩, bounds⟩ := built
  exact ⟨status, headers, body, ⟨now, List.mem_append_left _ executed⟩,
    ⟨then', List.mem_append_left _ received⟩, bounds⟩

theorem history_more (hist : History requests evs s) : History requests (evs ++ more) s := by
  constructor
  · intro i status headers stage
    obtain ⟨now, executed⟩ := hist.receiving i status headers stage
    exact ⟨now, List.mem_append_left _ executed⟩
  · intro i rd data serialised stage
    exact answered_more (hist.storing i rd data serialised stage)
  · intro i v written
    obtain ⟨rd, serialised, built⟩ := hist.wrote i v written
    exact ⟨rd, serialised, answered_more built⟩
  · exact hist.replied

theorem history_moved (hist : History requests evs s) {stage : Stage libs}
    (stages : t.stages = Function.update s.stages i stage) (wrote : t.wrote = s.wrote)
    (receiving : ∀ status headers, stage = .receiving status headers →
      ∃ now, ⟨now, .execute i (.ok (status, headers))⟩ ∈ evs)
    (storing : ∀ rd data serialised, stage = .storing rd data serialised →
      Answered libs requests evs i rd)
    (replied : ∀ rd, stage = .returned (.ok rd) → ∃ c v,
      (requests c).idempotencyKey = (requests i).idempotencyKey ∧ s.wrote c = some v ∧
        libs.toBytes rd = .ok v) : History requests evs t := by
  constructor
  · intro j status headers found
    rw [stages] at found
    by_cases here : j = i
    · subst here
      rw [Function.update_self] at found
      exact receiving status headers found
    · rw [Function.update_of_ne here] at found
      exact hist.receiving j status headers found
  · intro j rd data serialised found
    rw [stages] at found
    by_cases here : j = i
    · subst here
      rw [Function.update_self] at found
      exact storing rd data serialised found
    · rw [Function.update_of_ne here] at found
      exact hist.storing j rd data serialised found
  · rw [wrote]
    exact hist.wrote
  · intro j rd found
    rw [stages] at found
    rw [wrote]
    by_cases here : j = i
    · subst here
      rw [Function.update_self] at found
      exact replied rd found
    · rw [Function.update_of_ne here] at found
      exact hist.replied j rd found

theorem history_silent (hist : History requests evs s) {stage : Stage libs}
    (stages : t.stages = Function.update s.stages i stage) (wrote : t.wrote = s.wrote)
    (silent : (∀ status headers, stage ≠ .receiving status headers) ∧
      (∀ rd data serialised, stage ≠ .storing rd data serialised) ∧
      ∀ rd, stage ≠ .returned (.ok rd)) : History requests evs t :=
  history_moved hist stages wrote
    (fun status headers same => absurd same (silent.1 status headers))
    (fun rd data serialised same => absurd same (silent.2.1 rd data serialised))
    (fun rd same => absurd same (silent.2.2 rd))

theorem respond_storing {req : Request} {status : Nat} {headers : Headers} {body : Bytes}
    {rd : ResponseData} {data : Bytes} {serialised : libs.toBytes rd = .ok data}
    (stored : respond req status headers body = .storing rd data serialised) :
    200 ≤ status ∧ status ≤ 500 ∧
      ((ResponseData.new status).withHeaders headers req.responseHeaders).withBody libs body
        req.jsonMask = .ok rd := by
  unfold respond at stored
  split at stored
  · rename_i bounds
    dsimp only at stored
    split at stored
    · cases stored
    · rename_i built
      split at stored
      · cases stored
      · cases stored
        exact ⟨bounds.1, bounds.2, built⟩
  · cases stored

theorem respond_not_receiving {req : Request} {status : Nat} {headers : Headers} {body : Bytes}
    {status' : Nat} {headers' : Headers} :
    (respond req status headers body : Stage libs) ≠ .receiving status' headers' := by
  unfold respond
  split
  · dsimp only
    split
    · simp
    · split
      · simp
      · simp
  · simp

theorem obtain_history {settings : Settings} {now : Nat} (hist : History requests evs s)
    (fault : Fault) : History requests evs (stepObtain settings requests s i now fault) := by
  have wrote := (obtain_records settings requests s i now fault).1
  unfold stepObtain at wrote ⊢
  dsimp only at wrote ⊢
  split
  · exact history_silent hist rfl rfl (by simp [badGateway])
  · exact history_silent hist rfl rfl (by simp)
  · exact history_silent hist rfl rfl (by split <;> simp)

theorem poll_history {now counter : Nat} (hist : History requests evs s) (keyed : Keyed requests s)
    (roundTrip : ∀ rd data, libs.toBytes rd = .ok data → libs.tryFrom data = .ok rd)
    (fault : Fault) : History requests evs (stepPoll requests s i counter now fault) := by
  unfold stepPoll
  dsimp only
  split
  · exact history_silent hist rfl rfl (by simp [badGateway])
  · exact history_silent hist rfl rfl (by simp)
  · rename_i data read
    obtain ⟨⟨expiry, stored⟩, filled⟩ := poll_view _ _ _ _ read
    obtain ⟨c, written, same⟩ := keyed.filled _ (expiry, data) stored filled
    obtain ⟨rd, serialised, _⟩ := hist.wrote c data written
    have replayed : replay libs data = .ok rd := by
      rw [replay, roundTrip rd data serialised]
    refine history_moved hist rfl rfl (fun _ _ same => by cases same) (fun _ _ _ same => by cases same)
      fun rd' replied => ?_
    rw [replayed] at replied
    cases replied
    exact ⟨c, data, same, written, serialised⟩

theorem set_history {settings : Settings} {now : Nat} {rd : ResponseData} {data : Bytes}
    {serialised : libs.toBytes rd = .ok data} (hist : History requests evs s)
    (keyed : Keyed requests s) (here : s.stages i = .storing rd data serialised) (fault : Fault) :
    History requests evs (stepSet settings requests s i rd data now fault) := by
  have busy : (s.stages i).isReturned = false := by
    rw [here]
    rfl
  have fresh : s.wrote i = none := not_written keyed.once busy
  have kept : ∀ c v, s.wrote c = some v →
      (stepSet settings requests s i rd data now fault).wrote c = some v := by
    intro c v written
    have other : c ≠ i := by
      rintro rfl
      rw [fresh] at written
      cases written
    exact (Function.update_of_ne other _ _).trans written
  constructor
  · intro j status headers found
    by_cases same : j = i
    · subst same
      simp [stepSet, System.move] at found
    · simp only [stepSet, System.move, Function.update_of_ne same] at found
      exact hist.receiving j status headers found
  · intro j rd' data' serialised' found
    by_cases same : j = i
    · subst same
      simp [stepSet, System.move] at found
    · simp only [stepSet, System.move, Function.update_of_ne same] at found
      exact hist.storing j rd' data' serialised' found
  · intro j v found
    by_cases same : j = i
    · subst same
      simp only [stepSet, System.move, Function.update_self] at found
      cases found
      exact ⟨rd, serialised, hist.storing j rd data serialised here⟩
    · simp only [stepSet, System.move, Function.update_of_ne same] at found
      exact hist.wrote j v found
  · intro j rd' found
    by_cases same : j = i
    · subst same
      simp only [stepSet, System.move, Function.update_self] at found
      refine ⟨j, data, rfl, Function.update_self _ _ _, ?_⟩
      unfold setReply at found
      split at found
      · cases found
      · cases found
        exact serialised
    · simp only [stepSet, System.move, Function.update_of_ne same] at found
      obtain ⟨c, v, sameKey, written, read⟩ := hist.replied j rd' found
      exact ⟨c, v, sameKey, kept c v written, read⟩

theorem advance_history {a : Action} {now : Nat} {next : Stage libs}
    (hist : History requests evs s) (own : CacheKeys.requestOf a = some i)
    (moved : advance (requests i) (s.stages i) a = some next) :
    History requests (evs ++ [⟨now, a⟩]) (s.move i next) := by
  have longer : History requests (evs ++ [⟨now, a⟩]) s := history_more hist
  unfold advance at moved
  split at moved
  · cases moved
    exact history_silent longer rfl rfl (by simp [badGateway])
  · cases moved
    exact history_silent longer rfl rfl (by simp)
  · cases moved
    exact history_silent longer rfl rfl (by simp)
  · rename_i status headers _
    cases own
    cases moved
    refine history_moved longer rfl rfl (fun status' headers' same => ?_)
      (fun _ _ _ same => by cases same) (fun _ same => by cases same)
    cases same
    exact ⟨now, List.mem_append_right _ List.mem_cons_self⟩
  · cases moved
    exact history_silent longer rfl rfl (by simp [badGateway])
  · rename_i status headers _ body here
    cases own
    cases moved
    refine history_moved longer rfl rfl
      (fun _ _ same => absurd same respond_not_receiving) (fun rd data serialised same => ?_)
      (fun rd same => ?_)
    · obtain ⟨above, below, built⟩ := respond_storing same
      obtain ⟨then', executed⟩ := hist.receiving i status headers here
      exact ⟨status, headers, body, ⟨then', List.mem_append_left _ executed⟩,
        ⟨now, List.mem_append_right _ List.mem_cons_self⟩, above, below, built⟩
    · obtain ⟨why, failed⟩ := StuckLease.respond_returned same
      cases failed
  · cases moved
    exact history_silent longer rfl rfl (by simp [badGateway])
  · cases moved

theorem perform_history {settings : Settings} {now : Nat} {a : Action}
    (hist : History requests evs s) (keyed : Keyed requests s)
    (roundTrip : ∀ rd data, libs.toBytes rd = .ok data → libs.tryFrom data = .ok rd)
    (performed : perform settings requests s now a = some t) :
    History requests (evs ++ [⟨now, a⟩]) t := by
  have advanced : ∀ {j : Nat}, CacheKeys.requestOf a = some j →
      (advance (requests j) (s.stages j) a).map (s.move j) = some t →
      History requests (evs ++ [⟨now, a⟩]) t := by
    intro j own moved
    obtain ⟨next, on, rfl⟩ := Option.map_eq_some_iff.mp moved
    exact advance_history hist own on
  cases a with
  | obtain j fault =>
    obtain ⟨_, rfl⟩ := perform_obtain performed
    exact history_more (obtain_history hist fault)
  | poll j fault =>
    obtain ⟨counter, _, rfl⟩ := perform_poll performed
    exact history_more (poll_history hist keyed roundTrip fault)
  | set j fault =>
    obtain ⟨rd, data, serialised, here, rfl⟩ := perform_set performed
    exact history_more (set_history hist keyed here fault)
  | del j fault =>
    obtain ⟨status, text, _, rfl⟩ := perform_del performed
    exact history_more (history_silent hist rfl rfl (by simp))
  | clean =>
    cases performed
    have longer : History requests (evs ++ [⟨now, .clean⟩]) s := history_more hist
    exact ⟨longer.receiving, longer.storing, longer.wrote, longer.replied⟩
  | pollTimeout j => exact advanced rfl performed
  | readBody j read => exact advanced rfl performed
  | execute j answer => exact advanced rfl performed
  | receive j body => exact advanced rfl performed

def Traced (requests : Nat → Request) (evs : List Event) (s : System libs) : Prop :=
  Keyed requests s ∧ History requests evs s

theorem start_traced (requests : Nat → Request) (libs : Libraries) (backend : Backend) :
    Traced requests [] (System.start libs backend) := by
  refine ⟨CacheKeys.start_keyed requests libs backend, ?_, ?_, ?_, ?_⟩
  · intro i status headers stage
    cases stage
  · intro i rd data serialised stage
    cases stage
  · intro i v written
    cases written
  · intro i rd stage
    cases stage

theorem step_traced {settings : Settings} {e : Event}
    (roundTrip : ∀ rd data, libs.toBytes rd = .ok data → libs.tryFrom data = .ok rd)
    (traced : Traced requests evs s) (moved : step settings requests s e = some t) :
    Traced requests (evs ++ [e]) t := by
  obtain ⟨keyed, hist⟩ := traced
  refine ⟨CacheKeys.step_keyed keyed moved, ?_⟩
  obtain ⟨_, u, performed, rfl⟩ := step_performed moved
  have after := perform_history hist keyed roundTrip performed
  exact ⟨after.receiving, after.storing, after.wrote, after.replied⟩

theorem run_traced {settings : Settings} {backend : Backend}
    (roundTrip : ∀ rd data, libs.toBytes rd = .ok data → libs.tryFrom data = .ok rd)
    (accepted : run (step settings requests) (System.start libs backend) evs = some t) :
    Traced requests evs t :=
  run_history (I := Traced requests) (fun _ _ _ _ traced moved => step_traced roundTrip traced moved)
    (start_traced requests libs backend) accepted

/-- Every `Ok` a client is given was made from an answer of the upstream, earlier in the
    run, to a request with the same cache key. -/
theorem replies_from_upstream {libs : Libraries} {settings : Settings} {requests : Nat → Request}
    {backend : Backend} {evs : List Event} {t : System libs} {i : Nat} {rd : ResponseData}
    (roundTrip : ∀ rd data, libs.toBytes rd = .ok data → libs.tryFrom data = .ok rd)
    (accepted : run (step settings requests) (System.start libs backend) evs = some t)
    (replied : t.stages i = .returned (.ok rd)) :
    ∃ c, (requests c).idempotencyKey = (requests i).idempotencyKey ∧
      Answered libs requests evs c rd := by
  obtain ⟨_, hist⟩ := run_traced roundTrip accepted
  obtain ⟨c, v, sameKey, written, read⟩ := hist.replied i rd replied
  obtain ⟨rd', serialised, built⟩ := hist.wrote c v written
  have same : rd' = rd := by
    have back := roundTrip rd' v serialised
    rw [roundTrip rd v read] at back
    exact (Except.ok.inj back).symm
  subst same
  exact ⟨c, sameKey, built⟩

def sampleRun : List Event :=
  [⟨0, .obtain 0 .none⟩, ⟨1, .readBody 0 (.ok ())⟩, ⟨2, .obtain 1 .none⟩,
    ⟨3, .execute 0 (.ok (200, []))⟩, ⟨4, .receive 0 (.ok [1])⟩, ⟨5, .set 0 .none⟩,
    ⟨102, .poll 1 .none⟩]

def reply : Stage libs → Option Reply
  | .returned reply => some reply
  | _ => none

theorem reply_returned {stage : Stage libs} {given : Reply} (replied : reply stage = some given) :
    stage = .returned given := by
  unfold reply at replied
  split at replied
  · rw [Option.some.inj replied]
  · cases replied

theorem sample_reply_from_upstream :
    ∃ c, (postRequest c).idempotencyKey = (postRequest 1).idempotencyKey ∧
      Answered StoredForm.libraries postRequest sampleRun c ⟨200, [], [1], "text/plain"⟩ := by
  have seen : (run (step defaults postRequest) (System.start StoredForm.libraries .memory)
      sampleRun).map (fun t => reply (t.stages 1)) =
        some (some (.ok ⟨200, [], [1], "text/plain"⟩)) := by decide +kernel
  obtain ⟨t, accepted, replied⟩ := Option.map_eq_some_iff.mp seen
  exact replies_from_upstream (fun _ _ => StoredForm.libraries_round_trip) accepted
    (reply_returned replied)

end Provenance
