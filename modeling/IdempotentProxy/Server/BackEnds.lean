import IdempotentProxy.Foundations.PairedRuns
import IdempotentProxy.Server.Interchange
import IdempotentProxy.Server.ProxyHandler

/-!
Two whole servers, one with the in-memory back end and one with Redis, given the same
requests and the same upstream answers at the same times, while no Redis command fails.
Their clients get the same replies until a poll or a `set` comes upon an entry that has
expired and that memory still keeps.
-/
namespace BackEnds
open ExpiringStore EventRuns HybridCache PairedRuns ProxyHandler
open CachedResponse (Bytes Libraries ResponseData)
open Interchange (Stands)
open MemoryCache (MemoryCacher QueueExact)
open RedisCache (Fault Keyspace)

variable {libs : Libraries}

def Reliable : Action → Prop
  | .obtain _ fault | .poll _ fault | .set _ fault | .del _ fault => fault = .none
  | _ => True

instance : ∀ a : Action, Decidable (Reliable a)
  | .obtain _ fault | .poll _ fault | .set _ fault | .del _ fault =>
      inferInstanceAs (Decidable (fault = .none))
  | .pollTimeout _ | .readBody _ _ | .execute _ _ | .receive _ _ | .clean => isTrue trivial

def reliableStep (settings : Settings) (requests : Nat → Request) (s : System libs) (e : Event) :
    Option (System libs) :=
  if Reliable e.action then step settings requests s e else none

def SameReplies (m r : System libs) : Prop :=
  ∀ i reply, m.stages i = .returned reply ↔ r.stages i = .returned reply

/-- A poll finds no entry past its expiry, and a `set` finds its entry live. -/
def Timely (requests : Nat → Request) (m : System libs) (e : Event) : Prop :=
  match e.action with
  | .poll i _ => ∀ entry, view m.cacher (requests i).idempotencyKey = some entry → e.now < entry.1
  | .set i _ => live (view m.cacher) e.now (requests i).idempotencyKey ≠ none
  | _ => True

instance (requests : Nat → Request) (m : System libs) : ∀ e, Decidable (Timely requests m e)
  | ⟨now, .poll i _⟩ =>
      inferInstanceAs (Decidable
        (∀ entry, view m.cacher (requests i).idempotencyKey = some entry → now < entry.1))
  | ⟨now, .set i _⟩ =>
      inferInstanceAs (Decidable (live (view m.cacher) now (requests i).idempotencyKey ≠ none))
  | ⟨_, .obtain _ _⟩ | ⟨_, .del _ _⟩ | ⟨_, .pollTimeout _⟩ | ⟨_, .readBody _ _⟩ | ⟨_, .execute _ _⟩
  | ⟨_, .receive _ _⟩ | ⟨_, .clean⟩ => isTrue trivial

/-- What the two caches have in common, and what memory holds besides. -/
structure CachesAlike (libs : Libraries) (now : Nat) (mc : MemoryCacher) (ks : Keyspace) :
    Prop where
  exact : QueueExact mc
  alike : Alike (Stands libs) now mc.kv ks
  serialised : ∀ k e v, mc.kv k = some (e, v) → v = [] ∨ ∃ rd, libs.toBytes rd = .ok v

structure Abreast (now : Nat) (m r : System libs) : Prop where
  stages : m.stages = r.stages
  caches : ∃ mc ks, m.cacher = .memory mc ∧ r.cacher = .redis ks ∧ CachesAlike libs now mc ks

def obtainStage (settings : Settings) (req : Request) : Except String Bool → Stage libs
  | .error text => .returned (badGateway text)
  | .ok false => .polling (settings.cacheTtl / settings.pollInterval)
  | .ok true => if req.isSafe then .executing else .readingBody

def pollStage (counter : Nat) : Except String (Option Bytes) → Stage libs
  | .error text => .returned (badGateway text)
  | .ok none => .polling counter
  | .ok (some data) => .returned (replay libs data)

section Stages
variable (settings : Settings) (requests : Nat → Request) (s : System libs) (i now : Nat)
  (fault : Fault)

theorem obtain_stage : (stepObtain settings requests s i now fault).stages =
    Function.update s.stages i (obtainStage settings (requests i)
      (obtain s.cacher (requests i).idempotencyKey settings.cacheTtl now fault).2) := by
  unfold stepObtain
  dsimp only
  split
  · rename_i text failed
    rw [failed]
    rfl
  · rename_i taken
    rw [taken]
    rfl
  · rename_i granted
    rw [granted]
    rfl

theorem poll_stage (counter : Nat) : (stepPoll requests s i counter now fault).stages =
    Function.update s.stages i (pollStage counter
      (pollTurn s.cacher (requests i).idempotencyKey now fault)) := by
  unfold stepPoll
  dsimp only
  split
  · rename_i text failed
    rw [failed]
    rfl
  · rename_i blank
    rw [blank]
    rfl
  · rename_i data filled
    rw [filled]
    rfl

end Stages

section Caches
variable {now : Nat} {mc : MemoryCacher} {ks : Keyspace} (alike : CachesAlike libs now mc ks)
include alike

theorem caches_later {later : Nat} (order : now ≤ later) : CachesAlike libs later mc ks :=
  ⟨alike.exact, alike_later alike.alike order, alike.serialised⟩

theorem serialised_put {key : String} {expiry : Nat} {val : Bytes}
    (written : val = [] ∨ ∃ rd, libs.toBytes rd = .ok val) {k : String} {e : Nat} {v : Bytes}
    (found : put mc.kv key expiry val k = some (e, v)) : v = [] ∨ ∃ rd, libs.toBytes rd = .ok v := by
  by_cases here : k = key
  · rw [here, put_same] at found
    cases found
    exact written
  · rw [put_other _ _ here] at found
    exact alike.serialised k e v found

theorem serialised_remove {key k : String} {e : Nat} {v : Bytes}
    (found : remove mc.kv key k = some (e, v)) : v = [] ∨ ∃ rd, libs.toBytes rd = .ok v := by
  by_cases here : k = key
  · rw [here, remove_same] at found
    cases found
  · rw [remove_other here] at found
    exact alike.serialised k e v found

theorem obtain_alike (key : String) (ttl : Nat) :
    CachesAlike libs now (MemoryCache.obtain mc key ttl now).cacher
        (RedisCache.obtain ks key ttl now .none).1 ∧
      (MemoryCache.obtain mc key ttl now).reply = (RedisCache.obtain ks key ttl now .none).2 := by
  obtain ⟨stored, replied⟩ := MemoryCache.obtain_put_if_absent mc key ttl now
  obtain ⟨kept, same⟩ := alike_put_if_absent alike.alike key (now + ttl) Interchange.obtained_stands
  refine ⟨⟨MemoryCache.obtain_queue_exact alike.exact key ttl now, ?_, fun k e v found => ?_⟩, ?_⟩
  · rw [stored]
    exact kept
  · rw [stored, putIfAbsent] at found
    split at found
    · exact alike.serialised k e v found
    · exact serialised_put alike (Or.inl rfl) found
  · rw [replied]
    exact congrArg Except.ok same

theorem del_alike (key : String) :
    CachesAlike libs now (MemoryCache.del mc key).cacher (RedisCache.del ks key .none).1 := by
  refine ⟨MemoryCache.del_queue_exact alike.exact key, ?_, fun k e v found => ?_⟩
  · rw [(MemoryCache.del_kv mc key).1]
    exact alike_remove alike.alike key
  · rw [(MemoryCache.del_kv mc key).1] at found
    exact serialised_remove alike found

theorem clean_alike : CachesAlike libs now (MemoryCache.cleanExpiredValues mc now) ks := by
  refine ⟨MemoryCache.clean_queue_exact alike.exact now, ?_, fun k e v found => ?_⟩
  · exact alike_same_live alike.alike
      (MemoryCache.clean_keeps_live (MemoryCache.exact_agrees alike.exact) now)
  · rw [MemoryCache.clean_kv] at found
    split at found
    · cases found
    · exact alike.serialised k e v found

theorem set_alike {key : String} {data : Bytes} {rd : ResponseData}
    (serialised : libs.toBytes rd = .ok data) (alive : live mc.kv now key ≠ none) (ttl : Nat) :
    CachesAlike libs now (MemoryCache.set mc key data ttl now).cacher
        (RedisCache.set ks key data ttl now .none).1 ∧
      (MemoryCache.set mc key data ttl now).reply = .ok true ∧
      (RedisCache.set ks key data ttl now .none).2 = .ok true := by
  obtain ⟨entry, found⟩ := Option.ne_none_iff_exists'.mp alive
  obtain ⟨stored, replied⟩ := MemoryCache.set_live found data ttl
  have there : (live ks now key).isSome = true := by
    rw [← alike_isSome alike.alike, found]
    rfl
  have written : RedisCache.set ks key data ttl now .none =
      (put ks key (now + ttl) data, .ok true) := by
    simp [RedisCache.set, RedisCache.command, putIfPresent, there]
  rw [written]
  refine ⟨⟨MemoryCache.set_queue_exact alike.exact found data ttl, ?_, fun k e v kept => ?_⟩,
    replied, rfl⟩
  · rw [stored]
    exact alike_put alike.alike key _ (Or.inr ⟨rfl, rd, serialised⟩)
  · rw [stored] at kept
    exact serialised_put alike (Or.inr ⟨rd, serialised⟩) kept

theorem set_late {key : String} (dead : live mc.kv now key = none) (data : Bytes) (ttl : Nat) :
    (∃ text, (MemoryCache.set mc key data ttl now).reply = .error text) ∧
      (RedisCache.set ks key data ttl now .none).2 = .ok false := by
  obtain ⟨_, failed⟩ := MemoryCache.set_dead dead data ttl
  have absent : (live ks now key).isSome = false := by
    rw [← alike_isSome alike.alike, dead]
    rfl
  exact ⟨failed, by simp [RedisCache.set, RedisCache.command, putIfPresent, absent]⟩

theorem poll_alike {key : String} (timely : ∀ entry, mc.kv key = some entry → now < entry.1) :
    (MemoryCache.pollTurn mc key now).reply = RedisCache.pollTurn ks key now .none := by
  simp only [MemoryCache.pollTurn, RedisCache.pollTurn, RedisCache.command]
  rcases alike_cases alike.alike key with ⟨left, right⟩ | ⟨expiry, v, w, left, right, related⟩
  · have absent : mc.kv key = none := by
      cases entry : mc.kv key with
      | none => rfl
      | some found =>
        have ahead := timely found entry
        have late := live_none_iff.mp left found entry
        omega
    rw [absent, right]
    rfl
  · rw [(live_some_iff.mp left).1, right]
    simp only [Option.map_some, Interchange.stands_read related]

theorem poll_late (roundTrip : ∀ rd data, libs.toBytes rd = .ok data → libs.tryFrom data = .ok rd)
    {key : String} {entry : Nat × Bytes} (kept : mc.kv key = some entry) (late : entry.1 ≤ now)
    (counter : Nat) :
    pollStage counter (RedisCache.pollTurn ks key now .none) =
        (.returned (badGateway "not obtained") : Stage libs) ∧
      pollStage counter (MemoryCache.pollTurn mc key now).reply ≠
        (.returned (badGateway "not obtained") : Stage libs) := by
  have dead : live mc.kv now key = none := by
    refine live_none_iff.mpr fun e found => ?_
    rw [kept] at found
    cases found
    exact late
  have absent : live ks now key = none := by
    have same := alike_isSome alike.alike key
    rw [dead] at same
    exact Option.isNone_iff_eq_none.mp (Option.isSome_eq_false_iff.mp same.symm)
  constructor
  · simp only [RedisCache.pollTurn, RedisCache.command, absent, Option.map_none]
    rfl
  · simp only [MemoryCache.pollTurn, kept]
    split
    · simp [pollStage]
    · rename_i filled
      rcases alike.serialised key entry.1 entry.2 kept with blank | ⟨rd, serialised⟩
      · rw [blank] at filled
        exact absurd rfl filled
      · simp [pollStage, replay, roundTrip rd _ serialised, badGateway]

end Caches

section Steps
variable {settings : Settings} {requests : Nat → Request} {now : Nat} {m r : System libs}

theorem abreast_moved (abreast : Abreast now m r) (i : Nat) (stage : Stage libs) :
    Abreast now (m.move i stage) (r.move i stage) :=
  ⟨by simp only [System.move, abreast.stages], abreast.caches⟩

theorem obtain_abreast (abreast : Abreast now m r) (i : Nat) :
    Abreast now (stepObtain settings requests m i now .none)
      (stepObtain settings requests r i now .none) := by
  obtain ⟨mc, ks, memory, redis, alike⟩ := abreast.caches
  obtain ⟨kept, replied⟩ := obtain_alike alike (requests i).idempotencyKey settings.cacheTtl
  constructor
  · rw [obtain_stage, obtain_stage, memory, redis, abreast.stages]
    exact congrArg (fun reply => Function.update r.stages i (obtainStage settings (requests i) reply))
      replied
  · refine ⟨_, _, ?_, ?_, kept⟩
    · rw [obtain_cacher, memory]
      rfl
    · rw [obtain_cacher, redis]
      rfl

theorem poll_abreast (abreast : Abreast now m r) {i : Nat} {counter : Nat}
    (timely : Timely requests m ⟨now, .poll i .none⟩) :
    Abreast now (stepPoll requests m i counter now .none)
      (stepPoll requests r i counter now .none) := by
  obtain ⟨mc, ks, memory, redis, alike⟩ := abreast.caches
  simp only [Timely, memory, view] at timely
  constructor
  · rw [poll_stage, poll_stage, memory, redis, abreast.stages]
    exact congrArg (fun reply => Function.update r.stages i (pollStage counter reply))
      (poll_alike alike timely)
  · rw [poll_cacher, poll_cacher]
    exact ⟨mc, ks, memory, redis, alike⟩

theorem set_abreast (abreast : Abreast now m r) {i : Nat} {rd : ResponseData} {data : Bytes}
    (serialised : libs.toBytes rd = .ok data) (timely : Timely requests m ⟨now, .set i .none⟩) :
    Abreast now (stepSet settings requests m i rd data now .none)
      (stepSet settings requests r i rd data now .none) := by
  obtain ⟨mc, ks, memory, redis, alike⟩ := abreast.caches
  simp only [Timely, memory, view] at timely
  obtain ⟨kept, first, second⟩ := set_alike alike serialised timely settings.cacheTtl
  constructor
  · simp only [stepSet, memory, redis, HybridCache.set, System.move, first, second, abreast.stages]
  · refine ⟨_, _, ?_, ?_, kept⟩
    · simp only [stepSet, memory, HybridCache.set, System.move]
    · simp only [stepSet, redis, HybridCache.set, System.move]

theorem del_abreast (abreast : Abreast now m r) (i status : Nat) (text : String) :
    Abreast now (stepDel requests m i status text .none)
      (stepDel requests r i status text .none) := by
  obtain ⟨mc, ks, memory, redis, alike⟩ := abreast.caches
  constructor
  · simp only [stepDel, System.move, abreast.stages]
  · refine ⟨_, _, ?_, ?_, del_alike alike (requests i).idempotencyKey⟩
    · simp only [stepDel, memory, del, System.move]
    · simp only [stepDel, redis, del, System.move]

theorem clean_abreast (abreast : Abreast now m r) :
    Abreast now { m with cacher := clean now m.cacher }
      { r with cacher := clean now r.cacher } := by
  obtain ⟨mc, ks, memory, redis, alike⟩ := abreast.caches
  refine ⟨abreast.stages, _, _, ?_, ?_, clean_alike alike⟩
  · rw [memory]
    rfl
  · rw [redis]
    rfl

theorem advance_abreast (abreast : Abreast now m r) (i : Nat) (a : Action) :
    Option.Rel (Abreast now) ((advance (requests i) (m.stages i) a).map (m.move i))
      ((advance (requests i) (r.stages i) a).map (r.move i)) := by
  rw [abreast.stages]
  cases advance (requests i) (r.stages i) a with
  | none => exact Option.Rel.none
  | some stage => exact Option.Rel.some (abreast_moved abreast i stage)

/-- Both servers can take the step or neither, and stay abreast if it is timely. -/
theorem perform_abreast (abreast : Abreast now m r) {a : Action} (reliable : Reliable a)
    (timely : Timely requests m ⟨now, a⟩) :
    Option.Rel (Abreast now) (perform settings requests m now a)
      (perform settings requests r now a) := by
  cases a with
  | obtain i fault =>
    cases (reliable : fault = .none)
    simp only [perform, abreast.stages]
    split
    · exact Option.Rel.some (obtain_abreast abreast i)
    · exact Option.Rel.none
  | poll i fault =>
    cases (reliable : fault = .none)
    simp only [perform, abreast.stages]
    split
    · exact Option.Rel.some (poll_abreast abreast timely)
    · exact Option.Rel.none
  | set i fault =>
    cases (reliable : fault = .none)
    simp only [perform, abreast.stages]
    split
    · rename_i serialised _
      exact Option.Rel.some (set_abreast abreast serialised timely)
    · exact Option.Rel.none
  | del i fault =>
    cases (reliable : fault = .none)
    simp only [perform, abreast.stages]
    split
    · exact Option.Rel.some (del_abreast abreast i _ _)
    · exact Option.Rel.none
  | clean => exact Option.Rel.some (clean_abreast abreast)
  | pollTimeout i => exact advance_abreast abreast i _
  | readBody i read => exact advance_abreast abreast i _
  | execute i answer => exact advance_abreast abreast i _
  | receive i body => exact advance_abreast abreast i _

end Steps

section Runs
variable (settings : Settings) (requests : Nat → Request) {m r m' r' : System libs} {e : Event}

def InStep (m r : System libs) : Prop := m.clock = r.clock ∧ Abreast m.clock m r

theorem in_step_start : InStep (System.start libs .memory) (System.start libs .redis) := by
  refine ⟨rfl, rfl, MemoryCacher.default, fun _ => none, rfl, rfl, ?_⟩
  refine ⟨fun p mem => ?_, fun _ => Option.Rel.none, fun k e v found => ?_⟩
  · simp [MemoryCacher.default] at mem
  · cases found

theorem same_replies (inStep : InStep m r) : SameReplies m r := by
  intro i reply
  rw [inStep.2.stages]

theorem reliable_step_iff : reliableStep settings requests m e = some m' ↔
    Reliable e.action ∧ m.clock ≤ e.now ∧
      ∃ u, perform settings requests m e.now e.action = some u ∧ m' = { u with clock := e.now } := by
  unfold reliableStep
  split
  · rename_i reliable
    constructor
    · intro moved
      exact ⟨reliable, step_performed moved⟩
    · rintro ⟨_, order, u, performed, rfl⟩
      rw [step, if_pos order, performed]
      rfl
  · rename_i faulty
    simp [faulty]

theorem in_step_abreast (inStep : InStep m r) (order : m.clock ≤ e.now) : Abreast e.now m r := by
  obtain ⟨mc, ks, memory, redis, alike⟩ := inStep.2.caches
  exact ⟨inStep.2.stages, mc, ks, memory, redis, caches_later alike order⟩

theorem in_step_after {u v : System libs} {now : Nat} (abreast : Abreast now u v) :
    InStep { u with clock := now } { v with clock := now } :=
  ⟨rfl, abreast.stages, abreast.caches⟩

theorem servers_matched : Matched (reliableStep settings requests) (reliableStep settings requests)
    (InStep : System libs → System libs → Prop) (Timely requests) := by
  constructor
  · intro m r e m' inStep timely moved
    obtain ⟨reliable, order, u, performed, rfl⟩ := (reliable_step_iff settings requests).mp moved
    have both : Option.Rel (Abreast e.now) (perform settings requests m e.now e.action)
        (perform settings requests r e.now e.action) :=
      perform_abreast (in_step_abreast inStep order) reliable timely
    rw [performed] at both
    cases answered : perform settings requests r e.now e.action with
    | none =>
      rw [answered] at both
      cases both
    | some v =>
      rw [answered] at both
      cases both with
      | some abreast =>
        refine ⟨{ v with clock := e.now }, ?_, in_step_after abreast⟩
        exact (reliable_step_iff settings requests).mpr
          ⟨reliable, by rw [← inStep.1]; exact order, v, answered, rfl⟩
  · intro m r e r' inStep timely moved
    obtain ⟨reliable, order, v, performed, rfl⟩ := (reliable_step_iff settings requests).mp moved
    rw [← inStep.1] at order
    have both : Option.Rel (Abreast e.now) (perform settings requests m e.now e.action)
        (perform settings requests r e.now e.action) :=
      perform_abreast (in_step_abreast inStep order) reliable timely
    rw [performed] at both
    cases answered : perform settings requests m e.now e.action with
    | none =>
      rw [answered] at both
      cases both
    | some u =>
      rw [answered] at both
      cases both with
      | some abreast =>
        refine ⟨{ u with clock := e.now }, ?_, in_step_after abreast⟩
        exact (reliable_step_iff settings requests).mpr ⟨reliable, order, u, answered, rfl⟩

/-- The client of a late poll or a late `set` hears different things. -/
theorem late_step_shows
    (roundTrip : ∀ rd data, libs.toBytes rd = .ok data → libs.tryFrom data = .ok rd)
    (inStep : InStep m r) (late : ¬ Timely requests m e)
    (moved : reliableStep settings requests m e = some m')
    (moved' : reliableStep settings requests r e = some r') : ¬ SameReplies m' r' := by
  obtain ⟨reliable, order, u, performed, rfl⟩ := (reliable_step_iff settings requests).mp moved
  obtain ⟨_, _, v, performed', rfl⟩ := (reliable_step_iff settings requests).mp moved'
  obtain ⟨mc, ks, memory, redis, alike⟩ := (in_step_abreast inStep order).caches
  obtain ⟨now, action⟩ := e
  cases action with
  | poll i fault =>
    cases (reliable : fault = .none)
    obtain ⟨counter, here, rfl⟩ := perform_poll performed
    obtain ⟨counter', here', rfl⟩ := perform_poll performed'
    simp only [Timely, memory, view, not_forall, Nat.not_lt] at late
    obtain ⟨entry, kept, expired⟩ := late
    rw [← inStep.2.stages, here] at here'
    cases here'
    obtain ⟨onRedis, inMemory⟩ := poll_late alike roundTrip kept expired counter
    intro same
    have replied := (same i (badGateway "not obtained")).mpr (by
      simp only [poll_stage, redis, Function.update_self]
      exact onRedis)
    simp only [poll_stage, memory, Function.update_self] at replied
    exact inMemory replied
  | set i fault =>
    cases (reliable : fault = .none)
    obtain ⟨rd, data, serialised, here, rfl⟩ := perform_set performed
    obtain ⟨rd', data', _, here', rfl⟩ := perform_set performed'
    simp only [Timely, memory, view, ne_eq, not_not] at late
    rw [← inStep.2.stages, here] at here'
    cases here'
    obtain ⟨⟨text, failed⟩, ignored⟩ := set_late alike late data settings.cacheTtl
    intro same
    have replied := (same i (.ok rd)).mpr (by
      simp [stepSet, redis, HybridCache.set, System.move, ignored, setReply])
    simp [stepSet, memory, HybridCache.set, System.move, failed, setReply, badGateway] at replied
  | obtain i fault => exact absurd trivial late
  | del i fault => exact absurd trivial late
  | clean => exact absurd trivial late
  | pollTimeout i => exact absurd trivial late
  | readBody i read => exact absurd trivial late
  | execute i answer => exact absurd trivial late
  | receive i body => exact absurd trivial late

end Runs

/-- Over the same events, accepted by both while Redis is up, the clients of the two servers
    have the same replies at all times exactly when every poll and every `set` is timely. -/
theorem clients_alike_iff {libs : Libraries} {settings : Settings} {requests : Nat → Request}
    {evs : List Event} {m r : System libs}
    (roundTrip : ∀ rd data, libs.toBytes rd = .ok data → libs.tryFrom data = .ok rd)
    (inMemory : run (reliableStep settings requests) (System.start libs .memory) evs = some m)
    (onRedis : run (reliableStep settings requests) (System.start libs .redis) evs = some r) :
    SeenAlike (reliableStep settings requests) (reliableStep settings requests) SameReplies
        (System.start libs .memory) (System.start libs .redis) evs ↔
      Along (reliableStep settings requests) (Timely requests) (System.start libs .memory) evs :=
  seen_alike_iff_along (servers_matched settings requests) (fun _ _ => same_replies)
    (fun _ _ _ _ _ inStep late moved moved' =>
      late_step_shows settings requests roundTrip inStep late moved moved')
    in_step_start inMemory onRedis

def sampleRun : List Event :=
  [⟨0, .obtain 0 .none⟩, ⟨1, .readBody 0 (.ok ())⟩, ⟨2, .obtain 1 .none⟩,
    ⟨3, .execute 0 (.ok (200, []))⟩, ⟨4, .receive 0 (.ok [1])⟩, ⟨5, .set 0 .none⟩,
    ⟨102, .poll 1 .none⟩, ⟨103, .obtain 2 .none⟩, ⟨10005, .poll 2 .none⟩]

theorem sample_clients_alike_iff :
    SeenAlike (reliableStep defaults postRequest) (reliableStep defaults postRequest) SameReplies
        (System.start StoredForm.libraries .memory) (System.start StoredForm.libraries .redis)
        sampleRun ↔
      Along (reliableStep defaults postRequest) (Timely postRequest)
        (System.start StoredForm.libraries .memory) sampleRun := by
  obtain ⟨_, inMemory⟩ := Option.isSome_iff_exists.mp
    (show (run (reliableStep defaults postRequest) (System.start StoredForm.libraries .memory)
      sampleRun).isSome = true by decide +kernel)
  obtain ⟨_, onRedis⟩ := Option.isSome_iff_exists.mp
    (show (run (reliableStep defaults postRequest) (System.start StoredForm.libraries .redis)
      sampleRun).isSome = true by decide +kernel)
  exact clients_alike_iff (fun _ _ => StoredForm.libraries_round_trip) inMemory onRedis

example : Along (reliableStep defaults postRequest) (Timely postRequest)
    (System.start StoredForm.libraries .memory) (sampleRun.take 8) := by decide +kernel

example : ¬ Along (reliableStep defaults postRequest) (Timely postRequest)
    (System.start StoredForm.libraries .memory) sampleRun := by decide +kernel

end BackEnds
