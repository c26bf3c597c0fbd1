import IdempotentProxy.Worker.Handler
import IdempotentProxy.Worker.ResponseData

/-!
The worker with what its clients are given. Every request has passed the checks of
`fetch`; from its first call on the Durable Object on it takes the steps of `WorkerFetch`
on the object of its name, with the answers and bodies of the upstream as they come, and
the objects may fire their alarms and be evicted at any time.
-/
namespace WorkerService
open EventRuns FetchHeaders Results WorkerFetch
open HttpHeaders (Bytes)
open ObjectNames (Objects)
open WorkerHandler (Entry Request header)
open WorkerResponse (ResponseData Response answer fromBytes)

structure Admitted (libs : WorkerHandler.Libraries) (vars : WorkerHandler.Env) where
  req : Request libs
  now : WorkerAuth.DateNow
  entry : Entry libs
  reached : WorkerHandler.fetch vars req now = .ok entry

/-- The objects with, for each request, the upstream's answer (`res`), what was made of it
    (`rd`) and the response of a `ResponseData` that its client was given. -/
structure Service where
  objects : Objects
  upstream : Nat → Option (Nat × Headers)
  made : Nat → Option ResponseData
  given : Nat → Option Response

def Service.start (object : WorkerCacher.Cacher) : Service :=
  ⟨ObjectNames.start object, fun _ => none, fun _ => none, fun _ => none⟩

/-- An await of a request. What the upstream sends, if it does not fail, is in the event. -/
inductive Await where
  | obtain (i : Nat) (rpc : Rpc)
  | get (i : Nat) (rpc : Rpc)
  | timeout (i : Nat)
  | fetch (i : Nat) (answer : Option (Nat × Headers))
  | buffer (i : Nat) (body : Option Bytes)
  | set (i : Nat) (now : Nat) (rpc : Rpc)
  | text (i : Nat) (reads : Bool)
  | deliver (i : Nat)

inductive Event where
  | await (a : Await)
  | alarm (name : String) (now : Nat)
  | evict (name : String) (now : Nat)

variable {libs : WorkerHandler.Libraries} {vars : WorkerHandler.Env} (settings : WorkerFetch.Env)
  (data : WorkerResponse.Libraries) (asks : Nat → Admitted libs vars)

def name (i : Nat) : String := (asks i).entry.name

def replay (bytes : Bytes) : Except String Response := do
  let rd ← fromBytes data bytes
  rd.toResponse

def polled (s : Service) (i : Nat) : Rpc → Option Response
  | .answered =>
      match WorkerCacher.get (s.objects (name asks i)).object with
      | .ok (some bytes) => (replay data bytes).toOption
      | _ => none
  | _ => none

/-- Nothing goes upstream if the headers cannot be put together. -/
def sent (i : Nat) (answer : Option (Nat × Headers)) : Option (Nat × Headers) :=
  match WorkerHandler.outgoing vars (asks i).req (asks i).entry with
  | .ok _ => answer
  | .error _ => none

def built (s : Service) (i : Nat) (body : Option Bytes) : Option ResponseData := do
  let (status, headers) ← s.upstream i
  let body ← body
  (answer data status headers body (header (asks i).req.headers "response-headers")
    (header (asks i).req.headers "x-json-mask")).toOption

def stored (s : Service) (i : Nat) : Option Response :=
  (s.made i).bind fun rd => rd.toResponse.toOption

def shape (s : Service) : Await → WorkerFetch.Event
  | .obtain i rpc => .obtain i rpc
  | .get i rpc => .get i rpc (polled data asks s i rpc).isSome
  | .timeout i => .timeout i
  | .fetch i answer => .fetch i ((sent asks i answer).map Prod.fst)
  | .buffer i body => .buffer i ((built data asks s i body).map fun rd => rd.toBytes data)
  | .set i now rpc => .set i now rpc (stored s i).isSome
  | .text i reads => .text i reads
  | .deliver i => .deliver i

def give (given : Nat → Option Response) (i : Nat) (res : Option Response) :
    Nat → Option Response :=
  if res.isSome then Function.update given i res else given

def record (s : Service) (objects : Objects) : Await → Service
  | .get i rpc => { s with objects := objects, given := give s.given i (polled data asks s i rpc) }
  | .fetch i answer =>
      { s with objects := objects
               upstream := Function.update s.upstream i (sent asks i answer) }
  | .buffer i body =>
      { s with objects := objects
               made := Function.update s.made i (built data asks s i body) }
  | .set i _ rpc =>
      { s with objects := objects
               given := if rpc = .answered then give s.given i (stored s i) else s.given }
  | _ => { s with objects := objects }

def onObject (s : Service) (name : String) (e : WorkerCacher.Event) : Option Service :=
  (WorkerCacher.step (some settings.requestTimeout) (s.objects name).object e).map fun object =>
    { s with objects := Function.update s.objects name { s.objects name with object := object } }

def step (s : Service) : Event → Option Service
  | .await a =>
      (ObjectNames.step settings (name asks) s.objects (shape data asks s a)).map fun objects =>
        record data asks s objects a
  | .alarm name now => onObject settings s name (.alarm now)
  | .evict name now => onObject settings s name (.evict now)

section Requests
variable {env : WorkerFetch.Env} {s t : System} {e : WorkerFetch.Event} {i status : Nat}

def silent : Stage → Bool
  | .buffering _ | .storing .. => false
  | _ => true

inductive Moved (s : System) (e : WorkerFetch.Event) (t : System) : Prop where
  | silent (stage : silent (t.stages e.request) = true)
  | answered (i status : Nat) (event : e = .fetch i (some status))
      (stage : t.stages i = .buffering status) (bounds : 200 ≤ status ∧ status ≤ 500)
  | built (i status : Nat) (value : Bytes) (event : e = .buffer i (some value))
      (before : s.stages i = .buffering status) (stage : t.stages i = .storing status value)
  | kept (stages : t.stages = s.stages)

theorem move_stage (s : System) (i : Nat) (stage : Stage) : (s.move i stage).stages i = stage := by
  simp [System.move]

theorem fail_silent (s : System) (i : Nat) : silent ((s.fail i).stages i) = true := by
  simp [System.fail, System.move, silent]

theorem move_silent (s : System) (i : Nat) {stage : Stage} (quiet : silent stage = true) :
    silent ((s.move i stage).stages i) = true := by
  rwa [move_stage]

theorem step_moved (moved : WorkerFetch.step env s e = some t) : Moved s e t := by
  cases e with
  | obtain i rpc =>
    obtain ⟨_, rfl⟩ := step_obtain moved
    cases rpc with
    | answered =>
      refine .silent ?_
      unfold stepObtain
      dsimp only
      split
      · exact move_silent s i rfl
      · exact move_silent s i rfl
    | refused => exact .silent (fail_silent s i)
    | lost => exact .silent (fail_silent _ i)
  | get i rpc decodes =>
    obtain ⟨counter, _, rfl⟩ := step_get moved
    refine .silent ?_
    unfold stepGet
    split
    · split
      · exact fail_silent s i
      · exact move_silent s i rfl
      · split
        · exact move_silent s i rfl
        · exact fail_silent s i
    · exact fail_silent s i
  | timeout i =>
    rw [step_timeout moved]
    exact .silent (fail_silent s i)
  | fetch i status =>
    obtain ⟨_, rfl⟩ := step_fetch moved
    cases status with
    | none => exact .silent (fail_silent s i)
    | some status =>
      by_cases bounds : 200 ≤ status ∧ status ≤ 500
      · refine .answered i status rfl ?_ bounds
        rw [stepFetch, if_pos bounds, move_stage]
      · rw [stepFetch, if_neg bounds]
        exact .silent (move_silent s i rfl)
  | buffer i value =>
    simp only [WorkerFetch.step] at moved
    split at moved
    · rename_i status here
      cases value with
      | none =>
        cases moved
        exact .silent (fail_silent s i)
      | some bytes =>
        cases moved
        exact .built i status bytes rfl here (Function.update_self i _ s.stages)
    · cases moved
  | set i now rpc responds =>
    obtain ⟨_, value, rfl⟩ := step_set moved
    refine .silent ?_
    unfold stepSet
    dsimp only
    split
    · split
      · exact move_silent _ i rfl
      · exact fail_silent _ i
    · exact fail_silent s i
    · exact fail_silent _ i
  | text i reads =>
    obtain ⟨status, _, rfl⟩ := step_text moved
    refine .silent ?_
    unfold stepText
    split
    · exact move_silent s i rfl
    · exact fail_silent s i
  | deliver i =>
    obtain ⟨_, rfl⟩ := step_deliver moved
    exact .kept rfl

theorem step_buffering (moved : WorkerFetch.step env s e = some t)
    (there : t.stages i = .buffering status) :
    s.stages i = .buffering status ∨
      (e = .fetch i (some status) ∧ 200 ≤ status ∧ status ≤ 500) := by
  by_cases mine : i = e.request
  · subst mine
    cases step_moved moved with
    | silent stage =>
      rw [there] at stage
      cases stage
    | answered j code event stage bounds =>
      subst event
      rw [WorkerFetch.Event.request, stage] at there
      cases there
      exact Or.inr ⟨rfl, bounds⟩
    | built j code value event before stage =>
      subst event
      rw [WorkerFetch.Event.request, stage] at there
      cases there
    | kept stages => exact Or.inl (by rw [← stages, there])
  · rw [(ObjectNames.step_only_of moved i mine).1] at there
    exact Or.inl there

theorem step_storing {value : Bytes} (moved : WorkerFetch.step env s e = some t)
    (there : t.stages i = .storing status value) :
    s.stages i = .storing status value ∨
      (e = .buffer i (some value) ∧ s.stages i = .buffering status) := by
  by_cases mine : i = e.request
  · subst mine
    cases step_moved moved with
    | silent stage =>
      rw [there] at stage
      cases stage
    | answered j code event stage bounds =>
      subst event
      rw [WorkerFetch.Event.request, stage] at there
      cases there
    | built j code bytes event before stage =>
      subst event
      rw [WorkerFetch.Event.request, stage] at there
      cases there
      exact Or.inr ⟨rfl, before⟩
    | kept stages => exact Or.inl (by rw [← stages, there])
  · rw [(ObjectNames.step_only_of moved i mine).1] at there
    exact Or.inl there

theorem step_value {value : Bytes} (moved : WorkerFetch.step env s e = some t)
    (there : t.object.storage.v = some value) :
    s.object.storage.v = some value ∨
      ∃ i now rpc responds status, e = .set i now rpc responds ∧
        s.stages i = .storing status value := by
  cases e with
  | obtain i rpc =>
    obtain ⟨_, rfl⟩ := step_obtain moved
    have kept : (WorkerCacher.obtain s.object).1.storage.v = s.object.storage.v := by
      unfold WorkerCacher.obtain
      split <;> rfl
    refine Or.inl ?_
    unfold stepObtain at there
    split at there
    · dsimp only at there
      split at there
      · exact kept ▸ there
      · exact kept ▸ there
    · exact there
    · exact kept ▸ there
  | get i rpc decodes =>
    obtain ⟨counter, _, rfl⟩ := step_get moved
    refine Or.inl ?_
    unfold stepGet at there
    split at there
    · split at there
      · exact there
      · exact there
      · split at there
        · exact there
        · exact there
    · exact there
  | timeout i =>
    rw [step_timeout moved] at there
    exact Or.inl there
  | fetch i status =>
    obtain ⟨_, rfl⟩ := step_fetch moved
    refine Or.inl ?_
    unfold stepFetch at there
    split at there
    · exact there
    · split at there
      · exact there
      · exact there
  | buffer i value' =>
    obtain ⟨_, rfl | ⟨status, bytes, rfl⟩⟩ := step_buffer moved
    · exact Or.inl there
    · exact Or.inl there
  | set i now rpc responds =>
    simp only [WorkerFetch.step] at moved
    split at moved
    · rename_i status written here
      cases moved
      unfold stepSet at there
      dsimp only at there
      split at there
      · have same : written = value := by
          split at there
          · exact Option.some.inj there
          · exact Option.some.inj there
        exact Or.inr ⟨i, now, _, responds, status, rfl, same ▸ here⟩
      · exact Or.inl there
      · exact Or.inr ⟨i, now, _, responds, status, rfl, Option.some.inj there ▸ here⟩
    · cases moved
  | text i reads =>
    obtain ⟨status, _, rfl⟩ := step_text moved
    refine Or.inl ?_
    unfold stepText at there
    split at there
    · exact there
    · exact there
  | deliver i =>
    obtain ⟨_, rfl⟩ := step_deliver moved
    cases there

end Requests

/-- `rd` is what the handler of `c` made of the upstream's answer to its message. -/
def Answered (evs : List Event) (c : Nat) (rd : ResponseData) : Prop :=
  ∃ out status headers body,
    WorkerHandler.outgoing vars (asks c).req (asks c).entry = .ok out ∧
    .await (.fetch c (some (status, headers))) ∈ evs ∧ .await (.buffer c (some body)) ∈ evs ∧
    200 ≤ status ∧ status ≤ 500 ∧
    answer data status headers body (header (asks c).req.headers "response-headers")
      (header (asks c).req.headers "x-json-mask") = .ok rd

def triple (i : Nat) : CacheKeys.Triple :=
  ⟨(asks i).entry.agent, (asks i).req.method, header (asks i).req.headers "idempotency-key"⟩

theorem name_of_triple (i : Nat) : name asks i = ObjectNames.objectName (triple asks i) := by
  obtain ⟨agent, _, rest⟩ := bind_ok_iff.mp (asks i).reached
  obtain ⟨_, _, rest⟩ := bind_ok_iff.mp rest
  obtain ⟨_, _, rest⟩ := bind_ok_iff.mp rest
  obtain ⟨url, _, rest⟩ := bind_ok_iff.mp rest
  obtain ⟨key, found, same⟩ := bind_ok_iff.mp rest
  have whole := Except.ok.inj same
  unfold WorkerHandler.idempotencyKey at found
  dsimp only at found
  split at found
  · cases found
  · cases found
    rw [name, triple, ← whole]

structure History (evs : List Event) (s : Service) : Prop where
  buffering : ∀ i status, (s.objects (name asks i)).stages i = .buffering status →
    ∃ out headers, WorkerHandler.outgoing vars (asks i).req (asks i).entry = .ok out ∧
      s.upstream i = some (status, headers) ∧
      .await (.fetch i (some (status, headers))) ∈ evs ∧ 200 ≤ status ∧ status ≤ 500
  storing : ∀ i status value, (s.objects (name asks i)).stages i = .storing status value →
    ∃ rd, s.made i = some rd ∧ value = rd.toBytes data ∧ Answered data asks evs i rd
  stored : ∀ n value, (s.objects n).object.storage.v = some value →
    ∃ c rd, name asks c = n ∧ value = rd.toBytes data ∧ Answered data asks evs c rd
  given : ∀ i r, s.given i = some r → ∃ c rd, name asks c = name asks i ∧
    Answered data asks evs c rd ∧
    (rd.toResponse = .ok r ∨ replay data (rd.toBytes data) = .ok r)

section Runs
variable {settings data asks} {evs more : List Event} {s t : Service} {a : Await} {i : Nat}
  {objects : Objects}

theorem answered_more {rd : ResponseData} {c : Nat} (first : Answered data asks evs c rd) :
    Answered data asks (evs ++ more) c rd := by
  obtain ⟨out, status, headers, body, sent, fetched, buffered, rest⟩ := first
  exact ⟨out, status, headers, body, sent, List.mem_append_left _ fetched,
    List.mem_append_left _ buffered, rest⟩

theorem history_more (hist : History data asks evs s) : History data asks (evs ++ more) s := by
  constructor
  · intro i status stage
    obtain ⟨out, headers, sent, kept, fetched, bounds⟩ := hist.buffering i status stage
    exact ⟨out, headers, sent, kept, List.mem_append_left _ fetched, bounds⟩
  · intro i status value stage
    obtain ⟨rd, made, same, built⟩ := hist.storing i status value stage
    exact ⟨rd, made, same, answered_more built⟩
  · intro n value there
    obtain ⟨c, rd, called, same, built⟩ := hist.stored n value there
    exact ⟨c, rd, called, same, answered_more built⟩
  · intro i r received
    obtain ⟨c, rd, called, built, response⟩ := hist.given i r received
    exact ⟨c, rd, called, answered_more built, response⟩

theorem start_history (object : WorkerCacher.Cacher) (empty : object.storage.v = none) :
    History data asks [] (Service.start object) := by
  constructor
  · intro i status stage
    cases stage
  · intro i status value stage
    cases stage
  · intro n value there
    rw [show ((Service.start object).objects n).object = object from rfl, empty] at there
    cases there
  · intro i r received
    cases received

def Await.request : Await → Nat
  | .obtain i _ | .get i _ | .timeout i | .fetch i _ | .buffer i _ | .set i _ _
  | .text i _ | .deliver i => i

theorem shape_request (s : Service) (a : Await) : (shape data asks s a).request = a.request := by
  cases a <;> rfl

theorem record_objects (s : Service) (objects : Objects) (a : Await) :
    (record data asks s objects a).objects = objects := by
  cases a <;> rfl

theorem await_moved (moved : step settings data asks s (.await a) = some t) :
    ∃ u, WorkerFetch.step settings (s.objects (name asks a.request)) (shape data asks s a) =
        some u ∧
      t = record data asks s (Function.update s.objects (name asks a.request) u) a := by
  obtain ⟨objects, stepped, rfl⟩ := Option.map_eq_some_iff.mp moved
  obtain ⟨u, on, rfl⟩ := Option.map_eq_some_iff.mp stepped
  rw [shape_request] at on
  exact ⟨u, on, by rw [shape_request]⟩

theorem shape_fetched {status : Nat}
    (shaped : shape data asks s a = .fetch i (some status)) :
    ∃ out headers, WorkerHandler.outgoing vars (asks i).req (asks i).entry = .ok out ∧
      a = .fetch i (some (status, headers)) ∧
      sent asks i (some (status, headers)) = some (status, headers) := by
  cases a with
  | fetch j answer =>
    simp only [shape, WorkerFetch.Event.fetch.injEq] at shaped
    obtain ⟨rfl, told⟩ := shaped
    obtain ⟨⟨code, headers⟩, had, rfl⟩ := Option.map_eq_some_iff.mp told
    have kept := had
    unfold sent at had
    split at had
    · rename_i out made
      subst had
      exact ⟨out, headers, made, rfl, kept⟩
    · cases had
  | _ => cases shaped

theorem shape_built {value : Bytes} (shaped : shape data asks s a = .buffer i (some value)) :
    ∃ rd body status headers, a = .buffer i (some body) ∧
      built data asks s i (some body) = some rd ∧ value = rd.toBytes data ∧
      s.upstream i = some (status, headers) ∧
      answer data status headers body (header (asks i).req.headers "response-headers")
        (header (asks i).req.headers "x-json-mask") = .ok rd := by
  cases a with
  | buffer j body =>
    simp only [shape, WorkerFetch.Event.buffer.injEq] at shaped
    obtain ⟨rfl, told⟩ := shaped
    obtain ⟨rd, made, rfl⟩ := Option.map_eq_some_iff.mp told
    have whole := made
    unfold built at made
    obtain ⟨⟨status, headers⟩, had, rest⟩ := Option.bind_eq_some_iff.mp made
    obtain ⟨bytes, read, answered⟩ := Option.bind_eq_some_iff.mp rest
    subst read
    refine ⟨rd, bytes, status, headers, rfl, whole, rfl, had, ?_⟩
    revert answered
    cases answer data status headers bytes (header (asks j).req.headers "response-headers")
      (header (asks j).req.headers "x-json-mask") with
    | error err => simp [Except.toOption]
    | ok rd' => simp [Except.toOption]
  | _ => cases shaped

theorem upstream_kept (s : Service) (objects : Objects)
    (other : ∀ answer, a ≠ .fetch i answer) :
    (record data asks s objects a).upstream i = s.upstream i := by
  cases a with
  | fetch j answer =>
    have differ : i ≠ j := by
      rintro rfl
      exact other answer rfl
    exact Function.update_of_ne differ _ _
  | _ => rfl

theorem made_kept (s : Service) (objects : Objects) (other : ∀ body, a ≠ .buffer i body) :
    (record data asks s objects a).made i = s.made i := by
  cases a with
  | buffer j body =>
    have differ : i ≠ j := by
      rintro rfl
      exact other body rfl
    exact Function.update_of_ne differ _ _
  | _ => rfl

theorem give_some {given : Nat → Option Response} {j : Nat} {res : Option Response} {r : Response}
    (received : give given j res i = some r) : given i = some r ∨ (i = j ∧ res = some r) := by
  unfold give at received
  split at received
  · by_cases mine : i = j
    · subst mine
      rw [Function.update_self] at received
      exact Or.inr ⟨rfl, received⟩
    · rw [Function.update_of_ne mine] at received
      exact Or.inl received
  · exact Or.inl received

theorem to_option_some {ε α : Type} {first : Except ε α} {r : α} (made : first.toOption = some r) :
    first = .ok r := by
  cases first with
  | error err => cases made
  | ok r' => exact congrArg Except.ok (Option.some.inj made)

/-- A client is given a response by its poll, of what it found, or by its own `set`. -/
theorem record_given {r : Response}
    (received : (record data asks s objects a).given i = some r) :
    s.given i = some r ∨
      (∃ value, (s.objects (name asks i)).object.storage.v = some value ∧
        replay data value = .ok r) ∨
      ∃ now rd, a = .set i now .answered ∧ s.made i = some rd ∧ rd.toResponse = .ok r := by
  cases a with
  | get j rpc =>
    rcases give_some received with before | ⟨rfl, found⟩
    · exact Or.inl before
    · unfold polled at found
      split at found
      · split at found
        · rename_i value read
          unfold WorkerCacher.get at read
          split at read
          · cases read
          · split at read
            · cases read
            · exact Or.inr (Or.inl ⟨value, Except.ok.inj read, to_option_some found⟩)
        · cases found
      · cases found
  | set j now rpc =>
    have kept : (if rpc = .answered then give s.given j (stored s j) else s.given) i = some r :=
      received
    split at kept
    · rename_i answered
      rcases give_some kept with before | ⟨rfl, own⟩
      · exact Or.inl before
      · obtain ⟨rd, made, response⟩ := Option.bind_eq_some_iff.mp own
        exact Or.inr (Or.inr ⟨now, rd, answered ▸ rfl, made, to_option_some response⟩)
    · exact Or.inl kept
  | _ => exact Or.inl received

theorem await_history (hist : History data asks evs s)
    (moved : step settings data asks s (.await a) = some t) :
    History data asks (evs ++ [.await a]) t := by
  obtain ⟨u, on, rfl⟩ := await_moved moved
  have longer : History data asks (evs ++ [.await a]) s := history_more hist
  have last : Event.await a ∈ evs ++ [.await a] := List.mem_append_right _ List.mem_cons_self
  have own : ∀ {e : WorkerFetch.Event}, shape data asks s a = e → e.request = a.request := by
    rintro e rfl
    exact shape_request s a
  constructor
  · intro i status stage
    rw [record_objects] at stage
    by_cases here : name asks i = name asks a.request
    · rw [here, Function.update_self] at stage
      rcases step_buffering on stage with before | ⟨shaped, bounds⟩
      · rw [← here] at before
        obtain ⟨out, headers, sent, kept, rest⟩ := longer.buffering i status before
        refine ⟨out, headers, sent, ?_, rest⟩
        rw [upstream_kept, kept]
        rintro answer rfl
        obtain ⟨fetching, _⟩ := step_fetch on
        rw [← here, before] at fetching
        cases fetching
      · obtain ⟨out, headers, sent, rfl, kept⟩ := shape_fetched shaped
        refine ⟨out, headers, sent, ?_, last, bounds⟩
        exact (Function.update_self i _ s.upstream).trans kept
    · rw [Function.update_of_ne here] at stage
      obtain ⟨out, headers, sent, kept, rest⟩ := longer.buffering i status stage
      refine ⟨out, headers, sent, ?_, rest⟩
      rw [upstream_kept, kept]
      rintro answer rfl
      exact here rfl
  · intro i status value stage
    rw [record_objects] at stage
    by_cases here : name asks i = name asks a.request
    · rw [here, Function.update_self] at stage
      rcases step_storing on stage with before | ⟨shaped, buffering⟩
      · rw [← here] at before
        obtain ⟨rd, made, rest⟩ := longer.storing i status value before
        refine ⟨rd, ?_, rest⟩
        rw [made_kept, made]
        rintro body rfl
        have holds := on
        simp only [shape, WorkerFetch.step] at holds
        rw [← here, before] at holds
        cases holds
      · obtain ⟨rd, body, code, headers, rfl, whole, same, had, built⟩ := shape_built shaped
        rw [← here] at buffering
        obtain ⟨out, headers', sent, kept, fetched, bounds⟩ :=
          longer.buffering i status buffering
        rw [had] at kept
        cases kept
        exact ⟨rd, (Function.update_self i _ s.made).trans whole, same, out, status, headers, body,
          sent, fetched, last, bounds.1, bounds.2, built⟩
    · rw [Function.update_of_ne here] at stage
      obtain ⟨rd, made, rest⟩ := longer.storing i status value stage
      refine ⟨rd, ?_, rest⟩
      rw [made_kept, made]
      rintro body rfl
      exact here rfl
  · intro n value there
    rw [record_objects] at there
    by_cases here : n = name asks a.request
    · subst here
      rw [Function.update_self] at there
      rcases step_value on there with before | ⟨j, now, rpc, responds, status, shaped, storing⟩
      · exact longer.stored _ value before
      · have mine : j = a.request := own shaped
        subst mine
        obtain ⟨rd, _, same, built⟩ := longer.storing _ status value storing
        exact ⟨a.request, rd, rfl, same, built⟩
    · rw [Function.update_of_ne here] at there
      exact longer.stored n value there
  · intro i r received
    rcases record_given received with
      before | ⟨value, there, response⟩ | ⟨now, rd, rfl, made, response⟩
    · exact longer.given i r before
    · obtain ⟨c, rd, called, rfl, built⟩ := longer.stored _ value there
      exact ⟨c, rd, called, built, Or.inr response⟩
    · have holds := on
      simp only [shape, WorkerFetch.step, Await.request] at holds
      split at holds
      · rename_i status value storing
        obtain ⟨rd', made', _, built⟩ := longer.storing i status value storing
        cases made.symm.trans made'
        exact ⟨i, rd, rfl, built, Or.inl response⟩
      · cases holds

theorem object_history {n : String} {e : WorkerCacher.Event} {event : Event}
    (own : (∃ now, e = .alarm now) ∨ ∃ now, e = .evict now) (hist : History data asks evs s)
    (moved : onObject settings s n e = some t) : History data asks (evs ++ [event]) t := by
  obtain ⟨object, changed, rfl⟩ := Option.map_eq_some_iff.mp moved
  have longer : History data asks (evs ++ [event]) s := history_more hist
  have value : ∀ v, object.storage.v = some v → (s.objects n).object.storage.v = some v := by
    intro v there
    rcases own with ⟨now, rfl⟩ | ⟨now, rfl⟩
    · simp only [WorkerCacher.step] at changed
      split at changed
      · split at changed
        · cases changed
          cases there
        · cases changed
      · cases changed
    · cases changed
      rw [(WorkerCacher.construct_storage _ _ _).1] at there
      exact there
  have stages : ∀ m, (Function.update s.objects n { s.objects n with object := object } m).stages =
      (s.objects m).stages := by
    intro m
    by_cases here : m = n
    · rw [here, Function.update_self]
    · rw [Function.update_of_ne here]
  constructor
  · intro i status stage
    rw [stages] at stage
    exact longer.buffering i status stage
  · intro i status v stage
    rw [stages] at stage
    exact longer.storing i status v stage
  · intro m v there
    by_cases here : m = n
    · subst here
      simp only [Function.update_self] at there
      exact longer.stored m v (value v there)
    · simp only [Function.update_of_ne here] at there
      exact longer.stored m v there
  · exact longer.given

theorem step_history {e : Event} (hist : History data asks evs s)
    (moved : step settings data asks s e = some t) : History data asks (evs ++ [e]) t := by
  cases e with
  | await a => exact await_history hist moved
  | alarm n now => exact object_history (Or.inl ⟨now, rfl⟩) hist moved
  | evict n now => exact object_history (Or.inr ⟨now, rfl⟩) hist moved

end Runs

section Sample
open WorkerResponse (sampleUpstream sampleAnswer)

def openEnv : WorkerHandler.Env := ⟨[], []⟩

def sampleHeaders : Headers where
  list := [("idempotency-key", "k1"), ("x-forwarded-host", "httpbin.org")]
  valid := by
    have key : Valid ("idempotency-key", "k1") := ⟨by decide, by decide, by decide⟩
    have host : Valid ("x-forwarded-host", "httpbin.org") := ⟨by decide, by decide, by decide⟩
    simp [key, host]
  trimmed := by
    have key : normalizeValue "k1" = "k1" := by decide
    have host : normalizeValue "httpbin.org" = "httpbin.org" := by decide
    simp [key, host]

def sampleAsked (_ : Nat) : Admitted WorkerHandler.sampleLibraries openEnv where
  req := ⟨"GET", ⟨"https://worker", "/get", ""⟩, sampleHeaders, none⟩
  now := WorkerAuth.startOfToken
  entry := ⟨"ANON", ⟨"https://httpbin.org", "/get", ""⟩, "ANON:GET:k1"⟩
  reached := by rfl

def sampleRun : List Event :=
  [.await (.obtain 0 .answered), .await (.obtain 1 .answered), .await (.get 1 .answered),
    .await (.fetch 0 (some (404, sampleUpstream))), .evict "ANON:GET:k1" 30,
    .await (.buffer 0 (some [104, 105])), .await (.set 0 40 .answered),
    .await (.get 1 .answered)]

def sampleSettings : WorkerFetch.Env := ⟨100, 10000, by decide⟩

theorem sample_answered {c : Nat} {rd : ResponseData}
    (made : Answered WorkerResponse.sampleLibraries sampleAsked sampleRun c rd) :
    rd = sampleAnswer 404 := by
  obtain ⟨_, status, headers, body, _, fetched, buffered, _, _, answered⟩ := made
  simp only [sampleRun, List.mem_cons, List.not_mem_nil, or_false, Event.await.injEq,
    Await.fetch.injEq, Await.buffer.injEq, Option.some.injEq, Prod.mk.injEq, reduceCtorEq,
    false_or] at fetched buffered
  obtain ⟨_, rfl, rfl⟩ := fetched
  obtain ⟨_, rfl⟩ := buffered
  exact Except.ok.inj (answered.symm.trans (WorkerResponse.sample_answer 404))

end Sample
end WorkerService
