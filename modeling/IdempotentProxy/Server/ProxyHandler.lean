import IdempotentProxy.Foundations.EventRuns
import IdempotentProxy.Server.HybridCacher
import IdempotentProxy.Server.ResponseData

/-!
The handler `proxy` of the Rust server from its `obtain` on, any number of requests
taking their steps in any order under one clock. Each await is an event that
carries what the client body, the upstream or the cache did; `?` after an await or
a fallible call returns the error at once. `creator`, `since`, `wrote` and `served`
record, for the statements: whose `obtain` last stored a key's entry and when, what
a request gave to `set`, and which lease's entry a polling request was served.
-/
namespace ProxyHandler
open ExpiringStore EventRuns HybridCache CachedResponse
open RedisCache (Fault)

structure Request where
  idempotencyKey : String
  isSafe : Bool
  jsonMask : String
  responseHeaders : String

abbrev Reply := Except (Nat × String) ResponseData
abbrev Headers := List (String × Option String)

def badGateway (text : String) : Reply := .error (502, text)

inductive Stage (libs : Libraries) where
  | arrived
  | polling (counter : Nat)
  | readingBody
  | executing
  | receiving (status : Nat) (headers : Headers)
  | storing (rd : ResponseData) (data : Bytes) (serialised : libs.toBytes rd = .ok data)
  | dropping (status : Nat) (text : String)
  | returned (reply : Reply)

/-- Past an `obtain` that returned `Ok(true)`, before the handler returns. -/
def Stage.holding {libs : Libraries} : Stage libs → Bool
  | .readingBody | .executing | .receiving .. | .storing .. | .dropping .. => true
  | _ => false

def Stage.isReturned {libs : Libraries} : Stage libs → Bool
  | .returned _ => true
  | _ => false

structure System (libs : Libraries) where
  cacher : CacherEntry
  clock : Nat
  stages : Nat → Stage libs
  creator : String → Option Nat
  since : Nat → Nat
  wrote : Nat → Option Bytes
  served : Nat → Option (Nat × Bytes)

inductive Action where
  | obtain (i : Nat) (fault : Fault)
  | poll (i : Nat) (fault : Fault)
  | pollTimeout (i : Nat)
  | readBody (i : Nat) (read : Except String Unit)
  | execute (i : Nat) (answer : Except String (Nat × Headers))
  | receive (i : Nat) (body : Except String Bytes)
  | set (i : Nat) (fault : Fault)
  | del (i : Nat) (fault : Fault)
  | clean

structure Event where
  now : Nat
  action : Action

def System.start (libs : Libraries) (backend : Backend) : System libs :=
  ⟨CacherEntry.start backend, 0, fun _ => .arrived, fun _ => none, fun _ => 0, fun _ => none,
    fun _ => none⟩

variable {libs : Libraries}

def System.move (s : System libs) (i : Nat) (stage : Stage libs) : System libs :=
  { s with stages := Function.update s.stages i stage }

def respond (req : Request) (status : Nat) (headers : Headers) (body : Bytes) : Stage libs :=
  if 200 ≤ status ∧ status ≤ 500 then
    let rd := (ResponseData.new status).withHeaders headers req.responseHeaders
    match rd.withBody libs body req.jsonMask with
    | .error text => .returned (badGateway text)
    | .ok rd =>
        match serialised : libs.toBytes rd with
        | .error text => .returned (badGateway text)
        | .ok data => .storing rd data serialised
  else .dropping status (libs.fromUtf8Lossy body)

/-- The handler's steps that touch neither the cache nor another request. -/
def advance (req : Request) : Stage libs → Action → Option (Stage libs)
  | .polling 0, .pollTimeout _ => some (.returned (badGateway "polling get cache timeout"))
  | .readingBody, .readBody _ (.ok ()) => some .executing
  | .readingBody, .readBody _ (.error text) => some (.returned (.error (400, text)))
  | .executing, .execute _ (.ok (status, headers)) => some (.receiving status headers)
  | .executing, .execute _ (.error text) => some (.returned (badGateway text))
  | .receiving status headers, .receive _ (.ok body) => some (respond req status headers body)
  | .receiving _ _, .receive _ (.error text) => some (.returned (badGateway text))
  | _, _ => none

variable (settings : Settings) (requests : Nat → Request)

def stepObtain (s : System libs) (i now : Nat) (fault : Fault) : System libs :=
  let key := (requests i).idempotencyKey
  let (cacher, reply) := obtain s.cacher key settings.cacheTtl now fault
  let s := { s with cacher := cacher
                    creator := if view cacher key = view s.cacher key then s.creator
                      else Function.update s.creator key (some i) }
  match reply with
  | .error text => s.move i (.returned (badGateway text))
  | .ok false => s.move i (.polling (settings.cacheTtl / settings.pollInterval))
  | .ok true =>
      { s.move i (if (requests i).isSafe then .executing else .readingBody) with
        since := Function.update s.since i now }

def replay (libs : Libraries) (data : Bytes) : Reply :=
  match libs.tryFrom data with
  | .error text => badGateway text
  | .ok rd => .ok rd

def stepPoll (s : System libs) (i counter now : Nat) (fault : Fault) : System libs :=
  let key := (requests i).idempotencyKey
  match pollTurn s.cacher key now fault with
  | .error text => s.move i (.returned (badGateway text))
  | .ok none => s.move i (.polling counter)
  | .ok (some data) =>
      { s.move i (.returned (replay libs data)) with
        served := Function.update s.served i ((s.creator key).map fun c => (c, data)) }

/-- `Ok(false)`, a `SET XX` that found no key, counts as stored. -/
def setReply (rd : ResponseData) : Except String Bool → Reply
  | .error text => badGateway text
  | .ok _ => .ok rd

def stepSet (s : System libs) (i : Nat) (rd : ResponseData) (data : Bytes) (now : Nat)
    (fault : Fault) : System libs :=
  let (cacher, reply) := set s.cacher (requests i).idempotencyKey data settings.cacheTtl now fault
  { s with cacher := cacher, wrote := Function.update s.wrote i (some data) }.move i
    (.returned (setReply rd reply))

def stepDel (s : System libs) (i status : Nat) (text : String) (fault : Fault) : System libs :=
  { s with cacher := (del s.cacher (requests i).idempotencyKey fault).1 }.move i
    (.returned (.error (status, text)))

def perform (s : System libs) (now : Nat) : Action → Option (System libs)
  | .obtain i fault =>
      match s.stages i with
      | .arrived => some (stepObtain settings requests s i now fault)
      | _ => none
  | .poll i fault =>
      match s.stages i with
      | .polling (counter + 1) => some (stepPoll requests s i counter now fault)
      | _ => none
  | .set i fault =>
      match s.stages i with
      | .storing rd data _ => some (stepSet settings requests s i rd data now fault)
      | _ => none
  | .del i fault =>
      match s.stages i with
      | .dropping status text => some (stepDel requests s i status text fault)
      | _ => none
  | .clean => some { s with cacher := clean now s.cacher }
  | .pollTimeout i => (advance (requests i) (s.stages i) (.pollTimeout i)).map (s.move i)
  | .readBody i read => (advance (requests i) (s.stages i) (.readBody i read)).map (s.move i)
  | .execute i answer => (advance (requests i) (s.stages i) (.execute i answer)).map (s.move i)
  | .receive i body => (advance (requests i) (s.stages i) (.receive i body)).map (s.move i)

def step (s : System libs) (e : Event) : Option (System libs) :=
  if s.clock ≤ e.now then
    (perform settings requests s e.now e.action).map fun t => { t with clock := e.now }
  else none

theorem obtain_stages (s : System libs) (i now : Nat) (fault : Fault) :
    ∃ stage, stage ≠ .arrived ∧ (stepObtain settings requests s i now fault).stages =
      Function.update s.stages i stage := by
  unfold stepObtain
  dsimp only
  split
  · exact ⟨_, by simp, rfl⟩
  · exact ⟨_, by simp, rfl⟩
  · exact ⟨_, by split <;> simp, rfl⟩

theorem obtain_cacher (s : System libs) (i now : Nat) (fault : Fault) :
    (stepObtain settings requests s i now fault).cacher =
      (obtain s.cacher (requests i).idempotencyKey settings.cacheTtl now fault).1 := by
  unfold stepObtain
  dsimp only
  split <;> rfl

theorem obtain_records (s : System libs) (i now : Nat) (fault : Fault) :
    (stepObtain settings requests s i now fault).wrote = s.wrote ∧
      (stepObtain settings requests s i now fault).served = s.served := by
  unfold stepObtain
  dsimp only
  split <;> exact ⟨rfl, rfl⟩

theorem poll_stages (s : System libs) (i counter now : Nat) (fault : Fault) :
    ∃ stage, stage ≠ .arrived ∧ (stepPoll requests s i counter now fault).stages =
      Function.update s.stages i stage := by
  unfold stepPoll
  dsimp only
  split
  · exact ⟨_, by simp, rfl⟩
  · exact ⟨_, by simp, rfl⟩
  · exact ⟨_, by simp, rfl⟩

theorem poll_cacher (s : System libs) (i counter now : Nat) (fault : Fault) :
    (stepPoll requests s i counter now fault).cacher = s.cacher := by
  unfold stepPoll
  dsimp only
  split <;> rfl

theorem respond_not_arrived (req : Request) (status : Nat) (headers : Headers) (body : Bytes) :
    respond req status headers body ≠ (.arrived : Stage libs) := by
  simp only [respond]
  split
  · split
    · simp
    · split <;> simp
  · simp

theorem advance_moves {req : Request} {stage next : Stage libs} {a : Action}
    (moved : advance req stage a = some next) :
    stage.isReturned = false ∧ next ≠ .arrived ∧
      (next.holding = true → stage.holding = true) := by
  unfold advance at moved
  split at moved
  all_goals first
    | cases moved; done
    | cases moved; exact ⟨rfl, respond_not_arrived _ _ _ _, fun _ => rfl⟩
    | cases moved; exact ⟨rfl, by simp, fun _ => rfl⟩
    | cases moved; exact ⟨rfl, by simp, fun held => by cases held⟩

section Inversion
variable {settings : Settings} {requests : Nat → Request} {s t : System libs} {i now : Nat}
  {fault : Fault}

theorem step_performed {e : Event} (moved : step settings requests s e = some t) :
    s.clock ≤ e.now ∧ ∃ u, perform settings requests s e.now e.action = some u ∧
      t = { u with clock := e.now } := by
  unfold step at moved
  split at moved
  · rename_i order
    obtain ⟨u, performed, same⟩ := Option.map_eq_some_iff.mp moved
    exact ⟨order, u, performed, same.symm⟩
  · cases moved

theorem perform_obtain (performed : perform settings requests s now (.obtain i fault) = some t) :
    s.stages i = .arrived ∧ t = stepObtain settings requests s i now fault := by
  simp only [perform] at performed
  split at performed
  · rename_i here
    cases performed
    exact ⟨here, rfl⟩
  · cases performed

theorem perform_poll (performed : perform settings requests s now (.poll i fault) = some t) :
    ∃ counter, s.stages i = .polling (counter + 1) ∧
      t = stepPoll requests s i counter now fault := by
  simp only [perform] at performed
  split at performed
  · rename_i counter here
    cases performed
    exact ⟨counter, here, rfl⟩
  · cases performed

theorem perform_set (performed : perform settings requests s now (.set i fault) = some t) :
    ∃ rd data serialised, s.stages i = .storing rd data serialised ∧
      t = stepSet settings requests s i rd data now fault := by
  simp only [perform] at performed
  split at performed
  · rename_i rd data serialised here
    cases performed
    exact ⟨rd, data, serialised, here, rfl⟩
  · cases performed

theorem perform_del (performed : perform settings requests s now (.del i fault) = some t) :
    ∃ status text, s.stages i = .dropping status text ∧
      t = stepDel requests s i status text fault := by
  simp only [perform] at performed
  split at performed
  · rename_i status text here
    cases performed
    exact ⟨status, text, here, rfl⟩
  · cases performed

theorem obtain_creator : (stepObtain settings requests s i now fault).creator =
    if view (obtain s.cacher (requests i).idempotencyKey settings.cacheTtl now fault).1
        (requests i).idempotencyKey = view s.cacher (requests i).idempotencyKey
      then s.creator
      else Function.update s.creator (requests i).idempotencyKey (some i) := by
  unfold stepObtain
  dsimp only
  split <;> rfl

theorem obtain_record (fault : Fault) {k : String}
    (same : view (stepObtain settings requests s i now fault).cacher k = view s.cacher k) :
    (stepObtain settings requests s i now fault).creator k = s.creator k := by
  rw [obtain_cacher] at same
  rw [obtain_creator]
  split
  · rfl
  · rename_i changed
    by_cases here : k = (requests i).idempotencyKey
    · rw [here] at same
      exact absurd same changed
    · exact Function.update_of_ne here _ _

theorem writer_holding (performed : perform settings requests s now (.set i fault) = some t ∨
      perform settings requests s now (.del i fault) = some t) :
    (s.stages i).holding = true := by
  rcases performed with stored | dropped
  · obtain ⟨_, _, _, here, _⟩ := perform_set stored
    rw [here]
    rfl
  · obtain ⟨_, _, here, _⟩ := perform_del dropped
    rw [here]
    rfl

/-- What a step does to the cache and to the record of its creators: nothing, or what one
    command or one cleaning run does. -/
theorem perform_cases {a : Action} (performed : perform settings requests s now a = some t) :
    (t.cacher = s.cacher ∧ t.creator = s.creator) ∨
      (∃ i fault, a = .obtain i fault ∧ s.stages i = .arrived ∧
        t = stepObtain settings requests s i now fault) ∨
      (∃ i fault rd data, a = .set i fault ∧ libs.toBytes rd = .ok data ∧
        t = stepSet settings requests s i rd data now fault) ∨
      (∃ i fault status text, a = .del i fault ∧ t = stepDel requests s i status text fault) ∨
      (a = .clean ∧ t = { s with cacher := clean now s.cacher }) := by
  have advanced : ∀ {i : Nat} {b : Action},
      (advance (requests i) (s.stages i) b).map (s.move i) = some t →
      t.cacher = s.cacher ∧ t.creator = s.creator := by
    intro i b went
    obtain ⟨next, _, same⟩ := Option.map_eq_some_iff.mp went
    subst same
    exact ⟨rfl, rfl⟩
  cases a with
  | obtain i fault =>
    obtain ⟨here, same⟩ := perform_obtain performed
    exact Or.inr (Or.inl ⟨i, fault, rfl, here, same⟩)
  | poll i fault =>
    obtain ⟨counter, _, same⟩ := perform_poll performed
    subst same
    refine Or.inl ⟨poll_cacher _ _ _ _ _ _, ?_⟩
    unfold stepPoll
    dsimp only
    split <;> rfl
  | set i fault =>
    obtain ⟨rd, data, serialised, _, same⟩ := perform_set performed
    exact Or.inr (Or.inr (Or.inl ⟨i, fault, rd, data, rfl, serialised, same⟩))
  | del i fault =>
    obtain ⟨status, text, _, same⟩ := perform_del performed
    exact Or.inr (Or.inr (Or.inr (Or.inl ⟨i, fault, status, text, rfl, same⟩)))
  | clean =>
    cases performed
    exact Or.inr (Or.inr (Or.inr (Or.inr ⟨rfl, rfl⟩)))
  | pollTimeout i => exact Or.inl (advanced performed)
  | readBody i read => exact Or.inl (advanced performed)
  | execute i answer => exact Or.inl (advanced performed)
  | receive i body => exact Or.inl (advanced performed)

end Inversion

def unusedLibraries : Libraries where
  Json := Empty
  parseJson := fun _ => .error "not called"
  jsonField := fun _ _ => none
  printJson := fun _ => .error "not called"
  Cbor := Empty
  parseCbor := fun _ => .error "not called"
  cborMap := fun _ => none
  cborText := fun _ => none
  printCborMap := fun _ => .error "not called"
  toBytes := fun _ => .error "not called"
  tryFrom := fun _ => .error "not called"
  to_bytes_long := by
    intro rd data serialised
    cases serialised
  fromUtf8Lossy := fun _ => ""

def defaults : Settings := Settings.read none none

def postRequest (_ : Nat) : Request := ⟨"ANON:POST:k1", false, "", ""⟩

end ProxyHandler
