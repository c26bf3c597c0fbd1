import IdempotentProxy.Canister.CallerRegistry
import IdempotentProxy.Canister.SequentialQuote
import IdempotentProxy.Canister.ParallelQuote

/-!
A proxy token leaves the canister in an outcall and nowhere else. Two canisters that are
told the same, and are given different tokens for their signatures, give the same replies
and the same answers to every query, at every moment. What an outcall brings back is part
of the event that resumes its call.
-/
namespace TokenSecrecy
open CallerRegistry CanisterEndpoints EventRuns
open CycleAccounting (InFlight)
open CycleCosts (Bytes HttpResponse)
open ProxyTokens (Agent Awaiting advance)

section Queries

def strip (a : Agent) : Agent := { a with proxyToken := none }

structure StateInfo where
  ecdsaKeyName : String
  proxyTokenPublicKey : String
  proxyTokenRefreshInterval : UInt64
  agents : List Agent
  managers : List Principal
  callers : Nat
  subnetSize : UInt64
  serviceFee : UInt64
  incomingCycles : U128
  uncollectibleCycles : U128
  cose : Option CoseClient

inductive Query where
  | stateInfo
  | callerInfo (id : Principal)
  | proxyHttpRequestCost (msg : Message)
  | parallelCallCost (msg : Message)

inductive Answer where
  | stateInfo (info : StateInfo)
  | callerInfo (account : Option (U128 × Nat))
  | cost (cycles : Nat)

/-- `len` is the map's. -/
def stateInfo (len : Callers → Nat) (s : CanisterState) : StateInfo where
  ecdsaKeyName := s.ecdsaKeyName
  proxyTokenPublicKey := s.proxyTokenPublicKey
  proxyTokenRefreshInterval := s.proxyTokenRefreshInterval
  agents := s.agents.map strip
  managers := s.managers
  callers := len s.callers
  subnetSize := s.subnetSize
  serviceFee := s.serviceFee
  incomingCycles := s.incomingCycles
  uncollectibleCycles := s.uncollectibleCycles
  cose := s.cose

def answer (len : Callers → Nat) (s : CanisterState) : Query → Answer
  | .stateInfo => .stateInfo (stateInfo len s)
  | .callerInfo id => .callerInfo (s.callers id)
  | .proxyHttpRequestCost msg => .cost (SequentialQuote.proxyHttpRequestCost s.toState msg)
  | .parallelCallCost msg => .cost (ParallelQuote.parallelCallCost s.toState msg)

end Queries
section Replies
variable (lib : Validator) (storable : Storable) (encode : List HttpResponse → Bytes)

inductive Reply where
  | response (res : HttpResponse)
  | done (result : Except String Unit)
  | added (result : Except String Bool)
  | trapped (text : String)

def sliceReply : Except String (Machine × Progress) → Option Reply
  | .error text => some (.trapped text)
  | .ok (_, .finished res) => some (.response res)
  | .ok (_, .waiting _) => none

def doneReply (result : Except String CanisterState) : Option Reply :=
  some (.done (result.map fun _ => ()))

/-- The manager hears of its agents when they are stored; for a refresh nobody listens. -/
def tokensReply : ProxyTokens.Progress → Option Reply
  | .awaiting _ => none
  | .finished _ => some (.done (.ok ()))

def reply (s : System) : Event → Option Reply
  | .proxy endpoint msg now => sliceReply (start endpoint msg now ⟨s.heap.toState, msg.attached⟩)
  | .resume n i outcome now =>
      (s.calls[n]?).bind fun f =>
        sliceReply (resume encode i outcome now ⟨s.heap.toState, f.available⟩ f.call)
  | .trap _ => some (.trapped "")
  | .addManagers sender args => doneReply (adminAddManagers lib sender args s.heap)
  | .removeManagers sender args => doneReply (adminRemoveManagers lib sender args s.heap)
  | .addCaller sender id => some (.added ((adminAddCaller sender id s.heap).map Prod.snd))
  | .addCallers sender args => doneReply (adminAddCallers lib sender args s.heap)
  | .removeCallers sender args => doneReply (adminRemoveCallers lib sender args s.heap)
  | .setAgents sender agents =>
      match isControllerOrManager sender s.heap with
      | .error text => some (.done (.error text))
      | .ok _ => if agents.isEmpty then some (.done (.error "agents cannot be empty")) else none
  | .refresh => none
  | .signed n token =>
      (s.refreshes[n]?).bind fun await =>
        match token with
        | none => some (.trapped "failed to sign proxy token")
        | some token => tokensReply (await.resume token)
  | .publicKey _ => none
  | .upgrade args => doneReply (postUpgrade storable (storable.toBytes s.heap) args)

structure Watched where
  system : System
  told : List (Option Reply)

def watchedStep (w : Watched) (e : Event) : Option Watched :=
  (step lib storable encode w.system e).map fun t =>
    ⟨t, w.told ++ [reply lib storable encode w.system e]⟩

end Replies

/-- The events differ in tokens at most. -/
inductive SameButToken : Event → Event → Prop where
  | same (e : Event) : SameButToken e e
  | signed (n : Nat) (token token' : String) :
      SameButToken (.signed n (some token)) (.signed n (some token'))

section Hiding

def hideState (s : State) : State := { s with agents := s.agents.map strip }

def hideHeap (s : CanisterState) : CanisterState := { s with agents := s.agents.map strip }

def hideMachine (m : Machine) : Machine := ⟨hideState m.state, m.available⟩

def hideCall : Call → Call
  | .proxy account req reqSize agent rest =>
      .proxy account req reqSize (strip agent) (rest.map strip)
  | call => call

def hideProgress : Progress → Progress
  | .finished res => .finished res
  | .waiting call => .waiting (hideCall call)

def hideSlice (slice : Machine × Progress) : Machine × Progress :=
  (hideMachine slice.1, hideProgress slice.2)

def hideInFlight (f : InFlight) : InFlight := ⟨hideCall f.call, f.available⟩

@[simp] theorem receive_hide (cycles : Nat) (ignoring : Bool) (m : Machine) :
    receiveCycles cycles ignoring (hideMachine m) =
      (receiveCycles cycles ignoring m).map hideMachine := by
  unfold receiveCycles
  split
  · rfl
  · dsimp only [hideMachine]
    split
    · split <;> rfl
    · rfl

theorem credit_hide (account : Account) (now : Nat) (m : Machine) :
    account.credit now (hideMachine m) = hideMachine (account.credit now m) := by
  unfold Account.credit updateCallerState
  simp only [hideMachine, hideState]
  cases m.state.callers account.caller <;> rfl

theorem bind_hide {received : Except String Machine}
    {next next' : Machine → Except String (Machine × Progress)}
    (same : ∀ n, next' (hideMachine n) = (next n).map hideSlice) :
    (received.map hideMachine >>= next') = (received >>= next).map hideSlice := by
  cases received with
  | error text => rfl
  | ok n => exact same n

theorem next_agent_hide (account : Account) (req : CycleCosts.CanisterHttpRequestArgument)
    (reqSize : UInt32) (lastErr : Option HttpResponse) (now : Nat) (m : Machine)
    (agents : List Agent) :
    nextAgent account req reqSize lastErr now (hideMachine m) (agents.map strip) =
      (nextAgent account req reqSize lastErr now m agents).map hideSlice := by
  cases agents with
  | nil =>
    cases lastErr with
    | none => rfl
    | some res =>
      simp only [List.map_nil, nextAgent, credit_hide]
      rfl
  | cons agent rest =>
    simp only [List.map_cons, nextAgent, receive_hide]
    exact bind_hide fun n => rfl

theorem start_hide (endpoint : Endpoint) (msg : Message) (now : Nat) (m : Machine) :
    start endpoint msg now (hideMachine m) = (start endpoint msg now m).map hideSlice := by
  unfold start
  have allowed : isAllowed (hideMachine m).state msg.caller = isAllowed m.state msg.caller := rfl
  have agents : (hideMachine m).state.agents = m.state.agents.map strip := rfl
  rw [allowed, agents, List.isEmpty_map]
  split
  · rfl
  split
  · rfl
  cases endpoint with
  | proxyHttpRequest =>
    simp only [proxyHttpRequest, receive_hide]
    exact bind_hide fun n => next_agent_hide _ _ _ _ _ n m.state.agents
  | parallelCallAllOk =>
    simp only [parallelCallAllOk, receive_hide, List.length_map, List.map_map]
    exact bind_hide fun n => rfl
  | parallelCallAnyOk =>
    simp only [parallelCallAnyOk, receive_hide, List.length_map]
    exact bind_hide fun n => rfl

theorem credited_hide (account : Account) (cycles now : Nat) (m : Machine) (res : HttpResponse) :
    (receiveCycles cycles true (hideMachine m) >>= fun n =>
      (Except.ok (account.credit now n, .finished res) : Except String (Machine × Progress))) =
    (receiveCycles cycles true m >>= fun n =>
      (Except.ok (account.credit now n, .finished res) : Except String _)).map hideSlice := by
  rw [receive_hide]
  refine bind_hide fun n => ?_
  rw [credit_hide]
  rfl

theorem resume_hide (encode : List HttpResponse → Bytes) (i : Nat) (outcome : Outcome) (now : Nat)
    (m : Machine) (call : Call) :
    resume encode i outcome now (hideMachine m) (hideCall call) =
      (resume encode i outcome now m call).map hideSlice := by
  cases call with
  | proxy account req reqSize agent rest =>
    cases outcome with
    | ok res => exact credited_hide account _ now m res
    | error res => exact next_agent_hide account req reqSize (some res) now m rest
  | all account results =>
    cases outcome with
    | error res =>
      simp only [hideCall, resume, credit_hide]
      rfl
    | ok res =>
      simp only [hideCall, resume]
      split
      · rfl
      · exact credited_hide account _ now m _
  | any account duplicates pending =>
    cases outcome with
    | ok res => exact credited_hide account _ now m res
    | error res =>
      simp only [hideCall, resume, credit_hide]
      split <;> rfl

theorem validated_hide {lib : Validator} {guarded : Except String Unit} {args : List Principal}
    {heap hidden : CanisterState} (same : hidden = hideHeap heap) :
    (do
      guarded
      lib.validatePrincipals args
      return hidden : Except String CanisterState) =
    (do
      guarded
      lib.validatePrincipals args
      return heap : Except String CanisterState).map hideHeap := by
  subst same
  cases guarded with
  | error text => rfl
  | ok _ => cases lib.validatePrincipals args <;> rfl

theorem add_caller_hide (sender : Sender) (id : Principal) (h : CanisterState) :
    adminAddCaller sender id (hideHeap h) =
      (adminAddCaller sender id h).map fun done => (hideHeap done.1, done.2) := by
  unfold adminAddCaller
  have guarded : isControllerOrManager sender (hideHeap h) = isControllerOrManager sender h := rfl
  rw [guarded]
  cases isControllerOrManager sender h with
  | error text => rfl
  | ok _ =>
    simp only [bind, Except.bind]
    split <;> rfl

theorem migrate_hide (h : CanisterState) : migrate (hideHeap h) = hideHeap (migrate h) := by
  unfold migrate
  have legacy : (hideHeap h).allowedCallers = h.allowedCallers := rfl
  rw [legacy]
  split <;> rfl

theorem post_upgrade_hide (storable : Storable) (h : CanisterState) (args : Option ChainArgs) :
    postUpgrade storable (storable.toBytes (hideHeap h)) args =
      (postUpgrade storable (storable.toBytes h) args).map hideHeap := by
  unfold postUpgrade
  rw [storable.round_trip, storable.round_trip]
  match args with
  | none => simp only [migrate_hide]; rfl
  | some .init => rfl
  | some (.upgrade args) =>
    simp only [migrate_hide]
    unfold upgradeSettings
    cases args.proxyTokenRefreshInterval with
    | none => rfl
    | some interval =>
      dsimp only
      split <;> rfl

/-- A suspended refresh without its tokens; which names have one shows in what it asks next. -/
structure HiddenAwait where
  done : List Agent
  agent : Agent
  rest : List Agent
  signed : String → Bool

def hideAwait (await : Awaiting) : HiddenAwait :=
  ⟨await.done.map strip, strip await.agent, await.rest.map strip,
    fun name => (await.tokens name).isSome⟩

inductive TokensAlike : ProxyTokens.Progress → ProxyTokens.Progress → Prop where
  | awaiting {await await' : Awaiting} (same : hideAwait await = hideAwait await') :
      TokensAlike (.awaiting await) (.awaiting await')
  | finished {agents agents' : List Agent} (same : agents.map strip = agents'.map strip) :
      TokensAlike (.finished agents) (.finished agents')

theorem strip_name {a b : Agent} (same : strip a = strip b) : a.name = b.name := by
  have name : (strip a).name = (strip b).name := congrArg Agent.name same
  exact name

theorem strip_with_token {a b : Agent} (same : strip a = strip b) (token token' : String) :
    strip (a.withToken token) = strip (b.withToken token') := by
  simpa [strip, Agent.withToken] using same

theorem advance_alike {tokens tokens' : String → Option String} {done done' rest rest' : List Agent}
    (table : ∀ name, (tokens name).isSome = (tokens' name).isSome)
    (before : done.map strip = done'.map strip) (left : rest.map strip = rest'.map strip) :
    TokensAlike (advance tokens done rest) (advance tokens' done' rest') := by
  induction rest generalizing done done' rest' with
  | nil =>
    cases rest' with
    | nil => exact .finished before
    | cons b rest' => cases left
  | cons a rest ih =>
    cases rest' with
    | nil => cases left
    | cons b rest' =>
      obtain ⟨same, others⟩ := List.cons.inj left
      have name : a.name = b.name := strip_name same
      have known := table a.name
      cases first : tokens a.name with
      | some token =>
        rw [first] at known
        obtain ⟨token', second⟩ := Option.isSome_iff_exists.mp known.symm
        rw [name] at second
        simp only [advance, first, second]
        refine ih ?_ others
        rw [List.map_append, List.map_append, before]
        exact congrArg _ (congrArg (fun x => [x]) (strip_with_token same token token'))
      | none =>
        rw [first] at known
        have second := Option.isNone_iff_eq_none.mp (by simpa using known.symm)
        rw [name] at second
        simp only [advance, first, second]
        refine .awaiting ?_
        simp only [hideAwait, before, same, others]
        exact congrArg _ (funext table)

theorem resume_alike {await await' : Awaiting} (same : hideAwait await = hideAwait await')
    (token token' : String) : TokensAlike (await.resume token) (await'.resume token') := by
  obtain ⟨before, asked, left, table⟩ := HiddenAwait.mk.inj same
  have name : await.agent.name = await'.agent.name := strip_name asked
  refine advance_alike (fun other => ?_) ?_ left
  · have known := congrFun table other
    rw [name]
    by_cases here : other = await'.agent.name
    · subst here
      simp
    · rw [Function.update_of_ne here, Function.update_of_ne here]
      exact known
  · rw [List.map_append, List.map_append, before]
    exact congrArg _ (congrArg (fun x => [x]) (strip_with_token asked token token'))

end Hiding

/-- The canisters differ in tokens at most, of agents, of calls and of refreshes alike. -/
structure Alike (s s' : System) : Prop where
  heap : hideHeap s.heap = hideHeap s'.heap
  calls : s.calls.map hideInFlight = s'.calls.map hideInFlight
  refreshes : s.refreshes.map hideAwait = s'.refreshes.map hideAwait
  log : s.log = s'.log

section Steps
variable {lib : Validator} {storable : Storable} {encode : List HttpResponse → Bytes}
  {s s' t : System} {e e' : Event}

def BothTell (lib : Validator) (storable : Storable) (encode : List HttpResponse → Bytes)
    (s s' : System) (e e' : Event) (t : System) : Prop :=
  ∃ t', step lib storable encode s' e' = some t' ∧ Alike t t' ∧
    reply lib storable encode s e = reply lib storable encode s' e'

theorem slice_reply_hide (result : Except String (Machine × Progress)) :
    sliceReply (result.map hideSlice) = sliceReply result := by
  cases result with
  | error text => rfl
  | ok slice =>
    obtain ⟨m, progress⟩ := slice
    cases progress <;> rfl

theorem slice_reply_alike {result result' : Except String (Machine × Progress)}
    (same : result.map hideSlice = result'.map hideSlice) :
    sliceReply result = sliceReply result' := by
  rw [← slice_reply_hide result, same, slice_reply_hide]

theorem map_alike {α β : Type} {f : α → β} {result result' : Except String α}
    (same : result.map f = result'.map f) :
    (∃ text, result = .error text ∧ result' = .error text) ∨
      ∃ a a', result = .ok a ∧ result' = .ok a' ∧ f a = f a' := by
  cases result with
  | error text =>
    cases result' with
    | error text' => exact Or.inl ⟨text, rfl, congrArg _ (Except.error.inj same).symm⟩
    | ok a' => cases same
  | ok a =>
    cases result' with
    | error text' => cases same
    | ok a' => exact Or.inr ⟨a, a', rfl, rfl, Except.ok.inj same⟩

theorem proceed_alike (alike : Alike s s') {others others' : List InFlight}
    (left : others.map hideInFlight = others'.map hideInFlight)
    {result result' : Except String (Machine × Progress)}
    (same : result.map hideSlice = result'.map hideSlice) :
    Alike (s.proceed others result) (s'.proceed others' result') := by
  rcases map_alike same with ⟨text, rfl, rfl⟩ | ⟨⟨m, progress⟩, ⟨m', progress'⟩, rfl, rfl, slices⟩
  · exact ⟨alike.heap, left, alike.refreshes, alike.log⟩
  · obtain ⟨machines, ends⟩ := Prod.mk.inj slices
    have states : hideState m.state = hideState m'.state := congrArg Machine.state machines
    have available : (hideMachine m).available = (hideMachine m').available :=
      congrArg Machine.available machines
    change m.available = m'.available at available
    have heap : hideHeap { s.heap with toState := m.state } =
        hideHeap { s'.heap with toState := m'.state } := by
      change ({ hideHeap s.heap with toState := hideState m.state } : CanisterState) =
        { hideHeap s'.heap with toState := hideState m'.state }
      rw [alike.heap, states]
    cases progress with
    | finished res =>
      cases progress' with
      | finished res' => exact ⟨heap, left, alike.refreshes, alike.log⟩
      | waiting call' => cases ends
    | waiting call =>
      cases progress' with
      | finished res' => cases ends
      | waiting call' =>
        have calls : hideCall call = hideCall call' := Progress.waiting.inj ends
        refine ⟨heap, ?_, alike.refreshes, alike.log⟩
        simp [System.proceed, left, hideInFlight, calls, available]

theorem done_reply_alike {result result' : Except String CanisterState}
    (same : result.map hideHeap = result'.map hideHeap) : doneReply result = doneReply result' := by
  rcases map_alike same with ⟨text, rfl, rfl⟩ | ⟨_, _, rfl, rfl, _⟩
  · rfl
  · rfl

theorem apply_alike (alike : Alike s s')
    (change : Principal → ChangeLog.Change Principal) (ids : List Principal)
    {result result' : Except String CanisterState}
    (same : result.map hideHeap = result'.map hideHeap) :
    Alike (s.apply change ids result) (s'.apply change ids result') := by
  rcases map_alike same with ⟨text, rfl, rfl⟩ | ⟨heap, heap', rfl, rfl, heaps⟩
  · exact alike
  · exact ⟨heaps, alike.calls, alike.refreshes, congrArg (ChangeLog.record change ids) alike.log⟩

theorem settle_alike (alike : Alike s s') {others others' : List Awaiting}
    (left : others.map hideAwait = others'.map hideAwait)
    {progress progress' : ProxyTokens.Progress} (same : TokensAlike progress progress') :
    Alike (s.settle others progress) (s'.settle others' progress') ∧
      tokensReply progress = tokensReply progress' := by
  cases same with
  | awaiting same =>
    refine ⟨⟨alike.heap, alike.calls, ?_, alike.log⟩, rfl⟩
    simp [System.settle, left, same]
  | @finished agents agents' same =>
    refine ⟨⟨?_, alike.calls, left, alike.log⟩, rfl⟩
    change ({ hideHeap s.heap with agents := agents.map strip } : CanisterState) =
      { hideHeap s'.heap with agents := agents'.map strip }
    rw [alike.heap, same]

theorem update_alike (alike : Alike s s') {agents agents' : List Agent}
    (same : agents.map strip = agents'.map strip) :
    Alike (s.updateProxyToken agents) (s'.updateProxyToken agents') := by
  have length := congrArg List.isEmpty same
  simp only [List.isEmpty_map] at length
  unfold System.updateProxyToken
  rw [length]
  split
  · exact alike
  · exact (settle_alike alike alike.refreshes (advance_alike (fun _ => rfl) rfl same)).1

theorem lookup_alike {α β : Type} {f : α → β} {xs ys : List α} (same : xs.map f = ys.map f)
    {n : Nat} {x : α} (found : xs[n]? = some x) : ∃ y, ys[n]? = some y ∧ f x = f y := by
  have there := congrArg (fun l => l[n]?) same
  simp only [List.getElem?_map, found, Option.map_some] at there
  obtain ⟨y, other, hidden⟩ := Option.map_eq_some_iff.mp there.symm
  exact ⟨y, other, hidden.symm⟩

theorem erase_alike {α β : Type} {f : α → β} {xs ys : List α} (same : xs.map f = ys.map f)
    (n : Nat) : (xs.eraseIdx n).map f = (ys.eraseIdx n).map f := by
  rw [← List.eraseIdx_map, same, List.eraseIdx_map]

theorem awaits_hide (i : Nat) (call : Call) : (hideCall call).awaits i = call.awaits i := by
  cases call <;> rfl

theorem resume_step_alike (alike : Alike s s') {n i now : Nat} {outcome : Outcome}
    (moved : step lib storable encode s (.resume n i outcome now) = some t) :
    BothTell lib storable encode s s' (.resume n i outcome now) (.resume n i outcome now) t := by
  simp only [step] at moved
  split at moved
  · cases moved
  · rename_i f found
    obtain ⟨f', found', same⟩ := lookup_alike alike.calls found
    have calls : hideCall f.call = hideCall f'.call := congrArg InFlight.call same
    have available : (hideInFlight f).available = (hideInFlight f').available :=
      congrArg InFlight.available same
    change f.available = f'.available at available
    split at moved
    · rename_i waits
      cases moved
      have waits' : f'.call.awaits i = true := by
        rw [← awaits_hide, ← calls, awaits_hide]
        exact waits
      have states : hideState s.heap.toState = hideState s'.heap.toState :=
        congrArg CanisterState.toState alike.heap
      have slices : (resume encode i outcome now ⟨s.heap.toState, f.available⟩ f.call).map
          hideSlice =
          (resume encode i outcome now ⟨s'.heap.toState, f'.available⟩ f'.call).map hideSlice := by
        rw [← resume_hide, ← resume_hide, calls]
        simp only [hideMachine, states, available]
      refine ⟨_, by simp only [step, found', if_pos waits'], proceed_alike alike
        (erase_alike alike.calls n) slices, ?_⟩
      simp only [reply, found, found', Option.bind_some]
      exact slice_reply_alike slices
    · cases moved

theorem handler_alike (alike : Alike s s') (change : Principal → ChangeLog.Change Principal)
    (ids : List Principal) (handler : CanisterState → Except String CanisterState)
    (hides : ∀ h, handler (hideHeap h) = (handler h).map hideHeap) :
    Alike (s.apply change ids (handler s.heap)) (s'.apply change ids (handler s'.heap)) ∧
      doneReply (handler s.heap) = doneReply (handler s'.heap) := by
  have results : (handler s.heap).map hideHeap = (handler s'.heap).map hideHeap := by
    rw [← hides, alike.heap, hides]
  exact ⟨apply_alike alike change ids results, done_reply_alike results⟩

theorem add_caller_alike (alike : Alike s s') (sender : Sender) (id : Principal) :
    Alike (s.apply .added [id] ((adminAddCaller sender id s.heap).map Prod.fst))
        (s'.apply .added [id] ((adminAddCaller sender id s'.heap).map Prod.fst)) ∧
      (adminAddCaller sender id s.heap).map Prod.snd =
        (adminAddCaller sender id s'.heap).map Prod.snd := by
  have results : (adminAddCaller sender id s.heap).map (fun done => (hideHeap done.1, done.2)) =
      (adminAddCaller sender id s'.heap).map fun done => (hideHeap done.1, done.2) := by
    rw [← add_caller_hide, alike.heap, add_caller_hide]
  rcases map_alike results with ⟨text, first, second⟩ | ⟨done, done', first, second, hidden⟩
  · rw [first, second]
    exact ⟨alike, rfl⟩
  · obtain ⟨heaps, news⟩ := Prod.mk.inj hidden
    rw [first, second]
    refine ⟨apply_alike alike _ _ ?_, congrArg Except.ok news⟩
    exact congrArg Except.ok heaps

theorem upgrade_alike (alike : Alike s s') (args : Option ChainArgs) :
    Alike (stepUpgrade storable s args) (stepUpgrade storable s' args) ∧
      doneReply (postUpgrade storable (storable.toBytes s.heap) args) =
        doneReply (postUpgrade storable (storable.toBytes s'.heap) args) := by
  have results : (postUpgrade storable (storable.toBytes s.heap) args).map hideHeap =
      (postUpgrade storable (storable.toBytes s'.heap) args).map hideHeap := by
    rw [← post_upgrade_hide, alike.heap, post_upgrade_hide]
  refine ⟨?_, done_reply_alike results⟩
  have legacy : (hideHeap s.heap).allowedCallers = (hideHeap s'.heap).allowedCallers :=
    congrArg CanisterState.allowedCallers alike.heap
  change s.heap.allowedCallers = s'.heap.allowedCallers at legacy
  unfold stepUpgrade
  rcases map_alike results with ⟨text, first, second⟩ | ⟨heap, heap', first, second, heaps⟩
  · rw [first, second]
    exact alike
  · rw [first, second, legacy, alike.log]
    exact ⟨heaps, rfl, rfl, rfl⟩

theorem step_alike (alike : Alike s s') (same : SameButToken e e')
    (moved : step lib storable encode s e = some t) :
    BothTell lib storable encode s s' e e' t := by
  cases same with
  | signed n token token' =>
    simp only [step] at moved
    split at moved
    · cases moved
    · rename_i await found
      cases moved
      obtain ⟨await', found', hidden⟩ := lookup_alike alike.refreshes found
      obtain ⟨next, told⟩ := settle_alike alike (erase_alike alike.refreshes n)
        (resume_alike hidden token token')
      refine ⟨_, by simp only [step, found'], next, ?_⟩
      simp only [reply, found, found', Option.bind_some]
      exact told
  | same =>
    cases e with
    | proxy endpoint msg now =>
      cases moved
      have states : hideState s.heap.toState = hideState s'.heap.toState :=
        congrArg CanisterState.toState alike.heap
      have slices : (start endpoint msg now ⟨s.heap.toState, msg.attached⟩).map hideSlice =
          (start endpoint msg now ⟨s'.heap.toState, msg.attached⟩).map hideSlice := by
        rw [← start_hide, ← start_hide]
        simp only [hideMachine, states]
      exact ⟨_, rfl, proceed_alike alike alike.calls slices, slice_reply_alike slices⟩
    | resume n i outcome now => exact resume_step_alike alike moved
    | trap n =>
      cases moved
      exact ⟨_, rfl, ⟨alike.heap, erase_alike alike.calls n, alike.refreshes, alike.log⟩, rfl⟩
    | addManagers sender args =>
      cases moved
      obtain ⟨next, told⟩ := handler_alike alike .added [] (adminAddManagers lib sender args)
        fun h => validated_hide rfl
      exact ⟨_, rfl, next, told⟩
    | removeManagers sender args =>
      cases moved
      obtain ⟨next, told⟩ := handler_alike alike .removed [] (adminRemoveManagers lib sender args)
        fun h => validated_hide rfl
      exact ⟨_, rfl, next, told⟩
    | addCaller sender id =>
      cases moved
      obtain ⟨next, told⟩ := add_caller_alike alike sender id
      exact ⟨_, rfl, next, congrArg (fun r => some (Reply.added r)) told⟩
    | addCallers sender args =>
      cases moved
      obtain ⟨next, told⟩ := handler_alike alike .added args (adminAddCallers lib sender args)
        fun h => validated_hide rfl
      exact ⟨_, rfl, next, told⟩
    | removeCallers sender args =>
      cases moved
      obtain ⟨next, told⟩ := handler_alike alike .removed args (adminRemoveCallers lib sender args)
        fun h => validated_hide rfl
      exact ⟨_, rfl, next, told⟩
    | setAgents sender agents =>
      have guarded : isControllerOrManager sender s.heap =
          isControllerOrManager sender s'.heap := by
        change isControllerOrManager sender (hideHeap s.heap) =
          isControllerOrManager sender (hideHeap s'.heap)
        rw [alike.heap]
      cases allowed : isControllerOrManager sender s.heap with
      | error text =>
        have refused := guarded.symm.trans allowed
        simp only [step, allowed] at moved
        cases moved
        exact ⟨s', by simp only [step, refused], alike, by simp only [reply, allowed, refused]⟩
      | ok _ =>
        have allowed' := guarded.symm.trans allowed
        simp only [step, allowed] at moved
        cases moved
        exact ⟨_, by simp only [step, allowed'], update_alike alike rfl,
          by simp only [reply, allowed, allowed']⟩
    | refresh =>
      cases moved
      have agents : (hideHeap s.heap).agents = (hideHeap s'.heap).agents :=
        congrArg (fun h => h.agents) alike.heap
      exact ⟨_, rfl, update_alike alike agents, rfl⟩
    | signed n token =>
      simp only [step] at moved
      split at moved
      · cases moved
      · rename_i await found
        obtain ⟨await', found', hidden⟩ := lookup_alike alike.refreshes found
        cases token with
        | none =>
          cases moved
          have next : Alike { s with refreshes := s.refreshes.eraseIdx n }
              { s' with refreshes := s'.refreshes.eraseIdx n } :=
            ⟨alike.heap, alike.calls, erase_alike alike.refreshes n, alike.log⟩
          refine ⟨_, by simp only [step, found'], next, ?_⟩
          simp only [reply, found, found', Option.bind_some]
        | some token =>
          cases moved
          obtain ⟨next, told⟩ := settle_alike alike (erase_alike alike.refreshes n)
            (resume_alike hidden token token)
          refine ⟨_, by simp only [step, found'], next, ?_⟩
          simp only [reply, found, found', Option.bind_some]
          exact told
    | publicKey key =>
      cases moved
      refine ⟨_, rfl, ⟨?_, alike.calls, alike.refreshes, alike.log⟩, rfl⟩
      have before : (hideHeap s.heap).proxyTokenPublicKey =
          (hideHeap s'.heap).proxyTokenPublicKey :=
        congrArg CanisterState.proxyTokenPublicKey alike.heap
      change s.heap.proxyTokenPublicKey = s'.heap.proxyTokenPublicKey at before
      change ({ hideHeap s.heap with
          proxyTokenPublicKey := key.getD s.heap.proxyTokenPublicKey } : CanisterState) =
        { hideHeap s'.heap with proxyTokenPublicKey := key.getD s'.heap.proxyTokenPublicKey }
      rw [alike.heap, before]
    | upgrade args =>
      cases moved
      obtain ⟨next, told⟩ := upgrade_alike alike args
      exact ⟨_, rfl, next, told⟩

end Steps

theorem answer_hide (len : Callers → Nat) (h : CanisterState) (q : Query) :
    answer len (hideHeap h) q = answer len h q := by
  cases q with
  | stateInfo =>
    have twice : strip ∘ strip = strip := rfl
    simp only [answer, stateInfo, hideHeap, List.map_map, twice]
  | callerInfo id => rfl
  | proxyHttpRequestCost msg => rfl
  | parallelCallCost msg =>
    have duplicates : ParallelQuote.duplicates (hideHeap h).toState =
        ParallelQuote.duplicates h.toState := congrArg UInt32.ofNat (List.length_map strip)
    simp only [answer, ParallelQuote.parallelCallCost, ParallelQuote.responseQuote, duplicates]
    rfl

section Runs
variable {lib : Validator} {storable : Storable} {encode : List HttpResponse → Bytes}

theorem run_alike {w w' u : Watched} {evs evs' : List Event} (alike : Alike w.system w'.system)
    (told : w.told = w'.told) (same : List.Forall₂ SameButToken evs evs')
    (accepted : run (watchedStep lib storable encode) w evs = some u) :
    ∃ u', run (watchedStep lib storable encode) w' evs' = some u' ∧ Alike u.system u'.system ∧
      u.told = u'.told := by
  induction same generalizing w w' with
  | nil =>
    cases accepted
    exact ⟨w', rfl, alike, told⟩
  | @cons e e' evs evs' event others ih =>
    obtain ⟨m, first, rest⟩ := run_cons_iff.mp accepted
    obtain ⟨t, moved, shape⟩ := Option.map_eq_some_iff.mp first
    subst shape
    obtain ⟨t', moved', next, replied⟩ := step_alike alike event moved
    let m' : Watched := ⟨t', w'.told ++ [reply lib storable encode w'.system e']⟩
    have second : watchedStep lib storable encode w' e' = some m' :=
      Option.map_eq_some_iff.mpr ⟨t', moved', rfl⟩
    have alike' : Alike t m'.system := next
    obtain ⟨u', reached, last⟩ := ih alike' (by rw [told, replied]) rest
    exact ⟨u', run_cons_iff.mpr ⟨m', second, reached⟩, last⟩

/-- Whatever tokens were stored and whatever the signatures bring: all that anybody is ever
    told, and the answer to every query at every moment, are the same. -/
theorem tokens_stay_inside {stored stored' : CanisterState}
    (same : hideHeap stored = hideHeap stored') {evs evs' : List Event}
    (events : List.Forall₂ SameButToken evs evs') {w : Watched}
    (accepted : run (watchedStep lib storable encode) ⟨.start stored, []⟩ evs = some w) :
    ∃ w', run (watchedStep lib storable encode) ⟨.start stored', []⟩ evs' = some w' ∧
      w'.told = w.told ∧
      ∀ len q, answer len w'.system.heap q = answer len w.system.heap q := by
  have legacy : (hideHeap stored).allowedCallers = (hideHeap stored').allowedCallers :=
    congrArg CanisterState.allowedCallers same
  change stored.allowedCallers = stored'.allowedCallers at legacy
  let w₀ : Watched := ⟨.start stored, []⟩
  let w₀' : Watched := ⟨.start stored', []⟩
  have begun : Alike w₀.system w₀'.system := by
    refine ⟨?_, rfl, rfl, congrArg (fun ids => ChangeLog.record .added ids []) legacy⟩
    change hideHeap (migrate stored) = hideHeap (migrate stored')
    rw [← migrate_hide, same, migrate_hide]
  obtain ⟨w', reached, alike, told⟩ := run_alike begun rfl events accepted
  refine ⟨w', reached, told.symm, fun len q => ?_⟩
  rw [← answer_hide len w'.system.heap, ← alike.heap, answer_hide]

end Runs
section Sample

def sampleEvents (first second : String) : List Event :=
  [.refresh, .signed 0 (some first), .proxy .proxyHttpRequest
      ⟨[2], ⟨"URL_A", none, [], none⟩, 200, 0⟩ 0,
    .resume 0 0 (.error ⟨503, [], []⟩) 1, .setAgents ⟨[9], false⟩ [⟨"B", "URL_B", 0, none⟩],
    .signed 0 (some second)]

def sampleStep : Watched → Event → Option Watched :=
  watchedStep sampleValidator sampleStorable fun _ => []

theorem sample_tokens_inside : ∃ w w',
    run sampleStep ⟨.start sampleStored, []⟩ (sampleEvents "t1" "t2") = some w ∧
      run sampleStep ⟨.start sampleStored, []⟩ (sampleEvents "u1" "u2") = some w' ∧
      w'.told = w.told ∧
      ∀ len q, answer len w'.system.heap q = answer len w.system.heap q := by
  have accepts : (run sampleStep ⟨.start sampleStored, []⟩
      (sampleEvents "t1" "t2")).isSome = true := by decide +kernel
  obtain ⟨w, accepted⟩ := Option.isSome_iff_exists.mp accepts
  have events : List.Forall₂ SameButToken (sampleEvents "t1" "t2") (sampleEvents "u1" "u2") :=
    .cons (.same _) (.cons (.signed 0 "t1" "u1") (.cons (.same _) (.cons (.same _)
      (.cons (.same _) (.cons (.signed 0 "t2" "u2") .nil)))))
  obtain ⟨w', reached, told, answers⟩ := tokens_stay_inside rfl events accepted
  exact ⟨w, w', accepted, reached, told, answers⟩

end Sample
end TokenSecrecy
