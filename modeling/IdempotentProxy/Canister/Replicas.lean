import IdempotentProxy.Canister.Requests
import IdempotentProxy.Canister.TargetUrl
import IdempotentProxy.Server.IntoResponse
import IdempotentProxy.Server.OneCall
import IdempotentProxy.Server.Provenance

/-!
Why the outcalls of a subnet agree. Every replica of the canister sends the same request to
the agent's proxy, in its own time and over its own connection, and the subnet takes a
response only if the transform makes the same of all of them.
-/
namespace CanisterReplicas
open AccessControl (AppState HttpRequest accessAgent idempotencyKey proxy)
open CachedResponse EventRuns ProxyHandler
open CycleCosts (CanisterHttpRequestArgument HttpResponse)
open HttpHeaders (HeaderMap extractHeader)
open IntoResponse (intoResponse)
open OneCall (Called Follows GaveUp called_obtained follows_of_order)
open Ownership (WithinLease)
open Provenance (Answered Traced reply reply_returned run_traced)
open TargetUrl (arrival onWire)

def innerTransformResponse (response : HttpResponse) : HttpResponse :=
  { status := response.status, body := response.body, headers := [] }

/-- The outcall brings the server's reply, under whatever headers the way adds. -/
def Delivers (rd : ResponseData) (response : HttpResponse) : Prop :=
  ∃ reply, intoResponse rd = some reply ∧ response.status = reply.status ∧
    response.body = reply.body

def readHeaders : List String :=
  ["proxy-authorization", "x-forwarded-host", "idempotency-key", "x-json-mask", "response-headers"]

/-- The request arrived as it was sent, but for headers that `proxy` does not look up. -/
structure ArrivedAs (arrived sent : HttpRequest) : Prop where
  method : arrived.method = sent.method
  path : arrived.path = sent.path
  pathAndQuery : arrived.pathAndQuery = sent.pathAndQuery
  headers : ∀ name ∈ readHeaders,
    HttpHeaders.get arrived.headers name = HttpHeaders.get sent.headers name

section Keys
variable {libs : AccessControl.Libraries} {app : AppState libs} {req req' : HttpRequest}
  {unixMs unixMs' : UInt64}

theorem extract_header_congr {hm hm' : HeaderMap} {name : String}
    (same : HttpHeaders.get hm name = HttpHeaders.get hm' name) (default : String) :
    extractHeader hm name default = extractHeader hm' name default := by
  simp only [extractHeader, same]

theorem access_agent_same {agent agent' : String}
    (same : HttpHeaders.get req.headers "proxy-authorization" =
      HttpHeaders.get req'.headers "proxy-authorization")
    (granted : accessAgent app req unixMs = .ok agent)
    (granted' : accessAgent app req' unixMs' = .ok agent') : agent = agent' := by
  unfold accessAgent at granted granted'
  rw [extract_header_congr same] at granted
  split at granted
  · rename_i configured
    rw [if_pos configured] at granted'
    obtain ⟨data, token, written, read, _, _, named⟩ :=
      (AccessControl.verify_token_iff app).mp (Results.map_error_ok_iff.mp granted)
    obtain ⟨data', token', written', read', _, _, named'⟩ :=
      (AccessControl.verify_token_iff app).mp (Results.map_error_ok_iff.mp granted')
    rw [written] at written'
    rw [AccessControl.bearer_injective written', read'] at read
    rw [← named, ← named', Option.some.inj read]
  · rename_i unconfigured
    rw [if_neg unconfigured] at granted'
    cases granted
    cases granted'
    rfl

theorem proxy_same {entry entry' : AccessControl.Entry libs} (same : ArrivedAs req req')
    (reached : proxy app req unixMs = .ok entry) (reached' : proxy app req' unixMs' = .ok entry') :
    entry.request = entry'.request := by
  have read : ∀ name ∈ readHeaders, extractHeader req.headers name "" =
      extractHeader req'.headers name "" :=
    fun name mem => extract_header_congr (same.headers name mem) ""
  obtain ⟨agent, granted, rest⟩ := Results.bind_ok_iff.mp reached
  obtain ⟨agent', granted', rest'⟩ := Results.bind_ok_iff.mp reached'
  have agents := access_agent_same (same.headers _ (by simp [readHeaders])) granted granted'
  obtain ⟨_, _, rest⟩ := Results.bind_ok_iff.mp rest
  obtain ⟨_, _, rest'⟩ := Results.bind_ok_iff.mp rest'
  obtain ⟨_, _, rest⟩ := Results.bind_ok_iff.mp rest
  obtain ⟨_, _, rest'⟩ := Results.bind_ok_iff.mp rest'
  obtain ⟨_, _, rest⟩ := Results.bind_ok_iff.mp rest
  obtain ⟨_, _, rest'⟩ := Results.bind_ok_iff.mp rest'
  obtain ⟨key, found, made⟩ := Results.bind_ok_iff.mp rest
  obtain ⟨key', found', made'⟩ := Results.bind_ok_iff.mp rest'
  have keys : key = key' := by
    have looked : idempotencyKey req = idempotencyKey req' := by
      simp only [idempotencyKey, read "idempotency-key" (by simp [readHeaders])]
    rw [looked, found'] at found
    exact (Except.ok.inj found).symm
  cases made
  cases made'
  rw [agents, keys, same.method, read "x-json-mask" (by simp [readHeaders]),
    read "response-headers" (by simp [readHeaders])]

end Keys

/-- A server's request is a replica's: it came of the outcall, through every check. -/
def ReplicaOf {libs : AccessControl.Libraries} (app : AppState libs) (method : String)
    (outcall : CanisterHttpRequestArgument) (request : Request) : Prop :=
  ∃ sent arrived unixMs entry, arrival method outcall = some sent ∧ ArrivedAs arrived sent ∧
    proxy app arrived unixMs = .ok entry ∧ entry.request = request

theorem arrived_alike {req req' sent : HttpRequest} (same : ArrivedAs req sent)
    (same' : ArrivedAs req' sent) : ArrivedAs req req' :=
  ⟨same.method.trans same'.method.symm, same.path.trans same'.path.symm,
    same.pathAndQuery.trans same'.pathAndQuery.symm,
    fun name mem => (same.headers name mem).trans (same'.headers name mem).symm⟩

theorem replicas_ask_alike {libs : AccessControl.Libraries} {app : AppState libs} {method : String}
    {outcall : CanisterHttpRequestArgument} {request request' : Request}
    (replica : ReplicaOf app method outcall request)
    (replica' : ReplicaOf app method outcall request') : request = request' := by
  obtain ⟨sent, req, unixMs, entry, routed, same, reached, rfl⟩ := replica
  obtain ⟨sent', req', unixMs', entry', routed', same', reached', rfl⟩ := replica'
  cases routed.symm.trans routed'
  exact proxy_same (arrived_alike same same') reached reached'

section Writers
variable {libs : Libraries} {settings : HybridCache.Settings} {requests : Nat → Request}
  {backend : HybridCache.Backend} {evs : List Event} {s t : System libs} {i j now : Nat} {a : Action}

theorem perform_wrote (performed : perform settings requests s now a = some t)
    (other : ∀ fault, a ≠ .set i fault) : t.wrote i = s.wrote i := by
  have advanced : ∀ {k : Nat}, (advance (requests k) (s.stages k) a).map (s.move k) = some t →
      t.wrote i = s.wrote i := by
    intro k moved
    obtain ⟨next, _, rfl⟩ := Option.map_eq_some_iff.mp moved
    rfl
  cases a with
  | obtain k fault =>
    obtain ⟨_, rfl⟩ := perform_obtain performed
    rw [(obtain_records settings requests s k now fault).1]
  | poll k fault =>
    obtain ⟨counter, _, rfl⟩ := perform_poll performed
    unfold stepPoll
    dsimp only
    split <;> rfl
  | set k fault =>
    obtain ⟨rd, data, _, _, rfl⟩ := perform_set performed
    have differs : i ≠ k := by
      intro same
      subst same
      exact other fault rfl
    exact Function.update_of_ne differs _ _
  | del k fault =>
    obtain ⟨status, text, _, rfl⟩ := perform_del performed
    rfl
  | clean =>
    cases performed
    rfl
  | pollTimeout k => exact advanced performed
  | readBody k read => exact advanced performed
  | execute k answer => exact advanced performed
  | receive k body => exact advanced performed

def Dropped (evs : List Event) (s : System libs) : Prop :=
  ∀ i, GaveUp evs i → s.wrote i = none ∧ ∃ reply, s.stages i = .returned reply

theorem gave_up_more {e : Event} (gaveUp : GaveUp (evs ++ [e]) i) :
    GaveUp evs i ∨ ∃ fault, e.action = .del i fault := by
  obtain ⟨now, fault, mem⟩ := gaveUp
  rcases List.mem_append.mp mem with before | last
  · exact Or.inl ⟨now, fault, before⟩
  · rw [← List.mem_singleton.mp last]
    exact Or.inr ⟨fault, rfl⟩

theorem step_dropped {e : Event} (once : ∀ i v, s.wrote i = some v →
      (s.stages i).isReturned = true) (dropped : Dropped evs s)
    (moved : step settings requests s e = some t) : Dropped (evs ++ [e]) t := by
  intro i gaveUp
  obtain ⟨_, u, performed, same⟩ := step_performed moved
  rcases gave_up_more gaveUp with before | ⟨fault, drops⟩
  · obtain ⟨nothing, reply, ended⟩ := dropped i before
    refine ⟨?_, reply, WaitingDuplicates.step_returned moved ended⟩
    have other : ∀ fault, e.action ≠ .set i fault := by
      intro fault stores
      rw [stores] at performed
      obtain ⟨_, _, _, here, _⟩ := perform_set performed
      cases ended.symm.trans here
    subst same
    exact (perform_wrote performed other).trans nothing
  · have other : ∀ fault, e.action ≠ .set i fault := by
      intro fault stores
      cases drops.symm.trans stores
    have kept := perform_wrote performed other
    rw [drops] at performed
    obtain ⟨status, text, here, rfl⟩ := perform_del performed
    have busy : (s.stages i).isReturned = false := by
      rw [here]
      rfl
    subst same
    exact ⟨kept.trans (Ownership.not_written once busy), _, Function.update_self _ _ _⟩

theorem writer_kept (roundTrip : ∀ rd data, libs.toBytes rd = .ok data → libs.tryFrom data = .ok rd)
    (accepted : run (step settings requests) (System.start libs backend) evs = some t)
    {v : Bytes} (written : t.wrote i = some v) : ¬ GaveUp evs i := by
  have both : Traced requests evs t ∧ Dropped evs t := by
    refine run_history (I := fun evs s => Traced requests evs s ∧ Dropped evs s) ?_ ?_ accepted
    · intro past s e t inv moved
      exact ⟨Provenance.step_traced roundTrip inv.1 moved, step_dropped inv.1.1.once inv.2 moved⟩
    · refine ⟨Provenance.start_traced requests libs backend, fun i gaveUp => ?_⟩
      obtain ⟨now, fault, mem⟩ := gaveUp
      cases mem
  intro gaveUp
  rw [(both.2 i gaveUp).1] at written
  cases written

/-- All requests for the key come to `obtain` within a ttl. -/
def Within (settings : HybridCache.Settings) (requests : Nat → Request) (evs : List Event)
    (key : String) (opened : Nat) : Prop :=
  ∀ now i fault, ⟨now, .obtain i fault⟩ ∈ evs → (requests i).idempotencyKey = key →
    opened ≤ now ∧ now < opened + settings.cacheTtl

theorem one_writer {opened : Nat}
    (timely : Along (step settings requests) (WithinLease settings) (System.start libs backend) evs)
    (accepted : run (step settings requests) (System.start libs backend) evs = some t)
    (window : Within settings requests evs (requests i).idempotencyKey opened)
    (sameKey : (requests i).idempotencyKey = (requests j).idempotencyKey)
    (called : Called evs i ∧ Called evs j) (kept : ¬ GaveUp evs i ∧ ¬ GaveUp evs j) : i = j := by
  by_contra differ
  obtain ⟨before, a, ⟨u, _⟩, b, after, at_e, idle, holds, ⟨fault, rfl⟩, begun, whole⟩ :=
    called_obtained accepted called.1
  obtain ⟨before', a', ⟨u', _⟩, b', after', at_f, idle', holds', ⟨fault', rfl⟩, begun', whole'⟩ :=
    called_obtained accepted called.2
  have inside : ∀ {front rest : List Event} {m n : System libs} {e : Event},
      StepAt (step settings requests) (System.start libs backend) evs front m e n rest → e ∈ evs := by
    intro front rest m n e at_step
    rw [at_step.split]
    exact List.mem_append_right _ List.mem_cons_self
  obtain ⟨early, late⟩ := window u i fault (inside at_e) rfl
  obtain ⟨early', late'⟩ := window u' j fault' (inside at_f) sameKey.symm
  have apart : (⟨u, .obtain i fault⟩ : Event) ≠ ⟨u', .obtain j fault'⟩ := by
    intro same
    cases same
    exact differ rfl
  rcases step_at_order apart at_e at_f with ⟨mid, _, at_f'⟩ | ⟨mid, _, at_e'⟩
  · have follows := follows_of_order timely accepted sameKey kept.1 at_e holds begun whole at_f at_f'
      ⟨fault', rfl⟩ idle' holds' whole'
    have gap := follows.lease
    rw [whole, whole'] at gap
    dsimp only at gap
    omega
  · have follows := follows_of_order timely accepted sameKey.symm kept.2 at_f holds' begun' whole'
      at_e at_e' ⟨fault, rfl⟩ idle holds whole
    have gap := follows.lease
    rw [whole, whole'] at gap
    dsimp only at gap
    omega

theorem writer_called {rd : ResponseData} (answered : Answered libs requests evs i rd) :
    Called evs i := by
  obtain ⟨status, headers, _, ⟨now, executed⟩, _⟩ := answered
  exact ⟨now, .ok (status, headers), executed⟩

theorem replies_agree {opened : Nat} {rd rd' : ResponseData}
    (roundTrip : ∀ rd data, libs.toBytes rd = .ok data → libs.tryFrom data = .ok rd)
    (timely : Along (step settings requests) (WithinLease settings) (System.start libs backend) evs)
    (accepted : run (step settings requests) (System.start libs backend) evs = some t)
    (window : Within settings requests evs (requests i).idempotencyKey opened)
    (sameKey : (requests i).idempotencyKey = (requests j).idempotencyKey)
    (replied : t.stages i = .returned (.ok rd)) (replied' : t.stages j = .returned (.ok rd')) :
    rd = rd' := by
  have traced : Traced requests evs t := run_traced roundTrip accepted
  obtain ⟨_, hist⟩ := traced
  obtain ⟨c, v, key, written, read⟩ := hist.replied i rd replied
  obtain ⟨c', v', key', written', read'⟩ := hist.replied j rd' replied'
  obtain ⟨_, _, built⟩ := hist.wrote c v written
  obtain ⟨_, _, built'⟩ := hist.wrote c' v' written'
  rw [← key] at window
  have same : c = c' := one_writer timely accepted window (key.trans (sameKey.trans key'.symm))
    ⟨writer_called built, writer_called built'⟩
    ⟨writer_kept roundTrip accepted written, writer_kept roundTrip accepted written'⟩
  subst same
  rw [written] at written'
  rw [← Option.some.inj written'] at read'
  have back := roundTrip rd v read
  rw [roundTrip rd' v read'] at back
  exact (Except.ok.inj back).symm

end Writers

/-- The replicas of an outcall come to one response: any two of them that the server
    answers `Ok`, all within a ttl and whatever their own headers, agree after the
    transform. -/
theorem replicas_agree {libs : Libraries} {access : AccessControl.Libraries} {app : AppState access}
    {settings : HybridCache.Settings} {requests : Nat → Request} {backend : HybridCache.Backend}
    {evs : List Event} {t : System libs} {method : String} {outcall : CanisterHttpRequestArgument}
    {opened i j : Nat} {rd rd' : ResponseData} {response response' : HttpResponse}
    (roundTrip : ∀ rd data, libs.toBytes rd = .ok data → libs.tryFrom data = .ok rd)
    (timely : Along (step settings requests) (WithinLease settings) (System.start libs backend) evs)
    (accepted : run (step settings requests) (System.start libs backend) evs = some t)
    (replica : ReplicaOf app method outcall (requests i))
    (replica' : ReplicaOf app method outcall (requests j))
    (window : Within settings requests evs (requests i).idempotencyKey opened)
    (replied : t.stages i = .returned (.ok rd) ∧ Delivers rd response)
    (replied' : t.stages j = .returned (.ok rd') ∧ Delivers rd' response') :
    innerTransformResponse response = innerTransformResponse response' := by
  have asked : requests i = requests j := replicas_ask_alike replica replica'
  have same : rd = rd' := replies_agree roundTrip timely accepted window (by rw [asked]) replied.1
    replied'.1
  subst same
  obtain ⟨reply, sent, status, body⟩ := replied.2
  obtain ⟨reply', sent', status', body'⟩ := replied'.2
  rw [sent] at sent'
  cases sent'
  simp only [innerTransformResponse, status, status', body, body']

section Sample

def sampleOutcall : CanisterHttpRequestArgument :=
  (TargetUrl.sampleOutcall "https://proxy.example/get?a=1" "httpbin.org").request

def sampleArrival (own : HeaderMap) : HttpRequest :=
  { onWire "POST" sampleOutcall with headers := own ++ (onWire "POST" sampleOutcall).headers }

def sampleReplica : Request := ⟨"ANON:POST:k1", false, "", "date"⟩

theorem sample_replica : ReplicaOf TargetUrl.sampleServer "POST" sampleOutcall sampleReplica :=
  ⟨onWire "POST" sampleOutcall, sampleArrival [("x-real-ip", [49])], 0,
    ⟨"ANON", "https://httpbin.org/get?a=1", "k1", sampleReplica⟩, by rfl,
    ⟨rfl, rfl, rfl, by decide +kernel⟩, by rfl, rfl⟩

def sampleRun : List Event :=
  [⟨0, .obtain 0 .none⟩, ⟨1, .readBody 0 (.ok ())⟩, ⟨2, .obtain 1 .none⟩,
    ⟨3, .execute 0 (.ok (200, [("date", some "Wed"), ("server", some "h2")]))⟩,
    ⟨4, .receive 0 (.ok [1])⟩, ⟨5, .set 0 .none⟩, ⟨102, .poll 1 .none⟩]

def sampleAnswer : ResponseData := ⟨200, [("date", "Wed")], [1], "text/plain"⟩

theorem sample_replicas_agree :
    innerTransformResponse ⟨200, [⟨"date", "Wed"⟩], [1]⟩ =
      innerTransformResponse ⟨200, [⟨"date", "Wed"⟩, ⟨"age", "1"⟩], [1]⟩ := by
  have seen : (run (step defaults fun _ => sampleReplica)
      (System.start StoredForm.libraries .memory) sampleRun).map
        (fun t => (reply (t.stages 0), reply (t.stages 1))) =
          some (some (.ok sampleAnswer), some (.ok sampleAnswer)) := by decide +kernel
  obtain ⟨t, accepted, replies⟩ := Option.map_eq_some_iff.mp seen
  obtain ⟨first, second⟩ := Prod.mk.inj replies
  have window : Within defaults (fun _ => sampleReplica) sampleRun
      sampleReplica.idempotencyKey 0 := by
    intro now i fault mem _
    simp only [sampleRun, List.mem_cons, Event.mk.injEq, List.not_mem_nil, reduceCtorEq, and_false,
      or_false, false_or] at mem
    have ttl : defaults.cacheTtl = 10000 := rfl
    omega
  exact replicas_agree (i := 0) (j := 1) (fun _ _ => StoredForm.libraries_round_trip)
    (by decide +kernel) accepted sample_replica sample_replica window
    ⟨reply_returned first, ⟨200, _, [1]⟩, rfl, rfl, rfl⟩
    ⟨reply_returned second, ⟨200, _, [1]⟩, rfl, rfl, rfl⟩

end Sample
end CanisterReplicas
