import Mathlib.Data.Set.Basic
import IdempotentProxy.Server.AccessControl
import IdempotentProxy.Server.Ownership

/-!
The cache key of a request, `{agent}:{method}:{idempotency_key}`, and what it keeps
apart. A method is a token and has no colon; an agent's name and a key may have some.
-/
namespace CacheKeys
open ExpiringStore EventRuns HybridCache ProxyHandler Prefixes
open AccessControl (AppState HttpRequest Entry)
open HttpHeaders (visibleChar tokenChar)
open RedisCache (Fault)

def IsMethod (method : String) : Prop := method ≠ "" ∧ method.toList.all tokenChar = true

def IsText (s : String) : Prop := s.toList.all visibleChar = true

structure Triple where
  agent : String
  method : String
  key : String
  deriving DecidableEq

def Triple.cacheKey (t : Triple) : String := AccessControl.cacheKey t.agent t.method t.key

/-- A triple that a request of one of the agents can come to. -/
structure Formed (agents : Set String) (t : Triple) : Prop where
  agent : t.agent ∈ agents
  method : IsMethod t.method
  filled : t.key ≠ ""
  readable : IsText t.key

/-- `agent`, a method behind it, and then nothing or a text. -/
def Extends (agent longer : String) : Prop :=
  ∃ method rest, IsMethod method ∧ longer = agent ++ ":" ++ method ++ rest ∧
    (rest = "" ∨ ∃ text, IsText text ∧ rest = ":" ++ text)

def Separated (agents : Set String) : Prop := ∀ a ∈ agents, ∀ b ∈ agents, ¬ Extends a b

section Keys

theorem token_no_colon {cs : List Char} (tokens : cs.all tokenChar = true) : ':' ∉ cs := by
  intro mem
  exact absurd (List.all_eq_true.mp tokens ':' mem) (by decide)

theorem cache_key_chars (t : Triple) : t.cacheKey.toList =
    t.agent.toList ++ ':' :: (t.method.toList ++ ':' :: t.key.toList) := by
  simp [Triple.cacheKey, AccessControl.cacheKey]

theorem longer_extends {agents : Set String} {t t' : Triple} {cs : List Char}
    (formed : Formed agents t) (longer : t'.agent.toList = t.agent.toList ++ ':' :: cs)
    (rest : t.method.toList ++ ':' :: t.key.toList =
      cs ++ ':' :: (t'.method.toList ++ ':' :: t'.key.toList)) : Extends t.agent t'.agent := by
  rcases separator_cut (token_no_colon formed.method.2) rest with ⟨whole, _⟩ | ⟨text, more, key⟩
  · refine ⟨t.method, "", formed.method, ?_, Or.inl rfl⟩
    rw [← String.toList_inj, longer, ← whole]
    simp
  · have readable : IsText (String.ofList text) := by
      have all := formed.readable
      rw [IsText, key, List.all_append, Bool.and_eq_true] at all
      rw [IsText, String.toList_ofList]
      exact all.1
    refine ⟨t.method, ":" ++ String.ofList text, formed.method, ?_, Or.inr ⟨_, readable, rfl⟩⟩
    rw [← String.toList_inj, longer, more]
    simp

theorem same_key_cases {agents : Set String} {t t' : Triple} (formed : Formed agents t)
    (formed' : Formed agents t') (same : t.cacheKey = t'.cacheKey) :
    t = t' ∨ Extends t.agent t'.agent ∨ Extends t'.agent t.agent := by
  have chars := congrArg String.toList same
  rw [cache_key_chars, cache_key_chars] at chars
  rcases separator_cases chars with ⟨agent, rest⟩ | ⟨cs, longer, rest⟩ | ⟨cs, longer, rest⟩
  · obtain ⟨method, key⟩ := separator_injective (token_no_colon formed.method.2)
      (token_no_colon formed'.method.2) rest
    left
    obtain ⟨a, m, k⟩ := t
    obtain ⟨a', m', k'⟩ := t'
    simp only [String.toList_inj] at agent method key
    rw [agent, method, key]
  · exact Or.inr (Or.inl (longer_extends formed longer rest))
  · exact Or.inr (Or.inr (longer_extends formed' longer rest))

theorem cache_key_injective {agents : Set String} (separated : Separated agents) {t t' : Triple}
    (formed : Formed agents t) (formed' : Formed agents t') (same : t.cacheKey = t'.cacheKey) :
    t = t' := by
  rcases same_key_cases formed formed' same with equal | below | above
  · exact equal
  · exact absurd below (separated _ formed.agent _ formed'.agent)
  · exact absurd above (separated _ formed'.agent _ formed.agent)

theorem extended_clash {agents : Set String} {a b : String} (here : a ∈ agents) (there : b ∈ agents)
    (extended : Extends a b) :
    ∃ t t', Formed agents t ∧ Formed agents t' ∧ t.cacheKey = t'.cacheKey ∧ t ≠ t' := by
  obtain ⟨method, rest, token, written, ending⟩ := extended
  have key : ∃ k, rest ++ ":GET:x" = ":" ++ k ∧ k ≠ "" ∧ IsText k := by
    rcases ending with rfl | ⟨text, readable, rfl⟩
    · exact ⟨"GET:x", by decide, by decide, by unfold IsText; decide⟩
    · refine ⟨text ++ ":GET:x", String.append_assoc, ?_, ?_⟩
      · intro empty
        have length := congrArg (fun s => s.toList.length) empty
        simp at length
      · have last : ":GET:x".toList.all visibleChar = true := by decide
        rw [IsText, String.toList_append, List.all_append, last, Bool.and_true]
        exact readable
  obtain ⟨k, split, filled, readable⟩ := key
  have get : IsMethod "GET" := ⟨by decide, by decide⟩
  have one : "x" ≠ "" ∧ IsText "x" := ⟨by decide, by unfold IsText; decide⟩
  refine ⟨⟨a, method, k⟩, ⟨b, "GET", "x"⟩, ⟨here, token, filled, readable⟩,
    ⟨there, get, one.1, one.2⟩, ?_, ?_⟩
  · have tail : ":" ++ k = rest ++ (":" ++ "GET" ++ ":" ++ "x") := split.symm
    simp only [Triple.cacheKey, AccessControl.cacheKey, written, String.append_assoc] at tail ⊢
    rw [tail]
  · intro same
    have agent : a = b := congrArg Triple.agent same
    have length := congrArg (fun s => s.toList.length) (agent.trans written)
    simp at length

end Keys

def requestOf : Action → Option Nat
  | .obtain i _ | .poll i _ | .pollTimeout i | .readBody i _ | .execute i _ | .receive i _
  | .set i _ | .del i _ => some i
  | .clean => none

section Runs
variable {libs : CachedResponse.Libraries} (settings : Settings) (requests : Nat → Request)

/-- What is stored under a key comes from requests with that key. -/
structure Keyed (s : System libs) : Prop where
  once : ∀ i v, s.wrote i = some v → (s.stages i).isReturned = true
  creators : ∀ k c, s.creator k = some c → (requests c).idempotencyKey = k
  filled : ∀ k entry, view s.cacher k = some entry → entry.2 ≠ placeholder s.cacher →
    ∃ w, s.wrote w = some entry.2 ∧ (requests w).idempotencyKey = k

/-- A client gets what a request with its key wrote, and a request drops or overwrites
    only what requests with its key stored. -/
structure OwnKey (same : Nat → Nat → Prop) (s : System libs) (e : Event) (t : System libs) :
    Prop where
  answered : ∀ i fault v, e.action = .poll i fault →
    pollTurn s.cacher (requests i).idempotencyKey e.now fault = .ok (some v) →
      ∃ w, s.wrote w = some v ∧ same w i
  changed : ∀ i k entry, requestOf e.action = some i → view s.cacher k = some entry →
    view t.cacher k ≠ some entry → (∀ c, s.creator k = some c → same c i) ∧
      (entry.2 ≠ placeholder s.cacher → ∃ w, s.wrote w = some entry.2 ∧ same w i)

variable {settings requests} {s t : System libs} {i now : Nat} {stage : Stage libs}

theorem keyed_moved (keyed : Keyed requests s) (busy : (s.stages i).isReturned = false)
    (stages : t.stages = Function.update s.stages i stage)
    (wrote : ∀ j, j ≠ i → t.wrote j = s.wrote j)
    (last : ∀ v, t.wrote i = some v → stage.isReturned = true)
    (creators : ∀ k c, t.creator k = some c →
      s.creator k = some c ∨ (c = i ∧ k = (requests i).idempotencyKey))
    (back : placeholder t.cacher = placeholder s.cacher)
    (views : ∀ k entry, view t.cacher k = some entry → entry.2 ≠ placeholder s.cacher →
      (view s.cacher k = some entry) ∨
        (k = (requests i).idempotencyKey ∧ t.wrote i = some entry.2)) : Keyed requests t := by
  refine ⟨?_, ?_, ?_⟩
  · intro j v found
    rw [stages]
    by_cases same : j = i
    · subst same
      rw [Function.update_self]
      exact last v found
    · rw [Function.update_of_ne same]
      exact keyed.once j v ((wrote j same).symm.trans found)
  · intro k c found
    rcases creators k c found with before | ⟨rfl, rfl⟩
    · exact keyed.creators k c before
    · rfl
  · intro k entry found filled
    rw [back] at filled
    rcases views k entry found filled with before | ⟨rfl, given⟩
    · obtain ⟨w, given, here⟩ := keyed.filled k entry before filled
      exact ⟨w, Ownership.written_kept keyed.once busy wrote given, here⟩
    · exact ⟨i, given, rfl⟩

theorem keyed_still (keyed : Keyed requests s) (busy : (s.stages i).isReturned = false)
    (stages : t.stages = Function.update s.stages i stage) (wrote : t.wrote = s.wrote)
    (creator : t.creator = s.creator) (cacher : t.cacher = s.cacher) : Keyed requests t := by
  refine keyed_moved keyed busy stages (fun j _ => congrFun wrote j) ?_ ?_ (by rw [cacher]) ?_
  · intro v found
    rw [wrote, Ownership.not_written keyed.once busy] at found
    cases found
  · intro k c found
    exact Or.inl (by rwa [creator] at found)
  · intro k entry found _
    exact Or.inl (by rwa [cacher] at found)

theorem obtain_creators (settings : Settings) (requests : Nat → Request) (s : System libs)
    (i now : Nat) (fault : Fault) (k : String) (c : Nat)
    (found : (stepObtain settings requests s i now fault).creator k = some c) :
    s.creator k = some c ∨ (c = i ∧ k = (requests i).idempotencyKey) := by
  rw [obtain_creator] at found
  split at found
  · exact Or.inl found
  · by_cases same : k = (requests i).idempotencyKey
    · subst same
      rw [Function.update_self] at found
      exact Or.inr ⟨(Option.some.inj found).symm, rfl⟩
    · rw [Function.update_of_ne same] at found
      exact Or.inl found

theorem obtain_keyed (keyed : Keyed requests s) (here : s.stages i = .arrived) (fault : Fault) :
    Keyed requests (stepObtain settings requests s i now fault) := by
  have bound := settings.ttl_bound
  have busy : (s.stages i).isReturned = false := by rw [here]; rfl
  obtain ⟨stage, _, stages⟩ := obtain_stages settings requests s i now fault
  have cacher := obtain_cacher settings requests s i now fault
  have wrote := (obtain_records settings requests s i now fault).1
  refine keyed_moved keyed busy stages (fun j _ => congrFun wrote j) ?_
    (obtain_creators settings requests s i now fault) ?_ ?_
  · intro v found
    rw [wrote, Ownership.not_written keyed.once busy] at found
    cases found
  · rw [cacher, placeholder_obtain]
  · intro k entry found filled
    rw [cacher] at found
    left
    rcases obtain_cases s.cacher (requests i).idempotencyKey settings.cacheTtl now fault
      (by omega) with ⟨same, _⟩ | ⟨_, stored, _⟩
    · rwa [same] at found
    · rw [stored] at found
      by_cases own : k = (requests i).idempotencyKey
      · subst own
        rw [put_same] at found
        cases found
        exact absurd rfl filled
      · rwa [put_other _ _ own] at found

theorem poll_keyed (keyed : Keyed requests s) {counter : Nat}
    (here : s.stages i = .polling (counter + 1)) (fault : Fault) :
    Keyed requests (stepPoll requests s i counter now fault) := by
  have busy : (s.stages i).isReturned = false := by rw [here]; rfl
  unfold stepPoll
  dsimp only
  split <;> exact keyed_still keyed busy rfl rfl rfl rfl

theorem set_keyed (keyed : Keyed requests s) (holds : (s.stages i).holding = true)
    (rd : CachedResponse.ResponseData) (data : CachedResponse.Bytes) (fault : Fault) :
    Keyed requests (stepSet settings requests s i rd data now fault) := by
  have busy := Ownership.busy_of_holding holds
  refine keyed_moved keyed busy rfl (fun j other => Function.update_of_ne other _ _)
    (fun _ _ => rfl) (fun _ _ found => Or.inl found) (placeholder_set _ _ _ _ _ _) ?_
  intro k entry found _
  have viewed : view (set s.cacher (requests i).idempotencyKey data settings.cacheTtl now fault).1 k
    = some entry := found
  by_cases own : k = (requests i).idempotencyKey
  · subst own
    rcases set_view s.cacher (requests i).idempotencyKey data settings.cacheTtl now fault with
      stored | dropped | same
    · rw [stored, put_same] at viewed
      cases viewed
      exact Or.inr ⟨rfl, Function.update_self _ _ _⟩
    · rw [dropped, remove_same] at viewed
      cases viewed
    · exact Or.inl (by rwa [same] at viewed)
  · left
    rcases set_view s.cacher (requests i).idempotencyKey data settings.cacheTtl now fault with
      stored | dropped | same
    · rwa [stored, put_other _ _ own] at viewed
    · rwa [dropped, remove_other own] at viewed
    · rwa [same] at viewed

theorem del_keyed (keyed : Keyed requests s) (holds : (s.stages i).holding = true) (status : Nat)
    (text : String) (fault : Fault) : Keyed requests (stepDel requests s i status text fault) := by
  have busy := Ownership.busy_of_holding holds
  refine keyed_moved keyed busy rfl (fun _ _ => rfl) ?_ (fun _ _ found => Or.inl found)
    (placeholder_del _ _ _) ?_
  · intro v found
    have none_written : s.wrote i = some v := found
    rw [Ownership.not_written keyed.once busy] at none_written
    cases none_written
  · intro k entry found _
    left
    have viewed : view (del s.cacher (requests i).idempotencyKey fault).1 k = some entry := found
    rcases del_view s.cacher (requests i).idempotencyKey fault with dropped | same
    · rw [dropped] at viewed
      by_cases own : k = (requests i).idempotencyKey
      · subst own
        rw [remove_same] at viewed
        cases viewed
      · rwa [remove_other own] at viewed
    · rwa [same] at viewed

theorem clean_keyed (keyed : Keyed requests s) (now : Nat) :
    Keyed requests { s with cacher := clean now s.cacher } := by
  refine ⟨keyed.once, keyed.creators, ?_⟩
  intro k entry found filled
  rw [placeholder_clean] at filled
  exact keyed.filled k entry (clean_view found) filled

theorem advance_keyed (keyed : Keyed requests s) {a : Action}
    (moved : (advance (requests i) (s.stages i) a).map (s.move i) = some t) : Keyed requests t := by
  obtain ⟨next, advanced, same⟩ := Option.map_eq_some_iff.mp moved
  subst same
  exact keyed_still keyed (advance_moves advanced).1 rfl rfl rfl rfl

theorem perform_keyed (keyed : Keyed requests s) {a : Action}
    (performed : perform settings requests s now a = some t) : Keyed requests t := by
  cases a with
  | obtain i fault =>
    obtain ⟨here, same⟩ := perform_obtain performed
    subst same
    exact obtain_keyed keyed here fault
  | poll i fault =>
    obtain ⟨counter, here, same⟩ := perform_poll performed
    subst same
    exact poll_keyed keyed here fault
  | set i fault =>
    have holds := writer_holding (Or.inl performed)
    obtain ⟨rd, data, _, _, same⟩ := perform_set performed
    subst same
    exact set_keyed keyed holds rd data fault
  | del i fault =>
    have holds := writer_holding (Or.inr performed)
    obtain ⟨status, text, _, same⟩ := perform_del performed
    subst same
    exact del_keyed keyed holds status text fault
  | clean =>
    cases performed
    exact clean_keyed keyed now
  | pollTimeout i => exact advance_keyed keyed performed
  | readBody i read => exact advance_keyed keyed performed
  | execute i answer => exact advance_keyed keyed performed
  | receive i body => exact advance_keyed keyed performed

theorem perform_other {a : Action} (performed : perform settings requests s now a = some t)
    (whose : requestOf a = some i) {k : String} (other : k ≠ (requests i).idempotencyKey) :
    view t.cacher k = view s.cacher k := by
  have advanced : ∀ {j b}, (advance (requests j) (s.stages j) b).map (s.move j) = some t →
      view t.cacher k = view s.cacher k := by
    intro j b moved
    obtain ⟨next, _, same⟩ := Option.map_eq_some_iff.mp moved
    rw [← same]
    rfl
  cases a with
  | obtain j fault =>
    cases whose
    have bound := settings.ttl_bound
    obtain ⟨_, same⟩ := perform_obtain performed
    subst same
    rw [obtain_cacher]
    rcases obtain_cases s.cacher (requests i).idempotencyKey settings.cacheTtl now fault
      (by omega) with ⟨same, _⟩ | ⟨_, stored, _⟩
    · rw [same]
    · rw [stored, put_other _ _ other]
  | poll j fault =>
    obtain ⟨counter, _, same⟩ := perform_poll performed
    subst same
    rw [poll_cacher]
  | set j fault =>
    cases whose
    obtain ⟨rd, data, _, _, same⟩ := perform_set performed
    subst same
    rcases set_view s.cacher (requests i).idempotencyKey data settings.cacheTtl now fault with
      stored | dropped | same
    · exact (congrFun stored k).trans (put_other _ _ other)
    · exact (congrFun dropped k).trans (remove_other other)
    · exact congrFun same k
  | del j fault =>
    cases whose
    obtain ⟨status, text, _, same⟩ := perform_del performed
    subst same
    rcases del_view s.cacher (requests i).idempotencyKey fault with dropped | same
    · exact (congrFun dropped k).trans (remove_other other)
    · exact congrFun same k
  | clean => cases whose
  | pollTimeout j => exact advanced performed
  | readBody j read => exact advanced performed
  | execute j answer => exact advanced performed
  | receive j body => exact advanced performed

theorem step_keyed {e : Event} (keyed : Keyed requests s)
    (moved : step settings requests s e = some t) : Keyed requests t := by
  obtain ⟨_, u, performed, same⟩ := step_performed moved
  subst same
  have after := perform_keyed keyed performed
  exact ⟨after.once, after.creators, after.filled⟩

theorem start_keyed (requests : Nat → Request) (libs : CachedResponse.Libraries)
    (backend : Backend) : Keyed requests (System.start libs backend) := by
  constructor
  · intro i v found
    cases found
  · intro k c found
    cases found
  · intro k entry found
    cases backend <;> cases found

theorem step_own_key {e : Event} (keyed : Keyed requests s)
    (moved : step settings requests s e = some t) :
    OwnKey requests
      (fun w i => (requests w).idempotencyKey = (requests i).idempotencyKey) s e t := by
  obtain ⟨_, u, performed, rfl⟩ := step_performed moved
  constructor
  · intro i fault v _ read
    obtain ⟨⟨expiry, stored⟩, filled⟩ := poll_view _ _ _ _ read
    exact keyed.filled _ _ stored filled
  · intro i k entry whose stored changed
    by_cases own : k = (requests i).idempotencyKey
    · subst own
      exact ⟨fun c created => keyed.creators _ c created, keyed.filled _ entry stored⟩
    · exact absurd ((perform_other performed whose own).trans stored) changed

theorem run_own_key (settings : Settings) (requests : Nat → Request)
    (libs : CachedResponse.Libraries) (backend : Backend) (evs : List Event) :
    EveryStep (step settings requests)
      (OwnKey requests fun w i => (requests w).idempotencyKey = (requests i).idempotencyKey)
      (System.start libs backend) evs := by
  intro pre e post a b split reached moved
  have keyed := run_invariant (fun _ _ _ inv stepped => step_keyed inv stepped)
    (start_keyed requests libs backend) reached
  exact step_own_key keyed moved

end Runs

section Agents
variable {alibs : AccessControl.Libraries}

structure Admitted (app : AppState alibs) (agents : Set String) where
  request : HttpRequest
  unixMs : UInt64
  entry : Entry alibs
  reached : AccessControl.proxy app request unixMs = .ok entry
  method : IsMethod request.method
  agent : entry.agent ∈ agents

variable {app : AppState alibs} {agents : Set String}

def Admitted.triple (a : Admitted app agents) : Triple :=
  ⟨a.entry.agent, a.request.method, a.entry.key⟩

theorem admitted_formed (a : Admitted app agents) :
    Formed agents a.triple ∧ a.entry.request.idempotencyKey = a.triple.cacheKey := by
  obtain ⟨_, _, _, found, keyed⟩ := AccessControl.proxy_stages a.reached
  obtain ⟨filled, value, _, read⟩ := AccessControl.idempotency_key_ok found
  refine ⟨⟨a.agent, a.method, filled, ?_⟩, keyed⟩
  exact List.all_eq_true.mpr (HttpHeaders.to_str_visible read)

theorem run_own_triple (separated : Separated agents) (admitted : Nat → Admitted app agents)
    (settings : Settings) (libs : CachedResponse.Libraries) (backend : Backend)
    (evs : List Event) :
    EveryStep (step settings fun i => (admitted i).entry.request)
      (OwnKey (fun i => (admitted i).entry.request)
        fun w i => (admitted w).triple = (admitted i).triple)
      (System.start libs backend) evs := by
  have one_triple : ∀ w i, (admitted w).entry.request.idempotencyKey =
      (admitted i).entry.request.idempotencyKey → (admitted w).triple = (admitted i).triple := by
    intro w i same
    obtain ⟨formed, key⟩ := admitted_formed (admitted w)
    obtain ⟨formed', key'⟩ := admitted_formed (admitted i)
    rw [key, key'] at same
    exact cache_key_injective separated formed formed' same
  intro pre e post a b split reached moved
  obtain ⟨answered, changed⟩ := run_own_key settings (fun i => (admitted i).entry.request) libs
    backend evs pre e post a b split reached moved
  constructor
  · intro i fault v polled read
    obtain ⟨w, wrote, same⟩ := answered i fault v polled read
    exact ⟨w, wrote, one_triple w i same⟩
  · intro i k entry whose stored differs
    obtain ⟨created, written⟩ := changed i k entry whose stored differs
    refine ⟨fun c found => one_triple c i (created c found), fun filled => ?_⟩
    obtain ⟨w, wrote, same⟩ := written filled
    exact ⟨w, wrote, one_triple w i same⟩

end Agents
end CacheKeys
