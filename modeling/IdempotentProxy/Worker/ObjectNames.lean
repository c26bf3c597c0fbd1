import IdempotentProxy.Server.CacheKeys
import IdempotentProxy.Worker.Fetch

/-!
The worker with all its Durable Objects: `idFromName` maps a request to the object of
its name, and every call of the request goes to that object.
-/
namespace ObjectNames
open EventRuns WorkerFetch CacheKeys

def objectName (t : Triple) : String := t.agent ++ ":" ++ t.method ++ ":" ++ t.key

abbrev Objects := String → System

def start (object : WorkerCacher.Cacher) : Objects := fun _ => System.start object

variable (env : Env) (names : Nat → String)

def step (o : Objects) (e : Event) : Option Objects :=
  (WorkerFetch.step env (o (names e.request)) e).map (Function.update o (names e.request))

def Calls (o : Objects) (name : String) (i : Nat) : Prop :=
  (o name).stages i ≠ .start ∨ i ∈ (o name).dels

def Routed (o : Objects) : Prop := ∀ name i, Calls o name i → names i = name

def OnlyOf (i : Nat) (s t : System) : Prop :=
  ∀ j, j ≠ i → t.stages j = s.stages j ∧ (j ∈ t.dels → j ∈ s.dels)

section OneObject
variable {env : Env} {s t : System} {i : Nat}

theorem only_of_update {stage : Stage} (stages : t.stages = Function.update s.stages i stage)
    (dels : t.dels = s.dels ∨ t.dels = i :: s.dels) : OnlyOf i s t := by
  intro j other
  refine ⟨by rw [stages, Function.update_of_ne other], fun mem => ?_⟩
  rcases dels with same | sent
  · rwa [same] at mem
  · rw [sent] at mem
    rcases List.mem_cons.mp mem with mine | inside
    · exact absurd mine other
    · exact inside

theorem step_only_of {e : Event} (moved : WorkerFetch.step env s e = some t) :
    OnlyOf e.request s t := by
  cases e with
  | obtain i rpc =>
    obtain ⟨_, rfl⟩ := step_obtain moved
    unfold stepObtain
    split
    · dsimp only
      split
      · exact only_of_update rfl (Or.inl rfl)
      · exact only_of_update rfl (Or.inl rfl)
    · exact only_of_update rfl (Or.inr rfl)
    · exact only_of_update rfl (Or.inr rfl)
  | get i rpc decodes =>
    obtain ⟨counter, _, rfl⟩ := step_get moved
    unfold stepGet
    split
    · split
      · exact only_of_update rfl (Or.inr rfl)
      · exact only_of_update rfl (Or.inl rfl)
      · split
        · exact only_of_update rfl (Or.inl rfl)
        · exact only_of_update rfl (Or.inr rfl)
    · exact only_of_update rfl (Or.inr rfl)
  | timeout i =>
    rw [step_timeout moved]
    exact only_of_update rfl (Or.inr rfl)
  | fetch i status =>
    obtain ⟨_, rfl⟩ := step_fetch moved
    unfold stepFetch
    split
    · exact only_of_update rfl (Or.inr rfl)
    · split
      · exact only_of_update rfl (Or.inl rfl)
      · exact only_of_update rfl (Or.inr rfl)
  | buffer i value =>
    obtain ⟨_, rfl | ⟨status, bytes, rfl⟩⟩ := step_buffer moved
    · exact only_of_update rfl (Or.inr rfl)
    · exact only_of_update rfl (Or.inl rfl)
  | set i now rpc responds =>
    obtain ⟨_, value, rfl⟩ := step_set moved
    unfold stepSet
    dsimp only
    split
    · split
      · exact only_of_update rfl (Or.inl rfl)
      · exact only_of_update rfl (Or.inr rfl)
    · exact only_of_update rfl (Or.inr rfl)
    · exact only_of_update rfl (Or.inr rfl)
  | text i reads =>
    obtain ⟨status, _, rfl⟩ := step_text moved
    unfold stepText
    split
    · exact only_of_update rfl (Or.inl rfl)
    · exact only_of_update rfl (Or.inr rfl)
  | deliver i =>
    obtain ⟨_, rfl⟩ := step_deliver moved
    exact fun j _ => ⟨rfl, fun mem => List.mem_of_mem_erase mem⟩

end OneObject

section Runs
variable {env : Env} {names : Nat → String}

theorem step_routed {o p : Objects} {e : Event} (routed : Routed names o)
    (moved : step env names o e = some p) : Routed names p := by
  obtain ⟨t, stepped, rfl⟩ := Option.map_eq_some_iff.mp moved
  intro name i calls
  by_cases here : name = names e.request
  · subst here
    by_cases mine : i = e.request
    · rw [mine]
    · obtain ⟨stages, dels⟩ := step_only_of stepped i mine
      rw [Calls, Function.update_self, stages] at calls
      apply routed
      rcases calls with begun | sent
      · exact Or.inl begun
      · exact Or.inr (dels sent)
  · rw [Calls, Function.update_of_ne here] at calls
    exact routed name i calls

theorem start_routed (names : Nat → String) (object : WorkerCacher.Cacher) :
    Routed names (start object) := by
  intro name i calls
  rcases calls with begun | sent
  · exact absurd rfl begun
  · cases sent

theorem run_routed {object : WorkerCacher.Cacher} {evs : List Event} :
    Throughout (step env names) (Routed names) (start object) evs := by
  intro pre post o split reached
  exact run_invariant (fun _ _ _ inv moved => step_routed inv moved) (start_routed names object)
    reached

end Runs

/-- Distinct triples have distinct keys and names; no request is served, overwrites or
    drops what another triple's requests stored, and none calls another's object. -/
structure Isolated (agents : Set String) : Prop where
  keys : ∀ t t', Formed agents t → Formed agents t' → t.cacheKey = t'.cacheKey → t = t'
  names : ∀ t t', Formed agents t → Formed agents t' → objectName t = objectName t' → t = t'
  server : ∀ (alibs : AccessControl.Libraries) (app : AccessControl.AppState alibs)
    (admitted : Nat → Admitted app agents) (settings : HybridCache.Settings)
    (libs : CachedResponse.Libraries) (backend : HybridCache.Backend)
    (evs : List ProxyHandler.Event),
      EveryStep (ProxyHandler.step settings fun i => (admitted i).entry.request)
        (OwnKey (fun i => (admitted i).entry.request)
          fun w i => (admitted w).triple = (admitted i).triple)
        (ProxyHandler.System.start libs backend) evs
  worker : ∀ (env : Env) (triples : Nat → Triple) (object : WorkerCacher.Cacher)
    (evs : List Event), (∀ i, Formed agents (triples i)) →
      Throughout (step env fun i => objectName (triples i))
        (fun o => ∀ name i j, Calls o name i → Calls o name j → triples i = triples j)
        (start object) evs

/-- Agents are kept apart exactly if no agent's name is another's with a colon, a
    method and then nothing or a colon and a text behind it. -/
theorem isolated_iff (agents : Set String) : Isolated agents ↔ Separated agents := by
  constructor
  · intro isolated a here b there extended
    obtain ⟨t, t', formed, formed', same, distinct⟩ := extended_clash here there extended
    exact distinct (isolated.keys t t' formed formed' same)
  · intro separated
    have names : ∀ t t', Formed agents t → Formed agents t' → objectName t = objectName t' →
        t = t' := fun t t' formed formed' same => cache_key_injective separated formed formed' same
    refine ⟨fun t t' => cache_key_injective separated, names, ?_, ?_⟩
    · intro alibs app admitted settings libs backend evs
      exact run_own_triple separated admitted settings libs backend evs
    · intro env triples object evs formed pre post o split reached name i j first second
      have routed := run_routed pre post o split reached
      exact names _ _ (formed i) (formed j)
        ((routed name i first).trans (routed name j second).symm)

/-- The agents `a` and `a:GET`. -/
theorem key_shared_by_agents :
    Formed Set.univ ⟨"a", "GET", "GET:x"⟩ ∧ Formed Set.univ ⟨"a:GET", "GET", "x"⟩ ∧
      (⟨"a", "GET", "GET:x"⟩ : Triple) ≠ ⟨"a:GET", "GET", "x"⟩ ∧
      Triple.cacheKey ⟨"a", "GET", "GET:x"⟩ = Triple.cacheKey ⟨"a:GET", "GET", "x"⟩ ∧
      objectName ⟨"a", "GET", "GET:x"⟩ = objectName ⟨"a:GET", "GET", "x"⟩ := by
  have get : IsMethod "GET" := ⟨by decide, by decide⟩
  refine ⟨⟨Set.mem_univ _, get, by decide, by unfold IsText; decide⟩,
    ⟨Set.mem_univ _, get, by decide, by unfold IsText; decide⟩, by decide, by decide, by decide⟩

end ObjectNames
