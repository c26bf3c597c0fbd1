import IdempotentProxy.Server.OneCall

/-!
What a request that obtained the lease leaves in the cache when its handler
returns. The exits through `?` after `obtain` return without a `del`; a lost Redis
command changes nothing, and a `SET XX` on a key that is gone is taken for stored.
-/
namespace StuckLease
open ExpiringStore EventRuns HybridCache CachedResponse ProxyHandler
open CacheKeys (perform_other)
open OneCall (holding_begun step_since turns_holding)
open RedisCache (Fault)

variable {libs : Libraries} (settings : Settings) (requests : Nat → Request)

def PlaceholderStays (s : System libs) (now i : Nat) : Prop :=
  s.creator (requests i).idempotencyKey = some i ∧
    (live (view s.cacher) now (requests i).idempotencyKey).map Prod.snd =
      some (placeholder s.cacher)

instance (s : System libs) (now i : Nat) : Decidable (PlaceholderStays requests s now i) :=
  inferInstanceAs (Decidable (_ ∧ _))

def Settled (t : System libs) (i : Nat) : Reply → Prop
  | .ok rd => ∃ data expiry, libs.toBytes rd = .ok data ∧
      live (view t.cacher) t.clock (requests i).idempotencyKey = some (expiry, data)
  | .error _ => ¬ PlaceholderStays requests t t.clock i

def ReturnsSettled (s : System libs) (_ : Event) (t : System libs) : Prop :=
  ∀ i reply, (s.stages i).holding = true → t.stages i = .returned reply →
    Settled requests t i reply

def unbuilt (libs : Libraries) (req : Request) (status : Nat) (headers : Headers) (body : Bytes) :
    Bool :=
  decide (200 ≤ status ∧ status ≤ 500) &&
    match ((ResponseData.new status).withHeaders headers req.responseHeaders).withBody libs body
        req.jsonMask with
    | .error _ => true
    | .ok rd => (libs.toBytes rd).toOption.isNone

/-- The handler comes to a `?` that fails: after the client body, the upstream's answer, its
    body, `with_body` or `to_bytes`. -/
def fails (req : Request) : Stage libs → Action → Bool
  | _, .readBody _ (.error _) | _, .execute _ (.error _) | _, .receive _ (.error _) => true
  | .receiving status headers, .receive _ (.ok body) => unbuilt libs req status headers body
  | _, _ => false

/-- While `i` held its lease, a step replaced or deleted the entry under its key. -/
def Superseded (start : System libs) (past : List Event) (i : Nat) : Prop :=
  ∃ before a e b after, StepAt (step settings requests) start past before a e b after ∧
    (a.stages i).holding = true ∧
    view b.cacher (requests i).idempotencyKey ≠ view a.cacher (requests i).idempotencyKey

def LeaseOver (start : System libs) (past : List Event) (s : System libs) (now i : Nat) : Prop :=
  s.since i + settings.cacheTtl ≤ now ∨ Superseded settings requests start past i

def CommandCovered (ended : Prop) (s : System libs) (now i : Nat) (fault : Fault)
    (needsKey : Bool) : Prop :=
  match s.cacher, fault with
  | .memory _, _ => True
  | .redis ks, .none =>
      needsKey = true → (live ks now (requests i).idempotencyKey).isSome = true
  | .redis _, .lost _ => ended
  | .redis _, .executed _ => True

/-- A `?` of request `i` fails only where `ended i`. -/
def Covered (ended : Nat → Prop) (s : System libs) (e : Event) : Prop :=
  match e.action with
  | .set i fault => CommandCovered requests (ended i) s e.now i fault true
  | .del i fault => CommandCovered requests (ended i) s e.now i fault false
  | .readBody i _ | .execute i _ | .receive i _ =>
      fails (requests i) (s.stages i) e.action = true → ended i
  | _ => True

instance (ended : Prop) [Decidable ended] (s : System libs) (now i : Nat) (fault : Fault)
    (needsKey : Bool) : Decidable (CommandCovered requests ended s now i fault needsKey) := by
  unfold CommandCovered
  split <;> infer_instance

instance (ended : Nat → Prop) [∀ i, Decidable (ended i)] (s : System libs) :
    ∀ e : Event, Decidable (Covered requests ended s e)
  | ⟨now, .set i fault⟩ =>
      inferInstanceAs (Decidable (CommandCovered requests (ended i) s now i fault true))
  | ⟨now, .del i fault⟩ =>
      inferInstanceAs (Decidable (CommandCovered requests (ended i) s now i fault false))
  | ⟨_, .readBody _ _⟩ | ⟨_, .execute _ _⟩ | ⟨_, .receive _ _⟩ =>
      inferInstanceAs (Decidable (_ → _))
  | ⟨_, .obtain _ _⟩ | ⟨_, .poll _ _⟩ | ⟨_, .pollTimeout _⟩ | ⟨_, .clean⟩ => isTrue trivial

theorem covered_mono {ended wider : Nat → Prop} (more : ∀ i, ended i → wider i) {s : System libs}
    {e : Event} (covered : Covered requests ended s e) : Covered requests wider s e := by
  have command : ∀ {now i fault needsKey},
      CommandCovered requests (ended i) s now i fault needsKey →
      CommandCovered requests (wider i) s now i fault needsKey := by
    intro now i fault needsKey covered
    unfold CommandCovered at covered ⊢
    split at covered
    · trivial
    · exact covered
    · exact more i covered
    · trivial
  obtain ⟨now, action⟩ := e
  cases action with
  | set i fault => exact command covered
  | del i fault => exact command covered
  | readBody i read => exact fun failed => more i (covered failed)
  | execute i answer => exact fun failed => more i (covered failed)
  | receive i body => exact fun failed => more i (covered failed)
  | _ => trivial

theorem settled_at {s t : System libs} {e : Event} {i : Nat} {reply : Reply}
    (holds : (s.stages i).holding = true)
    (moved : t.stages = Function.update s.stages i (.returned reply)) :
    ReturnsSettled requests s e t ↔ Settled requests t i reply := by
  constructor
  · intro every
    exact every i reply holds (by rw [moved, Function.update_self])
  · intro settled j other held returned
    rw [moved] at returned
    by_cases same : j = i
    · subst same
      rw [Function.update_self] at returned
      cases returned
      exact settled
    · rw [Function.update_of_ne same] at returned
      rw [returned] at held
      cases held

theorem settled_idle {s t : System libs} {e : Event} {i : Nat} {stage : Stage libs}
    (moved : t.stages = Function.update s.stages i stage)
    (stays : (s.stages i).holding = false ∨ stage.isReturned = false) :
    ReturnsSettled requests s e t := by
  intro j reply held returned
  rw [moved] at returned
  by_cases same : j = i
  · subst same
    rw [Function.update_self] at returned
    rw [returned] at stays
    rcases stays with idle | busy
    · rw [held] at idle
      cases idle
    · cases busy
  · rw [Function.update_of_ne same] at returned
    rw [returned] at held
    cases held

theorem respond_returned {req : Request} {status : Nat} {headers : Headers} {body : Bytes}
    {reply : Reply} (gone : (respond req status headers body : Stage libs) = .returned reply) :
    ∃ why, reply = .error why := by
  unfold respond at gone
  split at gone
  · dsimp only at gone
    split at gone
    · cases gone
      exact ⟨_, rfl⟩
    · split at gone
      · cases gone
        exact ⟨_, rfl⟩
      · cases gone
  · cases gone

theorem advance_returned {req : Request} {stage : Stage libs} {a : Action} {reply : Reply}
    (holds : stage.holding = true) (gone : advance req stage a = some (.returned reply)) :
    ∃ why, reply = .error why := by
  unfold advance at gone
  split at gone
  · cases holds
  · cases gone
  · cases gone
    exact ⟨_, rfl⟩
  · cases gone
  · cases gone
    exact ⟨_, rfl⟩
  · exact respond_returned (Option.some.inj gone)
  · cases gone
    exact ⟨_, rfl⟩
  · cases gone

theorem advance_holding {req : Request} {stage next : Stage libs} {a : Action}
    (moved : advance req stage a = some next) :
    stage.holding = true ∧ (∀ i, a ≠ .pollTimeout i) ∨
      stage.holding = false ∧ ∃ i, a = .pollTimeout i := by
  unfold advance at moved
  split at moved
  · exact Or.inr ⟨rfl, _, rfl⟩
  all_goals first
    | cases moved; done
    | exact Or.inl ⟨rfl, by simp⟩

theorem holder_advances {req : Request} {stage next : Stage libs} {a : Action}
    (moved : advance req stage a = some next) (awaits : ∀ i, a ≠ .pollTimeout i) :
    stage.holding = true := by
  rcases advance_holding moved with ⟨holds, _⟩ | ⟨_, i, polls⟩
  · exact holds
  · exact absurd polls (awaits i)

theorem unbuilt_iff {req : Request} {status : Nat} {headers : Headers} {body : Bytes} :
    unbuilt libs req status headers body = true ↔
      (respond req status headers body : Stage libs).isReturned = true := by
  unfold unbuilt respond
  by_cases kept : 200 ≤ status ∧ status ≤ 500
  · rw [if_pos kept, decide_eq_true kept, Bool.true_and]
    cases masked : ((ResponseData.new status).withHeaders headers req.responseHeaders).withBody
        libs body req.jsonMask with
    | error text => exact iff_of_true rfl (by simp only [masked]; rfl)
    | ok rd =>
      simp only [masked]
      split
      · rename_i failed
        exact iff_of_true (by rw [failed]; rfl) rfl
      · rename_i built
        exact iff_of_false (by rw [built]; simp [Except.toOption]) (by simp [Stage.isReturned])
  · rw [if_neg kept, decide_eq_false kept]
    exact iff_of_false (by simp) (by simp [Stage.isReturned])

theorem fails_iff {req : Request} {stage next : Stage libs} {a : Action}
    (holds : stage.holding = true) (moved : advance req stage a = some next) :
    fails req stage a = true ↔ next.isReturned = true := by
  unfold advance at moved
  split at moved
  · cases holds
  · cases moved
    simp [fails, Stage.isReturned]
  · cases moved
    simp [fails, Stage.isReturned]
  · cases moved
    simp [fails, Stage.isReturned]
  · cases moved
    simp [fails, Stage.isReturned]
  · cases moved
    exact unbuilt_iff
  · cases moved
    simp [fails, Stage.isReturned]
  · cases moved

theorem awaited_settled_iff {s u : System libs} {e : Event} {i : Nat} {ended : Nat → Prop}
    (performed : (advance (requests i) (s.stages i) e.action).map (s.move i) = some u)
    (awaits : ∀ j, e.action ≠ .pollTimeout j)
    (spare : (s.stages i).holding = true → (ended i ↔ ¬ PlaceholderStays requests s e.now i)) :
    ReturnsSettled requests s e { u with clock := e.now } ↔
      (fails (requests i) (s.stages i) e.action = true → ended i) := by
  obtain ⟨next, advanced, same⟩ := Option.map_eq_some_iff.mp performed
  subst same
  have holds := holder_advances advanced awaits
  rw [fails_iff holds advanced, spare holds]
  cases gone : next.isReturned with
  | false =>
    apply iff_of_true
    · exact settled_idle requests rfl (Or.inr gone)
    · intro absent
      cases absent
  | true =>
    cases next with
    | returned reply =>
      obtain ⟨why, failed⟩ := advance_returned holds advanced
      rw [settled_at requests holds rfl, failed]
      exact ⟨fun settled _ => settled, fun left => left rfl⟩
    | _ => cases gone

theorem stored_settled {s t : System libs} {e : Event} {i expiry : Nat} {rd : ResponseData}
    {data : Bytes} (holds : (s.stages i).holding = true) (serialised : libs.toBytes rd = .ok data)
    (moved : t.stages = Function.update s.stages i (.returned (.ok rd)))
    (stored : live (view t.cacher) t.clock (requests i).idempotencyKey = some (expiry, data)) :
    ReturnsSettled requests s e t :=
  (settled_at requests holds moved).mpr ⟨data, expiry, serialised, stored⟩

theorem failed_settled_iff {s t : System libs} {e : Event} {i : Nat} {why : Nat × String}
    (holds : (s.stages i).holding = true)
    (moved : t.stages = Function.update s.stages i (.returned (.error why))) :
    ReturnsSettled requests s e t ↔ ¬ PlaceholderStays requests t t.clock i :=
  settled_at requests holds moved

theorem gone_not_stays {t : System libs} {now i : Nat}
    (gone : live (view t.cacher) now (requests i).idempotencyKey = none) :
    ¬ PlaceholderStays requests t now i := by
  rintro ⟨_, same⟩
  rw [gone] at same
  cases same

theorem value_not_stays {t : System libs} {now i expiry : Nat} {data : Bytes}
    (found : live (view t.cacher) now (requests i).idempotencyKey = some (expiry, data))
    (long : 1 < data.length) : ¬ PlaceholderStays requests t now i := by
  rintro ⟨_, same⟩
  rw [found] at same
  have short := placeholder_short t.cacher
  rw [← Option.some.inj same] at short
  dsimp only at short
  omega

section
variable {s : System libs} {e : Event} {i : Nat} {fault : Fault} {ended : Prop}

theorem set_settled_iff {rd : ResponseData} {data : Bytes}
    {serialised : libs.toBytes rd = .ok data} (here : s.stages i = .storing rd data serialised)
    (spare : ended ↔ ¬ PlaceholderStays requests s e.now i) :
    ReturnsSettled requests s e
        { stepSet settings requests s i rd data e.now fault with clock := e.now } ↔
      CommandCovered requests ended s e.now i fault true := by
  have holds : (s.stages i).holding = true := by rw [here]; rfl
  have ahead : e.now < e.now + settings.cacheTtl := by
    have bound := settings.ttl_bound
    omega
  have long := libs.to_bytes_long rd data serialised
  cases back : s.cacher with
  | memory cacher =>
    simp only [CommandCovered, back, stepSet, HybridCache.set]
    apply iff_of_true _ trivial
    cases found : live cacher.kv e.now (requests i).idempotencyKey with
    | some entry =>
      obtain ⟨stored, replied⟩ := MemoryCache.set_live found data settings.cacheTtl
      rw [replied]
      exact stored_settled requests holds serialised rfl (by
        simp only [System.move, view, stored]
        exact live_put_same ahead)
    | none =>
      obtain ⟨stored, text, replied⟩ := MemoryCache.set_dead found data settings.cacheTtl
      rw [replied]
      apply (failed_settled_iff requests holds rfl).mpr
      apply gone_not_stays
      simp only [System.move, view, stored]
      exact live_remove_same _ _ _
  | redis ks =>
    simp only [CommandCovered, back, stepSet, HybridCache.set, RedisCache.set, RedisCache.command,
      putIfPresent]
    cases fault with
    | none =>
      cases found : live ks e.now (requests i).idempotencyKey with
      | some entry =>
        apply iff_of_true
        · exact stored_settled requests holds serialised rfl (live_put_same ahead)
        · simp [found]
      | none =>
        apply iff_of_false
        · intro settled
          obtain ⟨_, _, _, stored⟩ := (settled_at requests holds rfl).mp settled
          exact absurd (found.symm.trans stored) (by simp)
        · simp [found]
    | lost text =>
      rw [failed_settled_iff requests holds rfl, spare]
      simp only [PlaceholderStays, System.move, back]
    | executed text =>
      refine iff_of_true ((failed_settled_iff requests holds rfl).mpr ?_) trivial
      cases found : live ks e.now (requests i).idempotencyKey with
      | some entry => exact value_not_stays requests (live_put_same ahead) long
      | none => exact gone_not_stays requests found

theorem del_settled_iff {status : Nat} {text : String} (here : s.stages i = .dropping status text)
    (spare : ended ↔ ¬ PlaceholderStays requests s e.now i) :
    ReturnsSettled requests s e
        { stepDel requests s i status text fault with clock := e.now } ↔
      CommandCovered requests ended s e.now i fault false := by
  have holds : (s.stages i).holding = true := by rw [here]; rfl
  rw [failed_settled_iff requests holds rfl]
  cases back : s.cacher with
  | memory cacher =>
    simp only [CommandCovered, back]
    refine iff_of_true (gone_not_stays requests ?_) trivial
    simp only [stepDel, System.move, HybridCache.del, back, view, (MemoryCache.del_kv cacher _).1]
    exact live_remove_same _ _ _
  | redis ks =>
    simp only [CommandCovered, back]
    cases fault with
    | none =>
      refine iff_of_true (gone_not_stays requests ?_) (by simp)
      simp only [stepDel, System.move, HybridCache.del, back]
      exact live_remove_same _ _ _
    | lost text =>
      rw [spare]
      simp only [PlaceholderStays, stepDel, System.move, HybridCache.del, back]
      rfl
    | executed text =>
      refine iff_of_true (gone_not_stays requests ?_) trivial
      simp only [stepDel, System.move, HybridCache.del, back]
      exact live_remove_same _ _ _

theorem clean_settled {t : System libs} (same : t.stages = s.stages) :
    ReturnsSettled requests s e t := by
  intro j reply held returned
  rw [same] at returned
  rw [returned] at held
  cases held

theorem step_settled_iff {t : System libs} {ended : Nat → Prop}
    (spare : ∀ i, (s.stages i).holding = true → (ended i ↔ ¬ PlaceholderStays requests s e.now i))
    (moved : step settings requests s e = some t) :
    ReturnsSettled requests s e t ↔ Covered requests ended s e := by
  obtain ⟨_, u, performed, same⟩ := step_performed moved
  subst same
  obtain ⟨now, action⟩ := e
  cases action with
  | obtain j fault =>
    obtain ⟨here, same⟩ := perform_obtain performed
    subst same
    obtain ⟨stage, _, stages⟩ := obtain_stages settings requests s j now fault
    exact iff_of_true (settled_idle requests stages (Or.inl (by rw [here]; rfl))) trivial
  | poll j fault =>
    obtain ⟨counter, here, same⟩ := perform_poll performed
    subst same
    obtain ⟨stage, _, stages⟩ := poll_stages requests s j counter now fault
    exact iff_of_true (settled_idle requests stages (Or.inl (by rw [here]; rfl))) trivial
  | pollTimeout j =>
    obtain ⟨next, advanced, same⟩ := Option.map_eq_some_iff.mp performed
    subst same
    rcases advance_holding advanced with ⟨_, other⟩ | ⟨idle, _⟩
    · exact absurd rfl (other j)
    · exact iff_of_true (settled_idle requests rfl (Or.inl idle)) trivial
  | readBody j read => exact awaited_settled_iff requests performed (by simp) (spare j)
  | execute j answer => exact awaited_settled_iff requests performed (by simp) (spare j)
  | receive j body => exact awaited_settled_iff requests performed (by simp) (spare j)
  | set j fault =>
    have holds := writer_holding (Or.inl performed)
    obtain ⟨rd, data, serialised, here, same⟩ := perform_set performed
    subst same
    exact set_settled_iff settings requests here (spare j holds)
  | del j fault =>
    have holds := writer_holding (Or.inr performed)
    obtain ⟨status, text, here, same⟩ := perform_del performed
    subst same
    exact del_settled_iff requests here (spare j holds)
  | clean =>
    cases performed
    exact iff_of_true (clean_settled requests rfl) trivial

end

section Entries
variable {settings} {requests} {s t start : System libs} {e : Event} {i : Nat} {past : List Event}

theorem step_placeholder (moved : step settings requests s e = some t) :
    placeholder t.cacher = placeholder s.cacher := by
  obtain ⟨_, u, performed, rfl⟩ := step_performed moved
  rcases perform_cases performed with ⟨cacher, _⟩ | ⟨j, fault, _, _, rfl⟩ |
    ⟨j, fault, rd, data, _, _, rfl⟩ | ⟨j, fault, status, text, _, rfl⟩ | ⟨_, rfl⟩
  · exact congrArg placeholder cacher
  · rw [obtain_cacher, placeholder_obtain]
  · exact placeholder_set _ _ _ _ _ _
  · exact placeholder_del _ _ _
  · exact placeholder_clean _ _

theorem step_record (moved : step settings requests s e = some t) {k : String}
    (same : view t.cacher k = view s.cacher k) : t.creator k = s.creator k := by
  obtain ⟨_, u, performed, rfl⟩ := step_performed moved
  rcases perform_cases performed with ⟨_, creator⟩ | ⟨j, fault, _, _, rfl⟩ |
    ⟨j, fault, rd, data, _, _, rfl⟩ | ⟨j, fault, status, text, _, rfl⟩ | ⟨_, rfl⟩
  · exact congrFun creator k
  · exact obtain_record fault same
  · rfl
  · rfl
  · rfl

/-- A step that changes the entry under the key of a request that is under way does not
    leave that request's placeholder there. -/
theorem step_changed (moved : step settings requests s e = some t)
    (begun : s.stages i ≠ .arrived)
    (changed : view t.cacher (requests i).idempotencyKey ≠
      view s.cacher (requests i).idempotencyKey)
    (mine : t.creator (requests i).idempotencyKey = some i) (expiry : Nat) :
    view t.cacher (requests i).idempotencyKey ≠ some (expiry, placeholder t.cacher) := by
  intro found
  rw [step_placeholder moved] at found
  obtain ⟨_, u, performed, rfl⟩ := step_performed moved
  have here : ∀ {j : Nat}, CacheKeys.requestOf e.action = some j →
      (requests i).idempotencyKey = (requests j).idempotencyKey := by
    intro j whose
    by_contra apart
    exact changed (perform_other performed whose apart)
  dsimp only at changed found mine
  rcases perform_cases performed with ⟨cacher, _⟩ | ⟨j, fault, act, waits, rfl⟩ |
    ⟨j, fault, rd, data, act, serialised, rfl⟩ | ⟨j, fault, status, text, act, rfl⟩ | ⟨_, rfl⟩
  · rw [cacher] at changed
    exact changed rfl
  · rw [obtain_cacher, here (by rw [act]; rfl)] at changed
    rw [obtain_creator, if_neg changed, here (by rw [act]; rfl), Function.update_self] at mine
    rw [Option.some.inj mine] at waits
    exact begun waits
  · have long := libs.to_bytes_long rd data serialised
    have short := placeholder_short s.cacher
    simp only [stepSet, System.move, here (j := j) (by rw [act]; rfl)] at changed found
    rcases set_view s.cacher (requests j).idempotencyKey data settings.cacheTtl e.now fault with
      stored | dropped | same
    · rw [stored, put_same] at found
      have value : data = placeholder s.cacher := congrArg Prod.snd (Option.some.inj found)
      rw [value] at long
      omega
    · rw [dropped, remove_same] at found
      cases found
    · rw [same] at changed
      exact changed rfl
  · simp only [stepDel, System.move, here (j := j) (by rw [act]; rfl)] at changed found
    rcases del_view s.cacher (requests j).idempotencyKey fault with dropped | same
    · rw [dropped, remove_same] at found
      cases found
    · rw [same] at changed
      exact changed rfl
  · exact changed (found.trans (clean_view found).symm)

theorem superseded_later (more : Event) (gone : Superseded settings requests start past i) :
    Superseded settings requests start (past ++ [more]) i := by
  obtain ⟨before, a, f, b, after, at_f, holds, changed⟩ := gone
  exact ⟨before, a, f, b, _, step_at_extend at_f [more], holds, changed⟩

theorem superseded_now (reached : run (step settings requests) start past = some s)
    (moved : step settings requests s e = some t) (holds : (s.stages i).holding = true)
    (changed : view t.cacher (requests i).idempotencyKey ≠
      view s.cacher (requests i).idempotencyKey) :
    Superseded settings requests start (past ++ [e]) i :=
  ⟨past, s, e, t, [], ⟨rfl, reached, moved⟩, holds, changed⟩

theorem superseded_cases (reached : run (step settings requests) start past = some s)
    (moved : step settings requests s e = some t)
    (gone : Superseded settings requests start (past ++ [e]) i) :
    Superseded settings requests start past i ∨ (s.stages i).holding = true ∧
      view t.cacher (requests i).idempotencyKey ≠ view s.cacher (requests i).idempotencyKey := by
  obtain ⟨before, a, f, b, after, at_f, holds, changed⟩ := gone
  rcases step_at_snoc reached at_f with ⟨rest, earlier⟩ | ⟨rfl, rfl⟩
  · exact Or.inl ⟨before, a, f, b, rest, earlier, holds, changed⟩
  · have same : b = t := Option.some.inj (at_f.moved.symm.trans moved)
    subst same
    exact Or.inr ⟨holds, changed⟩

/-- A holder's placeholder stays as its `obtain` stored it until a step replaces or deletes
    it, and is not there again after that. -/
structure Watched (settings : Settings) (requests : Nat → Request) (start : System libs)
    (past : List Event) (s : System libs) : Prop where
  reached : run (step settings requests) start past = some s
  begun : ∀ i, Superseded settings requests start past i → s.stages i ≠ .arrived
  own : ∀ i, (s.stages i).holding = true → Superseded settings requests start past i ∨
    s.creator (requests i).idempotencyKey = some i ∧
      view s.cacher (requests i).idempotencyKey =
        some (s.since i + settings.cacheTtl, placeholder s.cacher)
  gone : ∀ i, Superseded settings requests start past i →
    s.creator (requests i).idempotencyKey = some i → ∀ expiry,
      view s.cacher (requests i).idempotencyKey ≠ some (expiry, placeholder s.cacher)

theorem step_granted (moved : step settings requests s e = some t)
    (idle : ¬ (s.stages i).holding = true) (holds : (t.stages i).holding = true) :
    t.creator (requests i).idempotencyKey = some i ∧
      view t.cacher (requests i).idempotencyKey =
        some (t.since i + settings.cacheTtl, placeholder t.cacher) := by
  have bound := settings.ttl_bound
  obtain ⟨⟨fault, obtains⟩, begun, _⟩ := turns_holding moved idle holds
  rw [step_placeholder moved, begun]
  obtain ⟨now, action⟩ := e
  dsimp only at obtains
  subst obtains
  obtain ⟨_, u, performed, rfl⟩ := step_performed moved
  obtain ⟨_, rfl⟩ := perform_obtain performed
  dsimp only at holds ⊢
  rw [obtain_creator, obtain_cacher]
  rcases obtain_cases s.cacher (requests i).idempotencyKey settings.cacheTtl now fault
    (by omega) with ⟨_, refused⟩ | ⟨_, stored, differs, _⟩
  · unfold stepObtain at holds
    dsimp only at holds
    split at holds
    · simp [System.move, Stage.holding] at holds
    · simp [System.move, Stage.holding] at holds
    · rename_i granted
      exact absurd granted refused
  · rw [if_neg differs, stored, put_same, Function.update_self]
    exact ⟨rfl, rfl⟩

theorem step_watched (inv : Watched settings requests start past s)
    (moved : step settings requests s e = some t) :
    Watched settings requests start (past ++ [e]) t := by
  have back := step_placeholder moved
  have under : ∀ i, Superseded settings requests start (past ++ [e]) i →
      s.stages i ≠ .arrived := by
    intro i gone
    rcases superseded_cases inv.reached moved gone with earlier | ⟨holds, _⟩
    · exact inv.begun i earlier
    · exact holding_begun holds
  refine ⟨run_append_iff.mpr ⟨s, inv.reached, run_single_iff.mpr moved⟩, ?_, ?_, ?_⟩
  · exact fun i gone => (step_since moved (under i gone)).1
  · intro i holds
    by_cases idle : (s.stages i).holding = true
    · by_cases same : view t.cacher (requests i).idempotencyKey =
        view s.cacher (requests i).idempotencyKey
      · rcases inv.own i idle with gone | ⟨mine, entry⟩
        · exact Or.inl (superseded_later e gone)
        · rw [step_record moved same, same, back, (step_since moved (holding_begun idle)).2]
          exact Or.inr ⟨mine, entry⟩
      · exact Or.inl (superseded_now inv.reached moved idle same)
    · exact Or.inr (step_granted moved idle holds)
  · intro i gone mine expiry
    by_cases same : view t.cacher (requests i).idempotencyKey =
        view s.cacher (requests i).idempotencyKey
    · rcases superseded_cases inv.reached moved gone with earlier | ⟨_, changed⟩
      · rw [step_record moved same] at mine
        rw [same, back]
        exact inv.gone i earlier mine expiry
      · exact absurd same changed
    · exact step_changed moved (under i gone) same mine expiry

theorem start_watched (backend : Backend) :
    Watched settings requests (System.start libs backend) [] (System.start libs backend) := by
  have fresh : ∀ i, ¬ Superseded settings requests (System.start libs backend) [] i := by
    rintro i ⟨before, a, f, b, after, at_f, _⟩
    have split := at_f.split
    simp at split
  refine ⟨rfl, fun i gone => absurd gone (fresh i), ?_, fun i gone => absurd gone (fresh i)⟩
  intro i holds
  cases holds

theorem lease_over_iff {now : Nat} (inv : Watched settings requests start past s)
    (holds : (s.stages i).holding = true) :
    LeaseOver settings requests start past s now i ↔ ¬ PlaceholderStays requests s now i := by
  constructor
  · rintro ended ⟨mine, blank⟩
    obtain ⟨entry, alive, value⟩ := Option.map_eq_some_iff.mp blank
    obtain ⟨stored, ahead⟩ := live_some_iff.mp alive
    rw [show entry = (entry.1, placeholder s.cacher) from Prod.ext rfl value] at stored
    rcases inv.own i holds with gone | ⟨_, own⟩
    · exact inv.gone i gone mine _ stored
    · rcases ended with late | gone
      · rw [stored] at own
        have whole := congrArg Prod.fst (Option.some.inj own)
        dsimp only at whole
        omega
      · exact inv.gone i gone mine _ stored
  · intro left
    rcases inv.own i holds with gone | ⟨mine, own⟩
    · exact Or.inr gone
    · by_contra early
      rw [LeaseOver, not_or] at early
      apply left
      refine ⟨mine, ?_⟩
      rw [live_some_iff.mpr ⟨own, by omega⟩]
      rfl

end Entries

def StepCovered (start : System libs) (past : List Event) (s : System libs) (e : Event) : Prop :=
  Covered requests (LeaseOver settings requests start past s e.now) s e

/-- Every return of a lease holder leaves the cache as it should be exactly where a `?` fails
    and a command is lost only after the lease, or after its entry went. -/
theorem settled_returns_iff (backend : Backend) (evs : List Event) :
    EveryStep (step settings requests) (ReturnsSettled requests) (System.start libs backend) evs ↔
      AlongPast (step settings requests)
        (StepCovered settings requests (System.start libs backend))
        (System.start libs backend) evs := by
  apply every_step_iff_along_past
  intro before a e b after at_e
  have inv : Watched settings requests (System.start libs backend) before a :=
    run_history (fun _ _ _ _ watched moved => step_watched watched moved)
      (start_watched backend) at_e.reached
  exact step_settled_iff settings requests (fun i holds => lease_over_iff inv holds) at_e.moved

def unavailableRun : List Event :=
  [⟨0, .obtain 0 .none⟩, ⟨5, .readBody 0 (.ok ())⟩, ⟨20, .execute 0 (.ok (503, []))⟩,
    ⟨25, .receive 0 (.ok [])⟩, ⟨30, .del 0 .none⟩, ⟨40, .obtain 1 .none⟩,
    ⟨10040, .readBody 1 (.error "length limit exceeded")⟩]

theorem unavailable_run_settled :
    EveryStep (step defaults postRequest) (ReturnsSettled postRequest)
      (System.start unusedLibraries .redis) unavailableRun := by
  have timely : Along (step defaults postRequest)
      (fun s e => Covered postRequest (fun i => s.since i + defaults.cacheTtl ≤ e.now) s e)
      (System.start unusedLibraries .redis) unavailableRun := by decide
  apply (settled_returns_iff defaults postRequest .redis unavailableRun).mpr
  exact along_past_of_along
    (fun _ _ _ covered => covered_mono postRequest (fun _ late => Or.inl late) covered) timely

def leaseTaken (backend : Backend) : System unusedLibraries :=
  { stepObtain defaults postRequest (System.start unusedLibraries backend) 0 0 .none with
    clock := 0 }

/-- The request body is over the limit: the placeholder stays for the ttl. -/
theorem unread_body_leaves_lease :
    ¬ ∀ (libs : Libraries) (settings : Settings) (requests : Nat → Request) (backend : Backend)
      (evs : List Event), EveryStep (step settings requests) (ReturnsSettled requests)
        (System.start libs backend) evs := by
  intro claim
  have settled := claim unusedLibraries defaults postRequest .memory
    [⟨0, .obtain 0 .none⟩, ⟨5, .readBody 0 (.error "length limit exceeded")⟩]
    [⟨0, .obtain 0 .none⟩] ⟨5, .readBody 0 (.error "length limit exceeded")⟩ []
    (leaseTaken .memory) _ rfl rfl rfl 0 (.error (400, "length limit exceeded")) rfl rfl
  apply settled
  decide

end StuckLease
