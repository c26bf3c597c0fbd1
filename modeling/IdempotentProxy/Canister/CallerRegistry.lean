import IdempotentProxy.Foundations.ChangeLog
import IdempotentProxy.Canister.CycleAccounting

/-!
The canister's callers over its whole life: proxy calls and token refreshes interleaved at
their awaits, the managers' messages, and upgrades, which save the state, load it and drop
what was suspended. No message runs before `load`, so a run starts from a stored state,
the default one after a fresh install. A `BTreeSet` is the list of its elements.
-/
namespace CallerRegistry
open ChangeLog EventRuns FixedWidth CycleCosts CanisterEndpoints Results
open ProxyTokens (Agent Awaiting)
open CycleAccounting (InFlight)

abbrev Callers := Principal → Option (U128 × Nat)

structure CoseClient where
  id : Principal
  ns : String

/-- The canister's whole state; `State` is what the proxy endpoints use of it. -/
structure CanisterState extends CanisterEndpoints.State where
  ecdsaKeyName : String
  proxyTokenPublicKey : String
  proxyTokenRefreshInterval : UInt64
  managers : List Principal
  allowedCallers : List Principal
  cose : Option CoseClient

def anonymous : Principal := [4]

structure Validator where
  validatePrincipals : List Principal → Except String Unit
  rejects_anonymous : ∀ ids, anonymous ∈ ids → ∃ text, validatePrincipals ids = .error text

structure Storable where
  Cbor : Type
  toBytes : CanisterState → Cbor
  fromBytes : Cbor → Option CanisterState
  round_trip : ∀ s, fromBytes (toBytes s) = some s

structure Sender where
  caller : Principal
  controller : Bool

section Handlers
variable (lib : Validator)

def isController (sender : Sender) : Except String Unit :=
  if sender.controller then .ok () else .error "user is not a controller"

def isManager (s : CanisterState) (caller : Principal) : Bool := s.managers.contains caller

def isControllerOrManager (sender : Sender) (s : CanisterState) : Except String Unit :=
  if sender.controller ∨ isManager s sender.caller then .ok ()
  else .error "user is not a controller or manager"

def orInsert (callers : Callers) (id : Principal) : Callers :=
  match callers id with
  | some _ => callers
  | none => Function.update callers id (some (0, 0))

def remove (callers : Callers) (id : Principal) : Callers := Function.update callers id none

def adminAddManagers (sender : Sender) (args : List Principal) (s : CanisterState) :
    Except String CanisterState := do
  isController sender
  lib.validatePrincipals args
  return { s with managers := s.managers ++ args }

def adminRemoveManagers (sender : Sender) (args : List Principal) (s : CanisterState) :
    Except String CanisterState := do
  isController sender
  lib.validatePrincipals args
  return { s with managers := s.managers.filter fun p => !args.contains p }

/-- The reply says whether the caller is new. -/
def adminAddCaller (sender : Sender) (id : Principal) (s : CanisterState) :
    Except String (CanisterState × Bool) := do
  isControllerOrManager sender s
  if id = anonymous then throw "anonymous caller cannot be added"
  else
    let has := (s.callers id).isSome
    return ({ s with callers := orInsert s.callers id }, !has)

def adminAddCallers (sender : Sender) (args : List Principal) (s : CanisterState) :
    Except String CanisterState := do
  isControllerOrManager sender s
  lib.validatePrincipals args
  return { s with callers := args.foldl orInsert s.callers }

def adminRemoveCallers (sender : Sender) (args : List Principal) (s : CanisterState) :
    Except String CanisterState := do
  isControllerOrManager sender s
  lib.validatePrincipals args
  return { s with callers := args.foldl remove s.callers }

/-- `load`, on the state read from the stable cell. -/
def migrate (s : CanisterState) : CanisterState :=
  if s.allowedCallers.isEmpty then s
  else { s with callers := s.allowedCallers.foldl orInsert s.callers, allowedCallers := [] }

structure UpgradeArgs where
  proxyTokenRefreshInterval : Option UInt64
  subnetSize : Option UInt64
  serviceFee : Option UInt64
  cose : Option CoseClient

/-- An upgrade traps on init arguments, whatever they hold. -/
inductive ChainArgs where
  | init
  | upgrade (args : UpgradeArgs)

def upgradeSettings (args : UpgradeArgs) (s : CanisterState) : Except String CanisterState := do
  let s ← match args.proxyTokenRefreshInterval with
    | some interval =>
        if interval < 10 then
          throw "proxy_token_refresh_interval must be at least 10 seconds"
        else pure { s with proxyTokenRefreshInterval := interval }
    | none => pure s
  return { s with
    subnetSize := args.subnetSize.getD s.subnetSize
    serviceFee := args.serviceFee.getD s.serviceFee
    cose := args.cose.or s.cose }

def postUpgrade (storable : Storable) (cell : storable.Cbor) (args : Option ChainArgs) :
    Except String CanisterState :=
  match storable.fromBytes cell with
  | none => .error "failed to decode State data"
  | some stored =>
      match args with
      | some (.upgrade args) => upgradeSettings args (migrate stored)
      | some .init => .error
          "cannot upgrade the canister with an Init args. Please provide an Upgrade args."
      | none => .ok (migrate stored)

end Handlers

/-- `log` lists the additions and removals of callers, migrated ones included. -/
structure System where
  heap : CanisterState
  calls : List InFlight
  refreshes : List Awaiting
  log : List (Change Principal)

inductive Event where
  | proxy (endpoint : Endpoint) (msg : Message) (now : Nat)
  | resume (n i : Nat) (outcome : Outcome) (now : Nat)
  | trap (n : Nat)
  | addManagers (sender : Sender) (args : List Principal)
  | removeManagers (sender : Sender) (args : List Principal)
  | addCaller (sender : Sender) (id : Principal)
  | addCallers (sender : Sender) (args : List Principal)
  | removeCallers (sender : Sender) (args : List Principal)
  | setAgents (sender : Sender) (agents : List Agent)
  | refresh
  | signed (n : Nat) (token : Option String)
  | publicKey (key : Option String)
  | upgrade (args : Option ChainArgs)

section Steps
variable (lib : Validator) (storable : Storable) (encode : List HttpResponse → Bytes)

def System.proceed (s : System) (others : List InFlight) :
    Except String (Machine × Progress) → System
  | .error _ => { s with calls := others }
  | .ok (m, .finished _) => { s with heap := { s.heap with toState := m.state }, calls := others }
  | .ok (m, .waiting call) => { s with
      heap := { s.heap with toState := m.state }
      calls := others ++ [⟨call, m.available⟩] }

def System.settle (s : System) (others : List Awaiting) : ProxyTokens.Progress → System
  | .awaiting await => { s with refreshes := others ++ [await] }
  | .finished agents => { s with heap := { s.heap with agents := agents }, refreshes := others }

def System.updateProxyToken (s : System) (agents : List Agent) : System :=
  if agents.isEmpty then s else s.settle s.refreshes (ProxyTokens.updateProxyToken agents)

/-- A message's new state, logged; an error leaves the old one. -/
def System.apply (s : System) (change : Principal → Change Principal) (ids : List Principal) :
    Except String CanisterState → System
  | .ok heap => { s with heap := heap, log := record change ids s.log }
  | .error _ => s

def System.start (stored : CanisterState) : System :=
  ⟨migrate stored, [], [], record .added stored.allowedCallers []⟩

/-- `pre_upgrade` and `post_upgrade`; a trap in either undoes the whole upgrade. -/
def stepUpgrade (s : System) (args : Option ChainArgs) : System :=
  match postUpgrade storable (storable.toBytes s.heap) args with
  | .error _ => s
  | .ok heap => ⟨heap, [], [], record .added s.heap.allowedCallers s.log⟩

def step (s : System) : Event → Option System
  | .proxy endpoint msg now =>
      some (s.proceed s.calls (start endpoint msg now ⟨s.heap.toState, msg.attached⟩))
  | .resume n i outcome now =>
      match s.calls[n]? with
      | none => none
      | some f =>
          if f.call.awaits i then
            some (s.proceed (s.calls.eraseIdx n)
              (resume encode i outcome now ⟨s.heap.toState, f.available⟩ f.call))
          else none
  | .trap n => some { s with calls := s.calls.eraseIdx n }
  | .addManagers sender args =>
      some (s.apply .added [] (adminAddManagers lib sender args s.heap))
  | .removeManagers sender args =>
      some (s.apply .removed [] (adminRemoveManagers lib sender args s.heap))
  | .addCaller sender id =>
      some (s.apply .added [id] ((adminAddCaller sender id s.heap).map Prod.fst))
  | .addCallers sender args =>
      some (s.apply .added args (adminAddCallers lib sender args s.heap))
  | .removeCallers sender args =>
      some (s.apply .removed args (adminRemoveCallers lib sender args s.heap))
  | .setAgents sender agents =>
      match isControllerOrManager sender s.heap with
      | .error _ => some s
      | .ok _ => some (s.updateProxyToken agents)
  | .refresh => some (s.updateProxyToken s.heap.agents)
  | .signed n token =>
      match s.refreshes[n]? with
      | none => none
      | some await =>
          match token with
          | none => some { s with refreshes := s.refreshes.eraseIdx n }
          | some token => some (s.settle (s.refreshes.eraseIdx n) (await.resume token))
  | .publicKey key => some { s with
      heap := { s.heap with proxyTokenPublicKey := key.getD s.heap.proxyTokenPublicKey } }
  | .upgrade args => some (stepUpgrade storable s args)

end Steps

/-- The part of the state that says who may call, with the log. -/
structure Registry where
  callers : Callers
  managers : List Principal
  legacy : List Principal
  log : List (Change Principal)

def System.registry (s : System) : Registry :=
  ⟨s.heap.callers, s.heap.managers, s.heap.allowedCallers, s.log⟩

def Grown (before after : Callers) : Prop :=
  ∀ p, Option.Rel (fun v w => v.1 ≤ w.1) (before p) (after p)

inductive Action where
  | credit
  | add (ids : List Principal)
  | remove (ids : List Principal)
  | manage
  | migrate

inductive Registry.Step (r : Registry) : Action → Registry → Prop where
  | credit {callers : Callers} (grown : Grown r.callers callers) :
      Step r .credit { r with callers := callers }
  | add {ids : List Principal} (named : anonymous ∉ ids) :
      Step r (.add ids)
        { r with callers := ids.foldl orInsert r.callers, log := record .added ids r.log }
  | remove {ids : List Principal} :
      Step r (.remove ids)
        { r with callers := ids.foldl remove r.callers, log := record .removed ids r.log }
  | manage {managers : List Principal}
      (named : anonymous ∉ r.managers → anonymous ∉ managers) :
      Step r .manage { r with managers := managers }
  | migrate :
      Step r .migrate
        ⟨r.legacy.foldl orInsert r.callers, r.managers, [], record .added r.legacy r.log⟩

def Event.action : Event → Action
  | .addManagers .. | .removeManagers .. => .manage
  | .addCaller _ id => .add [id]
  | .addCallers _ args => .add args
  | .removeCallers _ args => .remove args
  | .upgrade _ => .migrate
  | _ => .credit

section Callers
variable (callers : Callers) (p : Principal)

theorem or_insert_apply (id : Principal) :
    orInsert callers id p = (callers p).or (if p = id then some (0, 0) else none) := by
  unfold orInsert
  by_cases same : p = id
  · subst same
    cases known : callers p with
    | some v => simp [known]
    | none => simp
  · cases callers id with
    | some v => simp [same]
    | none => simp [same]

theorem insert_all_apply (ids : List Principal) :
    ids.foldl orInsert callers p = (callers p).or (if p ∈ ids then some (0, 0) else none) := by
  induction ids generalizing callers with
  | nil => simp
  | cons id ids ih =>
    rw [List.foldl_cons, ih, or_insert_apply, Option.or_assoc]
    by_cases same : p = id
    · simp [same]
    · simp [same]

theorem remove_all_apply (ids : List Principal) :
    ids.foldl remove callers p = if p ∈ ids then none else callers p := by
  induction ids generalizing callers with
  | nil => simp
  | cons id ids ih =>
    rw [List.foldl_cons, ih, remove]
    by_cases same : p = id
    · simp [same]
    · simp [same]

theorem insert_all_known {callers : Callers} {p : Principal} {v : U128 × Nat}
    (known : callers p = some v) (ids : List Principal) :
    ids.foldl orInsert callers p = some v := by
  rw [insert_all_apply, known, Option.some_or]

theorem insert_all_registered (ids : List Principal) :
    (ids.foldl orInsert callers p).isSome ↔ p ∈ ids ∨ (callers p).isSome := by
  rw [insert_all_apply]
  by_cases listed : p ∈ ids
  · simp [listed]
  · simp [listed]

theorem remove_all_registered (ids : List Principal) :
    (ids.foldl remove callers p).isSome ↔ p ∉ ids ∧ (callers p).isSome := by
  rw [remove_all_apply]
  by_cases listed : p ∈ ids
  · simp [listed]
  · simp [listed]

theorem grown_refl : Grown callers callers := by
  intro p
  cases callers p with
  | none => exact Option.Rel.none
  | some v => exact Option.Rel.some (Nat.le_refl v.1.val)

variable {p} {before after : Callers} (grown : Grown before after)
include grown

theorem grown_registered : (after p).isSome = (before p).isSome := by
  have each := grown p
  revert each
  generalize before p = old
  generalize after p = new
  rintro (_ | _)
  · rfl
  · rfl

theorem grown_cycles {v w : U128 × Nat} (old : before p = some v) (new : after p = some w) :
    v.1 ≤ w.1 := by
  have each := grown p
  rw [old, new] at each
  cases each with
  | some more => exact more

end Callers
section Registries
variable {r t : Registry} {a : Action} (moved : r.Step a t)
include moved

theorem step_logged {opening : Principal → Prop}
    (logged : ∀ p, (r.callers p).isSome ↔ Holds opening r.log p) (p : Principal) :
    (t.callers p).isSome ↔ Holds opening t.log p := by
  cases moved with
  | credit grown => rw [grown_registered grown, logged]
  | add _ => rw [insert_all_registered, holds_all_added, logged]
  | remove => rw [remove_all_registered, holds_all_removed, logged]
  | manage _ => exact logged p
  | migrate => rw [insert_all_registered, holds_all_added, logged]

theorem step_cycles {p : Principal} {v w : U128 × Nat} (old : r.callers p = some v)
    (new : t.callers p = some w) : v.1 ≤ w.1 := by
  have same : ∀ {w : U128 × Nat}, some v = some w → v.1 ≤ w.1 := by
    intro w same
    cases same
    exact Nat.le_refl v.1.val
  cases moved with
  | credit grown => exact grown_cycles grown old new
  | add _ => exact same ((insert_all_known old _).symm.trans new)
  | remove =>
    have left := (remove_all_apply r.callers p _).symm.trans new
    split at left
    · cases left
    · exact same (old.symm.trans left)
  | manage _ => exact same (old.symm.trans new)
  | migrate => exact same ((insert_all_known old _).symm.trans new)

end Registries

/-- Once loaded, no legacy caller and no anonymous principal. -/
structure Registry.Clean (r : Registry) : Prop where
  legacy : r.legacy = []
  callers : r.callers anonymous = none
  managers : anonymous ∉ r.managers

theorem step_clean {r t : Registry} {a : Action} (clean : r.Clean) (moved : r.Step a t) :
    t.Clean := by
  have legacy := clean.legacy
  have unregistered : (r.callers anonymous).isSome = false := by rw [clean.callers]; rfl
  cases moved with
  | credit grown =>
    refine ⟨legacy, ?_, clean.managers⟩
    rw [← Option.isNone_iff_eq_none, ← Option.not_isSome, grown_registered grown, unregistered]
    rfl
  | add named =>
    refine ⟨legacy, (insert_all_apply r.callers anonymous _).trans ?_, clean.managers⟩
    rw [clean.callers, if_neg named]
    rfl
  | remove =>
    refine ⟨legacy, (remove_all_apply r.callers anonymous _).trans ?_, clean.managers⟩
    rw [clean.callers, ite_self]
  | manage named => exact ⟨legacy, clean.callers, named clean.managers⟩
  | migrate =>
    refine ⟨rfl, (insert_all_apply r.callers anonymous _).trans ?_, clean.managers⟩
    rw [clean.callers, legacy]
    rfl

section Refinement
variable {lib : Validator} {storable : Storable} {encode : List HttpResponse → Bytes}
  {s t : System}

theorem credit_grown (account : Account) (now : Nat) (m : Machine) :
    Grown m.state.callers (account.credit now m).state.callers := by
  intro p
  unfold Account.credit updateCallerState
  cases known : m.state.callers account.caller with
  | none => exact grown_refl m.state.callers p
  | some entry =>
    obtain ⟨total, time⟩ := entry
    dsimp only
    by_cases same : p = account.caller
    · subst same
      rw [Function.update_self, known]
      refine Option.Rel.some (Fin.le_def.mpr ?_)
      simp only [saturatingAdd]
      have bound := total.isLt
      omega
    · rw [Function.update_of_ne same]
      exact grown_refl m.state.callers p

theorem proceed_credits (others : List InFlight)
    {result : Except String (Machine × Progress)}
    (grown : ∀ m progress, result = .ok (m, progress) → Grown s.heap.callers m.state.callers) :
    s.registry.Step .credit (s.proceed others result).registry := by
  cases result with
  | error text => exact .credit (grown_refl _)
  | ok done =>
    obtain ⟨m, progress⟩ := done
    cases progress with
    | finished res => exact .credit (grown m _ rfl)
    | waiting call => exact .credit (grown m _ rfl)

theorem start_grown {endpoint : Endpoint} {msg : Message} {now : Nat} {m n : Machine}
    {progress : Progress} (done : start endpoint msg now m = .ok (n, progress)) :
    Grown m.state.callers n.state.callers := by
  rcases start_leaves done with ⟨_, same⟩ | ⟨_, _, charged, _⟩
  · rw [same]
    exact grown_refl _
  · rw [charged.callers]
    exact grown_refl _

theorem resume_grown {i now : Nat} {outcome : Outcome} {m n : Machine} {call : Call}
    {progress : Progress} (done : resume encode i outcome now m call = .ok (n, progress)) :
    Grown m.state.callers n.state.callers := by
  have left := resume_leaves done
  cases progress with
  | finished res =>
    obtain ⟨charged, charge, same⟩ := left
    rw [same, ← charge.callers]
    exact credit_grown call.account now charged
  | waiting call =>
    rw [left.1.callers]
    exact grown_refl _

theorem validated_done {guarded : Except String Unit} {args : List Principal}
    {heap result : CanisterState}
    (done : (do
      guarded
      lib.validatePrincipals args
      return heap : Except String CanisterState) = .ok result) :
    anonymous ∉ args ∧ result = heap := by
  obtain ⟨_, _, done⟩ := bind_ok_iff.mp done
  obtain ⟨_, valid, done⟩ := bind_ok_iff.mp done
  cases done
  refine ⟨fun listed => ?_, rfl⟩
  obtain ⟨text, rejected⟩ := lib.rejects_anonymous args listed
  rw [rejected] at valid
  cases valid

theorem add_caller_done {sender : Sender} {id : Principal} {heap result : CanisterState}
    (done : (adminAddCaller sender id heap).map Prod.fst = .ok result) :
    anonymous ∉ [id] ∧ result = { heap with callers := orInsert heap.callers id } := by
  obtain ⟨reply, done, first⟩ := map_ok_iff.mp done
  obtain ⟨_, _, done⟩ := bind_ok_iff.mp done
  split at done
  · cases done
  · rename_i named
    cases done
    exact ⟨fun listed => named (List.mem_singleton.mp listed).symm, first.symm⟩

theorem apply_refines {a : Action} {change : Principal → Change Principal} {ids : List Principal}
    {result : Except String CanisterState}
    (accepted : ∀ heap, result = .ok heap →
      s.registry.Step a
        ⟨heap.callers, heap.managers, heap.allowedCallers, record change ids s.log⟩) :
    s.registry.Step a (s.apply change ids result).registry ∨
      (s.apply change ids result).registry = s.registry := by
  cases result with
  | error text => exact Or.inr rfl
  | ok heap => exact Or.inl (accepted heap rfl)

theorem settle_registry (others : List Awaiting) (progress : ProxyTokens.Progress) :
    (s.settle others progress).registry = s.registry := by
  cases progress <;> rfl

theorem update_token_registry (agents : List Agent) :
    (s.updateProxyToken agents).registry = s.registry := by
  unfold System.updateProxyToken
  split
  · rfl
  · exact settle_registry _ _

theorem settings_registry {args : UpgradeArgs} {heap result : CanisterState}
    (done : upgradeSettings args heap = .ok result) :
    result.callers = heap.callers ∧ result.managers = heap.managers ∧
      result.allowedCallers = heap.allowedCallers := by
  unfold upgradeSettings at done
  cases asked : args.proxyTokenRefreshInterval with
  | none =>
    rw [asked] at done
    cases done
    exact ⟨rfl, rfl, rfl⟩
  | some interval =>
    rw [asked] at done
    dsimp only at done
    split at done
    · cases done
    · cases done
      exact ⟨rfl, rfl, rfl⟩

theorem post_upgrade_registry {args : Option ChainArgs} {heap result : CanisterState}
    (done : postUpgrade storable (storable.toBytes heap) args = .ok result) :
    result.callers = (migrate heap).callers ∧ result.managers = (migrate heap).managers ∧
      result.allowedCallers = (migrate heap).allowedCallers := by
  unfold postUpgrade at done
  rw [storable.round_trip] at done
  match args with
  | none =>
    cases done
    exact ⟨rfl, rfl, rfl⟩
  | some .init => cases done
  | some (.upgrade args) => exact settings_registry done

theorem migrate_registry (heap : CanisterState) :
    (migrate heap).callers = heap.allowedCallers.foldl orInsert heap.callers ∧
      (migrate heap).managers = heap.managers ∧ (migrate heap).allowedCallers = [] := by
  unfold migrate
  split
  · rename_i empty
    have none := List.isEmpty_iff.mp empty
    refine ⟨?_, rfl, none⟩
    rw [none]
    rfl
  · exact ⟨rfl, rfl, rfl⟩

theorem upgrade_refines (args : Option ChainArgs) :
    s.registry.Step .migrate (stepUpgrade storable s args).registry ∨
      (stepUpgrade storable s args).registry = s.registry := by
  unfold stepUpgrade
  split
  · exact Or.inr rfl
  · rename_i heap done
    obtain ⟨callers, managers, legacy⟩ := post_upgrade_registry done
    obtain ⟨callers', managers', legacy'⟩ := migrate_registry s.heap
    refine Or.inl ?_
    unfold System.registry
    dsimp only
    rw [callers, managers, legacy, callers', managers', legacy']
    exact .migrate

/-- Every step is one of the registry's, or leaves it. -/
theorem step_refines {e : Event} (moved : step lib storable encode s e = some t) :
    s.registry.Step e.action t.registry ∨ t.registry = s.registry := by
  cases e with
  | proxy endpoint msg now =>
    cases moved
    exact Or.inl (proceed_credits s.calls fun m progress done => start_grown done)
  | resume n i outcome now =>
    simp only [step] at moved
    split at moved
    · cases moved
    · split at moved
      · cases moved
        exact Or.inl (proceed_credits _ fun m progress done => resume_grown done)
      · cases moved
  | trap n =>
    cases moved
    exact Or.inr rfl
  | addManagers sender args =>
    cases moved
    apply apply_refines
    intro heap done
    obtain ⟨named, same⟩ := validated_done done
    subst same
    exact .manage fun absent mem => (List.mem_append.mp mem).elim absent named
  | removeManagers sender args =>
    cases moved
    apply apply_refines
    intro heap done
    obtain ⟨_, same⟩ := validated_done done
    subst same
    exact .manage fun absent mem => absent (List.mem_of_mem_filter mem)
  | addCaller sender id =>
    cases moved
    apply apply_refines
    intro heap done
    obtain ⟨named, same⟩ := add_caller_done done
    subst same
    exact .add named
  | addCallers sender args =>
    cases moved
    apply apply_refines
    intro heap done
    obtain ⟨named, same⟩ := validated_done done
    subst same
    exact .add named
  | removeCallers sender args =>
    cases moved
    apply apply_refines
    intro heap done
    obtain ⟨_, same⟩ := validated_done done
    subst same
    exact .remove
  | setAgents sender agents =>
    simp only [step] at moved
    split at moved
    · cases moved
      exact Or.inr rfl
    · cases moved
      exact Or.inr (update_token_registry agents)
  | refresh =>
    cases moved
    exact Or.inr (update_token_registry s.heap.agents)
  | signed n token =>
    simp only [step] at moved
    split at moved
    · cases moved
    · split at moved
      · cases moved
        exact Or.inr rfl
      · cases moved
        exact Or.inr (settle_registry _ _)
  | publicKey key =>
    cases moved
    exact Or.inr rfl
  | upgrade args =>
    cases moved
    exact upgrade_refines args

end Refinement

structure CanisterState.NoAnonymous (s : CanisterState) : Prop where
  callers : s.callers anonymous = none
  managers : anonymous ∉ s.managers
  legacy : anonymous ∉ s.allowedCallers

structure Registered (stored : CanisterState) (s : System) : Prop where
  listed : ∀ p, isAllowed s.heap.toState p = true ↔
    Holds (fun p => (stored.callers p).isSome) s.log p
  clean : s.registry.Clean

/-- A slice of a proxy call or of a refresh registers and removes nobody, an upgrade
    changes no account, and an addition no account that is open. -/
def Kept (s : System) (e : Event) (t : System) : Prop :=
  match e.action with
  | .credit | .manage => ∀ p, isAllowed t.heap.toState p = isAllowed s.heap.toState p
  | .migrate => t.heap.callers = s.heap.callers
  | .add _ => ∀ p v, s.heap.callers p = some v → t.heap.callers p = some v
  | .remove _ => True

section Runs
variable (lib : Validator) (storable : Storable) (encode : List HttpResponse → Bytes)

def NeverDecreases (start : System) (evs : List Event) : Prop :=
  ∀ (pre mid post : List Event) (a b : System) (p : Principal) (v w : U128 × Nat),
    evs = pre ++ (mid ++ post) → run (step lib storable encode) start pre = some a →
    Throughout (step lib storable encode) (fun s => isAllowed s.heap.toState p = true) a mid →
    run (step lib storable encode) a mid = some b →
    a.heap.callers p = some v → b.heap.callers p = some w → v.1 ≤ w.1

structure Survives (stored : CanisterState) (evs : List Event) : Prop where
  migrated : ∀ p v, stored.callers p = some v → (System.start stored).heap.callers p = some v
  registered : Throughout (step lib storable encode) (Registered stored) (System.start stored) evs
  kept : EveryStep (step lib storable encode) Kept (System.start stored) evs
  cycles : NeverDecreases lib storable encode (System.start stored) evs

variable {lib storable encode} {stored : CanisterState} {s t : System} {e : Event}

theorem start_registry (stored : CanisterState) :
    (System.start stored).registry =
      ⟨stored.allowedCallers.foldl orInsert stored.callers, stored.managers, [],
        record .added stored.allowedCallers []⟩ := by
  obtain ⟨callers, managers, legacy⟩ := migrate_registry stored
  unfold System.registry System.start
  dsimp only
  rw [callers, managers, legacy]

theorem start_registered (named : stored.NoAnonymous) :
    Registered stored (System.start stored) := by
  have loaded := start_registry stored
  have callers := congrArg Registry.callers loaded
  have log := congrArg Registry.log loaded
  constructor
  · intro p
    change ((System.start stored).registry.callers p).isSome ↔
      Holds _ (System.start stored).registry.log p
    rw [callers, log, holds_all_added, holds_nil, insert_all_registered]
  · rw [loaded]
    refine ⟨rfl, (insert_all_apply stored.callers anonymous _).trans ?_, named.managers⟩
    rw [named.callers, if_neg named.legacy]
    rfl

theorem step_registered (inv : Registered stored s)
    (moved : step lib storable encode s e = some t) : Registered stored t := by
  rcases step_refines moved with taken | same
  · exact ⟨step_logged taken inv.listed, step_clean inv.clean taken⟩
  · have callers := congrArg Registry.callers same
    have log := congrArg Registry.log same
    refine ⟨fun p => ?_, same ▸ inv.clean⟩
    change (t.registry.callers p).isSome ↔ Holds _ t.registry.log p
    rw [callers, log]
    exact inv.listed p

theorem step_kept (inv : Registered stored s)
    (moved : step lib storable encode s e = some t) : Kept s e t := by
  unfold Kept
  rcases step_refines moved with taken | same
  · generalize e.action = a at taken ⊢
    generalize next : t.registry = r at taken
    have callers := congrArg Registry.callers next
    change t.heap.callers = r.callers at callers
    unfold isAllowed
    rw [callers]
    cases taken with
    | credit grown => exact fun p => grown_registered grown
    | add _ => exact fun p v known => insert_all_known known _
    | remove => trivial
    | manage _ => exact fun p => rfl
    | migrate =>
      have legacy : s.registry.legacy = [] := inv.clean.legacy
      dsimp only
      rw [legacy]
      rfl
  · have callers : t.heap.callers = s.heap.callers := congrArg Registry.callers same
    unfold isAllowed
    rw [callers]
    cases e.action with
    | credit => exact fun p => rfl
    | add _ => exact fun p v known => known
    | remove _ => trivial
    | manage => exact fun p => rfl
    | migrate => rfl

theorem step_account {p : Principal} {v w : U128 × Nat}
    (moved : step lib storable encode s e = some t)
    (old : s.heap.callers p = some v) (new : t.heap.callers p = some w) : v.1 ≤ w.1 := by
  rcases step_refines moved with taken | same
  · exact step_cycles taken old new
  · have callers : t.heap.callers = s.heap.callers := congrArg Registry.callers same
    rw [callers, old] at new
    cases new
    exact Nat.le_refl v.1.val

theorem run_account {p : Principal} {v w : U128 × Nat} {evs : List Event}
    (stays : Throughout (step lib storable encode)
      (fun s => isAllowed s.heap.toState p = true) s evs)
    (reached : run (step lib storable encode) s evs = some t)
    (old : s.heap.callers p = some v) (new : t.heap.callers p = some w) : v.1 ≤ w.1 := by
  induction evs generalizing s v with
  | nil =>
    cases reached
    cases old.symm.trans new
    exact Nat.le_refl _
  | cons e evs ih =>
    obtain ⟨m, first, rest⟩ := run_cons_iff.mp reached
    have registered : isAllowed m.heap.toState p = true :=
      stays [e] evs m rfl (run_single_iff.mpr first)
    obtain ⟨u, there⟩ := Option.isSome_iff_exists.mp registered
    exact Nat.le_trans (step_account first old there)
      (ih (throughout_tail stays first) rest there)

/-- Callers and their accounts survive every run, upgrades included. -/
theorem callers_survive (named : stored.NoAnonymous) (evs : List Event) :
    Survives lib storable encode stored evs where
  migrated := by
    intro p v known
    change (System.start stored).registry.callers p = some v
    rw [start_registry]
    exact insert_all_known known _
  registered := by
    intro pre post t _ reached
    exact run_invariant (fun s e t inv moved => step_registered inv moved)
      (start_registered named) reached
  kept := by
    intro pre e post a b _ reached moved
    have inv := run_invariant (fun s e t inv moved => step_registered inv moved)
      (start_registered named) reached
    exact step_kept inv moved
  cycles := by
    intro pre mid post a b p v w _ _ stays reached old new
    exact run_account stays reached old new

end Runs
section Sample

def sampleValidator : Validator where
  validatePrincipals := fun ids =>
    if ids.isEmpty then .error "principals cannot be empty"
    else if ids.contains anonymous then .error "anonymous user is not allowed"
    else .ok ()
  rejects_anonymous := by
    intro ids mem
    have some : ids.isEmpty = false := List.isEmpty_eq_false_iff_exists_mem.mpr ⟨_, mem⟩
    have listed : ids.contains anonymous = true := List.contains_iff_mem.mpr mem
    rw [some, if_neg Bool.false_ne_true, if_pos listed]
    exact ⟨_, rfl⟩

def sampleStorable : Storable := ⟨CanisterState, id, some, fun _ => rfl⟩

/-- Stored by a version that kept a list of callers: 2 is in it, 1 was moved already. -/
def sampleStored : CanisterState where
  agents := [⟨"A", "URL_A", 0, none⟩]
  callers := Function.update (fun _ => none) [1] (some (5, 7))
  subnetSize := 0
  serviceFee := 0
  incomingCycles := 0
  uncollectibleCycles := 0
  ecdsaKeyName := "dfx_test_key"
  proxyTokenPublicKey := ""
  proxyTokenRefreshInterval := 3600
  managers := [[9]]
  allowedCallers := [[1], [2]]
  cose := none

def sampleRun : List Event :=
  [.addCaller ⟨[9], false⟩ [1],
    .proxy .proxyHttpRequest ⟨[2], ⟨"URL_A", none, [], none⟩, 200, 0⟩ 0,
    .removeCallers ⟨[9], false⟩ [[2]],
    .resume 0 0 (.ok ⟨200, [], []⟩) 0,
    .upgrade none]

def Ends (s t : System) : Prop :=
  run (step sampleValidator sampleStorable fun _ => []) s sampleRun = some t

theorem legacy_callers_survive :
    sampleStored.NoAnonymous ∧
      (∃ t, Ends (System.start sampleStored) t ∧ t.heap.callers [1] = some (5, 7) ∧
        t.heap.callers [2] = none) ∧
      Survives sampleValidator sampleStorable (fun _ => []) sampleStored sampleRun := by
  have named : sampleStored.NoAnonymous := ⟨rfl, by decide, by decide⟩
  exact ⟨named, ⟨_, rfl, rfl, rfl⟩, callers_survive named sampleRun⟩

end Sample
end CallerRegistry
