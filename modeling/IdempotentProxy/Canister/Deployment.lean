import IdempotentProxy.Canister.LastingTokens
import IdempotentProxy.Canister.TargetUrl
import IdempotentProxy.Server.Startup

/-!
The canister and a server set up for it: somebody reads the public key that the canister
publishes and puts it, as it is, in a variable of the server's environment. From then on the
server lets the canister's agents in.
-/
namespace Deployment
open TokenLifecycle LastingTokens EventRuns Startup
open AccessControl (AppState Entry Refused)
open AgentRequests (Lacks buildRequest received)
open CallerRegistry (CanisterState Storable Validator sampleStorable)
open Minting (sampleWrite)
open HttpHeaders (Bytes)
open Prefixes (startsWith)
open Results (bind_error_iff)
open TargetUrl (arrival onWire)

section Published
variable {server : AccessControl.Libraries} (keys : Signer → server.auth.ecdsa.Key)

/-- The public key that comes back is the one of the signer that was asked. -/
def GenuineKey (s : System) : Event → Prop
  | .publicKey (.ok bytes) => server.auth.ecdsa.keyFromBytes bytes = some (keys (signer s.heap))
  | _ => True

def Published (who : Signer) (s : System) : Prop :=
  s.heap.proxyTokenPublicKey = "" ∨
    readKey server.auth.ecdsa s.heap.proxyTokenPublicKey = some (keys who)

variable {keys} {who : Signer} {lib : Validator} {storable : Storable}
  {encode : List CycleCosts.HttpResponse → Bytes} {libs : Minting.Writers} {s t : System} {e : Event}

theorem update_publishes (refresh : Refresh) (agents : List ProxyTokens.Agent) :
    (s.updateProxyToken refresh agents).heap.proxyTokenPublicKey = s.heap.proxyTokenPublicKey := by
  unfold System.updateProxyToken
  split
  · rfl
  · cases ProxyTokens.updateProxyToken agents <;> rfl

theorem published_congr (published : Published keys who s)
    (same : t.heap.proxyTokenPublicKey = s.heap.proxyTokenPublicKey) : Published keys who t := by
  unfold Published
  rw [same]
  exact published

theorem fresh_publishes {args : Option ChainArgs} {heap : CanisterState} {now : UInt64}
    (installed : init args = .ok heap) : Published keys who (.boot heap [] now) := by
  match args with
  | none => cases installed
  | some (.init args) =>
    cases installed
    exact Or.inl rfl
  | some (.upgrade args) => cases installed

theorem step_published (published : Published keys who s) (asked : signer s.heap = who)
    (genuine : GenuineKey keys s e) (moved : step lib storable encode libs s e = some t) :
    Published keys who t := by
  refine (?_ : t.heap.proxyTokenPublicKey = s.heap.proxyTokenPublicKey ∨
    readKey server.auth.ecdsa t.heap.proxyTokenPublicKey = some (keys who)).elim
      (published_congr published) Or.inr
  cases e with
  | elapse now =>
    simp only [step] at moved
    split at moved
    · cases moved
      exact Or.inl rfl
    · cases moved
  | zeroTimer =>
    simp only [step] at moved
    split at moved
    · cases moved
      exact Or.inl rfl
    · cases moved
  | publicKey key =>
    simp only [step] at moved
    split at moved
    · cases moved
      rw [System.refreshProxyToken, update_publishes]
      cases key with
      | error text => exact Or.inl rfl
      | ok bytes =>
        refine Or.inr ?_
        simp only [initEcdsaPublicKey, readKey, String.toList_ofList, Base64.decode_encode]
        exact asked ▸ genuine
    · cases moved
  | tick =>
    cases moved
    exact Or.inl (update_publishes _ _)
  | setAgents sender agents =>
    rcases set_agents_step moved with ⟨same, _⟩ | ⟨_, _, same⟩
    · exact Or.inl (same ▸ rfl)
    · exact Or.inl (same ▸ update_publishes _ _)
  | signed i signature =>
    simp only [step] at moved
    split at moved
    · cases moved
    · rename_i task found
      cases signature with
      | error text =>
        cases moved
        exact Or.inl rfl
      | ok signature =>
        cases moved
        cases task.await.resume (task.token libs signature) <;> exact Or.inl rfl
  | upgrade args =>
    simp only [step] at moved
    split at moved
    · cases moved
      exact Or.inl rfl
    · rename_i heap done
      cases moved
      exact Or.inl (post_upgrade_keeps done).2
  | message e =>
    simp only [step] at moved
    split at moved
    · cases moved
    · obtain ⟨r, done, same⟩ := Option.map_eq_some_iff.mp moved
      have left := message_leaves (Bool.eq_false_iff.mpr ‹_›) done
      cases same
      exact Or.inl (congrArg TokenPart.publicKey left.heap)

end Published
section Admission
variable {server : AccessControl.Libraries} {env : Environment} {started : Started server}

theorem configured_key {name text : String} {key : server.auth.ecdsa.Key}
    (up : main server env = some started) (named : startsWith name "ECDSA_PUB_KEY" = true)
    (given : (name, text) ∈ env) (read : readKey server.auth.ecdsa text = some key) :
    key ∈ started.server.ecdsaPubKeys := by
  obtain ⟨_, _, _, loaded⟩ := main_parts up
  obtain ⟨ecdsa, ed25519, left, _, pair⟩ := load_keys_read loaded
  have listed : (name, text) ∈ NamedTables.startingWith "ECDSA_PUB_KEY" env :=
    List.mem_filter.mpr ⟨given, named⟩
  obtain ⟨b, mem, made⟩ := NamedTables.parse_all_covers left listed
  cases made.symm.trans read
  rw [(Prod.mk.inj pair).1]
  exact mem

theorem target_refused {app : AppState server} {req : AccessControl.HttpRequest}
    {refused : Refused} (stopped : AccessControl.targetUrl app req = .error refused) :
    refused.1 = 400 := by
  unfold AccessControl.targetUrl at stopped
  split at stopped
  · dsimp only at stopped
    split at stopped
    · cases stopped
    · cases stopped
      rfl
  · dsimp only at stopped
    split at stopped
    · cases stopped
      rfl
    · cases stopped

theorem key_refused {req : AccessControl.HttpRequest} {refused : Refused}
    (stopped : AccessControl.idempotencyKey req = .error refused) : refused.1 = 400 := by
  unfold AccessControl.idempotencyKey at stopped
  dsimp only at stopped
  split at stopped
  · cases stopped
    rfl
  · cases stopped

section Agents
variable {app : AppState server} {req : AccessControl.HttpRequest} {unixMs : UInt64}
  {agent : String} (granted : AccessControl.accessAgent app req unixMs = .ok agent)
include granted

theorem let_in_refused (allowed : AccessControl.checkAllowed app agent = .ok ()) {refused : Refused}
    (stopped : AccessControl.proxy app req unixMs = .error refused) : refused.1 = 400 := by
  unfold AccessControl.proxy at stopped
  rcases bind_error_iff.mp stopped with first | ⟨agent', first, stopped⟩
  · cases granted.symm.trans first
  cases granted.symm.trans first
  rcases bind_error_iff.mp stopped with second | ⟨_, _, stopped⟩
  · cases allowed.symm.trans second
  rcases bind_error_iff.mp stopped with third | ⟨text, _, stopped⟩
  · exact target_refused third
  rcases bind_error_iff.mp stopped with fourth | ⟨url, _, stopped⟩
  · cases parsed : server.parseUrl text with
    | ok url =>
      rw [parsed] at fourth
      cases fourth
    | error err =>
      rw [parsed] at fourth
      cases fourth
      rfl
  rcases bind_error_iff.mp stopped with fifth | ⟨key, _, stopped⟩
  · exact key_refused fifth
  · cases stopped

theorem let_in_entry {entry : Entry server}
    (reached : AccessControl.proxy app req unixMs = .ok entry) : entry.agent = agent := by
  obtain ⟨found, _⟩ := AccessControl.proxy_stages reached
  exact Except.ok.inj (found.symm.trans granted)

end Agents

theorem verified_granted {app : AppState server} {req : AccessControl.HttpRequest}
    {unixMs : UInt64} {agent : String} (keyed : app.ecdsaPubKeys ≠ [])
    (verified : app.verifyToken (HttpHeaders.extractHeader req.headers "proxy-authorization" "")
      unixMs = .ok agent) : AccessControl.accessAgent app req unixMs = .ok agent := by
  unfold AccessControl.accessAgent
  rw [if_pos (Or.inl (by simpa using keyed)), verified]
  rfl

theorem listed_allowed {agent : String} (up : main server env = some started)
    (listed : listedAgents env = [] ∨ agent ∈ listedAgents env) :
    AccessControl.checkAllowed started.server.toAppState agent = .ok () := by
  obtain ⟨agents, _⟩ := main_parts up
  unfold AccessControl.checkAllowed
  rw [agents]
  refine if_neg fun refused => ?_
  rcases listed with nobody | known
  · exact refused.1 (List.toFinset_eq_empty_iff _ |>.mpr nobody)
  · exact refused.2 (List.mem_toFinset.mpr known)

end Admission
section Runs
variable {server : AccessControl.Libraries} {writeToken : UInt64 → String → Bytes → Bytes}
  {keys : Signer → server.auth.ecdsa.Key} {lib : Validator} {storable : Storable}
  {encode : List CycleCosts.HttpResponse → Bytes} {delay jitter : Nat}

end Runs
section Sample

instance (s : System) (e : Event) : Decidable (GenuineKey sampleKeys s e) := by
  unfold GenuineKey
  split
  · exact (inferInstance : DecidableEq (Option Bytes)) _ _
  · infer_instance

def announcing : List Event := sampleRun.take 2

def serving : List Event := sampleRun.drop 2

end Sample
end Deployment
