import IdempotentProxy.Server.AccessControl

/-!
Tokens of the configured keys, from either signer to `verify_token`. A server with
keys of both kinds looks at its ECDSA keys alone.
-/
namespace ConfiguredKeys
open AccessControl TokenAuth

variable {libs : AccessControl.Libraries}

inductive PrivateKey (signers : Signers libs.auth) where
  | ecdsa (key : signers.ecdsa.SigningKey)
  | ed25519 (key : signers.ed25519.SigningKey)

variable {signers : Signers libs.auth}

def PrivateKey.token (expireAt : UInt64) (agent : String) : PrivateKey signers → Token
  | .ecdsa key =>
      signedToken libs.auth (fun pair => signers.ecdsa.sign key (libs.auth.sha3_256 pair))
        expireAt agent
  | .ed25519 key => signedToken libs.auth (signers.ed25519.sign key) expireAt agent

def PrivateKey.signed (expireAt : UInt64) (agent : String) : PrivateKey signers → TokenAuth.Bytes
  | .ecdsa key => ecdsaSign signers key expireAt agent
  | .ed25519 key => ed25519Sign signers key expireAt agent

/-- The public key is in the server's list for its kind, wherever it stands there. -/
def Configured (app : AppState libs) : PrivateKey signers → Prop
  | .ecdsa key => signers.ecdsa.verifyingKey key ∈ app.ecdsaPubKeys
  | .ed25519 key => signers.ed25519.verifyingKey key ∈ app.ed25519PubKeys

def PrivateKey.Correct (expireAt : UInt64) (agent : String) : PrivateKey signers → Prop
  | .ecdsa key =>
      signers.ecdsa.Correct key (libs.auth.sha3_256 (libs.auth.writePair expireAt agent))
  | .ed25519 key => signers.ed25519.Correct key (libs.auth.writePair expireAt agent)

/-- The kind `verify_token` looks at: any ECDSA key, and an Ed25519 key while no ECDSA
    key is configured. The last case is a configured ECDSA key that accepts the bytes
    of an Ed25519 signature. -/
def LookedAt (app : AppState libs) (expireAt : UInt64) (agent : String) :
    PrivateKey signers → Prop
  | .ecdsa _ => True
  | .ed25519 key =>
      app.ecdsaPubKeys = [] ∨
        SignedBy libs.auth libs.auth.ecdsa libs.auth.sha3_256 app.ecdsaPubKeys
          ((PrivateKey.ed25519 key).token expireAt agent)

theorem signed_by_nonempty {auth : TokenAuth.Libraries} {scheme : Scheme}
    {message : TokenAuth.Bytes → TokenAuth.Bytes} {keys : List scheme.Key} {token : Token}
    (signed : SignedBy auth scheme message keys token) : keys ≠ [] := by
  obtain ⟨_, _, key, mem, _⟩ := signed
  exact List.ne_nil_of_mem mem

theorem authentic_iff {app : AppState libs} {key : PrivateKey signers} {expireAt : UInt64}
    {agent : String} (configured : Configured app key) (correct : key.Correct expireAt agent) :
    Authentic app (key.token expireAt agent) ↔ LookedAt app expireAt agent key := by
  cases key with
  | ecdsa key =>
    obtain ⟨sig, parsed, valid⟩ := correct
    exact iff_of_true
      (Or.inl ⟨List.ne_nil_of_mem configured, sig, parsed, _, configured, valid⟩) trivial
  | ed25519 key =>
    obtain ⟨sig, parsed, valid⟩ := correct
    constructor
    · rintro (⟨_, mistaken⟩ | ⟨none_left, _, _⟩)
      · exact Or.inr mistaken
      · exact Or.inl none_left
    · rintro (none_left | mistaken)
      · exact Or.inr ⟨none_left, List.ne_nil_of_mem configured, sig, parsed, _, configured, valid⟩
      · exact Or.inl ⟨signed_by_nonempty mistaken, mistaken⟩

/-- A token of a configured key, not expired, is admitted as its agent's exactly when
    keys of its kind are looked at. -/
theorem configured_admitted_iff {app : AppState libs} {key : PrivateKey signers}
    {expireAt : UInt64} {agent : String} {unixMs : UInt64} (configured : Configured app key)
    (correct : key.Correct expireAt agent)
    (reads : libs.auth.fromReader (key.signed expireAt agent) = some (key.token expireAt agent))
    (bounded : expireAt.toNat + 10 < 2 ^ 64)
    (timely : unixMs.toNat / 1000 ≤ expireAt.toNat + 10) :
    app.verifyToken (bearer (key.signed expireAt agent)) unixMs = .ok agent ↔
      LookedAt app expireAt agent key := by
  have expiry : (key.token expireAt agent).expireAt = expireAt := by cases key <;> rfl
  have name : (key.token expireAt agent).agent = agent := by cases key <;> rfl
  rw [verify_token_iff, ← authentic_iff configured correct]
  constructor
  · rintro ⟨data, token, written, read, _, authentic, _⟩
    have same := bearer_injective written
    subst same
    rw [reads] at read
    cases read
    exact authentic
  · intro authentic
    refine ⟨_, _, rfl, reads, ?_, authentic, name⟩
    rw [expired_iff (by rw [expiry]; exact bounded), expiry]
    omega

def sampleSigners : Signers AccessControl.sampleLibraries.auth where
  writeToken := writeToken
  ecdsa := ⟨Unit, fun _ _ => sampleToken.signature, fun _ => sampleKey⟩
  ed25519 := ⟨Unit, fun _ _ => sampleEdToken.signature, fun _ => sampleEdKey⟩

def appWith (ecdsaPubKeys ed25519PubKeys : List HttpHeaders.Bytes) :
    AppState AccessControl.sampleLibraries where
  agents := ∅
  urlVars := fun _ => none
  ecdsaPubKeys := ecdsaPubKeys
  ed25519PubKeys := ed25519PubKeys

def sampleEdPrivate : PrivateKey sampleSigners := .ed25519 ()

theorem ed25519_only_admitted :
    (appWith [] [sampleEdKey]).verifyToken
        (bearer (sampleEdPrivate.signed 1717844361 "ICPandaDAO")) 1717844361000 =
          .ok "ICPandaDAO" ↔
      LookedAt (appWith [] [sampleEdKey]) 1717844361 "ICPandaDAO" sampleEdPrivate := by
  have reads : readToken (writeToken sampleEdToken) = some sampleEdToken :=
    read_token (by decide) (by decide)
  exact configured_admitted_iff (List.mem_singleton_self _)
    ⟨sampleEdToken.signature, rfl, by decide⟩ reads (by decide) (by decide)

/-- The Ed25519 key stays configured while a Secp256k1 key is added. -/
theorem ed25519_refused_beside_ecdsa :
    ¬ ∀ (libs : AccessControl.Libraries) (signers : Signers libs.auth) (app : AppState libs)
      (key : PrivateKey signers) (expireAt : UInt64) (agent : String) (unixMs : UInt64),
        Configured app key → key.Correct expireAt agent →
        libs.auth.fromReader (key.signed expireAt agent) = some (key.token expireAt agent) →
        expireAt.toNat + 10 < 2 ^ 64 → unixMs.toNat / 1000 ≤ expireAt.toNat + 10 →
        app.verifyToken (bearer (key.signed expireAt agent)) unixMs = .ok agent := by
  intro claim
  have reads : readToken (writeToken sampleEdToken) = some sampleEdToken :=
    read_token (by decide) (by decide)
  have admitted := claim AccessControl.sampleLibraries sampleSigners
    (appWith [sampleKey] [sampleEdKey]) sampleEdPrivate 1717844361 "ICPandaDAO" 1717844361000
    (List.mem_singleton_self _) ⟨sampleEdToken.signature, rfl, by decide⟩ reads (by decide)
    (by decide)
  obtain ⟨data, token, written, read, _, authentic, _⟩ := (verify_token_iff _).mp admitted
  have same := bearer_injective written
  subst same
  have found : token = sampleEdToken := Option.some.inj (read.symm.trans reads)
  subst found
  rcases authentic with ⟨_, sig, parsed, key, mem, valid⟩ | ⟨none_left, _⟩
  · have taken : some sampleEdToken.signature = some sig := parsed
    cases taken
    rw [List.mem_singleton.mp mem] at valid
    revert valid
    decide
  · cases none_left

end ConfiguredKeys
