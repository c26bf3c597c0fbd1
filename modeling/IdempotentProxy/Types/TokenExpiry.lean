import IdempotentProxy.Types.Auth

/-!
When the verifiers call a token expired. The sum `expire_at + 10` is taken in `u64`
before the signature is looked at; a release build wraps it and a debug build stops.
-/
namespace TokenExpiry
open TokenAuth

/-- At every clock reading the verifier refuses the token as expired exactly when it is
    more than ten seconds past its expiry, and takes a signed one until then. -/
structure ExpiryExact (verify : UInt64 → Except String Token) (token : Token) (signed : Prop) :
    Prop where
  refused : ∀ unixMs, verify unixMs = .error "token expired" ↔
    token.expireAt.toNat + permittedDrift.toNat < unixMs.toNat / 1000
  accepted : signed → ∀ unixMs : UInt64,
    unixMs.toNat / 1000 ≤ token.expireAt.toNat + permittedDrift.toNat → verify unixMs = .ok token

section Verifier
variable {libs : Libraries} {scheme : Scheme} {message : Bytes → Bytes}
  {unparsed unverified : String} {keys : List scheme.Key} {data : Bytes} {token : Token}

theorem refused_iff (read : libs.fromReader data = some token)
    (first : unparsed ≠ "token expired") (second : unverified ≠ "token expired")
    (unixMs : UInt64) :
    verifyWith libs scheme message unparsed unverified keys data unixMs =
        .error "token expired" ↔ Expired token unixMs := by
  unfold verifyWith
  simp only [read]
  constructor
  · intro refused
    by_contra fresh
    rw [if_neg fresh] at refused
    split at refused
    · exact first (Except.error.inj refused)
    · split at refused
      · cases refused
      · exact second (Except.error.inj refused)
  · intro expired
    rw [if_pos expired]

theorem wrapped_expired (wraps : 2 ^ 64 ≤ token.expireAt.toNat + 10) : Expired token 20000 := by
  have bound := token.expireAt.toNat_lt
  unfold Expired permittedDrift
  rw [UInt64.lt_iff_toNat_lt, UInt64.toNat_add]
  have ten : (10 : UInt64).toNat = 10 := rfl
  have clock : ((20000 : UInt64) / 1000).toNat = 20 := rfl
  rw [ten, clock]
  omega

theorem verify_exact_iff (read : libs.fromReader data = some token)
    (first : unparsed ≠ "token expired") (second : unverified ≠ "token expired") :
    ExpiryExact (verifyWith libs scheme message unparsed unverified keys data) token
        (SignedBy libs scheme message keys token) ↔ token.expireAt.toNat + 10 < 2 ^ 64 := by
  have drift : permittedDrift.toNat = 10 := rfl
  constructor
  · intro exact
    by_contra wraps
    have expired := wrapped_expired (Nat.le_of_not_lt wraps)
    have late := (exact.refused 20000).mp ((refused_iff read first second 20000).mpr expired)
    have clock : (20000 : UInt64).toNat = 20000 := rfl
    rw [drift, clock] at late
    omega
  · intro bounded
    refine ⟨?_, ?_⟩
    · intro unixMs
      rw [refused_iff read first second, expired_iff bounded, drift]
    · intro signed unixMs timely
      refine (verify_with_iff libs scheme message).mpr ⟨read, ?_, signed⟩
      rw [expired_iff bounded]
      rw [drift] at timely
      omega

end Verifier

/-- Both verifiers read the expiry of a decoded token exactly when ten seconds can be
    added to it in 64 bits. -/
theorem expiry_exact_iff {libs : Libraries} {data : Bytes} {token : Token}
    (read : libs.fromReader data = some token) (edKeys : List libs.ed25519.Key)
    (ecKeys : List libs.ecdsa.Key) :
    (ExpiryExact (ed25519Verify libs edKeys data) token
        (SignedBy libs libs.ed25519 id edKeys token) ↔ token.expireAt.toNat + 10 < 2 ^ 64) ∧
      (ExpiryExact (ecdsaVerify libs ecKeys data) token
        (SignedBy libs libs.ecdsa libs.sha3_256 ecKeys token) ↔
          token.expireAt.toNat + 10 < 2 ^ 64) :=
  ⟨verify_exact_iff read (by decide) (by decide), verify_exact_iff read (by decide) (by decide)⟩

theorem sample_token_exact :
    (ExpiryExact (ed25519Verify sampleLibraries [] (writeToken sampleToken)) sampleToken
        (SignedBy sampleLibraries sampleLibraries.ed25519 id [] sampleToken) ↔
      sampleToken.expireAt.toNat + 10 < 2 ^ 64) ∧
      (ExpiryExact (ecdsaVerify sampleLibraries [sampleKey] (writeToken sampleToken)) sampleToken
        (SignedBy sampleLibraries sampleLibraries.ecdsa sampleLibraries.sha3_256 [sampleKey]
          sampleToken) ↔ sampleToken.expireAt.toNat + 10 < 2 ^ 64) := by
  have read : sampleLibraries.fromReader (writeToken sampleToken) = some sampleToken :=
    read_token (by decide) (by decide)
  exact expiry_exact_iff read [] [sampleKey]

def lastingToken : Token := ⟨18446744073709551615, "ICPandaDAO", sampleToken.signature⟩

theorem lasting_token_refused :
    ¬ ∀ (libs : Libraries) (keys : List libs.ecdsa.Key) (data : Bytes) (token : Token),
      libs.fromReader data = some token →
        ExpiryExact (ecdsaVerify libs keys data) token
          (SignedBy libs libs.ecdsa libs.sha3_256 keys token) := by
  intro claim
  have read : sampleLibraries.fromReader (writeToken lastingToken) = some lastingToken :=
    read_token (by decide) (by decide)
  have exact := claim sampleLibraries [sampleKey] (writeToken lastingToken) lastingToken read
  have refused : ecdsaVerify sampleLibraries [sampleKey] (writeToken lastingToken) 1717844361000 =
      .error "token expired" := by decide
  have late := (exact.refused 1717844361000).mp refused
  revert late
  decide

end TokenExpiry
