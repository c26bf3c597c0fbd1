import IdempotentProxy.Foundations.Cbor

/-!
Proxy tokens and their verification, `auth.rs`. The CBOR library, the hash and the
two signature schemes are parameters. Clock readings and expiry times are `u64`;
the sum `expire_at + 10` is that of a release build and wraps.
-/
namespace TokenAuth

abbrev Bytes := List UInt8

/-- `[expire_at in seconds, agent, signature]` -/
structure Token where
  expireAt : UInt64
  agent : String
  signature : Bytes
  deriving DecidableEq

structure Scheme where
  Key : Type
  Signature : Type
  keyFromBytes : Bytes → Option Key
  parse : Bytes → Option Signature
  verify : Key → Bytes → Signature → Bool

structure Libraries where
  fromReader : Bytes → Option Token
  writePair : UInt64 → String → Bytes
  sha3_256 : Bytes → Bytes
  ecdsa : Scheme
  ed25519 : Scheme

def permittedDrift : UInt64 := 10

def Expired (token : Token) (unixMs : UInt64) : Prop :=
  token.expireAt + permittedDrift < unixMs / 1000

instance (token : Token) (unixMs : UInt64) : Decidable (Expired token unixMs) :=
  inferInstanceAs (Decidable (_ < _))

section Verification
variable (libs : Libraries) (scheme : Scheme) (message : Bytes → Bytes)

/-- What the signature has to cover: the first two fields, encoded again. -/
def signedPart (token : Token) : Bytes := message (libs.writePair token.expireAt token.agent)

/-- The steps of both verifiers. They differ in the scheme, in what they make of the
    encoded pair, and in their texts. -/
def verifyWith (unparsed unverified : String) (keys : List scheme.Key) (data : Bytes)
    (unixMs : UInt64) : Except String Token :=
  match libs.fromReader data with
  | none => .error "failed to decode CBOR data"
  | some token =>
      if Expired token unixMs then .error "token expired"
      else
        match scheme.parse token.signature with
        | none => .error unparsed
        | some sig =>
            if keys.any fun key => scheme.verify key (signedPart libs message token) sig then
              .ok token
            else .error unverified

def SignedBy (keys : List scheme.Key) (token : Token) : Prop :=
  ∃ sig, scheme.parse token.signature = some sig ∧
    ∃ key ∈ keys, scheme.verify key (signedPart libs message token) sig = true

theorem verify_with_iff {unparsed unverified : String} {keys : List scheme.Key} {data : Bytes}
    {unixMs : UInt64} {token : Token} :
    verifyWith libs scheme message unparsed unverified keys data unixMs = .ok token ↔
      libs.fromReader data = some token ∧ ¬ Expired token unixMs ∧
        SignedBy libs scheme message keys token := by
  unfold verifyWith SignedBy
  constructor
  · intro accepted
    split at accepted
    · cases accepted
    · rename_i found read
      split at accepted
      · cases accepted
      · rename_i fresh
        split at accepted
        · cases accepted
        · rename_i sig parsed
          split at accepted
          · rename_i verified
            cases accepted
            exact ⟨read, fresh, sig, parsed, List.any_eq_true.mp verified⟩
          · cases accepted
  · rintro ⟨read, fresh, sig, parsed, key, mem, valid⟩
    have verified :
        (keys.any fun key => scheme.verify key (signedPart libs message token) sig) = true :=
      List.any_eq_true.mpr ⟨key, mem, valid⟩
    simp only [read, fresh, parsed, verified, ↓reduceIte]

end Verification

variable (libs : Libraries)

def ed25519Verify (keys : List libs.ed25519.Key) (data : Bytes) (unixMs : UInt64) :
    Except String Token :=
  verifyWith libs libs.ed25519 id "failed to parse Ed25519 signature"
    "failed to verify Ed25519 signature" keys data unixMs

def ecdsaVerify (keys : List libs.ecdsa.Key) (data : Bytes) (unixMs : UInt64) :
    Except String Token :=
  verifyWith libs libs.ecdsa libs.sha3_256 "failed to parse Secp256k1 signature"
    "failed to verify ECDSA/Secp256k1 signature" keys data unixMs

theorem ed25519_verify_iff {keys : List libs.ed25519.Key} {data : Bytes} {unixMs : UInt64}
    {token : Token} : ed25519Verify libs keys data unixMs = .ok token ↔
      libs.fromReader data = some token ∧ ¬ Expired token unixMs ∧
        SignedBy libs libs.ed25519 id keys token := verify_with_iff libs libs.ed25519 id

theorem ecdsa_verify_iff {keys : List libs.ecdsa.Key} {data : Bytes} {unixMs : UInt64}
    {token : Token} : ecdsaVerify libs keys data unixMs = .ok token ↔
      libs.fromReader data = some token ∧ ¬ Expired token unixMs ∧
        SignedBy libs libs.ecdsa libs.sha3_256 keys token :=
  verify_with_iff libs libs.ecdsa libs.sha3_256

structure Signer (scheme : Scheme) where
  SigningKey : Type
  sign : SigningKey → Bytes → Bytes
  verifyingKey : SigningKey → scheme.Key

def Signer.Correct {scheme : Scheme} (signer : Signer scheme) (key : signer.SigningKey)
    (signed : Bytes) : Prop :=
  ∃ sig, scheme.parse (signer.sign key signed) = some sig ∧
    scheme.verify (signer.verifyingKey key) signed sig = true

structure Signers (libs : Libraries) where
  writeToken : Token → Bytes
  ecdsa : Signer libs.ecdsa
  ed25519 : Signer libs.ed25519

section Signing
variable {libs} (signers : Signers libs)

def signedToken (libs : Libraries) (sign : Bytes → Bytes) (expireAt : UInt64) (agent : String) : Token :=
  ⟨expireAt, agent, sign (libs.writePair expireAt agent)⟩

def ed25519Sign (key : signers.ed25519.SigningKey) (expireAt : UInt64) (agent : String) : Bytes :=
  signers.writeToken (signedToken libs (signers.ed25519.sign key) expireAt agent)

def ecdsaSign (key : signers.ecdsa.SigningKey) (expireAt : UInt64) (agent : String) : Bytes :=
  signers.writeToken (signedToken libs
    (fun pair => signers.ecdsa.sign key (libs.sha3_256 pair)) expireAt agent)

end Signing

theorem expired_iff {token : Token} {unixMs : UInt64}
    (bounded : token.expireAt.toNat + 10 < 2 ^ 64) :
    Expired token unixMs ↔ token.expireAt.toNat + 10 < unixMs.toNat / 1000 := by
  unfold Expired permittedDrift
  rw [UInt64.lt_iff_toNat_lt, UInt64.toNat_add, UInt64.toNat_div]
  have sum : (token.expireAt.toNat + (10 : UInt64).toNat) % 2 ^ 64 = token.expireAt.toNat + 10 :=
    Nat.mod_eq_of_lt bounded
  rw [sum]
  rfl

section Written
open Cbor hiding Bytes

def writePair (expireAt : UInt64) (agent : String) : Bytes :=
  arrayHead 2 ++ (uint expireAt.toNat ++ text agent)

def writeToken (token : Token) : Bytes :=
  arrayHead 3 ++ (uint token.expireAt.toNat ++ (text token.agent ++ bytes token.signature))

def readToken (input : Bytes) : Option Token := do
  let (n, input) ← readArrayHead input
  guard (n = 3)
  let (expireAt, input) ← readUint input
  let (agent, input) ← readText input
  let (signature, _) ← readBytes input
  return ⟨UInt64.ofNat expireAt, agent, signature⟩

theorem read_token {token : Token} (name : (utf8 token.agent).length < 2 ^ 64)
    (signature : token.signature.length < 2 ^ 64) : readToken (writeToken token) = some token := by
  have small := token.expireAt.toNat_lt
  have closing : readBytes (bytes token.signature) = some (token.signature, []) := by
    simpa using read_bytes signature []
  simp only [readToken, writeToken, read_array_head (by decide : 3 < 2 ^ 64), Option.bind_eq_bind,
    Option.bind_some, guard_true, Option.pure_def, read_uint small, read_text name, closing,
    UInt64.ofNat_toNat]

end Written

section Sample

/-- A token of the agent `ICPandaDAO`, its digest and signature, and the key it was
    signed with: the ones quoted in the tests of `auth.rs`. -/
def sampleKey : Bytes :=
  [3, 142, 3, 102, 156, 195, 192, 59, 234, 244, 124, 22, 223, 247, 114, 156, 231, 195, 130, 67, 9,
    28, 168, 14, 197, 76, 130, 58, 187, 249, 62, 93, 206]

def sampleDigest : Bytes :=
  [203, 7, 165, 52, 62, 81, 130, 229, 233, 229, 101, 70, 223, 158, 173, 48, 25, 231, 123, 31, 13,
    109, 165, 97, 95, 160, 102, 186, 122, 38, 221, 86]

def sampleToken : Token :=
  ⟨1717844361, "ICPandaDAO",
    [196, 43, 223, 165, 8, 240, 149, 118, 140, 145, 12, 252, 243, 30, 247, 161, 172, 131, 41, 135,
      206, 55, 236, 109, 156, 128, 176, 84, 135, 23, 65, 84, 54, 203, 163, 232, 178, 172, 168, 120,
      54, 119, 54, 6, 245, 26, 49, 65, 27, 107, 112, 107, 41, 133, 139, 13, 137, 2, 112, 27, 120,
      61, 38, 238]⟩

def sampleEdKey : Bytes :=
  [215, 90, 152, 1, 130, 177, 10, 183, 213, 75, 254, 211, 201, 100, 7, 58, 14, 225, 114, 243, 218,
    166, 35, 37, 175, 2, 26, 104, 247, 7, 81, 26]

def sampleEdToken : Token :=
  ⟨1717844361, "ICPandaDAO",
    [189, 20, 159, 215, 122, 57, 157, 5, 68, 176, 59, 111, 97, 110, 86, 79, 120, 170, 58, 193, 40,
      101, 19, 57, 251, 216, 207, 44, 240, 135, 57, 182, 123, 142, 127, 198, 144, 226, 74, 132, 119,
      104, 157, 234, 236, 225, 244, 160, 208, 106, 52, 231, 91, 182, 132, 194, 103, 84, 218, 6, 141,
      67, 115, 10]⟩

/-- Keys and signatures of the right lengths; of the signatures only `known` verifies. -/
def knownScheme (keyLength : Nat) (known : Bytes × Bytes × Bytes) : Scheme where
  Key := Bytes
  Signature := Bytes
  keyFromBytes := fun b => if b.length = keyLength then some b else none
  parse := fun b => if b.length = 64 then some b else none
  verify := fun key message sig => decide ((key, message, sig) = known)

def samplePair : Bytes := writePair 1717844361 "ICPandaDAO"

def sampleLibraries : Libraries where
  fromReader := readToken
  writePair := writePair
  sha3_256 := fun data => if data = samplePair then sampleDigest else []
  ecdsa := knownScheme 33 (sampleKey, sampleDigest, sampleToken.signature)
  ed25519 := knownScheme 32 (sampleEdKey, samplePair, sampleEdToken.signature)

example : ecdsaVerify sampleLibraries [sampleKey] (writeToken sampleToken) 1717844371999 =
    .ok sampleToken := by decide

example : ecdsaVerify sampleLibraries [sampleKey] (writeToken sampleToken) 1717844372000 =
    .error "token expired" := by decide

end Sample
end TokenAuth
