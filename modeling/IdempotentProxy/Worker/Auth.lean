import IdempotentProxy.Server.AccessControl

/-!
Token verification in the Cloudflare worker, `EnvVars` of `util.ts` and `auth.ts`.
Numbers are JavaScript's: integers below 2^53 exactly, sums rounded. `cborg`, the
hash and the curves are parameters. The Rust server's reading of the same variables
stands beside the worker's.
-/
namespace WorkerAuth
open AccessControl Prefixes Results
open HttpHeaders (Bytes)
open TokenAuth (Expired SignedBy signedPart)

def isBlank (c : Char) : Bool :=
  c.toNat == 9 || c.toNat == 10 || c.toNat == 12 || c.toNat == 13 || c.toNat == 32

/-- One or two trailing `=` are padding where the length is a multiple of four. -/
def withoutPadding (cs : List Char) : List Char :=
  if cs.length % 4 = 0 then
    match cs.reverse with
    | '=' :: '=' :: rest => rest.reverse
    | '=' :: rest => rest.reverse
    | _ => cs
  else cs

def atob (cs : List Char) : Option Bytes :=
  (Base64.indices Base64.standard (withoutPadding (cs.filter fun c => !isBlank c))).bind
    Base64.unpack

def toStandard (c : Char) : Char := if c = '-' then '+' else if c = '_' then '/' else c

def base64ToBytes (s : String) : Option Bytes := atob (s.toList.map toStandard)

structure Pubkeys where
  ecdsa : List Bytes
  ed25519 : List Bytes

/-- `none` where `base64ToBytes` throws. -/
def parsePubkeys : List (String × String) → Option Pubkeys
  | [] => some ⟨[], []⟩
  | (key, value) :: env =>
      if startsWith key "ECDSA_PUB_KEY" then
        (base64ToBytes value).bind fun bytes =>
          (parsePubkeys env).map fun keys => ⟨bytes :: keys.ecdsa, keys.ed25519⟩
      else if startsWith key "ED25519_PUB_KEY" then
        (base64ToBytes value).bind fun bytes =>
          (parsePubkeys env).map fun keys => ⟨keys.ecdsa, bytes :: keys.ed25519⟩
      else parsePubkeys env

/-- The double next to `n`, for `n` below 2^54; ties go to the even significand. -/
def toNumber (n : Nat) : Nat :=
  if n ≤ 2 ^ 53 ∨ n % 2 = 0 then n else if (n + 1) % 4 = 0 then n + 1 else n - 1

abbrev DateNow := { ms : Nat // ms ≤ 8640000000000000 }

structure Token where
  expireAt : Nat
  agent : String
  signature : Bytes
  deriving DecidableEq

structure Libraries where
  decode : Bytes → Except String Token
  encodePair : Nat → String → Bytes
  sha3 : Bytes → Bytes
  secp256k1Verify : Bytes → Bytes → Bytes → Bool
  ed25519Verify : Bytes → Bytes → Bytes → Bool

def permittedDrift : Nat := 10

section Verification
variable (js : Libraries)

def verifyWith (verify : Bytes → Bytes → Bytes → Bool) (message : Bytes → Bytes)
    (unverified : String) (pubKeys : List Bytes) (data : Bytes) (now : DateNow) :
    Except String Token := do
  let token ← js.decode data
  if toNumber (token.expireAt + permittedDrift) * 1000 < now.val then throw "token expired"
  let msg := message (js.encodePair token.expireAt token.agent)
  if pubKeys.any fun pubKey => verify token.signature msg pubKey then return token
  throw unverified

def ed25519Verify : List Bytes → Bytes → DateNow → Except String Token :=
  verifyWith js js.ed25519Verify id "failed to verify Ed25519 signature"

def ecdsaVerify : List Bytes → Bytes → DateNow → Except String Token :=
  verifyWith js js.secp256k1Verify js.sha3 "failed to verify ECDSA/Secp256k1 signature"

/-- The second branch hands the ECDSA keys to `ed25519Verify`. -/
def verifyToken (pubKeys : Pubkeys) (token : String) (now : DateNow) : Except String String :=
  if startsWith token "Bearer " then
    match base64ToBytes (stripPrefix token "Bearer ") with
    | none => .error "InvalidCharacterError"
    | some data =>
        if pubKeys.ecdsa.length > 0 then (ecdsaVerify js pubKeys.ecdsa data now).map Token.agent
        else if pubKeys.ed25519.length > 0 then
          (ed25519Verify js pubKeys.ecdsa data now).map Token.agent
        else .error "no public key found"
  else .error "invalid bearer token"

end Verification

def loadKeys (libs : TokenAuth.Libraries) :
    List (String × String) → Option (List libs.ecdsa.Key × List libs.ed25519.Key)
  | [] => some ([], [])
  | (name, value) :: env =>
      if startsWith name "ECDSA_PUB_KEY" then
        ((Base64.decode Base64.urlSafe value.toList).bind libs.ecdsa.keyFromBytes).bind fun key =>
          (loadKeys libs env).map fun keys => (key :: keys.1, keys.2)
      else if startsWith name "ED25519_PUB_KEY" then
        ((Base64.decode Base64.urlSafe value.toList).bind libs.ed25519.keyFromBytes).bind fun key =>
          (loadKeys libs env).map fun keys => (keys.1, key :: keys.2)
      else loadKeys libs env

section Decoding

theorem standard_of_url_safe : ∀ n < 64,
    toStandard (Base64.urlSafe.symbol n) = Base64.standard.symbol n := by decide

theorem standard_symbol_plain : ∀ n < 64,
    isBlank (Base64.standard.symbol n) = false ∧ Base64.standard.symbol n ≠ '=' := by decide

theorem without_padding_none {cs : List Char} (unpadded : '=' ∉ cs) : withoutPadding cs = cs := by
  have reversed : '=' ∉ cs.reverse := by simpa using unpadded
  unfold withoutPadding
  split
  · split
    · rename_i rest same
      simp [same] at reversed
    · rename_i rest _ same
      simp [same] at reversed
    · rfl
  · rfl

/-- Whatever the server's strict decoder reads, the worker reads the same. -/
theorem base64_to_bytes_of_decode {s : String} {data : Bytes}
    (decoded : Base64.decode Base64.urlSafe s.toList = some data) :
    base64ToBytes s = some data := by
  have bound := Base64.pack_bound data
  have text : s.toList.map toStandard = Base64.encode Base64.standard data := by
    rw [(Base64.decode_iff _).mp decoded, Base64.encode, List.map_map]
    exact List.map_congr_left fun n mem => standard_of_url_safe n (bound n mem)
  have plain : ∀ c ∈ Base64.encode Base64.standard data, isBlank c = false ∧ c ≠ '=' := by
    intro c mem
    obtain ⟨n, packed, rfl⟩ := List.mem_map.mp mem
    exact standard_symbol_plain n (bound n packed)
  have kept : (Base64.encode Base64.standard data).filter (fun c => !isBlank c) =
      Base64.encode Base64.standard data := by
    rw [List.filter_eq_self]
    intro c mem
    rw [(plain c mem).1]
    rfl
  have unpadded : '=' ∉ Base64.encode Base64.standard data := fun mem => (plain _ mem).2 rfl
  rw [base64ToBytes, atob, text, kept, without_padding_none unpadded, Base64.encode,
    Base64.indices_map Base64.standard bound, Option.bind_some, Base64.unpack_pack]

end Decoding

section Keys
variable {libs : TokenAuth.Libraries}

def SameKeys (scheme : TokenAuth.Scheme) (pubKeys : List Bytes) (keys : List scheme.Key) : Prop :=
  List.Forall₂ (fun bytes key => scheme.keyFromBytes bytes = some key) pubKeys keys

theorem same_keys_length {scheme : TokenAuth.Scheme} {pubKeys : List Bytes}
    {keys : List scheme.Key} (same : SameKeys scheme pubKeys keys) :
    pubKeys.length > 0 ↔ keys ≠ [] := by
  rw [List.Forall₂.length_eq same, gt_iff_lt, List.length_pos_iff]

theorem bytes_of_key {scheme : TokenAuth.Scheme} {value : String} {key : scheme.Key}
    (read : (Base64.decode Base64.urlSafe value.toList).bind scheme.keyFromBytes = some key) :
    ∃ bytes, base64ToBytes value = some bytes ∧ scheme.keyFromBytes bytes = some key := by
  obtain ⟨bytes, decoded, made⟩ := Option.bind_eq_some_iff.mp read
  exact ⟨bytes, base64_to_bytes_of_decode decoded, made⟩

theorem parse_of_load {env : List (String × String)}
    {keys : List libs.ecdsa.Key × List libs.ed25519.Key} (loaded : loadKeys libs env = some keys) :
    ∃ pubKeys, parsePubkeys env = some pubKeys ∧ SameKeys libs.ecdsa pubKeys.ecdsa keys.1 ∧
      SameKeys libs.ed25519 pubKeys.ed25519 keys.2 := by
  induction env generalizing keys with
  | nil =>
    cases loaded
    exact ⟨⟨[], []⟩, rfl, List.Forall₂.nil, List.Forall₂.nil⟩
  | cons entry env ih =>
    obtain ⟨name, value⟩ := entry
    simp only [loadKeys] at loaded
    simp only [parsePubkeys]
    split at loaded
    · rename_i ecdsa
      obtain ⟨key, read, rest⟩ := Option.bind_eq_some_iff.mp loaded
      obtain ⟨bytes, decoded, made⟩ := bytes_of_key read
      obtain ⟨others, later, same⟩ := Option.map_eq_some_iff.mp rest
      subst same
      obtain ⟨pubKeys, parsed, first, second⟩ := ih later
      rw [if_pos ecdsa, decoded, Option.bind_some, parsed]
      exact ⟨_, rfl, List.Forall₂.cons made first, second⟩
    · rename_i not_ecdsa
      rw [if_neg not_ecdsa]
      split at loaded
      · rename_i ed25519
        obtain ⟨key, read, rest⟩ := Option.bind_eq_some_iff.mp loaded
        obtain ⟨bytes, decoded, made⟩ := bytes_of_key read
        obtain ⟨others, later, same⟩ := Option.map_eq_some_iff.mp rest
        subst same
        obtain ⟨pubKeys, parsed, first, second⟩ := ih later
        rw [if_pos ed25519, decoded, Option.bind_some, parsed]
        exact ⟨_, rfl, first, List.Forall₂.cons made second⟩
      · rename_i neither
        rw [if_neg neither]
        exact ih loaded

end Keys

/-- What the two sides are assumed to share: the encoding of the pair, the hash, and
    which signatures a key accepts. -/
structure Agreement (libs : TokenAuth.Libraries) (js : Libraries) : Prop where
  pair : ∀ e a, e < 2 ^ 53 → js.encodePair e a = libs.writePair (UInt64.ofNat e) a
  hash : js.sha3 = libs.sha3_256
  ecdsa : ∀ bytes key, libs.ecdsa.keyFromBytes bytes = some key → ∀ msg signature,
    js.secp256k1Verify signature msg bytes =
      (libs.ecdsa.parse signature).any fun sig => libs.ecdsa.verify key msg sig
  ed25519 : ∀ bytes key, libs.ed25519.keyFromBytes bytes = some key → ∀ msg signature,
    js.ed25519Verify signature msg bytes =
      (libs.ed25519.parse signature).any fun sig => libs.ed25519.verify key msg sig

def Token.served (token : Token) : TokenAuth.Token :=
  ⟨UInt64.ofNat token.expireAt, token.agent, token.signature⟩

theorem late_iff_expired {token : Token} {now : DateNow} (small : token.expireAt < 2 ^ 53)
    (whole : now.val % 1000 = 0) :
    toNumber (token.expireAt + permittedDrift) * 1000 < now.val ↔
      Expired token.served (UInt64.ofNat now.val) := by
  have range := now.property
  have expire : (UInt64.ofNat token.expireAt).toNat = token.expireAt := by
    rw [UInt64.toNat_ofNat']
    omega
  have clock : (UInt64.ofNat now.val).toNat = now.val := by
    rw [UInt64.toNat_ofNat']
    omega
  rw [TokenAuth.expired_iff (by simp only [Token.served, expire]; omega)]
  simp only [Token.served, expire, clock, permittedDrift]
  by_cases exact_sum : token.expireAt + 10 ≤ 2 ^ 53
  · rw [toNumber, if_pos (Or.inl exact_sum)]
    omega
  · have high : 2 ^ 53 ≤ toNumber (token.expireAt + 10) := by
      unfold toNumber
      split
      · omega
      · split <;> omega
    omega

section Agreeing
variable {libs : TokenAuth.Libraries} {scheme : TokenAuth.Scheme}
  {verify : Bytes → Bytes → Bytes → Bool}

theorem any_iff_signed {pubKeys : List Bytes} {keys : List scheme.Key} {message : Bytes → Bytes}
    {token : TokenAuth.Token} {msg : Bytes}
    (agreement : ∀ bytes key, scheme.keyFromBytes bytes = some key → ∀ msg signature,
      verify signature msg bytes =
        (scheme.parse signature).any fun sig => scheme.verify key msg sig)
    (same : SameKeys scheme pubKeys keys) (covered : msg = signedPart libs message token) :
    (pubKeys.any fun pubKey => verify token.signature msg pubKey) = true ↔
      SignedBy libs scheme message keys token := by
  subst covered
  unfold SignedBy
  induction same with
  | nil => simp
  | @cons bytes key pubKeys keys made same ih =>
    rw [List.any_cons, Bool.or_eq_true, ih, agreement bytes key made]
    constructor
    · rintro (here | ⟨sig, parsed, other, mem, valid⟩)
      · obtain ⟨sig, parsed, valid⟩ := (Option.any_eq_true _ _).mp here
        exact ⟨sig, parsed, key, by simp, valid⟩
      · exact ⟨sig, parsed, other, List.mem_cons_of_mem key mem, valid⟩
    · rintro ⟨sig, parsed, other, mem, valid⟩
      rcases List.mem_cons.mp mem with rfl | mem
      · exact Or.inl (by rw [parsed]; exact valid)
      · exact Or.inr ⟨sig, parsed, other, mem, valid⟩

end Agreeing

section Verdicts
variable (js : Libraries)

theorem verify_with_ok_iff {verify : Bytes → Bytes → Bytes → Bool} {message : Bytes → Bytes}
    {unverified : String} {pubKeys : List Bytes} {data : Bytes} {now : DateNow}
    {token found : Token}
    (read : js.decode data = .ok token) :
    verifyWith js verify message unverified pubKeys data now = .ok found ↔
      found = token ∧ ¬ toNumber (token.expireAt + permittedDrift) * 1000 < now.val ∧
        (pubKeys.any fun pubKey => verify token.signature
          (message (js.encodePair token.expireAt token.agent)) pubKey) = true := by
  unfold verifyWith
  rw [read]
  by_cases late : toNumber (token.expireAt + permittedDrift) * 1000 < now.val
  · simp [late, bind, Except.bind, throw, throwThe, MonadExceptOf.throw]
  · by_cases verified : (pubKeys.any fun pubKey => verify token.signature
        (message (js.encodePair token.expireAt token.agent)) pubKey) = true
    · simp [late, verified, bind, Except.bind, pure, Except.pure, eq_comm]
    · simp [late, verified, bind, Except.bind, throw, throwThe, MonadExceptOf.throw]

section Deployed
variable {libs : AccessControl.Libraries} {app : AppState libs} {pubKeys : Pubkeys} {data : Bytes}
  {token : Token} {now : DateNow} {agent : String}

theorem worker_accepts_iff (agreement : Agreement libs.auth js)
    (ecdsa : SameKeys libs.auth.ecdsa pubKeys.ecdsa app.ecdsaPubKeys)
    (read : js.decode data = .ok token) (small : token.expireAt < 2 ^ 53)
    (whole : now.val % 1000 = 0) :
    verifyToken js pubKeys (bearer data) now = .ok agent ↔
      app.ecdsaPubKeys ≠ [] ∧ token.agent = agent ∧
        ¬ Expired token.served (UInt64.ofNat now.val) ∧
        SignedBy libs.auth libs.auth.ecdsa libs.auth.sha3_256 app.ecdsaPubKeys token.served := by
  have started : startsWith (bearer data) "Bearer " = true := starts_with_append _ _
  have stripped : base64ToBytes (stripPrefix (bearer data) "Bearer ") = some data := by
    rw [bearer, strip_prefix_append]
    apply base64_to_bytes_of_decode
    rw [String.toList_ofList, Base64.decode_encode]
  have covered : js.sha3 (js.encodePair token.expireAt token.agent) =
      signedPart libs.auth libs.auth.sha3_256 token.served := by
    rw [agreement.hash, agreement.pair _ _ small]
    rfl
  have signed := any_iff_signed agreement.ecdsa ecdsa covered
  rw [← same_keys_length ecdsa, ← signed, ← late_iff_expired small whole, verifyToken,
    if_pos started, stripped]
  dsimp only
  by_cases keys : pubKeys.ecdsa.length > 0
  · rw [if_pos keys, map_ok_iff]
    simp only [ecdsaVerify, verify_with_ok_iff js read, keys, true_and]
    constructor
    · rintro ⟨found, ⟨rfl, timely, verified⟩, named⟩
      exact ⟨named, timely, verified⟩
    · rintro ⟨named, timely, verified⟩
      exact ⟨token, ⟨rfl, timely, verified⟩, named⟩
  · have none_left : pubKeys.ecdsa = [] := List.eq_nil_of_length_eq_zero (by omega)
    rw [if_neg keys]
    constructor
    · intro accepted
      split at accepted
      · obtain ⟨found, verified, _⟩ := map_ok_iff.mp accepted
        rw [ed25519Verify, verify_with_ok_iff js read, none_left] at verified
        simp at verified
      · cases accepted
    · rintro ⟨some_keys, _⟩
      exact absurd some_keys keys

theorem server_accepts_iff (read : libs.auth.fromReader data = some token.served)
    {unixMs : UInt64} :
    app.verifyToken (bearer data) unixMs = .ok agent ↔
      token.agent = agent ∧ ¬ Expired token.served unixMs ∧ Authentic app token.served := by
  rw [verify_token_iff]
  constructor
  · rintro ⟨data', found, same, decoded, fresh, authentic, named⟩
    rw [← bearer_injective same, read] at decoded
    cases decoded
    exact ⟨named, fresh, authentic⟩
  · rintro ⟨named, fresh, authentic⟩
    exact ⟨data, token.served, rfl, read, fresh, authentic, named⟩

/-- Both sides accept the same tokens as the same agents exactly when an ECDSA key is
    configured or the server refuses the token as well. -/
theorem same_tokens_iff {env : List (String × String)} (agreement : Agreement libs.auth js)
    (loaded : loadKeys libs.auth env = some (app.ecdsaPubKeys, app.ed25519PubKeys))
    (worker_reads : js.decode data = .ok token)
    (server_reads : libs.auth.fromReader data = some token.served)
    (small : token.expireAt < 2 ^ 53) (whole : now.val % 1000 = 0) :
    ∃ pubKeys, parsePubkeys env = some pubKeys ∧
      ((∀ agent, verifyToken js pubKeys (bearer data) now = .ok agent ↔
          app.verifyToken (bearer data) (UInt64.ofNat now.val) = .ok agent) ↔
        app.ecdsaPubKeys ≠ [] ∨ Expired token.served (UInt64.ofNat now.val) ∨
          ¬ SignedBy libs.auth libs.auth.ed25519 id app.ed25519PubKeys token.served) := by
  obtain ⟨pubKeys, parsed, ecdsa, _⟩ := parse_of_load loaded
  refine ⟨pubKeys, parsed, ?_⟩
  simp only [worker_accepts_iff js agreement ecdsa worker_reads small whole,
    server_accepts_iff server_reads]
  constructor
  · intro same
    by_contra refused
    simp only [not_or, not_not] at refused
    obtain ⟨no_keys, fresh, signed⟩ := refused
    have some_keys : app.ed25519PubKeys ≠ [] := by
      obtain ⟨_, _, key, mem, _⟩ := signed
      exact List.ne_nil_of_mem mem
    exact ((same token.agent).mpr ⟨rfl, fresh, Or.inr ⟨no_keys, some_keys, signed⟩⟩).1 no_keys
  · rintro (keys | refused) agent
    · constructor
      · rintro ⟨_, named, fresh, signed⟩
        exact ⟨named, fresh, Or.inl ⟨keys, signed⟩⟩
      · rintro ⟨named, fresh, ⟨_, signed⟩ | ⟨no_keys, _⟩⟩
        · exact ⟨keys, named, fresh, signed⟩
        · exact absurd no_keys keys
    · constructor
      · rintro ⟨keys, named, fresh, signed⟩
        exact ⟨named, fresh, Or.inl ⟨keys, signed⟩⟩
      · rintro ⟨named, fresh, ⟨keys, signed⟩ | ⟨_, _, signed⟩⟩
        · exact ⟨keys, named, fresh, signed⟩
        · rcases refused with late | unsigned
          · exact absurd late fresh
          · exact absurd signed unsigned

end Deployed
end Verdicts
section Sample
open TokenAuth (knownScheme readToken writePair writeToken sampleKey sampleEdKey samplePair
  sampleDigest sampleToken sampleEdToken)

def knownVerify (known : Bytes × Bytes × Bytes) (signature msg key : Bytes) : Bool :=
  decide ((key, msg, signature) = known)

def sampleJs : Libraries where
  decode := fun data =>
    match readToken data with
    | some token => .ok ⟨token.expireAt.toNat, token.agent, token.signature⟩
    | none => .error "CBOR decode error"
  encodePair := fun e a => writePair (UInt64.ofNat e) a
  sha3 := TokenAuth.sampleLibraries.sha3_256
  secp256k1Verify := knownVerify (sampleKey, sampleDigest, sampleToken.signature)
  ed25519Verify := knownVerify (sampleEdKey, samplePair, sampleEdToken.signature)

theorem known_agrees {keyLength : Nat} {known : Bytes × Bytes × Bytes}
    (size : known.2.2.length = 64) {bytes key : Bytes}
    (made : (knownScheme keyLength known).keyFromBytes bytes = some key) (msg signature : Bytes) :
    knownVerify known signature msg bytes =
      ((knownScheme keyLength known).parse signature).any
        fun sig => (knownScheme keyLength known).verify key msg sig := by
  have same : bytes = key := by
    simp only [knownScheme] at made
    split at made
    · exact Option.some.inj made
    · cases made
  subst same
  simp only [knownScheme, knownVerify]
  split
  · rfl
  · rename_i short
    have other : (bytes, msg, signature) ≠ known := by
      rintro rfl
      exact short size
    simp [other]

theorem sample_agreement : Agreement AccessControl.sampleLibraries.auth sampleJs where
  pair := fun _ _ _ => rfl
  hash := rfl
  ecdsa := fun _ _ made => known_agrees (by decide) made
  ed25519 := fun _ _ made => known_agrees (by decide) made

def serving (ecdsa ed25519 : List Bytes) : AppState AccessControl.sampleLibraries :=
  ⟨∅, fun _ => none, ecdsa, ed25519⟩

def sampleEcdsaVar : String × String :=
  ("ECDSA_PUB_KEY_1", "A44DZpzDwDvq9HwW3_dynOfDgkMJHKgOxUyCOrv5Pl3O")

def sampleEdVar : String × String :=
  ("ED25519_PUB_KEY_1", "11qYAYKxCrfVS_7TyWQHOg7hcvPapiMlrwIaaPcHURo")

def startOfToken : DateNow := ⟨1717844361000, by decide⟩

def sampleRead : Token := ⟨1717844361, "ICPandaDAO", sampleToken.signature⟩

/-- An ECDSA and an Ed25519 key, and a token of the former. -/
theorem mixed_keys_agree :
    ∃ pubKeys, parsePubkeys [sampleEcdsaVar, sampleEdVar] = some pubKeys ∧
      ((∀ agent, verifyToken sampleJs pubKeys (bearer (writeToken sampleToken)) startOfToken =
            .ok agent ↔
          (serving [sampleKey] [sampleEdKey]).verifyToken (bearer (writeToken sampleToken))
            (UInt64.ofNat startOfToken.val) = .ok agent) ↔
        (serving [sampleKey] [sampleEdKey]).ecdsaPubKeys ≠ [] ∨
          Expired sampleRead.served (UInt64.ofNat startOfToken.val) ∨
          ¬ SignedBy AccessControl.sampleLibraries.auth AccessControl.sampleLibraries.auth.ed25519
            id (serving [sampleKey] [sampleEdKey]).ed25519PubKeys sampleRead.served) := by
  have loaded : loadKeys AccessControl.sampleLibraries.auth [sampleEcdsaVar, sampleEdVar] =
      some ((serving [sampleKey] [sampleEdKey]).ecdsaPubKeys,
        (serving [sampleKey] [sampleEdKey]).ed25519PubKeys) := by rfl
  have worker_reads : sampleJs.decode (writeToken sampleToken) = .ok sampleRead := by decide
  have server_reads : AccessControl.sampleLibraries.auth.fromReader (writeToken sampleToken) =
      some sampleRead.served := by decide
  exact same_tokens_iff sampleJs sample_agreement loaded worker_reads server_reads (by decide)
    (by decide)

/-- With Ed25519 keys only, the worker looks for the key among its ECDSA keys. -/
theorem ed25519_token_refused :
    ∃ pubKeys, parsePubkeys [sampleEdVar] = some pubKeys ∧
      (serving [] [sampleEdKey]).verifyToken (bearer (writeToken sampleEdToken)) 1717844361000 =
        .ok "ICPandaDAO" ∧
      verifyToken sampleJs pubKeys (bearer (writeToken sampleEdToken)) startOfToken ≠
        .ok "ICPandaDAO" := by
  have parsed : parsePubkeys [sampleEdVar] = some ⟨[], [sampleEdKey]⟩ := by rfl
  have worker_reads : sampleJs.decode (writeToken sampleEdToken) =
      .ok ⟨1717844361, "ICPandaDAO", sampleEdToken.signature⟩ := by decide
  have server_reads : readToken (writeToken sampleEdToken) = some sampleEdToken := by decide
  refine ⟨⟨[], [sampleEdKey]⟩, parsed, ?_, ?_⟩
  · refine (verify_token_iff _).mpr ⟨writeToken sampleEdToken, sampleEdToken, rfl, server_reads,
      by decide, Or.inr ⟨rfl, List.cons_ne_nil _ _, sampleEdToken.signature, rfl, sampleEdKey,
        List.mem_singleton_self _, by decide⟩, rfl⟩
  · intro accepted
    have no_keys : SameKeys AccessControl.sampleLibraries.auth.ecdsa []
        (serving [] [sampleEdKey]).ecdsaPubKeys := List.Forall₂.nil
    exact ((worker_accepts_iff sampleJs sample_agreement no_keys worker_reads (by decide)
      (by decide)).mp accepted).1 rfl

end Sample
end WorkerAuth
