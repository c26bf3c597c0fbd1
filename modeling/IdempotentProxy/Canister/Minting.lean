import IdempotentProxy.Canister.Requests
import IdempotentProxy.Server.AccessControl

/-!
The tokens the canister mints in `update_proxy_token`, put on an outcall by
`build_request` and read by a server that knows the canister's key. A signing call
is what it is given and returns: the time it is made and the signature of a digest.
The canister and the server use one CBOR library and one hash.
-/
namespace Minting
open ProxyTokens AgentRequests
open AccessControl (AppState Authentic bearer)
open HttpHeaders (Bytes extractHeader)
open TokenAuth (Token sampleKey sampleToken)

structure Signing where
  time : UInt64
  sign : Bytes → Bytes

structure Writers where
  auth : TokenAuth.Libraries
  writeToken : UInt64 → String → Bytes → Bytes

variable (libs : Writers) (interval : UInt64)

/-- Seconds at signing, the refresh interval, and two minutes. -/
def expireAt (time : UInt64) : UInt64 := time / 1000000000 + interval + 120

def digest (expireAt : UInt64) (message : String) : Bytes :=
  libs.auth.sha3_256 (libs.auth.writePair expireAt message)

def signedToken (expireAt : UInt64) (message : String) (sign : Bytes → Bytes) : Bytes :=
  libs.writeToken expireAt message (sign (digest libs expireAt message))

def signProxyToken (expireAt : UInt64) (message : String) (sign : Bytes → Bytes) : String :=
  String.ofList (Base64.encode Base64.urlSafe (signedToken libs expireAt message sign))

def mint (s : Signing) (name : String) : String :=
  signProxyToken libs (expireAt interval s.time) name s.sign

/-- The loop of `update_proxy_token`, from its `n`-th signing call on. -/
def mintAgents (signing : Nat → Signing) :
    Nat → (String → Option String) → List Agent → List Agent
  | _, _, [] => []
  | n, tokens, agent :: rest =>
      match tokens agent.name with
      | some token => agent.withToken token :: mintAgents signing n tokens rest
      | none =>
          let token := mint libs interval (signing n) agent.name
          agent.withToken token ::
            mintAgents signing (n + 1) (Function.update tokens agent.name (some token)) rest

/-- `state.agents` after `update_proxy_token` on `agents`. -/
def updateProxyToken (signing : Nat → Signing) (stored agents : List Agent) : List Agent :=
  if agents.isEmpty then stored else mintAgents libs interval signing 0 (fun _ => none) agents

variable (signing : Nat → Signing)

/-- The suspended loop, resumed with the tokens of the signing calls from `n` on. -/
def resumeAll : Nat → Nat → Progress → Progress
  | 0, _, progress => progress
  | _ + 1, _, .finished agents => .finished agents
  | fuel + 1, n, .awaiting await =>
      resumeAll fuel (n + 1) (await.resume (mint libs interval (signing n) await.agent.name))

/-- Cut at its awaits, the loop ends with the same agents, after one signing call an
    agent at most. -/
theorem resume_all_finishes (rest done : List Agent) (tokens : String → Option String)
    {fuel n : Nat} (enough : rest.length ≤ fuel) :
    resumeAll libs interval signing fuel n (advance tokens done rest) =
      .finished (done ++ mintAgents libs interval signing n tokens rest) := by
  induction rest generalizing done tokens fuel n with
  | nil =>
    cases fuel <;> simp [advance, resumeAll, mintAgents]
  | cons agent rest ih =>
    cases known : tokens agent.name with
    | some token =>
      simp only [advance, mintAgents, known]
      rw [ih _ _ (by simp only [List.length_cons] at enough; omega)]
      simp [List.append_assoc]
    | none =>
      obtain ⟨fuel, rfl⟩ : ∃ k, fuel = k + 1 :=
        ⟨fuel - 1, by simp only [List.length_cons] at enough; omega⟩
      simp only [advance, mintAgents, known, resumeAll, Awaiting.resume]
      rw [ih _ _ (by simp only [List.length_cons] at enough; omega)]
      simp [List.append_assoc]

theorem mint_table (n : Nat) (tokens : String → Option String) (rest : List Agent) :
    ∃ table : String → Option String,
      (∀ name token, tokens name = some token → table name = some token) ∧
      (∀ name token, table name = some token →
        tokens name = some token ∨ ∃ i, token = mint libs interval (signing i) name) ∧
      ∀ a ∈ mintAgents libs interval signing n tokens rest,
        a.proxyToken = table a.name ∧ (table a.name).isSome = true := by
  induction rest generalizing n tokens with
  | nil =>
    refine ⟨tokens, fun _ _ known => known, fun _ _ known => Or.inl known, ?_⟩
    simp [mintAgents]
  | cons agent rest ih =>
    cases known : tokens agent.name with
    | some token =>
      obtain ⟨table, kept, source, all⟩ := ih n tokens
      refine ⟨table, kept, source, ?_⟩
      simp only [mintAgents, known, List.forall_mem_cons]
      refine ⟨?_, all⟩
      simp [Agent.withToken, kept _ _ known]
    | none =>
      obtain ⟨table, kept, source, all⟩ := ih (n + 1)
        (Function.update tokens agent.name (some (mint libs interval (signing n) agent.name)))
      have here := kept agent.name _ (Function.update_self _ _ _)
      refine ⟨table, ?_, ?_, ?_⟩
      · intro name token found
        have other : name ≠ agent.name := by
          rintro rfl
          rw [known] at found
          cases found
        exact kept name token (by rw [Function.update_of_ne other, found])
      · intro name token found
        rcases source name token found with before | minted
        · by_cases same : name = agent.name
          · subst same
            rw [Function.update_self] at before
            exact Or.inr ⟨n, (Option.some.inj before).symm⟩
          · rw [Function.update_of_ne same] at before
            exact Or.inl before
        · exact Or.inr minted
      · simp only [mintAgents, known, List.forall_mem_cons]
        refine ⟨?_, all⟩
        simp [Agent.withToken, here]

theorem mint_configs (n : Nat) (tokens : String → Option String) (rest : List Agent) :
    configs (mintAgents libs interval signing n tokens rest) = configs rest := by
  induction rest generalizing n tokens with
  | nil => rfl
  | cons agent rest ih =>
    simp only [configs] at ih
    cases known : tokens agent.name <;>
      simp [mintAgents, known, configs, ih, Agent.config, Agent.withToken]

theorem update_eq_mint {stored agents : List Agent} (given : agents ≠ [] ∨ agents = stored) :
    updateProxyToken libs interval signing stored agents =
      mintAgents libs interval signing 0 (fun _ => none) agents := by
  unfold updateProxyToken
  split
  · rename_i none_left
    have empty := List.isEmpty_iff.mp none_left
    rcases given with nonempty | rfl
    · exact absurd empty nonempty
    · rw [empty]
      rfl
  · rfl

theorem update_agents_configs {stored agents : List Agent}
    (given : agents ≠ [] ∨ agents = stored) :
    configs (updateProxyToken libs interval signing stored agents) = configs agents := by
  rw [update_eq_mint libs interval signing given]
  exact mint_configs libs interval signing 0 _ agents

theorem update_table {stored agents : List Agent} (given : agents ≠ [] ∨ agents = stored) :
    ∃ table : String → Option String,
      ∀ a ∈ updateProxyToken libs interval signing stored agents, a.proxyToken = table a.name ∧
        ∃ i, a.proxyToken = some (mint libs interval (signing i) a.name) := by
  obtain ⟨table, _, source, all⟩ := mint_table libs interval signing 0 (fun _ => none) agents
  rw [update_eq_mint libs interval signing given]
  refine ⟨table, fun a mem => ?_⟩
  obtain ⟨named, present⟩ := all a mem
  obtain ⟨token, found⟩ := Option.isSome_iff_exists.mp present
  rcases source a.name token found with impossible | ⟨i, rfl⟩
  · cases impossible
  · exact ⟨named, i, named.trans found⟩

section Accepted
variable {server : AccessControl.Libraries} {writeToken : UInt64 → String → Bytes → Bytes}
  {time : UInt64} {name : String} {sign : Bytes → Bytes} {key : server.auth.ecdsa.Key}

/-- The signature returned for the digest is one of `key`'s. -/
def SignsUnder (server : AccessControl.Libraries) (key : server.auth.ecdsa.Key)
    (expireAt : UInt64) (name : String) (sign : Bytes → Bytes)
    (writeToken : UInt64 → String → Bytes → Bytes) : Prop :=
  ∃ sig,
    server.auth.ecdsa.parse (sign (digest ⟨server.auth, writeToken⟩ expireAt name)) = some sig ∧
    server.auth.ecdsa.verify key (digest ⟨server.auth, writeToken⟩ expireAt name) sig = true

/-- The reader gives back the token that was written. -/
def ReadsBack (server : AccessControl.Libraries) (expireAt : UInt64) (name : String)
    (sign : Bytes → Bytes) (writeToken : UInt64 → String → Bytes → Bytes) : Prop :=
  server.auth.fromReader (signedToken ⟨server.auth, writeToken⟩ expireAt name sign) =
    some ⟨expireAt, name, sign (digest ⟨server.auth, writeToken⟩ expireAt name)⟩

theorem expire_at_nat (bounded : time.toNat / 1000000000 + interval.toNat + 130 < 2 ^ 64) :
    (expireAt interval time).toNat = time.toNat / 1000000000 + interval.toNat + 120 := by
  unfold expireAt
  rw [UInt64.toNat_add, UInt64.toNat_add, UInt64.toNat_div]
  have seconds : (1000000000 : UInt64).toNat = 1000000000 := rfl
  have minutes : (120 : UInt64).toNat = 120 := rfl
  rw [seconds, minutes]
  omega

theorem minted_accepted
    (signs : SignsUnder server key (expireAt interval time) name sign writeToken)
    (reads : ReadsBack server (expireAt interval time) name sign writeToken)
    (bounded : time.toNat / 1000000000 + interval.toNat + 130 < 2 ^ 64)
    {app : AppState server} (known : key ∈ app.ecdsaPubKeys) {unixMs : UInt64}
    (timely : unixMs.toNat / 1000 ≤ time.toNat / 1000000000 + interval.toNat + 120 + 10) :
    app.verifyToken (bearer (signedToken ⟨server.auth, writeToken⟩ (expireAt interval time) name
      sign)) unixMs = .ok name := by
  have expiry := expire_at_nat interval bounded
  obtain ⟨sig, parsed, verified⟩ := signs
  refine (AccessControl.verify_token_iff app).mpr ⟨_, _, rfl, reads, ?_, ?_, rfl⟩
  · rw [TokenAuth.expired_iff (by dsimp only; omega)]
    dsimp only
    omega
  · exact Or.inl ⟨List.ne_nil_of_mem known, sig, parsed, key, known, verified⟩

end Accepted

/-- The whole way: the list is stored as given, equal names share a token, and every
    agent's token, on an outcall, is accepted as that agent's. -/
theorem minted_tokens_accepted {server : AccessControl.Libraries}
    (writeToken : UInt64 → String → Bytes → Bytes) (parseUri : String → Except String Uri)
    {stored agents : List Agent} {key : server.auth.ecdsa.Key}
    (given : agents ≠ [] ∨ agents = stored)
    (signs : ∀ i, ∀ a ∈ agents,
      SignsUnder server key (expireAt interval (signing i).time) a.name (signing i).sign writeToken)
    (reads : ∀ i, ∀ a ∈ agents,
      ReadsBack server (expireAt interval (signing i).time) a.name (signing i).sign writeToken)
    (bounded : ∀ i, (signing i).time.toNat / 1000000000 + interval.toNat + 130 < 2 ^ 64) :
    configs (updateProxyToken ⟨server.auth, writeToken⟩ interval signing stored agents) =
        configs agents ∧
      (∀ a ∈ updateProxyToken ⟨server.auth, writeToken⟩ interval signing stored agents,
        ∀ b ∈ updateProxyToken ⟨server.auth, writeToken⟩ interval signing stored agents,
          a.name = b.name → a.proxyToken = b.proxyToken) ∧
      ∀ a ∈ updateProxyToken ⟨server.auth, writeToken⟩ interval signing stored agents,
        ∃ i, a.proxyToken = some (mint ⟨server.auth, writeToken⟩ interval (signing i) a.name) ∧
          ∀ req outcall, buildRequest parseUri a req = .ok outcall →
            Lacks req.headers "proxy-authorization" →
            ∀ app : AppState server, key ∈ app.ecdsaPubKeys → ∀ unixMs : UInt64,
              unixMs.toNat / 1000 ≤
                (signing i).time.toNat / 1000000000 + interval.toNat + 120 + 10 →
              app.verifyToken (extractHeader (received outcall.request.headers)
                "proxy-authorization" "") unixMs = .ok a.name := by
  obtain ⟨table, all⟩ := update_table ⟨server.auth, writeToken⟩ interval signing given
  have same := update_agents_configs ⟨server.auth, writeToken⟩ interval signing given
  refine ⟨same, ?_, ?_⟩
  · intro a inA b inB named
    rw [(all a inA).1, (all b inB).1, named]
  · intro a mem
    obtain ⟨_, i, minted⟩ := all a mem
    refine ⟨i, minted, ?_⟩
    intro req outcall built own app known unixMs timely
    have config : a.config ∈ configs agents := by
      rw [← same]
      exact List.mem_map_of_mem mem
    obtain ⟨b, inside, equal⟩ := List.mem_map.mp config
    have name : b.name = a.name := congrArg Prod.fst equal
    rw [HttpHeaders.extract_header_utf8 (received_authorization built own minted)
      (AccessControl.bearer_visible _), ← name]
    exact minted_accepted interval (signs i b inside) (reads i b inside) (bounded i) known timely

section Sample

/-- 1717840741 s at signing, an interval of an hour less 100 s: the sample token's expiry. -/
def sampleSigning : Signing := ⟨1717840741000000000, fun _ => sampleToken.signature⟩

def sampleWrite (expireAt : UInt64) (name : String) (signature : Bytes) : Bytes :=
  TokenAuth.writeToken ⟨expireAt, name, signature⟩

def sampleAgents : List Agent :=
  [⟨"ICPandaDAO", "https://a.example", 50, none⟩, ⟨"ICPandaDAO", "https://b.example", 60, none⟩]

def sampleMinted : List Agent :=
  updateProxyToken ⟨TokenAuth.sampleLibraries, sampleWrite⟩ 3500 (fun _ => sampleSigning) []
    sampleAgents

def sampleRequest : CycleCosts.CanisterHttpRequestArgument :=
  ⟨"https://httpbin.org/get", none, [⟨"idempotency-key", "k1"⟩], none⟩

def sampleServer : AppState AccessControl.sampleLibraries := ⟨∅, fun _ => none, [sampleKey], []⟩

/-- In the last second that the tokens are good for, ten seconds past their expiry. -/
theorem sample_agents_accepted :
    configs sampleMinted = configs sampleAgents ∧
      (∀ a ∈ sampleMinted, ∀ b ∈ sampleMinted, a.name = b.name → a.proxyToken = b.proxyToken) ∧
      ∀ a ∈ sampleMinted, ∃ outcall,
        buildRequest (fun _ => .ok ⟨some "httpbin.org", some "/get"⟩) a sampleRequest =
            .ok outcall ∧
          sampleServer.verifyToken (extractHeader (received outcall.request.headers)
            "proxy-authorization" "") 1717844371999 = .ok a.name := by
  have names : ∀ a ∈ sampleAgents, a.name = "ICPandaDAO" := by decide
  have signs : SignsUnder AccessControl.sampleLibraries sampleKey
      (expireAt 3500 sampleSigning.time) "ICPandaDAO" sampleSigning.sign sampleWrite :=
    ⟨sampleToken.signature, rfl, by decide⟩
  have reads : ReadsBack AccessControl.sampleLibraries (expireAt 3500 sampleSigning.time)
      "ICPandaDAO" sampleSigning.sign sampleWrite :=
    TokenAuth.read_token (by decide) (by decide)
  obtain ⟨same, shared, accepted⟩ :=
    minted_tokens_accepted 3500 (fun _ => sampleSigning) sampleWrite
      (fun _ => .ok ⟨some "httpbin.org", some "/get"⟩)
      (show sampleAgents ≠ [] ∨ sampleAgents = [] from Or.inl (by decide))
      (fun _ a mem => names a mem ▸ signs) (fun _ a mem => names a mem ▸ reads)
      (fun _ => by decide)
  refine ⟨same, shared, fun a mem => ?_⟩
  obtain ⟨_, _, accepts⟩ := accepted a mem
  exact ⟨_, rfl, accepts sampleRequest _ rfl (by decide) sampleServer List.mem_cons_self _
    (by decide)⟩

end Sample
end Minting
