import IdempotentProxy.Foundations.NamedTables
import IdempotentProxy.Server.IntoResponse
import IdempotentProxy.Server.SentUpstream
import IdempotentProxy.Worker.Auth

/-!
What `main` makes of the process's environment, and what of the environment a request
can reach. The table is what `std::env::vars` lists; `none` is a start that panics.
Listening, TLS and the connection to Redis are left out.
-/
namespace Startup
open AccessControl HttpHeaders NamedTables Prefixes SentUpstream
open HybridCache (Backend Settings)

abbrev Environment := Table String

def parseU64 (s : String) : Option Nat :=
  let digits := match s.toList with
    | '+' :: rest => rest
    | cs => cs
  if digits ≠ [] ∧ digits.all (fun c => 48 ≤ c.toNat && c.toNat ≤ 57) then
    let n := digits.foldl (fun n c => 10 * n + (c.toNat - 48)) 0
    if n < 2 ^ 64 then some n else none
  else none

/-- `var(name).map(|n| n.parse().unwrap())` -/
def readNumber (env : Environment) (name : String) : Option (Option Nat) :=
  match env.lookup name with
  | none => some none
  | some n => (parseU64 n).map some

def listedAgents (env : Environment) : List String :=
  CachedResponse.splitFiltering ((env.lookup "ALLOW_AGENTS").getD "")

def readUrlVars (env : Environment) : Environment := startingWith "URL_" env

def readHeaderVars (env : Environment) : Option (Table Bytes) :=
  parseAll (fun v => IntoResponse.valueFromBytes (utf8 v)) (startingWith "HEADER_" env)

structure Started (libs : Libraries) where
  settings : Settings
  backend : Backend
  server : ServerState libs

def main (libs : Libraries) (env : Environment) : Option (Started libs) := do
  let reqTimeout ← readNumber env "REQUEST_TIMEOUT"
  let pollInterval ← readNumber env "POLL_INTERVAL"
  let headerVars ← readHeaderVars env
  let keys ← WorkerAuth.loadKeys libs.auth env
  return {
    settings := Settings.read pollInterval reqTimeout
    backend := if (env.lookup "REDIS_URL").isSome then .redis else .memory
    server := {
      agents := (listedAgents env).toFinset
      urlVars := fun name => (readUrlVars env).lookup name
      ecdsaPubKeys := keys.1
      ed25519PubKeys := keys.2
      headerVars := headerVars } }

variable {libs : Libraries} {env env' : Environment}

theorem main_parts {started : Started libs} (up : main libs env = some started) :
    started.server.agents = (listedAgents env).toFinset ∧
      started.server.urlVars = (fun name => (readUrlVars env).lookup name) ∧
      readHeaderVars env = some started.server.headerVars ∧
      WorkerAuth.loadKeys libs.auth env =
        some (started.server.ecdsaPubKeys, started.server.ed25519PubKeys) := by
  unfold main at up
  obtain ⟨_, _, rest⟩ := Option.bind_eq_some_iff.mp up
  obtain ⟨_, _, rest⟩ := Option.bind_eq_some_iff.mp rest
  obtain ⟨headerVars, headers, rest⟩ := Option.bind_eq_some_iff.mp rest
  obtain ⟨keys, loaded, same⟩ := Option.bind_eq_some_iff.mp rest
  cases same
  exact ⟨rfl, rfl, headers, loaded⟩

def readKey (scheme : TokenAuth.Scheme) (value : String) : Option scheme.Key :=
  (Base64.decode Base64.urlSafe value.toList).bind scheme.keyFromBytes

theorem key_names_differ {name : String} (ecdsa : startsWith name "ECDSA_PUB_KEY" = true) :
    startsWith name "ED25519_PUB_KEY" = false := by
  obtain ⟨rest, rfl⟩ := starts_with_iff.mp ecdsa
  rw [Bool.eq_false_iff]
  intro both
  obtain ⟨rest', same⟩ := starts_with_iff.mp both
  have chars := congrArg String.toList same
  simp at chars

theorem load_keys_read {keys : List libs.auth.ecdsa.Key × List libs.auth.ed25519.Key}
    (loaded : WorkerAuth.loadKeys libs.auth env = some keys) :
    ∃ ecdsa ed25519,
      parseAll (readKey libs.auth.ecdsa) (startingWith "ECDSA_PUB_KEY" env) = some ecdsa ∧
      parseAll (readKey libs.auth.ed25519) (startingWith "ED25519_PUB_KEY" env) = some ed25519 ∧
      keys = (ecdsa.map Prod.snd, ed25519.map Prod.snd) := by
  induction env generalizing keys with
  | nil =>
    cases loaded
    exact ⟨[], [], rfl, rfl, rfl⟩
  | cons v env ih =>
    obtain ⟨name, value⟩ := v
    simp only [WorkerAuth.loadKeys] at loaded
    simp only [startingWith, List.filter_cons] at ih ⊢
    split at loaded
    · rename_i ecdsa
      obtain ⟨key, read, rest⟩ := Option.bind_eq_some_iff.mp loaded
      obtain ⟨others, later, same⟩ := Option.map_eq_some_iff.mp rest
      obtain ⟨first, second, left, right, pair⟩ := ih later
      subst same pair
      rw [if_pos ecdsa, if_neg (by simpa using key_names_differ ecdsa)]
      exact ⟨(name, key) :: first, second, parse_all_cons.mpr ⟨key, first, read, left, rfl⟩,
        right, rfl⟩
    · rename_i not_ecdsa
      rw [if_neg not_ecdsa]
      split at loaded
      · rename_i ed25519
        obtain ⟨key, read, rest⟩ := Option.bind_eq_some_iff.mp loaded
        obtain ⟨others, later, same⟩ := Option.map_eq_some_iff.mp rest
        obtain ⟨first, second, left, right, pair⟩ := ih later
        subst same pair
        rw [if_pos ed25519]
        exact ⟨first, (name, key) :: second, left,
          parse_all_cons.mpr ⟨key, second, read, right, rfl⟩, rfl⟩
      · rename_i neither
        rw [if_neg neither]
        exact ih loaded

structure SameFor (req : Incoming) (env env' : Environment) : Prop where
  agents : env.lookup "ALLOW_AGENTS" = env'.lookup "ALLOW_AGENTS"
  ecdsa : startingWith "ECDSA_PUB_KEY" env = startingWith "ECDSA_PUB_KEY" env'
  ed25519 : startingWith "ED25519_PUB_KEY" env = startingWith "ED25519_PUB_KEY" env'
  url : startsWith req.path "/URL_" = true →
    env.lookup (stripPrefix req.path "/") = env'.lookup (stripPrefix req.path "/")
  headers : ∀ h ∈ req.headers, h.1 ∉ removedHeaders → ∀ s, toStr h.2 = some s →
    startsWith s "HEADER_" = true → env.lookup s = env'.lookup s

section Reach
variable {started started' : Started libs} {req : Incoming}

theorem same_keys (same : SameFor req env env') (up : main libs env = some started)
    (up' : main libs env' = some started') :
    started.server.ecdsaPubKeys = started'.server.ecdsaPubKeys ∧
      started.server.ed25519PubKeys = started'.server.ed25519PubKeys := by
  obtain ⟨_, _, _, loaded⟩ := main_parts up
  obtain ⟨_, _, _, loaded'⟩ := main_parts up'
  obtain ⟨ecdsa, ed25519, left, right, pair⟩ := load_keys_read loaded
  obtain ⟨ecdsa', ed25519', left', right', pair'⟩ := load_keys_read loaded'
  rw [same.ecdsa, left'] at left
  rw [same.ed25519, right'] at right
  cases left
  cases right
  exact Prod.mk.inj (pair.trans pair'.symm)

theorem header_var_lookup {headerVars : Table Bytes} (read : readHeaderVars env = some headerVars)
    (s : String) : headerVars.lookup s = if startsWith s "HEADER_" then
      (env.lookup s).bind fun v => IntoResponse.valueFromBytes (utf8 v) else none := by
  rw [lookup_parse_all read, lookup_starting_with]
  split
  · rfl
  · rfl

theorem url_name_starts {path : String} (started : startsWith path "/URL_" = true) :
    startsWith (stripPrefix path "/") "URL_" = true := by
  obtain ⟨rest, rfl⟩ := starts_with_iff.mp started
  have split : "/URL_" ++ rest = "/" ++ ("URL_" ++ rest) := by
    rw [← String.append_assoc]
    rfl
  rw [split, strip_prefix_append]
  exact starts_with_append _ _

theorem same_target (same : SameFor req env env') (up : main libs env = some started)
    (up' : main libs env' = some started') :
    targetUrl started.server.toAppState req.toHttpRequest =
      targetUrl started'.server.toAppState req.toHttpRequest := by
  obtain ⟨_, urls, _, _⟩ := main_parts up
  obtain ⟨_, urls', _, _⟩ := main_parts up'
  unfold targetUrl
  split
  · rename_i constant
    have found : started.server.urlVars (stripPrefix req.path "/") =
        started'.server.urlVars (stripPrefix req.path "/") := by
      simp only [urls, urls', readUrlVars, lookup_starting_with, same.url constant]
    rw [found]
  · rfl

theorem same_proxy (same : SameFor req env env') (up : main libs env = some started)
    (up' : main libs env' = some started') (unixMs : UInt64) :
    proxy started.server.toAppState req.toHttpRequest unixMs =
      proxy started'.server.toAppState req.toHttpRequest unixMs := by
  obtain ⟨agents, _, _, _⟩ := main_parts up
  obtain ⟨agents', _, _, _⟩ := main_parts up'
  obtain ⟨ecdsa, ed25519⟩ := same_keys same up up'
  have listed : started.server.agents = started'.server.agents := by
    rw [agents, agents', listedAgents, same.agents, ← listedAgents]
  have asked : accessAgent started.server.toAppState req.toHttpRequest unixMs =
      accessAgent started'.server.toAppState req.toHttpRequest unixMs := by
    simp only [accessAgent, AppState.verifyToken, ecdsa, ed25519]
  have allowed : checkAllowed started.server.toAppState = checkAllowed started'.server.toAppState := by
    funext agent
    simp only [checkAllowed, listed]
  unfold proxy
  rw [asked, allowed, same_target same up up']

theorem same_headers (same : SameFor req env env') (up : main libs env = some started)
    (up' : main libs env' = some started') :
    alterHeaders started.server.headerVars req.headers =
      alterHeaders started'.server.headerVars req.headers := by
  obtain ⟨_, _, read, _⟩ := main_parts up
  obtain ⟨_, _, read', _⟩ := main_parts up'
  refine alter_headers_congr fun h mem kept s spelled => ?_
  rw [header_var_lookup read, header_var_lookup read']
  split
  · rename_i constant
    rw [same.headers h mem kept s spelled constant]
  · rfl

end Reach

def firstEnvironment : Environment :=
  [("HEADER_TOKEN", "Bearer t"), ("HEADER_UNUSED", "a"), ("DB_PASSWORD", "hunter2")]

def secondEnvironment : Environment :=
  [("DB_PASSWORD", "correct horse"), ("HEADER_TOKEN", "Bearer t"), ("POLL_INTERVAL", "50")]

theorem sample_same_for : SameFor (sampleIncoming firstHop) firstEnvironment secondEnvironment := by
  refine ⟨by decide +kernel, by decide +kernel, by decide +kernel, by decide +kernel, ?_⟩
  have spelled : (sampleIncoming firstHop).headers.all (fun h => (toStr h.2).all fun s =>
      firstEnvironment.lookup s == secondEnvironment.lookup s) = true := by decide +kernel
  intro h mem _ s read _
  have each := List.all_eq_true.mp spelled h mem
  rw [read] at each
  exact beq_iff_eq.mp each

def Vouches (scheme : TokenAuth.Scheme) (message : Bytes → Bytes) (value : String)
    (auth : TokenAuth.Libraries) (req : HttpRequest) (unixMs : UInt64) (agent : String) : Prop :=
  ∃ header data token key sig, get req.headers "proxy-authorization" = some header ∧
    toStr header = some (bearer data) ∧ auth.fromReader data = some token ∧
    (token.expireAt.toNat + 10 < 2 ^ 64 → unixMs.toNat / 1000 ≤ token.expireAt.toNat + 10) ∧
    readKey scheme value = some key ∧ scheme.parse token.signature = some sig ∧
    scheme.verify key (TokenAuth.signedPart auth message token) sig = true ∧ agent = token.agent

def HoldsKeys (env : Environment) : Prop :=
  ∃ v ∈ env, startsWith v.1 "ECDSA_PUB_KEY" = true ∨ startsWith v.1 "ED25519_PUB_KEY" = true

section Admission
variable {started : Started libs} {req : Incoming} {unixMs : UInt64} {agent : String}

theorem key_variable {scheme : TokenAuth.Scheme} {start : String} {keys : Table scheme.Key}
    (read : parseAll (readKey scheme) (startingWith start env) = some keys) {key : scheme.Key}
    (mem : key ∈ keys.map Prod.snd) :
    ∃ v ∈ env, startsWith v.1 start = true ∧ readKey scheme v.2 = some key := by
  obtain ⟨v, inside, made⟩ := parse_all_mem read mem
  obtain ⟨kept, named⟩ := List.mem_filter.mp inside
  exact ⟨v, kept, named, made⟩

theorem no_keys_iff {scheme : TokenAuth.Scheme} {start : String} {keys : Table scheme.Key}
    (read : parseAll (readKey scheme) (startingWith start env) = some keys) :
    keys.map Prod.snd = [] ↔ ∀ v ∈ env, startsWith v.1 start = false := by
  rw [← starting_with_empty_iff, List.map_eq_nil_iff, ← List.length_eq_zero_iff,
    ← List.length_eq_zero_iff, parse_all_length read]

theorem admits_configured (up : main libs env = some started)
    (admits : Admits started.server.toAppState req.toHttpRequest unixMs agent) :
    (¬ HoldsKeys env ∧ agent = "ANON") ∨ ∃ v ∈ env,
      (startsWith v.1 "ECDSA_PUB_KEY" = true ∧ Vouches libs.auth.ecdsa libs.auth.sha3_256 v.2
          libs.auth req.toHttpRequest unixMs agent) ∨
        (startsWith v.1 "ED25519_PUB_KEY" = true ∧ Vouches libs.auth.ed25519 id v.2 libs.auth
          req.toHttpRequest unixMs agent) := by
  obtain ⟨_, _, _, loaded⟩ := main_parts up
  obtain ⟨ecdsa, ed25519, left, right, pair⟩ := load_keys_read loaded
  obtain ⟨first, second⟩ := Prod.mk.inj pair
  rcases admits with ⟨no_ecdsa, no_ed25519, anonymous⟩ |
    ⟨header, data, token, carried, text, decoded, fresh, authentic, named⟩
  · refine Or.inl ⟨?_, anonymous⟩
    rintro ⟨v, mem, starts | starts⟩
    · rw [(no_keys_iff left).mp (first.symm.trans no_ecdsa) v mem] at starts
      cases starts
    · rw [(no_keys_iff right).mp (second.symm.trans no_ed25519) v mem] at starts
      cases starts
  · refine Or.inr ?_
    rcases authentic with ⟨_, sig, parsed, key, mem, valid⟩ | ⟨_, _, sig, parsed, key, mem, valid⟩
    · rw [first] at mem
      obtain ⟨v, inside, starts, made⟩ := key_variable left mem
      exact ⟨v, inside, Or.inl ⟨starts, header, data, token, key, sig, carried, text, decoded,
        fresh, made, parsed, valid, named⟩⟩
    · rw [second] at mem
      obtain ⟨v, inside, starts, made⟩ := key_variable right mem
      exact ⟨v, inside, Or.inr ⟨starts, header, data, token, key, sig, carried, text, decoded,
        fresh, made, parsed, valid, named⟩⟩

end Admission

/-- What goes upstream was asked for by somebody the environment lets in: by anybody only
    where no variable holds a key, else by the agent of a token signed under one of those
    keys; and by an agent ALLOW_AGENTS lists, if it lists any. -/
theorem sent_for_configured {libs : Libraries} {env : Environment} {started : Started libs}
    {req : Incoming} {unixMs : UInt64} {out : Outgoing libs} (up : main libs env = some started)
    (sent : forward started.server req unixMs = .ok out) :
    ∃ agent, (listedAgents env = [] ∨ agent ∈ listedAgents env) ∧
      ((¬ HoldsKeys env ∧ agent = "ANON") ∨ ∃ v ∈ env,
        (startsWith v.1 "ECDSA_PUB_KEY" = true ∧ Vouches libs.auth.ecdsa libs.auth.sha3_256 v.2
            libs.auth req.toHttpRequest unixMs agent) ∨
          (startsWith v.1 "ED25519_PUB_KEY" = true ∧ Vouches libs.auth.ed25519 id v.2 libs.auth
            req.toHttpRequest unixMs agent)) := by
  obtain ⟨entry, reached, _⟩ := forward_stages sent
  obtain ⟨granted, allowed, _⟩ := proxy_stages reached
  obtain ⟨agents, _⟩ := main_parts up
  refine ⟨entry.agent, ?_, admits_configured up (access_agent_admits granted)⟩
  rcases check_allowed_ok allowed with none_listed | listed
  · rw [agents] at none_listed
    exact Or.inl (List.toFinset_eq_empty_iff _ |>.mp none_listed)
  · rw [agents] at listed
    exact Or.inr (List.mem_toFinset.mp listed)

def guardedEnvironment : Environment :=
  [("ALLOW_AGENTS", " ICPandaDAO ,,"),
    ("ECDSA_PUB_KEY_1", String.ofList (Base64.encode Base64.urlSafe TokenAuth.sampleKey))]

example : listedAgents guardedEnvironment = ["ICPandaDAO"] := by decide +kernel

def guardedRequest : Incoming where
  toHttpRequest := AccessControl.sampleRequest
  body := .ok []

theorem guarded_sends : ∃ started out, main sampleLibraries guardedEnvironment = some started ∧
    forward started.server guardedRequest 1717844361000 = .ok out := by
  have passes : (main sampleLibraries guardedEnvironment).map (fun started =>
      (forward started.server guardedRequest 1717844361000).isOk) = some true := by decide +kernel
  obtain ⟨started, up, sends⟩ := Option.map_eq_some_iff.mp passes
  cases sent : forward started.server guardedRequest 1717844361000 with
  | error refused =>
    rw [sent] at sends
    cases sends
  | ok out => exact ⟨started, out, up, sent⟩

theorem guarded_sent_for_configured :
    ∃ agent, (listedAgents guardedEnvironment = [] ∨ agent ∈ listedAgents guardedEnvironment) ∧
      ((¬ HoldsKeys guardedEnvironment ∧ agent = "ANON") ∨ ∃ v ∈ guardedEnvironment,
        (startsWith v.1 "ECDSA_PUB_KEY" = true ∧
            Vouches sampleLibraries.auth.ecdsa sampleLibraries.auth.sha3_256 v.2
              sampleLibraries.auth AccessControl.sampleRequest 1717844361000 agent) ∨
          (startsWith v.1 "ED25519_PUB_KEY" = true ∧ Vouches sampleLibraries.auth.ed25519 id v.2
            sampleLibraries.auth AccessControl.sampleRequest 1717844361000 agent)) := by
  obtain ⟨_, _, up, sent⟩ := guarded_sends
  exact sent_for_configured up sent

end Startup
