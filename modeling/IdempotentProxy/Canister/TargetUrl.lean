import Mathlib.Data.List.TakeWhile
import IdempotentProxy.Canister.Requests
import IdempotentProxy.Server.AccessControl

/-!
A target URL on its way through `build_request` and the server's `proxy`. URLs are
texts, split as RFC 3986 and the `http` crate do: an authority up to the first `/`,
`?` or `#`, a host that is a bracketed address or ends at the first colon, a path that
is `/` where there is none. The router in front of `proxy` takes any path but that one.
-/
namespace TargetUrl
open AgentRequests Prefixes
open CycleCosts (CanisterHttpRequestArgument)
open ProxyTokens (Agent)
open AccessControl (AppState HttpRequest route route_some_iff targetUrl)
open HttpHeaders (visibleChar extractHeader)

abbrev Chars := List Char

def inAuthority (c : Char) : Bool := !(c == '/' || c == '?' || c == '#')

/-- The host in front of the port, an address with its brackets. -/
def host : Chars → Chars
  | '[' :: cs => '[' :: (cs.takeWhile (· ≠ ']') ++ (cs.dropWhile (· ≠ ']')).take 1)
  | cs => cs.takeWhile (· ≠ ':')

def portPart (authority : Chars) : Chars := authority.drop (host authority).length

def number (digits : Chars) : Nat := digits.foldl (fun n c => n * 10 + (c.toNat - 48)) 0

/-- The effective port: an https URL without one means 443. -/
def port (authority : Chars) : Nat :=
  match portPart authority with
  | _ :: d :: ds => number (d :: ds)
  | _ => 443

def path (target : Chars) : Chars :=
  match target.takeWhile (· ≠ '?') with
  | [] => ['/']
  | p => p

def query (target : Chars) : Chars := target.dropWhile (· ≠ '?')

structure Resource where
  host : Chars
  port : Nat
  path : Chars
  query : Chars
  deriving DecidableEq

def isHttps (url : String) : Bool := (url.toList.take 8).map Char.toLower == "https://".toList

def authorityOf (url : String) : Chars :=
  (((url.toList.drop 8).takeWhile inAuthority).reverse.takeWhile (· ≠ '@')).reverse

def targetOf (url : String) : Chars :=
  ((url.toList.drop 8).dropWhile inAuthority).takeWhile (· ≠ '#')

def resource (url : String) : Option Resource :=
  if isHttps url then
    some ⟨(host (authorityOf url)).map Char.toLower, port (authorityOf url), path (targetOf url),
      query (targetOf url)⟩
  else none

def Leads (target : Chars) : Prop := ∃ c cs, target = c :: cs ∧ (c = '/' ∨ c = '?')

structure AbsoluteHttps (url : String) : Prop where
  https : isHttps url = true
  named : host (authorityOf url) ≠ []
  readable : ∀ c ∈ authorityOf url, visibleChar c = true
  numbered : portPart (authorityOf url) = [] ∨
    ∃ digits, portPart (authorityOf url) = ':' :: digits ∧ ∀ d ∈ digits, d.isDigit = true
  plain : '@' ∉ (url.toList.drop 8).takeWhile inAuthority ∧ '#' ∉ url.toList

/-- An agent's endpoint, `scheme://authority`. -/
def Origin (endpoint : String) : Prop :=
  ∃ scheme authority, endpoint.toList = scheme ++ ("://".toList ++ authority) ∧ ':' ∉ scheme ∧
    ∀ c ∈ authority, inAuthority c = true

/-- `http::Uri` on absolute https URLs: the host without the port, and path and query. -/
def SplitsHttps (parseUri : String → Except String Uri) : Prop :=
  ∀ url uri, AbsoluteHttps url → parseUri url = .ok uri →
    uri.host = some (String.ofList (host (authorityOf url))) ∧
      ∃ pq, uri.pathAndQuery = some (String.ofList pq) ∧ Leads pq ∧
        path pq = path (targetOf url) ∧ query pq = query (targetOf url)

/-- The request target of a URL whatever its scheme, as it goes over the wire. -/
def wireTarget (url : String) : Chars :=
  ((url.toList.dropWhile (· ≠ ':')).drop 3).dropWhile inAuthority

def onWire (method : String) (request : CanisterHttpRequestArgument) : HttpRequest :=
  let target := wireTarget request.url
  ⟨method, String.ofList (path target), some (String.ofList (path target ++ query target)),
    received request.headers⟩

/-- The outcall as the server's handler gets it, if the router has it handled at all. -/
def arrival (method : String) (request : CanisterHttpRequestArgument) : Option HttpRequest :=
  route (onWire method request)

section Splitting

theorem while_append {p : Char → Bool} {xs ys : Chars} (all : ∀ x ∈ xs, p x = true)
    (stop : ys = [] ∨ ∃ y rest, ys = y :: rest ∧ p y = false) :
    (xs ++ ys).takeWhile p = xs ∧ (xs ++ ys).dropWhile p = ys := by
  rw [List.takeWhile_append_of_pos all, List.dropWhile_append_of_pos all]
  rcases stop with rfl | ⟨y, rest, rfl, fails⟩
  · simp
  · simp [fails]

theorem drop_while_cases (p : Char → Bool) (cs : Chars) :
    cs.dropWhile p = [] ∨ ∃ y rest, cs.dropWhile p = y :: rest ∧ p y = false := by
  induction cs with
  | nil => exact Or.inl rfl
  | cons c cs ih =>
    by_cases kept : p c = true
    · rw [List.dropWhile_cons_of_pos kept]
      exact ih
    · rw [List.dropWhile_cons_of_neg kept]
      exact Or.inr ⟨c, cs, rfl, by simpa using kept⟩

theorem host_subset (authority : Chars) : host authority ⊆ authority := by
  intro c mem
  unfold host at mem
  split at mem
  · rename_i cs
    rcases List.mem_cons.mp mem with rfl | inside
    · exact List.mem_cons_self
    · apply List.mem_cons_of_mem
      rcases List.mem_append.mp inside with before | closing
      · exact (List.takeWhile_prefix _).subset before
      · exact (List.dropWhile_suffix _).subset (List.mem_of_mem_take closing)
  · exact (List.takeWhile_prefix _).subset mem

theorem host_again (authority : Chars) : host (host authority) = host authority := by
  by_cases bracketed : ∃ cs, authority = '[' :: cs
  · obtain ⟨cs, rfl⟩ := bracketed
    have inside : ∀ c ∈ cs.takeWhile (· ≠ ']'), decide (c ≠ ']') = true :=
      fun c mem => List.mem_takeWhile_imp (p := fun x => decide (x ≠ ']')) mem
    have stop := drop_while_cases (· ≠ ']') cs
    have closing : (cs.dropWhile (· ≠ ']')).take 1 = [] ∨
        ∃ y rest, (cs.dropWhile (· ≠ ']')).take 1 = y :: rest ∧ decide (y ≠ ']') = false := by
      rcases stop with open_end | ⟨y, rest, closed, fails⟩
      · exact Or.inl (by rw [open_end]; rfl)
      · exact Or.inr ⟨y, [], by rw [closed]; rfl, fails⟩
    obtain ⟨taken, dropped⟩ := while_append inside closing
    simp only [host]
    rw [taken, dropped, List.take_take, Nat.min_self]
  · have plain : host authority = authority.takeWhile (· ≠ ':') := by
      unfold host
      split
      · exact absurd ⟨_, rfl⟩ bracketed
      · rfl
    rw [plain]
    cases authority with
    | nil => rfl
    | cons c cs =>
      have other : c ≠ '[' := fun same => bracketed ⟨cs, by rw [same]⟩
      by_cases colon : c = ':'
      · subst colon
        rfl
      · rw [List.takeWhile_cons_of_pos (by simpa using colon)]
        unfold host
        split
        · rename_i same
          exact absurd (List.cons.inj same).1 other
        · rw [List.takeWhile_cons_of_pos (by simpa using colon), List.takeWhile_idem]

theorem port_host (authority : Chars) : port (host authority) = 443 := by
  have nothing : portPart (host authority) = [] := by
    rw [portPart, host_again, List.drop_length]
  rw [port, nothing]

theorem path_plain (target : Chars) : ∀ c ∈ path target, decide (c ≠ '?') = true := by
  intro c mem
  unfold path at mem
  split at mem
  · rw [List.mem_singleton.mp mem]
    decide
  · exact List.mem_takeWhile_imp (p := fun x => decide (x ≠ '?')) mem

theorem path_ne_nil (target : Chars) : path target ≠ [] := by
  unfold path
  split
  · exact List.cons_ne_nil _ _
  · assumption

theorem path_leads {target : Chars} (leads : Leads target) : ∃ cs, path target = '/' :: cs := by
  obtain ⟨c, cs, rfl, rfl | rfl⟩ := leads
  · exact ⟨cs.takeWhile (· ≠ '?'), by simp [path]⟩
  · exact ⟨[], rfl⟩

theorem path_query_subset {target : Chars} {c : Char} (mem : c ∈ path target ++ query target) :
    c = '/' ∨ c ∈ target := by
  rcases List.mem_append.mp mem with first | second
  · unfold path at first
    split at first
    · exact Or.inl (List.mem_singleton.mp first)
    · exact Or.inr ((List.takeWhile_prefix _).subset first)
  · exact Or.inr ((List.dropWhile_suffix _).subset second)

theorem path_query_again (target : Chars) :
    path (path target ++ query target) = path target ∧
      query (path target ++ query target) = query target := by
  obtain ⟨taken, dropped⟩ := while_append (path_plain target) (drop_while_cases (· ≠ '?') target)
  refine ⟨?_, dropped⟩
  unfold query
  rw [path, taken]
  split
  · rename_i empty
    exact absurd empty (path_ne_nil target)
  · rfl

theorem authority_target {authority target : Chars} (all : ∀ c ∈ authority, inAuthority c = true)
    (leads : Leads target) : (authority ++ target).takeWhile inAuthority = authority ∧
      (authority ++ target).dropWhile inAuthority = target := by
  obtain ⟨c, cs, rfl, first⟩ := leads
  refine while_append all (Or.inr ⟨c, cs, rfl, ?_⟩)
  rcases first with rfl | rfl <;> rfl

theorem wire_target_origin {endpoint : String} {target : Chars} (origin : Origin endpoint)
    (leads : Leads target) : wireTarget (endpoint ++ String.ofList target) = target := by
  obtain ⟨scheme, authority, written, plain, all⟩ := origin
  have colon : ∀ c ∈ scheme, decide (c ≠ ':') = true := by
    intro c mem
    simpa using fun same : c = ':' => plain (same ▸ mem)
  have stop : "://".toList ++ authority ++ target = [] ∨ ∃ y rest,
      "://".toList ++ authority ++ target = y :: rest ∧ decide (y ≠ ':') = false :=
    Or.inr ⟨':', '/' :: '/' :: (authority ++ target), by simp, by decide⟩
  obtain ⟨_, dropped⟩ := while_append colon stop
  rw [wireTarget, String.toList_append, String.toList_ofList, written, List.append_assoc,
    dropped]
  exact (authority_target all leads).2

theorem resource_built {authority target : Chars} (all : ∀ c ∈ authority, inAuthority c = true)
    (user : '@' ∉ authority) (fragment : '#' ∉ target) (leads : Leads target) :
    resource ("https://" ++ String.ofList authority ++ String.ofList target) =
      some ⟨(host authority).map Char.toLower, port authority, path target, query target⟩ := by
  have text : ("https://" ++ String.ofList authority ++ String.ofList target).toList =
      "https://".toList ++ (authority ++ target) := by simp
  obtain ⟨taken, dropped⟩ := authority_target all leads
  have whole : authorityOf ("https://" ++ String.ofList authority ++ String.ofList target) =
      authority := by
    have kept : ∀ c ∈ authority.reverse, decide (c ≠ '@') = true := by
      intro c mem
      simpa using fun same : c = '@' => user (same ▸ List.mem_reverse.mp mem)
    rw [authorityOf, text, List.drop_left' (by rfl), taken, List.takeWhile_eq_self_iff.mpr kept,
      List.reverse_reverse]
  have rest : targetOf ("https://" ++ String.ofList authority ++ String.ofList target) =
      target := by
    have kept : ∀ c ∈ target, decide (c ≠ '#') = true := by
      intro c mem
      simpa using fun same : c = '#' => fragment (same ▸ mem)
    rw [targetOf, text, List.drop_left' (by rfl), dropped, List.takeWhile_eq_self_iff.mpr kept]
  have https : isHttps ("https://" ++ String.ofList authority ++ String.ofList target) = true := by
    rw [isHttps, text, List.take_left' (by rfl)]
    decide
  rw [resource, if_pos https, whole, rest]

end Splitting

section Absolute
variable {url : String} (absolute : AbsoluteHttps url)
include absolute

theorem authority_whole : authorityOf url = (url.toList.drop 8).takeWhile inAuthority := by
  have kept : ∀ c ∈ ((url.toList.drop 8).takeWhile inAuthority).reverse,
      decide (c ≠ '@') = true := by
    intro c mem
    simpa using fun same : c = '@' => absolute.plain.1 (same ▸ List.mem_reverse.mp mem)
  rw [authorityOf, List.takeWhile_eq_self_iff.mpr kept, List.reverse_reverse]

theorem host_chars : (∀ c ∈ host (authorityOf url), inAuthority c = true) ∧
    '@' ∉ host (authorityOf url) := by
  have inside : ∀ c ∈ host (authorityOf url), c ∈ (url.toList.drop 8).takeWhile inAuthority := by
    intro c mem
    rw [← authority_whole absolute]
    exact host_subset _ mem
  exact ⟨fun c mem => List.mem_takeWhile_imp (inside c mem),
    fun user => absolute.plain.1 (inside '@' user)⟩

theorem resource_absolute : resource url =
    some ⟨(host (authorityOf url)).map Char.toLower, port (authorityOf url), path (targetOf url),
      query (targetOf url)⟩ := by
  rw [resource, if_pos absolute.https]

theorem not_variable : startsWith url "URL_" = false := by
  rw [← Bool.not_eq_true, starts_with_iff]
  rintro ⟨rest, rfl⟩
  have https := absolute.https
  have first : (("URL_" ++ rest).toList.take 8).map Char.toLower =
      'u' :: ((("URL_" ++ rest).toList.take 8).map Char.toLower).tail := by
    simp
  rw [isHttps, first, beq_iff_eq] at https
  exact absurd (List.cons.inj https).1 (by decide)

end Absolute

section Trip
variable {libs : AccessControl.Libraries} {app : AppState libs} {agent : Agent}
  {parseUri : String → Except String Uri} {req : CanisterHttpRequestArgument} {outcall : Outcall}

/-- A path that is routed, and the default port, unless the path names one of the server's
    own URLs: then that URL itself. -/
def Survives (app : AppState libs) (url : String) : Prop :=
  let named := String.ofList (path (targetOf url))
  path (targetOf url) ≠ ['/'] ∧
    if startsWith named "/URL_" then
      ∃ value, app.urlVars (stripPrefix named "/") = some value ∧
        startsWith value "http" = true ∧ resource value = resource url
    else port (authorityOf url) = 443

theorem path_routed {target : Chars} (leads : Leads target) :
    (∃ c cs, path target = '/' :: c :: cs) ↔ path target ≠ ['/'] := by
  obtain ⟨cs, starts⟩ := path_leads leads
  rw [starts]
  cases cs with
  | nil => simp
  | cons c cs => simp

theorem outcall_arrives (splits : SplitsHttps parseUri) (origin : Origin agent.endpoint)
    (absolute : AbsoluteHttps req.url) (own : Lacks req.headers "x-forwarded-host")
    (built : buildRequest parseUri agent req = .ok outcall) (method : String) :
    ∃ target, Leads target ∧ path target = path (targetOf req.url) ∧
      query target = query (targetOf req.url) ∧
      (onWire method outcall.request).path = String.ofList (path target) ∧
      (onWire method outcall.request).pathAndQuery =
        some (String.ofList (path target ++ query target)) ∧
      extractHeader (onWire method outcall.request).headers "x-forwarded-host" "" =
        String.ofList (host (authorityOf req.url)) := by
  obtain ⟨url, forwarded, rewritten, written, headers, _⟩ := build_request_ok built
  rw [rewriteUrl, not_variable absolute] at rewritten
  cases parsed : parseUri req.url with
  | error err =>
    rw [parsed] at rewritten
    cases rewritten
  | ok uri =>
    obtain ⟨named, target, rest, leads, same_path, same_query⟩ := splits _ _ absolute parsed
    simp only [parsed, named, rest, Option.getD_some, Bool.false_eq_true, ↓reduceIte] at rewritten
    cases rewritten
    have wired : wireTarget outcall.request.url = target := by
      rw [written]
      exact wire_target_origin origin leads
    refine ⟨target, leads, same_path, same_query, ?_, ?_, ?_⟩
    · rw [onWire, wired]
    · rw [onWire, wired]
    · have first : HttpHeaders.get (received outcall.request.headers) "x-forwarded-host" =
          some (HttpHeaders.utf8 (String.ofList (host (authorityOf req.url)))) := by
        rw [headers, received_append own]
        have lower : toAsciiLowercase "x-forwarded-host" = "x-forwarded-host" := by decide
        exact received_first lower
      refine HttpHeaders.extract_header_utf8 first fun c mem => ?_
      rw [String.toList_ofList] at mem
      exact absolute.readable c (host_subset _ mem)

theorem wire_target_iff (splits : SplitsHttps parseUri) (origin : Origin agent.endpoint)
    (absolute : AbsoluteHttps req.url) (own : Lacks req.headers "x-forwarded-host")
    (built : buildRequest parseUri agent req = .ok outcall) (method : String) :
    (∃ url, targetUrl app (onWire method outcall.request) = .ok url ∧
      resource url = resource req.url) ↔
      if startsWith (String.ofList (path (targetOf req.url))) "/URL_" then
        ∃ value, app.urlVars (stripPrefix (String.ofList (path (targetOf req.url))) "/") =
          some value ∧ startsWith value "http" = true ∧ resource value = resource req.url
      else port (authorityOf req.url) = 443 := by
  obtain ⟨target, leads, same_path, same_query, on_path, on_query, forwarded⟩ :=
    outcall_arrives splits origin absolute own built method
  unfold targetUrl
  rw [on_path, same_path]
  split
  · dsimp only
    cases found : app.urlVars (stripPrefix (String.ofList (path (targetOf req.url))) "/") with
    | none => simp [startsWith]
    | some value =>
      by_cases http : startsWith value "http" = true
      · simp [http]
      · simp [http]
  · dsimp only
    have filled : (String.ofList (host (authorityOf req.url))).isEmpty = false := by
      simpa using absolute.named
    obtain ⟨hosted, user⟩ := host_chars absolute
    have tail_leads : Leads (path target ++ query target) := by
      obtain ⟨cs, starts⟩ := path_leads leads
      exact ⟨'/', cs ++ query target, by rw [starts]; rfl, Or.inl rfl⟩
    have fragment : '#' ∉ path target ++ query target := by
      rw [same_path, same_query]
      intro mem
      rcases path_query_subset mem with slash | inside
      · exact absurd slash (by decide)
      · have kept := List.mem_takeWhile_imp (p := fun x => decide (x ≠ '#')) inside
        exact absurd kept (by decide)
    obtain ⟨path_again, query_again⟩ := path_query_again target
    have asked := resource_built hosted user fragment tail_leads
    rw [host_again, port_host, path_again, query_again, same_path, same_query] at asked
    rw [forwarded, filled, on_query, same_path, same_query, resource_absolute absolute]
    simp only [Bool.false_eq_true, ↓reduceIte, Option.getD_some, Except.ok.injEq,
      exists_eq_left', asked, Option.some.injEq, Resource.mk.injEq, true_and, and_true]
    exact eq_comm

/-- The server asks for the resource that the caller named exactly if its path is routed and
    it is on the default port, or the server's variable under that path is the same URL. -/
theorem target_survives_iff (splits : SplitsHttps parseUri) (origin : Origin agent.endpoint)
    (absolute : AbsoluteHttps req.url) (own : Lacks req.headers "x-forwarded-host")
    (built : buildRequest parseUri agent req = .ok outcall) (method : String) :
    (∃ arrived url, arrival method outcall.request = some arrived ∧
      targetUrl app arrived = .ok url ∧ resource url = resource req.url) ↔
        Survives app req.url := by
  obtain ⟨target, leads, same_path, _, on_path, _⟩ :=
    outcall_arrives splits origin absolute own built method
  have routes : (∃ c cs, (onWire method outcall.request).path.toList = '/' :: c :: cs) ↔
      path (targetOf req.url) ≠ ['/'] := by
    rw [on_path, String.toList_ofList, path_routed leads, same_path]
  rw [Survives, ← routes, ← wire_target_iff splits origin absolute own built method]
  simp only [arrival, route_some_iff]
  constructor
  · rintro ⟨arrived, url, ⟨routed, rfl⟩, asked, same⟩
    exact ⟨routed, url, asked, same⟩
  · rintro ⟨routed, url, asked, same⟩
    exact ⟨_, url, ⟨routed, rfl⟩, asked, same⟩

end Trip

section Sample

def splitter (url : String) : Except String Uri :=
  if isHttps url then
    .ok ⟨some (String.ofList (host (authorityOf url))),
      some (String.ofList (path (targetOf url) ++ query (targetOf url)))⟩
  else .error "invalid uri"

theorem target_path {url : String} (plain : '#' ∉ url.toList) :
    ∃ cs, path (targetOf url) = '/' :: cs := by
  have kept : ∀ c ∈ (url.toList.drop 8).dropWhile inAuthority, decide (c ≠ '#') = true := by
    intro c mem
    have inside : c ∈ url.toList :=
      (List.drop_suffix 8 _).subset ((List.dropWhile_suffix _).subset mem)
    simpa using fun same : c = '#' => plain (same ▸ inside)
  have whole : targetOf url = (url.toList.drop 8).dropWhile inAuthority :=
    List.takeWhile_eq_self_iff.mpr kept
  rw [whole]
  rcases drop_while_cases inAuthority (url.toList.drop 8) with empty | ⟨c, cs, found, outside⟩
  · rw [empty]
    exact ⟨[], rfl⟩
  · rw [found] at kept ⊢
    have other := kept c List.mem_cons_self
    refine path_leads ⟨c, cs, rfl, ?_⟩
    simp only [inAuthority, Bool.not_eq_false', Bool.or_eq_true, beq_iff_eq, or_assoc] at outside
    simp only [decide_eq_true_eq] at other
    tauto

theorem splitter_splits : SplitsHttps splitter := by
  intro url uri absolute parsed
  rw [splitter, if_pos absolute.https] at parsed
  cases parsed
  obtain ⟨same_path, same_query⟩ := path_query_again (targetOf url)
  obtain ⟨cs, starts⟩ := target_path absolute.plain.2
  exact ⟨rfl, _, rfl, ⟨'/', cs ++ query (targetOf url), by rw [starts]; rfl, Or.inl rfl⟩,
    same_path, same_query⟩

def sampleAgent : Agent := ⟨"ICPandaDAO", "https://proxy.example", 0, none⟩

theorem sample_origin : Origin sampleAgent.endpoint :=
  ⟨"https".toList, "proxy.example".toList, by decide, by decide, List.all_eq_true.mp (by decide)⟩

def sampleServer : AppState AccessControl.sampleLibraries := ⟨∅, fun _ => none, [], []⟩

def asking (url : String) : CanisterHttpRequestArgument :=
  ⟨url, none, [⟨"idempotency-key", "k1"⟩], none⟩

def sampleOutcall (url forwarded : String) : Outcall :=
  ⟨⟨url, none, [⟨"idempotency-key", "k1"⟩, ⟨"x-forwarded-host", forwarded⟩,
    ⟨"response-headers", "date"⟩], none⟩, "inner_transform_response"⟩

theorem sample_target_survives :
    (∃ arrived url, arrival "GET"
        (sampleOutcall "https://proxy.example/get?a=1" "httpbin.org").request = some arrived ∧
      targetUrl sampleServer arrived = .ok url ∧
      resource url = resource "https://httpbin.org/get?a=1") ↔
      Survives sampleServer "https://httpbin.org/get?a=1" := by
  have absolute : AbsoluteHttps (asking "https://httpbin.org/get?a=1").url :=
    ⟨by decide, by decide, List.all_eq_true.mp (by decide), Or.inl (by decide), by decide⟩
  have own : Lacks (asking "https://httpbin.org/get?a=1").headers "x-forwarded-host" := by decide
  have built : buildRequest splitter sampleAgent (asking "https://httpbin.org/get?a=1") =
      .ok (sampleOutcall "https://proxy.example/get?a=1" "httpbin.org") := by rfl
  exact target_survives_iff splitter_splits sample_origin absolute own built "GET"

/-- A service on port 8443: the server asks the one on port 443. -/
theorem target_port_lost :
    SplitsHttps splitter ∧ Origin sampleAgent.endpoint ∧
      AbsoluteHttps "https://localhost:8443/get" ∧
      Lacks (asking "https://localhost:8443/get").headers "x-forwarded-host" ∧
      buildRequest splitter sampleAgent (asking "https://localhost:8443/get") =
        .ok (sampleOutcall "https://proxy.example/get" "localhost") ∧
      (arrival "GET" (sampleOutcall "https://proxy.example/get" "localhost").request).map
        (targetUrl sampleServer) = some (.ok "https://localhost/get") ∧
      resource "https://localhost/get" ≠ resource "https://localhost:8443/get" := by
  have digits : ∀ d ∈ "8443".toList, d.isDigit = true := List.all_eq_true.mp (by decide)
  have absolute : AbsoluteHttps "https://localhost:8443/get" :=
    ⟨by decide, by decide, List.all_eq_true.mp (by decide), Or.inr ⟨_, by decide, digits⟩,
      by decide⟩
  exact ⟨splitter_splits, sample_origin, absolute, by decide, by rfl, by rfl, by decide⟩

end Sample
end TargetUrl
