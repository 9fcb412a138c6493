/-
This file is the client for upstream registries of `mirror/client.rs`. It keeps the HTTP
clients it has built and the bearer tokens it has fetched, each under a text that is
formatted from the settings they are for: the key of a client leaves the password of the
proxy out, and the key of a token leaves the credentials of the upstream out.

All rules and caches share the client. The file follows any number of calls, step by
step, and proves for which settings every request is sent with a client that is built
from its own settings and a token that was fetched with its own credentials: exactly when
no two settings in use have the same key and differ in what the key leaves out.
-/

import Layerhouse.Mirror.Upstreams

namespace Layerhouse

/-! ### Keys -/

inductive UpstreamScope where
  | pull
  | pushPull
deriving DecidableEq

def UpstreamScope.asStr : UpstreamScope → String
  | .pull => "pull"
  | .pushPull => "pull,push"

/-- The `Debug` text. -/
def OutboundProxyProtocol.debugStr : OutboundProxyProtocol → String
  | .none => "None"
  | .http => "Http"
  | .https => "Https"
  | .socks4 => "Socks4"
  | .socks5 => "Socks5"

/-- The address and the user of a proxy as its key has them. -/
def OutboundProxy.spelling (proxy : OutboundProxy) : String :=
  proxy.url.getD "" ++ "|" ++ proxy.username.getD ""

def clientKey (proxy : OutboundProxy) : String :=
  proxy.protocol.debugStr ++ "|" ++ proxy.spelling

def clientCacheKey (proxy : OutboundProxy) (insecureTls : Bool) : String :=
  clientKey proxy ++ "|insecure_tls=" ++ toString insecureTls

namespace UpstreamRef

def cacheKey (upstream : UpstreamRef) (scope : UpstreamScope) : String :=
  clientCacheKey upstream.outboundProxy upstream.insecureTls ++ "|" ++ upstream.registry ++
    "|repository:" ++ upstream.repository ++ ":" ++ upstream.scheme ++ ":" ++
    toString upstream.insecureTls ++ ":" ++ scope.asStr

/-- The proxy, the registry and the repository as the key of a token has them. -/
def spelling (upstream : UpstreamRef) : String :=
  upstream.outboundProxy.spelling ++ "|insecure_tls=" ++ toString upstream.insecureTls ++ "|" ++
    upstream.registry ++ "|repository:" ++ upstream.repository

end UpstreamRef

/-! ### What keys tell apart -/

theorem debugStr_inj {first second : OutboundProxyProtocol} :
    first.debugStr = second.debugStr ↔ first = second := by
  cases first <;> cases second <;> decide

theorem bar_notMem_debugStr (protocol : OutboundProxyProtocol) :
    '|' ∉ protocol.debugStr.toList := by
  cases protocol <;> decide

theorem toString_bool_inj {first second : Bool} :
    toString first = toString second ↔ first = second := by
  cases first <;> cases second <;> decide

theorem clientCacheKey_inj {proxy other : OutboundProxy} {insecureTls insecure : Bool} :
    clientCacheKey proxy insecureTls = clientCacheKey other insecure ↔
      proxy.protocol = other.protocol ∧ insecureTls = insecure ∧
        proxy.spelling = other.spelling := by
  have parts : ∀ (proxy : OutboundProxy) (insecureTls : Bool), clientCacheKey proxy insecureTls =
      proxy.protocol.debugStr ++ String.singleton '|' ++ (proxy.spelling ++ "|insecure_tls") ++
        String.singleton '=' ++ toString insecureTls := by
    intro proxy insecureTls
    have label : "|insecure_tls=" = "|insecure_tls" ++ String.singleton '=' := rfl
    have bar : "|" = String.singleton '|' := rfl
    rw [clientCacheKey, clientKey, label, bar]
    simp only [String.append_assoc]
  have noEquals : ∀ value : Bool, '=' ∉ (toString value).toList := by decide
  rw [parts, parts, Text.lastSeparator_inj (noEquals _) (noEquals _),
    Text.firstSeparator_inj (bar_notMem_debugStr _) (bar_notMem_debugStr _), debugStr_inj,
    String.append_left_inj, toString_bool_inj]
  tauto

/-- The arguments of `UpstreamRef::new`. -/
structure UpstreamSettings where
  registry : String
  repository : String
  plainHttp : Bool
  insecureTls : Bool
  outboundProxy : OutboundProxy
  username : Option String
  password : Option String
deriving DecidableEq

def UpstreamSettings.ref (settings : UpstreamSettings) : UpstreamRef :=
  UpstreamRef.new settings.registry settings.repository settings.plainHttp settings.insecureTls
    settings.outboundProxy settings.username settings.password

theorem colon_notMem_scheme (settings : UpstreamSettings) :
    ':' ∉ settings.ref.scheme.toList := by
  simp only [UpstreamSettings.ref, UpstreamRef.new]
  repeat' split
  all_goals decide

/-- The key of a token tells apart the protocol of the proxy, the TLS flag, the scheme and the
scope, and all else only by its spelling. -/
theorem cacheKey_inj {first second : UpstreamSettings} {scope other : UpstreamScope} :
    first.ref.cacheKey scope = second.ref.cacheKey other ↔
      first.outboundProxy.protocol = second.outboundProxy.protocol ∧
        first.insecureTls = second.insecureTls ∧ first.ref.scheme = second.ref.scheme ∧
        scope = other ∧ first.ref.spelling = second.ref.spelling := by
  have parts : ∀ (upstream : UpstreamRef) (scope : UpstreamScope), upstream.cacheKey scope =
      upstream.outboundProxy.protocol.debugStr ++ String.singleton '|' ++ upstream.spelling ++
        String.singleton ':' ++ upstream.scheme ++ String.singleton ':' ++
        toString upstream.insecureTls ++ String.singleton ':' ++ scope.asStr := by
    intro upstream scope
    have colon : ":" = String.singleton ':' := rfl
    have bar : "|" = String.singleton '|' := rfl
    rw [UpstreamRef.cacheKey, UpstreamRef.spelling, clientCacheKey, clientKey, colon, bar]
    simp only [String.append_assoc]
  have noColonScope : ∀ scope : UpstreamScope, ':' ∉ scope.asStr.toList := by
    intro scope
    cases scope <;> decide
  have noColonBool : ∀ value : Bool, ':' ∉ (toString value).toList := by decide
  have scopeInj : scope.asStr = other.asStr ↔ scope = other := by
    cases scope <;> cases other <;> decide
  rw [parts, parts, Text.lastSeparator_inj (noColonScope _) (noColonScope _),
    Text.lastSeparator_inj (noColonBool _) (noColonBool _),
    Text.lastSeparator_inj (colon_notMem_scheme first) (colon_notMem_scheme second),
    Text.firstSeparator_inj (bar_notMem_debugStr _) (bar_notMem_debugStr _), debugStr_inj,
    toString_bool_inj, scopeInj]
  show ((((first.outboundProxy.protocol = second.outboundProxy.protocol ∧ _) ∧ _) ∧
    first.insecureTls = second.insecureTls) ∧ _) ↔ _
  tauto

/-! ### HTTP clients -/

/-- The proxy of a client: its protocol, its address and what it is logged in with. -/
structure ProxyConfig where
  protocol : OutboundProxyProtocol
  url : String
  basicAuth : Option (String × String)
deriving DecidableEq

/-- A client is what it was built from. -/
structure HttpClient where
  proxy : Option ProxyConfig
  insecureTls : Bool
deriving DecidableEq

/-- The HTTP package: which addresses it takes for a proxy, and which clients it can build. The
process does not start when the plain client cannot be built. -/
structure HttpPackage where
  proxyUrl : OutboundProxyProtocol → String → Except String Unit
  build : HttpClient → Except String Unit
  plain : build ⟨none, false⟩ = .ok ()

namespace OutboundProxy

/-- What the proxy is logged in with: both texts, unless one is absent or both are empty. -/
def basicAuth (proxy : OutboundProxy) : Option (String × String) :=
  match proxy.username, proxy.password with
  | some username, some password =>
    if username ≠ "" ∨ password ≠ "" then some (username, password) else none
  | _, _ => none

/-- The configuration of a proxy that is not `None`. -/
def config (package : HttpPackage) (proxy : OutboundProxy) : Except LayerhouseError ProxyConfig :=
  match proxy.url.filter fun url => Text.trim url.toList ≠ [] with
  | none => .error (.nameInvalid
      "outbound_proxy.url is required when proxy protocol is not none")
  | some url =>
    if proxy.protocol = .https then
      .error (.unsupported
        "HTTPS outbound proxy is deferred until aioduct exposes HTTPS proxy support")
    else
      match package.proxyUrl proxy.protocol url with
      | .error message => .error (.nameInvalid message)
      | .ok () => .ok ⟨proxy.protocol, url, proxy.basicAuth⟩

end OutboundProxy

def buildHttpClient (package : HttpPackage) (proxy : Option OutboundProxy) (insecureTls : Bool) :
    Except LayerhouseError HttpClient :=
  let built (client : HttpClient) : Except LayerhouseError HttpClient :=
    match package.build client with
    | .error message => .error (.upstream ("HTTP client: " ++ message))
    | .ok () => .ok client
  match proxy.filter (·.protocol ≠ .none) with
  | none => built ⟨none, insecureTls⟩
  | some proxy =>
    match proxy.config package with
    | .error error => .error error
    | .ok config => built ⟨some config, insecureTls⟩

namespace UpstreamRef

/-- The proxy that a client is built with. -/
def proxy (upstream : UpstreamRef) : Option OutboundProxy :=
  if upstream.outboundProxy.protocol = .none then none else some upstream.outboundProxy

/-- The client that is built from the settings themselves. -/
def ownClient (package : HttpPackage) (upstream : UpstreamRef) :
    Except LayerhouseError HttpClient :=
  buildHttpClient package upstream.proxy upstream.insecureTls

/-- The plain client serves the settings. -/
def isPlain (upstream : UpstreamRef) : Bool :=
  upstream.outboundProxy.protocol = .none ∧ upstream.insecureTls = false

/-- What the settings log in with at the upstream. -/
def credentials (upstream : UpstreamRef) : Option (String × String) :=
  match upstream.username, upstream.password with
  | some username, some password => some (username, password)
  | _, _ => none

end UpstreamRef

/-! ### Calls -/

def maxRetries : Nat := 5

/-- A bearer token. Kept to speak about it: the credentials it was fetched with. -/
structure BearerToken where
  value : String
  credentials : Option (String × String)
deriving DecidableEq

/-- What a call needs a client for. An authorization in the middle of a request says after which
attempt. -/
inductive UpstreamErrand where
  | probe (resume : Option Nat)
  | fetch (resume : Option Nat)
  | attempt (number : Nat)

/-- How far a call is. -/
inductive UpstreamPhase where
  /-- `http` looks for a client. -/
  | connecting (errand : UpstreamErrand)
  /-- `http` has found none and builds one. -/
  | building (errand : UpstreamErrand)
  | connected (errand : UpstreamErrand) (client : HttpClient)
  /-- `apply_auth` has looked for a token. -/
  | authorized (number : Nat) (client : HttpClient) (token : Option BearerToken)
  /-- `ensure_auth_scope` has fetched a token. -/
  | storing (resume : Option Nat) (token : BearerToken)
  /-- `refresh_auth` is about to drop the token. -/
  | refreshing (number : Nat)

structure UpstreamCall where
  settings : UpstreamSettings
  scope : UpstreamScope
  phase : UpstreamPhase

/-- A request that was sent for some settings. -/
structure SentRequest where
  upstream : UpstreamRef
  client : HttpClient
  basicAuth : Option (String × String)
  bearer : Option BearerToken
deriving DecidableEq

/-- The caches of the client and the calls. Kept to speak about it: what was sent. -/
structure UpstreamClient where
  proxied : BTreeMap String HttpClient
  tokens : BTreeMap String BearerToken
  calls : Nat → Option UpstreamCall
  sent : List SentRequest

/-- What the other side answers. To a probe, `unauthorized` comes with a challenge. -/
inductive UpstreamAnswer where
  | unauthorized
  | retryable
  | token (value : String)
  | other
deriving DecidableEq

inductive UpstreamLabel where
  | ensureAuth (id : Nat) (settings : UpstreamSettings) (scope : UpstreamScope)
  | request (id : Nat) (settings : UpstreamSettings) (scope : UpstreamScope) (once : Bool)
  | lookup (id : Nat)
  | build (id : Nat)
  | authorize (id : Nat)
  | send (id : Nat) (answer : UpstreamAnswer)
  | store (id : Nat)
  | refresh (id : Nat)

/-- The label starts calls for these settings only. -/
def UpstreamLabel.Uses (allowed : Set UpstreamSettings) : UpstreamLabel → Prop
  | .ensureAuth _ settings _ | .request _ settings _ _ => settings ∈ allowed
  | _ => True

namespace UpstreamClient

def initial : UpstreamClient where
  proxied := ∅
  tokens := ∅
  calls := fun _ => none
  sent := []

def setCall (client : UpstreamClient) (id : Nat) (call : Option UpstreamCall) : UpstreamClient :=
  { client with calls := Function.update client.calls id call }

theorem calls_setCall (client : UpstreamClient) (id other : Nat) (call : Option UpstreamCall) :
    (client.setCall id call).calls other = if other = id then call else client.calls other :=
  Function.update_apply ..

def setPhase (client : UpstreamClient) (id : Nat) (call : UpstreamCall) (phase : UpstreamPhase) :
    UpstreamClient :=
  client.setCall id (some { call with phase := phase })

/-- The end of an authorization: the call is over, or goes on with its next attempt. -/
def resume (client : UpstreamClient) (id : Nat) (call : UpstreamCall) : Option Nat → UpstreamClient
  | none => client.setCall id none
  | some number => client.setPhase id call (.connecting (.attempt (number + 1)))

/-- The first half of `http`: a client is found, or is to be built. -/
def http (client : UpstreamClient) (upstream : UpstreamRef) (errand : UpstreamErrand) :
    UpstreamPhase :=
  if upstream.isPlain then .connected errand ⟨none, false⟩
  else
    match client.proxied[clientCacheKey upstream.outboundProxy upstream.insecureTls]? with
    | some found => .connected errand found
    | none => .building errand

def send (client : UpstreamClient) (request : SentRequest) : UpstreamClient :=
  { client with sent := request :: client.sent }

def step (package : HttpPackage) (client : UpstreamClient) :
    UpstreamLabel → Option UpstreamClient
  | .ensureAuth id settings scope =>
    match client.calls id with
    | none => some (client.setCall id (some ⟨settings, scope, .connecting (.probe none)⟩))
    | some _ => none
  | .request id settings scope once =>
    match client.calls id with
    | none =>
      -- The last request of a blob upload is not repeated.
      let first := if once then maxRetries else 0
      some (client.setCall id (some ⟨settings, scope, .connecting (.attempt first)⟩))
    | some _ => none
  | .lookup id =>
    (client.calls id).bind fun call =>
      match call.phase with
      | .connecting errand =>
        some (client.setPhase id call (client.http call.settings.ref errand))
      | _ => none
  | .build id =>
    (client.calls id).bind fun call =>
      match call.phase with
      | .building errand =>
        let upstream := call.settings.ref
        match upstream.ownClient package with
        | .ok built =>
          let key := clientCacheKey upstream.outboundProxy upstream.insecureTls
          some ({ client with proxied := client.proxied.insert key built }.setPhase id call
            (.connected errand built))
        | .error _ =>
          match errand with
          | .probe next | .fetch next => some (client.resume id call next)
          | .attempt _ => some (client.setCall id none)
      | _ => none
  | .authorize id =>
    (client.calls id).bind fun call =>
      match call.phase with
      | .connected (.attempt number) connection =>
        some (client.setPhase id call (.authorized number connection
          client.tokens[call.settings.ref.cacheKey call.scope]?))
      | _ => none
  | .send id answer =>
    (client.calls id).bind fun call =>
      let upstream := call.settings.ref
      match call.phase with
      | .connected (.probe next) connection =>
        let after := client.send ⟨upstream, connection, upstream.credentials, none⟩
        some (if answer = .unauthorized then after.setPhase id call (.connecting (.fetch next))
          else after.resume id call next)
      | .connected (.fetch next) connection =>
        let after := client.send ⟨upstream, connection, upstream.credentials, none⟩
        match answer with
        | .token value =>
          some (after.setPhase id call (.storing next ⟨value, upstream.credentials⟩))
        | _ => some (after.resume id call next)
      | .authorized number connection token =>
        let after := client.send ⟨upstream, connection, none, token⟩
        some (if answer = .unauthorized ∧ number < maxRetries then
            after.setPhase id call (.refreshing number)
          else if answer = .retryable ∧ number < maxRetries then
            after.setPhase id call (.connecting (.attempt (number + 1)))
          else after.setCall id none)
      | _ => none
  | .store id =>
    (client.calls id).bind fun call =>
      match call.phase with
      | .storing next token =>
        let key := call.settings.ref.cacheKey call.scope
        some ({ client with tokens := client.tokens.insert key token }.resume id call next)
      | _ => none
  | .refresh id =>
    (client.calls id).bind fun call =>
      match call.phase with
      | .refreshing number =>
        let key := call.settings.ref.cacheKey call.scope
        some ({ client with tokens := client.tokens.erase key }.setPhase id call
          (.connecting (.probe (some number))))
      | _ => none

end UpstreamClient

/-! ### What is asked of requests -/

/-- The request went through the client of its own settings, with a token, if there is one, that
was fetched with its own credentials. -/
def SentRequest.Own (package : HttpPackage) (request : SentRequest) : Prop :=
  request.upstream.ownClient package = .ok request.client ∧
    ∀ token ∈ request.bearer, token.credentials = request.upstream.credentials

/-- Every request of every run of calls for these settings is sent with what is its own. -/
def KeepsCredentials (package : HttpPackage) (allowed : Set UpstreamSettings) : Prop :=
  ∀ labels final, (∀ label ∈ labels, label.Uses allowed) →
    run (UpstreamClient.step package) UpstreamClient.initial labels = some final →
      ∀ request ∈ final.sent, request.Own package

namespace UpstreamSettings

/-- A client can be built from the settings. -/
def Usable (package : HttpPackage) (settings : UpstreamSettings) : Prop :=
  ∃ client, settings.ref.ownClient package = .ok client

/-- Two settings with one protocol, one TLS flag and one spelling of the address and the user of
the proxy. -/
def SharesClient (first second : UpstreamSettings) : Prop :=
  first.outboundProxy.protocol = second.outboundProxy.protocol ∧
    first.insecureTls = second.insecureTls ∧
    first.outboundProxy.spelling = second.outboundProxy.spelling

/-- Two settings with one protocol, one TLS flag, one scheme and one spelling of the proxy, the
registry and the repository. -/
def SharesToken (first second : UpstreamSettings) : Prop :=
  first.outboundProxy.protocol = second.outboundProxy.protocol ∧
    first.insecureTls = second.insecureTls ∧ first.ref.scheme = second.ref.scheme ∧
    first.ref.spelling = second.ref.spelling

/-- Settings that share a client through a proxy have one address of the proxy and one login at
it, and settings that share a token have one login at the upstream. -/
def Separated (package : HttpPackage) (allowed : Set UpstreamSettings) : Prop :=
  ∀ first ∈ allowed, ∀ second ∈ allowed, first.Usable package →
    (first.SharesClient second → first.outboundProxy.protocol ≠ .none →
      first.outboundProxy.url = second.outboundProxy.url ∧
        first.outboundProxy.basicAuth = second.outboundProxy.basicAuth) ∧
    (first.SharesToken second → second.Usable package →
      first.ref.credentials = second.ref.credentials)

/-! ### Clients of one key -/

theorem ownClient_congr (package : HttpPackage) {first second : UpstreamSettings}
    (protocol : first.outboundProxy.protocol = second.outboundProxy.protocol)
    (insecure : first.insecureTls = second.insecureTls)
    (same : first.outboundProxy.protocol ≠ .none →
      first.outboundProxy.url = second.outboundProxy.url ∧
        first.outboundProxy.basicAuth = second.outboundProxy.basicAuth) :
    first.ref.ownClient package = second.ref.ownClient package := by
  show buildHttpClient package (if first.outboundProxy.protocol = .none then none
      else some first.outboundProxy) first.insecureTls =
    buildHttpClient package (if second.outboundProxy.protocol = .none then none
      else some second.outboundProxy) second.insecureTls
  rw [insecure]
  by_cases plain : first.outboundProxy.protocol = .none
  · rw [if_pos plain, if_pos (protocol.symm.trans plain)]
  · have config : first.outboundProxy.config package = second.outboundProxy.config package := by
      rw [OutboundProxy.config, OutboundProxy.config, (same plain).1, (same plain).2, protocol]
    rw [if_neg plain, if_neg fun other => plain (protocol.trans other)]
    simp only [buildHttpClient, Option.filter_some, plain, protocol ▸ plain, ne_eq,
      not_false_eq_true, decide_true, if_true, config]

/-- What the client of settings with a proxy is built from. -/
theorem ownClient_proxy {package : HttpPackage} {settings : UpstreamSettings} {client : HttpClient}
    (proxied : settings.outboundProxy.protocol ≠ .none)
    (built : settings.ref.ownClient package = .ok client) :
    ∃ url, settings.outboundProxy.url = some url ∧
      client = ⟨some ⟨settings.outboundProxy.protocol, url, settings.outboundProxy.basicAuth⟩,
        settings.insecureTls⟩ := by
  have proxy : settings.ref.proxy = some settings.outboundProxy := if_neg proxied
  rw [UpstreamRef.ownClient, proxy, buildHttpClient, Option.filter_some,
    if_pos (decide_eq_true proxied)] at built
  simp only at built
  split at built
  · cases built
  rename_i config configured
  rw [OutboundProxy.config] at configured
  split at configured
  · cases configured
  rename_i url found
  split at configured
  · cases configured
  split at configured
  · cases configured
  obtain rfl := Except.ok.inj configured
  refine ⟨url, (Option.filter_eq_some_iff.mp found).1, ?_⟩
  split at built
  · cases built
  · exact (Except.ok.inj built).symm

theorem ownClient_plain (package : HttpPackage) {settings : UpstreamSettings}
    (plain : settings.ref.isPlain = true) :
    settings.ref.ownClient package = .ok ⟨none, false⟩ := by
  obtain ⟨protocol, insecure⟩ := of_decide_eq_true plain
  have proxy : settings.ref.proxy = none := if_pos protocol
  rw [UpstreamRef.ownClient, proxy, insecure, buildHttpClient]
  simp only [Option.filter_none, package.plain]

theorem Separated.ownClient {package : HttpPackage} {allowed : Set UpstreamSettings}
    (separated : Separated package allowed) {first second : UpstreamSettings} {client : HttpClient}
    (inFirst : first ∈ allowed) (inSecond : second ∈ allowed)
    (key : clientCacheKey first.ref.outboundProxy first.ref.insecureTls =
      clientCacheKey second.ref.outboundProxy second.ref.insecureTls)
    (built : first.ref.ownClient package = .ok client) :
    second.ref.ownClient package = .ok client := by
  obtain ⟨protocol, insecure, spelling⟩ := clientCacheKey_inj.mp key
  have shares : first.SharesClient second := ⟨protocol, insecure, spelling⟩
  rw [← built]
  refine (ownClient_congr package protocol insecure fun proxied => ?_).symm
  exact (separated first inFirst second inSecond ⟨client, built⟩).1 shares proxied

end UpstreamSettings

/-! ### What calls and caches hold -/

/-- A call that has a client has its own, and a token that it carries was fetched with its own
credentials. -/
def UpstreamCall.Sound (package : HttpPackage) (allowed : Set UpstreamSettings)
    (call : UpstreamCall) : Prop :=
  call.settings ∈ allowed ∧
    match call.phase with
    | .connected _ connection => call.settings.ref.ownClient package = .ok connection
    | .authorized _ connection token =>
      call.settings.ref.ownClient package = .ok connection ∧
        ∀ found ∈ token, found.credentials = call.settings.ref.credentials
    | .storing _ token =>
      call.settings.Usable package ∧ token.credentials = call.settings.ref.credentials
    | _ => True

namespace UpstreamClient

/-- What is cached belongs to some of the settings, and what was sent was the sender's own. -/
structure Sound (package : HttpPackage) (allowed : Set UpstreamSettings)
    (client : UpstreamClient) : Prop where
  proxied : ∀ key built, client.proxied[key]? = some built → ∃ settings ∈ allowed,
    clientCacheKey settings.ref.outboundProxy settings.ref.insecureTls = key ∧
      settings.ref.ownClient package = .ok built
  tokens : ∀ key token, client.tokens[key]? = some token → ∃ settings ∈ allowed, ∃ scope,
    settings.ref.cacheKey scope = key ∧ settings.Usable package ∧
      token.credentials = settings.ref.credentials
  calls : ∀ id call, client.calls id = some call → call.Sound package allowed
  sent : ∀ request ∈ client.sent, request.Own package

namespace Sound

variable {package : HttpPackage} {allowed : Set UpstreamSettings} {client : UpstreamClient}

theorem initial : UpstreamClient.initial.Sound package allowed where
  proxied key built found := by
    rw [show UpstreamClient.initial.proxied = ∅ from rfl, BTreeMap.getElem?_empty] at found
    cases found
  tokens key token found := by
    rw [show UpstreamClient.initial.tokens = ∅ from rfl, BTreeMap.getElem?_empty] at found
    cases found
  calls id call found := by cases found
  sent request member := by cases member

theorem setCall (sound : client.Sound package allowed) (id : Nat) {call : Option UpstreamCall}
    (own : ∀ started ∈ call, started.Sound package allowed) :
    (client.setCall id call).Sound package allowed where
  proxied := sound.proxied
  tokens := sound.tokens
  calls other found stored := by
    rw [calls_setCall] at stored
    split at stored
    · exact own found stored
    · exact sound.calls other found stored
  sent := sound.sent

theorem setPhase (sound : client.Sound package allowed) (id : Nat) {call : UpstreamCall}
    {phase : UpstreamPhase}
    (own : UpstreamCall.Sound package allowed { call with phase := phase }) :
    (client.setPhase id call phase).Sound package allowed := by
  refine sound.setCall id fun started same => ?_
  obtain rfl := Option.some.inj same
  exact own

theorem resume (sound : client.Sound package allowed) (id : Nat) {call : UpstreamCall}
    (member : call.settings ∈ allowed) (next : Option Nat) :
    (client.resume id call next).Sound package allowed := by
  cases next with
  | none => exact sound.setCall id fun started same => nomatch same
  | some number => exact sound.setPhase id ⟨member, trivial⟩

theorem send (sound : client.Sound package allowed) {request : SentRequest}
    (own : request.Own package) : (client.send request).Sound package allowed where
  proxied := sound.proxied
  tokens := sound.tokens
  calls := sound.calls
  sent other member := by
    rcases List.mem_cons.mp member with rfl | earlier
    · exact own
    · exact sound.sent other earlier

/-- A probe and the fetch of a token carry no token. -/
theorem sendBasic (sound : client.Sound package allowed) {settings : UpstreamSettings}
    {connection : HttpClient} (own : settings.ref.ownClient package = .ok connection) :
    (client.send ⟨settings.ref, connection, settings.ref.credentials, none⟩).Sound package
      allowed :=
  sound.send ⟨own, fun _ absent => nomatch absent⟩

theorem lookup (sound : client.Sound package allowed)
    (separated : UpstreamSettings.Separated package allowed) {id : Nat} {call : UpstreamCall}
    {errand : UpstreamErrand} {found : HttpClient} (member : call.settings ∈ allowed)
    (cached : client.proxied[clientCacheKey call.settings.ref.outboundProxy
      call.settings.ref.insecureTls]? = some found) :
    (client.setPhase id call (.connected errand found)).Sound package allowed := by
  obtain ⟨settings, inAllowed, key, built⟩ := sound.proxied _ found cached
  exact sound.setPhase id ⟨member, separated.ownClient inAllowed member key built⟩

theorem build (sound : client.Sound package allowed) {id : Nat} {call : UpstreamCall}
    {errand : UpstreamErrand} {built : HttpClient} (member : call.settings ∈ allowed)
    (own : call.settings.ref.ownClient package = .ok built) :
    (UpstreamClient.setPhase { client with
      proxied := client.proxied.insert (clientCacheKey call.settings.ref.outboundProxy
        call.settings.ref.insecureTls) built } id call
      (.connected errand built)).Sound package allowed := by
  have inserted : Sound package allowed { client with
      proxied := client.proxied.insert (clientCacheKey call.settings.ref.outboundProxy
        call.settings.ref.insecureTls) built } := by
    refine { sound with proxied := fun key other found => ?_ }
    rw [BTreeMap.getElem?_insert] at found
    split at found
    · rename_i same
      obtain rfl := Option.some.inj found
      exact ⟨call.settings, member, same, own⟩
    · exact sound.proxied key other found
  exact inserted.setPhase id ⟨member, own⟩

theorem authorize (sound : client.Sound package allowed)
    (separated : UpstreamSettings.Separated package allowed) {id number : Nat}
    {call : UpstreamCall} {connection : HttpClient} (member : call.settings ∈ allowed)
    (own : call.settings.ref.ownClient package = .ok connection) :
    (client.setPhase id call (.authorized number connection
      client.tokens[call.settings.ref.cacheKey call.scope]?)).Sound package allowed := by
  refine sound.setPhase id ⟨member, own, fun token cached => ?_⟩
  obtain ⟨settings, inAllowed, scope, key, usable, same⟩ := sound.tokens _ token cached
  obtain ⟨protocol, insecure, scheme, _, spelling⟩ := cacheKey_inj.mp key
  rw [same]
  exact (separated settings inAllowed call.settings member usable).2
    ⟨protocol, insecure, scheme, spelling⟩ ⟨connection, own⟩

theorem store (sound : client.Sound package allowed) {id : Nat} {call : UpstreamCall}
    {token : BearerToken} (member : call.settings ∈ allowed)
    (usable : call.settings.Usable package)
    (fetched : token.credentials = call.settings.ref.credentials) (next : Option Nat) :
    (UpstreamClient.resume { client with
      tokens := client.tokens.insert (call.settings.ref.cacheKey call.scope) token } id call
      next).Sound package allowed := by
  have inserted : Sound package allowed { client with
      tokens := client.tokens.insert (call.settings.ref.cacheKey call.scope) token } := by
    refine { sound with tokens := fun key other found => ?_ }
    rw [BTreeMap.getElem?_insert] at found
    split at found
    · rename_i same
      obtain rfl := Option.some.inj found
      exact ⟨call.settings, member, call.scope, same, usable, fetched⟩
    · exact sound.tokens key other found
  exact inserted.resume id member next

theorem refresh (sound : client.Sound package allowed) {id number : Nat} {call : UpstreamCall}
    (member : call.settings ∈ allowed) :
    (UpstreamClient.setPhase { client with
      tokens := client.tokens.erase (call.settings.ref.cacheKey call.scope) } id call
      (.connecting (.probe (some number)))).Sound package allowed := by
  have erased : Sound package allowed { client with
      tokens := client.tokens.erase (call.settings.ref.cacheKey call.scope) } := by
    refine { sound with tokens := fun key other found => ?_ }
    rw [BTreeMap.getElem?_erase] at found
    exact sound.tokens key other (Option.ite_none_left_eq_some.mp found).2
  exact erased.setPhase id ⟨member, trivial⟩

/-- Whatever is sent is sent with what belongs to the settings of its call. -/
theorem answered (sound : client.Sound package allowed) {id : Nat} {answer : UpstreamAnswer}
    {next : UpstreamClient}
    (stepped : UpstreamClient.step package client (.send id answer) = some next) :
    next.Sound package allowed := by
  obtain ⟨call, found, moved⟩ := Option.bind_eq_some_iff.mp stepped
  have ofCall := sound.calls id call found
  split at moved
  · rename_i phase
    rw [UpstreamCall.Sound, phase] at ofCall
    obtain rfl := Option.some.inj moved
    have after := sound.sendBasic ofCall.2
    split
    · exact after.setPhase id ⟨ofCall.1, trivial⟩
    · exact after.resume id ofCall.1 _
  · rename_i phase
    rw [UpstreamCall.Sound, phase] at ofCall
    have after := sound.sendBasic ofCall.2
    split at moved
    · obtain rfl := Option.some.inj moved
      exact after.setPhase id ⟨ofCall.1, ⟨_, ofCall.2⟩, rfl⟩
    · obtain rfl := Option.some.inj moved
      exact after.resume id ofCall.1 _
  · rename_i number connection token phase
    rw [UpstreamCall.Sound, phase] at ofCall
    obtain rfl := Option.some.inj moved
    have own : SentRequest.Own package ⟨call.settings.ref, connection, none, token⟩ := ofCall.2
    have after := sound.send own
    split
    · exact after.setPhase id ⟨ofCall.1, trivial⟩
    · split
      · exact after.setPhase id ⟨ofCall.1, trivial⟩
      · exact after.setCall id fun started same => nomatch same
  · cases moved

/-- With separated settings, every step keeps what is cached and sent sound. -/
theorem step (sound : client.Sound package allowed)
    (separated : UpstreamSettings.Separated package allowed) {label : UpstreamLabel}
    {next : UpstreamClient} (uses : label.Uses allowed)
    (stepped : UpstreamClient.step package client label = some next) :
    next.Sound package allowed := by
  cases label with
  | ensureAuth id settings scope =>
    rw [UpstreamClient.step] at stepped
    split at stepped
    · obtain rfl := Option.some.inj stepped
      refine sound.setCall id fun started same => ?_
      obtain rfl := Option.some.inj same
      exact ⟨uses, trivial⟩
    · cases stepped
  | request id settings scope once =>
    rw [UpstreamClient.step] at stepped
    split at stepped
    · obtain rfl := Option.some.inj stepped
      refine sound.setCall id fun started same => ?_
      obtain rfl := Option.some.inj same
      exact ⟨uses, trivial⟩
    · cases stepped
  | lookup id =>
    obtain ⟨call, found, moved⟩ := Option.bind_eq_some_iff.mp stepped
    have member := (sound.calls id call found).1
    split at moved
    · obtain rfl := Option.some.inj moved
      rw [http]
      split
      · rename_i plain
        exact sound.setPhase id ⟨member, UpstreamSettings.ownClient_plain package plain⟩
      · split
        · rename_i cached
          exact sound.lookup separated member cached
        · exact sound.setPhase id ⟨member, trivial⟩
    · cases moved
  | build id =>
    obtain ⟨call, found, moved⟩ := Option.bind_eq_some_iff.mp stepped
    have member := (sound.calls id call found).1
    split at moved
    · simp only at moved
      split at moved
      · rename_i own
        obtain rfl := Option.some.inj moved
        exact sound.build member own
      · split at moved
        · obtain rfl := Option.some.inj moved
          exact sound.resume id member _
        · obtain rfl := Option.some.inj moved
          exact sound.resume id member _
        · obtain rfl := Option.some.inj moved
          exact sound.setCall id fun started same => nomatch same
    · cases moved
  | authorize id =>
    obtain ⟨call, found, moved⟩ := Option.bind_eq_some_iff.mp stepped
    have ofCall := sound.calls id call found
    split at moved
    · rename_i phase
      obtain rfl := Option.some.inj moved
      rw [UpstreamCall.Sound, phase] at ofCall
      exact sound.authorize separated ofCall.1 ofCall.2
    · cases moved
  | send id answer => exact sound.answered stepped
  | store id =>
    obtain ⟨call, found, moved⟩ := Option.bind_eq_some_iff.mp stepped
    have ofCall := sound.calls id call found
    split at moved
    · rename_i phase
      rw [UpstreamCall.Sound, phase] at ofCall
      obtain rfl := Option.some.inj moved
      exact sound.store ofCall.1 ofCall.2.1 ofCall.2.2 _
    · cases moved
  | refresh id =>
    obtain ⟨call, found, moved⟩ := Option.bind_eq_some_iff.mp stepped
    have member := (sound.calls id call found).1
    split at moved
    · obtain rfl := Option.some.inj moved
      exact sound.refresh member
    · cases moved

end Sound

/-! ### Calls that meet in a cache -/

/-- Calls for these settings lead from one state to the other. -/
def Reaches (package : HttpPackage) (allowed : Set UpstreamSettings)
    (client next : UpstreamClient) : Prop :=
  ∃ labels, (∀ label ∈ labels, label.Uses allowed) ∧
    run (step package) client labels = some next

variable {package : HttpPackage} {allowed : Set UpstreamSettings}
  {client middle next : UpstreamClient}

theorem Reaches.trans (first : Reaches package allowed client middle)
    (second : Reaches package allowed middle next) : Reaches package allowed client next := by
  obtain ⟨labels, uses, reached⟩ := first
  obtain ⟨rest, restUses, continued⟩ := second
  refine ⟨labels ++ rest, fun label member => ?_,
    run_append_eq_some.mpr ⟨middle, reached, continued⟩⟩
  rcases List.mem_append.mp member with early | late
  · exact uses label early
  · exact restUses label late

theorem Reaches.single {label : UpstreamLabel} (stepped : step package client label = some next)
    (uses : label.Uses allowed) : Reaches package allowed client next := by
  refine ⟨[label], fun other member => ?_, run_cons_eq_some.mpr ⟨next, stepped, rfl⟩⟩
  rw [List.mem_singleton.mp member]
  exact uses

theorem http_cases (client : UpstreamClient) (upstream : UpstreamRef) (errand : UpstreamErrand) :
    (∃ connection, client.http upstream errand = .connected errand connection) ∨
      client.http upstream errand = .building errand := by
  rw [http]
  split
  · exact Or.inl ⟨_, rfl⟩
  · split
    · exact Or.inl ⟨_, rfl⟩
    · exact Or.inr rfl

theorem calls_setPhase (client : UpstreamClient) (id other : Nat) (call : UpstreamCall)
    (phase : UpstreamPhase) :
    (client.setPhase id call phase).calls other =
      if other = id then some { call with phase := phase } else client.calls other :=
  calls_setCall ..

theorem step_lookup (package : HttpPackage) {id : Nat} {settings : UpstreamSettings}
    {scope : UpstreamScope} {errand : UpstreamErrand}
    (started : client.calls id = some ⟨settings, scope, .connecting errand⟩) :
    step package client (.lookup id) = some (client.setPhase id
      ⟨settings, scope, .connecting errand⟩ (client.http settings.ref errand)) := by
  rw [step, started]
  rfl

theorem step_build {id : Nat} {settings : UpstreamSettings} {scope : UpstreamScope}
    {errand : UpstreamErrand} {built : HttpClient}
    (missed : client.calls id = some ⟨settings, scope, .building errand⟩)
    (own : settings.ref.ownClient package = .ok built) :
    step package client (.build id) = some (UpstreamClient.setPhase { client with
      proxied := client.proxied.insert (clientCacheKey settings.ref.outboundProxy
        settings.ref.insecureTls) built } id ⟨settings, scope, .building errand⟩
      (.connected errand built)) := by
  rw [step, missed]
  simp only [Option.bind_some, own]

theorem step_sendProbe (package : HttpPackage) {id : Nat} {settings : UpstreamSettings}
    {scope : UpstreamScope} {connection : HttpClient}
    (connected : client.calls id = some ⟨settings, scope, .connected (.probe none) connection⟩) :
    step package client (.send id .other) =
      some ((client.send ⟨settings.ref, connection, settings.ref.credentials, none⟩).setCall id
        none) := by
  rw [step, connected]
  rfl

theorem step_sendAttempt (package : HttpPackage) {id number : Nat} {settings : UpstreamSettings}
    {scope : UpstreamScope} {connection : HttpClient} {token : Option BearerToken}
    (authorized : client.calls id = some ⟨settings, scope, .authorized number connection token⟩) :
    step package client (.send id .other) =
      some ((client.send ⟨settings.ref, connection, none, token⟩).setCall id none) := by
  rw [step, authorized]
  rfl

/-- Calls for these settings lead to a state in which one call has moved on, and the tokens and
the other calls are as before. -/
structure Arrives (package : HttpPackage) (allowed : Set UpstreamSettings) (id : Nat)
    (call : UpstreamCall) (client next : UpstreamClient) : Prop where
  reaches : Reaches package allowed client next
  call : next.calls id = some call
  tokens : next.tokens = client.tokens
  others : ∀ other, other ≠ id → next.calls other = client.calls other

theorem Arrives.trans {id : Nat} {call later : UpstreamCall}
    (first : Arrives package allowed id call client middle)
    (second : Arrives package allowed id later middle next) :
    Arrives package allowed id later client next where
  reaches := first.reaches.trans second.reaches
  call := second.call
  tokens := second.tokens.trans first.tokens
  others := fun other different =>
    (second.others other different).trans (first.others other different)

/-- One step that moves the call on. -/
theorem Arrives.single (allowed : Set UpstreamSettings) {id : Nat} {call : UpstreamCall}
    {phase : UpstreamPhase} {label : UpstreamLabel} {moved : UpstreamClient}
    (stepped : step package client label = some (moved.setPhase id call phase))
    (uses : label.Uses allowed) (tokens : moved.tokens = client.tokens)
    (calls : moved.calls = client.calls) :
    Arrives package allowed id { call with phase := phase } client
      (moved.setPhase id call phase) where
  reaches := .single stepped uses
  call := (calls_setPhase ..).trans (if_pos rfl)
  tokens := tokens
  others := by
    intro other different
    rw [calls_setPhase, if_neg different, calls]

variable {id : Nat} {settings : UpstreamSettings} {scope : UpstreamScope}

/-- A call whose client can be built gets a client. -/
theorem exists_connected (allowed : Set UpstreamSettings) {errand : UpstreamErrand}
    (usable : settings.Usable package)
    (started : client.calls id = some ⟨settings, scope, .connecting errand⟩) :
    ∃ next connection, Arrives package allowed id
      ⟨settings, scope, .connected errand connection⟩ client next := by
  have looked := step_lookup package started
  rcases client.http_cases settings.ref errand with ⟨connection, found⟩ | missed
  · rw [found] at looked
    exact ⟨_, connection, .single allowed looked trivial rfl rfl⟩
  · rw [missed] at looked
    have searched := Arrives.single allowed looked trivial rfl rfl
    obtain ⟨built, own⟩ := usable
    have constructed := Arrives.single allowed (step_build searched.call own) trivial rfl rfl
    exact ⟨_, built, searched.trans constructed⟩

/-- The upstream asks for a token. -/
theorem exists_challenged (allowed : Set UpstreamSettings) (usable : settings.Usable package)
    (started : client.calls id = some ⟨settings, scope, .connecting (.probe none)⟩) :
    ∃ next, Arrives package allowed id ⟨settings, scope, .connecting (.fetch none)⟩ client
      next := by
  obtain ⟨middle, connection, connected⟩ := exists_connected allowed usable started
  have challenged : step package middle (.send id .unauthorized) =
      some ((middle.send ⟨settings.ref, connection, settings.ref.credentials, none⟩).setPhase id
        ⟨settings, scope, .connected (.probe none) connection⟩ (.connecting (.fetch none))) := by
    rw [step, connected.call]
    rfl
  exact ⟨_, connected.trans (.single allowed challenged trivial rfl rfl)⟩

/-- The upstream gives a token. -/
theorem exists_fetched (allowed : Set UpstreamSettings) (usable : settings.Usable package)
    (started : client.calls id = some ⟨settings, scope, .connecting (.fetch none)⟩) :
    ∃ next, Arrives package allowed id
      ⟨settings, scope, .storing none ⟨"", settings.ref.credentials⟩⟩ client next := by
  obtain ⟨middle, connection, connected⟩ := exists_connected allowed usable started
  have answered : step package middle (.send id (.token "")) =
      some ((middle.send ⟨settings.ref, connection, settings.ref.credentials, none⟩).setPhase id
        ⟨settings, scope, .connected (.fetch none) connection⟩
        (.storing none ⟨"", settings.ref.credentials⟩)) := by
    rw [step, connected.call]
    rfl
  exact ⟨_, connected.trans (.single allowed answered trivial rfl rfl)⟩

/-- Settings whose client can be built can have a token in the cache. -/
theorem exists_token (scope : UpstreamScope) (member : settings ∈ allowed)
    (usable : settings.Usable package) :
    ∃ client, Reaches package allowed initial client ∧
      client.tokens[settings.ref.cacheKey scope]? = some ⟨"", settings.ref.credentials⟩ ∧
      client.calls 1 = none := by
  have began : step package initial (.ensureAuth 0 settings scope) =
      some (initial.setCall 0 (some ⟨settings, scope, .connecting (.probe none)⟩)) := rfl
  obtain ⟨challenged, challenge⟩ := exists_challenged allowed usable
    ((calls_setCall initial 0 0 (some ⟨settings, scope, .connecting (.probe none)⟩)).trans
      (if_pos rfl))
  obtain ⟨fetched, fetch⟩ := exists_fetched allowed usable challenge.call
  have stored : step package fetched (.store 0) = some (UpstreamClient.setCall { fetched with
      tokens := fetched.tokens.insert (settings.ref.cacheKey scope)
        ⟨"", settings.ref.credentials⟩ } 0 none) := by
    rw [step, fetch.call]
    rfl
  refine ⟨_, .trans (.single began member) (.trans challenge.reaches
    (.trans fetch.reaches (.single stored trivial))), ?_, ?_⟩
  · exact (BTreeMap.getElem?_insert ..).trans (if_pos rfl)
  · rw [calls_setCall, if_neg (by decide), fetch.others 1 (by decide),
      challenge.others 1 (by decide), calls_setCall, if_neg (by decide)]
    rfl

/-- A request is sent with the token that is cached under the key of its settings. -/
theorem exists_sent (scope : UpstreamScope) (member : settings ∈ allowed)
    (usable : settings.Usable package) (free : client.calls 1 = none) :
    ∃ next request, Reaches package allowed client next ∧ request ∈ next.sent ∧
      request.upstream = settings.ref ∧
      request.bearer = client.tokens[settings.ref.cacheKey scope]? := by
  have began : step package client (.request 1 settings scope false) =
      some (client.setCall 1 (some ⟨settings, scope, .connecting (.attempt 0)⟩)) := by
    rw [step, free]
    rfl
  obtain ⟨middle, connection, connected⟩ := exists_connected allowed usable
    ((calls_setCall client 1 1 (some ⟨settings, scope, .connecting (.attempt 0)⟩)).trans
      (if_pos rfl))
  have attached : step package middle (.authorize 1) =
      some (middle.setPhase 1 ⟨settings, scope, .connected (.attempt 0) connection⟩
        (.authorized 0 connection middle.tokens[settings.ref.cacheKey scope]?)) := by
    rw [step, connected.call]
    rfl
  have authorized := Arrives.single allowed attached trivial rfl rfl
  have sent := step_sendAttempt package authorized.call
  refine ⟨_, _, .trans (.single began member) (.trans connected.reaches
    (.trans authorized.reaches (.single sent trivial))), List.mem_cons_self, rfl, ?_⟩
  show middle.tokens[settings.ref.cacheKey scope]? = _
  rw [connected.tokens]
  rfl

/-- A client that is built for some settings is in the cache afterwards. -/
theorem exists_proxied {built : HttpClient} (member : settings ∈ allowed)
    (plain : settings.ref.isPlain = false) (own : settings.ref.ownClient package = .ok built) :
    ∃ client, Reaches package allowed initial client ∧
      client.proxied[clientCacheKey settings.ref.outboundProxy settings.ref.insecureTls]? =
        some built ∧ client.calls 1 = none := by
  have began : step package initial (.ensureAuth 0 settings .pull) =
      some (initial.setCall 0 (some ⟨settings, .pull, .connecting (.probe none)⟩)) := rfl
  have looked := step_lookup package
    ((calls_setCall initial 0 0 (some ⟨settings, .pull, .connecting (.probe none)⟩)).trans
      (if_pos rfl))
  have missed : (initial.setCall 0 (some ⟨settings, .pull, .connecting (.probe none)⟩)).http
      settings.ref (.probe none) = .building (.probe none) := by
    rw [http, plain, if_neg Bool.false_ne_true]
    have empty : (initial.setCall 0
        (some ⟨settings, .pull, .connecting (.probe none)⟩)).proxied = ∅ := rfl
    rw [empty, BTreeMap.getElem?_empty]
  rw [missed] at looked
  have searched := Arrives.single allowed looked trivial rfl rfl
  have constructed := Arrives.single allowed (step_build searched.call own) trivial rfl rfl
  have arrived := searched.trans constructed
  refine ⟨_, .trans (.single began member) arrived.reaches, ?_, ?_⟩
  · exact (BTreeMap.getElem?_insert ..).trans (if_pos rfl)
  · rw [arrived.others 1 (by decide), calls_setCall, if_neg (by decide)]
    rfl

/-- A request is sent with the client that is cached under the key of its settings. -/
theorem exists_sent_through {cached : HttpClient} (member : settings ∈ allowed)
    (plain : settings.ref.isPlain = false) (free : client.calls 1 = none)
    (found : client.proxied[clientCacheKey settings.ref.outboundProxy
      settings.ref.insecureTls]? = some cached) :
    ∃ next request, Reaches package allowed client next ∧ request ∈ next.sent ∧
      request.upstream = settings.ref ∧ request.client = cached := by
  have began : step package client (.ensureAuth 1 settings .pull) =
      some (client.setCall 1 (some ⟨settings, .pull, .connecting (.probe none)⟩)) := by
    rw [step, free]
  have looked := step_lookup package
    ((calls_setCall client 1 1 (some ⟨settings, .pull, .connecting (.probe none)⟩)).trans
      (if_pos rfl))
  have hit : (client.setCall 1 (some ⟨settings, .pull, .connecting (.probe none)⟩)).http
      settings.ref (.probe none) = .connected (.probe none) cached := by
    rw [http, plain, if_neg Bool.false_ne_true]
    have same : (client.setCall 1
        (some ⟨settings, .pull, .connecting (.probe none)⟩)).proxied = client.proxied := rfl
    rw [same, found]
  rw [hit] at looked
  have connected := Arrives.single allowed looked trivial rfl rfl
  have sent := step_sendProbe package connected.call
  exact ⟨_, _, .trans (.single began member) (.trans connected.reaches (.single sent trivial)),
    List.mem_cons_self, rfl, rfl⟩

end UpstreamClient

/-! ### Which settings stay apart -/

open UpstreamClient UpstreamSettings

/-- Every request is sent with its own client and credentials exactly if the settings in use are
separated. -/
theorem credentials_stay_apart_iff (package : HttpPackage) (allowed : Set UpstreamSettings) :
    KeepsCredentials package allowed ↔ Separated package allowed := by
  constructor
  · intro keeps first inFirst second inSecond usable
    have own : ∀ {client request}, Reaches package allowed initial client →
        request ∈ client.sent → request.Own package := by
      rintro client request ⟨labels, uses, reached⟩ member
      exact keeps labels client uses reached request member
    refine ⟨fun shares proxied => ?_, fun shares otherUsable => ?_⟩
    · obtain ⟨built, builtOwn⟩ := usable
      have notPlain : first.ref.isPlain = false :=
        decide_eq_false fun plain => proxied plain.1
      have otherProxied : second.outboundProxy.protocol ≠ .none := shares.1 ▸ proxied
      have otherNotPlain : second.ref.isPlain = false :=
        decide_eq_false fun plain => otherProxied plain.1
      obtain ⟨client, reached, cached, free⟩ := exists_proxied inFirst notPlain builtOwn
      have key : clientCacheKey first.ref.outboundProxy first.ref.insecureTls =
          clientCacheKey second.ref.outboundProxy second.ref.insecureTls :=
        clientCacheKey_inj.mpr shares
      rw [key] at cached
      obtain ⟨next, request, continued, sent, upstream, same⟩ :=
        exists_sent_through inSecond otherNotPlain free cached
      have ownRequest := (own (reached.trans continued) sent).1
      rw [upstream, same] at ownRequest
      obtain ⟨url, firstUrl, firstClient⟩ := ownClient_proxy proxied builtOwn
      obtain ⟨other, secondUrl, secondClient⟩ := ownClient_proxy otherProxied ownRequest
      rw [firstClient] at secondClient
      injection secondClient with sameProxy
      injection Option.some.inj sameProxy with _ sameUrl sameAuth
      exact ⟨by rw [firstUrl, secondUrl, sameUrl], sameAuth⟩
    · obtain ⟨client, reached, cached, free⟩ := exists_token .pull inFirst usable
      obtain ⟨next, request, continued, sent, upstream, same⟩ :=
        exists_sent .pull inSecond otherUsable free
      have ownRequest := (own (reached.trans continued) sent).2
      obtain ⟨protocol, insecure, scheme, spelling⟩ := shares
      rw [← cacheKey_inj.mpr ⟨protocol, insecure, scheme, rfl, spelling⟩, cached] at same
      exact upstream ▸ ownRequest _ same
  · intro separated labels final uses reached
    have sound : final.Sound package allowed :=
      run_invariant_along (fun client => client.Sound package allowed)
        (fun client label next stepped labelUses sound => sound.step separated labelUses stepped)
        reached (along_of_forall fun label member _ => uses label member) Sound.initial
    exact sound.sent

/-- A package that takes every address and builds every client. -/
def samplePackage : HttpPackage where
  proxyUrl := fun _ _ => .ok ()
  build := fun _ => .ok ()
  plain := rfl

/-- A rule of the registry, with the password of its user. -/
def sampleSettings (password : String) : UpstreamSettings where
  registry := "registry.example"
  repository := "private/app"
  plainHttp := false
  insecureTls := false
  outboundProxy := ⟨.none, none, none, none⟩
  username := some "robot"
  password := some password

/-- One rule fetches a token, and a request of another rule, whose password the registry never
saw, is sent with it. -/
theorem credentials_are_mixed :
    ∃ labels final, run (step samplePackage) initial labels = some final ∧
      ∃ request ∈ final.sent, request.upstream = (sampleSettings "wrong").ref ∧
        ∃ token, request.bearer = some token ∧
          token.credentials = (sampleSettings "right").ref.credentials ∧
          ¬ request.Own samplePackage := by
  let labels : List UpstreamLabel :=
    [.ensureAuth 0 (sampleSettings "right") .pull, .lookup 0, .send 0 .unauthorized, .lookup 0,
      .send 0 (.token "secret"), .store 0, .request 1 (sampleSettings "wrong") .pull false,
      .lookup 1, .authorize 1, .send 1 .other]
  let request : SentRequest := ⟨(sampleSettings "wrong").ref, ⟨none, false⟩, none,
    some ⟨"secret", (sampleSettings "right").ref.credentials⟩⟩
  have reached : (run (step samplePackage) initial labels).any (request ∈ ·.sent) = true := by
    decide +kernel
  obtain ⟨final, reached, sent⟩ := (Option.any_eq_true ..).mp reached
  refine ⟨labels, final, reached, request, of_decide_eq_true sent, rfl, _, rfl, rfl, ?_⟩
  intro own
  exact absurd (own.2 _ rfl) (by decide)

end Layerhouse
