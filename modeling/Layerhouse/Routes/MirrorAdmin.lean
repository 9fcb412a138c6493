/-
This file is the part of `routes/admin.rs` that takes the mirror configuration in: what is
checked of a mirror rule and of a proxy cache before they are stored, and how their texts
are normalized. A warm image is stored as it is sent.

Nothing is asked of a schedule. It is trimmed, and its fields are what they were.
-/

import Layerhouse.Mirror.Credentials
import Layerhouse.Mirror.JobIds
import Layerhouse.Routes.Paths

namespace Layerhouse

/-! ### Texts -/

def normalizeOptional (value : Option String) : Option String :=
  value.bind fun text =>
    let trimmed := Text.trim text.toList
    if trimmed = [] then none else some (String.ofList trimmed)

/-- What the mirror itself does to a prefix. -/
def normalizeOptionalPrefix (value : Option String) : Option String :=
  normalizeUpstreamPrefix value

def normalizeRegistry (value : String) : String :=
  trimEndSlashes (String.ofList (Text.trim value.toList))

/-! ### Checks -/

/-- The address of a proxy; `label` is what the message calls its protocol. -/
def validateProxyUrl (package : HttpPackage) (label : String) (proxy : OutboundProxy) :
    Except LayerhouseError OutboundProxy :=
  match proxy.url with
  | none => .error (.nameInvalid ("outbound_proxy.url is required for " ++ label ++ " proxy"))
  | some url =>
    match package.proxyUrl proxy.protocol url with
    | .error message => .error (.nameInvalid message)
    | .ok () => .ok proxy

def validateOutboundProxy (package : HttpPackage) (proxy : OutboundProxy) :
    Except LayerhouseError OutboundProxy :=
  let normalized : OutboundProxy :=
    { proxy with
      url := normalizeOptional proxy.url
      username := normalizeOptional proxy.username
      password := normalizeOptional proxy.password }
  match proxy.protocol with
  | .none => .ok { proxy with url := none, username := none, password := none }
  | .http => validateProxyUrl package "HTTP" normalized
  | .socks4 => validateProxyUrl package "SOCKS4" normalized
  | .socks5 => validateProxyUrl package "SOCKS5h" normalized
  | .https => .error (.nameInvalid
      "HTTPS outbound proxy is deferred until aioduct exposes HTTPS proxy support")

/-- A count that must not be zero and a pattern that must not be blank, under the name of their
field. -/
def validateCount (field : String) (count : UInt32) : Except LayerhouseError Unit :=
  if 0 < count then .ok ()
  else .error (.nameInvalid (field ++ ".count must be greater than zero"))

def validatePattern (field pattern : String) : Except LayerhouseError Unit :=
  required pattern (field ++ ".pattern")

def validateStrategy : MirrorStrategy → Except LayerhouseError Unit
  | .all => .ok ()
  | .latest count => validateCount "strategy" count
  | .pattern pattern => validatePattern "strategy" pattern

def validateWarmFilter : WarmFilter → Except LayerhouseError Unit
  | .none | .all => .ok ()
  | .latest count _ => validateCount "warm_filters.latest" count
  | .pattern pattern => validatePattern "warm_filters" pattern

def validateWarmFilters (filters : List WarmFilter) : Except LayerhouseError Unit :=
  if WarmFilter.none ∈ filters ∧ 1 < filters.length then
    .error (.nameInvalid "warm_filters.none is exclusive")
  else filters.forM validateWarmFilter

/-- The checks that rules and caches share. The registry is normalized. -/
def validateUpstream (id localPrefix upstreamRegistry : String) (plainHttp insecureTls : Bool) :
    Except LayerhouseError String := do
  required id "id"
  required localPrefix "local_prefix"
  required (normalizeRegistry upstreamRegistry) "upstream_registry"
  if plainHttp ∧ insecureTls then
    .error (.nameInvalid "plain_http and insecure_tls are mutually exclusive")
  else .ok (normalizeRegistry upstreamRegistry)

def validateMirrorRule (package : HttpPackage) (rule : MirrorRule) :
    Except LayerhouseError MirrorRule := do
  let upstreamRegistry ← validateUpstream rule.id rule.localPrefix rule.upstreamRegistry
    rule.plainHttp rule.insecureTls
  validateStrategy rule.strategy
  let outboundProxy ← validateOutboundProxy package rule.outboundProxy
  return { rule with
    upstreamRegistry := upstreamRegistry
    upstreamPrefix := normalizeOptionalPrefix rule.upstreamPrefix
    schedule := normalizeOptional rule.schedule
    username := normalizeOptional rule.username
    password := normalizeOptional rule.password
    outboundProxy := outboundProxy }

def validateProxyCache (package : HttpPackage) (cache : ProxyCache) :
    Except LayerhouseError ProxyCache := do
  let upstreamRegistry ← validateUpstream cache.id cache.localPrefix cache.upstreamRegistry
    cache.plainHttp cache.insecureTls
  validateWarmFilters cache.warmFilters
  let outboundProxy ← validateOutboundProxy package cache.outboundProxy
  return { cache with
    upstreamRegistry := upstreamRegistry
    upstreamPrefix := normalizeOptionalPrefix cache.upstreamPrefix
    warmSchedule := normalizeOptional cache.warmSchedule
    username := normalizeOptional cache.username
    password := normalizeOptional cache.password
    outboundProxy := outboundProxy }

/-! ### Handlers -/

/-- What `put_rule` stores. -/
def putRule (package : HttpPackage) (now : Nat) (id : String) (rule : MirrorRule) :
    Except LayerhouseError MirrorRule := do
  let rule ← validateMirrorRule package { rule with id := id }
  return { rule with createdAt := if rule.createdAt = 0 then now else rule.createdAt }

/-- What `put_proxy_cache` stores. -/
def putProxyCache (package : HttpPackage) (now : Nat) (id : String) (cache : ProxyCache) :
    Except LayerhouseError ProxyCache := do
  let cache ← validateProxyCache package { cache with id := id }
  return { cache with createdAt := if cache.createdAt = 0 then now else cache.createdAt }

/-- What `put_warm` stores. -/
def putWarm (id : String) (image : WarmImage) : WarmImage :=
  { image with id := id }

/-! ### Schedules -/

/-- What is read from the words of a text is not changed when the text is normalized. -/
theorem bind_words_normalizeOptional {Result : Type} (read : List (List Char) → Option Result)
    (blank : read [] = none) (value : Option String) :
    (normalizeOptional value).bind (fun text => read (Text.splitWhitespace text.toList)) =
      value.bind fun text => read (Text.splitWhitespace text.toList) := by
  cases value with
  | none => rfl
  | some text =>
    rw [normalizeOptional, Option.bind_some, Option.bind_some, ← Text.splitWhitespace_trim]
    by_cases nothing : Text.trim text.toList = []
    · rw [if_pos nothing, nothing]
      exact blank.symm
    · rw [if_neg nothing, Option.bind_some, String.toList_ofList]

theorem schedule_of_putRule {package : HttpPackage} {now : Nat} {id : String}
    {rule stored : MirrorRule} (accepted : putRule package now id rule = .ok stored) :
    stored.schedule = normalizeOptional rule.schedule := by
  obtain ⟨normalized, validated, kept⟩ := exceptBind_eq_ok.mp accepted
  obtain rfl := Except.ok.inj kept
  obtain ⟨registry, _, validated⟩ := exceptBind_eq_ok.mp validated
  obtain ⟨_, _, validated⟩ := exceptBind_eq_ok.mp validated
  obtain ⟨proxy, _, kept⟩ := exceptBind_eq_ok.mp validated
  obtain rfl := Except.ok.inj kept
  rfl

theorem warmSchedule_of_putProxyCache {package : HttpPackage} {now : Nat} {id : String}
    {cache stored : ProxyCache} (accepted : putProxyCache package now id cache = .ok stored) :
    stored.warmSchedule = normalizeOptional cache.warmSchedule := by
  obtain ⟨normalized, validated, kept⟩ := exceptBind_eq_ok.mp accepted
  obtain rfl := Except.ok.inj kept
  obtain ⟨registry, _, validated⟩ := exceptBind_eq_ok.mp validated
  obtain ⟨_, _, validated⟩ := exceptBind_eq_ok.mp validated
  obtain ⟨proxy, _, kept⟩ := exceptBind_eq_ok.mp validated
  obtain rfl := Except.ok.inj kept
  rfl

end Layerhouse
