/-
This file is `directory/http_host.rs`: what a directory connector, a component that is not
trusted, may send over HTTP. A request it builds is checked against the origin that the connector
was configured with, and gets the connector's token.

The checks read the headers in different ways: the first value of `Host`, all values of
`Content-Length`, all names, all bytes. So the later values of a repeated `Host` are looked at by
no check, and a request that is sent stays in its sandbox exactly if these are the configured
authority as well. URIs and header values are those of another package, which `HttpCrate` stands
for; it compares schemes and authorities without regard to the case of ASCII letters.
-/

import Layerhouse.Error
import Layerhouse.Library.Slices
import Layerhouse.Raft.Membership

namespace Layerhouse

/-! ### Headers and addresses -/

/-- A header value; it need not be text. -/
abbrev HeaderValue := List UInt8

/-- The headers in the order they are iterated in, with their names in lower case. -/
abbrev HeaderMap := List (String × HeaderValue)

namespace HeaderMap

/-- `HeaderMap::get`: the first value of a name. -/
def get (headers : HeaderMap) (name : String) : Option HeaderValue :=
  (headers.find? (·.1 = name)).map (·.2)

def getAll (headers : HeaderMap) (name : String) : List HeaderValue :=
  (headers.filter (·.1 = name)).map (·.2)

def keys (headers : HeaderMap) : List String :=
  (headers.map (·.1)).dedup

/-- `HeaderMap::insert`: the value takes the place of all values the name has. -/
def insert (headers : HeaderMap) (name : String) (value : HeaderValue) : HeaderMap :=
  headers.filter (·.1 ≠ name) ++ [(name, value)]

end HeaderMap

structure Uri where
  scheme : Option String
  authority : Option String
  pathAndQuery : Option String
deriving DecidableEq

/-- `==` on schemes and on authorities. -/
def SameName (first second : String) : Prop :=
  Text.EqIgnoreAsciiCase first.toList second.toList

instance (first second : String) : Decidable (SameName first second) :=
  inferInstanceAs (Decidable (Text.EqIgnoreAsciiCase _ _))

/-- What the package for HTTP types provides, and the names of the headers that the runtime of the
components forbids by itself. -/
structure HttpCrate where
  parseUri : String → Option Uri
  headerFromStr : String → Option HeaderValue
  toStr : HeaderValue → Option String
  defaultForbiddenHeaders : List String

/-! ### The policy -/

def directoryHttpHeaderLimitBytes : Nat := 16 * 1024

def directoryHttpBodyLimitBytes : Nat := 1024 * 1024

structure AllowedOrigin where
  scheme : String
  authority : String
deriving DecidableEq

structure DirectoryHttpPolicy where
  allowedOrigin : Option AllowedOrigin
  authorization : Option HeaderValue
  headerLimitBytes : Nat
  bodyLimitBytes : Nat
deriving DecidableEq

inductive DirectoryHttpPolicyError where
  | egressNotConfigured
  | invalidBaseOrigin
  | invalidAuthorizationHeader
  | originMismatch
  | tlsMismatch
  | forbiddenHeader (name : String)
  | invalidHostHeader
  | invalidContentLength
  | headersTooLarge (actual max : Nat)
  | bodyTooLarge (actual max : Nat)
  | timeoutBudgetExpired
deriving DecidableEq

def DirectoryHttpPolicyError.text : DirectoryHttpPolicyError → String
  | egressNotConfigured => "directory connector HTTP egress is not configured"
  | invalidBaseOrigin => "directory connector base origin is invalid"
  | invalidAuthorizationHeader =>
    "directory connector API token cannot be used as an authorization header"
  | originMismatch => "directory connector HTTP request origin is not allowed"
  | tlsMismatch => "directory connector HTTP request TLS mode does not match its origin"
  | forbiddenHeader name => "directory connector HTTP request contains forbidden header " ++ name
  | invalidHostHeader => "directory connector HTTP request host header is invalid"
  | invalidContentLength => "directory connector HTTP request content-length is invalid"
  | headersTooLarge actual max => "directory connector HTTP request headers are too large: " ++
    toString actual ++ " bytes, max " ++ toString max ++ " bytes"
  | bodyTooLarge actual max => "directory connector HTTP request body is too large: " ++
    toString actual ++ " bytes, max " ++ toString max ++ " bytes"
  | timeoutBudgetExpired =>
    "directory connector HTTP request exceeded the connector call timeout"

/-- The bytes of the names and values. -/
def headerBytes (headers : HeaderMap) : Nat :=
  (headers.map fun entry => entry.1.utf8ByteSize + entry.2.length).sum

def projectedAuthorizedHeaderBytes (existing : Nat) (authorization : HeaderValue) : Nat :=
  existing + "authorization".utf8ByteSize + authorization.length

namespace DirectoryHttpPolicy

/-- What follows the first `://`. -/
def authorityText (baseOrigin : String) : Option (List Char) :=
  (Slices.find "://".toList baseOrigin.toList).bind fun offset =>
    Slices.sliceFrom (offset + 3) baseOrigin.toList

/-- The origin of a URI that has one. -/
def originOf (uri : Uri) : Option AllowedOrigin := do
  let scheme ← uri.scheme
  let authority ← uri.authority
  return ⟨scheme, authority⟩

def baseOriginOf (http : HttpCrate) (baseOrigin : String) :
    Except DirectoryHttpPolicyError AllowedOrigin :=
  if baseOrigin.toList ≠ Text.trim baseOrigin.toList ∨ '#' ∈ baseOrigin.toList then
    .error .invalidBaseOrigin
  else
    match authorityText baseOrigin with
    | none => .error .invalidBaseOrigin
    | some authorityText =>
      if authorityText = [] ∨ '/' ∈ authorityText ∨ '?' ∈ authorityText then
        .error .invalidBaseOrigin
      else
        match http.parseUri baseOrigin with
        | none => .error .invalidBaseOrigin
        | some uri =>
          match originOf uri with
          | none => .error .invalidBaseOrigin
          | some origin =>
            if origin.scheme ∉ ["http", "https"] ∨ uri.pathAndQuery ∉ [none, some "/"] ∨
                '@' ∈ origin.authority.toList then
              .error .invalidBaseOrigin
            else .ok origin

def authorizationOf (http : HttpCrate) (apiToken : String) :
    Except DirectoryHttpPolicyError HeaderValue :=
  match http.headerFromStr ("Bearer " ++ apiToken) with
  | none => .error .invalidAuthorizationHeader
  | some authorization =>
    if authorization = [] ∨ apiToken = "" ∨ apiToken.toList.any Text.isWhitespace then
      .error .invalidAuthorizationHeader
    else if directoryHttpHeaderLimitBytes < projectedAuthorizedHeaderBytes 0 authorization then
      .error (.headersTooLarge (projectedAuthorizedHeaderBytes 0 authorization)
        directoryHttpHeaderLimitBytes)
    else .ok authorization

/-- `for_connector_origin`; its checks of the origin and of the token are the two definitions
before. -/
def forConnectorOrigin (http : HttpCrate) (baseOrigin apiToken : String) :
    Except DirectoryHttpPolicyError DirectoryHttpPolicy := do
  let origin ← baseOriginOf http baseOrigin
  let authorization ← authorizationOf http apiToken
  return {
    allowedOrigin := some origin
    authorization := some authorization
    headerLimitBytes := directoryHttpHeaderLimitBytes
    bodyLimitBytes := directoryHttpBodyLimitBytes }

end DirectoryHttpPolicy

def isForbiddenGuestHeader (http : HttpCrate) (name : String) : Bool :=
  name ∈ http.defaultForbiddenHeaders ∨ name = "authorization" ∨ name = "cookie" ∨
    name = "forwarded" ∨ "proxy-".toList <+: name.toList ∨ "x-forwarded-".toList <+: name.toList

/-! ### The checks of a request -/

structure OutgoingRequestConfig where
  useTls : Bool
  connectTimeout : Nat
  firstByteTimeout : Nat
  betweenBytesTimeout : Nat
deriving DecidableEq

/-- A request, with a body of any kind. -/
structure OutgoingRequest (Body : Type) where
  method : String
  uri : Uri
  headers : HeaderMap
  body : Body
deriving DecidableEq

/-- `Limited`: a body that fails when it brings more bytes than the limit. -/
structure LimitedBody (Body : Type) where
  body : Body
  limit : Nat
deriving DecidableEq

namespace DirectoryHttpPolicy

variable (http : HttpCrate) (policy : DirectoryHttpPolicy)

def validateOrigin (uri : Uri) (config : OutgoingRequestConfig) (headers : HeaderMap) :
    Except DirectoryHttpPolicyError Unit :=
  match policy.allowedOrigin with
  | none => .error .egressNotConfigured
  | some allowed =>
    if ¬ uri.scheme.any (SameName · allowed.scheme) ∨
        ¬ uri.authority.any (SameName · allowed.authority) then
      .error .originMismatch
    else if config.useTls ≠ decide (SameName allowed.scheme "https") then .error .tlsMismatch
    else
      match headers.get "host" with
      | none => .ok ()
      | some host =>
        match http.toStr host with
        | none => .error .invalidHostHeader
        | some host =>
          if Text.EqIgnoreAsciiCase host.toList allowed.authority.toList then .ok ()
          else .error .originMismatch

def validateHeaders (headers : HeaderMap) : Except DirectoryHttpPolicyError Nat :=
  match headers.keys.find? fun name => name ≠ "host" ∧ isForbiddenGuestHeader http name with
  | some name => .error (.forbiddenHeader name)
  | none =>
    if policy.headerLimitBytes < headerBytes headers then
      .error (.headersTooLarge (headerBytes headers) policy.headerLimitBytes)
    else .ok (headerBytes headers)

/-- The length a value declares. -/
def declaredLength (value : HeaderValue) : Option Nat :=
  (http.toStr value).bind fun text => parseU64 text.toList

def validateContentLength (headers : HeaderMap) : Except DirectoryHttpPolicyError Unit :=
  match headers.getAll "content-length" with
  | [] => .ok ()
  | [length] =>
    match declaredLength http length with
    | none => .error .invalidContentLength
    | some length =>
      if policy.bodyLimitBytes < length then .error (.bodyTooLarge length policy.bodyLimitBytes)
      else .ok ()
  | _ :: _ :: _ => .error .invalidContentLength

end DirectoryHttpPolicy

def capTimeout (timeout cap : Nat) : Nat :=
  if cap < timeout then cap else timeout

/-- `prepare_request`, some time after the call of the connector has started. -/
def prepareRequest {Body : Type} (http : HttpCrate) (policy : DirectoryHttpPolicy)
    (callTimeout elapsed : Nat) (request : OutgoingRequest Body) (config : OutgoingRequestConfig) :
    Except DirectoryHttpPolicyError
      (OutgoingRequest (LimitedBody Body) × OutgoingRequestConfig) :=
  if callTimeout < elapsed then .error .timeoutBudgetExpired
  else
    let remaining := callTimeout - elapsed
    if remaining = 0 then .error .timeoutBudgetExpired
    else do
      policy.validateOrigin http request.uri config request.headers
      policy.validateContentLength http request.headers
      let existing ← policy.validateHeaders http request.headers
      match policy.authorization with
      | none => .error .egressNotConfigured
      | some authorization =>
        let projected := projectedAuthorizedHeaderBytes existing authorization
        if policy.headerLimitBytes < projected then
          .error (.headersTooLarge projected policy.headerLimitBytes)
        else
          return ({ request with
              headers := request.headers.insert "authorization" authorization
              body := ⟨request.body, policy.bodyLimitBytes⟩ },
            { useTls := config.useTls
              connectTimeout := capTimeout config.connectTimeout remaining
              firstByteTimeout := capTimeout config.firstByteTimeout remaining
              betweenBytesTimeout := capTimeout config.betweenBytesTimeout remaining })

/-! ### The sandbox -/

/-- The value is the authority, up to the case of ASCII letters. -/
def NamesAuthority (http : HttpCrate) (authority : String) (host : HeaderValue) : Prop :=
  ∃ text, http.toStr host = some text ∧ Text.EqIgnoreAsciiCase text.toList authority.toList

/-- What a request may be that a connector sends in its remaining time. -/
structure InSandbox {Body : Type} (http : HttpCrate) (origin : AllowedOrigin)
    (authorization : HeaderValue) (remaining : Nat)
    (sent : OutgoingRequest (LimitedBody Body) × OutgoingRequestConfig) : Prop where
  scheme : ∃ scheme, sent.1.uri.scheme = some scheme ∧ SameName scheme origin.scheme
  authority : ∃ authority, sent.1.uri.authority = some authority ∧
    SameName authority origin.authority
  tls : sent.2.useTls = true ↔ SameName origin.scheme "https"
  hosts : ∀ host ∈ sent.1.headers.getAll "host", NamesAuthority http origin.authority host
  authorized : sent.1.headers.getAll "authorization" = [authorization]
  permitted : ∀ name ∈ sent.1.headers.keys, isForbiddenGuestHeader http name = true →
    name = "host" ∨ name = "authorization"
  oneLength : (sent.1.headers.getAll "content-length").length ≤ 1
  lengthFits : ∀ value ∈ sent.1.headers.getAll "content-length",
    ∃ length, DirectoryHttpPolicy.declaredLength http value = some length ∧
      length ≤ directoryHttpBodyLimitBytes
  headersFit : headerBytes sent.1.headers ≤ directoryHttpHeaderLimitBytes
  inTime : sent.2.connectTimeout ≤ remaining ∧ sent.2.firstByteTimeout ≤ remaining ∧
    sent.2.betweenBytesTimeout ≤ remaining

/-! ### Header maps -/

namespace HeaderMap

variable {headers : HeaderMap} {name other : String} {value : HeaderValue}

theorem get_eq_head? (headers : HeaderMap) (name : String) :
    headers.get name = (headers.getAll name).head? := by
  rw [get, getAll, List.head?_map, List.head?_filter]

theorem mem_keys : name ∈ headers.keys ↔ ∃ value, (name, value) ∈ headers := by
  rw [keys, List.mem_dedup, List.mem_map]
  constructor
  · rintro ⟨⟨_, value⟩, member, rfl⟩
    exact ⟨value, member⟩
  · rintro ⟨value, member⟩
    exact ⟨(name, value), member, rfl⟩

theorem getAll_insert_self (headers : HeaderMap) (name : String) (value : HeaderValue) :
    (headers.insert name value).getAll name = [value] := by
  have cleared : (headers.filter (·.1 ≠ name)).filter (·.1 = name) = [] := by
    refine List.filter_eq_nil_iff.mpr fun entry member same => ?_
    exact of_decide_eq_true (List.mem_filter.mp member).2 (of_decide_eq_true same)
  rw [getAll, insert, List.filter_append, cleared]
  simp

theorem getAll_insert_other (headers : HeaderMap) (value : HeaderValue) (different : other ≠ name) :
    (headers.insert name value).getAll other = headers.getAll other := by
  have kept : (headers.filter (·.1 ≠ name)).filter (·.1 = other) =
      headers.filter (·.1 = other) := by
    rw [List.filter_filter]
    refine List.filter_congr fun entry _ => ?_
    by_cases same : entry.1 = other <;> simp [same, different]
  rw [getAll, insert, List.filter_append, kept, getAll]
  simp [different.symm]

theorem mem_keys_insert (member : other ∈ (headers.insert name value).keys) :
    other = name ∨ other ∈ headers.keys := by
  obtain ⟨stored, member⟩ := mem_keys.mp member
  rcases List.mem_append.mp member with kept | added
  · exact Or.inr (mem_keys.mpr ⟨stored, (List.mem_filter.mp kept).1⟩)
  · exact Or.inl (congrArg Prod.fst (List.mem_singleton.mp added))

theorem headerBytes_insert (value : HeaderValue) (absent : name ∉ headers.keys) :
    headerBytes (headers.insert name value) =
      headerBytes headers + name.utf8ByteSize + value.length := by
  have kept : headers.filter (·.1 ≠ name) = headers := by
    refine List.filter_eq_self.mpr fun entry member => decide_eq_true fun same => absent ?_
    exact mem_keys.mpr ⟨entry.2, same ▸ member⟩
  rw [insert, kept, headerBytes, List.map_append, List.sum_append, headerBytes, Nat.add_assoc]
  rfl

end HeaderMap

/-! ### What the checks accept -/

namespace DirectoryHttpPolicy

variable {http : HttpCrate} {policy : DirectoryHttpPolicy} {headers : HeaderMap}

theorem validateOrigin_ok {allowed : AllowedOrigin} {uri : Uri} {config : OutgoingRequestConfig}
    (configured : policy.allowedOrigin = some allowed)
    (accepted : policy.validateOrigin http uri config headers = .ok ()) :
    (∃ scheme, uri.scheme = some scheme ∧ SameName scheme allowed.scheme) ∧
      (∃ authority, uri.authority = some authority ∧ SameName authority allowed.authority) ∧
      (config.useTls = true ↔ SameName allowed.scheme "https") ∧
      ∀ host ∈ (headers.getAll "host").head?, NamesAuthority http allowed.authority host := by
  rw [validateOrigin, configured, HeaderMap.get_eq_head?] at accepted
  simp only at accepted
  split_ifs at accepted with origin tls
  rw [not_or, not_not, not_not, Option.any_eq_true, Option.any_eq_true] at origin
  obtain ⟨⟨scheme, isScheme, sameScheme⟩, authority, isAuthority, sameAuthority⟩ := origin
  refine ⟨⟨scheme, isScheme, of_decide_eq_true sameScheme⟩,
    ⟨authority, isAuthority, of_decide_eq_true sameAuthority⟩, ?_, fun host first => ?_⟩
  · rw [not_not.mp tls, decide_eq_true_iff]
  · rw [first] at accepted
    simp only at accepted
    cases readable : http.toStr host with
    | none =>
      rw [readable] at accepted
      cases accepted
    | some text =>
      rw [readable] at accepted
      simp only at accepted
      split_ifs at accepted with same
      exact ⟨text, readable, same⟩

theorem validateHeaders_ok {existing : Nat}
    (accepted : policy.validateHeaders http headers = .ok existing) :
    existing = headerBytes headers ∧ ∀ name ∈ headers.keys, name ≠ "host" →
      isForbiddenGuestHeader http name = false := by
  rw [validateHeaders] at accepted
  split at accepted
  · cases accepted
  · rename_i permitted
    split_ifs at accepted
    refine ⟨(Except.ok.inj accepted).symm, fun name member notHost => ?_⟩
    have allowed := List.find?_eq_none.mp permitted name member
    rw [decide_eq_true_iff, not_and] at allowed
    exact Bool.eq_false_iff.mpr (allowed notHost)

theorem validateContentLength_ok
    (accepted : policy.validateContentLength http headers = .ok ()) :
    (headers.getAll "content-length").length ≤ 1 ∧
      ∀ value ∈ headers.getAll "content-length",
        ∃ length, declaredLength http value = some length ∧ length ≤ policy.bodyLimitBytes := by
  rw [validateContentLength] at accepted
  split at accepted
  · rename_i none_declared
    rw [none_declared]
    exact ⟨Nat.zero_le _, fun value member => nomatch member⟩
  · rename_i declared one_declared
    rw [one_declared]
    refine ⟨le_rfl, fun value member => ?_⟩
    rw [List.mem_singleton.mp member]
    split at accepted
    · cases accepted
    · rename_i length found
      split_ifs at accepted with fits
      exact ⟨length, found, Nat.not_lt.mp fits⟩
  · cases accepted

/-- The origin is the one that the text of the configuration is read as, and the authorization is
its token. -/
theorem forConnectorOrigin_ok {baseOrigin apiToken : String}
    (built : forConnectorOrigin http baseOrigin apiToken = .ok policy) :
    ∃ origin authorization, (http.parseUri baseOrigin).bind originOf = some origin ∧
      http.headerFromStr ("Bearer " ++ apiToken) = some authorization ∧
      policy = ⟨some origin, some authorization, directoryHttpHeaderLimitBytes,
        directoryHttpBodyLimitBytes⟩ := by
  obtain ⟨origin, based, built⟩ := exceptBind_eq_ok.mp built
  obtain ⟨authorization, authorized, built⟩ := exceptBind_eq_ok.mp built
  refine ⟨origin, authorization, ?_, ?_, (Except.ok.inj built).symm⟩
  · rw [baseOriginOf] at based
    split_ifs at based
    split at based
    · cases based
    · split_ifs at based
      split at based
      · cases based
      · rename_i uri parsed
        split at based
        · cases based
        · rename_i found isOrigin
          split_ifs at based
          rw [parsed, Option.bind_some, isOrigin, Except.ok.inj based]
  · rw [authorizationOf] at authorized
    split at authorized
    · cases authorized
    · rename_i value spelled
      split_ifs at authorized
      rw [spelled, Except.ok.inj authorized]

end DirectoryHttpPolicy

/-! ### Requests that are sent -/

section Sending

variable {Body : Type} {http : HttpCrate} {policy : DirectoryHttpPolicy} {callTimeout elapsed : Nat}
  {request : OutgoingRequest Body} {config : OutgoingRequestConfig}
  {sent : OutgoingRequest (LimitedBody Body) × OutgoingRequestConfig}

theorem prepareRequest_ok {authorization : HeaderValue}
    (configured : policy.authorization = some authorization)
    (accepted : prepareRequest http policy callTimeout elapsed request config = .ok sent) :
    ∃ existing, policy.validateOrigin http request.uri config request.headers = .ok () ∧
      policy.validateContentLength http request.headers = .ok () ∧
      policy.validateHeaders http request.headers = .ok existing ∧
      projectedAuthorizedHeaderBytes existing authorization ≤ policy.headerLimitBytes ∧
      sent = ({ request with
          headers := request.headers.insert "authorization" authorization
          body := ⟨request.body, policy.bodyLimitBytes⟩ },
        { useTls := config.useTls
          connectTimeout := capTimeout config.connectTimeout (callTimeout - elapsed)
          firstByteTimeout := capTimeout config.firstByteTimeout (callTimeout - elapsed)
          betweenBytesTimeout := capTimeout config.betweenBytesTimeout
            (callTimeout - elapsed) }) := by
  rw [prepareRequest] at accepted
  dsimp only at accepted
  split_ifs at accepted
  obtain ⟨_, origin, accepted⟩ := exceptBind_eq_ok.mp accepted
  obtain ⟨_, length, accepted⟩ := exceptBind_eq_ok.mp accepted
  obtain ⟨existing, headers, accepted⟩ := exceptBind_eq_ok.mp accepted
  rw [configured] at accepted
  simp only at accepted
  split_ifs at accepted with fits
  exact ⟨existing, origin, length, headers, Nat.not_lt.mp fits, (Except.ok.inj accepted).symm⟩

theorem capTimeout_le (timeout cap : Nat) : capTimeout timeout cap ≤ cap := by
  rw [capTimeout]
  split_ifs with longer
  · exact le_rfl
  · exact Nat.not_lt.mp longer

theorem forall_mem_iff_tail {Value : Type} {meets : Value → Prop} {values : List Value}
    (first : ∀ value ∈ values.head?, meets value) :
    (∀ value ∈ values, meets value) ↔ ∀ value ∈ values.tail, meets value := by
  cases values with
  | nil => rfl
  | cons head rest =>
    rw [List.forall_mem_cons]
    exact ⟨fun all => all.2, fun later => ⟨first head rfl, later⟩⟩

/-- A request that is sent is in its sandbox exactly if every value of its `Host` header after the
first one is the configured authority, up to the case of ASCII letters. -/
theorem sent_requests_in_sandbox_iff {baseOrigin apiToken : String}
    (built : DirectoryHttpPolicy.forConnectorOrigin http baseOrigin apiToken = .ok policy)
    (accepted : prepareRequest http policy callTimeout elapsed request config = .ok sent) :
    ∃ origin authorization,
      (http.parseUri baseOrigin).bind DirectoryHttpPolicy.originOf = some origin ∧
      http.headerFromStr ("Bearer " ++ apiToken) = some authorization ∧
      (InSandbox http origin authorization (callTimeout - elapsed) sent ↔
        ∀ host ∈ (request.headers.getAll "host").tail,
          NamesAuthority http origin.authority host) := by
  obtain ⟨origin, authorization, parsed, spelled, rfl⟩ :=
    DirectoryHttpPolicy.forConnectorOrigin_ok built
  obtain ⟨existing, originOk, lengthOk, headersOk, fits, rfl⟩ := prepareRequest_ok rfl accepted
  obtain ⟨scheme, authority, tls, firstHost⟩ := DirectoryHttpPolicy.validateOrigin_ok rfl originOk
  obtain ⟨oneLength, lengthFits⟩ := DirectoryHttpPolicy.validateContentLength_ok lengthOk
  obtain ⟨rfl, permitted⟩ := DirectoryHttpPolicy.validateHeaders_ok headersOk
  have unauthorized : "authorization" ∉ request.headers.keys := fun member => by
    have allowed := permitted "authorization" member (by decide)
    rw [isForbiddenGuestHeader, decide_eq_false_iff_not] at allowed
    exact allowed (Or.inr (Or.inl rfl))
  have sameHosts := HeaderMap.getAll_insert_other request.headers authorization
    (by decide : "host" ≠ "authorization")
  have sameLengths := HeaderMap.getAll_insert_other request.headers authorization
    (by decide : "content-length" ≠ "authorization")
  refine ⟨origin, authorization, parsed, spelled, ?_⟩
  rw [← forall_mem_iff_tail firstHost, ← sameHosts]
  refine ⟨fun sandboxed => sandboxed.hosts, fun hosts => ?_⟩
  exact {
    scheme := scheme
    authority := authority
    tls := tls
    hosts := hosts
    authorized := HeaderMap.getAll_insert_self _ _ _
    permitted := fun name member forbidden => by
      rcases HeaderMap.mem_keys_insert member with added | given
      · exact Or.inr added
      · by_contra other
        rw [permitted name given fun isHost => other (Or.inl isHost)] at forbidden
        cases forbidden
    oneLength := by
      rw [sameLengths]
      exact oneLength
    lengthFits := by
      rw [sameLengths]
      exact lengthFits
    headersFit := by
      rw [HeaderMap.headerBytes_insert authorization unauthorized]
      exact fits
    inTime := ⟨capTimeout_le _ _, capTimeout_le _ _, capTimeout_le _ _⟩ }

end Sending

/-! ### A host that is not looked at -/

def isVisibleAscii (code : Nat) : Bool :=
  32 ≤ code ∧ code < 127 ∨ code = 9

/-- The package as far as one configuration and plain headers need it. -/
def kanidmHttp : HttpCrate where
  parseUri text :=
    if text = "https://kanidm.example.test:8443" then
      some ⟨some "https", some "kanidm.example.test:8443", some "/"⟩
    else none
  headerFromStr text :=
    if text.toList.all (isVisibleAscii ·.toNat) then some (Text.utf8 text.toList) else none
  toStr value :=
    if value.all (isVisibleAscii ·.toNat) then
      some (String.ofList (value.map fun byte => Char.ofNat byte.toNat))
    else none
  defaultForbiddenHeaders := ["connection", "keep-alive", "proxy-authenticate",
    "proxy-authorization", "proxy-connection", "transfer-encoding", "upgrade", "host",
    "http2-settings"]

def kanidmPolicy : DirectoryHttpPolicy where
  allowedOrigin := some ⟨"https", "kanidm.example.test:8443"⟩
  authorization := some (Text.utf8 "Bearer secret".toList)
  headerLimitBytes := directoryHttpHeaderLimitBytes
  bodyLimitBytes := directoryHttpBodyLimitBytes

def personRequest (hosts : List String) : OutgoingRequest Unit where
  method := "GET"
  uri := ⟨some "https", some "kanidm.example.test:8443", some "/api/person"⟩
  headers := hosts.map fun host => ("host", Text.utf8 host.toList)
  body := ()

def patientConfig : OutgoingRequestConfig := ⟨true, 600000, 600000, 600000⟩

theorem kanidmPolicy_built : DirectoryHttpPolicy.forConnectorOrigin kanidmHttp
    "https://kanidm.example.test:8443" "secret" = .ok kanidmPolicy := by
  decide

/-- With one `Host` nothing is left to look at. -/
theorem one_host_in_sandbox : ∃ sent origin authorization,
    prepareRequest kanidmHttp kanidmPolicy 2000 1900 (personRequest ["Kanidm.example.test:8443"])
      patientConfig = .ok sent ∧
    InSandbox kanidmHttp origin authorization (2000 - 1900) sent := by
  obtain ⟨sent, accepted⟩ : ∃ sent, prepareRequest kanidmHttp kanidmPolicy 2000 1900
      (personRequest ["Kanidm.example.test:8443"]) patientConfig = .ok sent := ⟨_, rfl⟩
  obtain ⟨origin, authorization, _, _, sandboxed⟩ :=
    sent_requests_in_sandbox_iff kanidmPolicy_built accepted
  have none_later : ((personRequest ["Kanidm.example.test:8443"]).headers.getAll "host").tail =
      [] := by
    decide
  refine ⟨sent, origin, authorization, accepted, sandboxed.mpr fun host later => ?_⟩
  rw [none_later] at later
  cases later

/-- The second of two `Host` values is sent whatever it is. -/
theorem second_host_is_sent : ∃ sent,
    DirectoryHttpPolicy.forConnectorOrigin kanidmHttp "https://kanidm.example.test:8443" "secret" =
      .ok kanidmPolicy ∧
    prepareRequest kanidmHttp kanidmPolicy 2000 0
      (personRequest ["kanidm.example.test:8443", "evil.example.test"]) patientConfig = .ok sent ∧
    ∀ origin authorization, (kanidmHttp.parseUri "https://kanidm.example.test:8443").bind
        DirectoryHttpPolicy.originOf = some origin →
      ¬ InSandbox kanidmHttp origin authorization 2000 sent := by
  refine ⟨_, kanidmPolicy_built, rfl, fun origin authorization parsed sandboxed => ?_⟩
  have evil := sandboxed.hosts (Text.utf8 "evil.example.test".toList) (by decide)
  obtain ⟨text, readable, same⟩ := evil
  have origin_eq : some ⟨"https", "kanidm.example.test:8443"⟩ = some origin := parsed
  have text_eq : some "evil.example.test" = some text :=
    Eq.trans (by decide) readable
  rw [← Option.some.inj origin_eq, ← Option.some.inj text_eq] at same
  revert same
  decide

end Layerhouse
