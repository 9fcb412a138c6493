/-
This file is `auth_middleware` of `auth/middleware.rs`: what becomes of a request
before a handler sees it. A request is passed on, with the identity and the access
it was found to have or without any, or it is answered on the spot.

The store is read several times while a request is looked at, and may change in
between; `MiddlewareReads` holds what each of the looks sees.
-/

import Layerhouse.Auth.Logins
import Layerhouse.Routes.Pushes
import Layerhouse.Routes.ScopedNamespaces

namespace Layerhouse

structure HttpRequest where
  method : Method
  path : String
  query : Option String
  headers : HeaderMap

structure MiddlewareReads where
  now : Nat
  resolved : StateMachineData
  publicPull : StateMachineData
  validated : StateMachineData
  permitted : StateMachineData

inductive MiddlewareAnswer where
  /-- The handler is called, with the extensions of the request. -/
  | next (identity : Option AuthIdentity) (access : Option AuthorizedRepositoryAccess)
  | redirect (redirect : Redirect)
  | error (error : LayerhouseError) (setCookies : List HeaderValue)
deriving DecidableEq

/-! ### Paths -/

def startsWith (path lead : String) : Bool :=
  lead.toList.isPrefixOf path.toList

def isPublicPath (path : String) : Bool :=
  path = "/healthz" || path = "/readyz" || path = "/metrics" || path = "/v2/" ||
    path = "/v2/token" || path = "/favicon.svg" || path = "/api/v1/session/logout" ||
    startsWith path "/assets/" || startsWith path "/brand/" || startsWith path "/oauth2/"

def isDashboardRequestPath (path : String) : Bool :=
  !startsWith path "/api/" && !startsWith path "/v2/" && !startsWith path "/raft/"

/-! ### Credentials -/

def extractBearerToken (headers : HeaderMap) : Option (List Char) :=
  ((headers.get "authorization").bind HeaderValue.toStr).bind
    (Text.stripPrefix "Bearer ".toList)

inductive RequestCredential where
  | bearer (token : List Char)
  | sessionCookies (cookieValues : List (List Char))
deriving DecidableEq

def extractCredential (headers : HeaderMap) : Option RequestCredential :=
  match extractBearerToken headers with
  | some token => some (.bearer token)
  | none =>
    match extractCookies headers "layerhouse_session" with
    | [] => none
    | cookieValues => some (.sessionCookies cookieValues)

def hasOauthErrorQuery (request : HttpRequest) : Bool :=
  request.query.any fun query => (Slices.find "oauth_error=".toList query.toList).isSome

def hasLoggedOutMarker (request : HttpRequest) : Bool :=
  ((request.headers.get "cookie").bind HeaderValue.toStr).any fun cookie =>
    (Slices.find "layerhouse_logged_out=1".toList cookie).isSome

namespace LoginService

def authenticateRequest (service : LoginService) (now : Nat) (data : StateMachineData) :
    RequestCredential → Except LayerhouseError AuthIdentity
  | .bearer token => service.tokens.validateToken now data (String.ofList token)
  | .sessionCookies cookieValues =>
    authenticateSessionCookies service.codec now cookieValues "invalid session"

def checkPublicPull (data : StateMachineData) (repository : String) : Except LayerhouseError Unit :=
  match handleOf repository with
  | .error error => .error error
  | .ok _ =>
    if isPublicPull data repository then .ok ()
    else .error (.denied ("repository " ++ Text.debugStr repository ++ " is not public"))

def checkAdminAccess (service : LoginService) (data : StateMachineData) (identity : AuthIdentity) :
    Except LayerhouseError Unit :=
  (checkPermission service.tokens.auth data identity "*" .admin).map fun _ => ()

/-! ### Answers -/

/-- The challenge to a request without a credential. -/
def authRequiredResponse (service : LoginService) (request : HttpRequest)
    (ociAction : Option OciAction) : MiddlewareAnswer :=
  if isDashboardRequestPath request.path then .redirect ⟨"/oauth2/start".toList, []⟩
  else if !startsWith request.path "/v2/" then
    .error (unauthorized "authentication required") []
  else
    let repository := extractRepositoryFromPath request.path
    let host := (((request.headers.get "host").bind HeaderValue.toStr).map String.ofList).getD
      "registry"
    let scopeAction := (ociAction.getD .pull).scopeToken
    let scope := if repository = "" then none
      else some ("repository:" ++ repository ++ ":" ++ scopeAction)
    .error (.unauthorized "authentication required" (some service.tokenEndpointUrl) (some host)
      scope) []

end LoginService

/-- A session that is not accepted is taken out of the browser. -/
def sessionCookieAuthErrorResponse (request : HttpRequest) (error : LayerhouseError)
    (flags : CookieFlags) : MiddlewareAnswer :=
  let setCookies := [Text.utf8 (clearSessionCookieStr flags)]
  if isDashboardRequestPath request.path then .redirect ⟨"/oauth2/start".toList, setCookies⟩
  else .error error setCookies

/-! ### The middleware -/

namespace LoginService

/-- The end of the middleware, for an authenticated request. -/
def authorizeIdentity (service : LoginService) (reads : MiddlewareReads) (request : HttpRequest)
    (ociAction : Option OciAction) (identity : AuthIdentity) : MiddlewareAnswer :=
  let access : Except LayerhouseError (Option AuthorizedRepositoryAccess) :=
    if startsWith request.path "/v2/" then
      (checkPermission service.tokens.auth reads.permitted identity
        (extractRepositoryFromPath request.path) (ociAction.getD .pull)).map some
    else .ok none
  match access with
  | .error error => .error error []
  | .ok access =>
    if startsWith request.path "/api/v1/admin/" && !isNamespaceSelfService request.path then
      match service.checkAdminAccess reads.permitted identity with
      | .error error => .error error []
      | .ok _ => .next (some identity) access
    else .next (some identity) access

/-- An anonymous read of a public repository. -/
def passesPublicPull (reads : MiddlewareReads) (request : HttpRequest)
    (ociAction : Option OciAction) (credential : Option RequestCredential) : Bool :=
  credential.isNone && startsWith request.path "/v2/" && ociAction = some .pull &&
    (request.method = .get || request.method = .head) &&
    (extractRepositoryFromPath request.path ≠ "" &&
      (checkPublicPull reads.publicPull (extractRepositoryFromPath request.path)).isOk)

end LoginService

def LoginApp.authMiddleware (app : LoginApp) (reads : MiddlewareReads) (request : HttpRequest) :
    MiddlewareAnswer :=
  if isPublicPath request.path then .next none none
  else if hasOauthErrorQuery request && isDashboardRequestPath request.path then .next none none
  else if hasLoggedOutMarker request && isDashboardRequestPath request.path then .next none none
  else
    match app.auth with
    | none => .next none none
    | some auth =>
      let ociAction := if startsWith request.path "/v2/" then
        some (resolveOciAction reads.resolved request.path request.method) else none
      let credential := extractCredential request.headers
      if LoginService.passesPublicPull reads request ociAction credential then .next none none
      else
        match credential with
        | none =>
          -- the session endpoint tells a browser that nobody is signed in
          if request.path = "/api/v1/session" then .next none none
          else auth.authRequiredResponse request ociAction
        | some credential =>
          match auth.authenticateRequest reads.now reads.validated credential with
          | .ok identity => auth.authorizeIdentity reads request ociAction identity
          | .error error =>
            match credential with
            | .sessionCookies _ =>
              sessionCookieAuthErrorResponse request error (app.flags request.headers)
            | .bearer _ => .error error []

/-! ### What is passed on -/

/-- A request that is passed on with an identity brought a credential for it, and the identity is
permitted what the path is about. -/
structure Authenticated (service : LoginService) (reads : MiddlewareReads) (request : HttpRequest)
    (identity : AuthIdentity) (access : Option AuthorizedRepositoryAccess) : Prop where
  credential : ∃ credential, extractCredential request.headers = some credential ∧
    service.authenticateRequest reads.now reads.validated credential = .ok identity
  registry : startsWith request.path "/v2/" = true →
    ∃ allowed, access = some allowed ∧
      checkPermission service.tokens.auth reads.permitted identity
        (extractRepositoryFromPath request.path)
        (resolveOciAction reads.resolved request.path request.method) = .ok allowed
  admin : startsWith request.path "/api/v1/admin/" = true →
    isNamespaceSelfService request.path = false →
      service.checkAdminAccess reads.permitted identity = .ok ()

variable {app : LoginApp} {service : LoginService} {reads : MiddlewareReads}
  {request : HttpRequest} {identity : AuthIdentity} {access : Option AuthorizedRepositoryAccess}

/-- What the end of the middleware passes on. -/
theorem authorizeIdentity_next {ociAction : Option OciAction} {other : AuthIdentity}
    (passed : service.authorizeIdentity reads request ociAction other =
      .next (some identity) access) :
    other = identity ∧
      (startsWith request.path "/v2/" = true → ∃ allowed, access = some allowed ∧
        checkPermission service.tokens.auth reads.permitted identity
          (extractRepositoryFromPath request.path) (ociAction.getD .pull) = .ok allowed) ∧
      (startsWith request.path "/api/v1/admin/" = true →
        isNamespaceSelfService request.path = false →
          service.checkAdminAccess reads.permitted identity = .ok ()) := by
  unfold LoginService.authorizeIdentity at passed
  dsimp only at passed
  split at passed
  · cases passed
  rename_i found permission
  have registry : startsWith request.path "/v2/" = true → ∃ allowed, found = some allowed ∧
      checkPermission service.tokens.auth reads.permitted other
        (extractRepositoryFromPath request.path) (ociAction.getD .pull) = .ok allowed := by
    intro isRegistry
    rw [if_pos isRegistry] at permission
    obtain ⟨allowed, permitted, rfl⟩ := exceptMap_eq_ok.mp permission
    exact ⟨allowed, rfl, permitted⟩
  split at passed
  · split at passed
    · cases passed
    · rename_i permitted
      cases passed
      exact ⟨rfl, registry, fun _ _ => permitted⟩
  · rename_i unguarded
    cases passed
    refine ⟨rfl, registry, fun admin guarded => ?_⟩
    rw [admin, guarded] at unguarded
    exact absurd rfl unguarded

theorem authMiddleware_identity (configured : app.auth = some service)
    (passed : app.authMiddleware reads request = .next (some identity) access) :
    Authenticated service reads request identity access := by
  unfold LoginApp.authMiddleware at passed
  split at passed
  · cases passed
  split at passed
  · cases passed
  split at passed
  · cases passed
  rw [configured] at passed
  dsimp only at passed
  generalize named : (if startsWith request.path "/v2/" = true then
    some (resolveOciAction reads.resolved request.path request.method) else none) = ociAction
    at passed
  split at passed
  · cases passed
  split at passed
  · split at passed
    · cases passed
    · unfold LoginService.authRequiredResponse at passed
      split at passed
      · cases passed
      · split at passed
        · cases passed
        · cases passed
  · rename_i credential brought
    split at passed
    · rename_i other validated
      obtain ⟨rfl, registry, admin⟩ := authorizeIdentity_next passed
      refine ⟨⟨credential, brought, validated⟩, fun isRegistry => ?_, admin⟩
      obtain ⟨allowed, same, permitted⟩ := registry isRegistry
      rw [← named, if_pos isRegistry] at permitted
      exact ⟨allowed, same, permitted⟩
    · split at passed
      · unfold sessionCookieAuthErrorResponse at passed
        dsimp only at passed
        split at passed
        · cases passed
        · cases passed
      · cases passed

/-- A request without a bearer is authenticated by its session cookies. -/
theorem Authenticated.bySession
    (authenticated : Authenticated service reads request identity access)
    (bearerless : extractBearerToken request.headers = none) :
    authenticateSessionCookies service.codec reads.now
      (extractCookies request.headers "layerhouse_session") "invalid session" = .ok identity := by
  obtain ⟨credential, brought, validated⟩ := authenticated.credential
  unfold extractCredential at brought
  rw [bearerless] at brought
  dsimp only at brought
  split at brought
  · cases brought
  · obtain rfl := Option.some.inj brought
    exact validated

end Layerhouse
