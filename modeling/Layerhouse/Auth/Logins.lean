/-
This file is the login of the dashboard: `oauth2_start` and `oauth2_callback` of
`auth/oauth2.rs`, and `logout_session` of `routes/session_api.rs`. A login leaves
the registry with a random state and the hash of a random verifier; the browser
keeps both in a cookie. It comes back with a code, which the registry exchanges for
two tokens with the verifier from the cookie.

The endpoints are those that discovery has at the time of the call. The provider's
answer to the exchange, the random bytes and the readings of the clock come from
outside; the verification of a token, with the provider's keys of that second, and
SHA-256 are the fields of `LoginService`.
-/

import Layerhouse.Auth.Sessions

namespace Layerhouse

structure LoginService where
  clientId : String
  clientSecret : String
  redirectUri : String
  loginScopes : String
  accessTokenAudience : Option String
  logoutUrl : Option String
  tokenEndpointUrl : String
  tokens : TokenService
  codec : SessionCodec
  sha256 : List UInt8 → List UInt8
  /-- The claims and groups of a token for an audience, at a second. -/
  verifyTokenClaims : Nat → (token audience : String) →
    Except LayerhouseError (TokenClaims × List String)
  /-- Only tokens in the compact form are accepted. -/
  compact : ∀ {now : Nat} {token audience : String} {result : TokenClaims × List String},
    verifyTokenClaims now token audience = .ok result →
      ∀ char ∈ token.toList, char ∈ Base64.urlSafe.symbols ∨ char = '.'

/-- What the handlers of the login read of the application. -/
structure LoginApp where
  auth : Option LoginService
  cookieSecureMode : CookieSecureMode
  serverTlsEnabled : Bool

/-- A redirection, with the cookies it sets. -/
structure Redirect where
  location : List Char
  setCookies : List HeaderValue
deriving DecidableEq

namespace LoginApp

def flags (app : LoginApp) (headers : HeaderMap) : CookieFlags :=
  cookieSecureFlag headers app.cookieSecureMode app.serverTlsEnabled

end LoginApp

/-! ### Encodings -/

def randomUrlsafe (bytes : List UInt8) : List Char :=
  Base64.urlSafe.encode bytes

def LoginService.pkceChallenge (service : LoginService) (codeVerifier : List Char) : List Char :=
  Base64.urlSafe.encode (service.sha256 (Text.utf8 codeVerifier))

/-- Unreserved characters stand for themselves, all other bytes are escaped. -/
def oauth2PercentEncode (value : List Char) : List Char :=
  (Text.utf8 value).flatMap escapeByte

def formEncode (fields : List (List Char × List Char)) : List Char :=
  "&".toList.intercalate (fields.map fun field =>
    oauth2PercentEncode field.1 ++ '=' :: oauth2PercentEncode field.2)

/-! ### The start of a login -/

/-- The parameters of an authorization request. -/
def LoginService.authorizationParams (service : LoginService) (state codeChallenge : List Char)
    (requireLogin : Bool) : List (List Char) :=
  [ "response_type=code".toList,
    "client_id=".toList ++ oauth2PercentEncode service.clientId.toList,
    "redirect_uri=".toList ++ oauth2PercentEncode service.redirectUri.toList,
    "scope=".toList ++ oauth2PercentEncode service.loginScopes.toList,
    "state=".toList ++ oauth2PercentEncode state,
    "code_challenge=".toList ++ oauth2PercentEncode codeChallenge,
    "code_challenge_method=S256".toList ] ++
  if requireLogin then ["prompt=login".toList, "max_age=0".toList] else []

def oauth2CookieError : LayerhouseError :=
  .internal "oauth2 cookie failed: failed to parse header value"

/-- The start, with the random bytes of the state and of the verifier. -/
def LoginApp.oauth2Start (app : LoginApp) (authorizationEndpoint : List Char)
    (headers : HeaderMap) (stateBytes verifierBytes : List UInt8) :
    Except LayerhouseError Redirect :=
  match app.auth with
  | none => .error (.internal "auth not configured")
  | some auth =>
    let state := randomUrlsafe stateBytes
    let codeVerifier := randomUrlsafe verifierBytes
    let codeChallenge := auth.pkceChallenge codeVerifier
    let requireLogin := (firstCookie headers "layerhouse_logged_out").isSome
    let params := auth.authorizationParams state codeChallenge requireLogin
    let authUrl := authorizationEndpoint ++ '?' :: "&".toList.intercalate params
    let flags := app.flags headers
    match HeaderValue.fromStr (oauth2Cookie flags state codeVerifier) with
    | none => .error oauth2CookieError
    | some cookie =>
      .ok
        { location := authUrl
          setCookies := cookie ::
            -- the marker of an explicit logout has done its work
            if requireLogin then [Text.utf8 (clearLoggedOutCookie flags)] else [] }

/-! ### The end of a login -/

structure CallbackQuery where
  code : Option String
  state : Option String
deriving DecidableEq

/-- The verifier of the browser that comes back with the state it left with. -/
def oauth2CodeVerifier (headers : HeaderMap) (state : Option String) : Option (List Char) :=
  (firstCookie headers "layerhouse_oauth2").bind fun cookie =>
    (Text.splitOnce '.' cookie).bind fun (storedState, codeVerifier) =>
      if some storedState = state.map String.toList then some codeVerifier else none

def oauth2ErrorResponse (location : String) (flags : CookieFlags) : Redirect where
  location := location.toList
  setCookies := [Text.utf8 (oauth2CookieClearStr flags)]

def oauth2StateErrorResponse (flags : CookieFlags) : Redirect :=
  oauth2ErrorResponse "/?oauth_error=state#/oauth2/error" flags

def oauth2SessionErrorResponse (flags : CookieFlags) : Redirect :=
  oauth2ErrorResponse "/?oauth_error=session#/oauth2/error" flags

namespace LoginService

/-- The fields of the request that exchanges a code for tokens. -/
def tokenFields (service : LoginService) (code codeVerifier : List Char) :
    List (List Char × List Char) :=
  [ ("grant_type".toList, "authorization_code".toList),
    ("code".toList, code),
    ("redirect_uri".toList, service.redirectUri.toList),
    ("client_id".toList, service.clientId.toList),
    ("client_secret".toList, service.clientSecret.toList),
    ("code_verifier".toList, codeVerifier) ]

def effectiveAccessTokenAudience (service : LoginService) : Option String :=
  (service.accessTokenAudience.map fun text => String.ofList (Text.trim text.toList)).filter
    (· ≠ "")

def verifyIdToken (service : LoginService) (now : Nat) (idToken : String) :
    Except LayerhouseError (TokenClaims × List String) :=
  service.verifyTokenClaims now idToken service.clientId

def verifyAccessToken (service : LoginService) (now : Nat) (accessToken : String) :
    Except LayerhouseError (TokenClaims × List String) :=
  service.verifyTokenClaims now accessToken
    (service.effectiveAccessTokenAudience.getD service.clientId)

end LoginService

/-- The readings of the clock in a callback: one in the verification of each token, and one for
the session. -/
structure CallbackClock where
  idToken : Nat
  accessToken : Nat
  session : Nat

/-- What the provider's answer holds once both tokens are verified. -/
structure VerifiedLogin where
  idToken : String
  idClaims : TokenClaims
  idGroups : List String
  accessClaims : TokenClaims
  accessGroups : List String
  expiresIn : Nat
deriving DecidableEq

namespace LoginService

def verifyLogin (service : LoginService) (clock : CallbackClock) (token : Value) :
    Except LayerhouseError VerifiedLogin :=
  match (token.get "access_token").bind Value.asStr with
  | none => .error (.internal "missing access_token")
  | some accessToken =>
    match (token.get "id_token").bind Value.asStr with
    | none => .error (.internal "missing id_token")
    | some idToken =>
      match service.verifyIdToken clock.idToken idToken with
      | .error error => .error error
      | .ok (idClaims, idGroups) =>
        match service.verifyAccessToken clock.accessToken accessToken with
        | .error error => .error error
        | .ok (accessClaims, accessGroups) =>
          if idClaims.subject ≠ accessClaims.subject then
            .error (unauthorized "token subject mismatch")
          else
            .ok
              { idToken := idToken
                idClaims := idClaims
                idGroups := idGroups
                accessClaims := accessClaims
                accessGroups := accessGroups
                expiresIn := ((token.get "expires_in").bind Value.asU64).getD 3600 }

end LoginService

namespace VerifiedLogin

/-- The groups of the access token, and those of the id token that are not among them. -/
def allGroups (login : VerifiedLogin) : List String :=
  login.idGroups.foldl (fun groups group => if group ∈ groups then groups else groups ++ [group])
    login.accessGroups

/-- The seconds the session lasts; the sum of 64 bits wraps. -/
def sessionMaxAge (login : VerifiedLogin) (now : Nat) : Nat :=
  min (min (min ((now + login.expiresIn) % 2 ^ 64) login.idClaims.exp) login.accessClaims.exp)
    (now + 3600) - now

/-- The session of a login, for the principal of its subject. -/
def session (login : VerifiedLogin) (service : LoginService) (now : Nat)
    (principal : ProviderQualifiedId) : DashboardSession where
  subject := login.idClaims.subject
  principal := principal.text
  username := login.idClaims.username
  displayName := login.idClaims.displayName
  email := login.idClaims.trimmedEmail
  groups := login.allGroups
  groupIds :=
    (stableGroupIds service.tokens.isUuid service.tokens.providerName login.allGroups).map (·.text)
  expiresAt := now + login.sessionMaxAge now

def observedIdentity (login : VerifiedLogin) (service : LoginService) (now : Nat)
    (principal : ProviderQualifiedId) : ObservedIdentity where
  subject := login.idClaims.subject
  principal := principal
  username := login.idClaims.username
  displayName := login.idClaims.displayName
  email := login.idClaims.trimmedEmail
  groups := login.allGroups
  groupIds := stableGroupIds service.tokens.isUuid service.tokens.providerName login.allGroups
  lastSeenAt := now

end VerifiedLogin

def headerError (cookie : String) : LayerhouseError :=
  .internal (cookie ++ " cookie failed: failed to parse header value")

/-- The answer that hands a session to the browser. -/
def sessionResponse (flags : CookieFlags) (encrypted idToken : List Char) (maxAge : Nat) :
    Except LayerhouseError Redirect :=
  let session := sessionCookie flags encrypted maxAge
  let hint := logoutHintCookie flags idToken maxAge
  if 4096 < (Text.utf8 session).length then .ok (oauth2SessionErrorResponse flags)
  else
    match HeaderValue.fromStr session with
    | none => .error (headerError "session")
    | some session =>
      let clear := Text.utf8 (oauth2CookieClearStr flags)
      if (Text.utf8 hint).length ≤ 4096 then
        match HeaderValue.fromStr hint with
        | none => .error (headerError "logout hint")
        | some hint => .ok ⟨"/".toList, [session, hint, clear]⟩
      else .ok ⟨"/".toList, [session, clear]⟩

/-- The end of a callback, after the tokens were verified. The identity is written to the store
before the session is encrypted, and a failure of the write is only logged. -/
def LoginService.completeLogin (service : LoginService) (flags : CookieFlags) (now : Nat)
    (nonce : Nonce) (login : VerifiedLogin) :
    Option ObservedIdentity × Except LayerhouseError Redirect :=
  if login.sessionMaxAge now = 0 then (none, .ok (oauth2SessionErrorResponse flags))
  else
    match service.tokens.userPrincipal login.idClaims.subject with
    | .error error => (none, .error error)
    | .ok principal =>
      (some (login.observedIdentity service now principal),
        match (login.session service now principal).encrypt service.codec nonce with
        | .error error => .error error
        | .ok encrypted =>
          sessionResponse flags encrypted login.idToken.toList (login.sessionMaxAge now))

/-- The callback; `reply` is what comes of posting the fields to the provider. -/
def LoginApp.oauth2Callback (app : LoginApp) (headers : HeaderMap) (query : CallbackQuery)
    (reply : List (List Char × List Char) → Except LayerhouseError Value) (clock : CallbackClock)
    (nonce : Nonce) : Option ObservedIdentity × Except LayerhouseError Redirect :=
  match query.code.filter (· ≠ "") with
  | none => (none, .ok ⟨"/oauth2/start".toList, []⟩)
  | some code =>
    let flags := app.flags headers
    match oauth2CodeVerifier headers query.state with
    | none => (none, .ok (oauth2StateErrorResponse flags))
    | some codeVerifier =>
      match app.auth with
      | none => (none, .error (.internal "auth not configured"))
      | some auth =>
        match reply (auth.tokenFields code.toList codeVerifier) with
        | .error error => (none, .error error)
        | .ok token =>
          match auth.verifyLogin clock token with
          | .error error => (none, .error error)
          | .ok login => auth.completeLogin flags clock.session nonce login

/-! ### The end of a session -/

def LoginApp.logoutSession (app : LoginApp) (endSessionEndpoint : Option (List Char))
    (headers : HeaderMap) : Redirect :=
  let logoutHint := firstCookie headers "layerhouse_logout_hint"
  let endSessionUrl :=
    match app.auth, logoutHint with
    | some _, some idToken => endSessionEndpoint.map fun url =>
      url ++ "?id_token_hint=".toList ++ idToken ++ "&post_logout_redirect_uri=/".toList
    | _, _ => none
  let configuredLogoutUrl :=
    if endSessionUrl.isNone then app.auth.bind fun auth => auth.logoutUrl.map String.toList
    else none
  let flags := app.flags headers
  let hadIdpLogout := endSessionUrl.isSome ∨ configuredLogoutUrl.isSome
  { location := (endSessionUrl.or configuredLogoutUrl).getD "/".toList
    setCookies :=
      [Text.utf8 (clearSessionCookieStr flags), Text.utf8 (clearLogoutHintCookie flags)] ++
      -- the marker keeps the dashboard from starting the next login by itself
      if hadIdpLogout then [] else [Text.utf8 (loggedOutCookie flags)] }

end Layerhouse
