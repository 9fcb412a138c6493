/-
This file says once which cookies the registry sets, for every answer it gives to a
browser: the start of a login hands out the state and the verifier, a callback that
issues a session hands out the session and the hint for the logout, the logout sets
its marker, and everything else only takes cookies away.

What a callback has to have gone through before it issues a session is one
structure, `Issues`; the results about logins are read off it.
-/

import Layerhouse.Auth.Middleware

namespace Layerhouse

/-! ### Calls -/

inductive LoginCall where
  | start
  | callback (query : CallbackQuery)
  | logout
  | visit (method : Method) (path : String) (query : Option String)
deriving DecidableEq

def LoginCall.path : LoginCall → String
  | start => "/oauth2/start"
  | callback _ => "/oauth2/callback"
  | logout => "/api/v1/session/logout"
  | visit _ path _ => path

/-- A request of a browser, or of somebody else. -/
structure LoginRequest (Browser : Type) where
  sender : Option Browser
  call : LoginCall
  headers : HeaderMap

/-- What the registry is given to answer one request. -/
structure LoginTurn where
  authorizationEndpoint : List Char
  endSessionEndpoint : Option (List Char)
  stateBytes : List UInt8
  verifierBytes : List UInt8
  reply : List (List Char × List Char) → Except LayerhouseError Value
  clock : CallbackClock
  nonce : Nonce
  reads : MiddlewareReads

def LoginTurn.state (turn : LoginTurn) : List Char :=
  randomUrlsafe turn.stateBytes

def LoginTurn.codeVerifier (turn : LoginTurn) : List Char :=
  randomUrlsafe turn.verifierBytes

def setCookiesOf : Except LayerhouseError Redirect → List HeaderValue
  | .error _ => []
  | .ok redirect => redirect.setCookies

def MiddlewareAnswer.setCookies : MiddlewareAnswer → List HeaderValue
  | .next _ _ => []
  | .redirect answer => answer.setCookies
  | .error _ setCookies => setCookies

variable {Browser : Type}

def LoginRequest.visited (request : LoginRequest Browser) (method : Method) (path : String)
    (query : Option String) : HttpRequest where
  method := method
  path := path
  query := query
  headers := request.headers

/-- The cookies that the answer to a request sets. -/
def LoginApp.answer (app : LoginApp) (turn : LoginTurn) (request : LoginRequest Browser) :
    List HeaderValue :=
  match request.call with
  | .start =>
    setCookiesOf (app.oauth2Start turn.authorizationEndpoint request.headers turn.stateBytes
      turn.verifierBytes)
  | .callback query =>
    setCookiesOf (app.oauth2Callback request.headers query turn.reply turn.clock turn.nonce).2
  | .logout => (app.logoutSession turn.endSessionEndpoint request.headers).setCookies
  | .visit method path query =>
    (app.authMiddleware turn.reads (request.visited method path query)).setCookies

/-! ### Issued sessions -/

/-- What a callback that issues a session has come by. -/
structure IssuedLogin where
  query : CallbackQuery
  code : String
  codeVerifier : List Char
  token : Value
  login : VerifiedLogin
  principal : ProviderQualifiedId
  session : DashboardSession
  encrypted : List Char

/-- The session of a callback is issued: every check on the way was passed. -/
structure Issues (service : LoginService) (turn : LoginTurn) (request : LoginRequest Browser)
    (issued : IssuedLogin) : Prop where
  call : request.call = .callback issued.query
  code : issued.query.code = some issued.code
  verifier : oauth2CodeVerifier request.headers issued.query.state = some issued.codeVerifier
  exchanged : turn.reply (service.tokenFields issued.code.toList issued.codeVerifier) =
    .ok issued.token
  verified : service.verifyLogin turn.clock issued.token = .ok issued.login
  lasting : issued.login.sessionMaxAge turn.clock.session ≠ 0
  principal : service.tokens.userPrincipal issued.login.idClaims.subject = .ok issued.principal
  session : issued.session = issued.login.session service turn.clock.session issued.principal
  encrypted : issued.session.encrypt service.codec turn.nonce = .ok issued.encrypted

/-! ### The cookies of the answers -/

structure SetCookie where
  name : String
  value : List Char
  path : String
  maxAge : Nat

def SetCookie.line (flags : CookieFlags) (cookie : SetCookie) : HeaderValue :=
  Text.utf8 (setCookieLine flags cookie.name cookie.value cookie.path cookie.maxAge)

/-- The cookies that the answer to a request may set. -/
inductive Sets (service : LoginService) (turn : LoginTurn) (request : LoginRequest Browser) :
    SetCookie → Prop
  | clear {name path : String} (cleared : (name, path) ∈ [("layerhouse_session", "/"),
      ("layerhouse_oauth2", "/oauth2"), ("layerhouse_logout_hint", "/api/v1/session/logout"),
      ("layerhouse_logged_out", "/")]) : Sets service turn request ⟨name, [], path, 0⟩
  | loggedOut : Sets service turn request ⟨"layerhouse_logged_out", "1".toList, "/", 300⟩
  | started (called : request.call = .start) : Sets service turn request
      ⟨"layerhouse_oauth2", turn.state ++ '.' :: turn.codeVerifier, "/oauth2", 600⟩
  | session {issued : IssuedLogin} (issues : Issues service turn request issued) :
      Sets service turn request ⟨"layerhouse_session", issued.encrypted, "/",
        issued.login.sessionMaxAge turn.clock.session⟩
  | hint {issued : IssuedLogin} (issues : Issues service turn request issued) :
      Sets service turn request ⟨"layerhouse_logout_hint", issued.login.idToken.toList,
        "/api/v1/session/logout", issued.login.sessionMaxAge turn.clock.session⟩

section

variable {app : LoginApp} {service : LoginService} {turn : LoginTurn}
  {request : LoginRequest Browser} {value : HeaderValue}

/-- The value is the line of a cookie that the answer may set. -/
def Accounted (service : LoginService) (turn : LoginTurn) (request : LoginRequest Browser)
    (flags : CookieFlags) (value : HeaderValue) : Prop :=
  ∃ cookie, Sets service turn request cookie ∧ value = cookie.line flags

theorem accounted_clear (flags : CookieFlags) {name path : String}
    (cleared : (name, path) ∈ [("layerhouse_session", "/"), ("layerhouse_oauth2", "/oauth2"),
      ("layerhouse_logout_hint", "/api/v1/session/logout"), ("layerhouse_logged_out", "/")]) :
    Accounted service turn request flags (Text.utf8 (setCookieLine flags name [] path 0)) :=
  ⟨_, .clear cleared, rfl⟩

theorem fromStr_eq_some {text : List Char} (encoded : HeaderValue.fromStr text = some value) :
    value = Text.utf8 text :=
  ((Option.ite_none_right_eq_some.mp encoded).2 ▸ rfl : some value = some _) |> Option.some.inj

theorem oauth2Start_accounted (configured : app.auth = some service)
    (called : request.call = .start)
    (member : value ∈ setCookiesOf (app.oauth2Start turn.authorizationEndpoint request.headers
      turn.stateBytes turn.verifierBytes)) :
    Accounted service turn request (app.flags request.headers) value := by
  simp only [LoginApp.oauth2Start, configured] at member
  cases encoded : HeaderValue.fromStr (oauth2Cookie (app.flags request.headers)
      (randomUrlsafe turn.stateBytes) (randomUrlsafe turn.verifierBytes)) with
  | none =>
    rw [encoded] at member
    cases member
  | some cookie =>
    rw [encoded] at member
    rcases List.mem_cons.mp member with rfl | cleared
    · exact ⟨_, .started called, fromStr_eq_some encoded⟩
    · split at cleared
      · rw [List.mem_singleton.mp cleared]
        exact accounted_clear _ (by decide)
      · cases cleared

theorem sessionResponse_accounted {flags : CookieFlags} {issued : IssuedLogin}
    (issues : Issues service turn request issued)
    (member : value ∈ setCookiesOf (sessionResponse flags issued.encrypted
      issued.login.idToken.toList (issued.login.sessionMaxAge turn.clock.session))) :
    Accounted service turn request flags value := by
  unfold sessionResponse at member
  dsimp only at member
  split at member
  · rw [List.mem_singleton.mp member]
    exact accounted_clear flags (by decide)
  · split at member
    · cases member
    · rename_i session encodedSession
      have isSession : Accounted service turn request flags session :=
        ⟨_, .session issues, fromStr_eq_some encodedSession⟩
      have isClear : Accounted service turn request flags
          (Text.utf8 (oauth2CookieClearStr flags)) := accounted_clear flags (by decide)
      split at member
      · split at member
        · cases member
        · rename_i hint encodedHint
          rcases List.mem_cons.mp member with rfl | member
          · exact isSession
          · rcases List.mem_cons.mp member with rfl | member
            · exact ⟨_, .hint issues, fromStr_eq_some encodedHint⟩
            · rwa [List.mem_singleton.mp member]
      · rcases List.mem_cons.mp member with rfl | member
        · exact isSession
        · rwa [List.mem_singleton.mp member]

theorem oauth2Callback_accounted (configured : app.auth = some service) {query : CallbackQuery}
    (called : request.call = .callback query)
    (member : value ∈ setCookiesOf
      (app.oauth2Callback request.headers query turn.reply turn.clock turn.nonce).2) :
    Accounted service turn request (app.flags request.headers) value := by
  unfold LoginApp.oauth2Callback at member
  split at member
  · cases member
  · rename_i code sent
    dsimp only at member
    split at member
    · rw [List.mem_singleton.mp member]
      exact accounted_clear _ (by decide)
    · rename_i codeVerifier verifier
      rw [configured] at member
      dsimp only at member
      split at member
      · cases member
      · rename_i token exchanged
        split at member
        · cases member
        · rename_i login verified
          unfold LoginService.completeLogin at member
          split at member
          · rw [List.mem_singleton.mp member]
            exact accounted_clear _ (by decide)
          · rename_i lasting
            split at member
            · cases member
            · rename_i principal named
              dsimp only at member
              split at member
              · cases member
              · rename_i encrypted sealed
                have issues : Issues service turn request
                    { query := query
                      code := code
                      codeVerifier := codeVerifier
                      token := token
                      login := login
                      principal := principal
                      session := login.session service turn.clock.session principal
                      encrypted := encrypted } :=
                  { call := called
                    code := (Option.filter_eq_some_iff.mp sent).1
                    verifier := verifier
                    exchanged := exchanged
                    verified := verified
                    lasting := lasting
                    principal := named
                    session := rfl
                    encrypted := sealed }
                exact sessionResponse_accounted issues member

theorem logoutSession_accounted (endSessionEndpoint : Option (List Char))
    (member : value ∈ (app.logoutSession endSessionEndpoint request.headers).setCookies) :
    Accounted service turn request (app.flags request.headers) value := by
  rw [LoginApp.logoutSession] at member
  dsimp only at member
  rcases List.mem_append.mp member with cleared | marker
  · rcases List.mem_cons.mp cleared with rfl | cleared
    · exact accounted_clear _ (by decide)
    · rw [List.mem_singleton.mp cleared]
      exact accounted_clear _ (by decide)
  · rw [List.mem_singleton.mp (List.mem_ite_nil_left.mp marker).2]
    exact ⟨_, .loggedOut, rfl⟩

/-- The middleware sets no cookie but the one that takes the session away. -/
theorem authMiddleware_setCookies {reads : MiddlewareReads} {visited : HttpRequest}
    (member : value ∈ (app.authMiddleware reads visited).setCookies) :
    value = Text.utf8 (clearSessionCookieStr (app.flags visited.headers)) := by
  unfold LoginApp.authMiddleware at member
  split at member
  · cases member
  split at member
  · cases member
  split at member
  · cases member
  split at member
  · cases member
  rename_i auth _
  dsimp only at member
  generalize (if startsWith visited.path "/v2/" = true then
    some (resolveOciAction reads.resolved visited.path visited.method) else none) = ociAction
    at member
  split at member
  · cases member
  split at member
  · split at member
    · cases member
    · unfold LoginService.authRequiredResponse at member
      split at member
      · cases member
      · split at member
        · cases member
        · cases member
  · split at member
    · unfold LoginService.authorizeIdentity at member
      dsimp only at member
      split at member
      · cases member
      · split at member
        · split at member
          · cases member
          · cases member
        · cases member
    · split at member
      · unfold sessionCookieAuthErrorResponse at member
        dsimp only at member
        split at member
        · exact List.mem_singleton.mp member
        · exact List.mem_singleton.mp member
      · cases member

/-- Every cookie that an answer sets is accounted for. -/
theorem answer_accounted (configured : app.auth = some service)
    (member : value ∈ app.answer turn request) :
    Accounted service turn request (app.flags request.headers) value := by
  unfold LoginApp.answer at member
  split at member
  · rename_i called
    exact oauth2Start_accounted configured called member
  · rename_i query called
    exact oauth2Callback_accounted configured called member
  · exact logoutSession_accounted turn.endSessionEndpoint member
  · rename_i method path query called
    have cleared := authMiddleware_setCookies member
    rw [cleared]
    exact accounted_clear _ (by decide)

end

end Layerhouse
