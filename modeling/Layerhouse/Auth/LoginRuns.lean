/-
This file is the login as a system: browsers with their jars, requests and answers
in flight, the registry, and the identity provider with the codes it has given out.
Requests and answers arrive in any order, anybody may send the registry any request,
and a browser may be led to any page, also to the callback with a code of somebody
else.

Two things are asked of the outside. The provider exchanges a code only for a
verifier whose hash is the challenge the code was authorized with, and no two logins
draw verifiers of one challenge. `served` is a history of what was answered; nothing
reads it.

The invariant follows the cookies. A verifier in the hands of a browser was handed
to this browser, and a session in its hands was issued to it. So a session belongs
to a login that its own browser began.
-/

import Layerhouse.Auth.LoginAnswers
import Layerhouse.Auth.TokenChains
import Layerhouse.Library.Runs

namespace Layerhouse

/-! ### The system -/

/-- What the provider remembers of a code. -/
structure Authorization where
  code : String
  codeChallenge : List Char
  idToken : String
deriving DecidableEq

structure LoginAnswer (Browser : Type) where
  browser : Browser
  call : LoginCall
  setCookies : List HeaderValue

structure LoginState (Browser : Type) where
  now : Nat
  jar : Browser → Cookies.Jar
  requests : List (LoginRequest Browser)
  answers : List (LoginAnswer Browser)
  authorizations : List Authorization
  served : List (LoginRequest Browser × LoginTurn)

inductive LoginLabel (Browser : Type) where
  | pass (seconds : Nat)
  /-- A browser asks for a page, with its cookies and other headers. -/
  | send (browser : Browser) (https : Bool) (call : LoginCall) (others : HeaderMap)
  /-- Somebody sends a request of his own making. -/
  | inject (call : LoginCall) (headers : HeaderMap)
  | authorize (authorization : Authorization)
  | serve (index : Nat) (turn : LoginTurn)
  | deliver (index : Nat)

/-- The headers of a browser's request: one cookie header, unless it has no cookie to send. -/
def browserHeaders (cookies : List Cookies.Cookie) (others : HeaderMap) : HeaderMap :=
  (if cookies = [] then [] else [("cookie", Text.utf8 (Cookies.header cookies))]) ++
    others.filter (·.1 ≠ "cookie")

/-- The path that cookies without one of their own belong to. -/
def defaultCookiePath (path : String) : List Char :=
  ((Text.rsplitOnce ['/'] path.toList).map (·.1)).filter (· ≠ []) |>.getD ['/']

namespace LoginState

variable {Browser : Type} [DecidableEq Browser]

def initial : LoginState Browser where
  now := 0
  jar := fun _ => []
  requests := []
  answers := []
  authorizations := []
  served := []

/-- A browser's request, as it is sent. -/
def requestOf (state : LoginState Browser) (browser : Browser) (https : Bool) (call : LoginCall)
    (others : HeaderMap) : LoginRequest Browser where
  sender := some browser
  call := call
  headers := browserHeaders
    ((state.jar browser).sent state.now https call.path.toList) others

/-- The answer to a request, for the browser that sent it. -/
def answerTo (app : LoginApp) (request : LoginRequest Browser) (turn : LoginTurn) :
    List (LoginAnswer Browser) :=
  match request.sender with
  | none => []
  | some browser => [⟨browser, request.call, app.answer turn request⟩]

/-- The jars when a browser has received an answer. -/
def received (state : LoginState Browser) (answer : LoginAnswer Browser) :
    Browser → Cookies.Jar :=
  Function.update state.jar answer.browser
    ((state.jar answer.browser).receive state.now (defaultCookiePath answer.call.path)
      (answer.setCookies.filterMap HeaderValue.toStr))

/-- The clock is read in the order of the checks, and for the last time in the step. -/
def TimelyTurn (now : Nat) (turn : LoginTurn) : Prop :=
  turn.clock.idToken ≤ turn.clock.accessToken ∧ turn.clock.accessToken ≤ turn.clock.session ∧
    turn.clock.session = now ∧ turn.reads.now = now

instance (now : Nat) (turn : LoginTurn) : Decidable (TimelyTurn now turn) :=
  inferInstanceAs (Decidable (_ ∧ _))

def step (app : LoginApp) (state : LoginState Browser) :
    LoginLabel Browser → Option (LoginState Browser)
  | .pass seconds => some { state with now := state.now + seconds }
  | .send browser https call others =>
    some { state with requests := state.requests ++ [state.requestOf browser https call others] }
  | .inject call headers =>
    some { state with requests := state.requests ++ [⟨none, call, headers⟩] }
  | .authorize authorization =>
    some { state with authorizations := state.authorizations ++ [authorization] }
  | .serve index turn =>
    (state.requests[index]?).bind fun request =>
      if TimelyTurn state.now turn then
        some
          { state with
            requests := state.requests.eraseIdx index
            answers := state.answers ++ answerTo app request turn
            served := state.served ++ [(request, turn)] }
      else none
  | .deliver index =>
    (state.answers[index]?).map fun answer =>
      { state with
        jar := state.received answer
        answers := state.answers.eraseIdx index }

/-! ### What is asked of the outside -/

/-- The provider exchanges a code only for the verifier of the challenge it was authorized
with. -/
def PkceKept (service : LoginService) (state : LoginState Browser) : LoginLabel Browser → Prop
  | .serve _ turn => ∀ code codeVerifier token idToken,
    turn.reply (service.tokenFields code codeVerifier) = .ok token →
      (token.get "id_token").bind Value.asStr = some idToken →
      ∃ authorization ∈ state.authorizations, authorization.code.toList = code ∧
        authorization.idToken = idToken ∧
        authorization.codeChallenge = service.pkceChallenge codeVerifier
  | _ => True

/-- The verifier of a login has another challenge than those of the logins before. -/
def FreshVerifiers (service : LoginService) (state : LoginState Browser) :
    LoginLabel Browser → Prop
  | .serve index turn => ∀ request ∈ state.requests[index]?, request.call = .start →
    ∀ served ∈ state.served, served.1.call = .start →
      service.pkceChallenge served.2.codeVerifier ≠ service.pkceChallenge turn.codeVerifier
  | _ => True

instance (service : LoginService) (state : LoginState Browser) (label : LoginLabel Browser) :
    Decidable (FreshVerifiers service state label) :=
  match label with
  | .serve index turn => inferInstanceAs (Decidable (∀ request ∈ state.requests[index]?,
      request.call = .start → ∀ served ∈ state.served, served.1.call = .start →
        service.pkceChallenge served.2.codeVerifier ≠ service.pkceChallenge turn.codeVerifier))
  | .pass _ | .send _ _ _ _ | .inject _ _ | .authorize _ | .deliver _ => isTrue trivial

/-- A session that somebody presents is one that the registry issued: nobody else has the key. -/
def Unforged (service : LoginService) (state : LoginState Browser) : LoginLabel Browser → Prop
  | .inject _ headers => ∀ value ∈ extractCookies headers "layerhouse_session", ∀ session,
    DashboardSession.decrypt service.codec value = .ok session →
      ∃ served ∈ state.served, ∃ issued, Issues service served.2 served.1 issued ∧
        issued.encrypted = value
  | _ => True

end LoginState

/-! ### Well-formed cookies -/

theorem plain_standard {char : Char} (member : char ∈ Base64.standard.symbols ∨ char = '=') :
    33 ≤ char.toNat ∧ char.toNat ≤ 126 ∧ char ≠ ';' := by
  have symbols : Cookies.Plain Base64.standard.symbols := by decide +kernel
  rcases member with symbol | rfl
  · exact symbols char symbol
  · decide

theorem plain_urlSafe {char : Char} (member : char ∈ Base64.urlSafe.symbols ∨ char = '.') :
    33 ≤ char.toNat ∧ char.toNat ≤ 126 ∧ char ≠ ';' := by
  have symbols : Cookies.Plain Base64.urlSafe.symbols := by decide +kernel
  rcases member with symbol | rfl
  · exact symbols char symbol
  · decide

def cookieNames : List String :=
  ["layerhouse_session", "layerhouse_oauth2", "layerhouse_logout_hint", "layerhouse_logged_out"]

theorem plain_cookieName {name : String} (known : name ∈ cookieNames) :
    Cookies.Plain name.toList ∧ name.toList ≠ [] ∧ '=' ∉ name.toList := by
  have all : ∀ name ∈ cookieNames,
      Cookies.Plain name.toList ∧ name.toList ≠ [] ∧ '=' ∉ name.toList := by decide +kernel
  exact all name known

theorem dot_notMem_randomUrlsafe (bytes : List UInt8) : '.' ∉ randomUrlsafe bytes := fun member =>
  absurd (Base64.Alphabet.mem_of_mem_encode member) (by decide)

section

variable {service : LoginService} {turn : LoginTurn} {Browser : Type}
  {request : LoginRequest Browser} {cookie : SetCookie}

/-- What the verification of both tokens comes to. -/
theorem LoginService.verifyLogin_eq_ok {clock : CallbackClock} {token : Value}
    {login : VerifiedLogin} (verified : service.verifyLogin clock token = .ok login) :
    (token.get "id_token").bind Value.asStr = some login.idToken ∧
      service.verifyIdToken clock.idToken login.idToken = .ok (login.idClaims, login.idGroups) ∧
      (∃ accessToken, (token.get "access_token").bind Value.asStr = some accessToken ∧
        service.verifyAccessToken clock.accessToken accessToken =
          .ok (login.accessClaims, login.accessGroups)) ∧
      login.idClaims.subject = login.accessClaims.subject := by
  unfold LoginService.verifyLogin at verified
  split at verified
  · cases verified
  rename_i accessToken access
  split at verified
  · cases verified
  rename_i idToken id
  split at verified
  · cases verified
  rename_i idClaims idGroups verifiedId
  split at verified
  · cases verified
  rename_i accessClaims accessGroups verifiedAccess
  split at verified
  · cases verified
  rename_i same
  obtain rfl := Except.ok.inj verified
  exact ⟨id, verifiedId, ⟨accessToken, access, verifiedAccess⟩, of_not_not same⟩

/-- Every cookie that an answer sets can be kept and sent back as it is. -/
theorem Sets.wellFormed (sets : Sets service turn request cookie) (expiry : Option Nat)
    (secure : Bool) :
    (Cookies.Cookie.mk cookie.name.toList cookie.value cookie.path.toList expiry
        secure).WellFormed ∧
      Cookies.Plain cookie.path.toList ∧ cookie.path.toList.head? = some '/' := by
  have urlSafe (bytes : List UInt8) : Cookies.Plain (randomUrlsafe bytes) := fun char member =>
    plain_urlSafe (Or.inl (Base64.Alphabet.mem_of_mem_encode member))
  have names {name : String} (known : name ∈ cookieNames) {value : List Char}
      (plain : Cookies.Plain value) {path : List Char} :
      (Cookies.Cookie.mk name.toList value path expiry secure).WellFormed :=
    ⟨(plain_cookieName known).1, (plain_cookieName known).2.1, (plain_cookieName known).2.2, plain⟩
  have rooted {path : String}
      (known : path ∈ ["/", "/oauth2", "/api/v1/session/logout"]) :
      Cookies.Plain path.toList ∧ path.toList.head? = some '/' := by
    have all : ∀ path ∈ ["/", "/oauth2", "/api/v1/session/logout"],
        Cookies.Plain path.toList ∧ path.toList.head? = some '/' := by decide +kernel
    exact all path known
  have empty : Cookies.Plain [] := fun char impossible => absurd impossible List.not_mem_nil
  cases sets with
  | clear cleared =>
    simp only [List.mem_cons, Prod.mk.injEq, List.not_mem_nil, or_false] at cleared
    rcases cleared with ⟨rfl, rfl⟩ | ⟨rfl, rfl⟩ | ⟨rfl, rfl⟩ | ⟨rfl, rfl⟩
    · exact ⟨names (by decide) empty, rooted (by decide)⟩
    · exact ⟨names (by decide) empty, rooted (by decide)⟩
    · exact ⟨names (by decide) empty, rooted (by decide)⟩
    · exact ⟨names (by decide) empty, rooted (by decide)⟩
  | loggedOut =>
    have marked : Cookies.Plain "1".toList := by decide
    exact ⟨names (show "layerhouse_logged_out" ∈ cookieNames by decide) marked,
      rooted (show "/" ∈ _ by decide)⟩
  | started called =>
    have plain : Cookies.Plain (turn.state ++ '.' :: turn.codeVerifier) := by
      refine (urlSafe turn.stateBytes).append fun char member => ?_
      rcases List.mem_cons.mp member with rfl | inVerifier
      · decide
      · exact urlSafe turn.verifierBytes char inVerifier
    exact ⟨names (show "layerhouse_oauth2" ∈ cookieNames by decide) plain,
      rooted (show "/oauth2" ∈ _ by decide)⟩
  | @session issued issues =>
    have plain : Cookies.Plain issued.encrypted := fun char member =>
      plain_standard (DashboardSession.mem_encrypted issues.encrypted member)
    exact ⟨names (show "layerhouse_session" ∈ cookieNames by decide) plain,
      rooted (show "/" ∈ _ by decide)⟩
  | @hint issued issues =>
    have plain : Cookies.Plain issued.login.idToken.toList := fun char member =>
      plain_urlSafe (service.compact
        (LoginService.verifyLogin_eq_ok issues.verified).2.1 char member)
    exact ⟨names (show "layerhouse_logout_hint" ∈ cookieNames by decide) plain,
      rooted (show "/api/v1/session/logout" ∈ _ by decide)⟩

/-- A browser keeps the cookie that an answer sets, or does not understand the line. -/
theorem Sets.parse {app : LoginApp} {headers : HeaderMap} (sets : Sets service turn request cookie)
    {line : List Char} (read : HeaderValue.toStr (cookie.line (app.flags headers)) = some line)
    (now : Nat) (defaultPath : List Char) :
    Cookies.parse now defaultPath line = some
      { name := cookie.name.toList
        value := cookie.value
        path := cookie.path.toList
        expiry := some (now + cookie.maxAge)
        secure := (app.flags headers).secure } := by
  obtain rfl := eq_of_toStr_utf8 read
  obtain ⟨wellFormed, plainPath, rooted⟩ := sets.wellFormed none false
  exact parse_setCookieLine now cookie.maxAge defaultPath
    (cookieSecureFlag_sameSite headers app.cookieSecureMode app.serverTlsEnabled) wellFormed
    plainPath rooted

end

/-! ### A login -/

/-- The session of the sample login in JSON. -/
def sampleSessionJson : List UInt8 :=
  Text.utf8 ("\x7b\"subject\":\"alice\",\"principal\":\"oidc:user:alice\",\"username\":null," ++
    "\"display_name\":null,\"email\":null,\"groups\":[],\"group_ids\":[]," ++
    "\"expires_at\":3610\x7d").toList

/-- The same under AES-256-GCM, with a key of bytes 7 and the nonce 0 to 11. -/
def sampleSessionCiphertext : List UInt8 :=
  [99, 163, 154, 5, 127, 99, 188, 42, 3, 144, 223, 190, 131, 52, 5, 153, 132, 30, 154, 172, 104,
   16, 30, 95, 117, 167, 19, 219, 226, 245, 87, 39, 177, 6, 34, 129, 173, 186, 66, 152, 134, 223,
   162, 218, 53, 148, 208, 17, 216, 18, 41, 10, 177, 167, 138, 247, 28, 42, 150, 182, 206, 181,
   119, 163, 97, 109, 103, 213, 233, 35, 116, 241, 81, 106, 201, 221, 92, 234, 9, 184, 196, 39,
   167, 178, 106, 31, 66, 142, 193, 176, 20, 52, 110, 91, 103, 45, 219, 220, 54, 120, 124, 71,
   107, 33, 171, 9, 105, 92, 57, 35, 67, 224, 233, 97, 18, 239, 128, 135, 48, 151, 88, 124, 4,
   240, 172, 20, 145, 100, 51, 179, 121, 191, 72, 224, 108, 112, 222, 151, 193, 229, 74, 133, 121,
   239, 220, 4, 119, 214, 55, 30, 251, 94, 200, 60, 55, 144, 162, 123, 38]

def sampleNonce : Nonce where
  bytes := [0, 1, 2, 3, 4, 5, 6, 7, 8, 9, 10, 11]
  length := rfl

def sampleDashboardSession : DashboardSession where
  subject := "alice"
  principal := "oidc:user:alice"
  username := none
  displayName := none
  email := none
  groups := []
  groupIds := []
  expiresAt := 3610

/-- The codec on the sample session; it encodes nothing else. -/
def sampleSessionCodec : SessionCodec where
  encrypt := fun nonce plaintext =>
    if nonce = sampleNonce.bytes ∧ plaintext = sampleSessionJson then .ok sampleSessionCiphertext
    else .error "not the sample"
  decrypt := fun nonce ciphertext =>
    if nonce = sampleNonce.bytes ∧ ciphertext = sampleSessionCiphertext then some sampleSessionJson
    else none
  toVec := fun session =>
    if session = sampleDashboardSession then .ok sampleSessionJson else .error "not the sample"
  fromSlice := fun plaintext =>
    if plaintext = sampleSessionJson then .ok sampleDashboardSession else .error "not the sample"
  base64Error := fun _ => "Invalid padding"
  decrypt_encrypt {nonce plaintext ciphertext} encrypted := by
    split at encrypted
    · rename_i sample
      obtain rfl := Except.ok.inj encrypted
      rw [if_pos ⟨sample.1, rfl⟩, sample.2]
    · cases encrypted
  fromSlice_toVec {session plaintext} written := by
    split at written
    · rename_i sample
      obtain rfl := Except.ok.inj written
      rw [if_pos rfl, sample]
    · cases written

def sampleIdToken : String :=
  "eyJhbGciOiJSUzI1NiIsImtpZCI6ImsifQ.eyJzdWIiOiJhbGljZSIsImV4cCI6NTAwMH0.aWQ"

def sampleAccessToken : String :=
  "eyJhbGciOiJSUzI1NiIsImtpZCI6ImsifQ.eyJzdWIiOiJhbGljZSIsImV4cCI6NTAwMH0.YWNjZXNz"

def sampleTokenClaims : TokenClaims where
  subject := "alice"
  exp := 5000
  aud := none
  groups := none
  name := none
  preferredUsername := none
  email := none
  scope := none
  namespaceEpochs := []
  tokenType := none
  iat := none
  iss := none

/-- A registry whose provider signed the two sample tokens. -/
def sampleLoginService : LoginService where
  clientId := "layerhouse"
  clientSecret := "secret"
  redirectUri := "https://registry.example.test/oauth2/callback"
  loginScopes := "openid profile email groups"
  accessTokenAudience := none
  logoutUrl := none
  tokenEndpointUrl := "https://registry.example.test/v2/token"
  tokens := sampleService
  codec := sampleSessionCodec
  -- the hashes of the two sample verifiers
  sha256 := fun text =>
    if text = Text.utf8 (randomUrlsafe (List.replicate 32 1)) then
      [86, 213, 250, 115, 51, 246, 215, 71, 219, 66, 194, 57, 64, 126, 93, 164, 195, 47, 76, 121,
       243, 93, 9, 43, 19, 79, 211, 90, 64, 45, 156, 92]
    else
      [108, 29, 99, 187, 218, 180, 55, 197, 67, 104, 203, 189, 136, 134, 168, 134, 167, 154, 217,
       119, 41, 126, 38, 94, 235, 241, 245, 245, 240, 21, 51, 185]
  verifyTokenClaims := fun _ token _ =>
    if token = sampleIdToken ∨ token = sampleAccessToken then .ok (sampleTokenClaims, [])
    else .error (unauthorized "invalid token")
  compact {now token audience result} accepted := by
    have compact : ∀ token ∈ [sampleIdToken, sampleAccessToken],
        token.toList.all (fun char => char ∈ Base64.urlSafe.symbols ∨ char = '.') = true := by
      decide +kernel
    split at accepted
    · rename_i sample
      intro char member
      have listed : token ∈ [sampleIdToken, sampleAccessToken] := by simpa using sample
      exact of_decide_eq_true (List.all_eq_true.mp (compact token listed) char member)
    · cases accepted

def sampleLoginApp : LoginApp where
  auth := some sampleLoginService
  cookieSecureMode := .enabled
  serverTlsEnabled := true

/-- The turn at a second, with the provider answering nothing. -/
def sampleTurn (now : Nat) : LoginTurn where
  authorizationEndpoint := "https://idp.example.test/authorize".toList
  endSessionEndpoint := none
  stateBytes := List.replicate 32 0
  verifierBytes := List.replicate 32 1
  reply := fun _ => .error (.internal "token exchange failed")
  clock := ⟨now, now, now⟩
  nonce := sampleNonce
  reads := ⟨now, .empty, .empty, .empty, .empty⟩

def sampleAuthorization : Authorization where
  code := "code-1"
  codeChallenge := sampleLoginService.pkceChallenge (sampleTurn 0).codeVerifier
  idToken := sampleIdToken

/-- The turn in which another login begins. -/
def sampleOtherTurn : LoginTurn :=
  { sampleTurn 0 with
    stateBytes := List.replicate 32 3
    verifierBytes := List.replicate 32 2 }

def sampleOtherAuthorization : Authorization where
  code := "code-2"
  codeChallenge := sampleLoginService.pkceChallenge sampleOtherTurn.codeVerifier
  idToken := sampleIdToken

/-- The turn of the callback: the provider exchanges the sample code for its verifier. -/
def sampleCallbackTurn (now : Nat) : LoginTurn :=
  { sampleTurn now with
    reply := fun fields =>
      if fields = sampleLoginService.tokenFields "code-1".toList (sampleTurn 0).codeVerifier then
        .ok (.object [("access_token", .string sampleAccessToken),
          ("id_token", .string sampleIdToken)])
      else .error (.internal "token exchange failed") }

/-- Two browsers begin a login each, and the provider gives a code out for both. -/
def sampleLoginBegun : List (LoginLabel Bool) :=
  [.send false true .start [], .serve 0 (sampleTurn 0), .deliver 0,
    .authorize sampleAuthorization, .send true true .start [], .serve 0 sampleOtherTurn,
    .deliver 0, .authorize sampleOtherAuthorization, .pass 10]

/-- One browser comes back with its code, and visits a page with the session it is handed. -/
def sampleLoginEnded : List (LoginLabel Bool) :=
  [.send false true
      (.callback ⟨some "code-1", some (String.ofList (sampleTurn 0).state)⟩) [],
    .serve 0 (sampleCallbackTurn 10), .deliver 0, .pass 5,
    .send false true (.visit .get "/" none) []]

/-- A header with the session that is handed out. -/
def sampleSessionHeader : HeaderMap :=
  [("cookie", Text.utf8 ("layerhouse_session=".toList ++
    Base64.standard.encodePadded (sampleNonce.bytes ++ sampleSessionCiphertext)))]

/-- Somebody else shows the session that was handed out. -/
def sampleShown : LoginLabel Bool :=
  .inject (.visit .get "/" none) sampleSessionHeader

def sampleLogin : List (LoginLabel Bool) :=
  sampleLoginBegun ++ sampleLoginEnded ++ [sampleShown]

/-- The state after a schedule that can be run. -/
def LoginState.after (labels : List (LoginLabel Bool)) : LoginState Bool :=
  (run (LoginState.step sampleLoginApp) LoginState.initial labels).getD LoginState.initial

theorem LoginState.after_reached {labels : List (LoginLabel Bool)}
    (runs : (run (LoginState.step sampleLoginApp) LoginState.initial labels).isSome = true) :
    run (LoginState.step sampleLoginApp) LoginState.initial labels = some (after labels) := by
  obtain ⟨state, reached⟩ := Option.isSome_iff_exists.mp runs
  rw [after, reached, Option.getD_some]

theorem LoginState.after_step {labels : List (LoginLabel Bool)} {label : LoginLabel Bool}
    (runs : (run (LoginState.step sampleLoginApp) LoginState.initial
      (labels ++ [label])).isSome = true) :
    LoginState.step sampleLoginApp (after labels) label = some (after (labels ++ [label])) := by
  obtain ⟨middle, before, last⟩ := run_append_eq_some.mp (after_reached runs)
  obtain ⟨next, stepped, ended⟩ := run_cons_eq_some.mp last
  obtain rfl := Option.some.inj ended
  rw [after, before, Option.getD_some, stepped]

def sampleLoginIdentity : AuthIdentity where
  subject := "alice"
  principal := ⟨"oidc:user:alice"⟩
  username := none
  displayName := none
  email := none
  groups := []
  groupIds := []
  scopes := []
  namespaceEpochs := []
  tokenType := .session

end Layerhouse
