/-
This file binds the session of a browser to a login that the browser began, and
every session to the two tokens it was issued for. A session authenticates nobody
else, and nobody any longer: a request passes the middleware only while the id token,
the access token, the time that the provider granted and one hour have not run out.

That a code is tied to a challenge is the provider's part, that the challenge is tied
to a browser is the registry's: the verifier never leaves the cookie.
-/

import Layerhouse.Auth.LoginSafety

namespace Layerhouse

variable {Browser : Type} {service : LoginService} {app : LoginApp}

/-! ### The verifier of a callback -/

/-- A callback that passes the check of the state has the verifier of a login of its browser. -/
theorem codeVerifier_started {served : LoginHistory Browser} {browser : Browser}
    {headers : HeaderMap} {state : Option String} {codeVerifier : List Char}
    (owned : HeadersOwned service served browser headers)
    (accepted : oauth2CodeVerifier headers state = some codeVerifier) :
    ∃ start ∈ served, start.1.sender = some browser ∧ start.1.call = .start ∧
      codeVerifier = start.2.codeVerifier ∧ state = some (String.ofList start.2.state) := by
  obtain ⟨cookie, sent, parts⟩ := Option.bind_eq_some_iff.mp accepted
  obtain ⟨⟨storedState, stored⟩, split, checked⟩ := Option.bind_eq_some_iff.mp parts
  obtain ⟨sameState, same⟩ := Option.ite_none_right_eq_some.mp checked
  obtain rfl := Option.some.inj same
  obtain ⟨start, member, sender, called, rfl⟩ := owned.oauth2 cookie (firstCookie_mem sent)
  have halves : Text.splitOnce '.' (start.2.state ++ '.' :: start.2.codeVerifier) =
      some (start.2.state, start.2.codeVerifier) :=
    Cookies.splitOnce_append _ (dot_notMem_randomUrlsafe start.2.stateBytes)
  rw [halves] at split
  obtain ⟨rfl, rfl⟩ := Prod.mk.inj (Option.some.inj split)
  refine ⟨start, member, sender, called, rfl, ?_⟩
  cases state with
  | none => cases sameState
  | some state =>
    have spelled := Option.some.inj sameState
    rw [spelled, String.ofList_toList]

/-! ### Sessions are in force for their tokens only -/

/-- A session ends with its tokens, with the time that the provider granted, and within the
hour. -/
theorem lt_of_lt_expiresAt {turn : LoginTurn} {request : LoginRequest Browser}
    {issued : IssuedLogin} (issues : Issues service turn request issued) {now : Nat}
    (inForce : now < issued.session.expiresAt) :
    now < issued.login.idClaims.exp ∧ now < issued.login.accessClaims.exp ∧
      now < turn.clock.session + 3600 ∧ now < turn.clock.session + issued.login.expiresIn := by
  have lasting := issues.lasting
  rw [issues.session] at inForce
  change now < turn.clock.session + issued.login.sessionMaxAge turn.clock.session at inForce
  have wrapped := Nat.mod_le (turn.clock.session + issued.login.expiresIn) (2 ^ 64)
  rw [VerifiedLogin.sessionMaxAge] at lasting inForce
  omega

/-- The identity is that of a login whose tokens the provider signed, and which is still in
force. -/
structure LoggedIn (service : LoginService) (callback : LoginRequest Browser × LoginTurn)
    (issued : IssuedLogin) (identity : AuthIdentity) (now : Nat) : Prop where
  issues : Issues service callback.2 callback.1 issued
  carries : issued.session.Carries identity
  idToken : service.verifyIdToken callback.2.clock.idToken issued.login.idToken =
    .ok (issued.login.idClaims, issued.login.idGroups)
  accessToken : ∃ accessToken, service.verifyAccessToken callback.2.clock.accessToken accessToken =
    .ok (issued.login.accessClaims, issued.login.accessGroups)
  subject : identity.subject = issued.login.idClaims.subject ∧
    identity.subject = issued.login.accessClaims.subject
  groups : ∀ group, group ∈ identity.groups ↔
    group ∈ issued.login.accessGroups ∨ group ∈ issued.login.idGroups
  inForce : now < issued.login.idClaims.exp ∧ now < issued.login.accessClaims.exp ∧
    now < callback.2.clock.session + 3600 ∧
    now < callback.2.clock.session + issued.login.expiresIn

/-- The merged groups are those of both tokens. -/
theorem mem_allGroups (login : VerifiedLogin) (group : String) :
    group ∈ login.allGroups ↔ group ∈ login.accessGroups ∨ group ∈ login.idGroups := by
  rw [VerifiedLogin.allGroups]
  generalize login.accessGroups = groups
  induction login.idGroups generalizing groups with
  | nil => simp
  | cons first rest inductionHypothesis =>
    rw [List.foldl_cons, inductionHypothesis]
    by_cases present : first ∈ groups
    · rw [if_pos present, List.mem_cons]
      refine or_congr_right' fun absent => ?_
      refine (or_iff_right ?_).symm
      rintro rfl
      exact absent present
    · rw [if_neg present, List.mem_append, List.mem_singleton, List.mem_cons, or_assoc]

theorem Issues.loggedIn {callback : LoginRequest Browser × LoginTurn} {issued : IssuedLogin}
    (issues : Issues service callback.2 callback.1 issued) {identity : AuthIdentity}
    (carries : issued.session.Carries identity) {now : Nat}
    (inForce : now < issued.session.expiresAt) :
    LoggedIn service callback issued identity now := by
  obtain ⟨_, idToken, ⟨accessToken, _, verified⟩, sameSubject⟩ :=
    LoginService.verifyLogin_eq_ok issues.verified
  have subject : identity.subject = issued.login.idClaims.subject := by
    rw [carries.subject, issues.session]
    rfl
  exact
    { issues := issues
      carries := carries
      idToken := idToken
      accessToken := ⟨accessToken, verified⟩
      subject := ⟨subject, subject.trans sameSubject⟩
      groups := fun group => by
        rw [carries.groups, issues.session]
        exact mem_allGroups issued.login group
      inForce := lt_of_lt_expiresAt issues inForce }

/-! ### What the provider gave out -/

/-- Every session was issued for a code that the provider gave out for its verifier. -/
def Redeemed (service : LoginService) (state : LoginState Browser) : Prop :=
  ∀ entry ∈ state.served, ∀ issued, Issues service entry.2 entry.1 issued →
    ∃ authorization ∈ state.authorizations, authorization.code = issued.code ∧
      authorization.idToken = issued.login.idToken ∧
      authorization.codeChallenge = service.pkceChallenge issued.codeVerifier

/-- The logins that were begun have different challenges. -/
def DistinctStarts (service : LoginService) (served : LoginHistory Browser) : Prop :=
  served.Pairwise fun first second => first.1.call = .start → second.1.call = .start →
    service.pkceChallenge first.2.codeVerifier ≠ service.pkceChallenge second.2.codeVerifier

/-- Two logins with one challenge are the same login. -/
theorem DistinctStarts.eq {served : LoginHistory Browser} (distinct : DistinctStarts service served)
    {first second : LoginRequest Browser × LoginTurn} (inFirst : first ∈ served)
    (inSecond : second ∈ served) (startedFirst : first.1.call = .start)
    (startedSecond : second.1.call = .start)
    (same : service.pkceChallenge first.2.codeVerifier =
      service.pkceChallenge second.2.codeVerifier) : first = second := by
  by_contra different
  have symmetric : Std.Symm fun first second : LoginRequest Browser × LoginTurn =>
      first.1.call = .start → second.1.call = .start →
        service.pkceChallenge first.2.codeVerifier ≠
          service.pkceChallenge second.2.codeVerifier :=
    ⟨fun _ _ apart startedSecond startedFirst => (apart startedFirst startedSecond).symm⟩
  exact distinct.forall inFirst inSecond different startedFirst startedSecond same

variable [DecidableEq Browser] {state next : LoginState Browser} {label : LoginLabel Browser}
  {labels : List (LoginLabel Browser)}

theorem Redeemed.step (stepped : LoginState.step app state label = some next)
    (kept : LoginState.PkceKept service state label) (redeemed : Redeemed service state) :
    Redeemed service next := by
  cases label with
  | pass seconds =>
    obtain rfl := Option.some.inj stepped
    exact redeemed
  | send browser https call others =>
    obtain rfl := Option.some.inj stepped
    exact redeemed
  | inject call headers =>
    obtain rfl := Option.some.inj stepped
    exact redeemed
  | authorize authorization =>
    obtain rfl := Option.some.inj stepped
    intro entry member issued issues
    obtain ⟨other, given, known⟩ := redeemed entry member issued issues
    exact ⟨other, List.mem_append_left _ given, known⟩
  | serve index turn =>
    obtain ⟨request, asked, answered⟩ := Option.bind_eq_some_iff.mp stepped
    obtain ⟨_, same⟩ := Option.ite_none_right_eq_some.mp answered
    obtain rfl := Option.some.inj same
    intro entry member issued issues
    rcases List.mem_append.mp member with before | added
    · exact redeemed entry before issued issues
    · obtain rfl := List.mem_singleton.mp added
      obtain ⟨authorization, given, code, idToken, challenge⟩ := kept issued.code.toList
        issued.codeVerifier issued.token issued.login.idToken issues.exchanged
        (LoginService.verifyLogin_eq_ok issues.verified).1
      exact ⟨authorization, given, String.toList_inj.mp code, idToken, challenge⟩
  | deliver index =>
    obtain ⟨answer, sent, rfl⟩ := Option.map_eq_some_iff.mp stepped
    exact redeemed

theorem DistinctStarts.step (stepped : LoginState.step app state label = some next)
    (fresh : LoginState.FreshVerifiers service state label)
    (distinct : DistinctStarts service state.served) : DistinctStarts service next.served := by
  cases label with
  | pass seconds =>
    obtain rfl := Option.some.inj stepped
    exact distinct
  | send browser https call others =>
    obtain rfl := Option.some.inj stepped
    exact distinct
  | inject call headers =>
    obtain rfl := Option.some.inj stepped
    exact distinct
  | authorize authorization =>
    obtain rfl := Option.some.inj stepped
    exact distinct
  | serve index turn =>
    obtain ⟨request, asked, answered⟩ := Option.bind_eq_some_iff.mp stepped
    obtain ⟨_, same⟩ := Option.ite_none_right_eq_some.mp answered
    obtain rfl := Option.some.inj same
    refine List.pairwise_append.mpr ⟨distinct, List.pairwise_singleton _ _, ?_⟩
    intro earlier member later isLater startedEarlier startedLater
    obtain rfl := List.mem_singleton.mp isLater
    exact fresh request asked startedLater earlier member startedEarlier
  | deliver index =>
    obtain ⟨answer, sent, rfl⟩ := Option.map_eq_some_iff.mp stepped
    exact distinct

/-! ### Logins are the browser's own -/

/-- The identity of a browser's login, with the start and the code it came from. -/
structure OwnLogin (service : LoginService) (state : LoginState Browser) (browser : Browser)
    (identity : AuthIdentity) (now : Nat) (start callback : LoginRequest Browser × LoginTurn)
    (issued : IssuedLogin) (authorization : Authorization) : Prop where
  began : start ∈ state.served ∧ start.1.sender = some browser ∧ start.1.call = .start
  ended : callback ∈ state.served ∧ callback.1.sender = some browser
  loggedIn : LoggedIn service callback issued identity now
  sameState : issued.query.state = some (String.ofList start.2.state)
  redeemed : authorization ∈ state.authorizations ∧ authorization.code = issued.code ∧
    authorization.idToken = issued.login.idToken
  challenged : authorization.codeChallenge = service.pkceChallenge start.2.codeVerifier
  onlyHere : ∀ other ∈ state.served, other.1.call = .start →
    service.pkceChallenge other.2.codeVerifier = authorization.codeChallenge → other = start

/-- A browser is signed in only by a login it began itself: the code behind its session was
authorized with the challenge of that login and of no other one. -/
theorem session_binds_own_login (configured : app.auth = some service)
    (reached : run (LoginState.step app) LoginState.initial labels = some state)
    (kept : Along (LoginState.step app) (LoginState.PkceKept service) LoginState.initial labels)
    (fresh : Along (LoginState.step app) (LoginState.FreshVerifiers service) LoginState.initial
      labels)
    {request : LoginRequest Browser} (inFlight : request ∈ state.requests) {browser : Browser}
    (sender : request.sender = some browser) {reads : MiddlewareReads} {method : Method}
    {path : String} {query : Option String} {identity : AuthIdentity}
    {access : Option AuthorizedRepositoryAccess}
    (passed : app.authMiddleware reads (request.visited method path query) =
      .next (some identity) access)
    (bearerless : extractBearerToken request.headers = none) :
    ∃ start callback issued authorization,
      OwnLogin service state browser identity reads.now start callback issued authorization := by
  have invariant := LoginInvariant.reached configured reached
  have redeemed : Redeemed service state :=
    run_invariant_along (Redeemed service) (fun _ _ _ stepped kept => .step stepped kept) reached
      kept fun _ impossible => absurd impossible List.not_mem_nil
  have distinct : DistinctStarts service state.served :=
    run_invariant_along (fun state : LoginState Browser => DistinctStarts service state.served)
      (fun _ _ _ stepped fresh => .step stepped fresh) reached fresh List.Pairwise.nil
  have authenticated := (authMiddleware_identity configured passed).bySession bearerless
  obtain ⟨before, cookieValue, after, session, values, _, read, inForce, carries⟩ :=
    authenticateSessionCookies_eq_ok.mp authenticated
  have presented : cookieValue ∈ extractCookies request.headers "layerhouse_session" := by
    change cookieValue ∈ extractCookies (request.visited method path query).headers _
    rw [values]
    exact List.mem_append_right before List.mem_cons_self
  obtain ⟨_, callback, served, callbackSender, issued, issues, rfl, _⟩ :=
    (invariant.requests request inFlight browser sender).session cookieValue presented
  have decrypted := DashboardSession.decrypt_encrypt issues.encrypted
  obtain rfl := Except.ok.inj (read.symm.trans decrypted)
  obtain ⟨start, began, startSender, called, verifier, sameState⟩ := codeVerifier_started
    (invariant.served callback served browser callbackSender) issues.verifier
  obtain ⟨authorization, given, code, idToken, challenge⟩ := redeemed callback served issued issues
  have challenged := verifier ▸ challenge
  exact ⟨start, callback, issued, authorization,
    { began := ⟨began, startSender, called⟩
      ended := ⟨served, callbackSender⟩
      loggedIn := issues.loggedIn carries inForce
      sameState := sameState
      redeemed := ⟨given, code, idToken⟩
      challenged := challenged
      onlyHere := fun other member started same =>
        distinct.eq member began started called (same.trans challenged) }⟩

/-- A code that was given out stays given out. -/
theorem authorization_mono {authorization : Authorization}
    (stepped : LoginState.step app state label = some next)
    (given : authorization ∈ state.authorizations) : authorization ∈ next.authorizations := by
  cases label with
  | pass seconds =>
    obtain rfl := Option.some.inj stepped
    exact given
  | send browser https call others =>
    obtain rfl := Option.some.inj stepped
    exact given
  | inject call headers =>
    obtain rfl := Option.some.inj stepped
    exact given
  | authorize other =>
    obtain rfl := Option.some.inj stepped
    exact List.mem_append_left _ given
  | serve index turn =>
    obtain ⟨request, asked, answered⟩ := Option.bind_eq_some_iff.mp stepped
    obtain ⟨_, same⟩ := Option.ite_none_right_eq_some.mp answered
    obtain rfl := Option.some.inj same
    exact given
  | deliver index =>
    obtain ⟨answer, sent, rfl⟩ := Option.map_eq_some_iff.mp stepped
    exact given

theorem pkceKept_sampleLogin :
    Along (LoginState.step sampleLoginApp) (LoginState.PkceKept sampleLoginService)
      LoginState.initial sampleLogin := by
  refine along_append.mpr ⟨along_append.mpr ⟨along_of_forall fun label member state => ?_,
    fun middle reached => ?_⟩, fun _ _ => ⟨trivial, fun _ _ => trivial⟩⟩
  · simp only [sampleLoginBegun, List.mem_cons, List.not_mem_nil, or_false] at member
    rcases member with rfl | rfl | rfl | rfl | rfl | rfl | rfl | rfl | rfl
    · trivial
    · intro code codeVerifier token idToken replied
      cases replied
    · trivial
    · trivial
    · trivial
    · intro code codeVerifier token idToken replied
      cases replied
    · trivial
    · trivial
    · trivial
  · have authorized : ((run (LoginState.step sampleLoginApp) LoginState.initial
        sampleLoginBegun).all fun state => sampleAuthorization ∈ state.authorizations) = true := by
      decide +kernel
    rw [reached, Option.all_some] at authorized
    have listed : Along (LoginState.step sampleLoginApp) (fun _ label => label ∈ sampleLoginEnded)
        middle sampleLoginEnded := along_of_forall fun _ member _ => member
    refine listed.derive (fun state => sampleAuthorization ∈ state.authorizations)
      (fun _ _ _ stepped _ given => authorization_mono stepped given) ?_
      (of_decide_eq_true authorized)
    intro state label given member
    simp only [sampleLoginEnded, List.mem_cons, List.not_mem_nil, or_false] at member
    rcases member with rfl | rfl | rfl | rfl | rfl
    · trivial
    · intro code codeVerifier token idToken replied carried
      simp only [sampleCallbackTurn] at replied
      split at replied
      · rename_i same
        obtain rfl := Except.ok.inj replied
        simp only [LoginService.tokenFields, List.cons.injEq, Prod.mk.injEq, true_and, and_true]
          at same
        obtain ⟨rfl, rfl⟩ := same
        refine ⟨sampleAuthorization, given, rfl, Option.some.inj carried, rfl⟩
      · cases replied
    · trivial
    · trivial
    · trivial

theorem session_binds_own_login_alice :
    ∃ start callback issued authorization,
      OwnLogin sampleLoginService (LoginState.after sampleLogin) false sampleLoginIdentity 15 start
        callback issued authorization := by
  have reached := LoginState.after_reached (show (run (LoginState.step sampleLoginApp)
    LoginState.initial sampleLogin).isSome = true by decide +kernel)
  have passed : sampleLoginApp.authMiddleware (sampleTurn 15).reads
      (((LoginState.after sampleLogin).requests.get ⟨0, by decide +kernel⟩).visited .get "/"
        none) = .next (some sampleLoginIdentity) none := by decide +kernel
  exact session_binds_own_login rfl reached pkceKept_sampleLogin (by decide +kernel)
    (List.get_mem _ _) (by decide +kernel) passed (by decide +kernel)

/-! ### Sessions anybody presents -/

/-- Every session in a request was issued by the registry. -/
def Genuine (service : LoginService) (state : LoginState Browser) : Prop :=
  ∀ request ∈ state.requests, ∀ value ∈ extractCookies request.headers "layerhouse_session",
    ∀ session, DashboardSession.decrypt service.codec value = .ok session →
      ∃ served ∈ state.served, ∃ issued, Issues service served.2 served.1 issued ∧
        issued.encrypted = value

theorem Genuine.step (invariant : LoginInvariant service state)
    (stepped : LoginState.step app state label = some next)
    (unforged : LoginState.Unforged service state label) (genuine : Genuine service state) :
    Genuine service next := by
  cases label with
  | pass seconds =>
    obtain rfl := Option.some.inj stepped
    exact genuine
  | send browser https call others =>
    obtain rfl := Option.some.inj stepped
    intro request member value presented session decrypted
    rcases List.mem_append.mp member with before | added
    · exact genuine request before value presented session decrypted
    · obtain rfl := List.mem_singleton.mp added
      obtain ⟨_, callback, served, _, issued, issues, same, _⟩ :=
        (headersOwned_browserHeaders others (invariant.jars browser)).session value presented
      exact ⟨callback, served, issued, issues, same.symm⟩
  | inject call headers =>
    obtain rfl := Option.some.inj stepped
    intro request member value presented session decrypted
    rcases List.mem_append.mp member with before | added
    · exact genuine request before value presented session decrypted
    · obtain rfl := List.mem_singleton.mp added
      exact unforged value presented session decrypted
  | authorize authorization =>
    obtain rfl := Option.some.inj stepped
    exact genuine
  | serve index turn =>
    obtain ⟨request, asked, answered⟩ := Option.bind_eq_some_iff.mp stepped
    obtain ⟨_, same⟩ := Option.ite_none_right_eq_some.mp answered
    obtain rfl := Option.some.inj same
    intro other member value presented session decrypted
    obtain ⟨served, isServed, known⟩ :=
      genuine other (List.mem_of_mem_eraseIdx member) value presented session decrypted
    exact ⟨served, List.mem_append_left _ isServed, known⟩
  | deliver index =>
    obtain ⟨answer, sent, rfl⟩ := Option.map_eq_some_iff.mp stepped
    exact genuine

/-- Whoever presents it, a session signs in the user whose two tokens were verified when it was
issued, and only as long as both of them, the time granted by the provider and one hour last. -/
theorem session_in_force_for_its_tokens (configured : app.auth = some service)
    (reached : run (LoginState.step app) LoginState.initial labels = some state)
    (unforged : Along (LoginState.step app) (LoginState.Unforged service) LoginState.initial labels)
    {request : LoginRequest Browser} (inFlight : request ∈ state.requests)
    {reads : MiddlewareReads} {method : Method} {path : String} {query : Option String}
    {identity : AuthIdentity} {access : Option AuthorizedRepositoryAccess}
    (passed : app.authMiddleware reads (request.visited method path query) =
      .next (some identity) access)
    (bearerless : extractBearerToken request.headers = none) :
    ∃ callback ∈ state.served, ∃ issued, callback.2.clock.session ≤ state.now ∧
      LoggedIn service callback issued identity reads.now := by
  have invariants : LoginInvariant service state ∧ Genuine service state :=
    run_invariant_along (fun state => LoginInvariant service state ∧ Genuine service state)
      (fun _ _ _ stepped unforged known =>
        ⟨known.1.step configured stepped, .step known.1 stepped unforged known.2⟩)
      reached unforged ⟨.initial, fun _ impossible => absurd impossible List.not_mem_nil⟩
  have authenticated := (authMiddleware_identity configured passed).bySession bearerless
  obtain ⟨before, cookieValue, after, session, values, _, read, inForce, carries⟩ :=
    authenticateSessionCookies_eq_ok.mp authenticated
  have presented : cookieValue ∈ extractCookies request.headers "layerhouse_session" := by
    change cookieValue ∈ extractCookies (request.visited method path query).headers _
    rw [values]
    exact List.mem_append_right before List.mem_cons_self
  obtain ⟨callback, served, issued, issues, rfl⟩ :=
    invariants.2 request inFlight cookieValue presented session read
  obtain rfl := Except.ok.inj (read.symm.trans (DashboardSession.decrypt_encrypt issues.encrypted))
  obtain ⟨second, before, timely⟩ := invariants.1.timely callback served
  exact ⟨callback, served, issued, timely.2.2.1.le.trans before, issues.loggedIn carries inForce⟩

/-- The session that is shown is the one of the visit before. -/
theorem unforged_sampleLogin :
    Along (LoginState.step sampleLoginApp) (LoginState.Unforged sampleLoginService)
      LoginState.initial sampleLogin := by
  refine along_append.mpr ⟨along_of_forall fun label member state => ?_,
    fun middle reached => ⟨?_, fun _ _ => trivial⟩⟩
  · simp only [sampleLoginBegun, sampleLoginEnded, List.cons_append, List.nil_append,
      List.mem_cons, List.not_mem_nil, or_false] at member
    rcases member with rfl | rfl | rfl | rfl | rfl | rfl | rfl | rfl | rfl | rfl | rfl | rfl |
      rfl | rfl
    all_goals trivial
  · intro value presented session _
    have configured : sampleLoginApp.auth = some sampleLoginService := rfl
    have invariant := LoginInvariant.reached configured reached
    have visited : ((run (LoginState.step sampleLoginApp) LoginState.initial
        (sampleLoginBegun ++ sampleLoginEnded)).all fun state =>
          state.requests.head?.any fun request => request.sender = some false ∧
            ∀ value ∈ extractCookies sampleSessionHeader "layerhouse_session",
              value ∈ extractCookies request.headers "layerhouse_session") = true := by
      decide +kernel
    rw [reached, Option.all_some] at visited
    obtain ⟨request, first, sent⟩ := (Option.any_eq_true ..).mp visited
    obtain ⟨sender, shown⟩ := of_decide_eq_true sent
    obtain ⟨_, callback, served, _, issued, issues, same, _⟩ :=
      (invariant.requests request (List.mem_of_head? first) false sender).session value
        (shown value presented)
    exact ⟨callback, served, issued, issues, same.symm⟩

/-- The session is in force for whoever shows it. -/
theorem session_in_force_for_its_tokens_alice :
    ∃ callback ∈ (LoginState.after sampleLogin).served, ∃ issued,
      callback.2.clock.session ≤ (LoginState.after sampleLogin).now ∧
        LoggedIn sampleLoginService callback issued sampleLoginIdentity 15 := by
  have reached := LoginState.after_reached (show (run (LoginState.step sampleLoginApp)
    LoginState.initial sampleLogin).isSome = true by decide +kernel)
  have passed : sampleLoginApp.authMiddleware (sampleTurn 15).reads
      (((LoginState.after sampleLogin).requests.get ⟨1, by decide +kernel⟩).visited .get "/"
        none) = .next (some sampleLoginIdentity) none := by decide +kernel
  exact session_in_force_for_its_tokens rfl reached unforged_sampleLogin (List.get_mem _ _) passed
    (by decide +kernel)

end Layerhouse
