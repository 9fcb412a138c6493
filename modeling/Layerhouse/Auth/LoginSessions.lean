/-
This file is the session from the side of its browser. A browser that was handed a
session shows exactly this one with every request, and is signed in by it exactly
until it ends; a browser that has logged out shows none until a callback hands it the
next one, whatever answers are still on their way.

The session cookies of all answers have one name and one path, so a jar holds one of
them at most; and an answer that sets one is the answer to a callback.
-/

import Layerhouse.Auth.LoginSafety

namespace Layerhouse

variable {Browser : Type} {service : LoginService} {app : LoginApp}

/-! ### Every issued session can be used -/

/-- The ids of groups are stored as they are parsed. -/
theorem parse_stableGroupIds {isUuid : String → Bool} {provider : String} {groups : List String} :
    List.Forall₂ (fun text id => ProviderQualifiedId.parse text = .ok id)
      ((stableGroupIds isUuid provider groups).map (·.text))
      (stableGroupIds isUuid provider groups) := by
  rw [List.forall₂_map_left_iff]
  refine List.forall₂_same.mpr fun id member => ?_
  rw [stableGroupIds, List.mem_dedup, List.mem_mergeSort, List.mem_filterMap] at member
  obtain ⟨group, _, found⟩ := member
  obtain ⟨_, built⟩ := Option.ite_none_right_eq_some.mp found
  obtain ⟨name, accepted, present, rfl⟩ :=
    ProviderQualifiedId.new_eq_ok.mp (exceptToOption_eq_some.mp built)
  exact ProviderQualifiedId.parse_spelled (ProviderId.new_idem accepted) present

/-- The identity a session was issued for is the one it is read back as. -/
theorem Issues.carries {turn : LoginTurn} {request : LoginRequest Browser} {issued : IssuedLogin}
    (issues : Issues service turn request issued) :
    ∃ identity, issued.session.Carries identity := by
  obtain ⟨name, accepted, present, spelled⟩ := ProviderQualifiedId.new_eq_ok.mp issues.principal
  refine ⟨{ subject := issued.session.subject
            principal := issued.principal
            username := issued.session.username
            displayName := issued.session.displayName
            email := issued.session.email
            groups := issued.session.groups
            groupIds := stableGroupIds service.tokens.isUuid service.tokens.providerName
              issued.login.allGroups
            scopes := []
            namespaceEpochs := []
            tokenType := .session }, ?_⟩
  constructor
  · rw [issues.session]
    change ProviderQualifiedId.parse issued.principal.text = _
    rw [spelled]
    exact ProviderQualifiedId.parse_spelled (ProviderId.new_idem accepted) present
  · rw [issues.session]
    exact parse_stableGroupIds
  · rfl
  · rfl
  · rfl
  · rfl
  · rfl
  · exact ⟨rfl, rfl⟩
  · rfl

/-! ### One session in a jar -/

/-- The other headers of a request are not touched by its cookies. -/
theorem get_browserHeaders (cookies : List Cookies.Cookie) (others : HeaderMap) {name : String}
    (other : name ≠ "cookie") : (browserHeaders cookies others).get name = others.get name := by
  have cookieless : (if cookies = [] then []
      else [("cookie", Text.utf8 (Cookies.header cookies))]).filter (·.1 = name) = [] := by
    split
    · rfl
    · exact List.filter_eq_nil_iff.mpr fun entry member same =>
        other (by rw [← of_decide_eq_true same, List.mem_singleton.mp member])
  rw [HeaderMap.get_eq_head?, HeaderMap.get_eq_head?, HeaderMap.getAll, HeaderMap.getAll,
    browserHeaders, List.filter_append, cookieless, List.nil_append, List.filter_filter]
  congr 2
  refine List.filter_congr fun entry _ => ?_
  by_cases same : entry.1 = name
  · simp [same, other]
  · simp [same]

theorem eq_singleton_of_nodup {Value : Type} {values : List Value} {value : Value}
    (nodup : values.Nodup) (member : value ∈ values) (only : ∀ other ∈ values, other = value) :
    values = [value] := by
  cases values with
  | nil => cases member
  | cons first rest =>
    obtain rfl := only first List.mem_cons_self
    cases rest with
    | nil => rfl
    | cons second rest =>
      obtain rfl := only second (List.mem_cons_of_mem _ List.mem_cons_self)
      exact absurd List.mem_cons_self (List.nodup_cons.mp nodup).1

theorem pathMatches_root {path : String} (rooted : startsWith path "/" = true) :
    Cookies.PathMatches path.toList "/".toList :=
  Or.inr ⟨List.isPrefixOf_iff_prefix.mp rooted, Or.inl rfl⟩

variable {state next : LoginState Browser} {label : LoginLabel Browser}
  {labels : List (LoginLabel Browser)}

/-- The request of a browser with a session cookie shows this cookie and no other session. -/
theorem LoginInvariant.extractCookies_session (invariant : LoginInvariant service state)
    {browser : Browser} {cookie : Cookies.Cookie} (inJar : cookie ∈ state.jar browser)
    (named : cookie.name = "layerhouse_session".toList) {https : Bool} {call : LoginCall}
    (sent : cookie.Sent state.now https call.path.toList) (others : HeaderMap) :
    extractCookies (state.requestOf browser https call others).headers "layerhouse_session" =
      [cookie.value] := by
  have wellFormed : ∀ other ∈ (state.jar browser).sent state.now https call.path.toList,
      other.WellFormed := fun other member =>
    (invariant.jars browser other (Cookies.Jar.mem_sent.mp member).1).wellFormed
  have nodup : ((state.jar browser).sent state.now https call.path.toList).Nodup := by
    have jarNodup : (state.jar browser).Nodup :=
      (invariant.distinct browser).imp fun {first second} apart (same : first = second) =>
        apart ⟨congrArg _ same, congrArg _ same⟩
    exact (List.perm_insertionSort _ _).nodup_iff.mpr (jarNodup.filter _)
  have root := ((invariant.jars browser cookie inJar).session named).1
  have only : ((state.jar browser).sent state.now https call.path.toList).filter
      (·.name = "layerhouse_session".toList) = [cookie] := by
    refine eq_singleton_of_nodup (nodup.filter _) (List.mem_filter.mpr
      ⟨Cookies.Jar.mem_sent.mpr ⟨inJar, sent⟩, decide_eq_true named⟩) fun other member => ?_
    obtain ⟨isSent, otherNamed⟩ := List.mem_filter.mp member
    have otherInJar := (Cookies.Jar.mem_sent.mp isSent).1
    have isSession := of_decide_eq_true otherNamed
    have otherRoot := ((invariant.jars browser other otherInJar).session isSession).1
    exact (invariant.distinct browser).eq otherInJar inJar (isSession.trans named.symm)
      (otherRoot.trans root.symm)
  rw [LoginState.requestOf, extractCookies_browserHeaders others wellFormed, only]
  rfl

/-! ### Answers to other calls than callbacks -/

/-- Only the answer to a callback sets a session that lives. -/
theorem Sets.dead_session {turn : LoginTurn} {request : LoginRequest Browser} {set : SetCookie}
    (sets : Sets service turn request set) (other : ∀ query, request.call ≠ .callback query)
    (named : set.name = "layerhouse_session") : set.path = "/" ∧ set.maxAge = 0 := by
  cases sets with
  | clear cleared =>
    obtain rfl := named
    simp only [List.mem_cons, Prod.mk.injEq, List.not_mem_nil, or_false] at cleared
    rcases cleared with ⟨_, rfl⟩ | ⟨impossible, _⟩ | ⟨impossible, _⟩ | ⟨impossible, _⟩
    · exact ⟨rfl, rfl⟩
    · exact absurd impossible (by decide)
    · exact absurd impossible (by decide)
    · exact absurd impossible (by decide)
  | loggedOut => exact absurd named (by decide)
  | started called =>
    dsimp only at named
    exact absurd named (by decide)
  | session issues => exact absurd issues.call (other _)
  | hint issues =>
    dsimp only at named
    exact absurd named (by decide)

/-- Every answer on its way is the registry's answer to a request of its browser. -/
def Answered (app : LoginApp) (state : LoginState Browser) : Prop :=
  ∀ answer ∈ state.answers, ∃ turn request, request.sender = some answer.browser ∧
    request.call = answer.call ∧ answer.setCookies = app.answer turn request

/-- What a browser keeps of an answer that is not one to a callback is no session. -/
theorem Answered.dead_session (configured : app.auth = some service)
    (answered : Answered app state) {answer : LoginAnswer Browser} (sent : answer ∈ state.answers)
    (other : ∀ query, answer.call ≠ .callback query) {text : List Char}
    (listed : text ∈ answer.setCookies.filterMap HeaderValue.toStr) {now : Nat}
    {defaultPath : List Char} {cookie : Cookies.Cookie}
    (parsed : Cookies.parse now defaultPath text = some cookie)
    (named : cookie.name = "layerhouse_session".toList) : Dead now cookie := by
  obtain ⟨turn, request, _, called, same⟩ := answered answer sent
  obtain ⟨line, isLine, read⟩ := List.mem_filterMap.mp listed
  rw [same] at isLine
  obtain ⟨set, sets, rfl⟩ := answer_accounted configured isLine
  obtain rfl := Option.some.inj ((sets.parse read now defaultPath).symm.trans parsed)
  obtain ⟨_, maxAge⟩ := sets.dead_session (called ▸ other) (String.toList_inj.mp named)
  exact ⟨now + set.maxAge, rfl, by rw [maxAge, Nat.add_zero]⟩

/-! ### Signed in -/

variable [DecidableEq Browser]

/-- A browser with a session cookie that has not gone stale is signed in with every request it
makes, as the user the session was issued for, exactly until the session ends. -/
theorem signed_in_exactly_until_session_ends (configured : app.auth = some service)
    (reached : run (LoginState.step app) LoginState.initial labels = some state)
    {browser : Browser} {cookie : Cookies.Cookie} (inJar : cookie ∈ state.jar browser)
    (named : cookie.name = "layerhouse_session".toList) (fresh : ¬ Dead state.now cookie) :
    ∃ callback ∈ state.served, callback.1.sender = some browser ∧
      ∃ issued identity, Issues service callback.2 callback.1 issued ∧
        issued.session.Carries identity ∧
        ∀ https call others, (cookie.secure = true → https = true) →
          startsWith call.path "/" = true → extractBearerToken others = none →
            extractCredential (state.requestOf browser https call others).headers =
              some (.sessionCookies [cookie.value]) ∧
            ∀ data other, (service.authenticateRequest state.now data
                (.sessionCookies [cookie.value]) = .ok other ↔
              state.now < issued.session.expiresAt ∧ other = identity) := by
  have invariant := LoginInvariant.reached configured reached
  obtain ⟨root, owned⟩ := (invariant.jars browser cookie inJar).session named
  obtain ⟨expiry, dated, callback, served, sender, issued, issues, same, ends⟩ :=
    owned.resolve_left fresh
  obtain ⟨identity, carries⟩ := issues.carries
  refine ⟨callback, served, sender, issued, identity, issues, carries, ?_⟩
  intro https call others secure rooted bearerless
  have sent : cookie.Sent state.now https call.path.toList := by
    refine ⟨fun second isExpiry => ?_, secure, root ▸ pathMatches_root rooted⟩
    by_contra ended
    exact fresh ⟨second, isExpiry, Nat.not_lt.mp ended⟩
  have shown := invariant.extractCookies_session inJar named sent others
  constructor
  · have noBearer : extractBearerToken (state.requestOf browser https call others).headers =
        none := by
      rw [extractBearerToken, LoginState.requestOf, get_browserHeaders _ _ (by decide)]
      exact bearerless
    unfold extractCredential
    rw [noBearer, shown]
  · intro data other
    have decrypted := DashboardSession.decrypt_encrypt issues.encrypted
    rw [← same] at decrypted
    change authenticateSessionCookies service.codec state.now [cookie.value] "invalid session" =
      .ok other ↔ _
    rw [authenticateSessionCookies, decrypted]
    dsimp only
    by_cases expired : issued.session.expiresAt ≤ state.now
    · rw [if_pos expired, authenticateSessionCookies]
      exact iff_of_false (by rintro ⟨⟩) fun known => Nat.not_lt.mpr expired known.1
    · rw [if_neg expired, DashboardSession.identity_eq_ok.mpr carries, Except.ok.injEq]
      exact ⟨fun equal => ⟨Nat.not_le.mp expired, equal.symm⟩, fun known => known.2.symm⟩

theorem signed_in_exactly_until_session_ends_alice :
    ∃ callback ∈ (LoginState.after sampleLogin).served, callback.1.sender = some false ∧
      ∃ issued identity, Issues sampleLoginService callback.2 callback.1 issued ∧
        issued.session.Carries identity ∧
        ∀ https call others, (true = true → https = true) →
          startsWith call.path "/" = true → extractBearerToken others = none →
            extractCredential ((LoginState.after sampleLogin).requestOf false https call
              others).headers = some (.sessionCookies
                [Base64.standard.encodePadded (sampleNonce.bytes ++ sampleSessionCiphertext)]) ∧
            ∀ data other, (sampleLoginService.authenticateRequest 15 data (.sessionCookies
                [Base64.standard.encodePadded (sampleNonce.bytes ++ sampleSessionCiphertext)]) =
                .ok other ↔
              15 < issued.session.expiresAt ∧ other = identity) := by
  have reached := LoginState.after_reached (show (run (LoginState.step sampleLoginApp)
    LoginState.initial sampleLogin).isSome = true by decide +kernel)
  let cookie : Cookies.Cookie :=
    { name := "layerhouse_session".toList
      value := Base64.standard.encodePadded (sampleNonce.bytes ++ sampleSessionCiphertext)
      path := "/".toList
      expiry := some 3610
      secure := true }
  have inJar : cookie ∈ (LoginState.after sampleLogin).jar false := by decide +kernel
  have fresh : ¬ Dead (LoginState.after sampleLogin).now cookie := by
    rintro ⟨expiry, dated, ended⟩
    obtain rfl := Option.some.inj dated
    revert ended
    decide +kernel
  exact signed_in_exactly_until_session_ends rfl reached inJar rfl fresh

/-! ### The logout -/

theorem Answered.step (stepped : LoginState.step app state label = some next)
    (answered : Answered app state) : Answered app next := by
  cases label with
  | pass seconds =>
    obtain rfl := Option.some.inj stepped
    exact answered
  | send browser https call others =>
    obtain rfl := Option.some.inj stepped
    exact answered
  | inject call headers =>
    obtain rfl := Option.some.inj stepped
    exact answered
  | authorize authorization =>
    obtain rfl := Option.some.inj stepped
    exact answered
  | serve index turn =>
    obtain ⟨request, asked, given⟩ := Option.bind_eq_some_iff.mp stepped
    obtain ⟨_, same⟩ := Option.ite_none_right_eq_some.mp given
    obtain rfl := Option.some.inj same
    intro answer member
    rcases List.mem_append.mp member with before | added
    · exact answered answer before
    · unfold LoginState.answerTo at added
      split at added
      · cases added
      · rename_i browser sender
        obtain rfl := List.mem_singleton.mp added
        exact ⟨turn, request, sender, rfl, rfl⟩
  | deliver index =>
    obtain ⟨answer, sent, rfl⟩ := Option.map_eq_some_iff.mp stepped
    exact fun other member => answered other (List.mem_of_mem_eraseIdx member)

/-- The browser keeps no session that it would still send. -/
def SignedOut (state : LoginState Browser) (browser : Browser) : Prop :=
  ∀ cookie ∈ state.jar browser, cookie.name = "layerhouse_session".toList → Dead state.now cookie

/-- The browser is given no answer to a callback. -/
def NoCallback (browser : Browser) (state : LoginState Browser) : LoginLabel Browser → Prop
  | .deliver index => ∀ answer ∈ state.answers[index]?, answer.browser = browser →
    ∀ query, answer.call ≠ .callback query
  | _ => True

theorem SignedOut.step (configured : app.auth = some service) (answered : Answered app state)
    {browser : Browser} (stepped : LoginState.step app state label = some next)
    (quiet : NoCallback browser state label) (signedOut : SignedOut state browser) :
    SignedOut next browser := by
  cases label with
  | pass seconds =>
    obtain rfl := Option.some.inj stepped
    intro cookie inJar named
    obtain ⟨expiry, dated, ended⟩ := signedOut cookie inJar named
    exact ⟨expiry, dated, ended.trans (Nat.le_add_right _ _)⟩
  | send browser https call others =>
    obtain rfl := Option.some.inj stepped
    exact signedOut
  | inject call headers =>
    obtain rfl := Option.some.inj stepped
    exact signedOut
  | authorize authorization =>
    obtain rfl := Option.some.inj stepped
    exact signedOut
  | serve index turn =>
    obtain ⟨request, asked, given⟩ := Option.bind_eq_some_iff.mp stepped
    obtain ⟨_, same⟩ := Option.ite_none_right_eq_some.mp given
    obtain rfl := Option.some.inj same
    exact signedOut
  | deliver index =>
    obtain ⟨answer, sent, rfl⟩ := Option.map_eq_some_iff.mp stepped
    intro cookie inJar named
    change cookie ∈ state.received answer browser at inJar
    by_cases mine : browser = answer.browser
    · subst mine
      rw [received_self] at inJar
      rcases Cookies.Jar.mem_receive inJar with ⟨text, listed, parsed⟩ | ⟨before, _⟩
      · exact answered.dead_session configured (List.mem_of_getElem? sent)
          (quiet answer sent rfl) listed parsed named
      · exact signedOut cookie before named
    · rw [received_other state answer mine] at inJar
      exact signedOut cookie inJar named

/-- The line that takes the session away is understood. -/
theorem toStr_clearSession {flags : CookieFlags} (lax : flags.sameSite = "SameSite=Lax") :
    HeaderValue.toStr (Text.utf8 (clearSessionCookieStr flags)) =
      some (clearSessionCookieStr flags) := by
  obtain ⟨secure, sameSite⟩ := flags
  obtain rfl : sameSite = "SameSite=Lax" := lax
  cases secure with
  | false => decide +kernel
  | true => decide +kernel

/-- The answer to a logout leaves no session behind. -/
theorem signedOut_of_logout (configured : app.auth = some service)
    (invariant : LoginInvariant service state) (answered : Answered app state) {index : Nat}
    {answer : LoginAnswer Browser} (sent : state.answers[index]? = some answer)
    (logout : answer.call = .logout)
    (stepped : LoginState.step app state (.deliver index) = some next) :
    SignedOut next answer.browser := by
  have isAnswer := List.mem_of_getElem? sent
  obtain ⟨other, found, rfl⟩ := Option.map_eq_some_iff.mp stepped
  obtain rfl := Option.some.inj (sent.symm.trans found)
  intro cookie inJar named
  change cookie ∈ state.received answer answer.browser at inJar
  rw [received_self] at inJar
  rcases Cookies.Jar.mem_receive inJar with ⟨text, listed, parsed⟩ | ⟨before, kept⟩
  · exact answered.dead_session configured isAnswer (by rw [logout]; rintro query ⟨⟩) listed parsed
      named
  · -- A session that was there before has the name and the path of the one taken away.
    obtain ⟨turn, request, _, called, same⟩ := answered answer isAnswer
    have lax := cookieSecureFlag_sameSite request.headers app.cookieSecureMode app.serverTlsEnabled
    have clears : clearSessionCookieStr (app.flags request.headers) ∈
        answer.setCookies.filterMap HeaderValue.toStr := by
      refine List.mem_filterMap.mpr ⟨_, ?_, toStr_clearSession lax⟩
      rw [same, LoginApp.answer, called, logout]
      exact List.mem_append_left _ List.mem_cons_self
    have sets : Sets service turn request ⟨"layerhouse_session", [], "/", 0⟩ :=
      .clear (by decide)
    have parsed := sets.parse (toStr_clearSession lax) state.now
      (defaultCookiePath answer.call.path)
    have root := ((invariant.jars answer.browser cookie before).session named).1
    exact absurd ⟨named, root⟩ (kept _ clears _ parsed)

/-- From the answer to a logout on, until the answer to a callback, the requests of the browser
show no session, and pass the middleware as nobody's. -/
theorem logged_out_until_next_callback (configured : app.auth = some service)
    (reached : run (LoginState.step app) LoginState.initial labels = some state) {index : Nat}
    {answer : LoginAnswer Browser} (sent : state.answers[index]? = some answer)
    (logout : answer.call = .logout)
    (delivered : LoginState.step app state (.deliver index) = some next)
    {more : List (LoginLabel Browser)} {after : LoginState Browser}
    (continued : run (LoginState.step app) next more = some after)
    (quiet : Along (LoginState.step app) (NoCallback answer.browser) next more) (https : Bool)
    (call : LoginCall) {others : HeaderMap} (bearerless : extractBearerToken others = none) :
    extractCookies (after.requestOf answer.browser https call others).headers
        "layerhouse_session" = [] ∧
      ∀ reads method path query identity access,
        app.authMiddleware reads ((after.requestOf answer.browser https call others).visited
          method path query) ≠ .next (some identity) access := by
  have invariants (labels : List (LoginLabel Browser)) {first last : LoginState Browser}
      (start : LoginInvariant service first ∧ Answered app first)
      (steps : run (LoginState.step app) first labels = some last) :
      LoginInvariant service last ∧ Answered app last :=
    run_invariant (fun state => LoginInvariant service state ∧ Answered app state)
      (fun _ _ _ stepped known => ⟨known.1.step configured stepped, known.2.step stepped⟩) steps
      start
  have before := invariants labels
    ⟨.initial, fun _ impossible => absurd impossible List.not_mem_nil⟩ reached
  have middle := And.intro (before.1.step configured delivered) (before.2.step delivered)
  have final := invariants more middle continued
  have signedOut : Answered app after ∧ SignedOut after answer.browser :=
    run_invariant_along (fun state => Answered app state ∧ SignedOut state answer.browser)
      (fun _ _ _ stepped quiet known =>
        ⟨known.1.step stepped, known.2.step configured known.1 stepped quiet⟩)
      continued quiet
      ⟨middle.2, signedOut_of_logout configured before.1 before.2 sent logout delivered⟩
  have wellFormed : ∀ cookie ∈ (after.jar answer.browser).sent after.now https call.path.toList,
      cookie.WellFormed := fun cookie member =>
    (final.1.jars answer.browser cookie (Cookies.Jar.mem_sent.mp member).1).wellFormed
  have empty : extractCookies (after.requestOf answer.browser https call others).headers
      "layerhouse_session" = [] := by
    rw [LoginState.requestOf, extractCookies_browserHeaders others wellFormed,
      List.map_eq_nil_iff, List.filter_eq_nil_iff]
    intro cookie member named
    obtain ⟨inJar, isSent⟩ := Cookies.Jar.mem_sent.mp member
    exact not_dead_of_sent isSent (signedOut.2 cookie inJar (of_decide_eq_true named))
  refine ⟨empty, fun reads method path query identity access passed => ?_⟩
  have noBearer : extractBearerToken
      (after.requestOf answer.browser https call others).headers = none := by
    rw [extractBearerToken, LoginState.requestOf, get_browserHeaders _ _ (by decide)]
    exact bearerless
  have authenticated := (authMiddleware_identity configured passed).bySession noBearer
  change authenticateSessionCookies service.codec reads.now (extractCookies
    (after.requestOf answer.browser https call others).headers "layerhouse_session")
    "invalid session" = .ok identity at authenticated
  rw [empty] at authenticated
  cases authenticated

/-- The browser of the sample login logs out. -/
def sampleLogout : List (LoginLabel Bool) :=
  sampleLogin ++ [.send false true .logout [], .serve 2 (sampleTurn 15)]

theorem logged_out_until_next_callback_alice :
    extractCookies ((LoginState.after (sampleLogout ++ [.deliver 0] ++ [.pass 1])).requestOf false
        true (.visit .get "/" none) []).headers "layerhouse_session" = [] ∧
      ∀ reads method path query identity access,
        sampleLoginApp.authMiddleware reads ((LoginState.after (sampleLogout ++ [.deliver 0] ++
            [.pass 1])).requestOf false true (.visit .get "/" none) [] |>.visited method path
              query) ≠ .next (some identity) access := by
  have reached := LoginState.after_reached (show (run (LoginState.step sampleLoginApp)
    LoginState.initial sampleLogout).isSome = true by decide +kernel)
  have delivered := LoginState.after_step (show (run (LoginState.step sampleLoginApp)
    LoginState.initial (sampleLogout ++ [.deliver 0])).isSome = true by decide +kernel)
  have passed := LoginState.after_step (show (run (LoginState.step sampleLoginApp)
    LoginState.initial (sampleLogout ++ [.deliver 0] ++ [.pass 1])).isSome = true by
      decide +kernel)
  obtain ⟨answer, sent, browser, logout⟩ : ∃ answer,
      (LoginState.after sampleLogout).answers[0]? = some answer ∧ answer.browser = false ∧
        answer.call = .logout :=
    ⟨(LoginState.after sampleLogout).answers.get ⟨0, by decide +kernel⟩, List.getElem?_eq_getElem _,
      by decide +kernel, by decide +kernel⟩
  have quiet : Along (LoginState.step sampleLoginApp) (NoCallback answer.browser)
      (LoginState.after (sampleLogout ++ [.deliver 0])) [.pass 1] := ⟨trivial, fun _ _ => trivial⟩
  rw [← browser]
  exact logged_out_until_next_callback rfl reached sent logout delivered
    (run_cons_eq_some.mpr ⟨_, passed, rfl⟩) quiet true (.visit .get "/" none) rfl

end Layerhouse
