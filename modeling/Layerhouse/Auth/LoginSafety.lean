/-
This file proves what the login promises. A session in the hands of a browser was
issued to this browser, for the tokens of a code that was authorized with the
challenge of a login the same browser began; so nobody is signed in with a code of
somebody else. Whoever presents it, a session is in force only until its tokens and
one hour are over. A browser that was handed a session is signed in by it until
then, and a browser that has logged out presents no session until it is handed a
new one.
-/

import Layerhouse.Auth.LoginRuns

namespace Layerhouse

variable {Browser : Type} {service : LoginService} {app : LoginApp}

/-! ### Who cookies belong to -/

abbrev LoginHistory (Browser : Type) := List (LoginRequest Browser × LoginTurn)

/-- The state and the verifier were handed to the browser when it began a login. -/
def StartedBy (served : LoginHistory Browser) (browser : Browser) (value : List Char) : Prop :=
  ∃ start ∈ served, start.1.sender = some browser ∧ start.1.call = .start ∧
    value = start.2.state ++ '.' :: start.2.codeVerifier

/-- The session was issued to the browser and ends by a second. -/
def IssuedTo (service : LoginService) (served : LoginHistory Browser) (browser : Browser)
    (value : List Char) (expiry : Nat) : Prop :=
  ∃ callback ∈ served, callback.1.sender = some browser ∧
    ∃ issued, Issues service callback.2 callback.1 issued ∧ value = issued.encrypted ∧
      issued.session.expiresAt ≤ expiry

/-- The cookie is not sent any more. -/
def Dead (now : Nat) (cookie : Cookies.Cookie) : Prop :=
  ∃ expiry, cookie.expiry = some expiry ∧ expiry ≤ now

structure Owned (service : LoginService) (served : LoginHistory Browser) (now : Nat)
    (browser : Browser) (cookie : Cookies.Cookie) : Prop where
  wellFormed : cookie.WellFormed
  oauth2 : cookie.name = "layerhouse_oauth2".toList →
    Dead now cookie ∨ StartedBy served browser cookie.value
  session : cookie.name = "layerhouse_session".toList → cookie.path = "/".toList ∧
    (Dead now cookie ∨ ∃ expiry, cookie.expiry = some expiry ∧
      IssuedTo service served browser cookie.value expiry)

/-- Whenever the browser reads the line, it gets a cookie of its own. -/
def LineOwned (service : LoginService) (served : LoginHistory Browser) (now : Nat)
    (browser : Browser) (line : HeaderValue) : Prop :=
  ∀ text, HeaderValue.toStr line = some text → ∀ later, now ≤ later → ∀ defaultPath cookie,
    Cookies.parse later defaultPath text = some cookie →
      Owned service served later browser cookie

/-- The headers show the registry only cookies of the browser. -/
structure HeadersOwned (service : LoginService) (served : LoginHistory Browser)
    (browser : Browser) (headers : HeaderMap) : Prop where
  oauth2 : ∀ value ∈ extractCookies headers "layerhouse_oauth2", StartedBy served browser value
  session : ∀ value ∈ extractCookies headers "layerhouse_session",
    ∃ expiry, IssuedTo service served browser value expiry

section

variable {served more : LoginHistory Browser} {now later : Nat} {browser : Browser}
  {cookie : Cookies.Cookie}

theorem StartedBy.mono {value : List Char} (started : StartedBy served browser value)
    (grown : served ⊆ more) : StartedBy more browser value := by
  obtain ⟨start, member, known⟩ := started
  exact ⟨start, grown member, known⟩

theorem IssuedTo.mono {value : List Char} {expiry : Nat}
    (issued : IssuedTo service served browser value expiry) (grown : served ⊆ more) :
    IssuedTo service more browser value expiry := by
  obtain ⟨callback, member, known⟩ := issued
  exact ⟨callback, grown member, known⟩

theorem Owned.mono (owned : Owned service served now browser cookie) (grown : served ⊆ more)
    (passed : now ≤ later) : Owned service more later browser cookie := by
  have dead : Dead now cookie → Dead later cookie := by
    rintro ⟨expiry, dated, ended⟩
    exact ⟨expiry, dated, ended.trans passed⟩
  refine ⟨owned.wellFormed, fun named => (owned.oauth2 named).imp dead (·.mono grown),
    fun named => ⟨(owned.session named).1, (owned.session named).2.imp dead ?_⟩⟩
  rintro ⟨expiry, dated, issued⟩
  exact ⟨expiry, dated, issued.mono grown⟩

theorem LineOwned.mono {line : HeaderValue} (owned : LineOwned service served now browser line)
    (grown : served ⊆ more) (passed : now ≤ later) :
    LineOwned service more later browser line :=
  fun text read after since defaultPath cookie parsed =>
    (owned text read after (passed.trans since) defaultPath cookie parsed).mono grown le_rfl

theorem HeadersOwned.mono {headers : HeaderMap}
    (owned : HeadersOwned service served browser headers) (grown : served ⊆ more) :
    HeadersOwned service more browser headers := by
  refine ⟨fun value member => (owned.oauth2 value member).mono grown, fun value member => ?_⟩
  obtain ⟨expiry, issued⟩ := owned.session value member
  exact ⟨expiry, issued.mono grown⟩

/-- A cookie that is sent is not dead. -/
theorem not_dead_of_sent {https : Bool} {requested : List Char}
    (sent : cookie.Sent now https requested) : ¬ Dead now cookie := by
  rintro ⟨expiry, dated, ended⟩
  exact absurd (sent.live expiry dated) (Nat.not_lt.mpr ended)

/-- What an answer sets belongs to the browser that asked. -/
theorem Accounted.owned {request : LoginRequest Browser} {turn : LoginTurn} {line : HeaderValue}
    (accounted : Accounted service turn request (app.flags request.headers) line)
    (answered : (request, turn) ∈ served) (sender : request.sender = some browser)
    (timely : turn.clock.session ≤ now) : LineOwned service served now browser line := by
  intro text read later since defaultPath cookie parsed
  obtain ⟨set, sets, rfl⟩ := accounted
  obtain rfl := Option.some.inj ((sets.parse read later defaultPath).symm.trans parsed)
  have wellFormed := (sets.wellFormed (some (later + set.maxAge))
    (app.flags request.headers).secure).1
  have other {name : String} (different : name ≠ "layerhouse_session")
      (known : name.toList = "layerhouse_session".toList) : False :=
    different (String.toList_inj.mp known)
  have otherState {name : String} (different : name ≠ "layerhouse_oauth2")
      (known : name.toList = "layerhouse_oauth2".toList) : False :=
    different (String.toList_inj.mp known)
  cases sets with
  | @clear name path cleared =>
    have dead : Dead later
        { name := name.toList
          value := []
          path := path.toList
          expiry := some (later + 0)
          secure := (app.flags request.headers).secure } := ⟨later, rfl, le_rfl⟩
    refine ⟨wellFormed, fun _ => Or.inl dead, fun named => ⟨?_, Or.inl dead⟩⟩
    have isSession : name = "layerhouse_session" := String.toList_inj.mp named
    subst isSession
    simp only [List.mem_cons, Prod.mk.injEq, List.not_mem_nil, or_false] at cleared
    rcases cleared with ⟨_, rfl⟩ | ⟨impossible, _⟩ | ⟨impossible, _⟩ | ⟨impossible, _⟩
    · rfl
    · exact absurd impossible (by decide)
    · exact absurd impossible (by decide)
    · exact absurd impossible (by decide)
  | loggedOut =>
    have named : "layerhouse_logged_out" ≠ "layerhouse_session" ∧
      "layerhouse_logged_out" ≠ "layerhouse_oauth2" := by decide
    exact ⟨wellFormed, fun known => (otherState named.2 known).elim,
      fun known => (other named.1 known).elim⟩
  | started called =>
    have named : "layerhouse_oauth2" ≠ "layerhouse_session" := by decide
    refine ⟨wellFormed, fun _ => Or.inr ⟨(request, turn), answered, sender, called, rfl⟩,
      fun known => ?_⟩
    dsimp only at known
    exact (other named known).elim
  | @session issued issues =>
    have named : "layerhouse_session" ≠ "layerhouse_oauth2" := by decide
    have ends : issued.session.expiresAt ≤
        later + issued.login.sessionMaxAge turn.clock.session := by
      rw [issues.session]
      exact Nat.add_le_add_right (timely.trans since) _
    refine ⟨wellFormed, fun known => ?_, fun _ => ?_⟩
    · dsimp only at known
      exact (otherState named known).elim
    dsimp only
    exact ⟨rfl, Or.inr ⟨_, rfl, (request, turn), answered, sender, issued, issues, rfl, ends⟩⟩
  | hint issues =>
    have named : "layerhouse_logout_hint" ≠ "layerhouse_session" ∧
      "layerhouse_logout_hint" ≠ "layerhouse_oauth2" := by decide
    refine ⟨wellFormed, fun known => ?_, fun known => ?_⟩
    · dsimp only at known
      exact (otherState named.2 known).elim
    · dsimp only at known
      exact (other named.1 known).elim

/-! ### What browsers send -/

theorem getAll_browserHeaders (cookies : List Cookies.Cookie) (others : HeaderMap) :
    (browserHeaders cookies others).getAll "cookie" =
      if cookies = [] then [] else [Text.utf8 (Cookies.header cookies)] := by
  have none : (others.filter (·.1 ≠ "cookie")).filter (·.1 = "cookie") = [] := by
    refine List.filter_eq_nil_iff.mpr fun entry member same => ?_
    exact of_decide_eq_true (List.mem_filter.mp member).2 (of_decide_eq_true same)
  rw [HeaderMap.getAll, browserHeaders, List.filter_append, none, List.append_nil]
  split
  · rfl
  · rfl

/-- The registry reads from a browser's request the cookies it sent. -/
theorem extractCookies_browserHeaders {cookies : List Cookies.Cookie} (others : HeaderMap)
    (wellFormed : ∀ cookie ∈ cookies, cookie.WellFormed) (name : String) :
    extractCookies (browserHeaders cookies others) name =
      (cookies.filter (·.name = name.toList)).map (·.value) := by
  cases cookies with
  | nil =>
    rw [extractCookies, getAll_browserHeaders, if_pos rfl]
    rfl
  | cons first rest =>
    refine extractCookies_header wellFormed ?_ name
    rw [getAll_browserHeaders, if_neg (List.cons_ne_nil first rest)]

theorem headersOwned_browserHeaders {jar : Cookies.Jar} {https : Bool} {requested : List Char}
    (others : HeaderMap) (owned : ∀ cookie ∈ jar, Owned service served now browser cookie) :
    HeadersOwned service served browser
      (browserHeaders (jar.sent now https requested) others) := by
  have wellFormed : ∀ cookie ∈ jar.sent now https requested, cookie.WellFormed :=
    fun cookie member => (owned cookie (Cookies.Jar.mem_sent.mp member).1).wellFormed
  constructor
  · intro value member
    rw [extractCookies_browserHeaders others wellFormed] at member
    obtain ⟨cookie, listed, rfl⟩ := List.mem_map.mp member
    obtain ⟨isSent, named⟩ := List.mem_filter.mp listed
    obtain ⟨inJar, sent⟩ := Cookies.Jar.mem_sent.mp isSent
    exact ((owned cookie inJar).oauth2 (of_decide_eq_true named)).resolve_left
      (not_dead_of_sent sent)
  · intro value member
    rw [extractCookies_browserHeaders others wellFormed] at member
    obtain ⟨cookie, listed, rfl⟩ := List.mem_map.mp member
    obtain ⟨isSent, named⟩ := List.mem_filter.mp listed
    obtain ⟨inJar, sent⟩ := Cookies.Jar.mem_sent.mp isSent
    obtain ⟨expiry, _, issued⟩ := ((owned cookie inJar).session
      (of_decide_eq_true named)).2.resolve_left (not_dead_of_sent sent)
    exact ⟨expiry, issued⟩

end

/-! ### The invariant -/

section

structure LoginInvariant (service : LoginService) (state : LoginState Browser) : Prop where
  jars : ∀ browser, ∀ cookie ∈ state.jar browser,
    Owned service state.served state.now browser cookie
  distinct : ∀ browser, (state.jar browser).Distinct
  requests : ∀ request ∈ state.requests, ∀ browser, request.sender = some browser →
    HeadersOwned service state.served browser request.headers
  answers : ∀ answer ∈ state.answers, ∀ line ∈ answer.setCookies,
    LineOwned service state.served state.now answer.browser line
  served : ∀ entry ∈ state.served, ∀ browser, entry.1.sender = some browser →
    HeadersOwned service state.served browser entry.1.headers
  timely : ∀ entry ∈ state.served, ∃ second ≤ state.now, LoginState.TimelyTurn second entry.2

theorem LoginInvariant.initial :
    LoginInvariant service (LoginState.initial : LoginState Browser) where
  jars := fun _ _ impossible => absurd impossible List.not_mem_nil
  distinct := fun _ => List.Pairwise.nil
  requests := fun _ impossible => absurd impossible List.not_mem_nil
  answers := fun _ impossible => absurd impossible List.not_mem_nil
  served := fun _ impossible => absurd impossible List.not_mem_nil
  timely := fun _ impossible => absurd impossible List.not_mem_nil

variable {state next : LoginState Browser} {label : LoginLabel Browser}

/-- A request is answered: the answer belongs to the browser that sent the request. -/
theorem LoginInvariant.serve (configured : app.auth = some service)
    (invariant : LoginInvariant service state) {index : Nat} {turn : LoginTurn}
    {request : LoginRequest Browser} (asked : state.requests[index]? = some request)
    (timely : LoginState.TimelyTurn state.now turn) :
    LoginInvariant service
      { state with
        requests := state.requests.eraseIdx index
        answers := state.answers ++ LoginState.answerTo app request turn
        served := state.served ++ [(request, turn)] } := by
  have grown : state.served ⊆ state.served ++ [(request, turn)] :=
    List.subset_append_left _ _
  have isRequest := List.mem_of_getElem? asked
  exact
    { jars := fun browser cookie member =>
        (invariant.jars browser cookie member).mono grown le_rfl
      distinct := invariant.distinct
      requests := fun other member browser sender =>
        (invariant.requests other (List.mem_of_mem_eraseIdx member) browser sender).mono grown
      answers := by
        intro answer member line isLine
        rcases List.mem_append.mp member with before | given
        · exact (invariant.answers answer before line isLine).mono grown le_rfl
        · unfold LoginState.answerTo at given
          split at given
          · cases given
          · rename_i browser sender
            obtain rfl := List.mem_singleton.mp given
            exact (answer_accounted configured isLine).owned
              (List.mem_append_right _ List.mem_cons_self) sender timely.2.2.1.le
      served := by
        intro entry member browser sender
        rcases List.mem_append.mp member with before | added
        · exact (invariant.served entry before browser sender).mono grown
        · obtain rfl := List.mem_singleton.mp added
          exact (invariant.requests request isRequest browser sender).mono grown
      timely := by
        intro entry member
        rcases List.mem_append.mp member with before | added
        · exact invariant.timely entry before
        · obtain rfl := List.mem_singleton.mp added
          exact ⟨state.now, le_rfl, timely⟩ }

variable [DecidableEq Browser]

theorem received_self (state : LoginState Browser) (answer : LoginAnswer Browser) :
    state.received answer answer.browser =
      (state.jar answer.browser).receive state.now (defaultCookiePath answer.call.path)
        (answer.setCookies.filterMap HeaderValue.toStr) :=
  Function.update_self _ _ _

theorem received_other (state : LoginState Browser) (answer : LoginAnswer Browser)
    {browser : Browser} (different : browser ≠ answer.browser) :
    state.received answer browser = state.jar browser :=
  Function.update_of_ne different _ _

/-- An answer arrives: what it sets is the browser's own, and so is what it leaves. -/
theorem LoginInvariant.deliver (invariant : LoginInvariant service state) {index : Nat}
    {answer : LoginAnswer Browser} (sent : state.answers[index]? = some answer) :
    LoginInvariant service
      { state with
        jar := state.received answer
        answers := state.answers.eraseIdx index } where
  jars := by
    intro browser cookie member
    change cookie ∈ state.received answer browser at member
    by_cases same : browser = answer.browser
    · subst same
      rw [received_self] at member
      rcases Cookies.Jar.mem_receive member with ⟨text, listed, parsed⟩ | ⟨before, _⟩
      · obtain ⟨line, isLine, read⟩ := List.mem_filterMap.mp listed
        exact invariant.answers answer (List.mem_of_getElem? sent) line isLine text read state.now
          le_rfl _ cookie parsed
      · exact invariant.jars answer.browser cookie before
    · rw [received_other state answer same] at member
      exact invariant.jars browser cookie member
  distinct := by
    intro browser
    change (state.received answer browser).Distinct
    by_cases same : browser = answer.browser
    · subst same
      rw [received_self]
      exact (invariant.distinct answer.browser).receive _
    · rw [received_other state answer same]
      exact invariant.distinct browser
  requests := invariant.requests
  answers := fun other member => invariant.answers other (List.mem_of_mem_eraseIdx member)
  served := invariant.served
  timely := invariant.timely

theorem LoginInvariant.step (configured : app.auth = some service)
    (stepped : LoginState.step app state label = some next)
    (invariant : LoginInvariant service state) : LoginInvariant service next := by
  cases label with
  | pass seconds =>
    obtain rfl := Option.some.inj stepped
    have passed : state.now ≤ state.now + seconds := Nat.le_add_right _ _
    exact
      { jars := fun browser cookie member =>
          (invariant.jars browser cookie member).mono (List.Subset.refl _) passed
        distinct := invariant.distinct
        requests := invariant.requests
        answers := fun answer member line isLine =>
          (invariant.answers answer member line isLine).mono (List.Subset.refl _) passed
        served := invariant.served
        timely := fun entry member =>
          have ⟨second, before, timely⟩ := invariant.timely entry member
          ⟨second, before.trans passed, timely⟩ }
  | send browser https call others =>
    obtain rfl := Option.some.inj stepped
    refine { invariant with requests := fun request member other sender => ?_ }
    rcases List.mem_append.mp member with before | added
    · exact invariant.requests request before other sender
    · obtain rfl := List.mem_singleton.mp added
      obtain rfl := Option.some.inj sender
      exact headersOwned_browserHeaders others (invariant.jars browser)
  | inject call headers =>
    obtain rfl := Option.some.inj stepped
    refine { invariant with requests := fun request member other sender => ?_ }
    rcases List.mem_append.mp member with before | added
    · exact invariant.requests request before other sender
    · obtain rfl := List.mem_singleton.mp added
      cases sender
  | authorize authorization =>
    obtain rfl := Option.some.inj stepped
    exact { invariant with }
  | serve index turn =>
    obtain ⟨request, asked, answered⟩ := Option.bind_eq_some_iff.mp stepped
    obtain ⟨timely, same⟩ := Option.ite_none_right_eq_some.mp answered
    obtain rfl := Option.some.inj same
    exact invariant.serve configured asked timely
  | deliver index =>
    obtain ⟨answer, sent, rfl⟩ := Option.map_eq_some_iff.mp stepped
    exact invariant.deliver sent

theorem LoginInvariant.reached (configured : app.auth = some service)
    {labels : List (LoginLabel Browser)}
    (run : run (LoginState.step app) LoginState.initial labels = some state) :
    LoginInvariant service state :=
  run_invariant (LoginInvariant service)
    (fun _ _ _ stepped invariant => invariant.step configured stepped) run .initial

end

end Layerhouse
