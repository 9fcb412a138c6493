/-
This file settles how long the bearers live that descend from a personal access
token. The token endpoint takes any credential that validation accepts, a bearer
it minted earlier among them, and mints a bearer for an hour from it. Once a token
has ended, no call with the token itself is accepted; but a call that presents a
bearer of the chain is, and its bearer outlives the token by more than an hour.

The system is a chain of calls in flight, answered in any order, interleaved with
the clock and with committed requests of any kind. A bearer is dead an hour and
the leeway after the end of its token exactly when it was minted by that end, so
the bound holds in a run exactly when no call is answered after the end, calls
that present the ended token apart, of which there are none.
-/

import Layerhouse.Raft.Effects
import Layerhouse.Auth.Token

namespace Layerhouse

/-! ### The JWT library -/

/-- What the service relies on: a minted token decodes to its claims until its expiry and the
leeway have passed, its header has no key id, and it does not look like a personal access
token. -/
structure Jwt.Lawful (jwt : Jwt) : Prop where
  decode_encode : ∀ {claims : TokenClaims} {token : String}, jwt.encode claims = .ok token →
    claims.aud = none → ∀ now,
      jwt.decode now token = if now ≤ claims.exp + jwt.leeway then some claims else none
  decodeHeader_encode : ∀ {claims : TokenClaims} {token : String},
    jwt.encode claims = .ok token → jwt.decodeHeader token = some none
  stripPrefix_encode : ∀ {claims : TokenClaims} {token : String},
    jwt.encode claims = .ok token → Text.stripPrefix "layerhouse-".toList token.toList = none

/-! ### Validation -/

namespace TokenService

/-- The subject of an accepted credential has a principal. -/
theorem userPrincipal_of_identityOfClaims {service : TokenService} {claims : TokenClaims}
    {groups scopes : List String} {epochs : List NamespaceEpoch} {tokenType : TokenType}
    {identity : AuthIdentity}
    (made : service.identityOfClaims claims groups scopes epochs tokenType = .ok identity) :
    service.userPrincipal identity.subject = .ok identity.principal := by
  rw [identityOfClaims] at made
  cases named : service.userPrincipal claims.subject with
  | error error =>
    rw [named] at made
    cases made
  | ok principal =>
    rw [named] at made
    cases made
    exact named

theorem validatePat_eq_ok {service : TokenService} {now : Nat} {data : StateMachineData}
    {token : String} {identity : AuthIdentity}
    (accepted : service.validatePat now data token = .ok identity) :
    ∃ (id : String) (pat : PersonalAccessToken), data.personalAccessTokens[id]? = some pat ∧
      pat.tokenHash = service.tokenHash token ∧ (∀ expiry, pat.expiresAt = some expiry →
        now ≤ expiry) ∧ service.userPrincipal identity.subject = .ok identity.principal := by
  rw [validatePat, getPersonalAccessTokenByHash] at accepted
  cases found : data.personalAccessTokens.toList.find?
      (·.2.tokenHash = service.tokenHash token) with
  | none =>
    rw [found] at accepted
    cases accepted
  | some entry =>
    obtain ⟨id, pat⟩ := entry
    have sameHash : pat.tokenHash = service.tokenHash token := by
      simpa using List.find?_some found
    refine ⟨id, pat, (BTreeMap.mem_toList _ _ _).mp (List.mem_of_find?_eq_some found), sameHash, ?_⟩
    rw [found] at accepted
    simp only [Option.map_some] at accepted
    split at accepted
    · cases accepted
    · rename_i unexpired
      constructor
      · intro expiry expires
        simpa [expires] using unexpired
      · cases named : service.userPrincipal pat.subject with
        | error error =>
          rw [named] at accepted
          cases accepted
        | ok principal =>
          rw [named] at accepted
          cases accepted
          exact named

theorem userPrincipal_of_validateToken {service : TokenService} {now : Nat}
    {data : StateMachineData} {token : String} {identity : AuthIdentity}
    (accepted : service.validateToken now data token = .ok identity) :
    service.userPrincipal identity.subject = .ok identity.principal := by
  rw [validateToken] at accepted
  split at accepted
  · obtain ⟨id, pat, found, sameHash, unexpired, named⟩ := validatePat_eq_ok accepted
    exact named
  · split at accepted
    · rename_i other decoded
      cases accepted
      rw [validateOciToken] at decoded
      split at decoded
      · cases decoded
      · exact userPrincipal_of_identityOfClaims decoded
    · rw [validateOidcToken] at accepted
      split at accepted
      · cases accepted
      · exact userPrincipal_of_identityOfClaims accepted

/-- A token that the service minted, with the claims it was minted from. -/
structure Minted (service : TokenService) (token : String) (claims : TokenClaims) : Prop where
  encoded : service.jwt.encode claims = .ok token
  audienceless : claims.aud = none
  principal : ∃ principal, service.userPrincipal claims.subject = .ok principal

/-- A minted bearer is accepted exactly until its expiry and the leeway have passed, whatever
the store holds. -/
theorem Minted.validateToken_iff {service : TokenService} (lawful : service.jwt.Lawful)
    {token : String} {claims : TokenClaims} (minted : service.Minted token claims) (now : Nat)
    (data : StateMachineData) :
    (∃ identity, service.validateToken now data token = .ok identity) ↔
      now ≤ claims.exp + service.jwt.leeway := by
  have decoded := lawful.decode_encode minted.encoded minted.audienceless now
  rw [validateToken, lawful.stripPrefix_encode minted.encoded, validateOciToken, decoded]
  by_cases alive : now ≤ claims.exp + service.jwt.leeway
  · obtain ⟨principal, named⟩ := minted.principal
    simp [alive, identityOfClaims, named]
  · have refused : service.validateOidcToken now token =
        .error (unauthorized "token missing kid") := by
      rw [validateOidcToken, verifyTokenClaims, lawful.decodeHeader_encode minted.encoded]
    simp [alive, refused]

/-- The identity of an accepted bearer is the one of its claims. -/
theorem Minted.identityOfClaims_eq {service : TokenService} (lawful : service.jwt.Lawful)
    {token : String} {claims : TokenClaims} (minted : service.Minted token claims) {now : Nat}
    {data : StateMachineData} {bearer : AuthIdentity}
    (accepted : service.validateToken now data token = .ok bearer) :
    service.identityOfClaims claims (claims.groups.getD [])
      ((claims.scope.map fun scope => (scope.toList.splitOn ' ').map String.ofList).getD [])
      claims.namespaceEpochs .ociBearer = .ok bearer := by
  have alive := (minted.validateToken_iff lawful now data).mp ⟨bearer, accepted⟩
  have decoded := lawful.decode_encode minted.encoded minted.audienceless now
  rw [if_pos alive] at decoded
  rw [validateToken, lawful.stripPrefix_encode minted.encoded, validateOciToken,
    decoded] at accepted
  simp only [Option.isSome_none, Bool.false_eq_true, if_false] at accepted
  obtain ⟨principal, named⟩ := minted.principal
  rw [identityOfClaims, named] at accepted ⊢
  exact accepted

/-- The claims that a bearer is minted from. -/
def bearerClaims (now : Nat) (identity : AuthIdentity) (scopes : String)
    (namespaceEpochs : List NamespaceEpoch) : TokenClaims where
  subject := identity.subject
  exp := now + 3600
  aud := none
  groups := some identity.groups
  name := identity.displayName
  preferredUsername := identity.username
  email := identity.email
  scope := some scopes
  namespaceEpochs := namespaceEpochs
  tokenType := some "oci_bearer"
  iat := some now
  iss := some "layerhouse"

theorem mintOciToken_claims {service : TokenService} {now : Nat} {identity : AuthIdentity}
    {scopes : String} {namespaceEpochs : List NamespaceEpoch} {token : String}
    (minted : service.mintOciToken now identity scopes namespaceEpochs = .ok token) :
    service.jwt.encode (bearerClaims now identity scopes namespaceEpochs) = .ok token := by
  rw [mintOciToken] at minted
  split at minted
  · rename_i encodedToken encoded
    cases minted
    exact encoded
  · cases minted

/-- An answered call minted its bearer from the scopes it granted. -/
theorem issueToken_claims {service : TokenService} {now : Nat} {data : StateMachineData}
    {identity : AuthIdentity} {query : TokenQuery} {issued : IssuedToken}
    (answered : service.issueToken now data identity query = .ok issued) :
    ∃ granted epochs,
      service.grantScopes data identity (query.scope.flatMap fun scope =>
        (Text.splitWhitespace scope.toList).map String.ofList) ([], []) = .ok (granted, epochs) ∧
      service.jwt.encode (bearerClaims now identity (" ".intercalate granted) epochs) =
        .ok issued.token := by
  rw [issueToken] at answered
  split at answered
  · cases answered
  · rename_i scopes epochs granted
    refine ⟨scopes, epochs, granted, ?_⟩
    cases minted : service.mintOciToken now identity (" ".intercalate scopes) epochs with
    | error error =>
      rw [minted] at answered
      cases answered
    | ok token =>
      rw [minted] at answered
      cases answered
      exact mintOciToken_claims minted

/-- An answered call minted its bearer at the time of the answer. -/
theorem issueToken_eq_ok {service : TokenService} {now : Nat} {data : StateMachineData}
    {identity : AuthIdentity} {query : TokenQuery} {issued : IssuedToken}
    (answered : service.issueToken now data identity query = .ok issued)
    (named : service.userPrincipal identity.subject = .ok identity.principal) :
    ∃ claims, service.Minted issued.token claims ∧ claims.exp = now + 3600 := by
  obtain ⟨granted, epochs, _, encoded⟩ := issueToken_claims answered
  exact ⟨_, ⟨encoded, rfl, _, named⟩, rfl⟩

end TokenService

/-! ### Chains of calls -/

/-- A call of the token endpoint whose credential was accepted. -/
structure TokenCall where
  presented : String
  acceptedAt : Nat
  identity : AuthIdentity
  query : TokenQuery

/-- A bearer, with the call it answered and the time it was minted. -/
structure Bearer where
  call : TokenCall
  mintedAt : Nat
  token : String

/-- The state around a chain: the store, the clock, the calls in flight, the bearers obtained,
and when the source token was first deleted. -/
structure Chain where
  data : StateMachineData
  now : Nat
  calls : List TokenCall
  bearers : List Bearer
  revokedAt : Option Nat

inductive ChainLabel where
  | tick (seconds : Nat)
  | commit (request : Request)
  | present (credential : String) (query : TokenQuery)
  | answer (index : Nat)

/-- The request stores a token with the given hash. -/
def storesHash (hash : String) : Request → Bool
  | .token (.putPersonalAccessToken token) => token.tokenHash = hash
  | _ => false

/-- The request deleted the token, as `revoke_token` has it deleted. -/
def revokes (id : String) : Request → Response → Bool
  | .token (.deletePersonalAccessToken other _), .token (.bool deleted) => other = id ∧ deleted
  | _, _ => false

/-- One step around a chain. A call is in flight once its credential was accepted, and leaves
it with a bearer; a call that ends in an error leaves no trace here. Commits of every request are
steps, but for a second token with the hash of the source: `create_token` draws tokens at
random. -/
def chainStep (service : TokenService) (externals : Externals) (source : PersonalAccessToken)
    (chain : Chain) : ChainLabel → Option Chain
  | .tick seconds => some { chain with now := chain.now + seconds }
  | .commit request =>
    if storesHash source.tokenHash request then none
    else
      match applyRequest externals chain.now chain.data request with
      | .error _ => none
      | .ok (next, response) =>
        some { chain with
          data := next
          revokedAt :=
            if revokes source.id request response then some (chain.revokedAt.getD chain.now)
            else chain.revokedAt }
  | .present credential query =>
    match service.validateToken chain.now chain.data credential with
    | .error _ => none
    | .ok identity =>
      some { chain with calls := ⟨credential, chain.now, identity, query⟩ :: chain.calls }
  | .answer index =>
    match chain.calls[index]? with
    | none => none
    | some call =>
      match service.issueToken chain.now chain.data call.identity call.query with
      | .error _ => none
      | .ok issued =>
        some { chain with
          calls := chain.calls.eraseIdx index
          bearers := ⟨call, chain.now, issued.token⟩ :: chain.bearers }

/-- A chain before its first call. -/
def Chain.start (data : StateMachineData) (now : Nat) : Chain where
  data := data
  now := now
  calls := []
  bearers := []
  revokedAt := none

/-- A stored personal access token with its text; no other stored token has its hash. -/
structure SourceToken (service : TokenService) (data : StateMachineData) where
  text : String
  record : PersonalAccessToken
  prefixed : (Text.stripPrefix "layerhouse-".toList text.toList).isSome = true
  hashed : record.tokenHash = service.tokenHash text
  stored : data.personalAccessTokens[record.id]? = some record
  sole : ∀ (id : String) other, data.personalAccessTokens[id]? = some other →
    other.tokenHash = record.tokenHash → id = record.id

/-- The answer is given by the deadline, or to a call that presented the source token after the
deadline. -/
def AnsweredInTime (source : String) (deadline : Nat) (chain : Chain) : ChainLabel → Prop
  | .answer index => ∀ call, chain.calls[index]? = some call →
    chain.now ≤ deadline ∨ call.presented = source ∧ deadline < call.acceptedAt
  | _ => True

/-! ### The source token in a run -/

/-- The calls that were accepted, answered or not. -/
def Chain.accepted (chain : Chain) : List TokenCall :=
  chain.calls ++ chain.bearers.map (·.call)

section SourceEnd

variable {service : TokenService} {externals : Externals} {data : StateMachineData}
  {source : SourceToken service data} {chain next : Chain}

/-- What holds of an accepted call: it was accepted before the clock's reading, for a subject
with a principal, and before the end of the source token if it presented it. -/
structure TokenCall.Sound (source : SourceToken service data) (chain : Chain) (call : TokenCall) :
    Prop where
  past : call.acceptedAt ≤ chain.now
  named : service.userPrincipal call.identity.subject = .ok call.identity.principal
  unexpired : call.presented = source.text →
    ∀ expiry, source.record.expiresAt = some expiry → call.acceptedAt ≤ expiry
  unrevoked : call.presented = source.text →
    ∀ moment, chain.revokedAt = some moment → call.acceptedAt ≤ moment

/-- What holds in every state of a run: the hash of the source token is stored only as the source
token, and no more once that was deleted; accepted calls are sound; and each bearer was minted
for an hour. -/
structure Chain.Sound (source : SourceToken service data) (chain : Chain) : Prop where
  held : ∀ (id : String) other, chain.data.personalAccessTokens[id]? = some other →
    other.tokenHash = source.record.tokenHash →
    id = source.record.id ∧ other = source.record ∧ chain.revokedAt = none
  calls : ∀ call ∈ chain.accepted, call.Sound source chain
  bearers : ∀ bearer ∈ chain.bearers, ∃ claims, service.Minted bearer.token claims ∧
    claims.exp = bearer.mintedAt + 3600

theorem Chain.Sound.start (source : SourceToken service data) (now : Nat) :
    (Chain.start data now).Sound source where
  held id other found sameHash := by
    have keyed := source.sole id other found sameHash
    refine ⟨keyed, ?_, rfl⟩
    rw [keyed] at found
    exact Option.some.inj (found.symm.trans source.stored)
  calls call member := by cases member
  bearers bearer member := by cases member

theorem erased_of_revokes {now : Nat} {before after : StateMachineData} {request : Request}
    {response : Response} {id : String}
    (applied : applyRequest externals now before request = .ok (after, response))
    (deleted : revokes id request response = true) :
    after.personalAccessTokens = before.personalAccessTokens.erase id := by
  cases request with
  | token inner =>
    cases inner with
    | putPersonalAccessToken token =>
      cases applied
      cases deleted
    | deletePersonalAccessToken other subject =>
      rw [applyRequest, applyToken] at applied
      by_cases owned : before.personalAccessTokens[other]?.any (·.subject = subject) = true
      · rw [if_pos owned] at applied
        cases applied
        have sameId : other = id := by simpa [revokes] using deleted
        rw [sameId]
      · rw [if_neg owned] at applied
        cases applied
        simp [revokes] at deleted
  | _ => simp [revokes] at deleted

/-- A commit keeps what is known of the source token: nothing stores its hash again, and once it
is deleted it is gone. -/
theorem Chain.Sound.commit (sound : chain.Sound source) {request : Request}
    (stepped : chainStep service externals source.record chain (.commit request) = some next) :
    next.Sound source := by
  rw [chainStep] at stepped
  split at stepped
  · cases stepped
  · rename_i fresh
    cases applied : applyRequest externals chain.now chain.data request with
    | error panic =>
      rw [applied] at stepped
      cases stepped
    | ok result =>
      obtain ⟨after, response⟩ := result
      rw [applied] at stepped
      cases stepped
      refine ⟨fun id other found sameHash => ?_, fun call member => ?_, sound.bearers⟩
      · have before : chain.data.personalAccessTokens[id]? = some other := by
          rcases applyRequest_personalAccessTokens applied with
            same | ⟨token, rfl, inserted⟩ | ⟨other, subject, rfl, _, erased⟩
          · rwa [← same]
          · rw [inserted, BTreeMap.getElem?_insert] at found
            split at found
            · cases found
              exact absurd (by simpa [storesHash] using sameHash) fresh
            · exact found
          · rw [erased, BTreeMap.getElem?_erase] at found
            split at found
            · cases found
            · exact found
        obtain ⟨keyed, recorded, unrevoked⟩ := sound.held id other before sameHash
        refine ⟨keyed, recorded, ?_⟩
        by_cases deleted : revokes source.record.id request response = true
        · rw [erased_of_revokes applied deleted, BTreeMap.getElem?_erase,
            if_pos keyed.symm] at found
          cases found
        · rwa [if_neg deleted]
      · obtain ⟨past, named, unexpired, unrevoked⟩ := sound.calls call member
        refine ⟨past, named, unexpired, fun presented moment deletedAt => ?_⟩
        simp only at deletedAt
        split at deletedAt
        · cases earlier : chain.revokedAt with
          | none =>
            rw [earlier] at deletedAt
            cases deletedAt
            exact past
          | some first =>
            rw [earlier] at deletedAt
            cases deletedAt
            exact unrevoked presented first earlier
        · exact unrevoked presented moment deletedAt

/-- A credential that is accepted while the source token is soundly stored: if it is the source
token, the token was neither expired nor deleted. -/
theorem Chain.Sound.present (sound : chain.Sound source) {credential : String} {query : TokenQuery}
    (stepped : chainStep service externals source.record chain (.present credential query) =
      some next) :
    next.Sound source := by
  rw [chainStep] at stepped
  cases accepted : service.validateToken chain.now chain.data credential with
  | error error =>
    rw [accepted] at stepped
    cases stepped
  | ok identity =>
    rw [accepted] at stepped
    cases stepped
    refine ⟨sound.held, fun call member => ?_, sound.bearers⟩
    rcases List.mem_cons.mp member with rfl | earlier
    · have stored (presented : credential = source.text) :
          chain.revokedAt = none ∧ ∀ expiry, source.record.expiresAt = some expiry →
            chain.now ≤ expiry := by
        rw [presented, TokenService.validateToken, if_pos source.prefixed] at accepted
        obtain ⟨id, pat, found, sameHash, unexpired, _⟩ := TokenService.validatePat_eq_ok accepted
        obtain ⟨_, recorded, unrevoked⟩ :=
          sound.held id pat found (sameHash.trans source.hashed.symm)
        exact ⟨unrevoked, recorded ▸ unexpired⟩
      refine ⟨Nat.le_refl _, TokenService.userPrincipal_of_validateToken accepted,
        fun presented => (stored presented).2, fun presented moment deletedAt => ?_⟩
      have unrevoked := (stored presented).1
      rw [unrevoked] at deletedAt
      cases deletedAt
    · obtain ⟨past, named, unexpired, unrevoked⟩ := sound.calls call earlier
      exact ⟨past, named, unexpired, unrevoked⟩

/-- The call an answer takes out of flight, and the bearer it obtains. -/
theorem chainStep_answer {index : Nat}
    (stepped : chainStep service externals source.record chain (.answer index) = some next) :
    ∃ call issued, chain.calls[index]? = some call ∧
      service.issueToken chain.now chain.data call.identity call.query = .ok issued ∧
      next = { chain with
        calls := chain.calls.eraseIdx index
        bearers := ⟨call, chain.now, issued.token⟩ :: chain.bearers } := by
  rw [chainStep] at stepped
  cases found : chain.calls[index]? with
  | none =>
    rw [found] at stepped
    cases stepped
  | some call =>
    rw [found] at stepped
    simp only at stepped
    cases answered : service.issueToken chain.now chain.data call.identity call.query with
    | error error =>
      rw [answered] at stepped
      cases stepped
    | ok issued =>
      rw [answered] at stepped
      cases stepped
      exact ⟨call, issued, rfl, answered, rfl⟩

theorem Chain.Sound.answer (sound : chain.Sound source) {index : Nat}
    (stepped : chainStep service externals source.record chain (.answer index) = some next) :
    next.Sound source := by
  obtain ⟨call, issued, found, answered, rfl⟩ := chainStep_answer stepped
  have inFlight : call ∈ chain.accepted :=
    List.mem_append_left _ (List.mem_of_getElem? found)
  refine ⟨sound.held, fun other member => ?_, fun bearer member => ?_⟩
  · have before : other ∈ chain.accepted := by
      rcases List.mem_append.mp member with waiting | done
      · exact List.mem_append_left _ (List.mem_of_mem_eraseIdx waiting)
      · rcases List.mem_cons.mp done with rfl | older
        · exact inFlight
        · exact List.mem_append_right _ older
    obtain ⟨past, named, unexpired, unrevoked⟩ := sound.calls other before
    exact ⟨past, named, unexpired, unrevoked⟩
  · rcases List.mem_cons.mp member with rfl | older
    · exact TokenService.issueToken_eq_ok answered (sound.calls call inFlight).named
    · exact sound.bearers bearer older

theorem Chain.Sound.step (sound : chain.Sound source) {label : ChainLabel}
    (stepped : chainStep service externals source.record chain label = some next) :
    next.Sound source := by
  cases label with
  | tick seconds =>
    cases stepped
    refine ⟨sound.held, fun call member => ?_, sound.bearers⟩
    obtain ⟨past, named, unexpired, unrevoked⟩ := sound.calls call member
    exact ⟨Nat.le_add_right_of_le past, named, unexpired, unrevoked⟩
  | commit request => exact sound.commit stepped
  | present credential query => exact sound.present stepped
  | answer index => exact sound.answer stepped

/-! ### Bearers and answers -/

/-- The bearer answers its call in time, in the sense of `AnsweredInTime`. -/
def Bearer.InTime (source : String) (deadline : Nat) (bearer : Bearer) : Prop :=
  bearer.mintedAt ≤ deadline ∨
    bearer.call.presented = source ∧ deadline < bearer.call.acceptedAt

theorem inTime_step_iff {text : String} {deadline : Nat} {label : ChainLabel}
    (stepped : chainStep service externals source.record chain label = some next) :
    (∀ bearer ∈ next.bearers, bearer.InTime text deadline) ↔
      (∀ bearer ∈ chain.bearers, bearer.InTime text deadline) ∧
        AnsweredInTime text deadline chain label := by
  cases label with
  | tick seconds =>
    cases stepped
    simp [AnsweredInTime]
  | commit request =>
    have same : next.bearers = chain.bearers := by
      rw [chainStep] at stepped
      split at stepped
      · cases stepped
      · split at stepped
        · cases stepped
        · cases stepped
          rfl
    simp [same, AnsweredInTime]
  | present credential query =>
    have same : next.bearers = chain.bearers := by
      rw [chainStep] at stepped
      split at stepped
      · cases stepped
      · cases stepped
        rfl
    simp [same, AnsweredInTime]
  | answer index =>
    obtain ⟨call, issued, found, answered, rfl⟩ := chainStep_answer stepped
    rw [List.forall_mem_cons, and_comm]
    refine and_congr_right fun _ => ⟨fun inTime other sameCall => ?_, fun inTime => ?_⟩
    · cases found.symm.trans sameCall
      exact inTime
    · exact inTime call found

/-- The answers of a run are in time exactly when the bearers it ends with are. -/
theorem inTime_run_iff {text : String} {deadline : Nat} {final : Chain}
    {labels : List ChainLabel}
    (reached : run (chainStep service externals source.record) chain labels = some final) :
    (∀ bearer ∈ final.bearers, bearer.InTime text deadline) ↔
      (∀ bearer ∈ chain.bearers, bearer.InTime text deadline) ∧
        Along (chainStep service externals source.record) (AnsweredInTime text deadline)
          chain labels := by
  induction labels generalizing chain with
  | nil =>
    cases reached
    simp [Along]
  | cons label rest inductionHypothesis =>
    obtain ⟨next, stepped, continued⟩ := run_cons_eq_some.mp reached
    have sameNext : (∀ other, chainStep service externals source.record chain label = some other →
        Along (chainStep service externals source.record) (AnsweredInTime text deadline)
          other rest) ↔
        Along (chainStep service externals source.record) (AnsweredInTime text deadline)
          next rest := by
      rw [stepped]
      exact ⟨fun all => all next rfl, fun holds other same => Option.some.inj same ▸ holds⟩
    rw [inductionHypothesis continued, inTime_step_iff stepped, Along, sameNext, and_assoc]

/-- A bearer of a sound chain is refused everywhere after an hour and the leeway past a moment
exactly when it was minted by that moment. -/
theorem Chain.Sound.refused_iff (sound : chain.Sound source) (lawful : service.jwt.Lawful)
    {bearer : Bearer} (member : bearer ∈ chain.bearers) (moment : Nat) :
    (∀ later store identity, moment + 3600 + service.jwt.leeway < later →
      service.validateToken later store bearer.token ≠ .ok identity) ↔
      bearer.mintedAt ≤ moment := by
  obtain ⟨claims, minted, expiry⟩ := sound.bearers bearer member
  constructor
  · intro refused
    by_contra late
    obtain ⟨identity, accepted⟩ := (minted.validateToken_iff lawful
      (bearer.mintedAt + 3600 + service.jwt.leeway) data).mpr (by rw [expiry])
    exact refused _ data identity (by omega) accepted
  · intro early later store identity past accepted
    have alive := (minted.validateToken_iff lawful later store).mp ⟨identity, accepted⟩
    rw [expiry] at alive
    omega

/-- Every bearer of a chain is refused from an hour and the leeway after the end of the source
token on, exactly when no call of the chain is answered after that end, save calls that presented
the ended token itself. -/
theorem bearers_end_with_source_iff (lawful : service.jwt.Lawful)
    (source : SourceToken service data) {start ending : Nat} {labels : List ChainLabel}
    {final : Chain}
    (reached : run (chainStep service externals source.record) (Chain.start data start) labels =
      some final)
    (ends : source.record.expiresAt = some ending ∨ final.revokedAt = some ending) :
    (∀ bearer ∈ final.bearers, ∀ later store identity,
      ending + 3600 + service.jwt.leeway < later →
      service.validateToken later store bearer.token ≠ .ok identity) ↔
    Along (chainStep service externals source.record) (AnsweredInTime source.text ending)
      (Chain.start data start) labels := by
  have sound : final.Sound source :=
    run_invariant (Chain.Sound source) (fun _ _ _ stepped holds => holds.step stepped) reached
      (Chain.Sound.start source start)
  have inTime : (∀ bearer ∈ final.bearers, bearer.InTime source.text ending) ↔
      Along (chainStep service externals source.record) (AnsweredInTime source.text ending)
        (Chain.start data start) labels := by
    rw [inTime_run_iff reached]
    exact and_iff_right fun bearer member => by cases member
  rw [← inTime]
  refine forall₂_congr fun bearer member => ?_
  rw [sound.refused_iff lawful member]
  refine ⟨Or.inl, fun answered => answered.resolve_right ?_⟩
  -- the ended token itself is not accepted any more
  rintro ⟨presented, late⟩
  have call := sound.calls bearer.call
    (List.mem_append_right _ (List.mem_map_of_mem member))
  rcases ends with expires | deleted
  · exact absurd (call.unexpired presented ending expires) (Nat.not_le.mpr late)
  · exact absurd (call.unrevoked presented ending deleted) (Nat.not_le.mpr late)

end SourceEnd

/-! ### A chain that outlives its token -/

/-- The claims of a bearer minted for the subject `alice` at a time. -/
def sampleClaims (now : Nat) : TokenClaims where
  subject := "alice"
  exp := now + 3600
  aud := none
  groups := some []
  name := none
  preferredUsername := none
  email := none
  scope := some ""
  namespaceEpochs := []
  tokenType := some "oci_bearer"
  iat := some now
  iss := some "layerhouse"

/-- The claims of the time `900`, signed with the key `signing`. -/
def sampleFirstBearer : String :=
  "eyJ0eXAiOiJKV1QiLCJhbGciOiJIUzI1NiJ9.eyJzdWIiOiJhbGljZSIsImV4cCI6NDUwMCwiYXVkIjp" ++
    "udWxsLCJncm91cHMiOltdLCJuYW1lIjpudWxsLCJwcmVmZXJyZWRfdXNlcm5hbWUiOm51bGwsImVtYWl" ++
    "sIjpudWxsLCJzY29wZSI6IiIsIm5hbWVzcGFjZV9lcG9jaHMiOltdLCJ0b2tlbl90eXBlIjoib2NpX2J" ++
    "lYXJlciIsImlhdCI6OTAwLCJpc3MiOiJsYXllcmhvdXNlIn0.wi4fOUWBhwEj42Uy4TvDWt-5tncVR2g" ++
    "_dJAkV2Bp9ro"

/-- The claims of the time `3900`, signed with the same key. -/
def sampleSecondBearer : String :=
  "eyJ0eXAiOiJKV1QiLCJhbGciOiJIUzI1NiJ9.eyJzdWIiOiJhbGljZSIsImV4cCI6NzUwMCwiYXVkIjp" ++
    "udWxsLCJncm91cHMiOltdLCJuYW1lIjpudWxsLCJwcmVmZXJyZWRfdXNlcm5hbWUiOm51bGwsImVtYWl" ++
    "sIjpudWxsLCJzY29wZSI6IiIsIm5hbWVzcGFjZV9lcG9jaHMiOltdLCJ0b2tlbl90eXBlIjoib2NpX2J" ++
    "lYXJlciIsImlhdCI6MzkwMCwiaXNzIjoibGF5ZXJob3VzZSJ9.gK9UK9J7gMl549uoMTAxGzxZ2lFJPa" ++
    "EsC3HKocr7YiY"

/-- The bearers that are minted in the sample run. -/
def sampleMinted : List (TokenClaims × String) :=
  [(sampleClaims 900, sampleFirstBearer), (sampleClaims 3900, sampleSecondBearer)]

/-- The JWT library on the bearers of the sample run; other claims are not encoded. -/
def sampleJwt : Jwt where
  encode := fun claims =>
    match sampleMinted.find? (·.1 = claims) with
    | some entry => .ok entry.2
    | none => .error "not a sample"
  decode := fun now token =>
    match sampleMinted.find? (·.2 = token) with
    | some entry => if now ≤ entry.1.exp + 60 then some entry.1 else none
    | none => none
  decodeHeader := fun token => if sampleMinted.any (·.2 = token) then some none else none
  decodeWithKey := fun _ _ _ => .error (unauthorized "unknown signing key")
  leeway := 60

theorem sampleJwt_encode {claims : TokenClaims} {token : String}
    (encoded : sampleJwt.encode claims = .ok token) :
    (claims, token) ∈ sampleMinted := by
  rw [sampleJwt] at encoded
  simp only at encoded
  split at encoded
  · rename_i entry found
    cases encoded
    have sameClaims : entry.1 = claims := by simpa using List.find?_some found
    rw [← sameClaims]
    exact List.mem_of_find?_eq_some found
  · cases encoded

/-- The bearers differ from each other and from personal access tokens. -/
theorem sampleMinted_distinct : ∀ entry ∈ sampleMinted,
    sampleMinted.find? (·.2 = entry.2) = some entry ∧
      Text.stripPrefix "layerhouse-".toList entry.2.toList = none := by
  decide +kernel

theorem sampleJwt_lawful : sampleJwt.Lawful where
  decode_encode {claims token} encoded audienceless now := by
    have found := (sampleMinted_distinct _ (sampleJwt_encode encoded)).1
    simp only [sampleJwt, found]
    rfl
  decodeHeader_encode {claims token} encoded := by
    have member := sampleJwt_encode encoded
    rw [sampleJwt]
    exact if_pos (List.any_eq_true.mpr ⟨_, member, decide_eq_true rfl⟩)
  stripPrefix_encode {claims token} encoded :=
    (sampleMinted_distinct _ (sampleJwt_encode encoded)).2

def sampleService : TokenService where
  auth :=
    { cedar := ⟨fun _ => .ok (), fun _ _ => .ok .deny⟩
      policyForRequest := fun _ _ => .ok "" }
  jwt := sampleJwt
  providerName := "oidc"
  sha256Hex := fun bytes => String.ofList (bytes.map fun byte => Char.ofNat byte.toNat)
  isUuid := fun _ => false

/-- A personal access token that expires at the time `1000`. -/
def samplePat : PersonalAccessToken where
  id := "pat-1"
  subject := "alice"
  username := none
  name := "ci"
  tokenHash := "layerhouse-00000000000000000000000000000000"
  tokenPrefix := "layerhouse-0"
  scopes := []
  namespaceEpochs := []
  createdAt := 900
  lastUsedAt := none
  expiresAt := some 1000

def samplePatStore : StateMachineData :=
  { StateMachineData.empty with
    personalAccessTokens := StateMachineData.empty.personalAccessTokens.insert "pat-1" samplePat }

def sampleSource : SourceToken sampleService samplePatStore where
  text := "layerhouse-00000000000000000000000000000000"
  record := samplePat
  prefixed := by decide
  hashed := by decide
  stored := by
    rw [samplePatStore, BTreeMap.getElem?_insert]
    exact if_pos rfl
  sole id other found sameHash := by
    rw [samplePatStore, BTreeMap.getElem?_insert] at found
    split at found
    · rename_i keyed
      exact keyed.symm
    · rw [StateMachineData.empty, BTreeMap.getElem?_empty] at found
      cases found

/-- The token is exchanged for a bearer before its end, and that bearer for a second one after
it. -/
def sampleRefresh : List ChainLabel :=
  [.present sampleSource.text ⟨none, []⟩, .answer 0, .tick 3000,
    .present sampleFirstBearer ⟨none, []⟩, .answer 0]

/-- A token expires at `1000`. Its holder exchanges it at `900`, and the bearer again at `3900`:
the second bearer is still accepted at `7560`, long after an hour and the leeway past the end of
the token. -/
theorem bearer_outlives_source :
    ∃ final bearer identity,
      run (chainStep sampleService sampleExternals sampleSource.record)
        (Chain.start samplePatStore 900) sampleRefresh = some final ∧
      sampleSource.record.expiresAt = some 1000 ∧ bearer ∈ final.bearers ∧
      1000 + 3600 + sampleService.jwt.leeway < 7560 ∧
      sampleService.validateToken 7560 final.data bearer.token = .ok identity := by
  have outlives : (run (chainStep sampleService sampleExternals sampleSource.record)
      (Chain.start samplePatStore 900) sampleRefresh).any (fun final =>
        final.bearers.any fun bearer =>
          (sampleService.validateToken 7560 final.data bearer.token).isOk) = true := by
    decide +kernel
  obtain ⟨final, reached, accepted⟩ := (Option.any_eq_true ..).mp outlives
  obtain ⟨bearer, member, accepted⟩ := List.any_eq_true.mp accepted
  cases validated : sampleService.validateToken 7560 final.data bearer.token with
  | error error =>
    rw [validated] at accepted
    cases accepted
  | ok identity => exact ⟨final, bearer, identity, reached, rfl, member, by decide, validated⟩

/-- Without the second exchange the bound holds. -/
theorem bearers_end_with_source_sample :
    ∃ final, run (chainStep sampleService sampleExternals sampleSource.record)
        (Chain.start samplePatStore 900) (sampleRefresh.take 3) = some final ∧
      ∀ bearer ∈ final.bearers, ∀ later store identity,
        1000 + 3600 + sampleService.jwt.leeway < later →
        sampleService.validateToken later store bearer.token ≠ .ok identity := by
  have reached : run (chainStep sampleService sampleExternals sampleSource.record)
      (Chain.start samplePatStore 900) (sampleRefresh.take 3) = some _ := rfl
  refine ⟨_, reached, (bearers_end_with_source_iff sampleJwt_lawful sampleSource reached
    (.inl rfl)).mpr
      ⟨trivial, fun next stepped => ⟨fun call _ => .inl ?_, fun _ _ => ⟨trivial, ?_⟩⟩⟩⟩
  · cases stepped
    decide
  · exact fun _ _ => trivial

end Layerhouse
