/-
This file compares the bearers of the token endpoint with the identities they are
minted for. The endpoint takes a requested scope to one repository and its highest
action, checks that pair, and copies the whole scope into the bearer, where it acts
as a permit. A bearer can therefore do what its caller cannot: pull where the
caller may only update, or reach a repository that a checked pattern covers.

Which requests are safe under every policy is settled exactly. A scope is
contained when it names one repository and asks to pull, when all it covers lies in
the caller's own personal namespace or in somebody else's, or when it is never
granted.
-/

import Layerhouse.Auth.Policies
import Layerhouse.Auth.TokenChains

namespace Layerhouse

/-! ### Granted scopes -/

/-- The scopes a token query asks for. -/
def TokenQuery.requested (query : TokenQuery) : List String :=
  query.scope.flatMap fun scope => (Text.splitWhitespace scope.toList).map String.ofList

theorem TokenQuery.spaceless {query : TokenQuery} {requested : String}
    (member : requested ∈ query.requested) : ' ' ∉ requested.toList := by
  intro space
  obtain ⟨scope, _, inScope⟩ := List.mem_flatMap.mp member
  obtain ⟨piece, split, rfl⟩ := List.mem_map.mp inScope
  rw [String.toList_ofList] at space
  exact absurd (Text.not_isWhitespace_of_mem_splitWhitespace split space) (by decide)

namespace TokenService

/-- The identity is allowed the repository and the highest action that the scope names. -/
def Grants (auth : AuthService) (data : StateMachineData) (identity : AuthIdentity)
    (scope : String) : Prop :=
  ∃ repository action, parseScope scope = some (repository, action) ∧
    Allows auth data identity repository action

/-- What the loop over the requested scopes grants was requested and checked. -/
theorem grantScopes_granted {service : TokenService} {data : StateMachineData}
    {identity : AuthIdentity} {requested scopes granted : List String}
    {epochs recorded : List NamespaceEpoch}
    (answered : service.grantScopes data identity requested (scopes, epochs) =
      .ok (granted, recorded)) :
    ∀ scope ∈ granted, scope ∈ scopes ∨
      scope ∈ requested ∧ Grants service.auth data identity scope := by
  induction requested generalizing scopes epochs with
  | nil =>
    cases answered
    exact fun scope member => Or.inl member
  | cons first rest inductionHypothesis =>
    have weaken : ∀ scope, scope ∈ rest ∧ Grants service.auth data identity scope →
        scope ∈ first :: rest ∧ Grants service.auth data identity scope :=
      fun scope held => ⟨List.mem_cons_of_mem first held.1, held.2⟩
    intro scope member
    rw [grantScopes] at answered
    split at answered
    · exact (inductionHypothesis answered scope member).imp_right (weaken scope)
    · rename_i repository action parsed
      split at answered
      · rename_i access permitted
        rcases inductionHypothesis answered scope member with earlier | later
        · rcases List.mem_append.mp earlier with before | same
          · exact Or.inl before
          · rw [List.mem_singleton.mp same]
            exact Or.inr ⟨List.mem_cons_self, repository, action, parsed, access, permitted⟩
        · exact Or.inr (weaken scope later)
      · exact (inductionHypothesis answered scope member).imp_right (weaken scope)
      · cases answered

theorem spaceless_of_grantScopes {service : TokenService} {data : StateMachineData}
    {identity : AuthIdentity} {query : TokenQuery} {granted : List String}
    {recorded : List NamespaceEpoch}
    (answered : service.grantScopes data identity query.requested ([], []) =
      .ok (granted, recorded)) : ∀ scope ∈ granted, ' ' ∉ scope.toList := by
  intro scope member
  rcases grantScopes_granted answered scope member with impossible | ⟨requested, _⟩
  · cases impossible
  · exact TokenQuery.spaceless requested

theorem mem_recordExpectedNamespace {access : AuthorizedRepositoryAccess}
    {epochs : List NamespaceEpoch} {epoch : NamespaceEpoch} :
    epoch ∈ access.recordExpectedNamespace epochs ↔
      epoch ∈ epochs ∨ access.expectedNamespace = some epoch := by
  rw [AuthorizedRepositoryAccess.recordExpectedNamespace]
  cases access.expectedNamespace with
  | none => simp
  | some expected =>
    simp only [Option.some.injEq]
    split
    · rename_i known
      refine ⟨Or.inl, ?_⟩
      rintro (held | rfl)
      · exact held
      · exact known
    · rw [List.mem_append, List.mem_singleton, eq_comm]

/-- Where checks fail with denials only, the loop answers, and grants every requested scope that
is allowed together with the epoch it was allowed in. -/
theorem grantScopes_complete {service : TokenService} {data : StateMachineData}
    {identity : AuthIdentity}
    (onlyDenied : ∀ repository action error,
      checkPermission service.auth data identity repository action = .error error →
        ∃ message, error = .denied message) (requested scopes : List String)
    (epochs : List NamespaceEpoch) :
    ∃ granted recorded, service.grantScopes data identity requested (scopes, epochs) =
        .ok (granted, recorded) ∧ scopes ⊆ granted ∧ epochs ⊆ recorded ∧
      ∀ scope ∈ requested, ∀ repository action access,
        parseScope scope = some (repository, action) →
          checkPermission service.auth data identity repository action = .ok access →
            scope ∈ granted ∧ ∀ epoch, access.expectedNamespace = some epoch →
              epoch ∈ recorded := by
  induction requested generalizing scopes epochs with
  | nil => exact ⟨scopes, epochs, rfl, List.Subset.refl _, List.Subset.refl _, by simp⟩
  | cons first rest inductionHypothesis =>
    rw [grantScopes]
    cases parsed : parseScope first with
    | none =>
      obtain ⟨granted, recorded, answered, keepsScopes, keepsEpochs, complete⟩ :=
        inductionHypothesis scopes epochs
      refine ⟨granted, recorded, answered, keepsScopes, keepsEpochs, ?_⟩
      intro scope member repository action access read permitted
      rcases List.mem_cons.mp member with rfl | later
      · cases parsed.symm.trans read
      · exact complete scope later repository action access read permitted
    | some named =>
      obtain ⟨namedRepository, namedAction⟩ := named
      simp only
      cases checked : checkPermission service.auth data identity namedRepository namedAction with
      | error error =>
        obtain ⟨message, rfl⟩ := onlyDenied _ _ _ checked
        obtain ⟨granted, recorded, answered, keepsScopes, keepsEpochs, complete⟩ :=
          inductionHypothesis scopes epochs
        refine ⟨granted, recorded, answered, keepsScopes, keepsEpochs, ?_⟩
        intro scope member repository action access read permitted
        rcases List.mem_cons.mp member with rfl | later
        · cases parsed.symm.trans read
          cases checked.symm.trans permitted
        · exact complete scope later repository action access read permitted
      | ok found =>
        obtain ⟨granted, recorded, answered, keepsScopes, keepsEpochs, complete⟩ :=
          inductionHypothesis (scopes ++ [first]) (found.recordExpectedNamespace epochs)
        refine ⟨granted, recorded, answered, fun scope member =>
            keepsScopes (List.mem_append_left [first] member),
          fun epoch member => keepsEpochs (mem_recordExpectedNamespace.mpr (Or.inl member)), ?_⟩
        intro scope member repository action access read permitted
        rcases List.mem_cons.mp member with rfl | later
        · cases parsed.symm.trans read
          cases checked.symm.trans permitted
          refine ⟨keepsScopes (by simp), fun epoch expected => keepsEpochs ?_⟩
          exact mem_recordExpectedNamespace.mpr (Or.inr expected)
        · exact complete scope later repository action access read permitted

theorem issueToken_of_granted {service : TokenService} {now : Nat} {data : StateMachineData}
    {identity : AuthIdentity} {query : TokenQuery} {granted : List String}
    {epochs : List NamespaceEpoch} {token : String}
    (grants : service.grantScopes data identity query.requested ([], []) = .ok (granted, epochs))
    (encoded : service.jwt.encode (bearerClaims now identity (" ".intercalate granted) epochs) =
      .ok token) :
    service.issueToken now data identity query = .ok ⟨token, token, 3600, now⟩ := by
  rw [TokenQuery.requested] at grants
  rw [bearerClaims] at encoded
  simp only [issueToken, grants, mintOciToken, encoded]

/-- The loop reads the policies only. -/
theorem grantScopes_congr {first second : TokenService} (same : first.auth = second.auth)
    (data : StateMachineData) (identity : AuthIdentity) (requested : List String)
    (granted : List String × List NamespaceEpoch) :
    first.grantScopes data identity requested granted =
      second.grantScopes data identity requested granted := by
  induction requested generalizing granted with
  | nil => rfl
  | cons head rest inductionHypothesis =>
    rw [grantScopes, grantScopes, same]
    simp only [inductionHypothesis]

end TokenService

/-! ### Bearers and their callers -/

theorem TokenClaims.trimmed_trimmed (value : Option String) :
    TokenClaims.trimmed (TokenClaims.trimmed value) = TokenClaims.trimmed value := by
  cases value with
  | none => rfl
  | some text =>
    simp only [TokenClaims.trimmed, Option.map_some, Option.filter_some]
    split
    · rename_i kept
      simp only [Option.map_some, String.toList_ofList, Text.trim_trim, Option.filter_some, kept,
        if_true]
    · rfl

/-- A call of the token endpoint by an OIDC caller, and the bearer it was answered with, in one
metadata state. -/
structure TokenExchange (query : TokenQuery) (preferredUsername : Option String) where
  policies : PolicySets
  service : TokenService
  data : StateMachineData
  identity : AuthIdentity
  bearer : AuthIdentity
  decided : service.auth = policies.service
  lawful : service.jwt.Lawful
  validated : ∃ now token claims groups,
    service.verifyTokenClaims now token = .ok (claims, groups) ∧
      claims.preferredUsername = preferredUsername ∧
      service.validateOidcToken now token = .ok identity
  answered : ∃ now issued used, service.issueToken now data identity query = .ok issued ∧
    service.validateToken used data issued.token = .ok bearer

namespace TokenExchange

variable {query : TokenQuery} {preferredUsername : Option String}
  (exchange : TokenExchange query preferredUsername)

theorem identity_spec : exchange.identity.username = TokenClaims.trimmed preferredUsername ∧
    exchange.identity.tokenType = .oidcAccess ∧
    exchange.service.userPrincipal exchange.identity.subject =
      .ok exchange.identity.principal := by
  obtain ⟨now, token, claims, groups, verified, rfl, validated⟩ := exchange.validated
  rw [TokenService.validateOidcToken, verified] at validated
  simp only at validated
  have named := TokenService.userPrincipal_of_identityOfClaims validated
  rw [TokenService.identityOfClaims] at validated
  split at validated
  · cases validated
  · have made := Except.ok.inj validated
    exact ⟨congrArg AuthIdentity.username made.symm, congrArg AuthIdentity.tokenType made.symm,
      named⟩

theorem bearer_spec : ∃ granted epochs,
    exchange.service.grantScopes exchange.data exchange.identity query.requested ([], []) =
      .ok (granted, epochs) ∧
    exchange.bearer.username = exchange.identity.username ∧
    exchange.bearer.tokenType = .ociBearer ∧ exchange.bearer.namespaceEpochs = epochs ∧
    exchange.bearer.scopes = ((" ".intercalate granted).toList.splitOn ' ').map String.ofList := by
  obtain ⟨sameName, _, named⟩ := exchange.identity_spec
  obtain ⟨now, issued, used, answered, accepted⟩ := exchange.answered
  obtain ⟨granted, epochs, grants, encoded⟩ := TokenService.issueToken_claims answered
  have made := TokenService.Minted.identityOfClaims_eq exchange.lawful
    ⟨encoded, rfl, _, named⟩ accepted
  refine ⟨granted, epochs, grants, ?_⟩
  rw [TokenService.identityOfClaims] at made
  split at made
  · cases made
  · rw [← Except.ok.inj made]
    refine ⟨?_, rfl, rfl, rfl⟩
    simp only [TokenClaims.username, TokenService.bearerClaims, sameName]
    exact TokenClaims.trimmed_trimmed preferredUsername

theorem splitOn_intercalate_scopes {granted : List String}
    (spaceless : ∀ scope ∈ granted, ' ' ∉ scope.toList) (nonempty : granted ≠ []) :
    ((" ".intercalate granted).toList.splitOn ' ').map String.ofList = granted := by
  rw [String.toList_intercalate, show " ".toList = [' '] from rfl,
    List.splitOn_intercalate ' ' ?_ (by simpa using nonempty)]
  · simp
  · intro piece inPieces
    obtain ⟨text, inGranted, rfl⟩ := List.mem_map.mp inPieces
    exact spaceless text inGranted

/-- A scope of the bearer that can be parsed was granted. -/
theorem granted_of_mem_scopes {granted : List String}
    (spaceless : ∀ scope ∈ granted, ' ' ∉ scope.toList) {scope pattern : String}
    {action : OciAction}
    (member : scope ∈ ((" ".intercalate granted).toList.splitOn ' ').map String.ofList)
    (parsed : parseScope scope = some (pattern, action)) : scope ∈ granted := by
  by_cases empty : granted = []
  · subst empty
    rw [List.mem_singleton.mp (show scope ∈ [""] from member)] at parsed
    exact absurd parsed (by rw [show parseScope "" = none by decide]; simp)
  · rw [splitOn_intercalate_scopes spaceless empty] at member
    exact member

theorem mem_scopes_of_granted {granted : List String}
    (spaceless : ∀ scope ∈ granted, ' ' ∉ scope.toList) {scope : String}
    (member : scope ∈ granted) :
    scope ∈ ((" ".intercalate granted).toList.splitOn ' ').map String.ofList := by
  rw [splitOn_intercalate_scopes spaceless (List.ne_nil_of_mem member)]
  exact member

end TokenExchange

/-! ### Contained scopes -/

/-- A scope whose grant hands over nothing that was not checked, whatever the policies are: it
covers one repository and asks for the lowest action, or all it covers lies in one personal
namespace, or it is never granted. -/
def Contained (username : Option String) (pattern : String) (action : OciAction) : Prop :=
  (action = .pull ∧ IsLiteral pattern) ∨
    (inPersonalNamespace username (patternBase pattern) = true ∨
      CrossUser username (patternBase pattern)) ∨
    (action ≠ .pull ∧ (pattern = "*" ∨ CrossUser username pattern))

theorem repositoryResourceContext_wildcard (data : StateMachineData) (action : OciAction) :
    repositoryResourceContext data "*" action = .ok (none, none) := rfl

theorem not_allows_of_blocked {policies : PolicySets} {data : StateMachineData}
    {identity : AuthIdentity} {pattern : String} {action : OciAction} (above : action ≠ .pull)
    (repositoryAction : action ≠ .admin)
    (blocked : pattern = "*" ∨ CrossUser identity.username pattern) :
    ¬ Allows policies.service data identity pattern action := by
  intro allows
  obtain ⟨expected, resource, context, ⟨isPull, _⟩ | allowed⟩ := allows_iff.mp allows
  · exact above isPull
  · rcases blocked with rfl | cross
    · rw [repositoryResourceContext_wildcard] at context
      cases context
      exact policies.deny_wildcard data rfl rfl repositoryAction allowed
    · exact PolicySets.not_crossUser allowed cross

theorem actionMatches_pull {requested : OciAction} (covers : actionMatches .pull requested = true) :
    requested = .pull := by
  cases requested <;> first | rfl | cases covers

/-- A bearer whose scopes were all contained is allowed no more than its caller. -/
theorem TokenExchange.allows_of_contained {query : TokenQuery} {preferredUsername : Option String}
    (exchange : TokenExchange query preferredUsername)
    (contained : ∀ requested ∈ query.requested, ∀ pattern action,
      parseScope requested = some (pattern, action) →
        Contained (TokenClaims.trimmed preferredUsername) pattern action)
    {repository : String} {action : OciAction}
    (allows : Allows exchange.service.auth exchange.data exchange.bearer repository action) :
    Allows exchange.service.auth exchange.data exchange.identity repository action := by
  obtain ⟨sameName, oidc, _⟩ := exchange.identity_spec
  obtain ⟨granted, epochs, grants, bearerName, isBearer, _, bearerScopes⟩ := exchange.bearer_spec
  have checked := TokenService.grantScopes_granted grants
  rw [exchange.decided] at allows checked ⊢
  obtain ⟨expected, resource, context, anonymous | allowed⟩ := allows_iff.mp allows
  · exact allows_iff.mpr ⟨expected, resource, context, Or.inl anonymous⟩
  · obtain ⟨_, claimed, guarded, _⟩ := PolicySets.allow_iff.mp allowed
    have own := PolicySets.not_crossUser allowed
    obtain ⟨scope, member, pattern, highest, parsed, matched, covers, _⟩ :=
      exists_scope_of_guard (Or.inr isBearer) guarded
    have spaceless := TokenService.spaceless_of_grantScopes grants
    have inGranted : scope ∈ granted :=
      TokenExchange.granted_of_mem_scopes spaceless (bearerScopes ▸ member) parsed
    obtain ⟨requested, namedRepository, namedAction, reparsed, ofCaller⟩ :=
      (checked scope inGranted).resolve_left List.not_mem_nil
    cases Option.some.inj (parsed.symm.trans reparsed)
    simp only [AuthIdentity.request, AuthIdentity.actor, bearerName] at own matched covers
    rcases contained scope requested pattern highest parsed with
      ⟨rfl, literal⟩ | personal | ⟨above, blocked⟩
    · rw [← literal.eq_of_match matched, actionMatches_pull covers]
      exact ofCaller
    · have specific : pattern ≠ "*" := by
        rintro rfl
        rcases personal with inOwn | ⟨user, owned, _⟩
        · rw [show patternBase "*" = "*" by decide, inPersonalNamespace_wildcard] at inOwn
          cases inOwn
        · cases owned
      obtain ⟨rest, extends_, below⟩ := extends_patternBase specific matched
      rw [← sameName] at personal
      rcases personal with inOwn | cross
      · refine allows_iff.mpr ⟨expected, resource, context, Or.inr ?_⟩
        refine PolicySets.allow_personal own claimed ?_ (inPersonalNamespace_extend extends_ inOwn)
        rw [explicitScopeGuardAllows, if_pos]
        simp [AuthIdentity.request, AuthIdentity.actor, oidc]
      · exact absurd (cross.extend extends_ below) own
    · rw [← sameName] at blocked
      exact absurd ofCaller (not_allows_of_blocked above (parseScope_ne_admin parsed) blocked)

/-! ### A scope is a permit -/

/-- A credential whose scope covers a request of a repository action, and which is bound to the
epoch of the repository, is allowed unless a policy forbids it. -/
theorem PolicySets.allow_of_scope {policies : PolicySets} {data : StateMachineData}
    {request : AuthzRequest} {scope pattern : String} {highest : OciAction}
    (credential : request.actor.tokenType = .personalAccess ∨ request.actor.tokenType = .ociBearer)
    (own : ¬ CrossUser request.actor.username request.repository)
    (claimed : unclaimedWrite request = false) (fits : fitsSchema request = true)
    (unforbidden : policies.forbids request = false) (member : scope ∈ request.actor.scopes)
    (parsed : parseScope scope = some (pattern, highest))
    (matched : matchRepository pattern request.repository = true)
    (covers : actionMatches highest request.action = true)
    (repositoryAction : request.action ≠ .admin)
    (bound : ∀ resource, request.resource = some resource →
      handleOf request.repository = .ok resource.namespaceResource.epoch.handle ∧
        resource.namespaceResource.epoch ∈ request.actor.namespaceEpochs) :
    cedarAuthorizationDecision policies.service data request = .allow := by
  obtain ⟨⟨found, allowed⟩, matching⟩ := exists_matchingScope member parsed matched covers
  obtain ⟨_, _, _, foundMatches, foundCovers⟩ := matchingScope_eq_some matching
  have cross : crossUserPersonalNamespace request = false := by
    rw [← Bool.not_eq_true, crossUserPersonalNamespace_iff]
    exact own
  have guarded : explicitScopeGuardAllows request = true := by
    rw [explicitScopeGuardAllows_scoped credential, matching]
    simp only [scopeMatchesNamespaceEpoch]
    cases resolved : request.resource with
    | none => rfl
    | some resource =>
      obtain ⟨target, inEpochs⟩ := bound resource resolved
      simp only [Option.map_some]
      by_cases wildcard : found = "*"
      · rw [wildcard]
        rfl
      · rw [handleOf_of_matchRepository foundMatches wildcard target]
        simp only
        split
        · rfl
        · simpa using inEpochs
  have permitted : request.action ∈ explicitScopePermits request := by
    rw [explicitScopePermits, if_neg (not_unscoped_of_credential credential), matching]
    refine List.mem_filter.mpr ⟨?_, foundCovers⟩
    cases action : request.action with
    | admin => exact absurd action repositoryAction
    | _ => decide
  refine PolicySets.allow_iff.mpr ⟨cross, claimed, guarded, Or.inr ?_⟩
  rw [PolicySets.isAuthorized, if_neg (not_not.mpr fits), if_neg (by simp [unforbidden]),
    if_pos (Or.inr permitted)]

/-! ### Exchanges that escalate -/

def callerClaims (preferredUsername : Option String) : TokenClaims where
  subject := "caller"
  exp := 3600
  aud := none
  groups := none
  name := none
  preferredUsername := preferredUsername
  email := none
  scope := none
  namespaceEpochs := []
  tokenType := none
  iat := none
  iss := none

/-- The identity of a provider token with those claims and without groups. -/
def caller (preferredUsername : Option String) : AuthIdentity where
  subject := "caller"
  principal := ⟨"oidc:user:caller"⟩
  username := TokenClaims.trimmed preferredUsername
  displayName := none
  email := none
  groups := []
  groupIds := []
  scopes := []
  namespaceEpochs := []
  tokenType := .oidcAccess

/-- A service that knows the provider token of the caller and signs one bearer. -/
def exchangeService (auth : AuthService) (preferredUsername : Option String)
    (claims : TokenClaims) : TokenService where
  auth := auth
  jwt :=
    { encode := fun signed => if signed = claims then .ok "bearer" else .error "unknown claims"
      decode := fun now token => if token = "bearer" ∧ now ≤ claims.exp then some claims else none
      decodeHeader := fun token => if token = "bearer" then some none else some (some "key")
      decodeWithKey := fun _ _ _ => .ok (callerClaims preferredUsername, [])
      leeway := 0 }
  providerName := "oidc"
  sha256Hex := fun _ => ""
  isUuid := fun _ => false

theorem caller_unscoped (preferredUsername : Option String) :
    (caller preferredUsername).tokenType.Unscoped :=
  show TokenType.oidcAccess.Unscoped by decide

theorem userPrincipal_caller :
    ProviderQualifiedId.new "oidc" .user "caller" = .ok ⟨"oidc:user:caller"⟩ := by
  rfl

theorem validateOidcToken_caller (auth : AuthService) (preferredUsername : Option String)
    (claims : TokenClaims) :
    (exchangeService auth preferredUsername claims).validateOidcToken 0 "provider" =
      .ok (caller preferredUsername) := by
  have verified : (exchangeService auth preferredUsername claims).verifyTokenClaims 0 "provider" =
      .ok (callerClaims preferredUsername, []) := rfl
  have named : (exchangeService auth preferredUsername claims).userPrincipal
      (callerClaims preferredUsername).subject = .ok ⟨"oidc:user:caller"⟩ := userPrincipal_caller
  have groupless : stableGroupIds (exchangeService auth preferredUsername claims).isUuid
      (exchangeService auth preferredUsername claims).providerName [] = [] := by
    simp [stableGroupIds]
  rw [TokenService.validateOidcToken, verified]
  simp only [TokenService.identityOfClaims, named, groupless]
  rfl

theorem exchangeService_lawful (auth : AuthService) (preferredUsername : Option String)
    (claims : TokenClaims) : (exchangeService auth preferredUsername claims).jwt.Lawful := by
  have signed : ∀ {other token}, (exchangeService auth preferredUsername claims).jwt.encode other =
      .ok token → other = claims ∧ token = "bearer" := by
    intro other token encoded
    simp only [exchangeService] at encoded
    split at encoded
    · rename_i same
      exact ⟨same, (Except.ok.inj encoded).symm⟩
    · cases encoded
  constructor
  · intro other token encoded _ now
    obtain ⟨rfl, rfl⟩ := signed encoded
    simp [exchangeService]
  · intro other token encoded
    obtain ⟨rfl, rfl⟩ := signed encoded
    rfl
  · intro other token encoded
    obtain ⟨rfl, rfl⟩ := signed encoded
    decide

/-- Where checks fail with denials only, the caller obtains a bearer for every query. -/
theorem exists_exchange (policies : PolicySets) (data : StateMachineData) (query : TokenQuery)
    (preferredUsername : Option String)
    (onlyDenied : ∀ repository action error,
      checkPermission policies.service data (caller preferredUsername) repository action =
        .error error → ∃ message, error = .denied message) :
    ∃ exchange : TokenExchange query preferredUsername, exchange.policies = policies ∧
      exchange.data = data ∧ exchange.identity = caller preferredUsername := by
  have complete := @TokenService.grantScopes_complete
    (exchangeService policies.service preferredUsername (callerClaims preferredUsername)) data
    (caller preferredUsername) onlyDenied query.requested [] []
  obtain ⟨granted, epochs, grants, _⟩ := complete
  let claims := TokenService.bearerClaims 0 (caller preferredUsername) (" ".intercalate granted)
    epochs
  let service := exchangeService policies.service preferredUsername claims
  have lawful := exchangeService_lawful policies.service preferredUsername claims
  have encoded : service.jwt.encode claims = .ok "bearer" := if_pos rfl
  have sameGrants : service.grantScopes data (caller preferredUsername) query.requested ([], []) =
      .ok (granted, epochs) := by
    have sameAuth : service.auth = (exchangeService policies.service preferredUsername
        (callerClaims preferredUsername)).auth := rfl
    rw [TokenService.grantScopes_congr sameAuth]
    exact grants
  have minted : service.Minted "bearer" claims := ⟨encoded, rfl, _, userPrincipal_caller⟩
  obtain ⟨bearer, accepted⟩ := (minted.validateToken_iff lawful 0 data).mpr (Nat.zero_le _)
  exact ⟨{
    policies := policies
    service := service
    data := data
    identity := caller preferredUsername
    bearer := bearer
    decided := rfl
    lawful := lawful
    validated := ⟨0, "provider", callerClaims preferredUsername, [], rfl, rfl,
      validateOidcToken_caller policies.service preferredUsername claims⟩
    answered := ⟨0, _, 0, TokenService.issueToken_of_granted sameGrants encoded, accepted⟩ },
    rfl, rfl, rfl⟩

/-- With policies that forbid nothing, the bearer pulls from every repository that a granted scope
covers, within the trees of its user. -/
theorem TokenExchange.bearer_pulls {query : TokenQuery} {preferredUsername : Option String}
    (exchange : TokenExchange query preferredUsername) (keyed : KeyedNamespaces exchange.data)
    (unforbidden : ∀ request, exchange.policies.forbids request = false)
    {requested pattern repository : String} {highest : OciAction}
    (asked : requested ∈ query.requested)
    (parsed : parseScope requested = some (pattern, highest))
    (granted : Allows exchange.service.auth exchange.data exchange.identity pattern highest)
    (bound : pattern = "*" → ∀ handle : String, exchange.data.namespaces[handle]? = none)
    (matched : matchRepository pattern repository = true) (specific : repository ≠ "*")
    (own : ¬ CrossUser exchange.identity.username repository) :
    Allows exchange.service.auth exchange.data exchange.bearer repository .pull := by
  obtain ⟨access, permitted⟩ := granted
  obtain ⟨scopes, epochs, grants, bearerName, isBearer, bearerEpochs, bearerScopes⟩ :=
    exchange.bearer_spec
  have inScopes : requested ∈ exchange.bearer.scopes ∧
      ∀ epoch, access.expectedNamespace = some epoch →
        epoch ∈ exchange.bearer.namespaceEpochs := by
    have onlyDenied : ∀ repository action error, checkPermission exchange.service.auth
        exchange.data exchange.identity repository action = .error error →
          ∃ message, error = .denied message :=
      fun _ _ _ failed => checkPermission_denied keyed failed
    obtain ⟨_, _, same, _, _, complete⟩ :=
      TokenService.grantScopes_complete onlyDenied query.requested [] []
    cases grants.symm.trans same
    obtain ⟨member, recorded⟩ := complete requested asked pattern highest access parsed permitted
    rw [bearerScopes, bearerEpochs]
    exact ⟨mem_scopes_of_granted (TokenService.spaceless_of_grantScopes grants) member, recorded⟩
  rw [exchange.decided] at permitted ⊢
  obtain ⟨expected, _, patternContext, accessEq, _⟩ := checkPermission_eq_ok.mp permitted
  have covers : actionMatches highest .pull = true := by
    have repositoryAction := parseScope_ne_admin parsed
    cases highest <;> first | rfl | exact absurd rfl repositoryAction
  have allow : ∀ resource : Option RepositoryResource, (∀ found, resource = some found →
      handleOf repository = .ok found.namespaceResource.epoch.handle ∧
        found.namespaceResource.epoch ∈ exchange.bearer.namespaceEpochs) →
      cedarAuthorizationDecision exchange.policies.service exchange.data
        (exchange.bearer.request repository resource .pull) = .allow := by
    intro resource epochBound
    refine PolicySets.allow_of_scope (Or.inr isBearer) ?_ ?_ ?_ (unforbidden _) inScopes.1 parsed
      matched covers (by simp [AuthIdentity.request]) epochBound
    · simpa [AuthIdentity.request, AuthIdentity.actor, bearerName] using own
    · simp [unclaimedWrite, AuthIdentity.request]
    · simp [fitsSchema, AuthIdentity.request, specific]
  rcases repositoryResourceContext_cases keyed repository .pull with ⟨_, context⟩ |
      ⟨live, resource, target, unreserved, found, epochEq, context⟩ | ⟨_, _, impossible, _⟩
  · exact allows_iff.mpr ⟨_, _, context, Or.inr (allow none (by simp))⟩
  · refine allows_iff.mpr ⟨_, _, context, Or.inr (allow (some resource) ?_)⟩
    intro other same
    cases same
    have specificPattern : pattern ≠ "*" := by
      intro wildcard
      rw [bound wildcard] at found
      cases found
    have patternTarget := handleOf_of_matchRepository matched specificPattern target
    refine ⟨by rw [epochEq]; exact target, inScopes.2 _ ?_⟩
    rcases repositoryResourceContext_cases keyed pattern highest with ⟨unclaimed, _⟩ |
        ⟨patternLive, _, sameTarget, _, patternFound, _, foundContext⟩ |
        ⟨handle, _, _, sameTarget, _, unclaimed, _⟩
    · rw [unclaimed live.handle patternTarget unreserved] at found
      cases found
    · cases patternContext.symm.trans foundContext
      have sameHandle : patternLive.handle = live.handle :=
        Except.ok.inj (sameTarget.symm.trans patternTarget)
      rw [sameHandle, found] at patternFound
      cases patternFound
      rw [accessEq, epochEq]
    · cases Except.ok.inj (sameTarget.symm.trans patternTarget)
      rw [unclaimed] at found
      cases found
  · exact absurd rfl impossible

theorem allows_caller {preferredUsername : Option String} {pattern : String} {action : OciAction}
    (specific : pattern ≠ "*") (repositoryAction : action ≠ .admin)
    (own : ¬ CrossUser (TokenClaims.trimmed preferredUsername) pattern) :
    Allows (permitOnly pattern action).service (claimedNamespace pattern)
      (caller preferredUsername) pattern action := by
  obtain ⟨expected, resource, context⟩ := claimedNamespace_context pattern action
  exact allows_iff.mpr ⟨expected, resource, context, Or.inr (permitOnly_allow
    (caller_unscoped preferredUsername) specific repositoryAction own
    (unclaimedWrite_of_context context))⟩

/-- For every scope that is not contained there are policies and a state in which its bearer
pulls from a repository that the caller may not pull from. -/
theorem exists_escalation {query : TokenQuery} {preferredUsername : Option String}
    {requested pattern : String} {highest : OciAction} (asked : requested ∈ query.requested)
    (parsed : parseScope requested = some (pattern, highest))
    (uncontained : ¬ Contained (TokenClaims.trimmed preferredUsername) pattern highest) :
    ∃ (exchange : TokenExchange query preferredUsername) (repository : String),
      Allows exchange.service.auth exchange.data exchange.bearer repository .pull ∧
      ¬ Allows exchange.service.auth exchange.data exchange.identity repository .pull := by
  rw [Contained, not_or, not_or, not_or] at uncontained
  obtain ⟨unchecked, ⟨outside, own⟩, grantable⟩ := uncontained
  have differs : coveredRepository pattern = pattern → highest ≠ .pull :=
    fun same isPull => unchecked ⟨isPull, isLiteral_of_coveredRepository same⟩
  have outsideCovered := not_personal_coveredRepository outside
  have ownCovered := not_crossUser_coveredRepository own
  have pulls : ∀ (policies : PolicySets) (data : StateMachineData), KeyedNamespaces data →
      (∀ request, policies.forbids request = false) →
      (pattern = "*" → ∀ handle : String, data.namespaces[handle]? = none) →
      Allows policies.service data (caller preferredUsername) pattern highest →
      ¬ Allows policies.service data (caller preferredUsername) (coveredRepository pattern)
        .pull →
      ∃ (exchange : TokenExchange query preferredUsername) (repository : String),
        Allows exchange.service.auth exchange.data exchange.bearer repository .pull ∧
        ¬ Allows exchange.service.auth exchange.data exchange.identity repository .pull := by
    intro policies data keyed unforbidden bound granted denied
    obtain ⟨exchange, rfl, rfl, identityEq⟩ := exists_exchange policies data query
      preferredUsername fun _ _ _ failed => checkPermission_denied keyed failed
    rw [← exchange.decided, ← identityEq] at granted denied
    refine ⟨exchange, coveredRepository pattern, ?_, denied⟩
    refine exchange.bearer_pulls keyed unforbidden asked parsed granted bound
      (matchRepository_coveredRepository pattern) (coveredRepository_ne_wildcard pattern) ?_
    rw [identityEq]
    exact ownCovered
  by_cases blocked : pattern = "*" ∨ CrossUser (TokenClaims.trimmed preferredUsername) pattern
  · -- The policies never decide about the pattern: only a public repository of that name does.
    have isPull : highest = .pull := by
      by_contra above
      exact grantable ⟨above, blocked⟩
    have noNamespace : ∀ handle : String, (publicRepository pattern).namespaces[handle]? = none :=
      fun handle => BTreeMap.getElem?_empty handle
    refine pulls ⟨fun _ => false, fun _ => false⟩ (publicRepository pattern) ?_ (fun _ => rfl)
      (fun _ => noNamespace) ?_ (not_allows_of_unpermitted (caller_unscoped preferredUsername) ?_
        outsideCovered fun _ => rfl)
    · intro handle live found
      rw [noNamespace] at found
      cases found
    · rw [isPull]
      exact checkPermission_publicRepository _ _ _
    · rw [isPublicPull, publicRepository]
      simp only [BTreeMap.getElem?_insert]
      rw [if_neg fun same => differs same.symm isPull]
      rfl
  · rw [not_or] at blocked
    refine pulls (permitOnly pattern highest) (claimedNamespace pattern)
      (claimedNamespace_keyed pattern) (fun _ => rfl) (fun wildcard => absurd wildcard blocked.1)
      (allows_caller blocked.1 (parseScope_ne_admin parsed) blocked.2)
      (not_allows_of_unpermitted (caller_unscoped preferredUsername) ?_ outsideCovered ?_)
    · rw [isPublicPull, claimedNamespace]
      split <;> rfl
    · intro resource
      simp only [permitOnly, AuthIdentity.request, decide_eq_false_iff_not]
      rintro ⟨same, isPull⟩
      exact differs same isPull.symm

/-- A bearer is allowed no more than the OIDC caller it was minted for, for every metadata state
and all policies, exactly when every requested scope is contained. -/
theorem bearers_never_escalate_iff (query : TokenQuery) (preferredUsername : Option String) :
    (∀ (exchange : TokenExchange query preferredUsername) repository action,
      Allows exchange.service.auth exchange.data exchange.bearer repository action →
        Allows exchange.service.auth exchange.data exchange.identity repository action) ↔
    ∀ requested ∈ query.requested, ∀ pattern action,
      parseScope requested = some (pattern, action) →
        Contained (TokenClaims.trimmed preferredUsername) pattern action := by
  constructor
  · intro never requested asked pattern highest parsed
    by_contra uncontained
    obtain ⟨exchange, repository, pulls, denied⟩ := exists_escalation asked parsed uncontained
    exact denied (never exchange repository .pull pulls)
  · intro contained exchange repository action allows
    exact exchange.allows_of_contained contained allows

/-- The caller asks to pull from everything in the namespace. The pattern is allowed as if it were
a repository, and the bearer pulls the one repository that the caller may not pull. -/
theorem bearer_pulls_secret_repository :
    ∃ exchange : TokenExchange ⟨none, ["repository:team/*:pull"]⟩ (some "builder"),
      exchange.policies = allButSecret ∧ exchange.data = claimedNamespace "team/secret" ∧
      Allows exchange.service.auth exchange.data exchange.bearer "team/secret" .pull ∧
      ¬ Allows exchange.service.auth exchange.data exchange.identity "team/secret" .pull := by
  have keyed := claimedNamespace_keyed "team/secret"
  obtain ⟨exchange, samePolicies, sameData, sameIdentity⟩ := exists_exchange allButSecret
    (claimedNamespace "team/secret") ⟨none, ["repository:team/*:pull"]⟩ (some "builder")
    fun _ _ _ failed => checkPermission_denied keyed failed
  refine ⟨exchange, samePolicies, sameData, ?_, ?_⟩
  · have asked : "repository:team/*:pull" ∈ TokenQuery.requested
        ⟨none, ["repository:team/*:pull"]⟩ := by decide
    have parsed : parseScope "repository:team/*:pull" = some ("team/*", .pull) := by decide
    have granted : Allows exchange.service.auth exchange.data exchange.identity "team/*" .pull := by
      rw [exchange.decided, samePolicies, sameData, sameIdentity]
      exact ⟨_, rfl⟩
    have own : ¬ CrossUser exchange.identity.username "team/secret" := by
      rintro ⟨user, owned, _⟩
      cases owned
    exact exchange.bearer_pulls (sameData ▸ keyed) (fun _ => by rw [samePolicies]; rfl) asked
      parsed granted (fun wildcard => absurd wildcard (by decide)) (by decide) (by decide) own
  · rw [exchange.decided, samePolicies, sameData, sameIdentity]
    exact not_allows_of_unpermitted (caller_unscoped _) rfl (by decide) fun _ => rfl

end Layerhouse
