/-
This file is the creation of personal access tokens: `create_token` of
`routes/pat_api.rs` with the ceiling it asks for, `max_grantable_action` of
`auth/mod.rs` and `auth/cedar_authorizer.rs`.

The ceiling is the highest action that the policies allow the creator on the
repository text of a selection. Every lower action then passes, and a pattern is
looked up as if it were a repository, so the token may cover what the creator is
denied. The text of the stored scope is read back by `parse_scope`, which takes a
repository text with two colons apart in another place. Which selections respect
the creator's permissions under every policy is settled exactly.
-/

import Layerhouse.Auth.Policies
import Layerhouse.Auth.Token

namespace Layerhouse

/-! ### The ceiling -/

inductive GrantSource where
  | personal
  | groupGrant
  | publicAccess
deriving DecidableEq

def repositoryResourceForAuthorization (data : StateMachineData) (repository : String) :
    Except LayerhouseError (Option RepositoryResource) :=
  match handleOf repository with
  | .error _ => .ok none
  | .ok handle =>
    if isHandleReserved handle then .ok none
    else
      match data.namespaces[handle]? with
      | none => .ok none
      | some live => (RepositoryResource.fromRepository repository live).map some

def AuthService.authorize (service : AuthService) (data : StateMachineData)
    (request : AuthzRequest) : Except String AuthzDecision :=
  (service.policyForRequest data request).map (cedarDecision service.cedar · request)

/-- The loop of `max_grantable_action` over the actions that are left: the last allowed one. -/
def lastAllowed (authorize : OciAction → Except String AuthzDecision) :
    List OciAction → Option OciAction → Except String (Option OciAction)
  | [], highest => .ok highest
  | action :: rest, highest =>
    match authorize action with
    | .error message => .error message
    | .ok .allow => lastAllowed authorize rest (some action)
    | .ok .deny => lastAllowed authorize rest highest

/-- `CedarRepositoryAuthorizer::max_grantable_action`. Its error is only logged, so the text of a
failed lookup is left out. -/
def cedarMaxGrantableAction (service : AuthService) (data : StateMachineData) (actor : Actor)
    (repository : String) : Except String (Option OciAction) :=
  match repositoryResourceForAuthorization data repository with
  | .error _ => .error "invalid repository"
  | .ok resource =>
    lastAllowed (fun action => service.authorize data
      { actor := actor
        repository := repository
        resource := resource
        action := action }) [.pull, .create, .update, .delete] none

def usesExplicitScopes (identity : AuthIdentity) : Bool :=
  identity.tokenType = .personalAccess ∨ identity.tokenType = .ociBearer

def grantSourceForAuthorizedAction (data : StateMachineData) (identity : AuthIdentity)
    (repository : String) (action : OciAction) : GrantSource :=
  if action = .pull ∧ isPublicPull data repository then .publicAccess
  else if action = .delete ∧ inPersonalNamespace identity.username repository then .personal
  else if action = .delete ∧ ¬ usesExplicitScopes identity then
    match handleOf repository with
    | .error _ => .groupGrant
    | .ok handle =>
      if ¬ isHandleReserved handle ∧
          data.namespaces[handle]?.any (·.owner = .user identity.subject) then .personal
      else .groupGrant
  else .groupGrant

/-- The highest action the identity is allowed on a repository, and where it comes from. -/
def maxGrantableAction (service : AuthService) (data : StateMachineData)
    (identity : AuthIdentity) (repository : String) :
    Except LayerhouseError (OciAction × GrantSource) :=
  match cedarMaxGrantableAction service data identity.actor repository with
  | .ok (some action) =>
    .ok (action, grantSourceForAuthorizedAction data identity repository action)
  | .ok none | .error _ =>
    if isPublicPull data repository then .ok (.pull, .publicAccess)
    else .error (.denied ("access denied for repository " ++ repository))

/-! ### Creation -/

structure PatScopeSelection where
  repository : String
  actions : List OciAction
deriving DecidableEq

structure CreatePatRequest where
  name : String
  scopes : List PatScopeSelection
  expiresInDays : Option Nat

structure CreatePatResponse where
  id : String
  name : String
  token : String
  scopes : List String
  createdAt : Nat
  expiresAt : Option Nat

namespace PatScopeSelection

def repo (selection : PatScopeSelection) : String :=
  String.ofList (Text.trim selection.repository.toList)

def scopeStr (selection : PatScopeSelection) : String :=
  "repository:" ++ selection.repo ++ ":" ++
    ",".intercalate (selection.actions.map OciAction.scopeToken)

end PatScopeSelection

/-- A scope may not target another user's personal namespace. -/
def patScopeAllowedForIdentity (scope : String) (username : Option String) :
    Except LayerhouseError Unit :=
  match parseScope scope with
  | none => .ok ()
  | some (pattern, _) =>
    match inPersonalNamespaceOf (patternBase pattern) with
    | none => .ok ()
    | some target =>
      match username.filter (· ≠ "") with
      | none => .error (.denied ("scope " ++ Text.debugStr scope ++
          " targets a personal namespace but your session has no username"))
      | some own =>
        if target ≠ own then
          .error (.denied ("scope " ++ Text.debugStr scope ++
            " targets another user's personal namespace"))
        else .ok ()

def recordScopeNamespaceEpoch (data : StateMachineData) (repo : String)
    (epochs : List NamespaceEpoch) : List NamespaceEpoch :=
  match handleOf repo with
  | .error _ => epochs
  | .ok handle =>
    if isHandleReserved handle then epochs
    else
      match data.namespaces[handle]? with
      | none => epochs
      | some live =>
        let epoch := NamespaceEpoch.fromNamespace live
        if epoch ∈ epochs then epochs else epochs ++ [epoch]

/-- The checks of one selection, in the order of the handler. -/
def checkSelection (service : AuthService) (data : StateMachineData) (identity : AuthIdentity)
    (selection : PatScopeSelection) : Except LayerhouseError Unit :=
  if selection.repo = "" then .error (.nameInvalid "scope repository is required")
  else if selection.actions.any (· = .admin) then
    .error (.nameInvalid "PAT scopes only support repository actions")
  else
    match patScopeAllowedForIdentity selection.scopeStr identity.username with
    | .error error => .error error
    | .ok () =>
      match maxGrantableAction service data identity selection.repo with
      | .error error => .error error
      | .ok (highest, _) =>
        match selection.actions.find? (¬ actionMatches highest ·) with
        | some action =>
          .error (.denied ("cannot grant action " ++ action.scopeToken ++ " on repository " ++
            Text.debugStr selection.repo ++ ": your maximum grantable action is " ++
            highest.scopeToken))
        | none => .ok ()

/-- The loop over the selections. -/
def checkSelections (service : AuthService) (data : StateMachineData) (identity : AuthIdentity) :
    List PatScopeSelection → List String × List NamespaceEpoch →
      Except LayerhouseError (List String × List NamespaceEpoch)
  | [], stored => .ok stored
  | selection :: rest, (scopes, epochs) =>
    match checkSelection service data identity selection with
    | .error error => .error error
    | .ok () =>
      checkSelections service data identity rest
        (scopes ++ [selection.scopeStr], recordScopeNamespaceEpoch data selection.repo epochs)

/-- What the handler draws at random and reads from the clock. -/
structure TokenDraw where
  id : String
  rawToken : String
  now : Nat

/-- The handler up to the commit of the token, with authentication configured. -/
def createToken (service : TokenService) (data : StateMachineData) (identity : AuthIdentity)
    (request : CreatePatRequest) (draw : TokenDraw) :
    Except LayerhouseError (PersonalAccessToken × CreatePatResponse) :=
  if Text.trim request.name.toList = [] then .error (.nameInvalid "token name is required")
  else
    match checkSelections service.auth data identity request.scopes ([], []) with
    | .error error => .error error
    | .ok (scopes, epochs) =>
      let expiresAt := request.expiresInDays.map fun days => draw.now + days * 86400
      .ok
        ({ id := draw.id
           subject := identity.subject
           username := identity.username
           name := request.name
           tokenHash := service.tokenHash draw.rawToken
           tokenPrefix := String.ofList (draw.rawToken.toList.take 12)
           scopes := scopes
           namespaceEpochs := epochs
           createdAt := draw.now
           lastUsedAt := none
           expiresAt := expiresAt },
         { id := draw.id
           name := request.name
           token := draw.rawToken
           scopes := scopes
           createdAt := draw.now
           expiresAt := expiresAt })

/-! ### What a created token stores -/

/-- Every selection of an accepted request was checked, and its scope is stored. -/
theorem checkSelections_eq_ok {service : AuthService} {data : StateMachineData}
    {identity : AuthIdentity} {selections : List PatScopeSelection} {scopes stored : List String}
    {epochs recorded : List NamespaceEpoch}
    (accepted : checkSelections service data identity selections (scopes, epochs) =
      .ok (stored, recorded)) :
    scopes ⊆ stored ∧ ∀ selection ∈ selections,
      checkSelection service data identity selection = .ok () ∧ selection.scopeStr ∈ stored := by
  induction selections generalizing scopes epochs with
  | nil =>
    cases accepted
    exact ⟨List.Subset.refl _, by simp⟩
  | cons first rest inductionHypothesis =>
    rw [checkSelections] at accepted
    cases checked : checkSelection service data identity first with
    | error error =>
      rw [checked] at accepted
      cases accepted
    | ok done =>
      rw [checked] at accepted
      obtain ⟨keeps, later⟩ := inductionHypothesis accepted
      refine ⟨fun scope member => keeps (List.mem_append_left _ member), ?_⟩
      intro selection member
      rcases List.mem_cons.mp member with rfl | inRest
      · exact ⟨checked, keeps (by simp)⟩
      · exact later selection inRest

/-- A token that a session created from a request with the selection, in one metadata state. -/
structure TokenCreation (selection : PatScopeSelection) (username : Option String) where
  policies : PolicySets
  service : TokenService
  data : StateMachineData
  identity : AuthIdentity
  request : CreatePatRequest
  pat : PersonalAccessToken
  decided : service.auth = policies.service
  session : identity.tokenType = .session
  named : identity.username = username
  selected : selection ∈ request.scopes
  created : ∃ draw response,
    createToken service data identity request draw = .ok (pat, response)

theorem TokenCreation.checked {selection : PatScopeSelection} {username : Option String}
    (creation : TokenCreation selection username) :
    checkSelection creation.service.auth creation.data creation.identity selection = .ok () ∧
      selection.scopeStr ∈ creation.pat.scopes := by
  obtain ⟨draw, response, created⟩ := creation.created
  rw [createToken] at created
  split at created
  · cases created
  · split at created
    · cases created
    · rename_i stored recorded accepted
      obtain ⟨check, member⟩ := (checkSelections_eq_ok accepted).2 selection creation.selected
      refine ⟨check, ?_⟩
      rw [← congrArg (fun made => made.1.scopes) (Except.ok.inj created)]
      exact member

/-! ### Selections that are refused or stay in a personal namespace -/

/-- No session of the user is given a token with the selection, whatever the policies are. -/
def PatScopeSelection.Refused (username : Option String) (selection : PatScopeSelection) : Prop :=
  selection.repo = "" ∨ .admin ∈ selection.actions ∨
    (∃ error, patScopeAllowedForIdentity selection.scopeStr username = .error error) ∨
    (∃ action ∈ selection.actions, action ≠ .pull) ∧
      (selection.repo = "*" ∨ CrossUser username selection.repo)

/-- A selection whose stored scope covers nothing, or only repositories of the creator's own
personal namespace. -/
def PatScopeSelection.Contained (username : Option String) (selection : PatScopeSelection) :
    Prop :=
  ∀ pattern action, parseScope selection.scopeStr = some (pattern, action) →
    inPersonalNamespace username (patternBase pattern) = true

theorem lastAllowed_of_deny {authorize : OciAction → Except String AuthzDecision}
    {actions : List OciAction} (denied : ∀ action ∈ actions, authorize action = .ok .deny)
    (highest : Option OciAction) : lastAllowed authorize actions highest = .ok highest := by
  induction actions with
  | nil => rfl
  | cons action rest inductionHypothesis =>
    rw [lastAllowed, denied action List.mem_cons_self]
    exact inductionHypothesis fun other member => denied other (List.mem_cons_of_mem action member)

theorem lastAllowed_concat {authorize : OciAction → Except String AuthzDecision}
    (answers : ∀ action, ∃ decision, authorize action = .ok decision)
    {action : OciAction} (allowed : authorize action = .ok .allow) (actions : List OciAction)
    (highest : Option OciAction) :
    lastAllowed authorize (actions ++ [action]) highest = .ok (some action) := by
  induction actions generalizing highest with
  | nil =>
    rw [List.nil_append, lastAllowed, allowed]
    rfl
  | cons first rest inductionHypothesis =>
    rw [List.cons_append, lastAllowed]
    obtain ⟨decision, decided⟩ := answers first
    rw [decided]
    cases decision with
    | allow => exact inductionHypothesis (some first)
    | deny => exact inductionHypothesis highest

theorem authorize_service (policies : PolicySets) (data : StateMachineData)
    (request : AuthzRequest) :
    policies.service.authorize data request =
      .ok (cedarAuthorizationDecision policies.service data request) := rfl

/-- On the wildcard and in another user's tree the ceiling can only be the public one. -/
theorem maxGrantableAction_of_blocked {policies : PolicySets} {data : StateMachineData}
    {identity : AuthIdentity} {repository : String} {highest : OciAction} {source : GrantSource}
    (blocked : repository = "*" ∨ CrossUser identity.username repository)
    (found : maxGrantableAction policies.service data identity repository =
      .ok (highest, source)) : highest = .pull := by
  have nothing : ∀ action, cedarMaxGrantableAction policies.service data identity.actor
      repository ≠ .ok (some action) := by
    intro action impossible
    rw [cedarMaxGrantableAction] at impossible
    split at impossible
    · cases impossible
    · rename_i resource resolved
      rw [lastAllowed_of_deny] at impossible
      · cases impossible
      · intro other member
        rw [authorize_service]
        refine congrArg Except.ok ?_
        cases decided : cedarAuthorizationDecision policies.service data
            { actor := identity.actor
              repository := repository
              resource := resource
              action := other } with
        | deny => rfl
        | allow =>
          exfalso
          rcases blocked with rfl | cross
          · cases resolved
            refine policies.deny_wildcard data rfl rfl ?_ decided
            rintro rfl
            exact absurd member (by decide)
          · exact PolicySets.not_crossUser decided cross
  rw [maxGrantableAction] at found
  split at found
  · rename_i action granted
    exact absurd granted (nothing action)
  all_goals
    split at found
    · cases found
      rfl
    · cases found

theorem checkSelection_eq_ok {service : AuthService} {data : StateMachineData}
    {identity : AuthIdentity} {selection : PatScopeSelection} :
    checkSelection service data identity selection = .ok () ↔
      selection.repo ≠ "" ∧ .admin ∉ selection.actions ∧
        patScopeAllowedForIdentity selection.scopeStr identity.username = .ok () ∧
        ∃ highest source, maxGrantableAction service data identity selection.repo =
            .ok (highest, source) ∧
          ∀ action ∈ selection.actions, actionMatches highest action = true := by
  rw [checkSelection]
  by_cases blank : selection.repo = ""
  · simp [blank]
  · by_cases isAdmin : .admin ∈ selection.actions
    · simp [blank, isAdmin]
    · rw [if_neg blank, if_neg (by simpa using isAdmin)]
      cases patScopeAllowedForIdentity selection.scopeStr identity.username with
      | error error => simp
      | ok done =>
        cases maxGrantableAction service data identity selection.repo with
        | error error => simp
        | ok found =>
          obtain ⟨highest, source⟩ := found
          cases exceeding : selection.actions.find? (¬ actionMatches highest ·) with
          | none =>
            have all : ∀ action ∈ selection.actions, actionMatches highest action = true := by
              simpa using exceeding
            simp only [exceeding, true_iff]
            exact ⟨blank, isAdmin, trivial, highest, source, rfl, all⟩
          | some action =>
            have member := List.mem_of_find?_eq_some exceeding
            have unmatched := List.find?_some exceeding
            simp only [exceeding, reduceCtorEq, false_iff]
            rintro ⟨_, _, _, other, _, same, all⟩
            cases same
            simp [all action member] at unmatched

theorem PatScopeSelection.not_refused {policies : PolicySets} {data : StateMachineData}
    {identity : AuthIdentity} {selection : PatScopeSelection}
    (checked : checkSelection policies.service data identity selection = .ok ()) :
    ¬ selection.Refused identity.username := by
  obtain ⟨named, repositoryActions, inOwn, highest, source, ceiling, all⟩ :=
    checkSelection_eq_ok.mp checked
  rintro (blank | isAdmin | ⟨error, failed⟩ | ⟨⟨action, member, above⟩, blocked⟩)
  · exact named blank
  · exact repositoryActions isAdmin
  · cases inOwn.symm.trans failed
  · have covered := all action member
    rw [maxGrantableAction_of_blocked blocked ceiling] at covered
    cases action with
    | pull => exact above rfl
    | _ => cases covered

/-- A scope that passed is in no other user's tree. -/
theorem not_crossUser_of_patScopeAllowed {scope pattern : String} {username : Option String}
    {action : OciAction} (parsed : parseScope scope = some (pattern, action))
    (passed : patScopeAllowedForIdentity scope username = .ok ()) :
    ¬ CrossUser username (patternBase pattern) := by
  rintro ⟨user, owned, other⟩
  rw [patScopeAllowedForIdentity, parsed] at passed
  simp only [owned] at passed
  cases username with
  | none => cases passed
  | some own =>
    rw [Option.filter_some] at passed
    split at passed
    · cases passed
    · rename_i kept
      split at kept
      · cases kept
        split at passed
        · cases passed
        · rename_i same
          exact other (by rw [not_not.mp same])
      · cases kept

/-- The repositories of personal trees have no namespace of their own. -/
theorem repositoryResourceContext_personal {username : Option String} {repository : String}
    (personal : inPersonalNamespace username repository = true) (data : StateMachineData)
    (action : OciAction) :
    repositoryResourceContext data repository action = .ok (none, none) := by
  obtain ⟨tree, nonempty, found⟩ := stripPrefix_of_inPersonalNamespace personal
  have target : handleOf repository = .ok "users" := by
    refine handleOf_toList.mpr ⟨tree, nonempty, ?_, by decide⟩
    rw [Text.stripPrefix_eq_some.mp found]
    rfl
  rw [repositoryResourceContext, target]
  rfl

/-- The creator is allowed everything that a contained selection covers. -/
theorem TokenCreation.allows_of_contained {selection : PatScopeSelection}
    {username : Option String} (creation : TokenCreation selection username)
    (contained : selection.Contained username) {repository : String} {action : OciAction}
    (covers : matchingScope [selection.scopeStr] repository action ≠ none) :
    Allows creation.service.auth creation.data creation.identity repository action := by
  obtain ⟨check, _⟩ := creation.checked
  obtain ⟨_, _, inOwn, _⟩ := checkSelection_eq_ok.mp check
  obtain ⟨⟨pattern, highest⟩, found⟩ := Option.ne_none_iff_exists'.mp covers
  obtain ⟨scope, member, parsed, matched, _⟩ := matchingScope_eq_some found
  rw [List.mem_singleton.mp member] at parsed
  have personal := contained pattern highest parsed
  have specific : pattern ≠ "*" := by
    rintro rfl
    rw [show patternBase "*" = "*" by decide, inPersonalNamespace_wildcard] at personal
    cases personal
  obtain ⟨rest, extends_, below⟩ := extends_patternBase specific matched
  obtain ⟨tree, _, inTrees⟩ := stripPrefix_of_inPersonalNamespace personal
  have sameUser := inPersonalNamespaceOf_extend extends_ below (by rw [inTrees]; rfl)
  have own : ¬ CrossUser creation.identity.username repository := by
    rintro ⟨user, owned, other⟩
    rw [sameUser] at owned
    exact not_crossUser_of_patScopeAllowed parsed inOwn ⟨user, owned, other⟩
  have inNamespace := inPersonalNamespace_extend extends_ personal
  rw [← creation.named] at inNamespace
  have context := repositoryResourceContext_personal inNamespace creation.data action
  rw [creation.decided]
  refine allows_iff.mpr ⟨none, none, context, Or.inr ?_⟩
  refine PolicySets.allow_personal own (unclaimedWrite_of_context context)
    (explicitScopeGuardAllows_unscoped ?_) inNamespace
  change creation.identity.tokenType.Unscoped
  rw [creation.session]
  decide

/-! ### Tokens that exceed their creator -/

/-- A session of a user. -/
def sessionOf (username : Option String) : AuthIdentity where
  subject := "caller"
  principal := ⟨"oidc:user:caller"⟩
  username := username
  displayName := none
  email := none
  groups := []
  groupIds := []
  scopes := []
  namespaceEpochs := []
  tokenType := .session

theorem sessionOf_unscoped (username : Option String) :
    (sessionOf username).tokenType.Unscoped :=
  show TokenType.session.Unscoped by decide

/-- A service without signing keys: the creation of tokens signs nothing. -/
def unsignedService (auth : AuthService) : TokenService where
  auth := auth
  jwt :=
    { encode := fun _ => .error "no key"
      decode := fun _ _ => none
      decodeHeader := fun _ => none
      decodeWithKey := fun _ _ _ => .error (unauthorized "invalid token")
      leeway := 0 }
  providerName := "oidc"
  sha256Hex := fun _ => ""
  isUuid := fun _ => false

/-- A selection that passes its checks is stored in the token of a request for it alone. -/
theorem exists_creation {policies : PolicySets} {data : StateMachineData}
    {username : Option String} {selection : PatScopeSelection}
    (checked : checkSelection policies.service data (sessionOf username) selection = .ok ()) :
    ∃ creation : TokenCreation selection username, creation.policies = policies ∧
      creation.data = data ∧ creation.identity = sessionOf username := by
  have accepted : checkSelections policies.service data (sessionOf username) [selection]
      ([], []) = .ok ([selection.scopeStr], recordScopeNamespaceEpoch data selection.repo []) := by
    rw [checkSelections, checked]
    rfl
  have created : ∃ pat response, createToken (unsignedService policies.service) data
      (sessionOf username) ⟨"token", [selection], none⟩ ⟨"id", "layerhouse-", 0⟩ =
        .ok (pat, response) := by
    rw [createToken, if_neg (show ¬ Text.trim "token".toList = [] by decide), unsignedService,
      accepted]
    exact ⟨_, _, rfl⟩
  obtain ⟨pat, response, created⟩ := created
  exact ⟨{
    policies := policies
    service := unsignedService policies.service
    data := data
    identity := sessionOf username
    request := ⟨"token", [selection], none⟩
    pat := pat
    decided := rfl
    session := rfl
    named := rfl
    selected := List.mem_singleton.mpr rfl
    created := ⟨_, response, created⟩ }, rfl, rfl, rfl⟩

theorem repositoryResourceForAuthorization_of_context {data : StateMachineData}
    {repository : String} {action : OciAction} {expected : Option NamespaceEpoch}
    {resource : Option RepositoryResource}
    (context : repositoryResourceContext data repository action = .ok (expected, resource)) :
    repositoryResourceForAuthorization data repository = .ok resource := by
  rw [repositoryResourceContext] at context
  rw [repositoryResourceForAuthorization]
  cases target : handleOf repository with
  | error error =>
    rw [target] at context
    cases context
    rfl
  | ok handle =>
    rw [target] at context
    simp only at context ⊢
    split at context
    · rename_i reserved
      cases context
      rw [if_pos reserved]
    · rename_i unreserved
      rw [if_neg unreserved]
      cases found : data.namespaces[handle]? with
      | none =>
        rw [found] at context
        simp only at context
        split at context
        · cases context
        · cases context
          rfl
      | some live =>
        rw [found] at context
        simp only at context ⊢
        cases built : RepositoryResource.fromRepository repository live with
        | error error =>
          rw [built] at context
          cases context
        | ok resource =>
          rw [built] at context
          cases context
          rfl

/-- With a permit to delete, the ceiling is the top of the ladder. -/
theorem maxGrantableAction_permitOnly {identity : AuthIdentity} {repository : String}
    (unscoped : identity.tokenType.Unscoped) (specific : repository ≠ "*")
    (own : ¬ CrossUser identity.username repository) :
    ∃ source, maxGrantableAction (permitOnly repository .delete).service
      (claimedNamespace repository) identity repository = .ok (.delete, source) := by
  obtain ⟨expected, resource, context⟩ := claimedNamespace_context repository .delete
  have resolved := repositoryResourceForAuthorization_of_context context
  have deletes : cedarAuthorizationDecision (permitOnly repository .delete).service
      (claimedNamespace repository) (identity.request repository resource .delete) = .allow :=
    permitOnly_allow unscoped specific (by decide) own (unclaimedWrite_of_context context)
  have granted : cedarMaxGrantableAction (permitOnly repository .delete).service
      (claimedNamespace repository) identity.actor repository = .ok (some .delete) := by
    rw [cedarMaxGrantableAction, resolved]
    refine lastAllowed_concat (fun action => ⟨_, authorize_service _ _ _⟩) ?_
      [.pull, .create, .update] none
    rw [authorize_service]
    exact congrArg Except.ok deletes
  rw [maxGrantableAction, granted]
  exact ⟨_, rfl⟩

/-- The public ceiling of a repository that the policies decide nothing about. -/
theorem maxGrantableAction_public {identity : AuthIdentity} {repository : String}
    (blocked : repository = "*" ∨ CrossUser identity.username repository) :
    ∃ source, maxGrantableAction (PolicySets.service ⟨fun _ => false, fun _ => false⟩)
      (publicRepository repository) identity repository = .ok (.pull, source) := by
  have stored : isPublicPull (publicRepository repository) repository = true := by
    rw [isPublicPull, publicRepository]
    simp only [BTreeMap.getElem?_insert, if_pos]
    rfl
  have found : ∃ highest source, maxGrantableAction
      (PolicySets.service ⟨fun _ => false, fun _ => false⟩) (publicRepository repository) identity
        repository = .ok (highest, source) := by
    rw [maxGrantableAction]
    split
    · exact ⟨_, _, rfl⟩
    · exact ⟨_, _, if_pos stored⟩
    · exact ⟨_, _, if_pos stored⟩
  obtain ⟨highest, source, found⟩ := found
  rw [maxGrantableAction_of_blocked blocked found] at found
  exact ⟨source, found⟩

/-- For every other selection there are policies and a state in which the token covers a pull that
its creator is denied. -/
theorem exists_excess {selection : PatScopeSelection} {username : Option String}
    (accepted : ¬ selection.Refused username) (uncontained : ¬ selection.Contained username) :
    ∃ (creation : TokenCreation selection username) (repository : String),
      matchingScope [selection.scopeStr] repository .pull ≠ none ∧
      ¬ Allows creation.service.auth creation.data creation.identity repository .pull := by
  rw [PatScopeSelection.Refused, not_or, not_or, not_or] at accepted
  obtain ⟨named, repositoryActions, passes, unblocked⟩ := accepted
  simp only [PatScopeSelection.Contained, not_forall] at uncontained
  obtain ⟨pattern, highest, parsed, outside⟩ := uncontained
  have passed : patScopeAllowedForIdentity selection.scopeStr username = .ok () := by
    cases outcome : patScopeAllowedForIdentity selection.scopeStr username with
    | error error => exact absurd ⟨error, outcome⟩ passes
    | ok done => rfl
  have own := not_crossUser_of_patScopeAllowed parsed passed
  have covered : matchingScope [selection.scopeStr] (coveredRepository pattern) .pull ≠ none := by
    have repositoryAction := parseScope_ne_admin parsed
    have pulls : actionMatches highest .pull = true := by
      cases highest <;> first | rfl | exact absurd rfl repositoryAction
    obtain ⟨found, matching⟩ := exists_matchingScope (List.mem_singleton.mpr rfl) parsed
      (matchRepository_coveredRepository pattern) pulls
    rw [matching]
    exact Option.some_ne_none found
  have exceeds : ∀ (policies : PolicySets) (data : StateMachineData),
      checkSelection policies.service data (sessionOf username) selection = .ok () →
      ¬ Allows policies.service data (sessionOf username) (coveredRepository pattern) .pull →
      ∃ (creation : TokenCreation selection username) (repository : String),
        matchingScope [selection.scopeStr] repository .pull ≠ none ∧
        ¬ Allows creation.service.auth creation.data creation.identity repository .pull := by
    intro policies data checked denied
    obtain ⟨creation, rfl, rfl, sameIdentity⟩ := exists_creation checked
    rw [← creation.decided, ← sameIdentity] at denied
    exact ⟨creation, coveredRepository pattern, covered, denied⟩
  have outsideCovered := not_personal_coveredRepository outside
  by_cases blocked : selection.repo = "*" ∨ CrossUser username selection.repo
  · have onlyPulls : ∀ action ∈ selection.actions, action = .pull := by
      intro action member
      by_contra above
      exact unblocked ⟨⟨action, member, above⟩, blocked⟩
    obtain ⟨source, ceiling⟩ := @maxGrantableAction_public (sessionOf username) _ blocked
    refine exceeds ⟨fun _ => false, fun _ => false⟩ (publicRepository selection.repo)
      (checkSelection_eq_ok.mpr ⟨named, repositoryActions, passed, .pull, source, ceiling, ?_⟩)
      (not_allows_of_unpermitted (sessionOf_unscoped username) ?_ outsideCovered fun _ => rfl)
    · intro action member
      rw [onlyPulls action member]
      rfl
    · -- The covered repository is not the public one, on which the policies are not asked.
      have other : selection.repo ≠ coveredRepository pattern := by
        intro same
        rw [same] at blocked
        rcases blocked with wildcard | cross
        · exact coveredRepository_ne_wildcard pattern wildcard
        · exact not_crossUser_coveredRepository own cross
      rw [isPublicPull, publicRepository]
      simp only [BTreeMap.getElem?_insert]
      rw [if_neg other]
      rfl
  · rw [not_or] at blocked
    obtain ⟨source, ceiling⟩ := @maxGrantableAction_permitOnly (sessionOf username)
      _ (sessionOf_unscoped username) blocked.1 blocked.2
    refine exceeds (permitOnly selection.repo .delete) (claimedNamespace selection.repo)
      (checkSelection_eq_ok.mpr ⟨named, repositoryActions, passed, .delete, source, ceiling, ?_⟩)
      (not_allows_of_unpermitted (sessionOf_unscoped username) ?_ outsideCovered ?_)
    · intro action member
      cases action with
      | admin => exact absurd member repositoryActions
      | _ => rfl
    · rw [isPublicPull, claimedNamespace]
      split <;> rfl
    · intro resource
      simp [permitOnly, AuthIdentity.request]

/-- The creator of a token is allowed everything that the stored scope of a selection covers, for
every metadata state and all policies, exactly when the selection is never accepted or stays in
the creator's own personal namespace. -/
theorem created_tokens_respect_ceiling_iff (selection : PatScopeSelection)
    (username : Option String) :
    (∀ (creation : TokenCreation selection username) repository action,
      matchingScope [selection.scopeStr] repository action ≠ none →
        Allows creation.service.auth creation.data creation.identity repository action) ↔
    selection.Refused username ∨ selection.Contained username := by
  constructor
  · intro respects
    by_contra neither
    rw [not_or] at neither
    obtain ⟨creation, repository, covers, denied⟩ := exists_excess neither.1 neither.2
    exact denied (respects creation repository .pull covers)
  · rintro (refused | contained) creation repository action covers
    · obtain ⟨checked, _⟩ := creation.checked
      rw [creation.decided] at checked
      rw [← creation.named] at refused
      exact absurd refused (PatScopeSelection.not_refused checked)
    · exact creation.allows_of_contained contained covers

/-- A session selects the pulls of a whole namespace. The pattern is allowed as if it were a
repository, and the token covers the one repository that its creator may not pull. -/
theorem created_token_covers_secret_repository :
    ∃ creation : TokenCreation ⟨"team/*", [.pull]⟩ (some "builder"),
      creation.policies = allButSecret ∧ creation.data = claimedNamespace "team/secret" ∧
      matchingScope creation.pat.scopes "team/secret" .pull ≠ none ∧
      ¬ Allows creation.service.auth creation.data creation.identity "team/secret" .pull := by
  have checked : checkSelection allButSecret.service (claimedNamespace "team/secret")
      (sessionOf (some "builder")) ⟨"team/*", [.pull]⟩ = .ok () := rfl
  obtain ⟨creation, samePolicies, sameData, sameIdentity⟩ := exists_creation checked
  refine ⟨creation, samePolicies, sameData, ?_, ?_⟩
  · have parsed : parseScope (PatScopeSelection.scopeStr ⟨"team/*", [.pull]⟩) =
        some ("team/*", .pull) := by decide
    obtain ⟨found, matching⟩ := exists_matchingScope creation.checked.2 parsed
      (show matchRepository "team/*" "team/secret" = true by decide)
      (show actionMatches .pull .pull = true by decide)
    rw [matching]
    exact Option.some_ne_none found
  · rw [creation.decided, samePolicies, sameData, sameIdentity]
    exact not_allows_of_unpermitted (sessionOf_unscoped _) rfl (by decide) fun _ => rfl

end Layerhouse
