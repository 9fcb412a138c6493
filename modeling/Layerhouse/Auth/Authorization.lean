/-
This file is the decision whether an actor may act on a repository:
`auth/authorization.rs`, the guards of `auth/cedar_authorizer.rs` that stand
before Cedar, and `check_permission` of `auth/mod.rs`. Reads of the metadata
store are reads of the replicated data.

Cedar itself is a parameter: whether the policy text of a request parses against
the schema, and what Cedar decides once the guards have let the request through.
Which policy texts are put together for a request is a parameter too, so a result
about this file holds for every set of policies and grants.
-/

import Layerhouse.Raft.StateMachine

namespace Layerhouse

/-! ### Actors and requests -/

inductive TokenType where
  | oidcAccess
  | personalAccess
  | ociBearer
  | session
deriving DecidableEq

structure Actor where
  principal : ProviderQualifiedId
  username : Option String
  displayName : Option String
  email : Option String
  groupIds : List ProviderQualifiedId
  displayGroups : List String
  scopes : List String
  namespaceEpochs : List NamespaceEpoch
  tokenType : TokenType
deriving DecidableEq

structure AuthIdentity where
  subject : Subject
  principal : ProviderQualifiedId
  username : Option String
  displayName : Option String
  email : Option String
  groups : List String
  groupIds : List ProviderQualifiedId
  scopes : List String
  namespaceEpochs : List NamespaceEpoch
  tokenType : TokenType
deriving DecidableEq

def AuthIdentity.actor (identity : AuthIdentity) : Actor where
  principal := identity.principal
  username := identity.username
  displayName := identity.displayName
  email := identity.email
  groupIds := identity.groupIds
  displayGroups := identity.groups
  scopes := identity.scopes
  namespaceEpochs := identity.namespaceEpochs
  tokenType := identity.tokenType

structure NamespaceResource where
  epoch : NamespaceEpoch
deriving DecidableEq

structure RepositoryResource where
  namespaceResource : NamespaceResource
  relativePath : String
deriving DecidableEq

def RepositoryResource.fromRepository (repository : String) (live : Namespace) :
    Except LayerhouseError RepositoryResource :=
  match handleOf repository with
  | .error error => .error error
  | .ok handle =>
    if handle ≠ live.handle then
      .error (.nameInvalid ("repository " ++ Text.debugStr repository ++
        " is not under namespace " ++ Text.debugStr live.handle))
    else
      match Text.stripPrefix (handle ++ "/").toList repository.toList with
      | none =>
        .error (.nameInvalid ("repository " ++ Text.debugStr repository ++
          " is not under namespace " ++ Text.debugStr handle))
      | some path => .ok ⟨⟨NamespaceEpoch.fromNamespace live⟩, String.ofList path⟩

structure AuthzRequest where
  actor : Actor
  repository : String
  resource : Option RepositoryResource
  action : OciAction
deriving DecidableEq

inductive AuthzDecision where
  | allow
  | deny
deriving DecidableEq

/-! ### The guards before Cedar -/

def crossUserPersonalNamespace (request : AuthzRequest) : Bool :=
  match inPersonalNamespaceOf request.repository with
  | none => false
  | some namespaceUser => request.actor.username ≠ some namespaceUser

def unclaimedWrite (request : AuthzRequest) : Bool :=
  if request.action = .pull ∨ request.resource.isSome ∨ request.repository = "*" then false
  else
    match handleOf request.repository with
    | .ok handle => !isHandleReserved handle
    | .error _ => false

def scopeMatchesNamespaceEpoch (actorEpochs : List NamespaceEpoch) (pattern : String)
    (expected : Option NamespaceEpoch) : Bool :=
  match expected with
  | none => true
  | some expected =>
    match handleOf pattern with
    | .error _ => pattern = "*"
    | .ok handle =>
      if isHandleReserved handle ∨ handle ≠ expected.handle then true
      else actorEpochs.any (· = expected)

def explicitScopeGuardAllows (request : AuthzRequest) : Bool :=
  if request.actor.tokenType ≠ .personalAccess ∧ request.actor.tokenType ≠ .ociBearer then true
  else
    match matchingScope request.actor.scopes request.repository request.action with
    | some (pattern, _) =>
      scopeMatchesNamespaceEpoch request.actor.namespaceEpochs pattern
        (request.resource.map (·.namespaceResource.epoch))
    | none => false

/-- What is taken from Cedar: whether a policy text parses and validates against the schema, and
the decision for a request that the guards let through. -/
structure Cedar where
  parse : String → Except String Unit
  isAuthorized : String → AuthzRequest → Except String AuthzDecision

def cedarDecisionWithSchema (cedar : Cedar) (policy : String) (request : AuthzRequest) :
    Except String AuthzDecision :=
  match cedar.parse policy with
  | .error message => .error message
  | .ok () =>
    if crossUserPersonalNamespace request then .ok .deny
    else if unclaimedWrite request then .ok .deny
    else if ¬ explicitScopeGuardAllows request then .ok .deny
    else if inPersonalNamespace request.actor.username request.repository then .ok .allow
    else cedar.isAuthorized policy request

def cedarDecision (cedar : Cedar) (policy : String) (request : AuthzRequest) : AuthzDecision :=
  match cedarDecisionWithSchema cedar policy request with
  | .ok decision => decision
  | .error _ => .deny

/-! ### Permission checks -/

structure AuthorizedRepositoryAccess where
  repository : String
  action : OciAction
  expectedNamespace : Option NamespaceEpoch
deriving DecidableEq

/-- The authorization service: Cedar and the policy text assembled for a request. -/
structure AuthService where
  cedar : Cedar
  policyForRequest : StateMachineData → AuthzRequest → Except String String

def repositoryResourceContext (data : StateMachineData) (repository : String)
    (action : OciAction) :
    Except LayerhouseError (Option NamespaceEpoch × Option RepositoryResource) :=
  match handleOf repository with
  | .error _ => .ok (none, none)
  | .ok handle =>
    if isHandleReserved handle then .ok (none, none)
    else
      match data.namespaces[handle]? with
      | none =>
        if action ≠ .pull then
          .error (.denied ("namespace " ++ Text.debugStr handle ++ " is not claimed"))
        else .ok (none, none)
      | some live =>
        match RepositoryResource.fromRepository repository live with
        | .error error => .error error
        | .ok resource => .ok (some (NamespaceEpoch.fromNamespace live), some resource)

/-- The repository object allows anonymous pulls. -/
def isPublicPull (data : StateMachineData) (repository : String) : Bool :=
  data.repositories[repository]?.any (·.visibility = .publicPull)

def cedarAuthorizationDecision (service : AuthService) (data : StateMachineData)
    (request : AuthzRequest) : AuthzDecision :=
  match service.policyForRequest data request with
  | .ok policy => cedarDecision service.cedar policy request
  | .error _ => .deny

def authorizeRepository (service : AuthService) (data : StateMachineData)
    (identity : AuthIdentity) (repository : String) (action : OciAction) :
    Except LayerhouseError (AuthzDecision × AuthorizedRepositoryAccess) :=
  match repositoryResourceContext data repository action with
  | .error error => .error error
  | .ok (expectedNamespace, resource) =>
    let access := ⟨repository, action, expectedNamespace⟩
    if action = .pull ∧ isPublicPull data repository then .ok (.allow, access)
    else
      .ok (cedarAuthorizationDecision service data
        { actor := identity.actor
          repository := repository
          resource := resource
          action := action }, access)

def checkPermission (service : AuthService) (data : StateMachineData) (identity : AuthIdentity)
    (repository : String) (action : OciAction) :
    Except LayerhouseError AuthorizedRepositoryAccess :=
  match authorizeRepository service data identity repository action with
  | .error error => .error error
  | .ok (.allow, access) => .ok access
  | .ok (.deny, _) =>
    .error (.denied ("access denied for repository " ++ repository))

/-- A user who signed in with a session, for concrete calls. -/
def sampleSession (subject : Subject) : AuthIdentity where
  subject := subject
  principal := ⟨"oidc:user:" ++ subject⟩
  username := some subject
  displayName := none
  email := none
  groups := []
  groupIds := []
  scopes := []
  namespaceEpochs := []
  tokenType := .session

end Layerhouse
