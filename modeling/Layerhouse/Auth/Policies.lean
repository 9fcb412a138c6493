/-
This file is what Cedar decides on the policies that `policy_for_request` of
`auth/cedar_authorizer.rs` assembles. A request that does not fit the schema is an
error. Otherwise Cedar allows what some policy permits and no policy forbids. The
policies are those of the owner, the grants and the enabled policy sets, which are
taken as two arbitrary predicates of a request, and the permits that are appended
for a scoped credential: the actions of its matching scope and all lower ones, on
the very resource it asks for.

So a scope acts as a permit. The file closes with what the guards leave of it: a
scope pattern covers its base and everything under it, and inside a personal
namespace only its user passes.
-/

import Layerhouse.Auth.ScopedCredentials

namespace Layerhouse

/-! ### The assembled policies -/

/-- The repository actions that a grant for `allowed` covers. -/
def impliedActions (allowed : OciAction) : List OciAction :=
  [.pull, .create, .update, .delete].filter (actionMatches allowed)

/-- The actions that the permits for a scoped credential name; their principal is the actor and
their resource the requested one. -/
def explicitScopePermits (request : AuthzRequest) : List OciAction :=
  if request.actor.tokenType ≠ .personalAccess ∧ request.actor.tokenType ≠ .ociBearer then []
  else
    match matchingScope request.actor.scopes request.repository request.action with
    | none => []
    | some (_, allowed) => impliedActions allowed

/-- The schema: the admin action applies to the registry, every other action to repositories. -/
def fitsSchema (request : AuthzRequest) : Bool :=
  if request.repository = "*" ∧ request.resource = none then request.action = .admin
  else request.action ≠ .admin

/-- The policies of one metadata state and configuration: whether some policy permits a request,
and whether some policy forbids it. -/
structure PolicySets where
  permits : AuthzRequest → Bool
  forbids : AuthzRequest → Bool

namespace PolicySets

def isAuthorized (policies : PolicySets) (request : AuthzRequest) :
    Except String AuthzDecision :=
  if ¬ fitsSchema request then .error "invalid Cedar authorization request"
  else if policies.forbids request then .ok .deny
  else if policies.permits request ∨ request.action ∈ explicitScopePermits request then .ok .allow
  else .ok .deny

def service (policies : PolicySets) : AuthService where
  cedar := ⟨fun _ => .ok (), fun _ => policies.isAuthorized⟩
  policyForRequest := fun _ _ => .ok ""

end PolicySets

/-! ### What a permission check allows -/

def Allows (service : AuthService) (data : StateMachineData) (identity : AuthIdentity)
    (repository : String) (action : OciAction) : Prop :=
  ∃ access, checkPermission service data identity repository action = .ok access

/-- The request of a permission check, for the resource its context found. -/
def AuthIdentity.request (identity : AuthIdentity) (repository : String)
    (resource : Option RepositoryResource) (action : OciAction) : AuthzRequest where
  actor := identity.actor
  repository := repository
  resource := resource
  action := action

theorem checkPermission_eq_ok {service : AuthService} {data : StateMachineData}
    {identity : AuthIdentity} {repository : String} {action : OciAction}
    {access : AuthorizedRepositoryAccess} :
    checkPermission service data identity repository action = .ok access ↔
      ∃ expected resource, repositoryResourceContext data repository action =
          .ok (expected, resource) ∧ access = ⟨repository, action, expected⟩ ∧
        (action = .pull ∧ isPublicPull data repository = true ∨
          cedarAuthorizationDecision service data (identity.request repository resource action) =
            .allow) := by
  rw [checkPermission, authorizeRepository]
  cases repositoryResourceContext data repository action with
  | error error =>
    constructor
    · intro impossible
      cases impossible
    · rintro ⟨_, _, impossible, _⟩
      cases impossible
  | ok context =>
    obtain ⟨expected, resource⟩ := context
    by_cases anonymous : action = .pull ∧ isPublicPull data repository = true
    · simp only [if_pos anonymous]
      constructor
      · intro same
        exact ⟨expected, resource, rfl, (Except.ok.inj same).symm, Or.inl anonymous⟩
      · rintro ⟨_, _, same, rfl, _⟩
        cases same
        rfl
    · simp only [if_neg anonymous]
      cases decided : cedarAuthorizationDecision service data
          { actor := identity.actor
            repository := repository
            resource := resource
            action := action } with
      | deny =>
        constructor
        · intro impossible
          cases impossible
        · rintro ⟨_, _, same, _, asPublic | allowed⟩
          · exact absurd asPublic anonymous
          · cases same
            exact absurd (decided.symm.trans allowed) (by decide)
      | allow =>
        constructor
        · intro same
          exact ⟨expected, resource, rfl, (Except.ok.inj same).symm, Or.inr decided⟩
        · rintro ⟨_, _, same, rfl, _⟩
          cases same
          rfl

theorem allows_iff {service : AuthService} {data : StateMachineData} {identity : AuthIdentity}
    {repository : String} {action : OciAction} :
    Allows service data identity repository action ↔
      ∃ expected resource, repositoryResourceContext data repository action =
          .ok (expected, resource) ∧
        (action = .pull ∧ isPublicPull data repository = true ∨
          cedarAuthorizationDecision service data (identity.request repository resource action) =
            .allow) := by
  constructor
  · rintro ⟨access, permitted⟩
    obtain ⟨expected, resource, context, _, allowed⟩ := checkPermission_eq_ok.mp permitted
    exact ⟨expected, resource, context, allowed⟩
  · rintro ⟨expected, resource, context, allowed⟩
    exact ⟨_, checkPermission_eq_ok.mpr ⟨expected, resource, context, rfl, allowed⟩⟩

/-! ### The resource of a check -/

/-- Every namespace is stored under its handle. -/
def KeyedNamespaces (data : StateMachineData) : Prop :=
  ∀ (handle : String) live, data.namespaces[handle]? = some live → live.handle = handle

theorem exists_fromRepository {repository : String} {live : Namespace}
    (target : handleOf repository = .ok live.handle) :
    ∃ resource, RepositoryResource.fromRepository repository live = .ok resource := by
  obtain ⟨rest, _, repositoryEq, _⟩ := handleOf_toList.mp target
  have stripped : Text.stripPrefix (live.handle ++ "/").toList repository.toList = some rest := by
    refine Text.stripPrefix_eq_some.mpr ?_
    rw [repositoryEq]
    simp
  rw [RepositoryResource.fromRepository, target]
  simp only [ne_eq, not_true_eq_false, if_false, stripped]
  exact ⟨_, rfl⟩

/-- The context of a check on keyed namespaces: nothing without a live namespace, and otherwise
the epoch of the live namespace and a resource under it. -/
theorem repositoryResourceContext_cases {data : StateMachineData} (keyed : KeyedNamespaces data)
    (repository : String) (action : OciAction) :
    ((∀ handle, handleOf repository = .ok handle → isHandleReserved handle = false →
        data.namespaces[handle]? = none) ∧
      repositoryResourceContext data repository action = .ok (none, none)) ∨
    (∃ live resource, handleOf repository = .ok live.handle ∧
      isHandleReserved live.handle = false ∧ data.namespaces[live.handle]? = some live ∧
      resource.namespaceResource.epoch = NamespaceEpoch.fromNamespace live ∧
      repositoryResourceContext data repository action =
        .ok (some (NamespaceEpoch.fromNamespace live), some resource)) ∨
    (∃ handle message, action ≠ .pull ∧ handleOf repository = .ok handle ∧
      isHandleReserved handle = false ∧ data.namespaces[handle]? = none ∧
      repositoryResourceContext data repository action = .error (.denied message)) := by
  rw [repositoryResourceContext]
  cases target : handleOf repository with
  | error error =>
    refine Or.inl ⟨fun handle impossible => ?_, rfl⟩
    cases impossible
  | ok handle =>
    simp only
    cases reserved : isHandleReserved handle with
    | true =>
      refine Or.inl ⟨fun other same unreserved => ?_, rfl⟩
      cases same
      cases reserved.symm.trans unreserved
    | false =>
      simp only [Bool.false_eq_true, if_false]
      cases found : data.namespaces[handle]? with
      | none =>
        by_cases isPull : action = .pull
        · refine Or.inl ⟨fun other same _ => ?_, if_neg (not_not.mpr isPull)⟩
          cases same
          exact found
        · exact Or.inr (Or.inr ⟨handle, _, isPull, rfl, reserved, found, if_pos isPull⟩)
      | some live =>
        obtain rfl := keyed handle live found
        obtain ⟨resource, built⟩ := exists_fromRepository target
        refine Or.inr (Or.inl ⟨live, resource, rfl, reserved, found,
          (epoch_of_fromRepository built).2, ?_⟩)
        simp only [built]

/-- On keyed namespaces a check fails with a denial only. -/
theorem checkPermission_denied {service : AuthService} {data : StateMachineData}
    (keyed : KeyedNamespaces data) {identity : AuthIdentity} {repository : String}
    {action : OciAction} {error : LayerhouseError}
    (failed : checkPermission service data identity repository action = .error error) :
    ∃ message, error = .denied message := by
  rw [checkPermission] at failed
  cases outcome : authorizeRepository service data identity repository action with
  | error cause =>
    rw [outcome] at failed
    cases failed
    rw [authorizeRepository] at outcome
    rcases repositoryResourceContext_cases keyed repository action with ⟨_, context⟩ |
        ⟨_, _, _, _, _, _, context⟩ | ⟨_, message, _, _, _, _, context⟩
    · rw [context] at outcome
      simp only at outcome
      split at outcome <;> cases outcome
    · rw [context] at outcome
      simp only at outcome
      split at outcome <;> cases outcome
    · rw [context] at outcome
      cases outcome
      exact ⟨message, rfl⟩
  | ok decided =>
    rw [outcome] at failed
    obtain ⟨decision, access⟩ := decided
    cases decision with
    | allow => cases failed
    | deny =>
      cases failed
      exact ⟨_, rfl⟩

/-- A write whose context was found is to a claimed namespace. -/
theorem unclaimedWrite_of_context {data : StateMachineData} {request : AuthzRequest}
    {expected : Option NamespaceEpoch}
    (context : repositoryResourceContext data request.repository request.action =
      .ok (expected, request.resource)) : unclaimedWrite request = false := by
  rw [unclaimedWrite]
  split
  · rfl
  · rename_i write
    rw [not_or, not_or] at write
    rw [repositoryResourceContext] at context
    cases target : handleOf request.repository with
    | error error => rfl
    | ok handle =>
      rw [target] at context
      simp only at context ⊢
      cases reserved : isHandleReserved handle with
      | true => rfl
      | false =>
        exfalso
        rw [reserved] at context
        simp only [Bool.false_eq_true, if_false] at context
        split at context
        · rw [if_pos write.1] at context
          cases context
        · split at context
          · cases context
          · have found := (Prod.mk.inj (Except.ok.inj context)).2
            exact write.2.1 (by rw [← found]; rfl)

/-- A repository that anybody may pull from. -/
def publicRepository (name : String) : StateMachineData :=
  { StateMachineData.empty with
    repositories := StateMachineData.empty.repositories.insert name
      { name := name
        visibility := .publicPull
        description := ""
        createdBy := none
        createdAt := 0 } }

theorem checkPermission_publicRepository (service : AuthService) (identity : AuthIdentity)
    (name : String) :
    ∃ access, checkPermission service (publicRepository name) identity name .pull = .ok access := by
  have context : repositoryResourceContext (publicRepository name) name .pull =
      .ok (none, none) := by
    rw [repositoryResourceContext]
    cases handleOf name with
    | error error => rfl
    | ok handle =>
      have unclaimed : (publicRepository name).namespaces[handle]? = none :=
        BTreeMap.getElem?_empty handle
      simp only [unclaimed]
      split <;> rfl
  have stored : isPublicPull (publicRepository name) name = true := by
    rw [isPublicPull, publicRepository]
    simp only [BTreeMap.getElem?_insert, if_pos]
    rfl
  refine ⟨⟨name, .pull, none⟩, ?_⟩
  simp only [checkPermission, authorizeRepository, context, stored, and_self, if_true]

/-! ### The decision -/

/-- The guards in front of the policies, and the policies. -/
theorem PolicySets.allow_iff {policies : PolicySets} {data : StateMachineData}
    {request : AuthzRequest} :
    cedarAuthorizationDecision policies.service data request = .allow ↔
      crossUserPersonalNamespace request = false ∧ unclaimedWrite request = false ∧
        explicitScopeGuardAllows request = true ∧
        (inPersonalNamespace request.actor.username request.repository = true ∨
          policies.isAuthorized request = .ok .allow) := by
  simp only [cedarAuthorizationDecision, PolicySets.service, cedarDecision,
    cedarDecisionWithSchema]
  cases crossUserPersonalNamespace request with
  | true => simp
  | false =>
    cases unclaimedWrite request with
    | true => simp
    | false =>
      cases explicitScopeGuardAllows request with
      | false => simp
      | true =>
        cases inPersonalNamespace request.actor.username request.repository with
        | true => simp
        | false =>
          rcases policies.isAuthorized request with error | decision
          · simp
          · cases decision <;> simp

/-! ### What a pattern covers -/

/-- What precedes the wildcard of a pattern; a pattern without one is its own base. -/
def patternBase (pattern : String) : String :=
  String.ofList ((Text.stripSuffix "/*".toList pattern.toList).getD pattern.toList)

/-- A pattern that covers one repository only. -/
def IsLiteral (pattern : String) : Prop :=
  pattern ≠ "*" ∧ Text.stripSuffix "/*".toList pattern.toList = none

instance (pattern : String) : Decidable (IsLiteral pattern) :=
  inferInstanceAs (Decidable (_ ∧ _))

theorem IsLiteral.eq_of_match {pattern repository : String} (literal : IsLiteral pattern)
    (matched : matchRepository pattern repository = true) : pattern = repository := by
  rw [matchRepository, if_neg literal.1, literal.2] at matched
  exact of_decide_eq_true matched

/-- A pattern other than the wildcard covers its base, and every repository it covers is the base
or lies under it. -/
theorem matchRepository_patternBase {pattern : String} (specific : pattern ≠ "*") :
    matchRepository pattern (patternBase pattern) = true := by
  rw [matchRepository, if_neg specific, patternBase]
  cases Text.stripSuffix "/*".toList pattern.toList with
  | none => simp
  | some lead => simp

theorem extends_patternBase {pattern repository : String} (specific : pattern ≠ "*")
    (matched : matchRepository pattern repository = true) :
    ∃ rest, repository.toList = (patternBase pattern).toList ++ rest ∧
      (rest = [] ∨ ∃ tail, rest = '/' :: tail) := by
  rw [matchRepository, if_neg specific] at matched
  rw [patternBase]
  cases stripped : Text.stripSuffix "/*".toList pattern.toList with
  | none =>
    rw [stripped] at matched
    refine ⟨[], ?_, Or.inl rfl⟩
    simp [of_decide_eq_true matched]
  | some lead =>
    rw [stripped] at matched
    simp only [Option.getD_some, String.toList_ofList]
    rcases of_decide_eq_true matched with exactly | under
    · exact ⟨[], by simpa using exactly, Or.inl rfl⟩
    · obtain ⟨tail, found⟩ := Option.isSome_iff_exists.mp under
      refine ⟨'/' :: tail, ?_, Or.inr ⟨tail, rfl⟩⟩
      rw [Text.stripPrefix_eq_some.mp found, List.append_assoc, List.singleton_append]

/-! ### Personal namespaces -/

/-- Everything under a repository of a personal namespace is in it. -/
theorem inPersonalNamespace_extend {username : Option String} {base repository : String}
    {rest : List Char} (extends_ : repository.toList = base.toList ++ rest)
    (personal : inPersonalNamespace username base = true) :
    inPersonalNamespace username repository = true := by
  unfold inPersonalNamespace at personal ⊢
  cases username with
  | none => exact personal
  | some user =>
    simp only at personal ⊢
    split at personal
    · cases personal
    · rename_i named
      rw [if_neg named]
      obtain ⟨tail, found⟩ := Option.isSome_iff_exists.mp personal
      refine Option.isSome_iff_exists.mpr ⟨tail ++ rest, Text.stripPrefix_eq_some.mpr ?_⟩
      rw [extends_, Text.stripPrefix_eq_some.mp found, List.append_assoc]

/-- What lies under a repository of the personal trees is in the same user's tree. -/
theorem inPersonalNamespaceOf_extend {base repository : String} {rest : List Char}
    (extends_ : repository.toList = base.toList ++ rest)
    (below : rest = [] ∨ ∃ tail, rest = '/' :: tail)
    (inTrees : (Text.stripPrefix "users/".toList base.toList).isSome = true) :
    inPersonalNamespaceOf repository = inPersonalNamespaceOf base := by
  obtain ⟨tree, found⟩ := Option.isSome_iff_exists.mp inTrees
  have stripped : Text.stripPrefix "users/".toList repository.toList = some (tree ++ rest) := by
    refine Text.stripPrefix_eq_some.mpr ?_
    rw [extends_, Text.stripPrefix_eq_some.mp found, List.append_assoc]
  have sameFirst : ((tree ++ rest).splitOn '/').headD [] = (tree.splitOn '/').headD [] := by
    rcases below with rfl | ⟨tail, rfl⟩
    · rw [List.append_nil]
    · rw [List.splitOn_append_cons_self]
      obtain ⟨first, others, split⟩ :=
        List.exists_cons_of_ne_nil (List.splitOn_ne_nil '/' tree)
      rw [split]
      rfl
  rw [inPersonalNamespaceOf, inPersonalNamespaceOf, found, stripped]
  simp only [sameFirst]

theorem stripPrefix_of_inPersonalNamespaceOf {repository user : String}
    (owned : inPersonalNamespaceOf repository = some user) :
    (Text.stripPrefix "users/".toList repository.toList).isSome = true := by
  rw [inPersonalNamespaceOf] at owned
  split at owned
  · cases owned
  · rename_i tree found
    rw [found]
    rfl

theorem stripPrefix_of_inPersonalNamespace {username : Option String} {repository : String}
    (personal : inPersonalNamespace username repository = true) :
    ∃ tree, tree ≠ [] ∧ Text.stripPrefix "users/".toList repository.toList = some tree := by
  unfold inPersonalNamespace at personal
  split at personal
  · cases personal
  · rename_i user
    split at personal
    · cases personal
    · obtain ⟨tail, found⟩ := Option.isSome_iff_exists.mp personal
      refine ⟨user.toList ++ '/' :: tail, by simp, Text.stripPrefix_eq_some.mpr ?_⟩
      rw [Text.stripPrefix_eq_some.mp found]
      simp only [List.append_assoc, List.singleton_append]

/-- The repository lies in the tree of another user. -/
def CrossUser (username : Option String) (repository : String) : Prop :=
  ∃ user, inPersonalNamespaceOf repository = some user ∧ username ≠ some user

theorem crossUserPersonalNamespace_iff {request : AuthzRequest} :
    crossUserPersonalNamespace request = true ↔
      CrossUser request.actor.username request.repository := by
  rw [crossUserPersonalNamespace, CrossUser]
  cases inPersonalNamespaceOf request.repository with
  | none => simp
  | some user => simp

theorem CrossUser.extend {username : Option String} {base repository : String}
    {rest : List Char} (cross : CrossUser username base)
    (extends_ : repository.toList = base.toList ++ rest)
    (below : rest = [] ∨ ∃ tail, rest = '/' :: tail) : CrossUser username repository := by
  obtain ⟨user, owned, other⟩ := cross
  refine ⟨user, ?_, other⟩
  rw [inPersonalNamespaceOf_extend extends_ below (stripPrefix_of_inPersonalNamespaceOf owned)]
  exact owned

theorem PolicySets.not_crossUser {policies : PolicySets} {data : StateMachineData}
    {request : AuthzRequest}
    (allowed : cedarAuthorizationDecision policies.service data request = .allow) :
    ¬ CrossUser request.actor.username request.repository := by
  rw [← crossUserPersonalNamespace_iff, Bool.not_eq_true]
  exact (PolicySets.allow_iff.mp allowed).1

theorem inPersonalNamespace_wildcard (username : Option String) :
    inPersonalNamespace username "*" = false := by
  unfold inPersonalNamespace
  cases username with
  | none => rfl
  | some user =>
    simp only
    split <;> rfl

/-- Repository actions on the registry do not fit the schema, so no policy allows them. -/
theorem PolicySets.deny_wildcard (policies : PolicySets) (data : StateMachineData)
    {request : AuthzRequest} (wildcard : request.repository = "*")
    (unresolved : request.resource = none) (repositoryAction : request.action ≠ .admin) :
    cedarAuthorizationDecision policies.service data request ≠ .allow := by
  intro allowed
  obtain ⟨_, _, _, personal | authorized⟩ := PolicySets.allow_iff.mp allowed
  · rw [wildcard, inPersonalNamespace_wildcard] at personal
    cases personal
  · have misfit : ¬ fitsSchema request = true := by
      rw [fitsSchema, if_pos ⟨wildcard, unresolved⟩, decide_eq_true_eq]
      exact repositoryAction
    rw [PolicySets.isAuthorized, if_pos misfit] at authorized
    cases authorized

/-- The owner of a personal namespace is allowed everything in it. -/
theorem PolicySets.allow_personal {policies : PolicySets} {data : StateMachineData}
    {request : AuthzRequest}
    (own : ¬ CrossUser request.actor.username request.repository)
    (claimed : unclaimedWrite request = false)
    (unscoped : explicitScopeGuardAllows request = true)
    (personal : inPersonalNamespace request.actor.username request.repository = true) :
    cedarAuthorizationDecision policies.service data request = .allow := by
  refine PolicySets.allow_iff.mpr ⟨?_, claimed, unscoped, Or.inl personal⟩
  rw [← Bool.not_eq_true, crossUserPersonalNamespace_iff]
  exact own

/-! ### A repository that the check of a pattern says nothing about -/

/-- A repository that a pattern covers: the base of the pattern, unless that is the registry. -/
def coveredRepository (pattern : String) : String :=
  if pattern = "*" then "app"
  else if patternBase pattern = "*" then "*/app"
  else patternBase pattern

theorem coveredRepository_ne_wildcard (pattern : String) : coveredRepository pattern ≠ "*" := by
  rw [coveredRepository]
  split
  · decide
  · split
    · decide
    · assumption

theorem stripSuffix_of_patternBase {pattern base : String} (found : patternBase pattern = base)
    (shorter : base ≠ pattern) :
    Text.stripSuffix "/*".toList pattern.toList = some base.toList := by
  rw [patternBase] at found
  cases stripped : Text.stripSuffix "/*".toList pattern.toList with
  | none =>
    rw [stripped, Option.getD_none, String.ofList_toList] at found
    exact absurd found.symm shorter
  | some lead =>
    rw [stripped, Option.getD_some] at found
    rw [← found, String.toList_ofList]

theorem matchRepository_coveredRepository (pattern : String) :
    matchRepository pattern (coveredRepository pattern) = true := by
  rw [coveredRepository]
  split
  · rename_i wildcard
    rw [matchRepository, if_pos wildcard]
  · rename_i specific
    split
    · rename_i base
      rw [matchRepository, if_neg specific, stripSuffix_of_patternBase base (Ne.symm specific)]
      rfl
    · exact matchRepository_patternBase specific

/-- Only a pattern for one repository is the repository. -/
theorem isLiteral_of_coveredRepository {pattern : String}
    (same : coveredRepository pattern = pattern) : IsLiteral pattern := by
  rw [coveredRepository] at same
  split at same
  · rename_i wildcard
    rw [wildcard] at same
    exact absurd same (by decide)
  · rename_i specific
    refine ⟨specific, ?_⟩
    split at same
    · rename_i base
      have stripped := stripSuffix_of_patternBase base (Ne.symm specific)
      rw [← same] at stripped
      exact absurd stripped (by decide)
    · cases stripped : Text.stripSuffix "/*".toList pattern.toList with
      | none => rfl
      | some lead =>
        rw [patternBase, stripped, Option.getD_some] at same
        have longer := congrArg List.length (Text.stripSuffix_eq_some.mp stripped)
        rw [← same] at longer
        simp at longer

theorem not_personal_coveredRepository {username : Option String} {pattern : String}
    (outside : ¬ inPersonalNamespace username (patternBase pattern) = true) :
    inPersonalNamespace username (coveredRepository pattern) = false := by
  have foreign : ∀ first rest, first ≠ 'u' →
      inPersonalNamespace username (String.ofList (first :: rest)) = false := by
    intro first rest other
    unfold inPersonalNamespace
    cases username with
    | none => rfl
    | some user =>
      simp [Text.stripPrefix, Ne.symm other]
  rw [coveredRepository]
  split
  · exact foreign 'a' ['p', 'p'] (by decide)
  · split
    · exact foreign '*' ['/', 'a', 'p', 'p'] (by decide)
    · exact Bool.eq_false_iff.mpr outside

theorem not_crossUser_coveredRepository {username : Option String} {pattern : String}
    (own : ¬ CrossUser username (patternBase pattern)) :
    ¬ CrossUser username (coveredRepository pattern) := by
  rw [coveredRepository]
  split
  · rintro ⟨user, owned, _⟩
    cases owned
  · split
    · rintro ⟨user, owned, _⟩
      cases owned
    · exact own

/-- The namespace of a repository, claimed. -/
def claimedNamespace (repository : String) : StateMachineData :=
  match handleOf repository with
  | .error _ => StateMachineData.empty
  | .ok handle =>
    { StateMachineData.empty with
      namespaces := StateMachineData.empty.namespaces.insert handle
        ⟨handle, 1, .user "owner", "owner", 1⟩ }

theorem claimedNamespace_keyed (repository : String) :
    KeyedNamespaces (claimedNamespace repository) := by
  intro handle live found
  rw [claimedNamespace] at found
  split at found
  · cases (BTreeMap.getElem?_empty handle).symm.trans found
  · simp only [BTreeMap.getElem?_insert] at found
    split at found
    · rename_i same
      cases found
      exact same
    · cases (BTreeMap.getElem?_empty handle).symm.trans found

theorem claimedNamespace_context (repository : String) (action : OciAction) :
    ∃ expected resource, repositoryResourceContext (claimedNamespace repository) repository
      action = .ok (expected, resource) := by
  rcases repositoryResourceContext_cases (claimedNamespace_keyed repository) repository action with
    ⟨_, context⟩ | ⟨_, _, _, _, _, _, context⟩ | ⟨handle, _, _, target, _, unclaimed, _⟩
  · exact ⟨_, _, context⟩
  · exact ⟨_, _, context⟩
  · rw [claimedNamespace, target] at unclaimed
    simp at unclaimed

/-! ### Policies with one permit -/

/-- A credential that is not limited to scopes. -/
def TokenType.Unscoped (tokenType : TokenType) : Prop :=
  tokenType ≠ .personalAccess ∧ tokenType ≠ .ociBearer

instance (tokenType : TokenType) : Decidable tokenType.Unscoped :=
  inferInstanceAs (Decidable (_ ∧ _))

theorem explicitScopeGuardAllows_unscoped {request : AuthzRequest}
    (unscoped : request.actor.tokenType.Unscoped) : explicitScopeGuardAllows request = true := by
  unfold explicitScopeGuardAllows
  exact if_pos unscoped

/-- The policies that permit one action on one repository. -/
def permitOnly (repository : String) (action : OciAction) : PolicySets where
  permits := fun request => request.repository = repository ∧ request.action = action
  forbids := fun _ => false

theorem permitOnly_allow {data : StateMachineData} {identity : AuthIdentity}
    {repository : String} {resource : Option RepositoryResource} {action : OciAction}
    (unscoped : identity.tokenType.Unscoped) (specific : repository ≠ "*")
    (repositoryAction : action ≠ .admin) (own : ¬ CrossUser identity.username repository)
    (claimed : unclaimedWrite (identity.request repository resource action) = false) :
    cedarAuthorizationDecision (permitOnly repository action).service data
      (identity.request repository resource action) = .allow := by
  refine PolicySets.allow_iff.mpr
    ⟨?_, claimed, explicitScopeGuardAllows_unscoped unscoped, Or.inr ?_⟩
  · rw [← Bool.not_eq_true, crossUserPersonalNamespace_iff]
    exact own
  · have fits : fitsSchema (identity.request repository resource action) = true := by
      simp [fitsSchema, AuthIdentity.request, specific, repositoryAction]
    rw [PolicySets.isAuthorized, if_neg (not_not.mpr fits)]
    simp [permitOnly, AuthIdentity.request]

/-- A pull that is neither public nor personal nor permitted is denied. -/
theorem not_allows_of_unpermitted {policies : PolicySets} {data : StateMachineData}
    {identity : AuthIdentity} {repository : String} (unscoped : identity.tokenType.Unscoped)
    (hidden : isPublicPull data repository = false)
    (outside : inPersonalNamespace identity.username repository = false)
    (unpermitted : ∀ resource,
      policies.permits (identity.request repository resource .pull) = false) :
    ¬ Allows policies.service data identity repository .pull := by
  intro allows
  obtain ⟨expected, resource, _, ⟨_, isPublic⟩ | allowed⟩ := allows_iff.mp allows
  · rw [hidden] at isPublic
    cases isPublic
  · obtain ⟨_, _, _, personal | authorized⟩ := PolicySets.allow_iff.mp allowed
    · cases outside.symm.trans personal
    · have noPermit : explicitScopePermits (identity.request repository resource .pull) = [] :=
        if_pos unscoped
      rw [PolicySets.isAuthorized, noPermit, unpermitted] at authorized
      split at authorized
      · cases authorized
      · split at authorized
        · cases authorized
        · rw [if_neg (by simp)] at authorized
          cases authorized

/-- The one policy set `permit(principal, action == Action::"pull", resource) unless
{ context.repository == "team/secret" };`. -/
def allButSecret : PolicySets where
  permits := fun request => request.action = .pull ∧ request.repository ≠ "team/secret"
  forbids := fun _ => false

end Layerhouse
