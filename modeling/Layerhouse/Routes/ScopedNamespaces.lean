/-
This file asks what a personal access token or an OCI bearer token can do to the
namespaces: the claim, release, revoke and grant endpoints of `routes/namespaces` behind
the middleware of `auth/middleware.rs`.

No scope allows the admin action, so a scoped token gets past none of the admin checks.
The self-service endpoints check the subject alone, and a token acts there for the user
who created it, whatever its scopes are. So a request of a scoped token leaves a handle
alone exactly when it needs an administrator or would be refused to the user as well.
-/

import Layerhouse.Auth.ScopedCredentials
import Layerhouse.Routes.GrantEdits
import Layerhouse.Routes.NamespaceClaims
import Layerhouse.Routes.Tokens

namespace Layerhouse

/-! ### The endpoints -/

structure ReleaseNamespaceRequest where
  reason : Option String
deriving DecidableEq

/-- The requests to the endpoints that change namespaces. -/
inductive NamespaceCall where
  | claim (request : ClaimNamespaceRequest)
  | release (request : ReleaseNamespaceRequest)
  | revoke
  | grants (change : GrantChange) (admin : Bool) (reason : Option String)
deriving DecidableEq

/-- How the path of a grant request ends; `grantId` is the segment as it was sent. -/
def GrantChange.pathEnd (grantId : String) : GrantChange → String
  | .create _ => "/grants"
  | .update .. | .delete _ => "/grants/" ++ grantId

/-- The path of a request; `name` and `grantId` are the segments as they were sent. -/
def NamespaceCall.path (name grantId : String) : NamespaceCall → String
  | .claim _ => "/api/v1/admin/namespaces/" ++ name ++ "/claim"
  | .release _ => "/api/v1/admin/namespaces/" ++ name ++ "/release"
  | .revoke => "/api/v1/admin/namespaces/" ++ name ++ "/revoke"
  | .grants change true _ => "/api/v1/admin/namespaces/" ++ name ++ change.pathEnd grantId
  | .grants change false _ => "/api/v1/account/namespaces/" ++ name ++ change.pathEnd grantId

/-- `ends_with` on texts. -/
def endsWith (suffix text : String) : Bool :=
  (Text.stripSuffix suffix.toList text.toList).isSome

def isNamespaceSelfService (path : String) : Bool :=
  (Text.stripPrefix "/api/v1/admin/namespaces/".toList path.toList).isSome ∧
    (endsWith "/claim" path ∨ endsWith "/release" path)

def checkAdminAccess (service : AuthService) (data : StateMachineData) (identity : AuthIdentity) :
    Except LayerhouseError Unit :=
  (checkPermission service data identity "*" .admin).map fun _ => ()

/-- The check of the middleware on the path of an admin route. -/
def adminMiddleware (service : AuthService) (data : StateMachineData) (identity : AuthIdentity)
    (path : String) : Except LayerhouseError Unit :=
  if (Text.stripPrefix "/api/v1/admin/".toList path.toList).isSome ∧
      ¬ isNamespaceSelfService path then
    checkAdminAccess service data identity
  else .ok ()

def ReleaseNamespaceRequest.releaseReason (request : ReleaseNamespaceRequest) : ReleaseReason :=
  match trimmedText request.reason with
  | some handle => .renamed handle
  | none => .ownerDeleted

/-- What a handler draws at random and reads from the clock. -/
structure NamespaceDraw where
  now : Nat
  grantId : String
  auditId : String

/-- The handlers up to their commit. -/
def NamespaceCall.handle (service : AuthService) (data : StateMachineData)
    (identity : AuthIdentity) (name : String) (draw : NamespaceDraw) (call : NamespaceCall) :
    Except Panic (Except LayerhouseError NamespaceRequest) :=
  match call with
  | .claim request =>
    match if request.adminOverride then checkAdminAccess service data identity else .ok () with
    | .error error => .ok (.error error)
    | .ok () => .ok (.ok (ClaimCall.toRequest ⟨identity, name, request⟩ draw.now))
  | .release request =>
    .ok (.ok (.delete name identity.subject request.releaseReason draw.now))
  | .revoke =>
    match checkAdminAccess service data identity with
    | .error error => .ok (.error error)
    | .ok () => .ok (.ok (.adminRevoke name identity.subject draw.now))
  | .grants change admin reason =>
    match if admin then checkAdminAccess service data identity
      else requireNamespaceOwner data identity name with
    | .error error => .ok (.error error)
    | .ok () =>
      match ensureNamespaceExists data name with
      | .error error => .ok (.error error)
      | .ok _ =>
        GrantEdit.prepare ⟨identity, name, change, admin, reason⟩ data draw.now draw.grantId
          draw.auditId

/-- A request to one of the endpoints, with the segments of its path as they were sent. -/
structure NamespaceHttpRequest where
  name : String
  call : NamespaceCall
  sentName : String
  sentGrantId : String
deriving DecidableEq

/-- The data after a request, which is served by a node that has applied all commits. -/
def serveNamespaces (externals : Externals) (service : AuthService) (data : StateMachineData)
    (identity : AuthIdentity) (draw : NamespaceDraw) (sent : NamespaceHttpRequest) :
    StateMachineData :=
  match adminMiddleware service data identity (sent.call.path sent.sentName sent.sentGrantId) with
  | .error _ => data
  | .ok () =>
    match sent.call.handle service data identity sent.name draw with
    | .error _ | .ok (.error _) => data
    | .ok (.ok request) =>
      match applyRequest externals draw.now data (.namespaces request) with
      | .error _ => data
      | .ok (next, _) => next

/-! ### What a request should leave alone -/

structure UnchangedAt (before after : StateMachineData) (handle : String) : Prop where
  namespaces : after.namespaces[handle]? = before.namespaces[handle]?
  releasedHandles : after.releasedHandles[handle]? = before.releasedHandles[handle]?
  namespaceGrants : after.namespaceGrants[handle]? = before.namespaceGrants[handle]?

/-- No scope of the identity matches a repository under the handle. -/
def ScopesOutside (identity : AuthIdentity) (handle : String) : Prop :=
  ∀ path action, matchingScope identity.scopes (handle ++ "/" ++ path) action = none

/-- The handle may be claimed without an administrator. -/
structure Claimable (data : StateMachineData) (name : String) : Prop where
  valid : validateHandle name = .ok ()
  unreserved : isHandleReserved name = false
  unclaimed : data.namespaces[name]? = none
  unreleased : data.releasedHandles[name]? = none

/-- The caller may release the handle. -/
structure FreelyReleasable (data : StateMachineData) (identity : AuthIdentity) (name : String) :
    Prop where
  owned : requireNamespaceOwner data identity name = .ok ()
  contentless : data.hasContent name = false

/-- The grant with the values of an edit, which is at most a new stamp of the same caller. -/
def NamespaceGrant.edited (grant : NamespaceGrant) (identity : AuthIdentity) (action : OciAction)
    (label : String) (now : Nat) : NamespaceGrant :=
  { grant with action := action, label := label, updatedBy := identity.subject, updatedAt := now }

/-- The change is refused to the owner of the namespace as well, or writes what is there. -/
def GrantChange.Idle (data : StateMachineData) (identity : AuthIdentity) (name : String)
    (now : Nat) : GrantChange → Prop
  | .create request =>
    ∀ grantee, request.grantee.intoGrantee = .ok (.ok grantee) →
      publicSafeAction grantee request.action = .ok request.action →
        ∃ existing, matchingGrant grantee (data.listNamespaceGrants name) = .ok (some existing) ∧
          { existing with grantee := grantee }.edited identity request.action
            ((trimmedText request.label).getD grantee.label) now = existing
  | .update grantId request =>
    ∀ existing, data.getNamespaceGrant name grantId = some existing →
      publicSafeAction existing.grantee request.action = .ok request.action →
        existing.edited identity request.action
          ((trimmedText request.label).getD existing.label) now = existing
  | .delete grantId => data.getNamespaceGrant name grantId = none

/-- The request needs an administrator, or would be refused to the user of the token as well, or
writes what is there. -/
def NamespaceCall.Harmless (data : StateMachineData) (identity : AuthIdentity) (name : String)
    (now : Nat) : NamespaceCall → Prop
  | .claim request => request.adminOverride = true ∨ ¬ Claimable data name
  | .release _ => ¬ FreelyReleasable data identity name
  | .revoke => True
  | .grants change admin _ =>
    admin = true ∨ requireNamespaceOwner data identity name ≠ .ok () ∨
      change.Idle data identity name now

/-! ### The admin check -/

theorem matchingScope_admin (scopes : List String) (repository : String) :
    matchingScope scopes repository .admin = none := by
  refine Option.eq_none_iff_forall_ne_some.mpr fun ⟨pattern, allowed⟩ found => ?_
  obtain ⟨scope, _, parsed, _, covers⟩ := matchingScope_eq_some found
  have higher : allowed ≠ .admin := parseScope_ne_admin parsed
  rw [actionMatches, if_pos (Or.inr rfl)] at covers
  exact higher (of_decide_eq_true covers)

/-- A scoped token is no administrator, whatever its user is. -/
theorem checkAdminAccess_scoped (service : AuthService) (data : StateMachineData)
    {identity : AuthIdentity} (credential : usesExplicitScopes identity = true) :
    ∃ error, checkAdminAccess service data identity = .error error := by
  cases checked : checkAdminAccess service data identity with
  | error error => exact ⟨error, rfl⟩
  | ok passed =>
    obtain ⟨access, permitted, _⟩ := exceptMap_eq_ok.mp checked
    obtain ⟨_, resource, _, _, asked⟩ := checkPermission_eq_ok.mp permitted
    rcases asked with ⟨impossible, _⟩ | decided
    · cases impossible
    have guarded : ∀ policy, cedarDecision service.cedar policy
        (identity.request "*" resource .admin) = .deny := by
      intro policy
      have refused : explicitScopeGuardAllows (identity.request "*" resource .admin) = false := by
        have typed := of_decide_eq_true credential
        rw [explicitScopeGuardAllows_scoped typed]
        simp only [AuthIdentity.request, AuthIdentity.actor, matchingScope_admin]
      rw [cedarDecision, cedarDecisionWithSchema]
      cases service.cedar.parse policy with
      | error message => rfl
      | ok parsed =>
        simp only [refused, Bool.false_eq_true, not_false_eq_true, if_true]
        split_ifs <;> rfl
    rw [cedarAuthorizationDecision] at decided
    split at decided
    · rw [guarded] at decided
      cases decided
    · cases decided

/-! ### The middleware -/

theorem adminMiddleware_selfService (service : AuthService) (data : StateMachineData)
    (identity : AuthIdentity) (name last : String)
    (selfService : last = "/claim" ∨ last = "/release") :
    adminMiddleware service data identity ("/api/v1/admin/namespaces/" ++ name ++ last) =
      .ok () := by
  have leads : Text.stripPrefix "/api/v1/admin/namespaces/".toList
      ("/api/v1/admin/namespaces/" ++ name ++ last).toList = some (name.toList ++ last.toList) := by
    rw [Text.stripPrefix_eq_some, String.toList_append, String.toList_append, List.append_assoc]
  have ends : endsWith last ("/api/v1/admin/namespaces/" ++ name ++ last) = true := by
    refine Option.isSome_iff_exists.mpr ⟨"/api/v1/admin/namespaces/".toList ++ name.toList, ?_⟩
    rw [Text.stripSuffix_eq_some, String.toList_append, String.toList_append]
  have exempt : isNamespaceSelfService ("/api/v1/admin/namespaces/" ++ name ++ last) = true := by
    refine decide_eq_true ⟨Option.isSome_iff_exists.mpr ⟨_, leads⟩, ?_⟩
    rcases selfService with rfl | rfl
    · exact Or.inl ends
    · exact Or.inr ends
  rw [adminMiddleware, if_neg fun asked => asked.2 exempt]

theorem adminMiddleware_account (service : AuthService) (data : StateMachineData)
    (identity : AuthIdentity) (rest : String) :
    adminMiddleware service data identity ("/api/v1/account/namespaces/" ++ rest) = .ok () := by
  have other : Text.stripPrefix "/api/v1/admin/".toList
      ("/api/v1/account/namespaces/" ++ rest).toList = none := by
    rw [String.toList_append]
    rfl
  rw [adminMiddleware, other, if_neg fun asked => absurd asked.1 Bool.false_ne_true]

/-- The request is for one of the admin routes that the middleware checks. -/
def NamespaceCall.isAdminOnly : NamespaceCall → Bool
  | .revoke | .grants _ true _ => true
  | .claim _ | .release _ | .grants _ false _ => false

/-- The middleware lets the claims, the releases and the account routes pass. -/
theorem adminMiddleware_of_not_admin (service : AuthService) (data : StateMachineData)
    (identity : AuthIdentity) (name grantId : String) {call : NamespaceCall}
    (selfService : call.isAdminOnly = false) :
    adminMiddleware service data identity (call.path name grantId) = .ok () := by
  cases call with
  | claim request =>
    exact adminMiddleware_selfService service data identity name "/claim" (Or.inl rfl)
  | release request =>
    exact adminMiddleware_selfService service data identity name "/release" (Or.inr rfl)
  | revoke => cases selfService
  | grants change admin reason =>
    cases admin with
    | true => cases selfService
    | false =>
      have passed := adminMiddleware_account service data identity
        (name ++ change.pathEnd grantId)
      rw [← String.append_assoc] at passed
      exact passed

/-! ### What the commits leave alone -/

/-- The data after the commit of a namespace request. One that panics leaves it as it was. -/
def StateMachineData.afterNamespaces (data : StateMachineData) (request : NamespaceRequest) :
    StateMachineData :=
  match applyNamespace data request with
  | .error _ => data
  | .ok (next, _) => next

theorem unchangedAt_self (data : StateMachineData) (handle : String) :
    UnchangedAt data data handle :=
  ⟨rfl, rfl, rfl⟩

theorem afterNamespaces_of_core {data : StateMachineData} {request : NamespaceRequest}
    {tables : NamespaceTables} {answer : Except LayerhouseError NamespaceResponse}
    (core : applyNamespaceCore data.namespaceTables data.hasContent request =
      .ok (tables, answer)) : data.afterNamespaces request = data.withNamespaceTables tables := by
  rw [StateMachineData.afterNamespaces, applyNamespace, core]

theorem nextGeneration_eq_ok_false {tables : NamespaceTables} {handle : String} {generation : Nat}
    (assigned : tables.nextGeneration handle false = .ok generation) :
    tables.releasedHandles[handle]? = none := by
  rw [NamespaceTables.nextGeneration] at assigned
  split at assigned
  · assumption
  · rw [if_pos Bool.false_ne_true] at assigned
    cases assigned

theorem unchangedAt_claim_iff (data : StateMachineData) (name : String) (owner : Owner)
    (ownerLabel : String) (actor : Subject) (now : Nat) (handle : String) :
    UnchangedAt data (data.afterNamespaces (.claim name owner ownerLabel actor false now)) handle ↔
      name ≠ handle ∨ ¬ Claimable data name := by
  cases core : applyNamespaceCore data.namespaceTables data.hasContent
      (.claim name owner ownerLabel actor false now) with
  | error panic => cases core
  | ok result =>
    obtain ⟨tables, answer⟩ := result
    rw [afterNamespaces_of_core core]
    by_cases claimable : Claimable data name
    · have unclaimed : data.namespaceTables.namespaces[name]? = none := claimable.unclaimed
      have unreleased : data.namespaceTables.releasedHandles[name]? = none := claimable.unreleased
      rw [applyNamespaceCore] at core
      simp only [claimable.valid, claimable.unreserved, unclaimed, Bool.false_eq_true, if_false,
        NamespaceTables.nextGeneration, unreleased] at core
      obtain rfl := congrArg Prod.fst (Except.ok.inj core)
      constructor
      · rintro ⟨namespaces, _, _⟩
        refine Or.inl fun same => ?_
        subst same
        have claimed := claimable.unclaimed.symm.trans namespaces.symm
        rw [StateMachineData.withNamespaceTables] at claimed
        simp only [BTreeMap.getElem?_insert, if_true] at claimed
        cases claimed
      · rintro (other | refused)
        · refine ⟨?_, ?_, rfl⟩
          · show (data.namespaces.insert name _)[handle]? = _
            rw [BTreeMap.getElem?_insert, if_neg other]
          · show (data.releasedHandles.erase name)[handle]? = _
            rw [BTreeMap.getElem?_erase, if_neg other]
        · exact absurd claimable refused
    · refine iff_of_true ?_ (Or.inr claimable)
      cases applyNamespaceCore_move core with
      | refused => exact unchangedAt_self data handle
      | claimed valid unreserved unclaimed assigned =>
        exact absurd ⟨valid, unreserved, unclaimed, nextGeneration_eq_ok_false assigned⟩ claimable
      | released asked found contentless =>
        rcases asked with ⟨_, _, _, impossible⟩ | ⟨_, _, impossible⟩ <;> cases impossible

theorem releasable_iff {data : StateMachineData} {identity : AuthIdentity} {name : String} :
    FreelyReleasable data identity name ↔
      (∃ live, data.namespaces[name]? = some live ∧
        live.owner.isReleasableBy identity.subject = true) ∧ data.hasContent name = false := by
  constructor
  · rintro ⟨owned, contentless⟩
    obtain ⟨live, found, owner⟩ := requireNamespaceOwner_eq_ok owned
    refine ⟨⟨live, found, ?_⟩, contentless⟩
    rw [owner, Owner.isReleasableBy]
    exact decide_eq_true rfl
  · rintro ⟨⟨live, found, releasable⟩, contentless⟩
    refine ⟨?_, contentless⟩
    rw [requireNamespaceOwner, ensureNamespaceExists, found]
    cases owner : live.owner with
    | user subject =>
      rw [owner, Owner.isReleasableBy] at releasable
      simp only [owner, of_decide_eq_true releasable, if_true]
    | org members =>
      rw [owner, Owner.isReleasableBy] at releasable
      cases releasable

theorem unchangedAt_delete_iff (data : StateMachineData) (identity : AuthIdentity) (name : String)
    (reason : ReleaseReason) (now : Nat) (handle : String) :
    UnchangedAt data (data.afterNamespaces (.delete name identity.subject reason now)) handle ↔
      name ≠ handle ∨ ¬ FreelyReleasable data identity name := by
  rw [releasable_iff]
  cases core : applyNamespaceCore data.namespaceTables data.hasContent
      (.delete name identity.subject reason now) with
  | error panic => cases core
  | ok result =>
    obtain ⟨tables, answer⟩ := result
    rw [afterNamespaces_of_core core]
    rw [applyNamespaceCore, show data.namespaceTables.namespaces = data.namespaces from rfl] at core
    cases found : data.namespaces[name]? with
    | none =>
      rw [found] at core
      obtain rfl := congrArg Prod.fst (Except.ok.inj core)
      refine iff_of_true (unchangedAt_self data handle) (Or.inr ?_)
      rintro ⟨⟨live, impossible, _⟩, _⟩
      cases impossible
    | some live =>
      rw [found] at core
      simp only at core
      split at core
      · rename_i foreign
        obtain rfl := congrArg Prod.fst (Except.ok.inj core)
        refine iff_of_true (unchangedAt_self data handle) (Or.inr ?_)
        rintro ⟨⟨_, same, releasable⟩, _⟩
        cases same
        exact foreign releasable
      rename_i owned
      split at core
      · rename_i content
        obtain rfl := congrArg Prod.fst (Except.ok.inj core)
        refine iff_of_true (unchangedAt_self data handle) (Or.inr ?_)
        rintro ⟨_, contentless⟩
        rw [content] at contentless
        cases contentless
      rename_i contentless
      obtain rfl := congrArg Prod.fst (Except.ok.inj core)
      have gone : (data.namespaces.erase name)[handle]? =
          if name = handle then none else data.namespaces[handle]? :=
        BTreeMap.getElem?_erase ..
      constructor
      · rintro ⟨namespaces, _, _⟩
        refine Or.inl fun same => ?_
        rw [if_pos same] at gone
        have lost := (gone.symm.trans namespaces).trans (same ▸ found)
        cases lost
      · rintro (other | refused)
        · rw [if_neg other] at gone
          refine ⟨gone, ?_, ?_⟩
          · show (data.releasedHandles.insert name _)[handle]? = _
            rw [BTreeMap.getElem?_insert, if_neg other]
          · show (data.namespaceGrants.erase name)[handle]? = _
            rw [BTreeMap.getElem?_erase, if_neg other]
        · exact absurd ⟨⟨live, rfl, not_not.mp owned⟩, Bool.eq_false_iff.mpr contentless⟩ refused

/-! ### The commits of grants -/

theorem unchangedAt_putGrant_iff {data : StateMachineData} {grant : NamespaceGrant}
    (checked : validateNamespaceGrant data.namespaces grant = .ok (.ok ()))
    (actorLabel reason auditId handle : String) :
    UnchangedAt data (data.afterNamespaces (.putGrant grant actorLabel reason auditId)) handle ↔
      grant.namespaceHandle ≠ handle ∨
        data.namespaceTables.grant? grant.namespaceHandle grant.id =
          some (data.namespaceTables.putGrant grant actorLabel reason auditId).2 := by
  have core : applyNamespaceCore data.namespaceTables data.hasContent
      (.putGrant grant actorLabel reason auditId) =
        .ok ((data.namespaceTables.putGrant grant actorLabel reason auditId).1,
          .ok (.grant (data.namespaceTables.putGrant grant actorLabel reason auditId).2)) := by
    rw [applyNamespaceCore, show data.namespaceTables.namespaces = data.namespaces from rfl,
      checked]
  rw [afterNamespaces_of_core core]
  have grants : ∀ other,
      (data.namespaceTables.putGrant grant actorLabel reason auditId).1.namespaceGrants[other]? =
        if grant.namespaceHandle = other then
          some ((data.namespaceGrants[grant.namespaceHandle]?.getD ∅).insert grant.id
            (data.namespaceTables.putGrant grant actorLabel reason auditId).2)
        else data.namespaceGrants[other]? := by
    intro other
    rw [NamespaceTables.putGrant_namespaceGrants, BTreeMap.getElem?_insert]
    rfl
  constructor
  · rintro ⟨_, _, same⟩
    by_cases here : grant.namespaceHandle = handle
    · subst here
      have stored := (grants _).symm.trans same
      rw [if_pos rfl] at stored
      refine Or.inr ?_
      exact (BTreeMap.entry?_of_getElem? stored.symm _).trans
        ((BTreeMap.getElem?_insert ..).trans (if_pos rfl))
    · exact Or.inl here
  · intro asked
    refine ⟨rfl, rfl, (grants handle).trans ?_⟩
    split
    · rename_i here
      rcases asked with other | found
      · exact absurd here other
      subst here
      obtain ⟨stored, ofHandle, ofId⟩ := Option.bind_eq_some_iff.mp found
      rw [show data.namespaceTables.namespaceGrants = data.namespaceGrants from rfl] at ofHandle
      rw [ofHandle, Option.getD_some, BTreeMap.insert_of_found ofId]
    · rfl

theorem unchangedAt_deleteGrant_iff {data : StateMachineData} {name : String}
    (valid : validateHandle name = .ok ()) (claimed : data.namespaces[name]? ≠ none)
    (grants : GrantsConsistent data.namespaceTables) (grantId : String) (actor : Subject)
    (actorLabel reason : String) (now : Nat) (auditId handle : String) :
    UnchangedAt data (data.afterNamespaces
        (.deleteGrant name grantId actor actorLabel reason now auditId)) handle ↔
      name ≠ handle ∨ data.getNamespaceGrant name grantId = none := by
  have contains : data.namespaces.contains name = true := by
    rw [Std.ExtTreeMap.contains_iff_mem, BTreeMap.mem_iff]
    exact Option.ne_none_iff_exists'.mp claimed
  obtain ⟨answer, tables, core, same⟩ : ∃ answer tables,
      applyNamespaceCore data.namespaceTables data.hasContent
        (.deleteGrant name grantId actor actorLabel reason now auditId) = .ok (tables, answer) ∧
      tables.namespaces = data.namespaces ∧ tables.releasedHandles = data.releasedHandles ∧
      tables.namespaceGrants = (data.namespaceTables.removeGrant name grantId).namespaceGrants := by
    have kept := removeGrant_handles data.namespaceTables name grantId
    rw [applyNamespaceCore, valid]
    simp only [show data.namespaceTables.namespaces = data.namespaces from rfl, contains,
      not_true_eq_false, if_false]
    split
    · exact ⟨_, _, rfl, kept.1, kept.2, rfl⟩
    · exact ⟨_, _, rfl, kept.1, kept.2, rfl⟩
  rw [afterNamespaces_of_core core]
  constructor
  · rintro ⟨_, _, unchanged⟩
    by_cases here : name = handle
    · subst here
      refine Or.inr ((congrArg (·.bind (·[grantId]?)) unchanged).symm.trans ?_)
      have removed := NamespaceTables.grant?_removeGrant data.namespaceTables name grantId name
        grantId
      rw [if_pos ⟨rfl, rfl⟩] at removed
      exact (congrArg (fun map => map[name]?.bind (·[grantId]?)) same.2.2).trans removed
    · exact Or.inl here
  · intro asked
    refine ⟨congrArg (·[handle]?) same.1, congrArg (·[handle]?) same.2.1, ?_⟩
    refine (congrArg (·[handle]?) same.2.2).trans ?_
    show (data.namespaceTables.removeGrant name grantId).namespaceGrants[handle]? = _
    rw [NamespaceTables.removeGrant, show data.namespaceTables.namespaceGrants =
      data.namespaceGrants from rfl]
    cases found : data.namespaceGrants[name]? with
    | none => rfl
    | some stored =>
      simp only
      rcases asked with other | absent
      · split
        · rw [BTreeMap.getElem?_erase, if_neg other]
        · rw [BTreeMap.getElem?_insert, if_neg other]
      · have absent : stored[grantId]? = none := by
          rw [StateMachineData.getNamespaceGrant, found] at absent
          exact absent
        rw [BTreeMap.erase_of_absent absent, if_neg, BTreeMap.getElem?_insert]
        · split
          · rename_i here
            rw [← here, found]
          · rfl
        · intro empty
          rw [Std.ExtTreeMap.isEmpty_iff.mp empty] at found
          exact grants.nonempty name found

/-! ### The grants of the account routes -/

/-- What holds of the data of every reachable state, as far as the grants depend on it. -/
structure GrantsReachable (data : StateMachineData) : Prop where
  live : LiveNamespaces data
  grants : GrantsConsistent data.namespaceTables
  keyed : ∀ handle id grant, data.namespaceTables.grant? handle id = some grant →
    ∃ key, grant.grantee.stableKey = .ok key

theorem grantsReachable_of_run {externals : Externals} {labels : List (Nat × Request)}
    {data : StateMachineData} (reached : run (requestStep externals) .empty labels = some data) :
    GrantsReachable data := by
  refine run_invariant GrantsReachable (fun before label after stepped holds => ?_) reached
    ⟨liveNamespaces_empty, grantsConsistent_empty, grantsInOrder_empty.keyed⟩
  obtain ⟨response, applied⟩ := requestStep_eq_some.mp stepped
  refine ⟨holds.live.applyRequest applied, holds.grants.applyRequest applied, ?_⟩
  intro handle id stored found
  rcases (applyRequest_survives applied holds.grants found).2 with earlier | put
  · exact holds.keyed handle id stored earlier
  · obtain ⟨_, _, grant, _, _, _, _, checked, _, _, same⟩ := put
    rw [same]
    exact stableKey_of_validated checked

theorem validateNamespaceGrant_of_keyed {namespaces : BTreeMap String Namespace}
    {grant : NamespaceGrant} {key : String} (valid : validateHandle grant.namespaceHandle = .ok ())
    (claimed : namespaces[grant.namespaceHandle]? ≠ none)
    (keyed : grant.grantee.stableKey = .ok key) (restricted : grant.grantee ≠ .everyone) :
    validateNamespaceGrant namespaces grant = .ok (.ok ()) := by
  have contains : namespaces.contains grant.namespaceHandle = true := by
    rw [Std.ExtTreeMap.contains_iff_mem, BTreeMap.mem_iff]
    exact Option.ne_none_iff_exists'.mp claimed
  rw [validateNamespaceGrant, valid]
  simp only [contains, not_true_eq_false, if_false]
  cases grantee : grant.grantee with
  | group id =>
    rw [grantee, NamespaceGrantGrantee.stableKey] at keyed
    split at keyed
    · cases keyed
    · cases keyed
    · assumption
  | user id =>
    rw [grantee, NamespaceGrantGrantee.stableKey] at keyed
    split at keyed
    · cases keyed
    · cases keyed
    · assumption
  | everyone => exact absurd grantee restricted

theorem stableKey_of_intoGrantee {request : NamespaceGrantGranteeRequest}
    {grantee : NamespaceGrantGrantee} (read : request.intoGrantee = .ok (.ok grantee)) :
    ∃ key, grantee.stableKey = .ok key := by
  cases request with
  | group id =>
    rw [NamespaceGrantGranteeRequest.intoGrantee] at read
    split at read
    · cases read
    · obtain ⟨checked, kind, named⟩ := exceptMap_eq_ok.mp read
      obtain ⟨_, rfl, rfl⟩ := exceptMap_eq_ok.mp named
      rw [NamespaceGrantGrantee.stableKey, kind]
      exact ⟨_, rfl⟩
  | user id =>
    rw [NamespaceGrantGranteeRequest.intoGrantee] at read
    split at read
    · cases read
    · obtain ⟨checked, kind, named⟩ := exceptMap_eq_ok.mp read
      obtain ⟨_, rfl, rfl⟩ := exceptMap_eq_ok.mp named
      rw [NamespaceGrantGrantee.stableKey, kind]
      exact ⟨_, rfl⟩
  | everyone =>
    cases read
    exact ⟨_, rfl⟩

theorem publicSafeAction_eq_ok {grantee : NamespaceGrantGrantee} {action allowed : OciAction}
    (safe : publicSafeAction grantee action = .ok allowed) :
    allowed = action ∧ grantee ≠ .everyone := by
  rw [publicSafeAction] at safe
  split at safe
  · cases safe
  split at safe
  · cases safe
  · rename_i restricted
    exact ⟨(Except.ok.inj safe).symm, restricted⟩

theorem normalizedReason_owner (reason : Option String) :
    ∃ text, normalizedReason reason false = .ok text := by
  unfold normalizedReason
  cases trimmedText reason with
  | none => exact ⟨_, rfl⟩
  | some text => exact ⟨_, rfl⟩

/-- The data after a handler is done. -/
def StateMachineData.afterOutcome (data : StateMachineData) :
    Except Panic (Except LayerhouseError NamespaceRequest) → StateMachineData
  | .ok (.ok request) => data.afterNamespaces request
  | .error _ | .ok (.error _) => data

/-- A stored grant that is put again is kept as it was only if it is written as it is there. -/
theorem unchangedAt_putGrant_stored_iff {data : StateMachineData} (holds : GrantsReachable data)
    {name key : String} {stored grant : NamespaceGrant}
    (claimed : data.namespaces[name]? ≠ none)
    (found : data.getNamespaceGrant name stored.id = some stored)
    (sameId : grant.id = stored.id) (placed : grant.namespaceHandle = name)
    (keyed : grant.grantee.stableKey = .ok key) (restricted : grant.grantee ≠ .everyone)
    (actorLabel reason auditId handle : String) :
    UnchangedAt data (data.afterNamespaces (.putGrant grant actorLabel reason auditId)) handle ↔
      name ≠ handle ∨
        { grant with createdBy := stored.createdBy, createdAt := stored.createdAt } = stored := by
  obtain ⟨live, lookup⟩ := Option.ne_none_iff_exists'.mp claimed
  have checked := @validateNamespaceGrant_of_keyed data.namespaces grant key
    (placed.symm ▸ (holds.live name live lookup).valid) (placed.symm ▸ claimed) keyed restricted
  have found : data.namespaceTables.grant? name stored.id = some stored := found
  rw [unchangedAt_putGrant_iff checked, placed, sameId, found, NamespaceTables.putGrant_snd, placed,
    sameId, found, Option.elim_some, Option.some.injEq]
  exact or_congr_right eq_comm

section

variable {data : StateMachineData} {identity : AuthIdentity} {name : String}

/-- A create that is not idle stores a new grant, or other values in the grant of its grantee. -/
theorem unchangedAt_create_iff (holds : GrantsReachable data)
    (claimed : data.namespaces[name]? ≠ none) (request : PutNamespaceGrantRequest)
    (reason : Option String) (now : Nat) (grantId auditId handle : String) :
    UnchangedAt data (data.afterOutcome (GrantEdit.prepare
        ⟨identity, name, .create request, false, reason⟩ data now grantId auditId)) handle ↔
      name ≠ handle ∨ GrantChange.Idle data identity name now (.create request) := by
  obtain ⟨text, given⟩ := normalizedReason_owner request.reason
  rw [GrantEdit.prepare]
  simp only [putNamespaceGrant, given]
  cases into : request.grantee.intoGrantee with
  | error panic =>
    refine iff_of_true (unchangedAt_self data handle) (Or.inr fun grantee read => ?_)
    cases into.symm.trans read
  | ok outcome =>
    cases outcome with
    | error error =>
      refine iff_of_true (unchangedAt_self data handle) (Or.inr fun grantee read => ?_)
      cases into.symm.trans read
    | ok grantee =>
      obtain ⟨key, keyed⟩ := stableKey_of_intoGrantee into
      have stored : ∀ grant ∈ data.listNamespaceGrants name,
          ∃ key, grant.grantee.stableKey = .ok key := by
        intro grant member
        obtain ⟨id, lookup⟩ := mem_listNamespaceGrants.mp member
        exact holds.keyed name id grant lookup
      obtain ⟨existing, searched⟩ := matchingGrant_ok stored keyed
      simp only [searched]
      cases safe : publicSafeAction grantee request.action with
      | error error =>
        refine iff_of_true (unchangedAt_self data handle) (Or.inr fun other read allowed => ?_)
        cases into.symm.trans read
        cases safe.symm.trans allowed
      | ok action =>
        obtain ⟨rfl, restricted⟩ := publicSafeAction_eq_ok safe
        have idle : ∀ found : NamespaceGrant, existing = some found →
            (GrantChange.Idle data identity name now (.create request) ↔
              { found with grantee := grantee }.edited identity request.action
                ((trimmedText request.label).getD grantee.label) now = found) := by
          rintro found rfl
          constructor
          · intro same
            obtain ⟨other, lookup, written⟩ := same grantee into safe
            cases searched.symm.trans lookup
            exact written
          · intro written other read _
            cases into.symm.trans read
            exact ⟨found, searched, written⟩
        cases existing with
        | some found =>
          obtain ⟨member, _⟩ := matchingGrant_eq_some searched
          obtain ⟨id, lookup⟩ := mem_listNamespaceGrants.mp member
          have kept := holds.grants.stored name id found lookup
          rw [idle found rfl]
          have written := @unchangedAt_putGrant_stored_iff data holds name key found
            { id := found.id, namespaceHandle := name, grantee := grantee
              action := request.action
              label := (trimmedText request.label).getD grantee.label
              createdBy := identity.subject, createdAt := now
              updatedBy := identity.subject, updatedAt := now }
            claimed (kept.keyed ▸ lookup) rfl rfl keyed restricted (actorLabel identity) text
            auditId handle
          rw [NamespaceGrant.edited, kept.placed]
          exact written
        | none =>
          obtain ⟨live, lookup⟩ := Option.ne_none_iff_exists'.mp claimed
          have valid : validateHandle name = .ok () := (holds.live name live lookup).valid
          have checked := @validateNamespaceGrant_of_keyed data.namespaces
            { id := grantId, namespaceHandle := name, grantee := grantee
              action := request.action
              label := (trimmedText request.label).getD grantee.label
              createdBy := identity.subject, createdAt := now
              updatedBy := identity.subject, updatedAt := now } key valid claimed keyed restricted
          refine (unchangedAt_putGrant_iff checked (actorLabel identity) text auditId handle).trans
            (or_congr_right (iff_of_false (fun there => ?_) fun same => ?_))
          -- No stored grant is for the grantee, so the new one was not there.
          · refine matchingGrant_eq_none searched _
              (mem_listNamespaceGrants.mpr ⟨grantId, there⟩) ?_
            rw [NamespaceTables.putGrant_snd]
            cases data.namespaceTables.grant? name grantId <;> rfl
          · obtain ⟨found, impossible, _⟩ := same grantee into safe
            cases searched.symm.trans impossible

theorem unchangedAt_update_iff (holds : GrantsReachable data)
    (claimed : data.namespaces[name]? ≠ none) (updated : String)
    (request : PatchNamespaceGrantRequest) (reason : Option String) (now : Nat)
    (grantId auditId handle : String) :
    UnchangedAt data (data.afterOutcome (GrantEdit.prepare
        ⟨identity, name, .update updated request, false, reason⟩ data now grantId auditId)) handle ↔
      name ≠ handle ∨ GrantChange.Idle data identity name now (.update updated request) := by
  obtain ⟨text, given⟩ := normalizedReason_owner request.reason
  rw [GrantEdit.prepare]
  simp only [patchNamespaceGrant, given]
  cases found : data.getNamespaceGrant name updated with
  | none =>
    refine iff_of_true (unchangedAt_self data handle) (Or.inr fun existing lookup => ?_)
    cases found.symm.trans lookup
  | some stored =>
    cases safe : publicSafeAction stored.grantee request.action with
    | error error =>
      simp only [safe]
      refine iff_of_true (unchangedAt_self data handle) (Or.inr fun existing lookup allowed => ?_)
      cases found.symm.trans lookup
      cases safe.symm.trans allowed
    | ok action =>
      obtain ⟨rfl, restricted⟩ := publicSafeAction_eq_ok safe
      simp only [safe]
      obtain ⟨key, keyed⟩ := holds.keyed name updated stored found
      have kept := holds.grants.stored name updated stored found
      have idle : GrantChange.Idle data identity name now (.update updated request) ↔
          stored.edited identity request.action
            ((trimmedText request.label).getD stored.label) now = stored := by
        constructor
        · exact fun same => same stored found safe
        · intro written other lookup _
          cases found.symm.trans lookup
          exact written
      rw [idle]
      exact @unchangedAt_putGrant_stored_iff data holds name key stored
        (stored.edited identity request.action
          ((trimmedText request.label).getD stored.label) now)
        claimed (kept.keyed.symm ▸ found) rfl kept.placed keyed restricted (actorLabel identity)
        text auditId handle

theorem unchangedAt_remove_iff (holds : GrantsReachable data)
    (claimed : data.namespaces[name]? ≠ none) (removed : String) (reason : Option String)
    (now : Nat) (grantId auditId handle : String) :
    UnchangedAt data (data.afterOutcome (GrantEdit.prepare
        ⟨identity, name, .delete removed, false, reason⟩ data now grantId auditId)) handle ↔
      name ≠ handle ∨ GrantChange.Idle data identity name now (.delete removed) := by
  obtain ⟨text, given⟩ := normalizedReason_owner reason
  obtain ⟨live, lookup⟩ := Option.ne_none_iff_exists'.mp claimed
  rw [GrantEdit.prepare]
  simp only [deleteNamespaceGrant, given]
  exact unchangedAt_deleteGrant_iff (holds.live name live lookup).valid claimed holds.grants
    removed identity.subject (actorLabel identity) text now auditId handle

end

/-! ### The requests of scoped tokens -/

theorem serveNamespaces_of_passed {externals : Externals} {service : AuthService}
    {data : StateMachineData} {identity : AuthIdentity} {draw : NamespaceDraw}
    {sent : NamespaceHttpRequest}
    (passed : adminMiddleware service data identity
      (sent.call.path sent.sentName sent.sentGrantId) = .ok ()) :
    serveNamespaces externals service data identity draw sent =
      data.afterOutcome (sent.call.handle service data identity sent.name draw) := by
  rw [serveNamespaces, passed]
  simp only
  cases sent.call.handle service data identity sent.name draw with
  | error panic => rfl
  | ok outcome =>
    cases outcome with
    | error error => rfl
    | ok request =>
      simp only [StateMachineData.afterOutcome, StateMachineData.afterNamespaces, applyRequest]
      cases applyNamespace data request with
      | error panic => rfl
      | ok result => rfl

/-- A request that its handler refuses leaves the data alone. -/
theorem serveNamespaces_of_refused {externals : Externals} {service : AuthService}
    {data : StateMachineData} {identity : AuthIdentity} {draw : NamespaceDraw}
    {sent : NamespaceHttpRequest} {error : LayerhouseError}
    (refused : sent.call.handle service data identity sent.name draw = .ok (.error error)) :
    serveNamespaces externals service data identity draw sent = data := by
  rw [serveNamespaces, refused]
  split <;> rfl

/-- A scoped token's request leaves a handle alone exactly if it is about another handle, needs an
administrator, would be refused to the token's user as well, or writes what is there; the scopes
of the token make no difference. -/
theorem scoped_request_unchanged_iff (externals : Externals) (service : AuthService)
    {labels : List (Nat × Request)} {data : StateMachineData}
    (reached : run (requestStep externals) .empty labels = some data) {identity : AuthIdentity}
    (credential : usesExplicitScopes identity = true) (draw : NamespaceDraw)
    (sent : NamespaceHttpRequest) (handle : String) :
    UnchangedAt data (serveNamespaces externals service data identity draw sent) handle ↔
      sent.name ≠ handle ∨ sent.call.Harmless data identity sent.name draw.now := by
  have holds := grantsReachable_of_run reached
  obtain ⟨denial, denied⟩ := checkAdminAccess_scoped service data credential
  obtain ⟨name, call, sentName, sentGrantId⟩ := sent
  have served : call.isAdminOnly = false →
      serveNamespaces externals service data identity draw ⟨name, call, sentName, sentGrantId⟩ =
        data.afterOutcome (call.handle service data identity name draw) := fun selfService =>
    @serveNamespaces_of_passed externals service data identity draw
      ⟨name, call, sentName, sentGrantId⟩
      (adminMiddleware_of_not_admin service data identity sentName sentGrantId selfService)
  cases call with
  | claim request =>
    cases asked : request.adminOverride with
    | true =>
      rw [@serveNamespaces_of_refused _ _ _ _ _ _ denial
        (by simp only [NamespaceCall.handle, asked, if_true, denied])]
      exact iff_of_true (unchangedAt_self data handle) (Or.inr (Or.inl asked))
    | false =>
      rw [served rfl]
      simp only [NamespaceCall.handle, NamespaceCall.Harmless, asked, Bool.false_eq_true, if_false,
        false_or, StateMachineData.afterOutcome, ClaimCall.toRequest]
      exact unchangedAt_claim_iff ..
  | release request =>
    rw [served rfl]
    exact unchangedAt_delete_iff ..
  | revoke =>
    rw [@serveNamespaces_of_refused _ _ _ _ _ _ denial
      (by simp only [NamespaceCall.handle, denied])]
    exact iff_of_true (unchangedAt_self data handle) (Or.inr trivial)
  | grants change admin reason =>
    cases admin with
    | true =>
      rw [@serveNamespaces_of_refused _ _ _ _ _ _ denial
        (by simp only [NamespaceCall.handle, if_true, denied])]
      exact iff_of_true (unchangedAt_self data handle) (Or.inr (Or.inl rfl))
    | false =>
      cases owned : requireNamespaceOwner data identity name with
      | error error =>
        rw [@serveNamespaces_of_refused _ _ _ _ _ _ error
          (by simp only [NamespaceCall.handle, Bool.false_eq_true, if_false, owned])]
        refine iff_of_true (unchangedAt_self data handle) (Or.inr (Or.inr (Or.inl ?_)))
        rw [owned]
        exact fun impossible => by cases impossible
      | ok done =>
        obtain ⟨live, found, _⟩ := requireNamespaceOwner_eq_ok owned
        have claimed : data.namespaces[name]? ≠ none := by
          rw [found]
          exact Option.some_ne_none live
        have harmless : NamespaceCall.Harmless data identity name draw.now
            (.grants change false reason) ↔ change.Idle data identity name draw.now := by
          rw [NamespaceCall.Harmless, owned]
          simp
        rw [served rfl, harmless]
        simp only [NamespaceCall.handle, Bool.false_eq_true, if_false, owned,
          ensureNamespaceExists, found]
        cases change with
        | create request => exact unchangedAt_create_iff holds claimed ..
        | update updated request => exact unchangedAt_update_iff holds claimed ..
        | delete removed => exact unchangedAt_remove_iff holds claimed ..

/-- A token that may only pull one repository of another namespace. -/
def samplePullToken : AuthIdentity :=
  { sampleToken with scopes := ["repository:other/app:pull"], namespaceEpochs := [] }

def sampleScopedClaim : NamespaceHttpRequest where
  name := "alice"
  call := .claim ⟨none, false⟩
  sentName := "alice"
  sentGrantId := ""

/-- The token cannot release a namespace that another user has. -/
theorem scoped_request_unchanged_iff_sample :
    ∃ data, run (requestStep sampleExternals) .empty [(0, sampleClaim "alice" "second" false)] =
        some data ∧
      UnchangedAt data (serveNamespaces sampleExternals samplePermissive data samplePullToken
        ⟨5, "grant", "audit"⟩ ⟨"alice", .release ⟨none⟩, "alice", ""⟩) "alice" := by
  have reached : run (requestStep sampleExternals) .empty
      [(0, sampleClaim "alice" "second" false)] = some _ := rfl
  refine ⟨_, reached, (@scoped_request_unchanged_iff sampleExternals samplePermissive _ _ reached
    samplePullToken rfl ⟨5, "grant", "audit"⟩ ⟨"alice", .release ⟨none⟩, "alice", ""⟩
    "alice").mpr (Or.inr fun releasable => ?_)⟩
  cases releasable.owned

theorem samplePullToken_outside (action : OciAction) (path : String) :
    matchingScope samplePullToken.scopes ("alice" ++ "/" ++ path) action = none := by
  refine Option.eq_none_iff_forall_ne_some.mpr fun ⟨pattern, allowed⟩ found => ?_
  obtain ⟨scope, member, parsed, matched, _⟩ := matchingScope_eq_some found
  rw [List.mem_singleton.mp member] at parsed
  have read : parseScope "repository:other/app:pull" = some ("other/app", .pull) := by decide
  cases read.symm.trans parsed
  have same : "other/app" = "alice" ++ "/" ++ path := of_decide_eq_true matched
  have first := congrArg (fun text => text.toList.head?) same
  rw [String.toList_append, String.toList_append] at first
  exact absurd first (by simp)

/-- The token takes a handle that nobody has for its user. -/
theorem scoped_token_claims_namespace :
    ¬ ∀ (externals : Externals) (service : AuthService) (labels : List (Nat × Request))
        (data : StateMachineData), run (requestStep externals) .empty labels = some data →
      ∀ (identity : AuthIdentity) (handle : String), usesExplicitScopes identity = true →
        ScopesOutside identity handle → ∀ (draw : NamespaceDraw) (sent : NamespaceHttpRequest),
          UnchangedAt data (serveNamespaces externals service data identity draw sent) handle := by
  intro holds
  have kept := holds sampleExternals samplePermissive [] .empty rfl samplePullToken "alice" rfl
    (fun path action => samplePullToken_outside action path) ⟨5, "grant", "audit"⟩
    sampleScopedClaim
  rw [@serveNamespaces_of_passed _ _ _ _ _ sampleScopedClaim
    (adminMiddleware_of_not_admin samplePermissive .empty samplePullToken "alice" "" rfl)] at kept
  have claimable : Claimable .empty "alice" := ⟨by decide, by decide, rfl, rfl⟩
  rcases (unchangedAt_claim_iff .empty "alice" (.user "first") "unknown" "first" 5 "alice").mp kept
    with other | refused
  · exact other rfl
  · exact refused claimable

end Layerhouse
