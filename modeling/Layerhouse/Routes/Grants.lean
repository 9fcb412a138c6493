/-
This file is the account routes for the grants of a namespace:
`routes/namespaces/handlers.rs`. A handler checks that its caller owns the
namespace, checks again that the namespace exists, looks up the grant it is about
to change, and commits the change. Each of these is a step of its own, and the
reads are answered by the node that serves the call, which may have applied fewer
requests than were committed.

The commit does not say which namespace was checked, so the owner's right is
bound to the commit only as long as the handle is not claimed anew in between.
The file proves that this is the only way it comes apart: a change that commits
while the handle is in the generation its caller was checked in commits for the
owner.
-/

import Layerhouse.Auth.Authorization
import Layerhouse.Raft.Grants
import Layerhouse.Routes.Calls

namespace Layerhouse

/-! ### Requests of the routes -/

inductive NamespaceGrantGranteeRequest where
  | group (id : String)
  | user (id : String)
  | everyone
deriving DecidableEq

def NamespaceGrantGranteeRequest.intoGrantee :
    NamespaceGrantGranteeRequest → Except Panic (Except LayerhouseError NamespaceGrantGrantee)
  | .group id =>
    match ProviderQualifiedId.parse id with
    | .error error => .ok (.error error)
    | .ok id => (ensureKind id .group).map fun checked => checked.map fun _ => .group id
  | .user id =>
    match ProviderQualifiedId.parse id with
    | .error error => .ok (.error error)
    | .ok id => (ensureKind id .user).map fun checked => checked.map fun _ => .user id
  | .everyone => .ok (.ok .everyone)

structure PutNamespaceGrantRequest where
  grantee : NamespaceGrantGranteeRequest
  action : OciAction
  label : Option String
  reason : Option String
deriving DecidableEq

structure PatchNamespaceGrantRequest where
  action : OciAction
  label : Option String
  reason : Option String
deriving DecidableEq

/-- What the caller of an account route asks for. -/
inductive GrantChange where
  | create (request : PutNamespaceGrantRequest)
  | update (grantId : String) (request : PatchNamespaceGrantRequest)
  | delete (grantId : String)
deriving DecidableEq

/-! ### The checks of the handlers -/

def ensureNamespaceExists (data : StateMachineData) (handle : String) :
    Except LayerhouseError Namespace :=
  match data.namespaces[handle]? with
  | some live => .ok live
  | none => .error (.nameUnknown ("namespace " ++ Text.debugStr handle ++ " not found"))

def requireNamespaceOwner (data : StateMachineData) (identity : AuthIdentity) (handle : String) :
    Except LayerhouseError Unit :=
  match ensureNamespaceExists data handle with
  | .error error => .error error
  | .ok live =>
    if live.owner = .user identity.subject then .ok ()
    else .error (.denied ("namespace " ++ Text.debugStr handle ++ " is not owned by the caller"))

/-- A text without the white space around it, unless nothing is left of it. -/
def trimmedText (text : Option String) : Option String :=
  (text.map fun text => String.ofList (Text.trim text.toList)).filter (· ≠ "")

def normalizedReason (reason : Option String) (required : Bool) :
    Except LayerhouseError String :=
  match required, trimmedText reason with
  | true, none => .error (.nameInvalid "admin grant changes require a reason")
  | _, some reason => .ok reason
  | false, none => .ok "owner change"

def actorLabel (identity : AuthIdentity) : String :=
  ((identity.displayName.or identity.username).or identity.email).getD identity.subject

def isRepositoryAction (action : OciAction) : Bool :=
  action ≠ .admin

def publicSafeAction (grantee : NamespaceGrantGrantee) (action : OciAction) :
    Except LayerhouseError OciAction :=
  if ¬ isRepositoryAction action then
    .error (.nameInvalid "namespace grants only support repository actions")
  else if grantee = .everyone then
    .error (.nameInvalid "public pull is controlled by repository visibility")
  else .ok action

def NamespaceGrantGrantee.label : NamespaceGrantGrantee → String
  | .group id | .user id => id.text
  | .everyone => "Public"

/-- The key two grants to the same principal share; an id of another kind panics. -/
def NamespaceGrantGrantee.stableKey : NamespaceGrantGrantee → Except Panic String
  | .group id =>
    match ensureKind id .group with
    | .error panic => .error panic
    | .ok (.error _) => .error ⟨"namespace group grant id is provider-qualified group"⟩
    | .ok (.ok ()) => .ok ("group:" ++ id.text)
  | .user id =>
    match ensureKind id .user with
    | .error panic => .error panic
    | .ok (.error _) => .error ⟨"namespace user grant id is provider-qualified user"⟩
    | .ok (.ok ()) => .ok ("user:" ++ id.text)
  | .everyone => .ok "public"

namespace StateMachineData

def listNamespaceGrants (data : StateMachineData) (handle : String) : List NamespaceGrant :=
  (data.namespaceGrants[handle]?.map fun grants => grants.toList.map (·.2)).getD []

def getNamespaceGrant (data : StateMachineData) (handle grantId : String) :
    Option NamespaceGrant :=
  data.namespaceGrants[handle]?.bind (·[grantId]?)

end StateMachineData

/-- The first of the grants with the grantee's key. -/
def matchingGrant (grantee : NamespaceGrantGrantee) :
    List NamespaceGrant → Except Panic (Option NamespaceGrant)
  | [] => .ok none
  | grant :: rest =>
    match grant.grantee.stableKey, grantee.stableKey with
    | .ok stored, .ok wanted =>
      if stored = wanted then .ok (some grant) else matchingGrant grantee rest
    | .error panic, _ | _, .error panic => .error panic

/-! ### The change a handler commits -/

/-- `put_namespace_grant_response` after its namespace was found, up to the commit. `grantId` is
the fresh id of a grant that does not exist yet. -/
def putNamespaceGrant (data : StateMachineData) (identity : AuthIdentity) (handle : String)
    (request : PutNamespaceGrantRequest) (admin : Bool) (now : Nat) (grantId auditId : String) :
    Except Panic (Except LayerhouseError NamespaceRequest) :=
  match normalizedReason request.reason admin with
  | .error error => .ok (.error error)
  | .ok reason =>
    match request.grantee.intoGrantee with
    | .error panic => .error panic
    | .ok (.error error) => .ok (.error error)
    | .ok (.ok grantee) =>
      match matchingGrant grantee (data.listNamespaceGrants handle) with
      | .error panic => .error panic
      | .ok existing =>
        match publicSafeAction grantee request.action with
        | .error error => .ok (.error error)
        | .ok action =>
          .ok (.ok (.putGrant
            { id := existing.elim grantId (·.id)
              namespaceHandle := handle
              grantee := grantee
              action := action
              label := (trimmedText request.label).getD grantee.label
              createdBy := identity.subject
              createdAt := now
              updatedBy := identity.subject
              updatedAt := now } (actorLabel identity) reason auditId))

/-- `patch_namespace_grant_response` after its namespace was found, up to the commit. -/
def patchNamespaceGrant (data : StateMachineData) (identity : AuthIdentity)
    (handle grantId : String) (request : PatchNamespaceGrantRequest) (admin : Bool) (now : Nat)
    (auditId : String) : Except LayerhouseError NamespaceRequest :=
  match normalizedReason request.reason admin with
  | .error error => .error error
  | .ok reason =>
    match data.getNamespaceGrant handle grantId with
    | none => .error (.nameUnknown ("namespace grant " ++ Text.debugStr grantId ++ " not found"))
    | some grant =>
      match publicSafeAction grant.grantee request.action with
      | .error error => .error error
      | .ok action =>
        .ok (.putGrant
          { grant with
            action := action
            label := (trimmedText request.label).getD grant.label
            updatedBy := identity.subject
            updatedAt := now } (actorLabel identity) reason auditId)

/-- `delete_namespace_grant_response` after its namespace was found, up to the commit. -/
def deleteNamespaceGrant (identity : AuthIdentity) (handle grantId : String)
    (reason : Option String) (admin : Bool) (now : Nat) (auditId : String) :
    Except LayerhouseError NamespaceRequest :=
  match normalizedReason reason admin with
  | .error error => .error error
  | .ok reason =>
    .ok (.deleteGrant handle grantId identity.subject (actorLabel identity) reason now auditId)

/-- The request an account route commits for a change. -/
def GrantChange.prepare (change : GrantChange) (data : StateMachineData) (identity : AuthIdentity)
    (handle : String) (now : Nat) (grantId auditId : String) :
    Except Panic (Except LayerhouseError NamespaceRequest) :=
  match change with
  | .create request => putNamespaceGrant data identity handle request false now grantId auditId
  | .update existing request =>
    .ok (patchNamespaceGrant data identity handle existing request false now auditId)
  | .delete existing => .ok (deleteNamespaceGrant identity handle existing none false now auditId)

/-! ### Calls among commits -/

structure GrantCall where
  identity : AuthIdentity
  handle : String
  change : GrantChange
deriving DecidableEq

/-- How far a call is. The data in which its caller was found to own the namespace is kept to
speak about it; the handler forgets it. -/
inductive GrantStage where
  | received
  | authorized (seen : StateMachineData)
  | found (seen : StateMachineData)
  | ready (seen : StateMachineData) (request : NamespaceRequest)

abbrev GrantSystem := CallSystem GrantCall GrantStage

/-- The steps of the calls, and the commits of all other requests. A read names the number of
committed requests the serving node has yet to apply. -/
inductive GrantLabel where
  | commit (now : Nat) (request : Request)
  | receive (id : Nat) (call : GrantCall)
  | checkOwner (id lag : Nat)
  | ensureExists (id lag : Nat)
  | prepare (id lag now : Nat) (grantId auditId : String)
  | write (id now : Nat)

/-- A panic ends a call as an error does. -/
def grantStep (externals : Externals) (system : GrantSystem) : GrantLabel → Option GrantSystem
  | .commit now request => (requestStep externals system.data (now, request)).map system.commit
  | .receive id call =>
    match system.calls id with
    | none => some (system.setCall id (some (call, .received)))
    | some _ => none
  | .checkOwner id lag =>
    match system.calls id, system.history[lag]? with
    | some (call, .received), some seen =>
      some (system.continueWith id call
        ((requireNamespaceOwner seen call.identity call.handle).map fun _ => .authorized seen))
    | _, _ => none
  | .ensureExists id lag =>
    match system.calls id, system.history[lag]? with
    | some (call, .authorized seen), some data =>
      some (system.continueWith id call
        ((ensureNamespaceExists data call.handle).map fun _ => .found seen))
    | _, _ => none
  | .prepare id lag now grantId auditId =>
    match system.calls id, system.history[lag]? with
    | some (call, .found seen), some data =>
      match call.change.prepare data call.identity call.handle now grantId auditId with
      | .error _ => some (system.setCall id none)
      | .ok outcome => some (system.continueWith id call (outcome.map (.ready seen)))
    | _, _ => none
  | .write id now =>
    match system.calls id with
    | some (_, .ready _ request) =>
      (requestStep externals system.data (now, .namespaces request)).map fun next =>
        (system.commit next).setCall id none
    | _ => none

/-! ### What a commit should be bound to -/

/-- The handle whose grants a request changes. -/
def NamespaceRequest.grantHandle : NamespaceRequest → Option String
  | .putGrant grant .. => some grant.namespaceHandle
  | .deleteGrant handle .. => some handle
  | _ => none

/-- A grant change that is accepted commits while its caller owns the live namespace. -/
def GrantSystem.CommitsForOwner (externals : Externals) (system : GrantSystem) :
    GrantLabel → Prop
  | .write id now =>
    ∀ call seen request handle next response, system.calls id = some (call, .ready seen request) →
      request.grantHandle = some handle →
        applyRequest externals now system.data (.namespaces request) = .ok (next, response) →
          response.isError = false →
            ∃ live, system.data.namespaces[handle]? = some live ∧
              live.owner = .user call.identity.subject
  | _ => True

/-- The generation a handle is live in. -/
def liveGeneration (data : StateMachineData) (handle : String) : Option Nat :=
  data.namespaces[handle]?.map (·.generation)

/-- A grant change commits while its handle is in the generation that its caller was checked in,
or is not live at all. -/
def GrantSystem.CommitsInGeneration (system : GrantSystem) : GrantLabel → Prop
  | .write id _ =>
    match system.calls id with
    | some (call, .ready seen _) =>
      liveGeneration system.data call.handle = none ∨
        liveGeneration system.data call.handle = liveGeneration seen call.handle
    | _ => True
  | _ => True

instance (system : GrantSystem) (label : GrantLabel) :
    Decidable (system.CommitsInGeneration label) :=
  match label with
  | .write id _ =>
    match called : system.calls id with
    | some (call, .ready seen request) =>
      decidable_of_iff (liveGeneration system.data call.handle = none ∨
        liveGeneration system.data call.handle = liveGeneration seen call.handle)
        (by simp only [GrantSystem.CommitsInGeneration, called])
    | some (_, .received) | some (_, .authorized _) | some (_, .found _) | none =>
      isTrue (by simp only [GrantSystem.CommitsInGeneration, called])
  | .commit .. | .receive .. | .checkOwner .. | .ensureExists .. | .prepare .. => isTrue trivial

/-! ### A generation has one owner -/

/-- The request was accepted and releases or revokes the handle. -/
def ReleasesHandle (handle : String) (entry : Request × Response) : Prop :=
  ∃ request, entry.1 = .namespaces request ∧ request.Releases handle ∧ entry.2.isError = false

/-- A request releases one handle. -/
theorem NamespaceRequest.Releases.unique {request : NamespaceRequest} {handle other : String}
    (first : request.Releases handle) (second : request.Releases other) : handle = other := by
  rcases first with ⟨_, _, _, rfl⟩ | ⟨_, _, rfl⟩ <;>
    rcases second with ⟨_, _, _, same⟩ | ⟨_, _, same⟩ <;> cases same <;> rfl

/-- A live namespace stays as it is until an accepted release or revocation ends its
generation. -/
theorem applyRequest_live_iff {externals : Externals} {now : Nat} {data next : StateMachineData}
    {request : Request} {response : Response}
    (applied : applyRequest externals now data request = .ok (next, response)) {handle : String}
    {live : Namespace} (found : data.namespaces[handle]? = some live) :
    ReleasesHandle handle (request, response) ∧ (handlePhase next handle).Ended live.generation ∨
      ¬ ReleasesHandle handle (request, response) ∧ next.namespaces[handle]? = some live := by
  have framed := congrArg StateMachineData.namespaces (applyRequest_frame applied)
  cases request with
  | namespaces inner =>
    obtain ⟨answer, outcome, rfl⟩ := applyNamespace_of_applied applied
    cases (applyNamespace_effect outcome).2 with
    | kept sameNamespaces sameReleased refused =>
      refine Or.inr ⟨?_, (congrArg (·[handle]?) sameNamespaces).trans found⟩
      rintro ⟨request, same, asked, accepted⟩
      cases same
      have moves : inner.movesHandle = true := by
        rcases asked with ⟨_, _, _, rfl⟩ | ⟨_, _, rfl⟩ <;> rfl
      obtain ⟨error, rfl⟩ := refused moves
      exact absurd accepted (by simp only [toResponse, isError_errorToResponse]; decide)
    | @claimed _ claimed _ _ _ _ _ _ valid unreserved unclaimed assigned namespacesEq
        releasedEq =>
      have namespacesAt := congrArg (·[handle]?) namespacesEq
      simp only [BTreeMap.getElem?_insert] at namespacesAt
      have different : claimed ≠ handle := by
        rintro rfl
        exact absurd (unclaimed.symm.trans found) (Option.some_ne_none live).symm
      rw [if_neg different] at namespacesAt
      refine Or.inr ⟨?_, namespacesAt.trans found⟩
      rintro ⟨request, same, asked, _⟩
      cases same
      rcases asked with ⟨_, _, _, impossible⟩ | ⟨_, _, impossible⟩ <;> cases impossible
    | @released _ _ released other tomb asked lookup contentless namespacesEq releasedEq
        recorded =>
      have namespacesAt := congrArg (·[handle]?) namespacesEq
      have releasedAt := congrArg (·[handle]?) releasedEq
      simp only [BTreeMap.getElem?_insert, BTreeMap.getElem?_erase] at namespacesAt releasedAt
      by_cases same : released = handle
      · subst same
        have sameLive : other = live := Option.some.inj (lookup.symm.trans found)
        rw [if_pos rfl] at namespacesAt releasedAt
        refine Or.inl ⟨⟨inner, rfl, asked, rfl⟩, ?_⟩
        rw [handlePhase_of_released namespacesAt releasedAt, recorded, sameLive]
        exact Nat.le_refl _
      · rw [if_neg same] at namespacesAt
        refine Or.inr ⟨?_, namespacesAt.trans found⟩
        rintro ⟨request, sameRequest, askedToo, _⟩
        cases sameRequest
        exact same (asked.unique askedToo)
  | _ =>
    refine Or.inr ⟨?_, (congrArg (·[handle]?) framed).trans found⟩
    rintro ⟨request, same, _⟩
    cases same

/-- A live namespace stays as it is until its generation ends. -/
theorem applyRequest_live {externals : Externals} {now : Nat} {data next : StateMachineData}
    {request : Request} {response : Response}
    (applied : applyRequest externals now data request = .ok (next, response)) {handle : String}
    {live : Namespace} (found : data.namespaces[handle]? = some live) :
    next.namespaces[handle]? = some live ∨ (handlePhase next handle).Ended live.generation := by
  rcases applyRequest_live_iff applied found with ⟨_, ended⟩ | ⟨_, same⟩
  · exact Or.inr ended
  · exact Or.inl same

/-- What a past state of the history says about the present: a namespace that was live is still
the same, or its generation is over. -/
def Succeeds (past present : StateMachineData) : Prop :=
  ∀ (handle : String) live, past.namespaces[handle]? = some live →
    present.namespaces[handle]? = some live ∨ (handlePhase present handle).Ended live.generation

theorem Succeeds.step {externals : Externals} {past present next : StateMachineData}
    {label : Nat × Request} (succeeds : Succeeds past present)
    (stepped : requestStep externals present label = some next) : Succeeds past next := by
  intro handle live found
  obtain ⟨response, applied⟩ := requestStep_eq_some.mp stepped
  rcases succeeds handle live found with same | ended
  · exact applyRequest_live applied same
  · exact Or.inr (requestStep_ended stepped ended)

/-- Two namespaces of one generation of a handle are the same one. -/
theorem Succeeds.eq_of_generation {past present : StateMachineData}
    (succeeds : Succeeds past present) {handle : String} {before after : Namespace}
    (foundBefore : past.namespaces[handle]? = some before)
    (foundAfter : present.namespaces[handle]? = some after)
    (same : after.generation = before.generation) : after = before := by
  rcases succeeds handle before foundBefore with kept | ended
  · exact Option.some.inj (foundAfter.symm.trans kept)
  · rw [handlePhase_of_live foundAfter, same] at ended
    exact absurd ended (Nat.lt_irrefl _)

/-! ### What holds of the calls -/

/-- The caller was found to own the handle in this state of the history. -/
structure OwnerSeen (history : List StateMachineData) (call : GrantCall)
    (seen : StateMachineData) : Prop where
  past : seen ∈ history
  owned : ∃ live, seen.namespaces[call.handle]? = some live ∧
    live.owner = .user call.identity.subject

def GrantStage.Sound (history : List StateMachineData) (call : GrantCall) : GrantStage → Prop
  | .received => True
  | .authorized seen | .found seen => OwnerSeen history call seen
  | .ready seen request =>
    OwnerSeen history call seen ∧ request.grantHandle = some call.handle

theorem GrantStage.Sound.cons {history : List StateMachineData} {call : GrantCall}
    {stage : GrantStage} (sound : stage.Sound history call) (next : StateMachineData) :
    stage.Sound (next :: history) call := by
  cases stage with
  | received => trivial
  | authorized seen => exact ⟨List.mem_cons_of_mem next sound.past, sound.owned⟩
  | found seen => exact ⟨List.mem_cons_of_mem next sound.past, sound.owned⟩
  | ready seen request =>
    exact ⟨⟨List.mem_cons_of_mem next sound.1.past, sound.1.owned⟩, sound.2⟩

structure GrantSystem.Consistent (system : GrantSystem) : Prop where
  grants : system.Remembers fun past => GrantsConsistent past.namespaceTables
  succeeds : ∀ past ∈ system.history, Succeeds past system.data
  calls : system.Tracks fun history call stage => stage.Sound history call

theorem grantSystem_consistent_initial :
    GrantSystem.Consistent (CallSystem.initial : GrantSystem) where
  grants := CallSystem.remembers_initial grantsConsistent_empty
  succeeds := by
    intro past member handle live found
    rw [List.mem_singleton.mp member] at found
    exact Or.inl found
  calls := CallSystem.tracks_initial

theorem requireNamespaceOwner_eq_ok {data : StateMachineData} {identity : AuthIdentity}
    {handle : String} (checked : requireNamespaceOwner data identity handle = .ok ()) :
    ∃ live, data.namespaces[handle]? = some live ∧ live.owner = .user identity.subject := by
  rw [requireNamespaceOwner, ensureNamespaceExists] at checked
  cases found : data.namespaces[handle]? with
  | none =>
    rw [found] at checked
    cases checked
  | some live =>
    rw [found] at checked
    simp only at checked
    split at checked
    · rename_i owned
      exact ⟨live, rfl, owned⟩
    · cases checked

/-- A prepared change is about the handle of its call. -/
theorem prepare_grantHandle {change : GrantChange} {data : StateMachineData}
    {identity : AuthIdentity} {handle : String} {now : Nat} {grantId auditId : String}
    {request : NamespaceRequest} (grants : GrantsConsistent data.namespaceTables)
    (prepared : change.prepare data identity handle now grantId auditId = .ok (.ok request)) :
    request.grantHandle = some handle := by
  cases change with
  | create body =>
    rw [GrantChange.prepare, putNamespaceGrant] at prepared
    split at prepared
    · cases prepared
    · split at prepared
      · cases prepared
      · cases prepared
      · split at prepared
        · cases prepared
        · split at prepared
          · cases prepared
          · cases prepared
            rfl
  | update existing body =>
    rw [GrantChange.prepare, patchNamespaceGrant] at prepared
    split at prepared
    · cases prepared
    · split at prepared
      · cases prepared
      · rename_i grant found
        split at prepared
        · cases prepared
        · cases prepared
          exact congrArg some (grants.stored handle existing grant found).placed
  | delete existing =>
    rw [GrantChange.prepare, deleteNamespaceGrant] at prepared
    split at prepared
    · cases prepared
    · cases prepared
      rfl

/-- A grant change on a handle that is not live is answered with an error. -/
theorem grantChange_refused {externals : Externals} {now : Nat} {data next : StateMachineData}
    {request : NamespaceRequest} {handle : String} {response : Response}
    (targeted : request.grantHandle = some handle) (absent : data.namespaces[handle]? = none)
    (applied : applyRequest externals now data (.namespaces request) = .ok (next, response)) :
    ¬ response.isError = false := by
  obtain ⟨answer, outcome, rfl⟩ := applyNamespace_of_applied applied
  have unclaimed : data.namespaces.contains handle ≠ true := by
    rw [Std.ExtTreeMap.contains_eq_isSome_getElem?, absent]
    exact Bool.false_ne_true
  have moved := (applyNamespace_move outcome).2
  generalize next.namespaceTables = tables at moved
  cases moved with
  | refused =>
    rw [toResponse, isError_errorToResponse]
    exact Bool.noConfusion
  | claimed valid unreserved unclaimed assigned => cases targeted
  | released asked found contentless =>
    rcases asked with ⟨_, _, _, rfl⟩ | ⟨_, _, rfl⟩
    · cases targeted
    · cases targeted
  | granted checked =>
    cases targeted
    exact absurd absent (validateNamespaceGrant_eq_ok checked).1
  | ungranted claimed missing =>
    cases targeted
    exact absurd claimed unclaimed
  | withdrawn claimed found =>
    cases targeted
    exact absurd claimed unclaimed
  | observed => cases targeted

namespace GrantSystem.Consistent

variable {system : GrantSystem}

theorem commit (holds : GrantSystem.Consistent system) {externals : Externals}
    {label : Nat × Request} {next : StateMachineData}
    (stepped : requestStep externals system.data label = some next) :
    GrantSystem.Consistent (system.commit next) where
  grants := holds.grants.commit stepped fun _ _ _ _ _ applied kept => kept.applyRequest applied
  succeeds := by
    intro past member
    rcases List.mem_cons.mp member with rfl | earlier
    · exact fun handle live found => Or.inl found
    · exact (holds.succeeds past earlier).step stepped
  calls := holds.calls.commit (fun _ _ _ next sound => sound.cons next) next

/-- A change of the calls alone. -/
theorem ofCalls (holds : GrantSystem.Consistent system) {next : GrantSystem}
    (same : next.history = system.history)
    (calls : next.Tracks fun history call stage => stage.Sound history call) :
    GrantSystem.Consistent next := by
  obtain ⟨history, calls⟩ := next
  cases same
  exact ⟨⟨holds.grants.always, holds.grants.present⟩, holds.succeeds, ‹_›⟩

/-- Every step keeps what holds of the history and of the calls. -/
theorem step {externals : Externals} {label : GrantLabel} {next : GrantSystem}
    (holds : system.Consistent) (stepped : grantStep externals system label = some next) :
    next.Consistent := by
  cases label with
  | commit now request =>
    obtain ⟨after, applied, rfl⟩ := Option.map_eq_some_iff.mp stepped
    exact holds.commit applied
  | receive id call =>
    rw [grantStep] at stepped
    split at stepped
    · cases stepped
      refine holds.ofCalls rfl (holds.calls.setCall id fun other stage same => ?_)
      cases same
      trivial
    · cases stepped
  | checkOwner id lag =>
    rw [grantStep] at stepped
    split at stepped
    · rename_i call seen called read
      cases stepped
      refine holds.ofCalls (system.continueWith_history ..)
        (holds.calls.continueWith id call fun stage passed => ?_)
      obtain ⟨done, checked, rfl⟩ := exceptMap_eq_ok.mp passed
      exact ⟨List.mem_of_getElem? read, requireNamespaceOwner_eq_ok checked⟩
    · cases stepped
  | ensureExists id lag =>
    rw [grantStep] at stepped
    split at stepped
    · rename_i call seen data called read
      cases stepped
      refine holds.ofCalls (system.continueWith_history ..)
        (holds.calls.continueWith id call fun stage passed => ?_)
      obtain ⟨live, found, rfl⟩ := exceptMap_eq_ok.mp passed
      exact holds.calls id call (.authorized seen) called
    · cases stepped
  | prepare id lag now grantId auditId =>
    rw [grantStep] at stepped
    split at stepped
    · rename_i call seen data called read
      split at stepped
      · cases stepped
        exact holds.ofCalls rfl (holds.calls.endCall id)
      · rename_i outcome prepared
        cases stepped
        refine holds.ofCalls (system.continueWith_history ..)
          (holds.calls.continueWith id call fun stage passed => ?_)
        obtain ⟨request, rfl, rfl⟩ := exceptMap_eq_ok.mp passed
        have grants := holds.grants.always data (List.mem_of_getElem? read)
        exact ⟨holds.calls id call (.found seen) called, prepare_grantHandle grants prepared⟩
    · cases stepped
  | write id now =>
    rw [grantStep] at stepped
    split at stepped
    · obtain ⟨after, applied, rfl⟩ := Option.map_eq_some_iff.mp stepped
      have committed := holds.commit applied
      exact committed.ofCalls rfl (committed.calls.endCall id)
    · cases stepped

/-- A change that commits in the generation its caller was checked in commits for the owner. -/
theorem commitsForOwner {externals : Externals} {label : GrantLabel} (holds : system.Consistent)
    (inGeneration : system.CommitsInGeneration label) :
    system.CommitsForOwner externals label := by
  cases label with
  | write id now =>
    intro call seen request handle next response called targeted applied accepted
    obtain ⟨⟨past, owned, foundOwned, ownedBy⟩, sameHandle⟩ := holds.calls id call _ called
    cases Option.some.inj (targeted.symm.trans sameHandle)
    simp only [GrantSystem.CommitsInGeneration, called] at inGeneration
    cases found : system.data.namespaces[call.handle]? with
    | none => exact absurd accepted (grantChange_refused targeted found applied)
    | some live =>
      rw [liveGeneration, liveGeneration, found, foundOwned] at inGeneration
      rcases inGeneration with impossible | same
      · cases impossible
      · have sameLive := (holds.succeeds seen past).eq_of_generation foundOwned found
          (Option.some.inj same)
        exact ⟨live, rfl, by rw [sameLive]; exact ownedBy⟩
  | _ => trivial

end GrantSystem.Consistent

/-- In every run of account calls and commits, with reads that may lag behind, whose grant
changes commit in the generation their caller was checked in, every grant change that is accepted
commits while its caller owns the live namespace. -/
theorem grant_changes_commit_for_owner (externals : Externals) (labels : List GrantLabel)
    (along : Along (grantStep externals) GrantSystem.CommitsInGeneration CallSystem.initial
      labels) :
    Along (grantStep externals) (GrantSystem.CommitsForOwner externals) CallSystem.initial
      labels :=
  along.derive GrantSystem.Consistent (fun _ _ _ stepped _ holds => holds.step stepped)
    (fun _ _ holds inGeneration => holds.commitsForOwner inGeneration)
    grantSystem_consistent_initial

/-- An owner who shares the handle with a friend and then asks for the friend to be allowed
deletions; the change is prepared and has not been committed yet. -/
def samplePrepared : List GrantLabel :=
  [.commit 0 (sampleClaim "alice" "first" false),
    .commit 0 (.namespaces (.putGrant
      { sampleGrant "alice" "first" 3 with grantee := .user ⟨"oidc:user:friend"⟩ } "first" ""
        "audit")),
    .receive 0 ⟨sampleSession "first", "alice", .update "everyone" ⟨.delete, none, none⟩⟩,
    .checkOwner 0 0, .ensureExists 0 0, .prepare 0 0 5 "" "audit"]

/-- The handle is released and claimed by somebody else before the change commits: the friend of
the former owner is granted deletions in the new owner's namespace. -/
theorem grant_change_of_former_owner :
    ∃ labels final, run (grantStep sampleExternals) CallSystem.initial labels = some final ∧
      ¬ Along (grantStep sampleExternals) (GrantSystem.CommitsForOwner sampleExternals)
        CallSystem.initial labels := by
  refine ⟨samplePrepared ++ [.commit 0 (.namespaces (sampleRelease "alice" "first")),
    .commit 0 (sampleClaim "alice" "second" true)] ++ [.write 0 0], _, rfl, fun along => ?_⟩
  obtain ⟨commits, _⟩ := (along_append.mp along).2 _ rfl
  obtain ⟨live, found, owned⟩ := commits _ _ _ "alice" _ _ rfl rfl rfl rfl
  cases found
  exact absurd owned (by decide)

/-- Without a release in between, the change commits for the owner. -/
theorem grant_changes_commit_for_owner_sample :
    ∃ final, run (grantStep sampleExternals) CallSystem.initial (samplePrepared ++ [.write 0 0]) =
        some final ∧
      Along (grantStep sampleExternals) (GrantSystem.CommitsForOwner sampleExternals)
        CallSystem.initial (samplePrepared ++ [.write 0 0]) :=
  ⟨_, rfl, grant_changes_commit_for_owner sampleExternals _ (by decide +kernel)⟩

end Layerhouse
