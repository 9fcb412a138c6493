/-
This file is the namespace domain of `raft/state_machine.rs`: claiming, releasing
and revoking handles, and the grants on a claimed handle. The core works on the
five namespace tables alone and is told by its caller whether content still lives
under a handle; the wrapper passes it the tables of the replicated data and the
prefix scan over the three content maps.
-/

import Layerhouse.Raft.StateMachine

namespace Layerhouse

/-- The tables the namespace core mutates. -/
structure NamespaceTables where
  namespaces : BTreeMap String Namespace
  releasedHandles : BTreeMap String ReleasedHandle
  namespaceGrants : BTreeMap String (BTreeMap String NamespaceGrant)
  namespaceGrantAudit : BTreeMap String (List NamespaceGrantAuditEvent)
  observedIdentities : BTreeMap Subject ObservedIdentity

def releaseReasonLabel : ReleaseReason → String
  | .ownerDeleted => "owner-deleted"
  | .adminRevoked => "admin-revoked"
  | .renamed _ => "renamed"

/-- Only the owning user may release a namespace; an organisation's needs an administrator. -/
def Owner.isReleasableBy (owner : Owner) (actor : Subject) : Bool :=
  match owner with
  | .user subject => actor = subject
  | .org _ => false

def validateNamespaceGrant (namespaces : BTreeMap String Namespace) (grant : NamespaceGrant) :
    Except Panic (Except LayerhouseError Unit) :=
  match validateHandle grant.namespaceHandle with
  | .error error => .ok (.error error)
  | .ok () =>
    if ¬ namespaces.contains grant.namespaceHandle then
      .ok (.error (.nameUnknown ("namespace " ++ Text.debugStr grant.namespaceHandle ++
        " is not currently claimed")))
    else
      match grant.grantee with
      | .group id => ensureKind id .group
      | .user id => ensureKind id .user
      | .everyone =>
        if grant.action ≠ .pull then
          .ok (.error (.denied "public namespace grants are pull-only"))
        else .ok (.ok ())

namespace NamespaceTables

/-- The generation a claim of an unclaimed handle receives: one, or the successor of the
generation its tombstone records, which only an administrator may take and which is refused
when it would not fit in 64 bits. -/
def nextGeneration (tables : NamespaceTables) (handle : String) (adminOverride : Bool) :
    Except LayerhouseError Nat :=
  match tables.releasedHandles[handle]? with
  | none => .ok 1
  | some tomb =>
    if ¬ adminOverride then
      .error (.denied ("handle " ++ Text.debugStr handle ++ " was previously released (" ++
        releaseReasonLabel tomb.releaseReason ++ "); reclaim requires admin override"))
    else if tomb.priorGeneration + 1 < 2 ^ 64 then .ok (tomb.priorGeneration + 1)
    else
      .error (.conflict ("handle " ++ Text.debugStr handle ++
        " cannot be reclaimed because its namespace generation is exhausted"))

/-- Move a live namespace to the tombstones. -/
def release (tables : NamespaceTables) (handle : String) (live : Namespace) (actor : Subject)
    (reason : ReleaseReason) (now : Nat) : NamespaceTables :=
  { tables with
    namespaces := tables.namespaces.erase handle
    namespaceGrants := tables.namespaceGrants.erase handle
    releasedHandles := tables.releasedHandles.insert handle
      { handle := handle
        priorOwner := live.owner
        priorGeneration := live.generation
        priorOwnerLabel := live.ownerLabel
        releasedAt := now
        releasedBy := actor
        releaseReason := reason } }

/-- Append an event to a handle's audit trail. -/
def audit (tables : NamespaceTables) (handle : String) (event : NamespaceGrantAuditEvent) :
    NamespaceTables :=
  { tables with
    namespaceGrantAudit := tables.namespaceGrantAudit.insert handle
      (tables.namespaceGrantAudit[handle]?.getD [] ++ [event]) }

/-- Store a grant that passed its checks: an existing grant keeps its creator, and the audit
trail records both versions. -/
def putGrant (tables : NamespaceTables) (grant : NamespaceGrant)
    (actorLabel reason auditId : String) : NamespaceTables × NamespaceGrant :=
  let grants := tables.namespaceGrants[grant.namespaceHandle]?.getD ∅
  let before := grants[grant.id]?
  let grant :=
    match before with
    | none => grant
    | some existing =>
      { grant with createdBy := existing.createdBy, createdAt := existing.createdAt }
  let stored := { tables with
    namespaceGrants := tables.namespaceGrants.insert grant.namespaceHandle
      (grants.insert grant.id grant) }
  (stored.audit grant.namespaceHandle
    { id := auditId
      namespaceHandle := grant.namespaceHandle
      grantId := some grant.id
      operation := if before.isSome then .update else .create
      actor := grant.updatedBy
      actorLabel := actorLabel
      reason := reason
      before := before
      after := some grant
      createdAt := grant.updatedAt }, grant)

/-- Remove a grant from a handle's grants, dropping the inner map when it is empty. -/
def removeGrant (tables : NamespaceTables) (handle grantId : String) : NamespaceTables :=
  match tables.namespaceGrants[handle]? with
  | none => tables
  | some grants =>
    { tables with
      namespaceGrants :=
        if (grants.erase grantId).isEmpty then tables.namespaceGrants.erase handle
        else tables.namespaceGrants.insert handle (grants.erase grantId) }

end NamespaceTables

def applyNamespaceCore (tables : NamespaceTables) (hasContent : String → Bool) :
    NamespaceRequest → Except Panic (NamespaceTables × Except LayerhouseError NamespaceResponse)
  | .claim handle owner ownerLabel _ adminOverride now =>
    .ok <|
      match validateHandle handle with
      | .error error => (tables, .error error)
      | .ok () =>
        if isHandleReserved handle then
          (tables, .error (.denied ("handle " ++ Text.debugStr handle ++
            " is reserved by the system and cannot be claimed")))
        else
          match tables.namespaces[handle]? with
          | some live =>
            let ownerKind :=
              match live.owner with
              | .user _ => "user"
              | .org _ => "org"
            (tables, .error (.conflict ("handle " ++ Text.debugStr handle ++
              " is already claimed by a " ++ ownerKind)))
          | none =>
            match tables.nextGeneration handle adminOverride with
            | .error error => (tables, .error error)
            | .ok generation =>
              ({ tables with
                releasedHandles := tables.releasedHandles.erase handle
                namespaces := tables.namespaces.insert handle
                  { handle := handle
                    generation := generation
                    owner := owner
                    ownerLabel := ownerLabel
                    createdAt := now } }, .ok .ok)
  | .delete handle actor reason now =>
    .ok <|
      match tables.namespaces[handle]? with
      | none =>
        (tables, .error (.nameUnknown ("handle " ++ Text.debugStr handle ++
          " is not currently claimed")))
      | some live =>
        if ¬ live.owner.isReleasableBy actor then
          (tables, .error (.denied ("handle " ++ Text.debugStr handle ++
            " is not owned by the caller")))
        else if hasContent handle then
          (tables, .error (.conflict ("handle " ++ Text.debugStr handle ++
            " still owns repositories or manifests; delete them before releasing")))
        else (tables.release handle live actor reason now, .ok .ok)
  | .adminRevoke handle actor now =>
    .ok <|
      if hasContent handle then
        (tables, .error (.conflict ("handle " ++ Text.debugStr handle ++
          " still owns repositories or manifests; delete them before revoking")))
      else
        match tables.namespaces[handle]? with
        | none =>
          (tables, .error (.nameUnknown ("handle " ++ Text.debugStr handle ++
            " is not currently claimed")))
        | some live => (tables.release handle live actor .adminRevoked now, .ok .ok)
  | .putGrant grant actorLabel reason auditId =>
    match validateNamespaceGrant tables.namespaces grant with
    | .error panic => .error panic
    | .ok (.error error) => .ok (tables, .error error)
    | .ok (.ok ()) =>
      let (stored, grant) := tables.putGrant grant actorLabel reason auditId
      .ok (stored, .ok (.grant grant))
  | .deleteGrant handle grantId actor actorLabel reason now auditId =>
    .ok <|
      match validateHandle handle with
      | .error error => (tables, .error error)
      | .ok () =>
        if ¬ tables.namespaces.contains handle then
          (tables, .error (.nameUnknown ("namespace " ++ Text.debugStr handle ++
            " is not currently claimed")))
        else
          let removed := tables.removeGrant handle grantId
          match tables.namespaceGrants[handle]?.bind (·[grantId]?) with
          | none => (removed, .ok (.bool false))
          | some before =>
            (removed.audit handle
              { id := auditId
                namespaceHandle := handle
                grantId := some grantId
                operation := .delete
                actor := actor
                actorLabel := actorLabel
                reason := reason
                before := some before
                after := none
                createdAt := now }, .ok (.bool true))
  | .putObservedIdentity identity =>
    .ok ({ tables with
      observedIdentities := tables.observedIdentities.insert identity.subject identity }, .ok .ok)

/-- Some key of the map begins with the given text. -/
def anyKeyWithPrefix {Value : Type} (map : BTreeMap String Value) (lead : String) : Bool :=
  map.keys.any fun key => (Text.stripPrefix lead.toList key.toList).isSome

namespace StateMachineData

def namespaceTables (data : StateMachineData) : NamespaceTables where
  namespaces := data.namespaces
  releasedHandles := data.releasedHandles
  namespaceGrants := data.namespaceGrants
  namespaceGrantAudit := data.namespaceGrantAudit
  observedIdentities := data.observedIdentities

def withNamespaceTables (data : StateMachineData) (tables : NamespaceTables) : StateMachineData :=
  { data with
    namespaces := tables.namespaces
    releasedHandles := tables.releasedHandles
    namespaceGrants := tables.namespaceGrants
    namespaceGrantAudit := tables.namespaceGrantAudit
    observedIdentities := tables.observedIdentities }

/-- The `has_content` closure: content still lives under the handle. -/
def hasContent (data : StateMachineData) (handle : String) : Bool :=
  anyKeyWithPrefix data.manifests (handle ++ "/") || anyKeyWithPrefix data.tags (handle ++ "/") ||
    anyKeyWithPrefix data.repositories (handle ++ "/")

end StateMachineData

def applyNamespace (data : StateMachineData) (request : NamespaceRequest) :
    Except Panic (StateMachineData × Except LayerhouseError NamespaceResponse) :=
  match applyNamespaceCore data.namespaceTables data.hasContent request with
  | .error panic => .error panic
  | .ok (tables, answer) => .ok (data.withNamespaceTables tables, answer)

end Layerhouse
