/-
This file is the data of the replicated state machine of `raft/state_machine.rs`,
the reference counts it keeps, and the check every write to a namespace makes
first. The application of the requests is in the modules after it, one for each
large domain.

An application returns the data after the call together with its answer, also
when the answer is an error, so that what an error leaves behind is part of the
model. Four requests read the local clock while they are applied; each reads it
at most once, and the reading is the argument `now`. A failed `expect` is a
`Panic` and leaves no data. The functions of other packages (the JSON parser,
SHA-256 and the Cedar policy checker) are the fields of `Externals`.
-/

import Layerhouse.Store.Handle
import Layerhouse.Raft.Request

namespace Layerhouse

/-! ### The data -/

structure LeaderId where
  term : Nat
  nodeId : Nat
deriving DecidableEq

structure LogId where
  leaderId : LeaderId
  index : Nat
deriving DecidableEq

structure Membership where
  configs : List (List Nat)
  nodes : BTreeMap Nat String
deriving DecidableEq

structure StoredMembership where
  logId : Option LogId
  membership : Membership
deriving DecidableEq

structure StateMachineData where
  lastAppliedLog : Option LogId
  lastMembership : StoredMembership
  manifests : BTreeMap String (BTreeMap String ManifestEntry)
  tags : BTreeMap String (BTreeMap String String)
  blobRefCounts : BTreeMap String Nat
  blobDeleteRequests : BTreeMap String Nat
  mirrorRules : BTreeMap String MirrorRule
  proxyCaches : BTreeMap String ProxyCache
  proxyCacheTagValidations : ProxyCacheTagValidations
  warmImages : BTreeMap String WarmImage
  syncJobs : BTreeMap String SyncJob
  syncJobRuns : BTreeMap String (List SyncJobRun)
  personalAccessTokens : BTreeMap String PersonalAccessToken
  repositories : BTreeMap String Repository
  policySets : BTreeMap String PolicySet
  namespaces : BTreeMap String Namespace
  releasedHandles : BTreeMap String ReleasedHandle
  namespaceGrants : BTreeMap String (BTreeMap String NamespaceGrant)
  observedIdentities : BTreeMap Subject ObservedIdentity
  namespaceGrantAudit : BTreeMap String (List NamespaceGrantAuditEvent)

/-- `StateMachineData::default()`, the state a new cluster starts from. -/
def StateMachineData.empty : StateMachineData where
  lastAppliedLog := none
  lastMembership := ⟨none, ⟨[], ∅⟩⟩
  manifests := ∅
  tags := ∅
  blobRefCounts := ∅
  blobDeleteRequests := ∅
  mirrorRules := ∅
  proxyCaches := ∅
  proxyCacheTagValidations := ∅
  warmImages := ∅
  syncJobs := ∅
  syncJobRuns := ∅
  personalAccessTokens := ∅
  repositories := ∅
  policySets := ∅
  namespaces := ∅
  releasedHandles := ∅
  namespaceGrants := ∅
  observedIdentities := ∅
  namespaceGrantAudit := ∅

/-- The functions of other packages that the application of a request calls. -/
structure Externals where
  fromSlice : List UInt8 → Option Value
  sha256 : List UInt8 → Vector UInt8 32
  validatePolicyText : String → Except String Unit

namespace StateMachineData

/-! ### Blob reference counts -/

def rebuildBlobRefCounts (data : StateMachineData) : StateMachineData :=
  { data with
    blobRefCounts := data.manifests.toList.foldl (fun counts repo =>
      repo.2.toList.foldl (fun counts entry => entry.2.blobKeys.foldl BTreeMap.increment counts)
        counts) ∅ }

def incrementBlobRefs (data : StateMachineData) (entry : ManifestEntry) : StateMachineData :=
  { data with blobRefCounts := entry.blobKeys.foldl BTreeMap.increment data.blobRefCounts }

def decrementBlobRefs (data : StateMachineData) (entry : ManifestEntry) : StateMachineData :=
  { data with blobRefCounts := entry.blobKeys.foldl BTreeMap.decrement data.blobRefCounts }

def blobRefCountStr (data : StateMachineData) (digest : String) : Nat :=
  data.blobRefCounts[digest]?.getD 0

/-! ### Reads that applications make -/

/-- A digest reference is looked up directly, any other one through the repository's tags. -/
def getManifest (data : StateMachineData) (name reference : String) : Option ManifestEntry :=
  if (Text.stripPrefix "sha256:".toList reference.toList).isSome ∨
      (Text.stripPrefix "sha512:".toList reference.toList).isSome then
    data.manifests[name]?.bind (·[reference]?)
  else
    match data.tags[name]?.bind (·[reference]?) with
    | none => none
    | some digest => data.manifests[name]?.bind (·[digest]?)

end StateMachineData

/-- The apply-time precondition of every write to a namespace: the request carries the epoch
it was authorized against, and that epoch is still the live one. -/
def requireExpectedNamespace (data : StateMachineData) (repository : String)
    (expected : Option NamespaceEpoch) : Except LayerhouseError Unit :=
  match handleOf repository with
  | .error error => .error error
  | .ok handle =>
    if isHandleReserved handle then .ok ()
    else
      match expected with
      | none =>
        .error (.denied ("namespace " ++ Text.debugStr handle ++
          " was not live when request was authorized"))
      | some expected =>
        if expected.handle ≠ handle then
          .error (.nameInvalid ("expected namespace " ++ Text.debugStr expected.handle ++
            " does not match repository " ++ Text.debugStr repository))
        else
          match data.namespaces[handle]? with
          | none =>
            .error (.nameUnknown ("namespace " ++ Text.debugStr handle ++
              " does not exist (referenced by " ++ Text.debugStr repository ++ ")"))
          | some current =>
            if current.generation ≠ expected.generation then
              .error (.conflict ("namespace " ++ Text.debugStr handle ++
                " changed generation from " ++ toString expected.generation ++ " to " ++
                toString current.generation))
            else .ok ()

/-- A call that ends early when a check fails, with the data it was given. -/
def afterCheck {Answer : Type} (data : StateMachineData) (check : Except LayerhouseError Unit)
    (next : StateMachineData × Except LayerhouseError Answer) :
    StateMachineData × Except LayerhouseError Answer :=
  match check with
  | .error error => (data, .error error)
  | .ok () => next

end Layerhouse
