/-
This file is the rest of `raft/state_machine.rs`: the mirror, job, token, policy
and repository domains, the dispatch of a request to its domain, the loop that
applies committed log entries, and the snapshots. What the snapshot functions use
of other packages (the JSON coding of the data and the printed form of a leader
id) are the fields of `SnapshotCodec`.
-/

import Layerhouse.Raft.Manifests
import Layerhouse.Raft.Namespaces

namespace Layerhouse

/-! ### Mirror configuration and jobs -/

/-- Some job of the given kind and rule blocks a trigger at this time. -/
def triggerBlocked (data : StateMachineData) (kind : SyncJobKind) (id : String) (now : Nat) :
    Bool :=
  data.syncJobs.toList.any fun entry => syncJobBlocksTrigger entry.2 kind id now

def applyMirrorConfig (now : Nat) (data : StateMachineData) :
    MirrorConfigRequest → StateMachineData × MirrorConfigResponse
  | .putMirrorRule rule =>
    ({ data with mirrorRules := data.mirrorRules.insert rule.id rule }, .ok)
  | .deleteMirrorRule id => ({ data with mirrorRules := data.mirrorRules.erase id }, .ok)
  | .triggerMirrorRule id =>
    match data.mirrorRules[id]? with
    | none => (data, .syncJob none)
    | some rule =>
      if triggerBlocked data .mirror id now then (data, .bool false)
      else
        let job := mirrorRuleJob rule (id ++ "-" ++ toString now) now 0
        ({ data with syncJobs := data.syncJobs.insert job.id job }, .syncJob (some job))
  | .putProxyCache cache =>
    ({ data with
      proxyCacheTagValidations :=
        clearProxyCacheTagValidationsForCache data.proxyCacheTagValidations cache.id
      proxyCaches := data.proxyCaches.insert cache.id cache }, .ok)
  | .deleteProxyCache id =>
    ({ data with
      proxyCaches := data.proxyCaches.erase id
      proxyCacheTagValidations :=
        clearProxyCacheTagValidationsForCache data.proxyCacheTagValidations id }, .ok)
  | .triggerProxyCacheWarm id =>
    match data.proxyCaches[id]? with
    | none => (data, .syncJob none)
    | some cache =>
      if triggerBlocked data .proxyCache id now then (data, .bool false)
      else
        let job := proxyCacheWarmJob cache now
        ({ data with syncJobs := data.syncJobs.insert job.id job }, .syncJob (some job))
  | .putProxyCacheTagValidation validation =>
    ({ data with
      proxyCacheTagValidations :=
        putProxyCacheTagValidation data.proxyCacheTagValidations validation }, .ok)
  | .putWarmImage image =>
    ({ data with warmImages := data.warmImages.insert image.id image }, .ok)
  | .deleteWarmImage id => ({ data with warmImages := data.warmImages.erase id }, .ok)

/-- The recorded runs of a job after a new report: a known run is replaced in place, a new one
is appended and only the last fifty are kept. -/
def recordRun (runs : List SyncJobRun) (run : SyncJobRun) : List SyncJobRun :=
  match runs.findIdx? (·.id = run.id) with
  | some position => runs.set position run
  | none => (runs ++ [run]).drop ((runs ++ [run]).length - 50)

def applyJob (now : Nat) (data : StateMachineData) : JobRequest → StateMachineData × JobResponse
  | .putSyncJob job => ({ data with syncJobs := data.syncJobs.insert job.id job }, .ok)
  | .deleteSyncJob id =>
    ({ data with
      syncJobs := data.syncJobs.erase id
      syncJobRuns := data.syncJobRuns.erase id }, .ok)
  | .claimSyncJob id nodeId =>
    match data.syncJobs[id]? with
    | none => (data, .bool false)
    | some job =>
      if job.status ≠ .idle then (data, .bool false)
      else
        ({ data with
          syncJobs := data.syncJobs.insert id
            { job with status := .running, claimedBy := some nodeId, claimedAt := some now } },
          .bool true)
  | .triggerSyncJob id =>
    match data.syncJobs[id]? with
    | none => (data, .bool false)
    | some job =>
      if job.status = .running then (data, .bool false)
      else
        ({ data with
          syncJobs := data.syncJobs.insert id
            { job with
              status := .idle
              claimedBy := none
              claimedAt := none
              lastError := none
              nextRunAt := now } }, .bool true)
  | .putSyncJobRun run =>
    ({ data with
      syncJobRuns := data.syncJobRuns.insert run.jobId
        (recordRun (data.syncJobRuns[run.jobId]?.getD []) run) }, .ok)

/-! ### Tokens, policies and repositories -/

def applyToken (data : StateMachineData) : TokenRequest → StateMachineData × TokenResponse
  | .putPersonalAccessToken token =>
    ({ data with personalAccessTokens := data.personalAccessTokens.insert token.id token }, .ok)
  | .deletePersonalAccessToken id subject =>
    if data.personalAccessTokens[id]?.any (·.subject = subject) then
      ({ data with personalAccessTokens := data.personalAccessTokens.erase id }, .bool true)
    else (data, .bool false)

def validatePolicySet (externals : Externals) (policy : PolicySet) :
    Except LayerhouseError Unit :=
  if Text.trim policy.id.toList = [] then .error (.nameInvalid "policy id is required")
  else if Text.trim policy.name.toList = [] then .error (.nameInvalid "policy name is required")
  else if Text.trim policy.cedarText.toList = [] then
    .error (.nameInvalid "policy cedar_text is required")
  else
    match externals.validatePolicyText policy.cedarText with
    | .ok () => .ok ()
    | .error message => .error (.nameInvalid message)

def applyPolicy (externals : Externals) (data : StateMachineData) :
    PolicyRequest → StateMachineData × Except LayerhouseError PolicyResponse
  | .putPolicySet policy =>
    afterCheck data (validatePolicySet externals policy)
      ({ data with policySets := data.policySets.insert policy.id policy }, .ok .ok)
  | .deletePolicySet id =>
    ({ data with policySets := data.policySets.erase id },
      .ok (.bool (data.policySets.contains id)))

def applyRepository (data : StateMachineData) :
    RepositoryRequest → StateMachineData × Except LayerhouseError RepositoryResponse
  | .putRepository repository expected =>
    afterCheck data (requireExpectedNamespace data repository.name expected)
      ({ data with repositories := data.repositories.insert repository.name repository },
        .ok .ok)
  | .deleteRepository name expected =>
    afterCheck data (requireExpectedNamespace data name expected)
      ({ data with repositories := data.repositories.erase name },
        .ok (.bool (data.repositories.contains name)))

/-! ### Dispatch -/

def errorToResponse : LayerhouseError → Response
  | .nameUnknown message => .nameUnknown message
  | .denied message => .denied message
  | .conflict message => .conflict message
  | .nameInvalid message => .nameInvalid message
  | .blobUnknown message | .blobUploadInvalid message | .blobUploadUnknown message
  | .digestInvalid message | .manifestBlobUnknown message | .manifestInvalid message
  | .manifestUnknown message | .sizeInvalid message | .unsupported message
  | .tooManyRequests message | .s3 message | .serialization message | .upstream message
  | .notLeader message | .consensus message | .internal message => .internalError message
  | .unauthorized message _ _ _ => .internalError message
  | .io message => .internalError message

/-- The response to a domain's answer. -/
def toResponse {Answer : Type} (wrap : Answer → Response) :
    Except LayerhouseError Answer → Response
  | .ok answer => wrap answer
  | .error error => errorToResponse error

def applyRequest (externals : Externals) (now : Nat) (data : StateMachineData) :
    Request → Except Panic (StateMachineData × Response)
  | .manifest request =>
    let (next, answer) := applyManifest externals data request
    .ok (next, toResponse .manifest answer)
  | .mirrorConfig request =>
    let (next, answer) := applyMirrorConfig now data request
    .ok (next, .mirrorConfig answer)
  | .job request =>
    let (next, answer) := applyJob now data request
    .ok (next, .job answer)
  | .token request =>
    let (next, answer) := applyToken data request
    .ok (next, .token answer)
  | .policy request =>
    let (next, answer) := applyPolicy externals data request
    .ok (next, toResponse .policy answer)
  | .repository request =>
    let (next, answer) := applyRepository data request
    .ok (next, toResponse .repository answer)
  | .namespaces request =>
    match applyNamespace data request with
    | .error panic => .error panic
    | .ok (next, answer) => .ok (next, toResponse .namespaces answer)

/-! ### Log entries -/

inductive EntryPayload where
  | blank
  | membership (membership : Membership)
  | normal (request : Request)

structure Entry where
  logId : LogId
  payload : EntryPayload

/-- One turn of the loop that applies committed entries. -/
def applyEntry (externals : Externals) (now : Nat) (data : StateMachineData) (entry : Entry) :
    Except Panic (StateMachineData × Response) :=
  let data := { data with lastAppliedLog := some entry.logId }
  match entry.payload with
  | .blank => .ok (data, .manifest .ok)
  | .membership membership =>
    .ok ({ data with lastMembership := ⟨some entry.logId, membership⟩ }, .manifest .ok)
  | .normal request => applyRequest externals now data request

/-! ### Snapshots -/

def snapshotVersion : Nat := 1

structure SnapshotMeta where
  lastLogId : Option LogId
  lastMembership : StoredMembership
  snapshotId : String

/-- The entry a restored snapshot holds after the fields that older writers left at their
defaults are filled in. -/
def normalizeEntry (externals : Externals) (now : Nat) (entry : ManifestEntry) : ManifestEntry :=
  let refs :=
    if entry.referencedBlobs.isEmpty then
      match externals.fromSlice entry.body with
      | some value => extractReferencedDigests value
      | none => entry.referencedBlobs
    else entry.referencedBlobs
  let createdAt := if entry.createdAt = 0 then now else entry.createdAt
  { entry with
    referencedBlobs := sortDedupDigests refs
    manifestSizeBytes :=
      if entry.manifestSizeBytes = 0 then entry.body.length else entry.manifestSizeBytes
    storedSizeBytes :=
      if entry.storedSizeBytes = 0 then
        match externals.fromSlice entry.body with
        | some value => storedSizeBytes value
        | none => entry.storedSizeBytes
      else entry.storedSizeBytes
    createdAt := createdAt
    lastModified := if entry.lastModified = 0 then createdAt else entry.lastModified }

def StateMachineData.normalizeRestoredMetadata (externals : Externals) (now : Nat)
    (data : StateMachineData) : StateMachineData :=
  rebuildBlobRefCounts
    { data with
      manifests := BTreeMap.filterMap (fun _ repo =>
        some (BTreeMap.filterMap (fun _ entry => some (normalizeEntry externals now entry)) repo))
        data.manifests }

/-- The functions of other packages that snapshots are written and read with. -/
structure SnapshotCodec where
  toVec : StateMachineData → List UInt8
  fromSlice : List UInt8 → Option StateMachineData
  displayLeaderId : LeaderId → String

/-- Why a snapshot is refused. -/
inductive SnapshotError where
  | tooShort
  | unsupportedVersion (version : Nat)
  | malformed
deriving DecidableEq

/-- The 32-bit little-endian number the first four bytes spell. -/
def u32FromLeBytes (first second third fourth : UInt8) : Nat :=
  first.toNat + second.toNat * 2 ^ 8 + third.toNat * 2 ^ 16 + fourth.toNat * 2 ^ 24

/-- The decoded data of a snapshot: four version bytes and a payload. -/
def decodeSnapshot (codec : SnapshotCodec) : List UInt8 → Except SnapshotError StateMachineData
  | first :: second :: third :: fourth :: payload =>
    if u32FromLeBytes first second third fourth = snapshotVersion then
      match codec.fromSlice payload with
      | some data => .ok data
      | none => .error .malformed
    else .error (.unsupportedVersion (u32FromLeBytes first second third fourth))
  | _ => .error .tooShort

structure StateMachine where
  data : StateMachineData
  snapshot : Option (SnapshotMeta × List UInt8)

def installSnapshot (externals : Externals) (codec : SnapshotCodec) (now : Nat)
    (machine : StateMachine) (header : SnapshotMeta) (bytes : List UInt8) :
    StateMachine × Except SnapshotError Unit :=
  match decodeSnapshot codec bytes with
  | .error error => (machine, .error error)
  | .ok decoded =>
    let restored := decoded.normalizeRestoredMetadata externals now
    ({ data := { restored with
         lastAppliedLog := header.lastLogId
         lastMembership := header.lastMembership }
       snapshot := some (header, bytes) }, .ok ())

/-- The snapshot of the data a builder was made from, and its header. -/
def buildSnapshot (codec : SnapshotCodec) (data : StateMachineData) :
    SnapshotMeta × List UInt8 :=
  ({ lastLogId := data.lastAppliedLog
     lastMembership := data.lastMembership
     snapshotId :=
       match data.lastAppliedLog with
       | some id => codec.displayLeaderId id.leaderId ++ "-" ++ toString id.index
       | none => "empty" },
    [1, 0, 0, 0] ++ codec.toVec data)

end Layerhouse
