/-
This file is the metadata records of `store/metadata/types.rs` that the
replicated state holds, and the small functions over them that its transitions
call. Records keep the source's fields. Times and sizes are 64-bit values in the
source; the only arithmetic on a stored one that can overflow, the successor of
a namespace generation, is checked where it is computed.
-/

import Layerhouse.Oci.Manifest
import Layerhouse.Auth.Permissions
import Layerhouse.Auth.Principal

namespace Layerhouse

/-! ### Manifests -/

structure ManifestEntry where
  digest : Digest
  contentType : String
  body : List UInt8
  referencedBlobs : List Digest
  subject : Option Digest
  artifactType : Option String
  annotations : Option Value
  storedSizeBytes : Nat
  manifestSizeBytes : Nat
  createdAt : Nat
  lastModified : Nat
  configSummary : Option Value

/-- The blobs an entry refers to, as the strings they are counted under. -/
def ManifestEntry.blobKeys (entry : ManifestEntry) : List String :=
  entry.referencedBlobs.map Digest.toStr

/-- `sort_by_key` on the printed form (a stable sort) and then `dedup_by` on it. -/
def sortDedupDigests (digests : List Digest) : List Digest :=
  (digests.insertionSort fun first second => first.toStr ≤ second.toStr).destutter
    fun first second => first.toStr ≠ second.toStr

/-- The entry of a pushed manifest, made at the time `now`. -/
def ManifestEntry.fromParsedJson (sha256 : List UInt8 → Vector UInt8 32) (now : Nat)
    (parsed : Value) (contentType : String) (body : List UInt8)
    (referencedBlobs : List Digest) : ManifestEntry where
  digest := Digest.sha256 sha256 body
  contentType := contentType
  body := body
  referencedBlobs := referencedBlobs
  subject := extractSubjectDigest parsed
  artifactType := extractArtifactType parsed
  annotations := extractAnnotations parsed
  storedSizeBytes := Layerhouse.storedSizeBytes parsed
  manifestSizeBytes := body.length
  createdAt := now
  lastModified := now
  configSummary := extractConfigSummary parsed

/-! ### Namespaces -/

structure OrgId where
  text : String
deriving DecidableEq

inductive Owner where
  | user (subject : Subject)
  | org (id : OrgId)
deriving DecidableEq

/-- A claimed handle. The pair of handle and generation is the ownership epoch. -/
structure Namespace where
  handle : String
  generation : Nat
  owner : Owner
  ownerLabel : String
  createdAt : Nat
deriving DecidableEq

structure NamespaceEpoch where
  handle : String
  generation : Nat
deriving DecidableEq

def NamespaceEpoch.fromNamespace (live : Namespace) : NamespaceEpoch :=
  ⟨live.handle, live.generation⟩

inductive ReleaseReason where
  | ownerDeleted
  | adminRevoked
  | renamed (newHandle : String)
deriving DecidableEq

/-- The tombstone of a released handle. -/
structure ReleasedHandle where
  handle : String
  priorOwner : Owner
  priorGeneration : Nat
  priorOwnerLabel : String
  releasedAt : Nat
  releasedBy : Subject
  releaseReason : ReleaseReason
deriving DecidableEq

inductive NamespaceGrantGrantee where
  | group (id : ProviderQualifiedId)
  | user (id : ProviderQualifiedId)
  | everyone
deriving DecidableEq

structure NamespaceGrant where
  id : String
  namespaceHandle : String
  grantee : NamespaceGrantGrantee
  action : OciAction
  label : String
  createdBy : Subject
  createdAt : Nat
  updatedBy : Subject
  updatedAt : Nat
deriving DecidableEq

inductive NamespaceGrantAuditOperation where
  | create
  | update
  | delete
deriving DecidableEq

structure NamespaceGrantAuditEvent where
  id : String
  namespaceHandle : String
  grantId : Option String
  operation : NamespaceGrantAuditOperation
  actor : Subject
  actorLabel : String
  reason : String
  before : Option NamespaceGrant
  after : Option NamespaceGrant
  createdAt : Nat
deriving DecidableEq

structure ObservedIdentity where
  subject : Subject
  principal : ProviderQualifiedId
  username : Option String
  displayName : Option String
  email : Option String
  groups : List String
  groupIds : List ProviderQualifiedId
  lastSeenAt : Nat
deriving DecidableEq

/-! ### Repositories, tokens and policies -/

inductive Visibility where
  | privateAccess
  | publicPull
deriving DecidableEq

structure Repository where
  name : String
  description : String
  createdBy : Option Subject
  visibility : Visibility
  createdAt : Nat
deriving DecidableEq

structure PersonalAccessToken where
  id : String
  subject : String
  username : Option String
  name : String
  tokenHash : String
  tokenPrefix : String
  scopes : List String
  namespaceEpochs : List NamespaceEpoch
  createdAt : Nat
  lastUsedAt : Option Nat
  expiresAt : Option Nat
deriving DecidableEq

inductive PolicySource where
  | builtin
  | config
  | raft
deriving DecidableEq

structure PolicySet where
  id : String
  name : String
  source : PolicySource
  cedarText : String
  enabled : Bool
  createdBy : Subject
  updatedBy : Subject
  createdAt : Nat
  updatedAt : Nat
deriving DecidableEq

/-! ### Mirror rules and proxy caches -/

inductive MirrorDirection where
  | pull
  | push
deriving DecidableEq

inductive MirrorStrategy where
  | all
  | latest (count : UInt32)
  | pattern (pattern : String)
deriving DecidableEq

inductive OutboundProxyProtocol where
  | none
  | http
  | https
  | socks4
  | socks5
deriving DecidableEq

structure OutboundProxy where
  protocol : OutboundProxyProtocol
  url : Option String
  username : Option String
  password : Option String
deriving DecidableEq

structure MirrorRule where
  id : String
  direction : MirrorDirection
  localPrefix : String
  upstreamRegistry : String
  upstreamPrefix : Option String
  schedule : Option String
  strategy : MirrorStrategy
  plainHttp : Bool
  insecureTls : Bool
  outboundProxy : OutboundProxy
  username : Option String
  password : Option String
  createdAt : Nat
deriving DecidableEq

inductive WarmSortBy where
  | created
  | pushed
  | pulled
deriving DecidableEq

inductive WarmFilter where
  | none
  | all
  | latest (count : UInt32) (sortBy : WarmSortBy)
  | pattern (pattern : String)
deriving DecidableEq

structure ProxyCache where
  id : String
  localPrefix : String
  upstreamRegistry : String
  upstreamPrefix : Option String
  warmFilters : List WarmFilter
  warmSchedule : Option String
  plainHttp : Bool
  insecureTls : Bool
  outboundProxy : OutboundProxy
  username : Option String
  password : Option String
  createdAt : Nat
deriving DecidableEq

structure WarmImage where
  id : String
  image : String
  tags : List String
  intervalSecs : Nat
deriving DecidableEq

structure ProxyCacheTagValidation where
  cacheId : String
  repository : String
  tag : String
  upstreamDigest : String
  lastValidatedAt : Nat
deriving DecidableEq

/-- Validations by cache, repository and tag. -/
abbrev ProxyCacheTagValidations :=
  BTreeMap String (BTreeMap String (BTreeMap String ProxyCacheTagValidation))

def putProxyCacheTagValidation (validations : ProxyCacheTagValidations)
    (validation : ProxyCacheTagValidation) : ProxyCacheTagValidations :=
  let repos := validations[validation.cacheId]?.getD ∅
  let tags := repos[validation.repository]?.getD ∅
  validations.insert validation.cacheId
    (repos.insert validation.repository (tags.insert validation.tag validation))

def clearProxyCacheTagValidationsForCache (validations : ProxyCacheTagValidations)
    (cacheId : String) : ProxyCacheTagValidations :=
  validations.erase cacheId

/-- The `retain` that empties a repository's validations: a cache left empty is dropped. -/
def clearProxyCacheTagValidationsForRepository (validations : ProxyCacheTagValidations)
    (repository : String) : ProxyCacheTagValidations :=
  BTreeMap.filterMap (fun _ repos =>
    let repos := repos.erase repository
    if repos.isEmpty then none else some repos) validations

/-- The `retain` that removes one tag's validations, a repository or a cache left empty
being dropped. -/
def clearProxyCacheTagValidationsForTag (validations : ProxyCacheTagValidations)
    (repository tag : String) : ProxyCacheTagValidations :=
  BTreeMap.filterMap (fun _ repos =>
    let repos :=
      match repos[repository]? with
      | none => repos
      | some tags =>
        if (tags.erase tag).isEmpty then repos.erase repository
        else repos.insert repository (tags.erase tag)
    if repos.isEmpty then none else some repos) validations

/-! ### Sync jobs -/

inductive SyncJobKind where
  | legacyWarm
  | mirror
  | proxyCache
deriving DecidableEq

inductive SyncJobStatus where
  | idle
  | running
deriving DecidableEq

structure SyncJob where
  id : String
  kind : SyncJobKind
  ruleId : Option String
  ruleName : Option String
  image : String
  tags : List String
  intervalSecs : Nat
  status : SyncJobStatus
  claimedBy : Option String
  claimedAt : Option Nat
  lastRunAt : Option Nat
  nextRunAt : Nat
  lastError : Option String
deriving DecidableEq

inductive SyncRunStatus where
  | running
  | succeeded
  | partialFailure
  | failed
deriving DecidableEq

inductive SyncRunEventKind where
  | info
  | success
  | warning
  | error
deriving DecidableEq

structure SyncRunEvent where
  occurredAt : Nat
  kind : SyncRunEventKind
  tag : Option String
  message : String
deriving DecidableEq

structure SyncJobRun where
  id : String
  jobId : String
  nodeId : String
  startedAt : Nat
  finishedAt : Option Nat
  status : SyncRunStatus
  phase : String
  totalTags : Nat
  completedTags : Nat
  currentTag : Option String
  updatedAt : Nat
  recentEvents : List SyncRunEvent
  tagsSynced : List String
  tagsFailed : List (String × String)
deriving DecidableEq

def mirrorStrategyLabels : MirrorStrategy → List String
  | .all => ["all"]
  | .latest count => ["latest " ++ toString count.toNat]
  | .pattern pattern => [pattern]

def warmFilterLabels (filters : List WarmFilter) : List String :=
  filters.filterMap fun
    | .none => none
    | .all => some "all"
    | .latest count _ => some ("latest " ++ toString count.toNat)
    | .pattern pattern => some pattern

def mirrorRuleJob (rule : MirrorRule) (id : String) (now intervalSecs : Nat) : SyncJob where
  id := id
  kind := .mirror
  ruleId := some rule.id
  ruleName := some rule.id
  image := rule.localPrefix
  tags := mirrorStrategyLabels rule.strategy
  intervalSecs := intervalSecs
  status := .idle
  claimedBy := none
  claimedAt := none
  lastRunAt := none
  nextRunAt := now
  lastError := none

def proxyCacheWarmJob (cache : ProxyCache) (now : Nat) : SyncJob where
  id := cache.id ++ "-warm-" ++ toString now
  kind := .proxyCache
  ruleId := some cache.id
  ruleName := some cache.id
  image := cache.localPrefix
  tags := warmFilterLabels cache.warmFilters
  intervalSecs := 0
  status := .idle
  claimedBy := none
  claimedAt := none
  lastRunAt := none
  nextRunAt := now
  lastError := none

/-- A job of the rule that is running, or a one-shot one that is due, blocks a trigger. -/
def syncJobBlocksTrigger (job : SyncJob) (kind : SyncJobKind) (ruleId : String) (now : Nat) :
    Bool :=
  job.kind = kind ∧ job.ruleId = some ruleId ∧
    (job.status = .running ∨ (job.intervalSecs = 0 ∧ job.nextRunAt ≤ now))

/-! ### Answers -/

structure DeleteCounts where
  deletedManifests : Nat
  deletedTags : Nat
deriving DecidableEq

structure BlobDeleteStatus where
  digest : String
  referenced : Bool
  refCount : Nat
deriving DecidableEq

end Layerhouse
