/-
This file is the requests that are written to the replicated log and the
responses their application answers: `raft/mod.rs`. There is one request type
and one response type for each domain, and an outer wrapper for each; the error
responses are shared by all domains.
-/

import Layerhouse.Store.Types

namespace Layerhouse

/-- The fields of a `PutManifest` request. -/
structure PutManifest where
  name : String
  expectedNamespace : Option NamespaceEpoch
  reference : String
  requireReferenceAbsent : Bool
  digest : String
  contentType : String
  body : List UInt8
  subject : Option String
  artifactType : Option String
  annotations : Option Value
  storedSizeBytes : Nat
  manifestSizeBytes : Nat
  createdAt : Nat
  lastModified : Nat
  configSummary : Option Value
  referencedBlobs : List String

inductive ManifestRequest where
  | putManifest (put : PutManifest)
  | deleteManifest (name : String) (expectedNamespace : Option NamespaceEpoch) (digest : String)
  | deleteTag (name : String) (expectedNamespace : Option NamespaceEpoch) (digest tag : String)
  | deleteRepository (name : String) (expectedNamespace : Option NamespaceEpoch)
  | deleteManifests (name : String) (expectedNamespace : Option NamespaceEpoch)
      (digests : List String)
  | mountBlob (sourceRepo destRepo : String) (expectedNamespace : Option NamespaceEpoch)
      (digest : String)
  | recordBlobDelete (digest : String) (requestedAt : Nat)
  | clearBlobDelete (digest : String)

inductive ManifestResponse where
  | ok
  | bool (value : Bool)
  | deleteCounts (counts : DeleteCounts)
  | blobDeleteStatus (status : BlobDeleteStatus)
deriving DecidableEq

inductive MirrorConfigRequest where
  | putMirrorRule (rule : MirrorRule)
  | deleteMirrorRule (id : String)
  | triggerMirrorRule (id : String)
  | putProxyCache (cache : ProxyCache)
  | deleteProxyCache (id : String)
  | triggerProxyCacheWarm (id : String)
  | putProxyCacheTagValidation (validation : ProxyCacheTagValidation)
  | putWarmImage (image : WarmImage)
  | deleteWarmImage (id : String)
deriving DecidableEq

inductive MirrorConfigResponse where
  | ok
  | bool (value : Bool)
  | syncJob (job : Option SyncJob)
deriving DecidableEq

inductive JobRequest where
  | putSyncJob (job : SyncJob)
  | deleteSyncJob (id : String)
  | claimSyncJob (id nodeId : String)
  | triggerSyncJob (id : String)
  | putSyncJobRun (run : SyncJobRun)
deriving DecidableEq

inductive JobResponse where
  | ok
  | bool (value : Bool)
deriving DecidableEq

inductive TokenRequest where
  | putPersonalAccessToken (token : PersonalAccessToken)
  | deletePersonalAccessToken (id subject : String)
deriving DecidableEq

inductive TokenResponse where
  | ok
  | bool (value : Bool)
deriving DecidableEq

inductive PolicyRequest where
  | putPolicySet (policy : PolicySet)
  | deletePolicySet (id : String)
deriving DecidableEq

inductive PolicyResponse where
  | ok
  | bool (value : Bool)
deriving DecidableEq

inductive RepositoryRequest where
  | putRepository (repository : Repository) (expectedNamespace : Option NamespaceEpoch)
  | deleteRepository (name : String) (expectedNamespace : Option NamespaceEpoch)
deriving DecidableEq

inductive RepositoryResponse where
  | ok
  | bool (value : Bool)
deriving DecidableEq

/-- The `now` of these requests is read by the leader before the request is logged. -/
inductive NamespaceRequest where
  | claim (handle : String) (owner : Owner) (ownerLabel : String) (actor : Subject)
      (adminOverride : Bool) (now : Nat)
  | delete (handle : String) (actor : Subject) (reason : ReleaseReason) (now : Nat)
  | adminRevoke (handle : String) (actor : Subject) (now : Nat)
  | putGrant (grant : NamespaceGrant) (actorLabel reason auditId : String)
  | deleteGrant (handle grantId : String) (actor : Subject) (actorLabel reason : String)
      (now : Nat) (auditId : String)
  | putObservedIdentity (identity : ObservedIdentity)
deriving DecidableEq

inductive NamespaceResponse where
  | ok
  | grant (grant : NamespaceGrant)
  | bool (value : Bool)
deriving DecidableEq

inductive Request where
  | manifest (request : ManifestRequest)
  | mirrorConfig (request : MirrorConfigRequest)
  | job (request : JobRequest)
  | token (request : TokenRequest)
  | policy (request : PolicyRequest)
  | repository (request : RepositoryRequest)
  | namespaces (request : NamespaceRequest)

inductive Response where
  | manifest (response : ManifestResponse)
  | mirrorConfig (response : MirrorConfigResponse)
  | job (response : JobResponse)
  | token (response : TokenResponse)
  | policy (response : PolicyResponse)
  | repository (response : RepositoryResponse)
  | namespaces (response : NamespaceResponse)
  | nameUnknown (message : String)
  | denied (message : String)
  | conflict (message : String)
  | nameInvalid (message : String)
  | internalError (message : String)
deriving DecidableEq

end Layerhouse
