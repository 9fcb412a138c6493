/-
This file is the reads of blobs, `head_blob` and `get_blob` of `routes/blobs.rs`,
and the mount of a blob from another repository, `start_upload` of
`routes/uploads.rs`, behind the permission check of the middleware.

Blobs lie in one flat space of S3 under their digests. No record links a blob to a
repository: the name in the path is what the permission is checked on, and the
handler reads the blob by its digest alone. So an actor who can name a digest
learns whether any repository has brought that blob in, and can read it. The file
proves that this is all: two registries that differ only in manifests and blobs
of repositories that the actor may not pull answer alike, unless they differ on
the very digest that is asked for.

The registry has no mirror rules and no proxy caches, so a blob that is not stored
is not fetched. What S3 and the consensus layer do beside that, the new session's
id and the texts of the policies are the node's, the same for both registries.
-/

import Layerhouse.Auth.Policies
import Layerhouse.Raft.Membership
import Layerhouse.Routes.ReadBack
import Layerhouse.Store.S3

namespace Layerhouse

/-! ### Policies -/

/-- Cedar and the texts that `policy_for_request` puts together: the owner and the grants of the
namespace whose epoch the resource has, and the policy sets. -/
structure PolicyTexts where
  cedar : Cedar
  text : AuthzRequest → Option (Namespace × List NamespaceGrant) → List PolicySet →
    Except String String

/-- The namespace of the resource with its grants, if it still has the resource's epoch. -/
def ownerAndGrants (data : StateMachineData) (request : AuthzRequest) :
    Option (Namespace × List NamespaceGrant) :=
  request.resource.bind fun resource =>
    let epoch := resource.namespaceResource.epoch
    match data.namespaces[epoch.handle]? with
    | none => none
    | some live =>
      if NamespaceEpoch.fromNamespace live = epoch then
        some (live, (data.namespaceGrants[epoch.handle]?.getD ∅).toList.map (·.2))
      else none

def PolicyTexts.service (policies : PolicyTexts) : AuthService where
  cedar := policies.cedar
  policyForRequest := fun data request =>
    policies.text request (ownerAndGrants data request) (data.policySets.toList.map (·.2))

/-! ### Registries -/

/-- The metadata and the stored blobs, by their keys, of a registry that mirrors nothing. -/
structure LocalRegistry where
  data : StateMachineData
  blobs : BTreeMap String (List UInt8)
  noMirrorRules : data.mirrorRules = ∅
  noProxyCaches : data.proxyCaches = ∅

/-- What the handlers meet that is not in the registry's state. -/
structure BlobNode where
  policies : PolicyTexts
  externals : Externals
  /-- The failure of a `head_object` that does not say that the blob is missing. -/
  headError : Digest → Option SdkError
  /-- A read of the blob fails. -/
  getFails : Digest → Bool
  redirectEnabled : Bool
  presignedUrl : Digest → Except LayerhouseError String
  headerValue : String → Bool
  /-- The limit of uploads is not reached. -/
  permit : Bool
  sessionId : String
  startError : Option LayerhouseError
  writeError : ManifestRequest → Option LayerhouseError

structure BlobResponse where
  status : Nat
  headers : List (String × String)
  body : List UInt8
deriving DecidableEq

structure BlobLifecycleStatus where
  digest : String
  deleteRequested : Bool
  referenced : Bool
  refCount : Nat

def StateMachineData.blobLifecycleStatus (data : StateMachineData) (digest : Digest) :
    BlobLifecycleStatus where
  digest := digest.toStr
  deleteRequested := data.blobDeleteRequests[digest.toStr]?.isSome
  referenced := 0 < data.blobRefCountStr digest.toStr
  refCount := data.blobRefCountStr digest.toStr

def Digest.tryFrom (text : String) : Except LayerhouseError Digest :=
  match Digest.fromStrChecked text with
  | some digest => .ok digest
  | none => .error (.digestInvalid text)

/-! ### Reads -/

def parseRange (rangeValue : String) (totalSize : Nat) : Option (Nat × Nat) :=
  if totalSize = 0 then none
  else
    match Text.stripPrefix "bytes=".toList rangeValue.toList with
    | none => none
    | some rangeValue =>
      match Text.splitOnce '-' rangeValue with
      | none => none
      | some ([], endText) =>
        match parseU64 endText with
        | none => none
        | some suffixLength =>
          if suffixLength = 0 then none else some (totalSize - suffixLength, totalSize - 1)
      | some (startText, endText) =>
        match parseU64 startText,
          if endText = [] then some (totalSize - 1) else parseU64 endText with
        | some first, some last =>
          if last < first ∨ totalSize ≤ first then none
          else some (first, min last (totalSize - 1))
        | _, _ => none

section Handlers

variable (node : BlobNode) (registry : LocalRegistry)

/-- The size of the stored blob. -/
def statBlob (digest : Digest) : Except LayerhouseError Nat :=
  match node.headError digest with
  | some error => .error (.s3 error.toStr)
  | none =>
    match registry.blobs[digest.s3Key]? with
    | none => .error (.blobUnknown digest.toStr)
    | some bytes => .ok bytes.length

/-- The bytes of the stored blob. -/
def readBlob (digest : Digest) : Option (List UInt8) :=
  if node.getFails digest then none else registry.blobs[digest.s3Key]?

/-- Nothing is mirrored, so nothing is pulled. -/
def statOrPull (digest : Digest) (digestStr : String) : Except LayerhouseError Nat :=
  let lifecycle := registry.data.blobLifecycleStatus digest
  if lifecycle.deleteRequested ∧ ¬ lifecycle.referenced then .error (.blobUnknown digestStr)
  else
    match statBlob node registry digest with
    | .error (.blobUnknown _) => .error (.blobUnknown digestStr)
    | outcome => outcome

def headBlob (digestStr : String) : Except LayerhouseError BlobResponse := do
  let digest ← Digest.tryFrom digestStr
  let size ← statOrPull node registry digest digestStr
  return {
    status := 200
    headers := [("Content-Length", toString size), ("Docker-Content-Digest", digest.toStr),
      ("Content-Type", "application/octet-stream"), ("Accept-Ranges", "bytes")]
    body := [] }

def getBlobRange (digest : Digest) (rangeValue : String) : Except LayerhouseError BlobResponse := do
  let totalSize ← statOrPull node registry digest digest.toStr
  match parseRange rangeValue totalSize with
  | none => throw (.unsupported "invalid range")
  | some (first, last) =>
    match readBlob node registry digest with
    | none => throw (.blobUnknown digest.toStr)
    | some bytes =>
      let contentLength := last - first + 1
      let contentRange :=
        "bytes " ++ toString first ++ "-" ++ toString last ++ "/" ++ toString totalSize
      return {
        status := 206
        headers := [("Content-Type", "application/octet-stream"),
          ("Docker-Content-Digest", digest.toStr), ("Content-Length", toString contentLength),
          ("Content-Range", contentRange), ("Accept-Ranges", "bytes")]
        body := (bytes.drop first).take contentLength }

/-- The redirect to a signed address, which is made without asking S3. -/
def redirectBlob (digest : Digest) : Except LayerhouseError BlobResponse := do
  let location ← node.presignedUrl digest
  if ¬ node.headerValue location ∨ ¬ node.headerValue digest.toStr then
    throw (.serialization "failed to parse header value")
  return {
    status := 307
    headers := [("location", location), ("content-type", "application/octet-stream"),
      ("Docker-Content-Digest", digest.toStr), ("content-length", "0"),
      ("Accept-Ranges", "bytes")]
    body := [] }

def getBlob (digestStr : String) (range : Option String) :
    Except LayerhouseError BlobResponse := do
  let digest ← Digest.tryFrom digestStr
  match range with
  | some rangeValue => getBlobRange node registry digest rangeValue
  | none =>
    let size ← statOrPull node registry digest digestStr
    if node.redirectEnabled then redirectBlob node digest
    else
      match readBlob node registry digest with
      | none => throw (.blobUnknown digestStr)
      | some bytes =>
        return {
          status := 200
          headers := [("Content-Type", "application/octet-stream"),
            ("Docker-Content-Digest", digest.toStr), ("Content-Length", toString size),
            ("Accept-Ranges", "bytes")]
          body := bytes }

/-! ### Mounts -/

def startUploadSession (name : String) : Except LayerhouseError BlobResponse :=
  match node.startError with
  | some error => .error error
  | none => .ok {
      status := 202
      headers := [("Location", "/v2/" ++ name ++ "/blobs/uploads/" ++ node.sessionId),
        ("Docker-Upload-UUID", node.sessionId), ("Range", "0-0")]
      body := [] }

/-- A write through the consensus layer, which may fail before it applies. -/
def commitManifest (data : StateMachineData) (request : ManifestRequest) :
    Except LayerhouseError StateMachineData :=
  match node.writeError request with
  | some error => .error error
  | none =>
    match writeManifest node.externals data request with
    | (_, .error error) => .error error
    | (next, .ok _) => .ok next

/-- The mount of a stored blob: the write checks the destination, and forgets a request to delete
the blob. -/
def mountBlob (name source : String) (digest : Digest)
    (expectedNamespace : Option NamespaceEpoch) : Except LayerhouseError BlobResponse := do
  let mounted ← commitManifest node registry.data
    (.mountBlob source name expectedNamespace digest.toStr)
  let _ ← commitManifest node mounted (.clearBlobDelete digest.toStr)
  return {
    status := 201
    headers := [("Location", "/v2/" ++ name ++ "/blobs/" ++ digest.toStr),
      ("Docker-Content-Digest", digest.toStr)]
    body := [] }

/-- `start_upload` with the parameters `mount` and `from`. -/
def startMount (identity : AuthIdentity) (access : AuthorizedRepositoryAccess)
    (name mount source : String) : Except LayerhouseError BlobResponse :=
  if ¬ node.permit then .error (.tooManyRequests "upload limit reached")
  else
    match Digest.fromStrChecked mount with
    | none => .error (.digestInvalid mount)
    | some digest =>
      match statBlob node registry digest with
      | .error _ => startUploadSession node name
      | .ok _ =>
        match checkPermission node.policies.service registry.data identity source .pull with
        | .ok _ => mountBlob node registry name source digest access.expectedNamespace
        | .error (.denied _) => startUploadSession node name
        | .error error => .error error

end Handlers

/-! ### Requests -/

inductive BlobRequest where
  | head (name digest : String)
  | get (name digest : String) (range : Option String)
  | mount (name digest source : String)
deriving DecidableEq

namespace BlobRequest

def name : BlobRequest → String
  | head name _ | get name _ _ | mount name _ _ => name

/-- The action that the method of the request asks for. -/
def action : BlobRequest → OciAction
  | head _ _ | get _ _ _ => .pull
  | mount _ _ _ => .create

end BlobRequest

/-- A request of an authenticated actor: the check of the middleware, then the handler. -/
def respond (node : BlobNode) (identity : AuthIdentity) (registry : LocalRegistry)
    (request : BlobRequest) : Except LayerhouseError BlobResponse :=
  match checkPermission node.policies.service registry.data identity request.name
      request.action with
  | .error error => .error error
  | .ok access =>
    match request with
    | .head _ digest => headBlob node registry digest
    | .get _ digest range => getBlob node registry digest range
    | .mount name digest source => startMount node registry identity access name digest source

/-! ### What an actor may not see -/

/-- The metadata without manifests, tags and the bookkeeping of blobs and of the log. -/
def StateMachineData.settings (data : StateMachineData) : StateMachineData :=
  { data with
    lastAppliedLog := none
    manifests := ∅
    tags := ∅
    blobRefCounts := ∅
    blobDeleteRequests := ∅ }

/-- Some manifest of the repository refers to the blob. -/
def StateMachineData.Refers (data : StateMachineData) (name : String) (digest : Digest) : Prop :=
  ∃ (manifest : String) (entry : ManifestEntry),
    data.manifests[name]?.bind (·[manifest]?) = some entry ∧ digest.toStr ∈ entry.blobKeys

/-- The registries differ only in manifests and blobs of repositories that the actor may not
pull. -/
structure DiffersBeyond (policies : PolicyTexts) (identity : AuthIdentity)
    (first second : LocalRegistry) : Prop where
  settings : first.data.settings = second.data.settings
  manifests : ∀ name, Allows policies.service first.data identity name .pull →
    first.data.manifests[name]? = second.data.manifests[name]? ∧
      first.data.tags[name]? = second.data.tags[name]?
  blobs : ∀ name digest, Allows policies.service first.data identity name .pull →
    first.data.Refers name digest →
    first.blobs[digest.s3Key]? = second.blobs[digest.s3Key]? ∧
      first.data.blobDeleteRequests[digest.toStr]? = second.data.blobDeleteRequests[digest.toStr]?

/-- The blob is to be deleted and no manifest refers to it. -/
def LocalRegistry.hides (registry : LocalRegistry) (digest : Digest) : Bool :=
  let lifecycle := registry.data.blobLifecycleStatus digest
  lifecycle.deleteRequested ∧ ¬ lifecycle.referenced

/-- The registries have the same object for the digest, or none, and hide it alike. -/
structure AgreesOn (first second : LocalRegistry) (digest : Digest) : Prop where
  blob : first.blobs[digest.s3Key]? = second.blobs[digest.s3Key]?
  hidden : first.hides digest = second.hides digest

/-- The registries agree on what the request asks for. A mount asks whether the blob is stored,
unless the actor is denied the source. -/
def BlobRequest.Agrees (policies : PolicyTexts) (identity : AuthIdentity)
    (first second : LocalRegistry) : BlobRequest → Prop
  | head _ text | get _ text _ =>
    ∀ digest, Digest.fromStrChecked text = some digest → AgreesOn first second digest
  | mount _ text source =>
    (∀ digest, Digest.fromStrChecked text = some digest →
        first.blobs[digest.s3Key]?.isSome = second.blobs[digest.s3Key]?.isSome) ∨
      ∃ message, checkPermission policies.service first.data identity source .pull =
        .error (.denied message)

/-! ### What the handlers read -/

section Reads

variable {node : BlobNode} {identity : AuthIdentity} {first second : LocalRegistry}
  {digest : Digest} {text source : String}

/-- Permissions do not depend on manifests and blobs. -/
theorem checkPermission_of_settings {policies : PolicyTexts} {before after : StateMachineData}
    (same : before.settings = after.settings) (repository : String) (action : OciAction) :
    checkPermission policies.service before identity repository action =
      checkPermission policies.service after identity repository action := by
  show checkPermission policies.service before.settings identity repository action =
    checkPermission policies.service after.settings identity repository action
  rw [same]

theorem statBlob_of_agrees (blob : first.blobs[digest.s3Key]? = second.blobs[digest.s3Key]?) :
    statBlob node first digest = statBlob node second digest := by
  rw [statBlob, statBlob, blob]

theorem readBlob_of_agrees (blob : first.blobs[digest.s3Key]? = second.blobs[digest.s3Key]?) :
    readBlob node first digest = readBlob node second digest := by
  rw [readBlob, readBlob, blob]

theorem statOrPull_eq (node : BlobNode) (registry : LocalRegistry) (digest : Digest)
    (text : String) :
    statOrPull node registry digest text =
      if registry.hides digest then .error (.blobUnknown text)
      else
        match statBlob node registry digest with
        | .error (.blobUnknown _) => .error (.blobUnknown text)
        | outcome => outcome := by
  simp only [statOrPull, LocalRegistry.hides, decide_eq_true_eq]

theorem statOrPull_of_agrees (agrees : AgreesOn first second digest) (text : String) :
    statOrPull node first digest text = statOrPull node second digest text := by
  rw [statOrPull_eq, statOrPull_eq, agrees.hidden, statBlob_of_agrees agrees.blob]

theorem headBlob_of_agrees
    (agrees : ∀ digest, Digest.fromStrChecked text = some digest → AgreesOn first second digest) :
    headBlob node first text = headBlob node second text := by
  unfold headBlob Digest.tryFrom
  obtain unparsed | ⟨digest, parsed⟩ := Option.eq_none_or_eq_some (Digest.fromStrChecked text)
  · rw [unparsed]
    rfl
  · rw [parsed]
    show (statOrPull node first digest text >>= _) = statOrPull node second digest text >>= _
    rw [statOrPull_of_agrees (agrees digest parsed)]

theorem getBlobRange_of_agrees (agrees : AgreesOn first second digest) (rangeValue : String) :
    getBlobRange node first digest rangeValue = getBlobRange node second digest rangeValue := by
  unfold getBlobRange
  simp only [statOrPull_of_agrees agrees, readBlob_of_agrees agrees.blob]

theorem getBlob_of_agrees
    (agrees : ∀ digest, Digest.fromStrChecked text = some digest → AgreesOn first second digest)
    (range : Option String) : getBlob node first text range = getBlob node second text range := by
  unfold getBlob Digest.tryFrom
  obtain unparsed | ⟨digest, parsed⟩ := Option.eq_none_or_eq_some (Digest.fromStrChecked text)
  · rw [unparsed]
    rfl
  · have agreesOn := agrees digest parsed
    rw [parsed]
    obtain rfl | ⟨rangeValue, rfl⟩ := Option.eq_none_or_eq_some range
    · show (statOrPull node first digest text >>= _) = statOrPull node second digest text >>= _
      rw [statOrPull_of_agrees agreesOn, readBlob_of_agrees agreesOn.blob]
    · exact getBlobRange_of_agrees agreesOn rangeValue

/-- The answer to the write of a mount depends on the namespace of the destination only. -/
theorem mountBlob_of_settings (same : first.data.settings = second.data.settings)
    (name source : String) (digest : Digest) (expected : Option NamespaceEpoch) :
    mountBlob node first name source digest expected =
      mountBlob node second name source digest expected := by
  have checked : requireExpectedNamespace first.data name expected =
      requireExpectedNamespace second.data name expected := by
    show requireExpectedNamespace first.data.settings name expected =
      requireExpectedNamespace second.data.settings name expected
    rw [same]
  simp only [mountBlob, commitManifest, writeManifest, applyManifest, afterCheck, checked]
  cases node.writeError (.mountBlob source name expected digest.toStr) with
  | some error => rfl
  | none =>
    cases requireExpectedNamespace second.data name expected with
    | error error => cases error <;> rfl
    | ok => cases node.writeError (.clearBlobDelete digest.toStr) <;> rfl

/-- A mount asks first whether the blob is stored. -/
theorem startMount_of_stored (same : first.data.settings = second.data.settings)
    (stored : ∀ digest, Digest.fromStrChecked text = some digest →
      first.blobs[digest.s3Key]?.isSome = second.blobs[digest.s3Key]?.isSome)
    (access : AuthorizedRepositoryAccess) (name source : String) :
    startMount node first identity access name text source =
      startMount node second identity access name text source := by
  obtain unparsed | ⟨digest, parsed⟩ := Option.eq_none_or_eq_some (Digest.fromStrChecked text)
  · simp only [startMount, unparsed]
  · have present := stored digest parsed
    simp only [startMount, parsed, statBlob, checkPermission_of_settings same,
      mountBlob_of_settings same]
    obtain _ | error := node.headError digest
    · obtain absent | ⟨bytes, found⟩ := Option.eq_none_or_eq_some second.blobs[digest.s3Key]?
      · rw [absent] at present ⊢
        rw [Option.isSome_eq_false_iff.mp present |> Option.isNone_iff_eq_none.mp]
      · rw [found] at present ⊢
        obtain ⟨other, same⟩ := Option.isSome_iff_exists.mp present
        rw [same]
    · rfl

/-- An actor who is denied the source gets an upload session, stored or not. -/
theorem startMount_of_denied {message : String} (registry : LocalRegistry)
    (denied : checkPermission node.policies.service registry.data identity source .pull =
      .error (.denied message)) (access : AuthorizedRepositoryAccess) (name : String) :
    startMount node registry identity access name text source =
      if ¬ node.permit then .error (.tooManyRequests "upload limit reached")
      else
        match Digest.fromStrChecked text with
        | none => .error (.digestInvalid text)
        | some _ => startUploadSession node name := by
  simp only [startMount, denied]
  obtain _ | digest := Digest.fromStrChecked text
  · rfl
  · dsimp only
    cases statBlob node registry digest <;> rfl

end Reads

/-! ### Two registries -/

/-- For any two registries that differ only in manifests and blobs of repositories that the actor
may not pull, and any request of the actor: if they agree on the digest that is asked for, they
answer alike. -/
theorem blob_responses_agree (node : BlobNode) (identity : AuthIdentity)
    (first second : LocalRegistry) (request : BlobRequest)
    (differs : DiffersBeyond node.policies identity first second)
    (agrees : request.Agrees node.policies identity first second) :
    respond node identity first request = respond node identity second request := by
  have permission : ∀ repository action,
      checkPermission node.policies.service first.data identity repository action =
        checkPermission node.policies.service second.data identity repository action :=
    checkPermission_of_settings differs.settings
  rw [respond, respond, permission]
  obtain error | access := checkPermission node.policies.service second.data identity request.name
    request.action
  · rfl
  · cases request with
    | head name text => exact headBlob_of_agrees agrees
    | get name text range => exact getBlob_of_agrees agrees range
    | mount name text source =>
      obtain stored | ⟨message, denied⟩ := agrees
      · exact startMount_of_stored differs.settings stored access name source
      · show startMount node first identity access name text source =
          startMount node second identity access name text source
        rw [startMount_of_denied first denied,
          startMount_of_denied second ((permission source .pull).symm.trans denied)]

/-- The owner of a namespace is permitted everything in it, and nobody else anything. -/
def ownerPolicies : PolicyTexts where
  cedar := ⟨fun _ => .ok (), fun policy _ => .ok (if policy = "permit" then .allow else .deny)⟩
  text := fun request found _ =>
    let permits := found.any fun owned =>
      match owned.1.owner with
      | .user subject => request.actor.principal = ⟨"oidc:user:" ++ subject⟩
      | .org _ => false
    .ok (if permits then "permit" else "")

/-- A node on which nothing fails. -/
def sampleBlobNode : BlobNode where
  policies := ownerPolicies
  externals := sampleExternals
  headError := fun _ => none
  getFails := fun _ => false
  redirectEnabled := false
  presignedUrl := fun _ => .error (.s3 "presigning is not configured")
  headerValue := fun _ => true
  permit := true
  sessionId := "1b4e28ba-2fa1-41d2-883f-0016d3cca427"
  startError := none
  writeError := fun _ => none

/-- The digest of the byte one. -/
def sampleSecret : String :=
  "sha256:4bf5122f344554c53bde2ebb8cd2b7e3d1600ad631c385a5d7cce23c7785459a"

/-- Two users claim a namespace each. -/
def sampleTwoClaims : List (Nat × Request) :=
  [(0, sampleClaim "alice" "first" false), (0, sampleClaim "bob" "second" false)]

/-- Nothing is pushed. -/
def sampleBareRegistry : LocalRegistry where
  data := (run (requestStep sampleExternals) StateMachineData.empty sampleTwoClaims).getD .empty
  blobs := ∅
  noMirrorRules := rfl
  noProxyCaches := rfl

/-- The second user has pushed a blob and a manifest that refers to it. -/
def sampleSecretRegistry : LocalRegistry where
  data := (run (requestStep sampleExternals) StateMachineData.empty (sampleTwoClaims ++
    [(0, .manifest (.putManifest (samplePush "bob/secret" (some ⟨"bob", 1⟩) (sampleDigest 'a')
      sampleSecret)))])).getD .empty
  blobs := (∅ : BTreeMap String (List UInt8)).insert
    "blobs/sha256/4b/4bf5122f344554c53bde2ebb8cd2b7e3d1600ad631c385a5d7cce23c7785459a" [1]
  noMirrorRules := rfl
  noProxyCaches := rfl

/-- The second user's repository is the only one with content. -/
theorem content_sampleSecretRegistry {name : String} (other : name ≠ "bob/secret") :
    sampleSecretRegistry.data.manifests[name]? = none ∧
      sampleSecretRegistry.data.tags[name]? = none := by
  have manifests : sampleSecretRegistry.data.manifests.keys = ["bob/secret"] := by decide +kernel
  have tags : sampleSecretRegistry.data.tags.keys = ["bob/secret"] := by decide +kernel
  constructor
  · refine Option.eq_none_iff_forall_ne_some.mpr fun value found => other ?_
    exact List.mem_singleton.mp (manifests ▸ (BTreeMap.mem_keys _ name).mpr ⟨value, found⟩)
  · refine Option.eq_none_iff_forall_ne_some.mpr fun value found => other ?_
    exact List.mem_singleton.mp (tags ▸ (BTreeMap.mem_keys _ name).mpr ⟨value, found⟩)

theorem differsBeyond_sample :
    DiffersBeyond ownerPolicies (sampleSession "first") sampleSecretRegistry
      sampleBareRegistry := by
  have denied : ¬ Allows ownerPolicies.service sampleSecretRegistry.data (sampleSession "first")
      "bob/secret" .pull := by
    rintro ⟨access, allowed⟩
    have check : checkPermission ownerPolicies.service sampleSecretRegistry.data
      (sampleSession "first") "bob/secret" .pull =
        .error (.denied "access denied for repository bob/secret") := by decide +kernel
    rw [check] at allowed
    exact nomatch allowed
  have elsewhere : ∀ name, Allows ownerPolicies.service sampleSecretRegistry.data
      (sampleSession "first") name .pull → name ≠ "bob/secret" := by
    rintro name allowed rfl
    exact denied allowed
  constructor
  case settings => rfl
  case manifests =>
    intro name allowed
    obtain ⟨manifests, tags⟩ := content_sampleSecretRegistry (elsewhere name allowed)
    exact ⟨manifests, tags⟩
  case blobs =>
    rintro name digest allowed ⟨manifest, entry, found, _⟩
    obtain ⟨manifests, _⟩ := content_sampleSecretRegistry (elsewhere name allowed)
    rw [manifests] at found
    exact nomatch found

/-- A read of another blob, and a mount from the repository that the actor may not pull. -/
theorem blob_responses_agree_sample :
    respond sampleBlobNode (sampleSession "first") sampleSecretRegistry
        (.get "alice/app" (sampleDigest 'c') none) =
      respond sampleBlobNode (sampleSession "first") sampleBareRegistry
        (.get "alice/app" (sampleDigest 'c') none) ∧
    respond sampleBlobNode (sampleSession "first") sampleSecretRegistry
        (.mount "alice/app" sampleSecret "bob/secret") =
      respond sampleBlobNode (sampleSession "first") sampleBareRegistry
        (.mount "alice/app" sampleSecret "bob/secret") := by
  constructor
  · refine blob_responses_agree _ _ _ _ _ differsBeyond_sample fun digest parsed => ?_
    have same : Digest.fromStrChecked (sampleDigest 'c') =
        some ⟨"sha256", String.ofList (List.replicate 64 'c')⟩ := by decide +kernel
    obtain rfl := Option.some.inj (same.symm.trans parsed)
    exact ⟨by decide +kernel, by decide +kernel⟩
  · refine blob_responses_agree _ _ _ _ _ differsBeyond_sample (Or.inr ?_)
    exact ⟨"access denied for repository bob/secret", by decide +kernel⟩

/-- The blob of a repository that the actor may not pull is served in another repository, and a
mount tells whether it is there. -/
theorem blobs_are_not_isolated :
    DiffersBeyond sampleBlobNode.policies (sampleSession "first") sampleSecretRegistry
        sampleBareRegistry ∧
      respond sampleBlobNode (sampleSession "first") sampleSecretRegistry
          (.get "alice/app" sampleSecret none) ≠
        respond sampleBlobNode (sampleSession "first") sampleBareRegistry
          (.get "alice/app" sampleSecret none) ∧
      respond sampleBlobNode (sampleSession "first") sampleSecretRegistry
          (.mount "alice/app" sampleSecret "alice/base") ≠
        respond sampleBlobNode (sampleSession "first") sampleBareRegistry
          (.mount "alice/app" sampleSecret "alice/base") :=
  ⟨differsBeyond_sample, by decide +kernel, by decide +kernel⟩

end Layerhouse
