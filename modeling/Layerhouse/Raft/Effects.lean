/-
This file says once what a request can change. The registry is the part of the
replicated data that holds content and its owners; four of the seven domains
leave it as it is. The handle tables change in two ways only: a claim of an
unclaimed handle, and the release of a live one. Invariants of the replicated
data are derived from these statements, so they never unfold a domain they do
not speak about.

Runs of committed requests, and runs in which snapshots are also installed, are
runs of the step functions at the end of the file.
-/

import Layerhouse.Library.Runs
import Layerhouse.Raft.Apply

namespace Layerhouse

/-! ### The registry -/

/-- The content of the registry, its reference counts, and the handles it belongs to. -/
structure Registry where
  manifests : BTreeMap String (BTreeMap String ManifestEntry)
  tags : BTreeMap String (BTreeMap String String)
  blobRefCounts : BTreeMap String Nat
  repositories : BTreeMap String Repository
  namespaces : BTreeMap String Namespace
  releasedHandles : BTreeMap String ReleasedHandle

def StateMachineData.registry (data : StateMachineData) : Registry where
  manifests := data.manifests
  tags := data.tags
  blobRefCounts := data.blobRefCounts
  repositories := data.repositories
  namespaces := data.namespaces
  releasedHandles := data.releasedHandles

theorem afterCheck_fst {Answer : Type} (invariant : StateMachineData → Prop)
    {data : StateMachineData} {check : Except LayerhouseError Unit}
    {next : StateMachineData × Except LayerhouseError Answer} (holds : invariant data)
    (continued : check = .ok () → invariant next.1) :
    invariant (afterCheck data check next).1 := by
  unfold afterCheck
  cases check with
  | error error => exact holds
  | ok done => exact continued rfl

/-! ### Frames -/

/-- The data with what manifest requests write cleared. -/
def StateMachineData.withoutContent (data : StateMachineData) : StateMachineData :=
  { data with
    manifests := ∅
    tags := ∅
    blobRefCounts := ∅
    blobDeleteRequests := ∅
    proxyCacheTagValidations := ∅ }

/-- The data with the fields that the domain of the request may write cleared. -/
def Request.frame : Request → StateMachineData → StateMachineData
  | .manifest _, data => data.withoutContent
  | .mirrorConfig _, data =>
    { data with
      mirrorRules := ∅
      proxyCaches := ∅
      proxyCacheTagValidations := ∅
      warmImages := ∅
      syncJobs := ∅ }
  | .job _, data => { data with syncJobs := ∅, syncJobRuns := ∅ }
  | .token _, data => { data with personalAccessTokens := ∅ }
  | .policy _, data => { data with policySets := ∅ }
  | .repository _, data => { data with repositories := ∅ }
  | .namespaces _, data => data.withNamespaceTables ⟨∅, ∅, ∅, ∅, ∅⟩

theorem applyMirrorConfig_frame (now : Nat) (data : StateMachineData)
    (request : MirrorConfigRequest) :
    (Request.mirrorConfig request).frame (applyMirrorConfig now data request).1 =
      (Request.mirrorConfig request).frame data := by
  cases request
  case triggerMirrorRule id =>
    simp only [applyMirrorConfig]
    cases data.mirrorRules[id]? with
    | none => rfl
    | some rule =>
      simp only
      split <;> rfl
  case triggerProxyCacheWarm id =>
    simp only [applyMirrorConfig]
    cases data.proxyCaches[id]? with
    | none => rfl
    | some cache =>
      simp only
      split <;> rfl
  all_goals rfl

theorem applyJob_frame (now : Nat) (data : StateMachineData) (request : JobRequest) :
    (Request.job request).frame (applyJob now data request).1 =
      (Request.job request).frame data := by
  cases request
  case claimSyncJob id nodeId =>
    simp only [applyJob]
    cases data.syncJobs[id]? with
    | none => rfl
    | some job =>
      simp only
      split <;> rfl
  case triggerSyncJob id =>
    simp only [applyJob]
    cases data.syncJobs[id]? with
    | none => rfl
    | some job =>
      simp only
      split <;> rfl
  all_goals rfl

theorem applyToken_frame (data : StateMachineData) (request : TokenRequest) :
    (Request.token request).frame (applyToken data request).1 =
      (Request.token request).frame data := by
  cases request with
  | putPersonalAccessToken token => rfl
  | deletePersonalAccessToken id subject =>
    rw [applyToken]
    split <;> rfl

theorem applyPolicy_frame (externals : Externals) (data : StateMachineData)
    (request : PolicyRequest) :
    (Request.policy request).frame (applyPolicy externals data request).1 =
      (Request.policy request).frame data := by
  cases request with
  | putPolicySet policy =>
    exact afterCheck_fst
      (fun next => (Request.policy (.putPolicySet policy)).frame next = _) rfl fun _ => rfl
  | deletePolicySet id => rfl

theorem applyRepository_frame (data : StateMachineData) (request : RepositoryRequest) :
    (Request.repository request).frame (applyRepository data request).1 =
      (Request.repository request).frame data := by
  cases request with
  | putRepository repository expected =>
    exact afterCheck_fst (fun next =>
      (Request.repository (.putRepository repository expected)).frame next = _) rfl fun _ => rfl
  | deleteRepository name expected =>
    exact afterCheck_fst (fun next =>
      (Request.repository (.deleteRepository name expected)).frame next = _) rfl fun _ => rfl

theorem foldl_decrementBlobRefs_frame (entries : List ManifestEntry) (data : StateMachineData) :
    (entries.foldl StateMachineData.decrementBlobRefs data).withoutContent = data.withoutContent ∧
      (entries.foldl StateMachineData.decrementBlobRefs data).tags = data.tags ∧
      (entries.foldl StateMachineData.decrementBlobRefs data).manifests = data.manifests := by
  induction entries generalizing data with
  | nil => exact ⟨rfl, rfl, rfl⟩
  | cons entry rest inductionHypothesis => exact inductionHypothesis (data.decrementBlobRefs entry)

theorem dropTags_frame (data : StateMachineData) (name : String) (hit : String → Bool) :
    (data.dropTags name hit).withoutContent = data.withoutContent ∧
      (data.dropTags name hit).manifests = data.manifests ∧
      (data.dropTags name hit).blobRefCounts = data.blobRefCounts := by
  unfold StateMachineData.dropTags
  cases data.tags[name]? with
  | none => exact ⟨rfl, rfl, rfl⟩
  | some repoTags => exact ⟨rfl, rfl, rfl⟩

theorem storeEntry_frame (data : StateMachineData) (name : String) (entry : ManifestEntry) :
    (data.storeEntry name entry).withoutContent = data.withoutContent ∧
      (data.storeEntry name entry).tags = data.tags ∧
      (data.storeEntry name entry).manifests = data.manifests.insert name
        ((data.manifests[name]?.getD ∅).insert entry.digest.toStr entry) := by
  unfold StateMachineData.storeEntry
  cases previous : (data.manifests[name]?.getD ∅)[entry.digest.toStr]? with
  | none =>
    simp only [previous]
    exact ⟨rfl, rfl, rfl⟩
  | some replaced =>
    simp only [previous]
    exact ⟨rfl, rfl, rfl⟩

theorem removeEntry_frame (data : StateMachineData) (name digest : String) :
    (data.removeEntry name digest).withoutContent = data.withoutContent := by
  unfold StateMachineData.removeEntry
  cases data.manifests[name]? with
  | none => rfl
  | some repo =>
    simp only
    cases repo[digest]? <;> rfl

theorem removeManifests_frame (data : StateMachineData) (name : String) :
    (data.removeManifests name).withoutContent = data.withoutContent := by
  unfold StateMachineData.removeManifests
  cases data.manifests[name]? with
  | none => rfl
  | some repo => exact (foldl_decrementBlobRefs_frame _ _).1

theorem removeEntries_frame (data : StateMachineData) (name : String) (digests : List String) :
    (data.removeEntries name digests).withoutContent = data.withoutContent := by
  unfold StateMachineData.removeEntries
  cases data.manifests[name]? with
  | none => rfl
  | some repo => exact (foldl_decrementBlobRefs_frame _ _).1

theorem applyManifest_frame (externals : Externals) (data : StateMachineData)
    (request : ManifestRequest) :
    (Request.manifest request).frame (applyManifest externals data request).1 =
      (Request.manifest request).frame data := by
  change (applyManifest externals data request).1.withoutContent = data.withoutContent
  cases request with
  | putManifest put =>
    refine afterCheck_fst (·.withoutContent = data.withoutContent) rfl fun _ => ?_
    split
    · rfl
    · simp only
      split
      · exact (storeEntry_frame _ _ _).1
      · exact (storeEntry_frame _ _ _).1
  | deleteManifest name expected digest =>
    exact afterCheck_fst (·.withoutContent = data.withoutContent) rfl fun _ =>
      (dropTags_frame _ _ _).1.trans (removeEntry_frame data name digest)
  | deleteTag name expected digest tag =>
    refine afterCheck_fst (·.withoutContent = data.withoutContent) rfl fun _ => ?_
    cases data.tags[name]? with
    | none => rfl
    | some repoTags =>
      simp only
      split <;> rfl
  | deleteRepository name expected =>
    exact afterCheck_fst (·.withoutContent = data.withoutContent) rfl fun _ =>
      removeManifests_frame data name
  | deleteManifests name expected digests =>
    exact afterCheck_fst (·.withoutContent = data.withoutContent) rfl fun _ =>
      (dropTags_frame _ _ _).1.trans (removeEntries_frame data name _)
  | mountBlob sourceRepo destRepo expected digest =>
    exact afterCheck_fst (·.withoutContent = data.withoutContent) rfl fun _ => rfl
  | recordBlobDelete digest requestedAt => rfl
  | clearBlobDelete digest => rfl

/-- A namespace request that is answered was answered by its domain. -/
theorem applyNamespace_of_applied {externals : Externals} {now : Nat}
    {data next : StateMachineData} {request : NamespaceRequest} {response : Response}
    (applied : applyRequest externals now data (.namespaces request) = .ok (next, response)) :
    ∃ answer, applyNamespace data request = .ok (next, answer) ∧
      response = toResponse .namespaces answer := by
  rw [applyRequest] at applied
  cases outcome : applyNamespace data request with
  | error panic =>
    rw [outcome] at applied
    cases applied
  | ok result =>
    rw [outcome] at applied
    cases applied
    exact ⟨result.2, rfl, rfl⟩

/-- A request writes only the fields of its domain. -/
theorem applyRequest_frame {externals : Externals} {now : Nat} {data next : StateMachineData}
    {request : Request} {response : Response}
    (applied : applyRequest externals now data request = .ok (next, response)) :
    request.frame next = request.frame data := by
  cases request with
  | manifest inner =>
    cases applied
    exact applyManifest_frame externals data inner
  | mirrorConfig inner =>
    cases applied
    exact applyMirrorConfig_frame now data inner
  | job inner =>
    cases applied
    exact applyJob_frame now data inner
  | token inner =>
    cases applied
    exact applyToken_frame data inner
  | policy inner =>
    cases applied
    exact applyPolicy_frame externals data inner
  | repository inner =>
    cases applied
    exact applyRepository_frame data inner
  | namespaces inner =>
    rw [applyRequest, applyNamespace] at applied
    cases outcome : applyNamespaceCore data.namespaceTables data.hasContent inner with
    | error panic =>
      rw [outcome] at applied
      cases applied
    | ok result =>
      rw [outcome] at applied
      cases applied
      rfl

/-- The repositories, the handle tables and the access tokens, which manifest requests do not
write. -/
def StateMachineData.owners (data : StateMachineData) :
    BTreeMap String Repository × BTreeMap String Namespace × BTreeMap String ReleasedHandle ×
      BTreeMap String PersonalAccessToken :=
  (data.repositories, data.namespaces, data.releasedHandles, data.personalAccessTokens)

/-- Manifest requests change no repository object, no handle and no access token. -/
theorem applyManifest_owners (externals : Externals) (data : StateMachineData)
    (request : ManifestRequest) :
    (applyManifest externals data request).1.owners = data.owners := by
  have framed := congrArg StateMachineData.owners (applyManifest_frame externals data request)
  exact framed

/-- A property of the registry holds after a request when the three domains that write to it
keep it. -/
theorem applyRequest_invariant (invariant : StateMachineData → Prop) {externals : Externals}
    {now : Nat} {data next : StateMachineData} {request : Request} {response : Response}
    (applied : applyRequest externals now data request = .ok (next, response))
    (ofRegistry : ∀ other : StateMachineData, other.registry = data.registry → invariant other)
    (manifest : ∀ inner, request = .manifest inner →
      invariant (applyManifest externals data inner).1)
    (repository : ∀ inner, invariant (applyRepository data inner).1)
    (namespaces : ∀ inner after answer, applyNamespace data inner = .ok (after, answer) →
      invariant after) :
    invariant next := by
  have framed := congrArg StateMachineData.registry (applyRequest_frame applied)
  cases request with
  | manifest inner =>
    cases applied
    exact manifest inner rfl
  | repository inner =>
    cases applied
    exact repository inner
  | namespaces inner =>
    obtain ⟨answer, outcome, _⟩ := applyNamespace_of_applied applied
    exact namespaces inner next answer outcome
  | _ => exact ofRegistry next framed

/-! ### Access tokens -/

/-- What a request does to the access tokens. -/
theorem applyRequest_personalAccessTokens {externals : Externals} {now : Nat}
    {data next : StateMachineData} {request : Request} {response : Response}
    (applied : applyRequest externals now data request = .ok (next, response)) :
    next.personalAccessTokens = data.personalAccessTokens ∨
      (∃ token, request = .token (.putPersonalAccessToken token) ∧
        next.personalAccessTokens = data.personalAccessTokens.insert token.id token) ∨
      ∃ id subject, request = .token (.deletePersonalAccessToken id subject) ∧
        response = .token (.bool true) ∧
        next.personalAccessTokens = data.personalAccessTokens.erase id := by
  have framed := congrArg StateMachineData.personalAccessTokens (applyRequest_frame applied)
  cases request with
  | token inner =>
    cases inner with
    | putPersonalAccessToken token =>
      cases applied
      exact Or.inr (Or.inl ⟨token, rfl, rfl⟩)
    | deletePersonalAccessToken id subject =>
      rw [applyRequest, applyToken] at applied
      by_cases owned : data.personalAccessTokens[id]?.any (·.subject = subject) = true
      · rw [if_pos owned] at applied
        cases applied
        exact Or.inr (Or.inr ⟨id, subject, rfl, rfl, rfl⟩)
      · rw [if_neg owned] at applied
        cases applied
        exact Or.inl rfl
  | _ => exact Or.inl framed

/-! ### Handles -/

/-- The requests that claim or release a handle. -/
def NamespaceRequest.movesHandle : NamespaceRequest → Bool
  | .claim .. | .delete .. | .adminRevoke .. => true
  | .putGrant .. | .deleteGrant .. | .putObservedIdentity .. => false

/-- The request asks for the release of the handle, by its owner or by an administrator. -/
def NamespaceRequest.Releases (request : NamespaceRequest) (handle : String) : Prop :=
  (∃ actor reason now, request = .delete handle actor reason now) ∨
    ∃ actor now, request = .adminRevoke handle actor now

/-- What a namespace request does to the two handle tables, with the answer it gives. -/
inductive HandleEffect (tables : NamespaceTables) (hasContent : String → Bool) :
    NamespaceRequest → NamespaceTables → Except LayerhouseError NamespaceResponse → Prop
  | kept {request : NamespaceRequest} {next : NamespaceTables}
      {answer : Except LayerhouseError NamespaceResponse}
      (sameNamespaces : next.namespaces = tables.namespaces)
      (sameReleased : next.releasedHandles = tables.releasedHandles)
      (refused : request.movesHandle → ∃ error, answer = .error error) :
      HandleEffect tables hasContent request next answer
  | claimed {next : NamespaceTables} {handle : String} {owner : Owner} {ownerLabel : String}
      {actor : Subject} {adminOverride : Bool} {now generation : Nat}
      (valid : validateHandle handle = .ok ()) (unreserved : isHandleReserved handle = false)
      (unclaimed : tables.namespaces[handle]? = none)
      (assigned : tables.nextGeneration handle adminOverride = .ok generation)
      (namespacesEq : next.namespaces = tables.namespaces.insert handle
        { handle := handle
          generation := generation
          owner := owner
          ownerLabel := ownerLabel
          createdAt := now })
      (releasedEq : next.releasedHandles = tables.releasedHandles.erase handle) :
      HandleEffect tables hasContent (.claim handle owner ownerLabel actor adminOverride now)
        next (.ok .ok)
  | released {request : NamespaceRequest} {next : NamespaceTables} {handle : String}
      {live : Namespace} {tomb : ReleasedHandle}
      (asked : request.Releases handle)
      (found : tables.namespaces[handle]? = some live) (contentless : hasContent handle = false)
      (namespacesEq : next.namespaces = tables.namespaces.erase handle)
      (releasedEq : next.releasedHandles = tables.releasedHandles.insert handle tomb)
      (recorded : tomb.priorGeneration = live.generation) :
      HandleEffect tables hasContent request next (.ok .ok)

/-- What a namespace request does to the tables, with the answer it gives. A refused request
leaves them as they are. -/
inductive NamespaceMove (tables : NamespaceTables) (hasContent : String → Bool) :
    NamespaceRequest → NamespaceTables → Except LayerhouseError NamespaceResponse → Prop
  | refused {request : NamespaceRequest} {error : LayerhouseError} :
      NamespaceMove tables hasContent request tables (.error error)
  | claimed {handle : String} {owner : Owner} {ownerLabel : String} {actor : Subject}
      {adminOverride : Bool} {now generation : Nat}
      (valid : validateHandle handle = .ok ()) (unreserved : isHandleReserved handle = false)
      (unclaimed : tables.namespaces[handle]? = none)
      (assigned : tables.nextGeneration handle adminOverride = .ok generation) :
      NamespaceMove tables hasContent (.claim handle owner ownerLabel actor adminOverride now)
        { tables with
          releasedHandles := tables.releasedHandles.erase handle
          namespaces := tables.namespaces.insert handle
            { handle := handle
              generation := generation
              owner := owner
              ownerLabel := ownerLabel
              createdAt := now } } (.ok .ok)
  | released {request : NamespaceRequest} {handle : String} {live : Namespace} {actor : Subject}
      {reason : ReleaseReason} {now : Nat} (asked : request.Releases handle)
      (found : tables.namespaces[handle]? = some live) (contentless : hasContent handle = false) :
      NamespaceMove tables hasContent request (tables.release handle live actor reason now)
        (.ok .ok)
  | granted {grant : NamespaceGrant} {actorLabel reason auditId : String}
      (checked : validateNamespaceGrant tables.namespaces grant = .ok (.ok ())) :
      NamespaceMove tables hasContent (.putGrant grant actorLabel reason auditId)
        (tables.putGrant grant actorLabel reason auditId).1
        (.ok (.grant (tables.putGrant grant actorLabel reason auditId).2))
  | ungranted {handle grantId : String} {actor : Subject} {actorLabel reason : String} {now : Nat}
      {auditId : String} (claimed : tables.namespaces.contains handle = true)
      (absent : tables.namespaceGrants[handle]?.bind (·[grantId]?) = none) :
      NamespaceMove tables hasContent
        (.deleteGrant handle grantId actor actorLabel reason now auditId)
        (tables.removeGrant handle grantId) (.ok (.bool false))
  | withdrawn {handle grantId : String} {actor : Subject} {actorLabel reason : String} {now : Nat}
      {auditId : String} {before : NamespaceGrant} {event : NamespaceGrantAuditEvent}
      (claimed : tables.namespaces.contains handle = true)
      (found : tables.namespaceGrants[handle]?.bind (·[grantId]?) = some before) :
      NamespaceMove tables hasContent
        (.deleteGrant handle grantId actor actorLabel reason now auditId)
        ((tables.removeGrant handle grantId).audit handle event) (.ok (.bool true))
  | observed {identity : ObservedIdentity} :
      NamespaceMove tables hasContent (.putObservedIdentity identity)
        { tables with
          observedIdentities := tables.observedIdentities.insert identity.subject identity }
        (.ok .ok)

section Moves

variable {tables next : NamespaceTables} {hasContent : String → Bool} {handle : String}
  {actor : Subject} {now : Nat} {answer : Except LayerhouseError NamespaceResponse}

theorem applyNamespaceCore_claim {owner : Owner} {ownerLabel : String} {adminOverride : Bool}
    (applied : applyNamespaceCore tables hasContent
      (.claim handle owner ownerLabel actor adminOverride now) = .ok (next, answer)) :
    NamespaceMove tables hasContent (.claim handle owner ownerLabel actor adminOverride now) next
      answer := by
  rw [applyNamespaceCore] at applied
  cases valid : validateHandle handle with
  | error error =>
    rw [valid] at applied
    cases applied
    exact .refused
  | ok done =>
    rw [valid] at applied
    simp only at applied
    split at applied
    · cases applied
      exact .refused
    · rename_i unreserved
      cases lookup : tables.namespaces[handle]? with
      | some live =>
        rw [lookup] at applied
        cases applied
        exact .refused
      | none =>
        rw [lookup] at applied
        cases assigned : tables.nextGeneration handle adminOverride with
        | error error =>
          simp only [assigned] at applied
          cases applied
          exact .refused
        | ok generation =>
          simp only [assigned] at applied
          cases applied
          exact .claimed valid (Bool.eq_false_iff.mpr unreserved) lookup assigned

theorem applyNamespaceCore_deleteGrant {grantId actorLabel reason auditId : String}
    (applied : applyNamespaceCore tables hasContent
      (.deleteGrant handle grantId actor actorLabel reason now auditId) = .ok (next, answer)) :
    NamespaceMove tables hasContent
      (.deleteGrant handle grantId actor actorLabel reason now auditId) next answer := by
  rw [applyNamespaceCore] at applied
  cases valid : validateHandle handle with
  | error error =>
    rw [valid] at applied
    cases applied
    exact .refused
  | ok done =>
    rw [valid] at applied
    simp only at applied
    split at applied
    · cases applied
      exact .refused
    · rename_i claimed
      cases found : tables.namespaceGrants[handle]?.bind (·[grantId]?) with
      | none =>
        simp only [found] at applied
        cases applied
        exact .ungranted (not_not.mp claimed) found
      | some before =>
        simp only [found] at applied
        cases applied
        exact .withdrawn (not_not.mp claimed) found

/-- Every namespace request makes one of these moves. -/
theorem applyNamespaceCore_move {request : NamespaceRequest}
    (applied : applyNamespaceCore tables hasContent request = .ok (next, answer)) :
    NamespaceMove tables hasContent request next answer := by
  cases request with
  | claim handle owner ownerLabel actor adminOverride now => exact applyNamespaceCore_claim applied
  | delete handle actor reason now =>
    rw [applyNamespaceCore] at applied
    cases lookup : tables.namespaces[handle]? with
    | none =>
      rw [lookup] at applied
      cases applied
      exact .refused
    | some live =>
      rw [lookup] at applied
      simp only at applied
      split at applied
      · cases applied
        exact .refused
      · split at applied
        · cases applied
          exact .refused
        · rename_i contentless
          cases applied
          exact .released (.inl ⟨_, _, _, rfl⟩) lookup (Bool.eq_false_iff.mpr contentless)
  | adminRevoke handle actor now =>
    rw [applyNamespaceCore] at applied
    split at applied
    · cases applied
      exact .refused
    · rename_i contentless
      cases lookup : tables.namespaces[handle]? with
      | none =>
        rw [lookup] at applied
        cases applied
        exact .refused
      | some live =>
        rw [lookup] at applied
        cases applied
        exact .released (.inr ⟨_, _, rfl⟩) lookup (Bool.eq_false_iff.mpr contentless)
  | putGrant grant actorLabel reason auditId =>
    rw [applyNamespaceCore] at applied
    cases checked : validateNamespaceGrant tables.namespaces grant with
    | error panic =>
      rw [checked] at applied
      cases applied
    | ok outcome =>
      rw [checked] at applied
      cases outcome with
      | error error =>
        cases applied
        exact .refused
      | ok done =>
        cases applied
        exact .granted checked
  | deleteGrant handle grantId actor actorLabel reason now auditId =>
    exact applyNamespaceCore_deleteGrant applied
  | putObservedIdentity identity =>
    cases applied
    exact .observed

end Moves

theorem removeGrant_handles (tables : NamespaceTables) (handle grantId : String) :
    (tables.removeGrant handle grantId).namespaces = tables.namespaces ∧
      (tables.removeGrant handle grantId).releasedHandles = tables.releasedHandles := by
  unfold NamespaceTables.removeGrant
  cases tables.namespaceGrants[handle]? with
  | none => exact ⟨rfl, rfl⟩
  | some grants => exact ⟨rfl, rfl⟩

/-- Every namespace request keeps the handle tables, claims a handle or releases one. -/
theorem NamespaceMove.effect {tables next : NamespaceTables} {hasContent : String → Bool}
    {request : NamespaceRequest} {answer : Except LayerhouseError NamespaceResponse}
    (moved : NamespaceMove tables hasContent request next answer) :
    HandleEffect tables hasContent request next answer := by
  cases moved with
  | refused => exact .kept rfl rfl fun _ => ⟨_, rfl⟩
  | claimed valid unreserved unclaimed assigned =>
    exact .claimed valid unreserved unclaimed assigned rfl rfl
  | released asked found contentless => exact .released asked found contentless rfl rfl rfl
  | granted checked => exact .kept rfl rfl fun moves => absurd moves Bool.false_ne_true
  | @ungranted handle grantId =>
    obtain ⟨sameNamespaces, sameReleased⟩ := removeGrant_handles tables handle grantId
    exact .kept sameNamespaces sameReleased fun moves => absurd moves Bool.false_ne_true
  | @withdrawn handle grantId =>
    obtain ⟨sameNamespaces, sameReleased⟩ := removeGrant_handles tables handle grantId
    exact .kept sameNamespaces sameReleased fun moves => absurd moves Bool.false_ne_true
  | observed => exact .kept rfl rfl fun moves => absurd moves Bool.false_ne_true

theorem applyNamespace_move {data next : StateMachineData} {request : NamespaceRequest}
    {answer : Except LayerhouseError NamespaceResponse}
    (applied : applyNamespace data request = .ok (next, answer)) :
    next = data.withNamespaceTables next.namespaceTables ∧
      NamespaceMove data.namespaceTables data.hasContent request next.namespaceTables answer := by
  rw [applyNamespace] at applied
  cases outcome : applyNamespaceCore data.namespaceTables data.hasContent request with
  | error panic =>
    rw [outcome] at applied
    cases applied
  | ok result =>
    rw [outcome] at applied
    cases applied
    exact ⟨rfl, applyNamespaceCore_move outcome⟩

/-- The effect of a namespace request on the replicated data. -/
theorem applyNamespace_effect {data next : StateMachineData} {request : NamespaceRequest}
    {answer : Except LayerhouseError NamespaceResponse}
    (applied : applyNamespace data request = .ok (next, answer)) :
    next = data.withNamespaceTables next.namespaceTables ∧
      HandleEffect data.namespaceTables data.hasContent request next.namespaceTables answer :=
  ⟨(applyNamespace_move applied).1, (applyNamespace_move applied).2.effect⟩

/-! ### Runs -/

/-- One committed request, with the clock reading of the replica that applies it. -/
def requestStep (externals : Externals) (data : StateMachineData) (label : Nat × Request) :
    Option StateMachineData :=
  match applyRequest externals label.1 data label.2 with
  | .ok (next, _) => some next
  | .error _ => none

theorem requestStep_eq_some {externals : Externals} {data next : StateMachineData}
    {label : Nat × Request} :
    requestStep externals data label = some next ↔
      ∃ response, applyRequest externals label.1 data label.2 = .ok (next, response) := by
  rw [requestStep]
  cases applyRequest externals label.1 data label.2 with
  | error panic => simp
  | ok result => simp [Prod.ext_iff]

/-- What happens to the state machine of a node: a request is applied, or a snapshot is
installed. -/
inductive MachineLabel where
  | apply (now : Nat) (request : Request)
  | install (now : Nat) (header : SnapshotMeta) (bytes : List UInt8)

def machineStep (externals : Externals) (codec : SnapshotCodec) (machine : StateMachine) :
    MachineLabel → Option StateMachine
  | .apply now request =>
    match applyRequest externals now machine.data request with
    | .ok (next, _) => some { machine with data := next }
    | .error _ => none
  | .install now header bytes =>
    some (installSnapshot externals codec now machine header bytes).1

/-! ### Concrete requests for replayed runs -/

/-- Functions of other packages for concrete runs; the sample push below calls none of them. -/
def sampleExternals : Externals where
  fromSlice := fun _ => none
  sha256 := fun _ => Vector.replicate 32 0
  validatePolicyText := fun _ => .ok ()

/-- Functions of other packages for runs that push the empty object. -/
def emptyObjectExternals : Externals :=
  { sampleExternals with
    fromSlice := fun _ => some (.object [])
    sha256 := fun _ => Digest.emptyObjectHash }

def sampleDigest (char : Char) : String :=
  "sha256:" ++ String.ofList (List.replicate 64 char)

/-- A push of a manifest with one layer. -/
def samplePush (name : String) (expected : Option NamespaceEpoch) (manifest layer : String) :
    PutManifest where
  name := name
  expectedNamespace := expected
  reference := "latest"
  requireReferenceAbsent := false
  digest := manifest
  contentType := "application/vnd.oci.image.manifest.v1+json"
  body := []
  subject := none
  artifactType := none
  annotations := none
  storedSizeBytes := 0
  manifestSizeBytes := 0
  createdAt := 1
  lastModified := 1
  configSummary := none
  referencedBlobs := [layer]

/-- A claim of a handle by a user. -/
def sampleClaim (handle : String) (owner : Subject) (adminOverride : Bool) : Request :=
  .namespaces (.claim handle (.user owner) owner owner adminOverride 1)

/-- The release of a handle by its owner. -/
def sampleRelease (handle : String) (owner : Subject) : NamespaceRequest :=
  .delete handle owner .ownerDeleted 2

end Layerhouse
