/-
This file settles when a sweep leaves every live blob in place. The counts are
exact, so a blob that a committed manifest refers to has a positive count at every
read; but the sweep decides on its second read and deletes later, and a push finds
its blobs before it commits. A blob is lost when a manifest that refers to it is
committed between the second read and the batch, or when a push has found it and
commits after the batch. Where neither happens at any batch, no live blob is ever
removed: the second read has left only blobs with count zero, and without such a
commit no count grows from there to the batch.
-/

import Layerhouse.Gc.Sweep
import Layerhouse.Library.Schedules
import Layerhouse.Raft.BlobRefs

namespace Layerhouse

/-! ### Keys and digests -/

/-- The key of a checked digest is read back as that digest. -/
theorem s3KeyToDigest_s3Key {digest : Digest} (checked : digest.Checked) :
    s3KeyToDigest digest.s3Key = some digest.toStr := by
  obtain ⟨_, algorithmSlashless, hexSlashless⟩ := Digest.fromStrChecked_eq_some checked
  have keyEq : digest.s3Key.toList = "blobs".toList ++ '/' :: (digest.algorithm.toList ++ '/' ::
      (digest.hex.toList.take 2 ++ '/' :: digest.hex.toList)) := by
    simp [Digest.s3Key]
  have shardSlashless : '/' ∉ digest.hex.toList.take 2 := fun slash =>
    hexSlashless (List.mem_of_mem_take slash)
  have shard : (Text.stripPrefix (digest.hex.toList.take 2) digest.hex.toList).isSome = true := by
    rw [Option.isSome_iff_exists]
    exact ⟨digest.hex.toList.drop 2, Text.stripPrefix_eq_some.mpr (List.take_append_drop 2 _).symm⟩
  have pieces : Text.splitn '/' 4 digest.s3Key.toList = ["blobs".toList,
      digest.algorithm.toList, digest.hex.toList.take 2, digest.hex.toList] := by
    rw [keyEq, Text.splitn_cons_of_notMem (by decide),
      Text.splitn_cons_of_notMem algorithmSlashless,
      Text.splitn_cons_of_notMem shardSlashless, Text.splitn]
  rw [s3KeyToDigest, pieces]
  simp only [String.ofList_toList, shard, and_self, if_true]
  rw [Option.some.injEq, ← String.toList_inj]
  simp [Digest.toStr]

/-! ### What a push stores -/

theorem mem_distinctDigests {digest : Digest} {digests : List Digest} {seen : List String}
    (member : digest ∈ PushCall.distinctDigests seen digests) : digest ∈ digests := by
  induction digests generalizing seen with
  | nil => exact member
  | cons first rest inductionHypothesis =>
    rw [PushCall.distinctDigests] at member
    split at member
    · exact List.mem_cons_of_mem _ (inductionHypothesis member)
    · rcases List.mem_cons.mp member with rfl | later
      · exact List.mem_cons_self
      · exact List.mem_cons_of_mem _ (inductionHypothesis later)

/-- The entry that a push stores refers only to blobs that the push asked for. -/
theorem mem_digests_of_mem_entry {externals : Externals} {call : PushCall}
    (parsed : externals.fromSlice call.body = some call.parsed) {now : Nat}
    {expected : Option NamespaceEpoch} {absent : Bool} {blob : Digest}
    (member : blob ∈ ((call.putManifest externals now expected absent).entry
      externals).referencedBlobs) :
    blob ∈ call.digests := by
  have refs := mem_sortDedupDigests member
  split at refs
  · have body : externals.fromSlice (call.putManifest externals now expected absent).body =
        some call.parsed := parsed
    rw [body] at refs
    exact refs
  · obtain ⟨text, textMember, read⟩ := List.mem_filterMap.mp refs
    obtain ⟨digest, digestMember, rfl⟩ := List.mem_map.mp textMember
    have asked : digest ∈ call.digests := mem_distinctDigests digestMember
    have same : some digest = some blob :=
      (checked_of_mem_extractReferencedDigests asked).symm.trans read
    cases same
    exact asked

/-! ### The invariant -/

/-- The objects a sweep holds. -/
def Sweep.objects : Sweep → List GcBlobObject
  | .idle => []
  | .listing _ objects => objects
  | .selected candidates => candidates
  | .deleting toDelete => toDelete

/-- The store holds the blob of this checked digest. -/
def World.Holds (world : World) (blob : Digest) : Prop :=
  blob.Checked ∧ blob.s3Key ∈ world.objects

/-- The counts are exact; the store holds every blob that a committed manifest refers to, and
every blob that a push has found; and the sweep knows objects by their digests. -/
structure World.Sound (externals : Externals) (world : World) : Prop where
  counts : BlobRefsExact world.data
  live : AllEntries (fun entry => ∀ blob ∈ entry.referencedBlobs, world.Holds blob) world.data
  parsed : ∀ push ∈ world.pushes, externals.fromSlice push.call.body = some push.call.parsed
  found : ∀ push ∈ world.pushes, ∀ blob ∈ push.found, world.Holds blob
  listed : ∀ object ∈ world.sweep.objects, s3KeyToDigest object.key = some object.digest

/-! ### The schedule -/

/-- The step commits a push of a manifest that refers to the blob. -/
def CommitsReference (world : World) (digest : String) : GcLabel → Prop
  | .commitPush index _ _ => ∃ push, world.pushes[index]? = some push ∧
    ∃ blob ∈ push.call.digests, blob.toStr = digest
  | _ => False

/-- No step since the second read of the counts commits a push that refers to the blob. -/
def UnreferredSince (externals : Externals) (config : GcConfig) (history : List GcLabel)
    (digest : String) : Prop :=
  ∀ before label after world, history = before ++ label :: after →
    GcLabel.readFreshRefCounts ∉ after →
    run (gcStep externals config) World.empty before = some world →
    ¬ CommitsReference world digest label

/-- No push races with the batch for a blob that it deletes: none that refers to the blob has been
committed since the second read of the counts, and none in flight has found it. -/
def NoRace (externals : Externals) (config : GcConfig) (history : List GcLabel) (world : World) :
    GcLabel → Prop
  | .deleteBatch true failed => ∀ object ∈ world.sweep.objects.take deleteBatchSize,
    object.key ∉ failed →
      UnreferredSince externals config history object.digest ∧
        ∀ push ∈ world.pushes, ∀ blob ∈ push.found, blob.toStr ≠ object.digest
  | _ => True

theorem World.sound_empty (externals : Externals) : World.empty.Sound externals where
  counts := blobRefsExact_empty
  live name repo _ _ found _ := by
    rw [World.empty, StateMachineData.empty, BTreeMap.getElem?_empty] at found
    cases found
  parsed _ member := by cases member
  found _ member := by cases member
  listed _ member := by cases member

section Steps

variable {externals : Externals} {config : GcConfig} {world next : World}

/-- A step that only adds objects to the store keeps what is held. -/
theorem World.Sound.grow (sound : world.Sound externals) {objects : BTreeMap String Nat}
    (grows : ∀ key, key ∈ world.objects → key ∈ objects) :
    World.Sound externals { world with objects := objects } where
  counts := sound.counts
  live name repo digest entry repoFound entryFound blob member :=
    let held := sound.live name repo digest entry repoFound entryFound blob member
    ⟨held.1, grows _ held.2⟩
  parsed := sound.parsed
  found push member blob blobMember :=
    let held := sound.found push member blob blobMember
    ⟨held.1, grows _ held.2⟩
  listed := sound.listed

/-- A step of the sweep that only reads keeps the invariant when it knows its objects. -/
theorem World.Sound.withSweep (sound : world.Sound externals) {sweep : Sweep}
    (listed : ∀ object ∈ sweep.objects, s3KeyToDigest object.key = some object.digest) :
    World.Sound externals { world with sweep := sweep } where
  counts := sound.counts
  live := sound.live
  parsed := sound.parsed
  found := sound.found
  listed := listed

/-- A step may forget pushes. -/
theorem World.Sound.withPushes (sound : world.Sound externals) {pushes : List Push}
    (each : ∀ push ∈ pushes, externals.fromSlice push.call.body = some push.call.parsed ∧
      ∀ blob ∈ push.found, world.Holds blob) :
    World.Sound externals { world with pushes := pushes } where
  counts := sound.counts
  live := sound.live
  parsed push member := (each push member).1
  found push member := (each push member).2
  listed := sound.listed

theorem World.Sound.forget (sound : world.Sound externals) (index : Nat) :
    World.Sound externals { world with pushes := world.pushes.eraseIdx index } :=
  sound.withPushes fun push member =>
    have before := List.mem_of_mem_eraseIdx member
    ⟨sound.parsed push before, sound.found push before⟩

theorem mem_listPage {objects : BTreeMap String Nat} {keys : List String} {object : GcBlobObject}
    (member : object ∈ listPage objects keys) :
    s3KeyToDigest object.key = some object.digest := by
  obtain ⟨key, _, read⟩ := List.mem_filterMap.mp member
  obtain ⟨modified, _, read⟩ := Option.bind_eq_some_iff.mp read
  obtain ⟨digest, known, made⟩ := Option.bind_eq_some_iff.mp read
  cases made
  exact known

theorem mem_foldl_erase {keys : List String} {objects : BTreeMap String Nat} {key : String} :
    key ∈ keys.foldl (fun objects key => objects.erase key) objects ↔
      key ∈ objects ∧ key ∉ keys := by
  induction keys generalizing objects with
  | nil => simp
  | cons first rest inductionHypothesis =>
    rw [List.foldl_cons, inductionHypothesis, Std.ExtTreeMap.mem_erase, List.mem_cons, not_or]
    simp only [ne_eq, Std.LawfulEqCmp.compare_eq_iff_eq]
    tauto

/-- A count of zero means that no committed manifest refers to the blob. -/
theorem BlobRefsExact.count_eq_zero_iff {data : StateMachineData} (holds : BlobRefsExact data)
    {digest : String} :
    data.blobRefCountStr digest = 0 ↔ AllEntries (fun entry => digest ∉ entry.blobKeys) data := by
  have weightless : ∀ entry : ManifestEntry,
      entry.weight digest = 0 ↔ digest ∉ entry.blobKeys := by
    intro entry
    rw [ManifestEntry.weight, ite_eq_right_iff]
    exact forall_congr' fun _ => iff_of_false Nat.one_ne_zero id
  have counted : data.blobRefCountStr digest = referenceCount data.manifests digest :=
    holds.counted digest
  rw [counted, referenceCount, BTreeMap.total_eq_zero_iff]
  constructor
  · intro zero name repo key entry repoFound entryFound
    exact (weightless entry).mp (BTreeMap.total_eq_zero_iff.mp (zero name repo repoFound) key entry
      entryFound)
  · intro unreferenced name repo repoFound
    refine BTreeMap.total_eq_zero_iff.mpr fun key entry entryFound => ?_
    exact (weightless entry).mpr (unreferenced name repo key entry repoFound entryFound)

/-- Every blob of the batch is unreferenced, and no push in flight has found it. -/
def QuietBatch (world : World) (failed : List String) : Prop :=
  ∀ object ∈ world.sweep.objects.take deleteBatchSize, object.key ∉ failed →
    world.data.blobRefCountStr object.digest = 0 ∧
      ∀ push ∈ world.pushes, ∀ blob ∈ push.found, blob.toStr ≠ object.digest

/-- A batch of unreferenced blobs that no push has found removes neither a live blob nor one that
a push has found. -/
theorem World.Sound.deleteBatch (sound : world.Sound externals) {failed : List String}
    {toDelete : List GcBlobObject} (deleting : world.sweep = .deleting toDelete)
    (quiet : QuietBatch world failed) :
    World.Sound externals { world with
      objects := (batchKeys toDelete failed).foldl (fun objects key => objects.erase key)
        world.objects
      sweep := .deleting (toDelete.drop deleteBatchSize) } := by
  have objectsEq : world.sweep.objects = toDelete := by rw [deleting]; rfl
  rw [QuietBatch, objectsEq] at quiet
  -- a key of the batch is the key of no checked digest but the one it was listed under
  have batch (blob : Digest) (checked : blob.Checked)
      (inBatch : blob.s3Key ∈ batchKeys toDelete failed) :
      ∃ object ∈ toDelete.take deleteBatchSize, object.key ∉ failed ∧
        object.digest = blob.toStr := by
    obtain ⟨keyMember, kept⟩ := List.mem_filter.mp inBatch
    obtain ⟨object, member, keyEq⟩ := List.mem_map.mp keyMember
    refine ⟨object, member, by rw [keyEq]; simpa using kept, ?_⟩
    have listed := sound.listed object (objectsEq ▸ List.mem_of_mem_take member)
    rw [keyEq, s3KeyToDigest_s3Key checked] at listed
    exact (Option.some.inj listed).symm
  refine ⟨sound.counts, ?_, sound.parsed, ?_, ?_⟩
  · intro name repo digest entry repoFound entryFound blob member
    obtain ⟨checked, held⟩ := sound.live name repo digest entry repoFound entryFound blob member
    refine ⟨checked, mem_foldl_erase.mpr ⟨held, fun inBatch => ?_⟩⟩
    obtain ⟨object, objectMember, kept, digestEq⟩ := batch blob checked inBatch
    have unreferenced := sound.counts.count_eq_zero_iff.mp (quiet object objectMember kept).1
    refine unreferenced name repo digest entry repoFound entryFound ?_
    rw [digestEq]
    exact List.mem_map_of_mem member
  · intro push member blob blobMember
    obtain ⟨checked, held⟩ := sound.found push member blob blobMember
    refine ⟨checked, mem_foldl_erase.mpr ⟨held, fun inBatch => ?_⟩⟩
    obtain ⟨object, objectMember, kept, digestEq⟩ := batch blob checked inBatch
    exact (quiet object objectMember kept).2 push member blob blobMember digestEq.symm
  · intro object member
    exact sound.listed object (objectsEq ▸ List.mem_of_mem_drop member)

/-- A committed push refers to blobs that it has found, and those are still held. -/
theorem World.Sound.commit (sound : world.Sound externals) {request : Request}
    {data : StateMachineData} {response : Response}
    (applied : applyRequest externals world.now world.data request = .ok (data, response))
    (pushed : ∀ put, request = .manifest (.putManifest put) →
      ∀ blob ∈ (put.entry externals).referencedBlobs, world.Holds blob) :
    World.Sound externals { world with data := data } where
  counts := sound.counts.applyRequest applied
  live := sound.live.applyRequest applied pushed
  parsed := sound.parsed
  found := sound.found
  listed := sound.listed

theorem World.Sound.commitPush (sound : world.Sound externals) {index : Nat}
    {expected : Option NamespaceEpoch} {absent : Bool}
    (stepped : gcStep externals config world (.commitPush index expected absent) = some next) :
    next.Sound externals := by
  rw [gcStep] at stepped
  cases located : world.pushes[index]? with
  | none =>
    rw [located] at stepped
    cases stepped
  | some push =>
    have member := List.mem_of_getElem? located
    rw [located] at stepped
    simp only at stepped
    split at stepped
    · rename_i allFound
      split at stepped
      · cases stepped
      · rename_i data response applied
        cases stepped
        refine (sound.commit applied fun put isPut blob blobMember => ?_).forget index
        cases isPut
        have asked := mem_digests_of_mem_entry (sound.parsed push member) blobMember
        exact sound.found push member blob
          (by simpa using List.all_eq_true.mp allFound blob asked)
    · cases stepped

theorem World.Sound.receivePush (sound : world.Sound externals)
    {name reference contentType : String} {body : List UInt8}
    (stepped : gcStep externals config world (.receivePush name reference contentType body) =
      some next) : next.Sound externals := by
  rw [gcStep] at stepped
  split at stepped
  · cases stepped
  · rename_i call received
    cases stepped
    refine sound.withPushes fun push member => ?_
    rcases List.mem_cons.mp member with rfl | before
    · refine ⟨?_, fun blob blobMember => by cases blobMember⟩
      rw [PushCall.receive] at received
      split at received
      · cases received
      · split at received
        · cases received
        · rename_i parsed read
          cases received
          exact read
    · exact ⟨sound.parsed push before, sound.found push before⟩

theorem World.Sound.statBlob (sound : world.Sound externals) {index position : Nat}
    (stepped : gcStep externals config world (.statBlob index position) = some next) :
    next.Sound externals := by
  rw [gcStep] at stepped
  cases located : world.pushes[index]? with
  | none =>
    rw [located] at stepped
    cases stepped
  | some push =>
    have member := List.mem_of_getElem? located
    rw [located] at stepped
    simp only at stepped
    cases asked : push.call.digests[position]? with
    | none =>
      rw [asked] at stepped
      cases stepped
    | some digest =>
      rw [asked] at stepped
      simp only at stepped
      split at stepped
      · rename_i present
        cases stepped
        have holds : world.Holds digest :=
          ⟨checked_of_mem_extractReferencedDigests (List.mem_of_getElem? asked), present⟩
        refine sound.withPushes fun other otherMember => ?_
        rcases List.mem_or_eq_of_mem_set otherMember with before | rfl
        · exact ⟨sound.parsed other before, sound.found other before⟩
        · refine ⟨sound.parsed push member, fun blob blobMember => ?_⟩
          rcases List.mem_cons.mp blobMember with rfl | earlier
          · exact holds
          · exact sound.found push member blob earlier
      · cases stepped
        exact sound.forget index

/-- Every step keeps the invariant, a batch if it is quiet. -/
theorem World.Sound.step (sound : world.Sound externals) {label : GcLabel}
    (stepped : gcStep externals config world label = some next)
    (quiet : ∀ failed, label = .deleteBatch true failed → QuietBatch world failed) :
    next.Sound externals := by
  cases label with
  | tick seconds =>
    cases stepped
    exact ⟨sound.counts, sound.live, sound.parsed, sound.found, sound.listed⟩
  | completeUpload digest =>
    rw [gcStep] at stepped
    split at stepped
    · cases stepped
    · cases stepped
      refine sound.grow fun key present => ?_
      rw [Std.ExtTreeMap.mem_insert]
      exact Or.inr present
  | receivePush name reference contentType body => exact sound.receivePush stepped
  | statBlob index position => exact sound.statBlob stepped
  | commitPush index expected absent => exact sound.commitPush stepped
  | dropPush index =>
    cases stepped
    exact sound.forget index
  | commitOther request =>
    rw [gcStep] at stepped
    split at stepped
    · cases stepped
    · rename_i notPush
      split at stepped
      · cases stepped
      · rename_i data response applied
        cases stepped
        refine sound.commit applied fun put isPut => ?_
        rw [isPut] at notPush
        exact absurd rfl notPush
  | startSweep =>
    rw [gcStep] at stepped
    split at stepped
    · cases stepped
      exact sound.withSweep fun object member => by cases member
    · cases stepped
  | listObjects keys =>
    rw [gcStep] at stepped
    split at stepped
    · rename_i startedAt objects listing
      cases stepped
      refine sound.withSweep fun object member => ?_
      rcases List.mem_append.mp member with before | page
      · exact sound.listed object (by rw [listing]; exact before)
      · exact mem_listPage page
    · cases stepped
  | readRefCounts =>
    rw [gcStep] at stepped
    split at stepped
    · rename_i startedAt objects listing
      cases stepped
      refine sound.withSweep fun object member => ?_
      exact sound.listed object (by rw [listing]; exact List.mem_of_mem_filter member)
    · cases stepped
  | readFreshRefCounts =>
    rw [gcStep] at stepped
    split at stepped
    · rename_i candidates selected
      cases stepped
      refine sound.withSweep fun object member => ?_
      split at member
      · cases member
      · exact sound.listed object (by rw [selected]; exact List.mem_of_mem_filter member)
    · cases stepped
  | deleteBatch stillLeader failed =>
    rw [gcStep] at stepped
    split at stepped
    · rename_i toDelete deleting
      split at stepped
      · rename_i leader
        cases stepped
        exact sound.deleteBatch deleting (quiet failed (by rw [leader]))
      · cases stepped
        exact sound.withSweep fun object member => by cases member
    · cases stepped
  | endSweep =>
    rw [gcStep] at stepped
    split at stepped
    · cases stepped
    · cases stepped
      exact sound.withSweep fun object member => by cases member

/-! ### From the second read to the batch -/

theorem unreferredSince_read (history : List GcLabel) (digest : String) :
    UnreferredSince externals config (history ++ [.readFreshRefCounts]) digest := by
  intro before label after _ split unread _
  rcases concat_eq_append_cons_iff.mp split with ⟨_, _, rfl⟩ | ⟨middle, rfl, _⟩
  · exact id
  · exact absurd (List.mem_append_right middle List.mem_cons_self) unread

theorem unreferredSince_concat {history : List GcLabel} {label : GcLabel} {digest : String}
    (before : run (gcStep externals config) World.empty history = some world)
    (unread : label ≠ .readFreshRefCounts) :
    UnreferredSince externals config (history ++ [label]) digest ↔
      UnreferredSince externals config history digest ∧ ¬ CommitsReference world digest label := by
  constructor
  · intro unreferred
    refine ⟨fun earlier step after reached split unreadAfter reaches => ?_, ?_⟩
    · refine unreferred earlier step (after ++ [label]) reached (by rw [split]; simp) ?_ reaches
      rw [List.mem_append, List.mem_singleton, not_or]
      exact ⟨unreadAfter, Ne.symm unread⟩
    · exact unreferred history label [] world rfl List.not_mem_nil before
  · rintro ⟨unreferred, uncommitted⟩ earlier step after reached split unreadAfter reaches
    rcases concat_eq_append_cons_iff.mp split with ⟨_, rfl, rfl⟩ | ⟨middle, rfl, splitBefore⟩
    · cases before.symm.trans reaches
      exact uncommitted
    · refine unreferred earlier step middle reached splitBefore (fun member => ?_) reaches
      exact unreadAfter (List.mem_append_left _ member)

/-- Labels that commit no such push change nothing. -/
theorem UnreferredSince.append {history late : List GcLabel} {digest : String}
    (unreferred : UnreferredSince externals config history digest)
    (uncommitted : ∀ label ∈ late, ∀ world, ¬ CommitsReference world digest label) :
    UnreferredSince externals config (history ++ late) digest := by
  intro before label after world split unread reaches
  rcases List.append_eq_append_iff.mp split with ⟨middle, rfl, lateEq⟩ | ⟨middle, historyEq, rest⟩
  · exact uncommitted label (by rw [lateEq]; simp) world
  · cases middle with
    | nil =>
      rw [List.nil_append] at rest
      exact uncommitted label (by rw [← rest]; exact List.mem_cons_self) world
    | cons head middle =>
      obtain ⟨rfl, afterEq⟩ := List.cons.inj rest
      refine unreferred before label middle world historyEq (fun member => unread ?_) reaches
      rw [afterEq]
      exact List.mem_append_left late member

/-- The objects that the sweep is about to delete have count zero, unless a push that refers to
them was committed since the second read. -/
def ZeroSinceRead (externals : Externals) (config : GcConfig) (history : List GcLabel)
    (world : World) : Prop :=
  ∀ toDelete, world.sweep = .deleting toDelete → ∀ object ∈ toDelete,
    UnreferredSince externals config history object.digest →
      world.data.blobRefCountStr object.digest = 0

/-- A count of zero stays zero when a request is committed that pushes no reference to the blob. -/
theorem World.Sound.zero_commit (sound : world.Sound externals) {request : Request}
    {data : StateMachineData} {response : Response} {digest : String}
    (applied : applyRequest externals world.now world.data request = .ok (data, response))
    (unreferring : ∀ put, request = .manifest (.putManifest put) →
      digest ∉ (put.entry externals).blobKeys)
    (zero : world.data.blobRefCountStr digest = 0) : data.blobRefCountStr digest = 0 := by
  have unreferenced := sound.counts.count_eq_zero_iff.mp zero
  exact (sound.counts.applyRequest applied).count_eq_zero_iff.mpr
    (unreferenced.applyRequest applied unreferring)

/-- The counts of what is left to delete do not grow in a step without a referring push. -/
theorem World.Sound.zero_step (sound : world.Sound externals) {label : GcLabel}
    (stepped : gcStep externals config world label = some next) {toDelete : List GcBlobObject}
    (deleting : next.sweep = .deleting toDelete) (unread : label ≠ .readFreshRefCounts) :
    ∃ earlier, world.sweep = .deleting earlier ∧ ∀ object ∈ toDelete, object ∈ earlier ∧
      (¬ CommitsReference world object.digest label →
        world.data.blobRefCountStr object.digest = 0 →
          next.data.blobRefCountStr object.digest = 0) := by
  have kept {sweep : Sweep} (same : sweep = .deleting toDelete) (data : StateMachineData)
      (zero : ∀ digest, ¬ CommitsReference world digest label →
        world.data.blobRefCountStr digest = 0 → data.blobRefCountStr digest = 0) :
      ∃ earlier, sweep = .deleting earlier ∧ ∀ object ∈ toDelete, object ∈ earlier ∧
        (¬ CommitsReference world object.digest label →
          world.data.blobRefCountStr object.digest = 0 →
            data.blobRefCountStr object.digest = 0) :=
    ⟨toDelete, same, fun object member => ⟨member, zero object.digest⟩⟩
  cases label with
  | tick seconds =>
    cases stepped
    exact kept deleting world.data fun _ _ zero => zero
  | completeUpload digest =>
    rw [gcStep] at stepped
    split at stepped
    · cases stepped
    · cases stepped
      exact kept deleting world.data fun _ _ zero => zero
  | receivePush name reference contentType body =>
    rw [gcStep] at stepped
    split at stepped
    · cases stepped
    · cases stepped
      exact kept deleting world.data fun _ _ zero => zero
  | statBlob index position =>
    rw [gcStep] at stepped
    split at stepped
    · cases stepped
    · split at stepped
      · cases stepped
      · split at stepped
        · cases stepped
          exact kept deleting world.data fun _ _ zero => zero
        · cases stepped
          exact kept deleting world.data fun _ _ zero => zero
  | commitPush index expected absent =>
    rw [gcStep] at stepped
    split at stepped
    · cases stepped
    · rename_i push located
      split at stepped
      · split at stepped
        · cases stepped
        · rename_i data response applied
          cases stepped
          refine kept deleting data fun digest uncommitted => ?_
          refine sound.zero_commit applied fun put isPut refers => uncommitted ?_
          cases isPut
          obtain ⟨blob, member, rfl⟩ := List.mem_map.mp refers
          exact ⟨push, located, blob, mem_digests_of_mem_entry
            (sound.parsed push (List.mem_of_getElem? located)) member, rfl⟩
      · cases stepped
  | dropPush index =>
    cases stepped
    exact kept deleting world.data fun _ _ zero => zero
  | commitOther request =>
    rw [gcStep] at stepped
    split at stepped
    · cases stepped
    · rename_i notPush
      split at stepped
      · cases stepped
      · rename_i data response applied
        cases stepped
        refine kept deleting data fun digest _ => sound.zero_commit applied fun put isPut => ?_
        rw [isPut] at notPush
        exact absurd rfl notPush
  | startSweep | endSweep =>
    rw [gcStep] at stepped
    split at stepped <;> cases stepped
    cases deleting
  | listObjects keys =>
    rw [gcStep] at stepped
    split at stepped
    · cases stepped
      cases deleting
    · cases stepped
  | readRefCounts =>
    rw [gcStep] at stepped
    split at stepped
    · cases stepped
      cases deleting
    · cases stepped
  | readFreshRefCounts => exact absurd rfl unread
  | deleteBatch stillLeader failed =>
    rw [gcStep] at stepped
    split at stepped
    · rename_i earlier wasDeleting
      split at stepped
      · cases stepped
        cases deleting
        exact ⟨earlier, wasDeleting, fun object member =>
          ⟨List.mem_of_mem_drop member, fun _ zero => zero⟩⟩
      · cases stepped
        cases deleting
    · cases stepped

/-- The second read leaves only objects with count zero. -/
theorem zero_read (stepped : gcStep externals config world .readFreshRefCounts = some next)
    {toDelete : List GcBlobObject} (deleting : next.sweep = .deleting toDelete)
    {object : GcBlobObject} (member : object ∈ toDelete) :
    next.data.blobRefCountStr object.digest = 0 := by
  rw [gcStep] at stepped
  split at stepped
  · cases stepped
    simp only at deleting
    split at deleting
    · cases deleting
    · cases deleting
      exact of_decide_eq_true (List.mem_filter.mp member).2
  · cases stepped

theorem ZeroSinceRead.step {history : List GcLabel} {label : GcLabel}
    (holds : ZeroSinceRead externals config history world) (sound : world.Sound externals)
    (before : run (gcStep externals config) World.empty history = some world)
    (stepped : gcStep externals config world label = some next) :
    ZeroSinceRead externals config (history ++ [label]) next := by
  intro toDelete deleting object member unreferred
  by_cases read : label = .readFreshRefCounts
  · subst read
    exact zero_read stepped deleting member
  · obtain ⟨earlier, wasDeleting, each⟩ := sound.zero_step stepped deleting read
    obtain ⟨wasThere, keepsZero⟩ := each object member
    obtain ⟨unreferredBefore, uncommitted⟩ := (unreferredSince_concat before read).mp unreferred
    exact keepsZero uncommitted (holds earlier wasDeleting object wasThere unreferredBefore)

/-- Where no push races with a batch, its blobs are still unreferenced when it is sent. -/
theorem ZeroSinceRead.quiet {history : List GcLabel} {failed : List String}
    (holds : ZeroSinceRead externals config history world)
    (noRace : NoRace externals config history world (.deleteBatch true failed))
    (stepped : gcStep externals config world (.deleteBatch true failed) = some next) :
    QuietBatch world failed := by
  intro object member kept
  obtain ⟨unreferred, unfound⟩ := noRace object member kept
  rw [gcStep] at stepped
  split at stepped
  · rename_i toDelete deleting
    rw [deleting] at member
    exact ⟨holds toDelete deleting object (List.mem_of_mem_take member) unreferred, unfound⟩
  · cases stepped

end Steps

/-- In every run in which no push races with a batch, every state reached holds all blobs that
its committed manifests refer to. -/
theorem sweep_keeps_live_blobs (externals : Externals) (config : GcConfig)
    {labels : List GcLabel}
    (noRace : AlongHistory (gcStep externals config) (NoRace externals config) [] World.empty
      labels) (count : Nat) {world : World}
    (reached : run (gcStep externals config) World.empty (labels.take count) = some world)
    {name digest : String} {repo : BTreeMap String ManifestEntry} {entry : ManifestEntry}
    (repoFound : world.data.manifests[name]? = some repo)
    (entryFound : repo[digest]? = some entry) {blob : Digest}
    (member : blob ∈ entry.referencedBlobs) :
    blob.s3Key ∈ world.objects := by
  have invariant : world.Sound externals ∧
      ZeroSinceRead externals config ([] ++ labels.take count) world := by
    refine run_invariant_alongHistory (fun history world => world.Sound externals ∧
      ZeroSinceRead externals config history world) ?_ rfl reached (alongHistory_take noRace count)
      ⟨World.sound_empty externals, nofun⟩
    intro history state label next before stepped noRaceHere ⟨sound, zero⟩
    refine ⟨sound.step stepped ?_, zero.step sound before stepped⟩
    rintro failed rfl
    exact zero.quiet noRaceHere stepped
  exact (invariant.1.live name repo digest entry repoFound entryFound blob member).2

/-! ### A lost layer -/

def sampleLayer : Digest :=
  ⟨"sha256", String.ofList (List.replicate 64 'b')⟩

/-- A manifest with one layer. -/
def sampleManifestBody : List UInt8 :=
  Text.utf8 ("\x7b\"layers\":[\x7b\"digest\":\"".toList ++ sampleLayer.toStr.toList ++
    "\"\x7d]\x7d".toList)

/-- Functions of other packages for a run in which this manifest is pushed; the hash is the one of
its body. -/
def sampleGcExternals : Externals :=
  { sampleExternals with
    fromSlice := fun _ =>
      some (.object [("layers", .array [.object [("digest", .string sampleLayer.toStr)]])])
    sha256 := fun _ =>
      #v[0xfc, 0x3d, 0x00, 0x33, 0xec, 0xe3, 0xca, 0x98, 0xfa, 0x5b, 0xea, 0xb6, 0x9b, 0x2f, 0x6a,
        0x66, 0x9f, 0x2d, 0xc0, 0xde, 0xf7, 0x78, 0xd2, 0x38, 0x03, 0xc5, 0x03, 0x41, 0x05, 0x5c,
        0xbb, 0x85] }

def sampleManifestDigest : String :=
  "sha256:fc3d0033ece3ca98fa5beab69b2f6a669f2dc0def778d23803c50341055cbb85"

def sampleGcConfig : GcConfig where
  gracePeriodSecs := 3600
  dryRun := false

def samplePushLabels : List GcLabel :=
  [.receivePush "users/alice/app" "latest" "application/vnd.oci.image.manifest.v1+json"
      sampleManifestBody,
    .statBlob 0 0, .commitPush 0 none false]

/-- A sweep over the objects, up to its first batch. -/
def sampleSweepLabels (keys : List String) : List GcLabel :=
  [.startSweep, .listObjects keys, .readRefCounts, .readFreshRefCounts]

/-- The layer was uploaded long ago and nothing refers to it. After the sweep's second read a push
finds the layer and commits; the batch then removes the layer of the committed manifest. -/
theorem sweep_removes_live_blob :
    ∃ world repo entry blob, run (gcStep sampleGcExternals sampleGcConfig) World.empty
        (.completeUpload sampleLayer.toStr :: .tick 3600 ::
          sampleSweepLabels [sampleLayer.s3Key] ++ samplePushLabels ++
          [GcLabel.deleteBatch true []]) = some world ∧
      world.data.manifests["users/alice/app"]? = some repo ∧
      repo[sampleManifestDigest]? = some entry ∧ blob ∈ entry.referencedBlobs ∧
      blob.s3Key ∉ world.objects := by
  have checked : (run (gcStep sampleGcExternals sampleGcConfig) World.empty
      (.completeUpload sampleLayer.toStr :: .tick 3600 ::
        sampleSweepLabels [sampleLayer.s3Key] ++ samplePushLabels ++
        [GcLabel.deleteBatch true []])).any (fun world =>
        (world.data.manifests["users/alice/app"]?).any fun repo =>
          (repo[sampleManifestDigest]?).any fun entry =>
            entry.referencedBlobs.any fun blob => blob.s3Key ∉ world.objects) = true := by
    decide +kernel
  obtain ⟨world, reached, checked⟩ := (Option.any_eq_true ..).mp checked
  obtain ⟨repo, repoFound, checked⟩ := (Option.any_eq_true ..).mp checked
  obtain ⟨entry, entryFound, checked⟩ := (Option.any_eq_true ..).mp checked
  obtain ⟨blob, member, absent⟩ := List.any_eq_true.mp checked
  exact ⟨world, repo, entry, blob, reached, repoFound, entryFound, member, of_decide_eq_true absent⟩

/-! ### A layer that is kept -/

/-- A blob that nothing refers to. -/
def sampleOrphan : Digest :=
  ⟨"sha256", String.ofList (List.replicate 64 'c')⟩

/-- The layer is pushed; later a sweep lists both blobs and reads the counts twice. -/
def sampleReadLabels : List GcLabel :=
  .completeUpload sampleLayer.toStr :: .completeUpload sampleOrphan.toStr :: samplePushLabels ++
    [.tick 3600, .startSweep, .listObjects [sampleLayer.s3Key, sampleOrphan.s3Key],
      .readRefCounts] ++ [.readFreshRefCounts]

/-- Another push of the manifest finds the layer. -/
def sampleLateLabels : List GcLabel :=
  [.receivePush "users/alice/app" "v2" "application/vnd.oci.image.manifest.v1+json"
      sampleManifestBody, .statBlob 0 0]

theorem sampleLate_unreferred (digest : String) :
    UnreferredSince sampleGcExternals sampleGcConfig (sampleReadLabels ++ sampleLateLabels)
      digest := by
  refine (unreferredSince_read _ digest).append fun label member world => ?_
  rcases List.mem_pair.mp member with rfl | rfl
  · exact fun commits => commits
  · exact fun commits => commits

/-- The batch is sent, and the push commits. -/
def sampleBatchLabels : List GcLabel :=
  [.deleteBatch true [], .commitPush 0 none false]

theorem sampleBatch_noRace :
    AlongHistory (gcStep sampleGcExternals sampleGcConfig)
      (NoRace sampleGcExternals sampleGcConfig) [] World.empty
      (sampleReadLabels ++ sampleLateLabels ++ sampleBatchLabels) := by
  have racing : (run (gcStep sampleGcExternals sampleGcConfig) World.empty
      (sampleReadLabels ++ sampleLateLabels)).all (fun world =>
        (world.sweep.objects.all fun object => object.digest = sampleOrphan.toStr) &&
          world.pushes.all fun push =>
            push.found.all fun blob => blob.toStr ≠ sampleOrphan.toStr) = true := by
    decide +kernel
  refine alongHistory_append (alongHistory_of_forall ?_) fun middle reached =>
    ⟨?_, fun _ _ => ⟨trivial, fun _ _ => trivial⟩⟩
  · simp [sampleReadLabels, sampleLateLabels, samplePushLabels, NoRace]
  · rw [reached, Option.all_some, Bool.and_eq_true, List.all_eq_true, List.all_eq_true]
      at racing
    intro object member _
    rw [of_decide_eq_true (racing.1 object (List.mem_of_mem_take member))]
    refine ⟨sampleLate_unreferred _, fun push inFlight blob found => ?_⟩
    exact of_decide_eq_true (List.all_eq_true.mp (racing.2 push inFlight) blob found)

/-- The batch deletes the orphan and keeps the layer. -/
theorem sweep_keeps_sampleLayer :
    ∃ world : World, run (gcStep sampleGcExternals sampleGcConfig) World.empty
        ((sampleReadLabels ++ sampleLateLabels ++ sampleBatchLabels).take 14) = some world ∧
      sampleLayer.s3Key ∈ world.objects ∧ sampleOrphan.s3Key ∉ world.objects := by
  have checked : (run (gcStep sampleGcExternals sampleGcConfig) World.empty
      ((sampleReadLabels ++ sampleLateLabels ++ sampleBatchLabels).take 14)).any (fun world =>
        sampleOrphan.s3Key ∉ world.objects ∧
          ((world.data.manifests["users/alice/app"]?).any fun repo =>
            (repo[sampleManifestDigest]?).any fun entry =>
              sampleLayer ∈ entry.referencedBlobs) = true) = true := by
    decide +kernel
  obtain ⟨world, reached, checked⟩ := (Option.any_eq_true ..).mp checked
  obtain ⟨deleted, checked⟩ := of_decide_eq_true checked
  obtain ⟨repo, repoFound, checked⟩ := (Option.any_eq_true ..).mp checked
  obtain ⟨entry, entryFound, member⟩ := (Option.any_eq_true ..).mp checked
  exact ⟨world, reached, sweep_keeps_live_blobs sampleGcExternals sampleGcConfig
    sampleBatch_noRace 14 reached repoFound entryFound (of_decide_eq_true member), deleted⟩

end Layerhouse
