/-
This file proves that a snapshot is transparent. A replica that installs one
fills in the fields that older writers left out: it re-extracts references,
sorts and deduplicates them, replaces sizes and times that are zero, and counts
all references again. The entries that today's writers make have nothing left to
fill in, and their counts are exact, so a restored replica holds the state the
snapshot was taken of and goes on like the replica it came from.
-/

import Layerhouse.Raft.BlobRefs
import Layerhouse.Raft.Determinism

namespace Layerhouse

/-! ### References -/

theorem sortDedupDigests_idempotent (digests : List Digest) :
    sortDedupDigests (sortDedupDigests digests) = sortDedupDigests digests := by
  have sorted := (sorted_sortDedupDigests digests).insertionSort_eq
  calc sortDedupDigests (sortDedupDigests digests)
      = (sortDedupDigests digests).destutter fun first second => first.toStr ≠ second.toStr :=
        congrArg _ sorted
    _ = sortDedupDigests digests := List.destutter_idem _ _

theorem sortDedupDigests_eq_nil {digests : List Digest} :
    sortDedupDigests digests = [] ↔ digests = [] := by
  rw [sortDedupDigests, List.destutter_eq_nil, ← List.length_eq_zero_iff,
    List.length_insertionSort, List.length_eq_zero_iff]

/-- The references that the state machine stores for a body: the stated ones, or those of the
parsed body when none is stated, sorted and without repetitions. -/
def settledReferences (externals : Externals) (body : List UInt8) (stated : List Digest) :
    List Digest :=
  sortDedupDigests <|
    if stated.isEmpty then
      match externals.fromSlice body with
      | some value => extractReferencedDigests value
      | none => stated
    else stated

theorem settledReferences_of_ne_nil (externals : Externals) (body : List UInt8)
    {stated : List Digest} (some : stated ≠ []) :
    settledReferences externals body stated = sortDedupDigests stated := by
  rw [settledReferences, if_neg]
  rwa [List.isEmpty_iff]

/-- Settled references stay as they are: an empty list comes from a body without references. -/
theorem settledReferences_idempotent (externals : Externals) (body : List UInt8)
    (stated : List Digest) :
    settledReferences externals body (settledReferences externals body stated) =
      settledReferences externals body stated := by
  by_cases settled : settledReferences externals body stated = []
  · by_cases none : stated = []
    · rw [settled, none.symm]
      exact settled.trans none.symm
    · rw [settledReferences_of_ne_nil externals body none] at settled
      exact absurd (sortDedupDigests_eq_nil.mp settled) none
  · rw [settledReferences_of_ne_nil externals body settled, settledReferences,
      sortDedupDigests_idempotent]

/-! ### Entries -/

/-- A restore changes nothing in an entry each of whose fields is already what it would be filled
in with. -/
theorem normalizeEntry_eq_self {externals : Externals} {now : Nat} {entry : ManifestEntry}
    (references : settledReferences externals entry.body entry.referencedBlobs =
      entry.referencedBlobs)
    (manifestSize : entry.manifestSizeBytes = 0 → entry.body.length = 0)
    (storedSize : entry.storedSizeBytes = 0 →
      ∀ value, externals.fromSlice entry.body = some value → storedSizeBytes value = 0)
    (created : entry.createdAt = 0 → now = 0)
    (modified : entry.lastModified = 0 → entry.createdAt = 0) :
    normalizeEntry externals now entry = entry := by
  obtain ⟨digest, contentType, body, referencedBlobs, subject, artifactType, annotations,
    stored, size, createdAt, lastModified, configSummary⟩ := entry
  have sameCreated : (if createdAt = 0 then now else createdAt) = createdAt :=
    ite_eq_right_iff.mpr fun zero => (created zero).trans zero.symm
  simp only [normalizeEntry, ManifestEntry.mk.injEq, true_and, and_true]
  refine ⟨references, ?_, ?_, sameCreated, ?_⟩
  · refine ite_eq_right_iff.mpr fun zero => ?_
    obtain unparsed | ⟨value, parsed⟩ := Option.eq_none_or_eq_some (externals.fromSlice body)
    · rw [unparsed]
    · rw [parsed]
      exact (storedSize zero value parsed).trans zero.symm
  · exact ite_eq_right_iff.mpr fun zero => (manifestSize zero).trans zero.symm
  · rw [sameCreated]
    exact ite_eq_right_iff.mpr fun zero => (modified zero).trans zero.symm

/-- Restoring an entry a second time at the same clock reading changes nothing. -/
theorem normalizeEntry_idempotent (externals : Externals) (now : Nat) (entry : ManifestEntry) :
    normalizeEntry externals now (normalizeEntry externals now entry) =
      normalizeEntry externals now entry := by
  -- a field that is still zero was filled in with a zero
  have filled : ∀ {value default : Nat}, (if value = 0 then default else value) = 0 →
      default = 0 := by
    intro value default zero
    split at zero
    · exact zero
    · contradiction
  refine normalizeEntry_eq_self (settledReferences_idempotent externals entry.body _)
    filled (fun zero value parsed => ?_) filled filled
  change externals.fromSlice entry.body = some value at parsed
  simp only [normalizeEntry, parsed] at zero
  exact filled zero

/-! ### Writers -/

/-- The write of an entry: `put_manifest_with_expected_namespace`. -/
def putManifestWithExpectedNamespace (name reference : String) (entry : ManifestEntry)
    (expectedNamespace : Option NamespaceEpoch) (requireReferenceAbsent : Bool) : PutManifest where
  name := name
  expectedNamespace := expectedNamespace
  reference := reference
  requireReferenceAbsent := requireReferenceAbsent
  digest := entry.digest.toStr
  contentType := entry.contentType
  body := entry.body
  subject := entry.subject.map Digest.toStr
  artifactType := entry.artifactType
  annotations := entry.annotations
  storedSizeBytes := entry.storedSizeBytes
  manifestSizeBytes := entry.manifestSizeBytes
  createdAt := entry.createdAt
  lastModified := entry.lastModified
  configSummary := entry.configSummary
  referencedBlobs := entry.referencedBlobs.map Digest.toStr

/-- The entry is made by `from_parsed_json` from what its own body parses to, and its times are
not zero. -/
structure ManifestEntry.FromBody (externals : Externals) (entry : ManifestEntry) : Prop where
  made : ∃ parsed now, externals.fromSlice entry.body = some parsed ∧
    entry = { ManifestEntry.fromParsedJson externals.sha256 now parsed entry.contentType entry.body
      entry.referencedBlobs with createdAt := entry.createdAt, lastModified := entry.lastModified }
  created : entry.createdAt ≠ 0
  modified : entry.lastModified ≠ 0

/-- A request that pushes a manifest writes an entry made from its body. -/
def WritesFromBody (externals : Externals) : Request → Prop
  | .manifest (.putManifest put) => ∃ name reference entry expected absent,
      put = putManifestWithExpectedNamespace name reference entry expected absent ∧
        entry.FromBody externals
  | _ => True

/-- Restoring the entry changes nothing, whatever the clock shows. -/
def ManifestEntry.Settled (externals : Externals) (entry : ManifestEntry) : Prop :=
  ∀ now, normalizeEntry externals now entry = entry

/-- What the state machine stores for an entry made from its body is settled. -/
theorem ManifestEntry.FromBody.settled {externals : Externals} {entry : ManifestEntry}
    (fromBody : entry.FromBody externals) (name reference : String)
    (expected : Option NamespaceEpoch) (absent : Bool) :
    ((putManifestWithExpectedNamespace name reference entry expected absent).entry
      externals).Settled externals := by
  intro now
  obtain ⟨parsed, _, parses, made⟩ := fromBody.made
  refine normalizeEntry_eq_self (settledReferences_idempotent externals entry.body _)
    (fun zero => ?_) (fun zero value again => ?_) (fun zero => absurd zero fromBody.created)
    (fun zero => absurd zero fromBody.modified)
  · have size : entry.manifestSizeBytes = entry.body.length := by rw [made]; rfl
    exact size.symm.trans zero
  · have size : entry.storedSizeBytes = Layerhouse.storedSizeBytes parsed := by rw [made]; rfl
    obtain rfl : parsed = value := Option.some.inj (parses.symm.trans again)
    exact size.symm.trans zero

/-! ### Restored states -/

/-- Restoring settled entries with exact counts changes nothing. -/
theorem normalizeRestoredMetadata_of_settled {externals : Externals} {data : StateMachineData}
    {now : Nat}
    (settled : AllEntries (fun entry => normalizeEntry externals now entry = entry) data)
    (counted : BlobRefsExact data) : data.normalizeRestoredMetadata externals now = data := by
  have sameManifests : BTreeMap.filterMap (fun _ repo => some (BTreeMap.filterMap
      (fun _ entry => some (normalizeEntry externals now entry)) repo)) data.manifests =
      data.manifests := by
    refine BTreeMap.ext_getElem? fun name => ?_
    rw [BTreeMap.getElem?_filterMap]
    obtain missing | ⟨repo, found⟩ := Option.eq_none_or_eq_some data.manifests[name]?
    · rw [missing, Option.bind_none]
    · rw [found, Option.bind_some]
      refine congrArg some (BTreeMap.ext_getElem? fun digest => ?_)
      rw [BTreeMap.getElem?_filterMap]
      obtain absent | ⟨entry, stored⟩ := Option.eq_none_or_eq_some repo[digest]?
      · rw [absent, Option.bind_none]
      · rw [stored, Option.bind_some, settled name repo digest entry found stored]
  rw [StateMachineData.normalizeRestoredMetadata, sameManifests]
  exact counted.rebuild_eq

theorem normalizeRestoredMetadata_idempotent (externals : Externals) (now : Nat)
    (data : StateMachineData) :
    (data.normalizeRestoredMetadata externals now).normalizeRestoredMetadata externals now =
      data.normalizeRestoredMetadata externals now := by
  refine normalizeRestoredMetadata_of_settled (fun name repo digest entry found stored => ?_)
    (blobRefsExact_normalize externals now data)
  simp only [StateMachineData.normalizeRestoredMetadata, StateMachineData.rebuildBlobRefCounts,
    BTreeMap.getElem?_filterMap] at found
  obtain ⟨before, _, restored⟩ := Option.bind_eq_some_iff.mp found
  obtain rfl := Option.some.inj restored
  rw [BTreeMap.getElem?_filterMap] at stored
  obtain ⟨original, _, normalized⟩ := Option.bind_eq_some_iff.mp stored
  obtain rfl := Option.some.inj normalized
  exact normalizeEntry_idempotent externals now original

/-- Installing the snapshot of a state that a restore leaves alone yields that state. -/
theorem installSnapshot_buildSnapshot {externals : Externals} {codec : SnapshotCodec}
    {data : StateMachineData} {now : Nat}
    (settled : data.normalizeRestoredMetadata externals now = data)
    (roundTrip : codec.fromSlice (codec.toVec data) = some data) (machine : StateMachine) :
    installSnapshot externals codec now machine (buildSnapshot codec data).1
        (buildSnapshot codec data).2 =
      (⟨data, some (buildSnapshot codec data)⟩, .ok ()) := by
  have decoded : decodeSnapshot codec (buildSnapshot codec data).2 = .ok data := by
    have version : u32FromLeBytes 1 0 0 0 = snapshotVersion := by decide
    simp only [buildSnapshot, List.cons_append, List.nil_append, decodeSnapshot, version, if_true,
      roundTrip]
  rw [installSnapshot, decoded]
  simp only [settled]
  rfl

/-- In every state reached by applied requests whose pushes write entries made from their bodies,
every entry is settled and the counts are exact. -/
theorem requestStep_settled {externals : Externals} {labels : List (Nat × Request)}
    {data : StateMachineData} (written : ∀ label ∈ labels, WritesFromBody externals label.2)
    (reached : run (requestStep externals) StateMachineData.empty labels = some data) :
    AllEntries (ManifestEntry.Settled externals) data ∧ BlobRefsExact data := by
  have along : Along (requestStep externals)
      (fun _ label => WritesFromBody externals label.2) StateMachineData.empty labels :=
    along_of_forall fun label member _ => written label member
  refine run_invariant_along (fun state : StateMachineData =>
    AllEntries (ManifestEntry.Settled externals) state ∧ BlobRefsExact state) ?_ reached along
    ⟨fun name repo digest entry found _ => ?_, blobRefsExact_empty⟩
  · intro state label next stepped writes holds
    obtain ⟨response, applied⟩ := requestStep_eq_some.mp stepped
    refine ⟨holds.1.applyRequest applied fun put pushes => ?_, holds.2.applyRequest applied⟩
    rw [pushes] at writes
    obtain ⟨name, reference, entry, expected, absent, rfl, fromBody⟩ := writes
    exact fromBody.settled name reference expected absent
  · have absent : (∅ : BTreeMap String (BTreeMap String ManifestEntry))[name]? = none :=
      BTreeMap.getElem?_empty name
    exact absurd (absent.symm.trans found) (Option.some_ne_none repo).symm

/-- A state that is reached by applied requests whose pushes write entries made from their bodies
is left unchanged by a restore. So installing its snapshot, read back as it was written, yields
the state itself on every machine, and a log of clock-free requests ends in equal data with equal
responses on the restored and on the original replica. Restoring any state twice at one clock
reading is restoring it once. -/
theorem snapshot_is_transparent (externals : Externals) {labels : List (Nat × Request)}
    {data : StateMachineData} (written : ∀ label ∈ labels, WritesFromBody externals label.2)
    (reached : run (requestStep externals) StateMachineData.empty labels = some data) :
    (∀ now, data.normalizeRestoredMetadata externals now = data) ∧
    (∀ codec : SnapshotCodec, codec.fromSlice (codec.toVec data) = some data →
      ∀ now machine,
        let installed := installSnapshot externals codec now machine
          (buildSnapshot codec data).1 (buildSnapshot codec data).2
        installed = (⟨data, some (buildSnapshot codec data)⟩, .ok ()) ∧
        ∀ log, Along (logStep externals) ClockFree data log →
          ∀ first second, applyLog externals first installed.1.data log =
            applyLog externals second data log) ∧
    ∀ now (other : StateMachineData),
      (other.normalizeRestoredMetadata externals now).normalizeRestoredMetadata externals now =
        other.normalizeRestoredMetadata externals now := by
  obtain ⟨settled, counted⟩ := requestStep_settled written reached
  have unchanged : ∀ now, data.normalizeRestoredMetadata externals now = data := fun now =>
    normalizeRestoredMetadata_of_settled
      (fun name repo digest entry found stored => settled name repo digest entry found stored now)
      counted
  refine ⟨unchanged, fun codec roundTrip now machine => ?_,
    normalizeRestoredMetadata_idempotent externals⟩
  have installed := installSnapshot_buildSnapshot (unchanged now) roundTrip machine
  refine ⟨installed, fun log free first second => ?_⟩
  rw [installed]
  exact applyLog_of_clockFree externals free first second

/-- The push of the empty object by the owner of a namespace. -/
def sampleWrites : List (Nat × Request) :=
  [(1, sampleClaim "alice" "first" false),
    (2, .manifest (.putManifest (putManifestWithExpectedNamespace "alice/app" "v1"
      (ManifestEntry.fromParsedJson emptyObjectExternals.sha256 2 (.object [])
        "application/vnd.oci.image.manifest.v1+json" [0x7b, 0x7d] []) (some ⟨"alice", 1⟩) true)))]

theorem snapshot_is_transparent_sample :
    ∃ data, run (requestStep emptyObjectExternals) StateMachineData.empty sampleWrites =
        some data ∧
      (data.getManifest "alice/app" "v1").isSome = true ∧
      data.normalizeRestoredMetadata emptyObjectExternals 3 = data ∧
      ∃ codec : SnapshotCodec, codec.fromSlice (codec.toVec data) = some data ∧
        (installSnapshot emptyObjectExternals codec 3 ⟨StateMachineData.empty, none⟩
          (buildSnapshot codec data).1 (buildSnapshot codec data).2).1.data = data := by
  have reached : (run (requestStep emptyObjectExternals) StateMachineData.empty sampleWrites).any
      (fun data => (data.getManifest "alice/app" "v1").isSome) = true := by decide +kernel
  obtain ⟨data, reached, pushed⟩ := (Option.any_eq_true ..).mp reached
  have written : ∀ label ∈ sampleWrites, WritesFromBody emptyObjectExternals label.2 := by
    intro label member
    rcases List.mem_cons.mp member with rfl | member
    · trivial
    · obtain rfl := List.mem_singleton.mp member
      exact ⟨_, _, _, _, _, rfl, ⟨.object [], 2, rfl, rfl⟩, by decide, by decide⟩
  obtain ⟨unchanged, restored, _⟩ := snapshot_is_transparent emptyObjectExternals written reached
  let codec : SnapshotCodec := ⟨fun _ => [], fun _ => some data, fun _ => ""⟩
  refine ⟨data, reached, pushed, unchanged 3, codec, rfl, ?_⟩
  exact congrArg (·.1.data) (restored codec rfl 3 ⟨StateMachineData.empty, none⟩).1

end Layerhouse
