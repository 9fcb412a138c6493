/-
This file is one node between its snapshots: openraft builds a snapshot and purges the log
behind it, while the upload loop of `main.rs` serializes the state of that moment and
writes it to `latest.bin`. A restart starts from `latest.bin`, with the log that is left.

Nothing makes the purge wait for the upload, and an upload that was under way when another
one was made may arrive last. So the log may be purged further than `latest.bin` goes. The
file proves that this happens in no other way, and that there is no gap between the
restored state and the log otherwise.
-/

import Layerhouse.Raft.AbstractLog

namespace Layerhouse

/-! ### One node -/

/-- A node with its log store, the last log ids of its state machine, of the snapshot that was
built and of `latest.bin`, and the uploads that are under way. -/
structure SnapshottingNode where
  store : RedbLogStore
  applied : Option LogId
  snapshot : Option LogId
  uploads : List (Option LogId)
  latestBin : Option LogId

namespace SnapshottingNode

def new : SnapshottingNode where
  store := .new
  applied := none
  snapshot := none
  uploads := []
  latestBin := none

/-- The id up to which openraft purges the log: all that the snapshot covers but the last
entries. -/
def purgeUpTo (node : SnapshottingNode) : Option LogId :=
  let stop := nextIndex node.snapshot - maxInSnapshotLogToKeep
  if nextIndex node.store.lastPurged < stop then node.store.logIdAt (stop - 1) else none

/-- The log store that openraft starts with: the restored vote is seeded, and a log that ends
before the restored state is purged. -/
def restartedStore (nodeId : Nat) (node : SnapshottingNode) : RedbLogStore :=
  match node.latestBin with
  | none => node.store
  | some lastApplied =>
    let store := node.store.seedVoteSync (seededVote nodeId lastApplied)
    if notBehind (some lastApplied) store.getLogStateSync.lastLogId then store
    else store.purgeSync lastApplied

end SnapshottingNode

inductive SnapshotUploadLabel where
  | append (entries : List LogEntry)
  | apply (count : Nat)
  | buildSnapshot
  | purge
  | upload
  | arrive (position : Nat)
  | restart

/-- An upload, of the upload loop or of the shutdown path, serializes the state of its moment. It
arrives in `latest.bin` at any later time or never, also after a crash. -/
def snapshotUploadStep (nodeId : Nat) (node : SnapshottingNode) :
    SnapshotUploadLabel → Option SnapshottingNode
  | .append entries =>
    if ContiguousFrom (nextIndex node.store.getLogStateSync.lastLogId) entries ∧
        ∀ entry ∈ entries, entry.logId.index < 2 ^ 64 then
      some { node with store := node.store.appendSync entries }
    else none
  | .apply count =>
    let start := nextIndex node.applied
    let entries := node.store.getEntriesSync start (start + count)
    if entries.length = count then
      some { node with applied := (lastLogId entries).or node.applied }
    else none
  | .buildSnapshot => some { node with snapshot := node.applied }
  | .purge => node.purgeUpTo.map fun logId => { node with store := node.store.purgeSync logId }
  | .upload => some { node with uploads := node.applied :: node.uploads }
  | .arrive position =>
    node.uploads[position]?.map fun lastApplied =>
      { node with
        uploads := node.uploads.eraseIdx position
        latestBin := lastApplied }
  | .restart =>
    some { node with
      store := node.restartedStore nodeId
      applied := node.latestBin
      snapshot := node.latestBin }

/-! ### What is asked of the log -/

namespace SnapshottingNode

/-- The index of the last entry in `latest.bin`. -/
def latestIndex (lastApplied : Option LogId) : Nat :=
  (lastApplied.map (·.index)).getD 0

/-- The log is not purged further than `latest.bin` goes. -/
def Recoverable (node : SnapshottingNode) : Prop :=
  ∀ purged ∈ node.store.lastPurged, purged.index ≤ latestIndex node.latestBin

/-- The log has every entry after the state in `latest.bin`. -/
def HasNoGap (node : SnapshottingNode) : Prop :=
  ∀ index, nextIndex node.latestBin ≤ index →
    index < nextIndex node.store.getLogStateSync.lastLogId →
      ∃ entry, node.store.logs[index]? = some entry

/-- A purge finds in `latest.bin` all that the built snapshot covers, but for the entries that are
kept; and an upload that arrives is not older than what was purged. -/
def UploadsFirst (node : SnapshottingNode) : SnapshotUploadLabel → Prop
  | .purge => ∀ built ∈ node.snapshot,
      built.index ≤ latestIndex node.latestBin + maxInSnapshotLogToKeep
  | .arrive position => ∀ lastApplied ∈ node.uploads[position]?, ∀ purged ∈ node.store.lastPurged,
      purged.index ≤ latestIndex lastApplied
  | .append _ | .apply _ | .buildSnapshot | .upload | .restart => True

instance decidableUploadsFirst (node : SnapshottingNode) (label : SnapshotUploadLabel) :
    Decidable (node.UploadsFirst label) :=
  match label with
  | .purge => inferInstanceAs (Decidable (∀ built ∈ node.snapshot,
      built.index ≤ latestIndex node.latestBin + maxInSnapshotLogToKeep))
  | .arrive position => inferInstanceAs (Decidable (∀ lastApplied ∈ node.uploads[position]?,
      ∀ purged ∈ node.store.lastPurged, purged.index ≤ latestIndex lastApplied))
  | .append _ | .apply _ | .buildSnapshot | .upload | .restart => isTrue trivial

/-! ### One step -/

variable {nodeId : Nat} {node next : SnapshottingNode}

/-- The log store holds a log, of which no more is purged than `latest.bin` has. -/
structure Sound (node : SnapshottingNode) : Prop where
  recoverable : node.Recoverable
  refines : ∃ log, node.store.Refines log

theorem sound_new : Sound .new where
  recoverable := fun _ impossible => by cases impossible
  refines := ⟨.new, .of_new⟩

/-- The id that a purge stops at is the one of its index. -/
theorem index_of_purgeUpTo {log : AbstractLog} (refines : node.store.Refines log) {logId : LogId}
    (upTo : node.purgeUpTo = some logId) :
    ∃ built ∈ node.snapshot, logId.index + maxInSnapshotLogToKeep = built.index ∧
      nextIndex log.lastPurged ≤ logId.index := by
  rw [purgeUpTo] at upTo
  split at upTo
  · rename_i more
    obtain ⟨entry, lookup, rfl, _⟩ := refines.represents.logIdAt log.indexed_whole upTo
    have index := log.indexed_whole _ entry lookup
    rw [refines.lastPurged] at more
    cases built : node.snapshot with
    | none =>
      rw [built, nextIndex, Nat.zero_sub] at more
      exact absurd more (Nat.not_lt_zero _)
    | some last =>
      rw [built] at more index
      simp only [nextIndex] at index more ⊢
      exact ⟨last, rfl, by omega, by omega⟩
  · cases upTo

theorem restartedStore_refines {log : AbstractLog} (refines : node.store.Refines log)
    (recoverable : node.Recoverable) : ∃ log, (node.restartedStore nodeId).Refines log := by
  rw [restartedStore]
  cases found : node.latestBin with
  | none => exact ⟨log, refines⟩
  | some lastApplied =>
    have seeded := refines.seedVote (seededVote nodeId lastApplied)
    simp only
    split
    · exact ⟨_, seeded⟩
    · have further : nextIndex log.lastPurged ≤ nextIndex (some lastApplied) := by
        refine AbstractLog.nextIndex_le_of_purged fun purged known => ?_
        have within := recoverable purged (refines.lastPurged.trans known)
        rw [found] at within
        exact within
      exact ⟨_, seeded.purge further⟩

theorem restartedStore_lastPurged {purged : LogId}
    (known : (node.restartedStore nodeId).lastPurged = some purged) :
    node.store.lastPurged = some purged ∨ node.latestBin = some purged := by
  have seeded : ∀ vote, (node.store.seedVoteSync vote).lastPurged = node.store.lastPurged := by
    intro vote
    rw [RedbLogStore.seedVoteSync]
    split <;> rfl
  rw [restartedStore] at known
  cases found : node.latestBin with
  | none =>
    rw [found] at known
    exact Or.inl known
  | some lastApplied =>
    rw [found] at known
    simp only at known
    split at known
    · rw [seeded] at known
      exact Or.inl known
    · cases known
      exact Or.inr rfl

/-- A step leaves the log recoverable exactly if a purge or an upload comes when it should. -/
theorem Sound.recoverable_iff (holds : node.Sound) {label : SnapshotUploadLabel}
    (stepped : snapshotUploadStep nodeId node label = some next) :
    next.Recoverable ↔ node.UploadsFirst label := by
  have refl : ∀ other : SnapshottingNode, other.store.lastPurged = node.store.lastPurged →
      other.latestBin = node.latestBin → other.Recoverable := by
    intro other samePurged sameBin purged known
    rw [sameBin]
    exact holds.recoverable purged (samePurged.symm.trans known)
  cases label with
  | append entries =>
    simp only [snapshotUploadStep] at stepped
    split at stepped
    · cases stepped
      exact iff_of_true (refl _ rfl rfl) trivial
    · cases stepped
  | apply count =>
    simp only [snapshotUploadStep] at stepped
    split at stepped
    · cases stepped
      exact iff_of_true (refl _ rfl rfl) trivial
    · cases stepped
  | buildSnapshot =>
    cases stepped
    exact iff_of_true (refl _ rfl rfl) trivial
  | purge =>
    obtain ⟨logId, upTo, rfl⟩ := Option.map_eq_some_iff.mp stepped
    obtain ⟨log, refines⟩ := holds.refines
    obtain ⟨built, snapshot, index, _⟩ := index_of_purgeUpTo refines upTo
    constructor
    · intro recoverable other found
      cases snapshot.symm.trans found
      have within : logId.index ≤ latestIndex node.latestBin := recoverable logId rfl
      omega
    · intro uploaded purged known
      cases known
      have within := uploaded built snapshot
      show logId.index ≤ latestIndex node.latestBin
      omega
  | upload =>
    cases stepped
    exact iff_of_true (refl _ rfl rfl) trivial
  | arrive position =>
    obtain ⟨lastApplied, found, rfl⟩ := Option.map_eq_some_iff.mp stepped
    constructor
    · intro recoverable other same purged known
      cases found.symm.trans same
      exact recoverable purged known
    · intro first purged known
      exact first lastApplied found purged known
  | restart =>
    cases stepped
    refine iff_of_true (fun purged known => ?_) trivial
    rcases restartedStore_lastPurged known with kept | restored
    · exact holds.recoverable purged kept
    · show purged.index ≤ latestIndex node.latestBin
      rw [restored]
      exact le_rfl

theorem Sound.step (holds : node.Sound) {label : SnapshotUploadLabel}
    (stepped : snapshotUploadStep nodeId node label = some next)
    (recoverable : next.Recoverable) : next.Sound := by
  refine ⟨recoverable, ?_⟩
  obtain ⟨log, refines⟩ := holds.refines
  cases label with
  | append entries =>
    simp only [snapshotUploadStep] at stepped
    split at stepped
    · rename_i goesOn
      cases stepped
      rw [refines.getLogState_eq] at goesOn
      exact ⟨_, refines.append goesOn.1 goesOn.2⟩
    · cases stepped
  | apply count =>
    simp only [snapshotUploadStep] at stepped
    split at stepped
    · cases stepped
      exact ⟨log, refines⟩
    · cases stepped
  | buildSnapshot =>
    cases stepped
    exact ⟨log, refines⟩
  | purge =>
    obtain ⟨logId, upTo, rfl⟩ := Option.map_eq_some_iff.mp stepped
    obtain ⟨_, _, _, further⟩ := index_of_purgeUpTo refines upTo
    have past : nextIndex log.lastPurged ≤ nextIndex (some logId) := further.trans (Nat.le_succ _)
    exact ⟨_, refines.purge past⟩
  | upload =>
    cases stepped
    exact ⟨log, refines⟩
  | arrive position =>
    obtain ⟨lastApplied, _, rfl⟩ := Option.map_eq_some_iff.mp stepped
    exact ⟨log, refines⟩
  | restart =>
    cases stepped
    exact restartedStore_refines refines holds.recoverable

/-- Where the log is not purged further than `latest.bin` goes, it has all that comes after. -/
theorem Sound.hasNoGap (holds : node.Sound)
    (started : node.latestBin = none → node.store.lastPurged = none) : node.HasNoGap := by
  obtain ⟨log, refines⟩ := holds.refines
  intro index after before
  rw [refines.getLogState_eq] at before
  refine (BTreeMap.mem_iff _ _).mp ((refines.mem_logs_iff index).mpr ⟨?_, before⟩)
  rw [← refines.lastPurged]
  refine Nat.le_trans ?_ after
  cases known : node.store.lastPurged with
  | none => exact Nat.zero_le _
  | some purged =>
    cases found : node.latestBin with
    | none => cases (started found).symm.trans known
    | some lastApplied =>
      have within := holds.recoverable purged known
      rw [found] at within
      exact Nat.succ_le_succ within

end SnapshottingNode

/-- In every run of one node, the log is at every moment purged no further than `latest.bin` goes
exactly if every purge comes after an upload of what it purges, and no older upload arrives after
it. Such a run leaves no gap between `latest.bin` and the log. -/
theorem purge_stays_recoverable_iff (nodeId : Nat) {labels : List SnapshotUploadLabel}
    {node : SnapshottingNode}
    (reached : run (snapshotUploadStep nodeId) .new labels = some node) :
    (Along (snapshotUploadStep nodeId) (fun before label => ∀ after,
        snapshotUploadStep nodeId before label = some after → after.Recoverable) .new labels ↔
      Along (snapshotUploadStep nodeId) SnapshottingNode.UploadsFirst .new labels) ∧
    (Along (snapshotUploadStep nodeId) SnapshottingNode.UploadsFirst .new labels →
      (node.latestBin = none → node.store.lastPurged = none) → node.HasNoGap) := by
  constructor
  · refine along_iff_of_reached SnapshottingNode.Sound ?_ ?_ reached SnapshottingNode.sound_new
    · exact fun _ _ next stepped recoverable holds =>
        holds.step stepped (recoverable next stepped)
    · intro before label next stepped holds
      rw [← holds.recoverable_iff stepped]
      refine ⟨fun recoverable => recoverable next stepped, fun recoverable after same => ?_⟩
      cases stepped.symm.trans same
      exact recoverable
  · intro inOrder started
    refine SnapshottingNode.Sound.hasNoGap ?_ started
    exact run_invariant_along SnapshottingNode.Sound
      (fun _ _ _ stepped met holds => holds.step stepped ((holds.recoverable_iff stepped).mpr met))
      reached inOrder SnapshottingNode.sound_new

theorem represents_appendSync {entries : List LogEntry} (contiguous : ContiguousFrom 0 entries) :
    (RedbLogStore.new.appendSync entries).Represents entries 0 := by
  have indexed : Indexed ([] ++ entries) := fun position entry found =>
    (contiguous.index_eq found).trans (Nat.zero_add position)
  exact RedbLogStore.Represents.of_new.append indexed

/-- Blank entries of one leader. -/
def sampleEntries (count : Nat) : List LogEntry :=
  (List.range count).map fun index => ⟨⟨⟨1, 1⟩, index⟩, .blank⟩

/-- As many entries as make openraft build a snapshot, whose upload has not arrived when the log is
purged behind it. -/
def sampleSnapshot : List SnapshotUploadLabel :=
  [.append (sampleEntries logsSinceLast), .apply logsSinceLast, .buildSnapshot, .upload, .purge]

theorem purge_outruns_upload :
    ∃ node, run (snapshotUploadStep 1) .new sampleSnapshot = some node ∧
      node.latestBin = none ∧ node.store.lastPurged = some ⟨⟨1, 1⟩, 899⟩ ∧
        ¬ node.Recoverable := by
  have contiguous : ContiguousFrom 0 (sampleEntries logsSinceLast) := by decide +kernel
  have bounded : ∀ entry ∈ sampleEntries logsSinceLast, entry.logId.index < 2 ^ 64 := by
    decide +kernel
  have length : (sampleEntries logsSinceLast).length = logsSinceLast := by decide +kernel
  have last : lastLogId (sampleEntries logsSinceLast) = some ⟨⟨1, 1⟩, 999⟩ := by decide +kernel
  have kept : (sampleEntries logsSinceLast)[899]? = some ⟨⟨⟨1, 1⟩, 899⟩, .blank⟩ := by
    rw [sampleEntries, List.getElem?_map, List.getElem?_range (by decide), Option.map_some]
  rw [sampleSnapshot]
  -- The entries stay folded from here on.
  generalize sampleEntries logsSinceLast = entries at *
  have goesOn : ContiguousFrom (nextIndex RedbLogStore.new.getLogStateSync.lastLogId) entries :=
    contiguous
  have represents := represents_appendSync contiguous
  have read : (RedbLogStore.new.appendSync entries).getEntriesSync 0 (0 + logsSinceLast) =
      entries := by
    rw [represents.getEntries le_rfl, Nat.zero_add, List.drop_zero, Nat.sub_zero,
      List.take_of_length_le length.le]
  have stopsAt : (RedbLogStore.new.appendSync entries).logIdAt 899 = some ⟨⟨1, 1⟩, 899⟩ := by
    simp only [RedbLogStore.logIdAt, represents.logs, Nat.zero_le, if_true, kept,
      Option.map_some, Option.some_or]
  have appended : snapshotUploadStep 1 .new (.append entries) =
      some ⟨RedbLogStore.new.appendSync entries, none, none, [], none⟩ :=
    if_pos ⟨goesOn, bounded⟩
  have unpurged : (RedbLogStore.new.appendSync entries).lastPurged = none := represents.lastPurged
  generalize RedbLogStore.new.appendSync entries = store at *
  have applied : snapshotUploadStep 1 ⟨store, none, none, [], none⟩ (.apply logsSinceLast) =
      some ⟨store, some ⟨⟨1, 1⟩, 999⟩, none, [], none⟩ := by
    simp only [snapshotUploadStep, nextIndex, read, last, length, if_true, Option.some_or]
  have upTo : SnapshottingNode.purgeUpTo ⟨store, some ⟨⟨1, 1⟩, 999⟩, some ⟨⟨1, 1⟩, 999⟩,
      [some ⟨⟨1, 1⟩, 999⟩], none⟩ = some ⟨⟨1, 1⟩, 899⟩ := by
    simp only [SnapshottingNode.purgeUpTo, unpurged]
    exact (if_pos (by decide)).trans stopsAt
  refine ⟨_, run_cons_eq_some.mpr ⟨_, appended, run_cons_eq_some.mpr ⟨_, applied,
    run_cons_eq_some.mpr ⟨_, rfl, run_cons_eq_some.mpr ⟨_, rfl, run_cons_eq_some.mpr
      ⟨_, congrArg (Option.map _) upTo, rfl⟩⟩⟩⟩⟩, rfl, rfl, fun recoverable => ?_⟩
  have within : 899 ≤ 0 := recoverable ⟨⟨1, 1⟩, 899⟩ rfl
  exact absurd within (by decide)

/-- A snapshot that has arrived before the log is purged behind it, and a restart. -/
def sampleUploadedFirst : List SnapshotUploadLabel :=
  [.append (sampleEntries 102), .apply 102, .buildSnapshot, .upload, .arrive 0, .purge, .restart]

theorem purge_stays_recoverable_iff_sample :
    ∃ node, run (snapshotUploadStep 1) .new sampleUploadedFirst = some node ∧
      Along (snapshotUploadStep 1) (fun before label => ∀ after,
        snapshotUploadStep 1 before label = some after → after.Recoverable) .new
          sampleUploadedFirst ∧
      node.latestBin = some ⟨⟨1, 1⟩, 101⟩ ∧ node.store.lastPurged = some ⟨⟨1, 1⟩, 1⟩ ∧
        node.HasNoGap := by
  have ends : (run (snapshotUploadStep 1) .new sampleUploadedFirst).any (fun node =>
      node.latestBin = some ⟨⟨1, 1⟩, 101⟩ ∧ node.store.lastPurged = some ⟨⟨1, 1⟩, 1⟩) = true := by
    decide +kernel
  obtain ⟨node, reached, found⟩ := (Option.any_eq_true ..).mp ends
  obtain ⟨latest, purged⟩ := of_decide_eq_true found
  have inOrder : Along (snapshotUploadStep 1) SnapshottingNode.UploadsFirst .new
      sampleUploadedFirst := by
    decide +kernel
  have recoverable := purge_stays_recoverable_iff 1 reached
  refine ⟨node, reached, recoverable.1.mpr inOrder, latest, purged,
    recoverable.2 inOrder fun empty => ?_⟩
  cases latest.symm.trans empty

end Layerhouse
