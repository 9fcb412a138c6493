/-
This file settles when the current snapshot of a state machine is the newest one
that it has built or installed. The builder that `get_snapshot_builder` hands out
is a clone of the data: what it builds is returned to its caller and never
stored, so `get_current_snapshot` keeps answering with the snapshot the machine
was started with or that was installed last. The answer is the newest snapshot
exactly as long as no builder builds one that is newer than the stored one, and
no older one is installed over it.

The system is one machine with the builders it has handed out. The list of the
snapshots that were built or installed is kept beside them; no call reads it.
-/

import Layerhouse.Raft.BlobRefs

namespace Layerhouse

/-! ### The order of log ids -/

/-- Log ids are compared by term, node and index. -/
def LogId.key (id : LogId) : ℕ ×ₗ ℕ ×ₗ ℕ :=
  toLex (id.leaderId.term, toLex (id.leaderId.nodeId, id.index))

/-- A missing log id is below all others. -/
def logKey (id : Option LogId) : WithBot (ℕ ×ₗ ℕ ×ₗ ℕ) :=
  id.map LogId.key

/-! ### Calls -/

abbrev Snapshot : Type := SnapshotMeta × List UInt8

def StateMachine.getCurrentSnapshot (machine : StateMachine) : Option Snapshot :=
  machine.snapshot

/-- The data of the builder: a clone of the machine's. -/
def StateMachine.getSnapshotBuilder (machine : StateMachine) : StateMachineData :=
  machine.data

structure SnapshotSystem where
  machine : StateMachine
  builders : List StateMachineData
  made : List Snapshot

/-- A machine without builders, as `new` or `new_with_snapshot` makes it. A snapshot it is made
with counts as installed. -/
def SnapshotSystem.start (machine : StateMachine) : SnapshotSystem where
  machine := machine
  builders := []
  made := machine.snapshot.toList

inductive SnapshotLabel where
  | apply (now : Nat) (entry : Entry)
  | getSnapshotBuilder
  | buildSnapshot (builder : Nat)
  | installSnapshot (now : Nat) (header : SnapshotMeta) (bytes : List UInt8)

/-- One call. A refused installation is a call without effect. -/
def snapshotStep (externals : Externals) (codec : SnapshotCodec) (system : SnapshotSystem) :
    SnapshotLabel → Option SnapshotSystem
  | .apply now entry =>
    match applyEntry externals now system.machine.data entry with
    | .ok (next, _) => some { system with machine := { system.machine with data := next } }
    | .error _ => none
  | .getSnapshotBuilder =>
    some { system with builders := system.builders ++ [system.machine.getSnapshotBuilder] }
  | .buildSnapshot builder =>
    system.builders[builder]?.map fun data =>
      { system with made := system.made ++ [buildSnapshot codec data] }
  | .installSnapshot now header bytes =>
    match installSnapshot externals codec now system.machine header bytes with
    | (machine, .ok ()) =>
      some { system with machine := machine, made := system.made ++ [(header, bytes)] }
    | (machine, .error _) => some { system with machine := machine }

/-! ### The newest snapshot -/

/-- The current snapshot is one of those built or installed, and none of these has a greater log
id; there is no current snapshot only if none was built or installed. -/
def SnapshotSystem.Available (system : SnapshotSystem) : Prop :=
  match system.machine.getCurrentSnapshot with
  | none => system.made = []
  | some current => current ∈ system.made ∧
      ∀ other ∈ system.made, logKey other.1.lastLogId ≤ logKey current.1.lastLogId

theorem SnapshotSystem.available_start (machine : StateMachine) :
    (SnapshotSystem.start machine).Available := by
  obtain ⟨data, snapshot⟩ := machine
  obtain _ | current := snapshot
  · rfl
  · refine ⟨List.mem_singleton_self current, fun other member => ?_⟩
    rw [List.mem_singleton.mp member]

/-- A builder builds nothing newer than the stored snapshot, and a snapshot that can be decoded is
installed only over one that is not newer. -/
def SnapshotSystem.KeepsNewest (codec : SnapshotCodec) (system : SnapshotSystem) :
    SnapshotLabel → Prop
  | .apply _ _ | .getSnapshotBuilder => True
  | .buildSnapshot builder => ∀ data, system.builders[builder]? = some data →
      ∃ current, system.machine.snapshot = some current ∧
        logKey data.lastAppliedLog ≤ logKey current.1.lastLogId
  | .installSnapshot _ header bytes => ∀ data, decodeSnapshot codec bytes = .ok data →
      ∀ current, system.machine.snapshot = some current →
        logKey current.1.lastLogId ≤ logKey header.lastLogId

/-- A built snapshot leaves the current one the newest exactly if it is not newer. -/
theorem SnapshotSystem.available_built_iff {system : SnapshotSystem} (holds : system.Available)
    (built : Snapshot) :
    { system with made := system.made ++ [built] }.Available ↔
      ∃ current, system.machine.snapshot = some current ∧
        logKey built.1.lastLogId ≤ logKey current.1.lastLogId := by
  obtain ⟨⟨data, snapshot⟩, builders, made⟩ := system
  obtain _ | current := snapshot
  · constructor
    · intro empty
      exact absurd empty (List.append_ne_nil_of_right_ne_nil made (List.cons_ne_nil built []))
    · rintro ⟨current, impossible, _⟩
      exact absurd impossible (Option.some_ne_none current).symm
  · constructor
    · intro available
      exact ⟨current, rfl, available.2 built (List.mem_append_right made (.head []))⟩
    · rintro ⟨stored, same, notNewer⟩
      obtain rfl := Option.some.inj same
      refine ⟨List.mem_append_left [built] holds.1, fun other member => ?_⟩
      rcases List.mem_append.mp member with earlier | last
      · exact holds.2 other earlier
      · rw [List.mem_singleton.mp last]
        exact notNewer

/-- An installed snapshot is the newest exactly if the one it replaces is not newer. -/
theorem SnapshotSystem.available_installed_iff {system : SnapshotSystem} (holds : system.Available)
    (data : StateMachineData) (installed : Snapshot) :
    { system with
      machine := ⟨data, some installed⟩
      made := system.made ++ [installed] }.Available ↔
      ∀ current, system.machine.snapshot = some current →
        logKey current.1.lastLogId ≤ logKey installed.1.lastLogId := by
  obtain ⟨⟨before, snapshot⟩, builders, made⟩ := system
  constructor
  · rintro available current rfl
    exact available.2 current (List.mem_append_left [installed] holds.1)
  · intro notNewer
    refine ⟨List.mem_append_right made (.head []), fun other member => ?_⟩
    rcases List.mem_append.mp member with earlier | last
    · obtain _ | current := snapshot
      · rw [show made = [] from holds] at earlier
        exact absurd earlier List.not_mem_nil
      · exact (holds.2 other earlier).trans (notNewer current rfl)
    · rw [List.mem_singleton.mp last]

/-- One call keeps the current snapshot the newest exactly if it meets the condition. -/
theorem snapshotStep_available_iff (externals : Externals) (codec : SnapshotCodec)
    (system : SnapshotSystem) (label : SnapshotLabel) (holds : system.Available) :
    (∀ next, snapshotStep externals codec system label = some next → next.Available) ↔
      system.KeepsNewest codec label := by
  cases label with
  | apply now entry =>
    refine ⟨fun _ => trivial, fun _ next stepped => ?_⟩
    rw [snapshotStep] at stepped
    split at stepped
    · obtain rfl := Option.some.inj stepped
      exact holds
    · exact absurd stepped (Option.some_ne_none next).symm
  | getSnapshotBuilder =>
    refine ⟨fun _ => trivial, fun _ next stepped => ?_⟩
    obtain rfl := Option.some.inj stepped
    exact holds
  | buildSnapshot builder =>
    obtain missing | ⟨data, found⟩ := Option.eq_none_or_eq_some system.builders[builder]?
    · simp only [snapshotStep, SnapshotSystem.KeepsNewest, missing, Option.map_none, reduceCtorEq,
        false_imp_iff, implies_true]
    · simp only [snapshotStep, SnapshotSystem.KeepsNewest, found, Option.map_some,
        Option.some.injEq, forall_eq']
      exact system.available_built_iff holds (buildSnapshot codec data)
  | installSnapshot now header bytes =>
    rw [snapshotStep, installSnapshot]
    cases decoded : decodeSnapshot codec bytes with
    | error error =>
      simp only [SnapshotSystem.KeepsNewest, decoded, Option.some.injEq, forall_eq', reduceCtorEq,
        false_imp_iff, implies_true, iff_true]
      exact holds
    | ok data =>
      simp only [SnapshotSystem.KeepsNewest, decoded, Option.some.injEq, forall_eq',
        Except.ok.injEq]
      exact system.available_installed_iff holds _ (header, bytes)

/-- In every run from a new machine, with or without a restored snapshot, the current snapshot is
the newest one built or installed in every state reached, exactly if no builder of the run builds
one that is newer than the stored one and none is installed over a newer one. -/
theorem current_snapshot_is_newest_iff (externals : Externals) (codec : SnapshotCodec)
    (machine : StateMachine) (labels : List SnapshotLabel) :
    (SnapshotSystem.start machine).Available ∧
        Along (snapshotStep externals codec)
          (fun system label =>
            ∀ next, snapshotStep externals codec system label = some next → next.Available)
          (SnapshotSystem.start machine) labels ↔
      Along (snapshotStep externals codec) (SnapshotSystem.KeepsNewest codec)
        (SnapshotSystem.start machine) labels := by
  have initially := SnapshotSystem.available_start machine
  rw [along_invariant_iff SnapshotSystem.Available (snapshotStep_available_iff externals codec)
    initially]
  exact and_iff_right initially

/-- A new machine builds a snapshot after its first entry and has none to serve. -/
theorem built_snapshot_is_not_served :
    ∃ system, run (snapshotStep sampleExternals sampleCodec)
        (SnapshotSystem.start ⟨StateMachineData.empty, none⟩)
        [.apply 0 ⟨⟨⟨1, 1⟩, 1⟩, .blank⟩, .getSnapshotBuilder, .buildSnapshot 0] = some system ∧
      system.machine.getCurrentSnapshot = none ∧
      system.made.map (·.1.lastLogId) = [some ⟨⟨1, 1⟩, 1⟩] ∧ ¬ system.Available := by
  refine ⟨_, rfl, rfl, rfl, fun available => ?_⟩
  exact absurd (congrArg List.length available) (by decide)

end Layerhouse
