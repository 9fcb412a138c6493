/-
This file follows the vote of one node through its restarts: the votes that openraft
saves, the restore of `main.rs`, which seeds the log store with a vote made from the
snapshot, and the log store of `raft/log_store.rs`. The file of the log store may be lost
at a restart, and the snapshot is as old as the last upload that succeeded.

The seeded vote is of the term of the last applied entry, but for the node itself. It
does not recall votes that were saved after the upload, and where the node has a higher id
than the leader of that entry it is above the leader's vote, even with the file kept. The
file proves that a vote is lost or made up in no other way.
-/

import Layerhouse.Raft.Replication

namespace Layerhouse

/-! ### One node -/

/-- What a restart found and what vote the node has afterwards. -/
structure VoteRestart where
  saved : List Vote
  restored : Option LogId
  vote : Option Vote

/-- A node with its log store, the last log id its state machine has applied, the one in its
uploaded snapshot, the votes it has saved and its restarts, the latest first. -/
structure VotingNode where
  store : RedbLogStore
  lastApplied : Option LogId
  latestBin : Option LogId
  saved : List Vote
  restarts : List VoteRestart

def VotingNode.new : VotingNode where
  store := .new
  lastApplied := none
  latestBin := none
  saved := []
  restarts := []

inductive VoteLabel where
  | saveVote (vote : Vote)
  | apply (logId : LogId)
  | upload (succeeds : Bool)
  | restart (fileKept : Bool)

/-- The log store that openraft starts with. -/
def VotingNode.seededStore (nodeId : Nat) (node : VotingNode) (fileKept : Bool) :
    RedbLogStore :=
  let store := if fileKept then node.store else .new
  match node.latestBin with
  | none => store
  | some lastApplied => store.seedVoteSync (seededVote nodeId lastApplied)

/-- Votes only rise as long as the file is kept, and entries are applied in order. -/
def voteStep (nodeId : Nat) (node : VotingNode) : VoteLabel → Option VotingNode
  | .saveVote vote =>
    if node.store.readVoteSync.all (· ≤ vote) then
      some { node with
        store := node.store.saveVoteSync vote
        saved := vote :: node.saved }
    else none
  | .apply logId =>
    if node.lastApplied.all fun last =>
        last.leaderId ≤ logId.leaderId ∧ last.index < logId.index then
      some { node with lastApplied := some logId }
    else none
  | .upload succeeds =>
    some (if succeeds then { node with latestBin := node.lastApplied } else node)
  | .restart fileKept =>
    let store := node.seededStore nodeId fileKept
    some { node with
      store := store
      lastApplied := node.latestBin
      restarts := ⟨node.saved, node.latestBin, store.readVoteSync⟩ :: node.restarts }

/-! ### What is asked of a restart -/

/-- The vote after the restart is not below a vote that was saved, and not above all of them and
the vote of the leader that the restored entry is from. -/
structure VoteRestart.Continuous (restart : VoteRestart) : Prop where
  recalled : ∀ saved ∈ restart.saved, ∃ vote ∈ restart.vote, saved ≤ vote
  backed : ∀ vote ∈ restart.vote, (∃ saved ∈ restart.saved, vote ≤ saved) ∨
    ∃ last ∈ restart.restored, vote ≤ ⟨last.leaderId, true⟩

/-- Every saved vote is recalled, by the file if it is kept or by the vote that the snapshot
gives; and the node has no higher id than the leader of the restored entry, unless it has saved a
vote that is as high as the seeded one. -/
structure VotingNode.RestartsSafely (nodeId : Nat) (node : VotingNode) (fileKept : Bool) :
    Prop where
  recalled : ∀ saved ∈ node.saved,
    (fileKept = true ∧ ∃ vote ∈ node.store.readVoteSync, saved ≤ vote) ∨
      ∃ last ∈ node.latestBin, saved ≤ seededVote nodeId last
  backed : ∀ last ∈ node.latestBin, nodeId ≤ last.leaderId.nodeId ∨
    ∃ saved ∈ node.saved, seededVote nodeId last ≤ saved

/-- A restart is safe; nothing is asked of the other steps. -/
def VotingNode.KeepsVotes (nodeId : Nat) (node : VotingNode) : VoteLabel → Prop
  | .restart fileKept => node.RestartsSafely nodeId fileKept
  | .saveVote _ | .apply _ | .upload _ => True

instance VotingNode.decidableRestartsSafely (nodeId : Nat) (node : VotingNode)
    (fileKept : Bool) : Decidable (node.RestartsSafely nodeId fileKept) :=
  decidable_of_iff ((∀ saved ∈ node.saved,
      (fileKept = true ∧ ∃ vote ∈ node.store.readVoteSync, saved ≤ vote) ∨
        ∃ last ∈ node.latestBin, saved ≤ seededVote nodeId last) ∧
      ∀ last ∈ node.latestBin, nodeId ≤ last.leaderId.nodeId ∨
        ∃ saved ∈ node.saved, seededVote nodeId last ≤ saved)
    ⟨fun ⟨recalled, backed⟩ => ⟨recalled, backed⟩, fun safe => ⟨safe.recalled, safe.backed⟩⟩

instance VotingNode.decidableKeepsVotes (nodeId : Nat) (node : VotingNode) (label : VoteLabel) :
    Decidable (node.KeepsVotes nodeId label) :=
  match label with
  | .restart fileKept => inferInstanceAs (Decidable (node.RestartsSafely nodeId fileKept))
  | .saveVote _ | .apply _ | .upload _ => isTrue trivial

/-! ### The seeded vote -/

/-- The seeded vote is below the vote of the entry's leader if the node's id is not above it. -/
theorem seededVote_le_committed_iff (nodeId : Nat) (last : LogId) :
    seededVote nodeId last ≤ ⟨last.leaderId, true⟩ ↔ nodeId ≤ last.leaderId.nodeId := by
  have ofVotes : seededVote nodeId last ≤ ⟨last.leaderId, true⟩ ↔
      (⟨last.leaderId.term, nodeId⟩ : LeaderId) ≤ last.leaderId := by
    refine Prod.Lex.toLex_le_toLex.trans ⟨fun below => ?_, fun below => ?_⟩
    · exact below.elim le_of_lt fun same => same.1.le
    · exact (lt_or_eq_of_le below).imp_right fun same => ⟨same, Bool.false_le _⟩
  rw [ofVotes]
  refine Prod.Lex.toLex_le_toLex.trans ⟨fun below => ?_, fun below => Or.inr ⟨rfl, below⟩⟩
  exact below.elim (fun earlier => absurd earlier (lt_irrefl _)) And.right

theorem committed_le {first second : LeaderId} (below : first ≤ second) :
    (⟨first, true⟩ : Vote) ≤ ⟨second, true⟩ :=
  Prod.Lex.toLex_le_toLex.mpr ((lt_or_eq_of_le below).imp_right fun same => ⟨same, le_rfl⟩)

/-- Seeding keeps the higher of two votes. -/
theorem readVoteSync_seedVoteSync (store : RedbLogStore) (vote : Vote) :
    (store.seedVoteSync vote).readVoteSync =
      some (store.readVoteSync.elim vote (max · vote)) := by
  rw [RedbLogStore.seedVoteSync]
  cases known : store.readVoteSync with
  | none => rfl
  | some current =>
    by_cases older : vote ≤ current
    · simp only [Option.any_some, older, decide_true, if_true, known, Option.elim_some,
        max_eq_left older]
    · simp only [Option.any_some, older, decide_false, Bool.false_eq_true, if_false,
        Option.elim_some, max_eq_right (le_of_not_ge older)]
      rfl

section

variable {nodeId : Nat} {node : VotingNode} {fileKept : Bool}

/-- What is below the vote after a restart is below the vote in a kept file or the seeded one. -/
theorem le_seededStore_iff (vote : Vote) :
    (∃ read ∈ (node.seededStore nodeId fileKept).readVoteSync, vote ≤ read) ↔
      (fileKept = true ∧ ∃ kept ∈ node.store.readVoteSync, vote ≤ kept) ∨
        ∃ last ∈ node.latestBin, vote ≤ seededVote nodeId last := by
  have unseeded : (∃ read ∈ (if fileKept then node.store else .new).readVoteSync, vote ≤ read) ↔
      (fileKept = true ∧ ∃ kept ∈ node.store.readVoteSync, vote ≤ kept) := by
    cases fileKept with
    | false => exact iff_of_false (fun ⟨_, impossible, _⟩ => by cases impossible) (by simp)
    | true => exact (and_iff_right rfl).symm
  rw [VotingNode.seededStore]
  cases node.latestBin with
  | none => exact unseeded.trans (or_iff_left fun ⟨_, impossible, _⟩ => by cases impossible).symm
  | some last =>
    rw [← unseeded]
    simp only [readVoteSync_seedVoteSync, Option.mem_def, Option.some.injEq, exists_eq_left']
    cases (if fileKept then node.store else .new).readVoteSync with
    | none => simp
    | some kept => simp

/-- The vote after a restart was in the file, or is the seeded one. -/
theorem eq_of_mem_seededStore {vote : Vote}
    (read : vote ∈ (node.seededStore nodeId fileKept).readVoteSync) :
    vote ∈ node.store.readVoteSync ∨ ∃ last ∈ node.latestBin, vote = seededVote nodeId last := by
  have unseeded : ∀ kept ∈ (if fileKept then node.store else .new).readVoteSync,
      kept ∈ node.store.readVoteSync := by
    cases fileKept with
    | false => exact fun _ impossible => by cases impossible
    | true => exact fun _ found => found
  rw [VotingNode.seededStore] at read
  cases found : node.latestBin with
  | none =>
    rw [found] at read
    exact Or.inl (unseeded vote read)
  | some last =>
    simp only [found, readVoteSync_seedVoteSync, Option.mem_def, Option.some.injEq] at read
    cases known : (if fileKept then node.store else .new).readVoteSync with
    | none =>
      rw [known] at read
      exact Or.inr ⟨last, rfl, read.symm⟩
    | some kept =>
      rw [known, Option.elim_some] at read
      rcases max_choice kept (seededVote nodeId last) with first | second
      · exact Or.inl (unseeded vote (known.trans (congrArg some (first.symm.trans read))))
      · exact Or.inr ⟨last, rfl, read.symm.trans second⟩

end

/-! ### Runs -/

namespace VotingNode

variable {nodeId : Nat} {node next : VotingNode}

/-- The vote of the log store is not above the saved votes and the vote of the leader that the
uploaded snapshot is from, as long as all restarts were continuous; and the snapshot is not ahead of
what was applied. -/
structure Backed (node : VotingNode) : Prop where
  vote : (∀ restart ∈ node.restarts, restart.Continuous) → ∀ vote ∈ node.store.readVoteSync,
    (∃ saved ∈ node.saved, vote ≤ saved) ∨ ∃ last ∈ node.latestBin, vote ≤ ⟨last.leaderId, true⟩
  uploaded : ∀ last ∈ node.latestBin, ∃ applied ∈ node.lastApplied,
    last.leaderId ≤ applied.leaderId

theorem backed_new : Backed .new where
  vote := fun _ _ impossible => by cases impossible
  uploaded := fun _ impossible => by cases impossible

/-- The restart of a node with a backed vote is continuous exactly if it is safe. -/
theorem continuous_iff_restartsSafely (backed : ∀ vote ∈ node.store.readVoteSync,
      (∃ saved ∈ node.saved, vote ≤ saved) ∨
        ∃ last ∈ node.latestBin, vote ≤ ⟨last.leaderId, true⟩) (fileKept : Bool) :
    VoteRestart.Continuous
        ⟨node.saved, node.latestBin, (node.seededStore nodeId fileKept).readVoteSync⟩ ↔
      node.RestartsSafely nodeId fileKept := by
  constructor
  · rintro ⟨recalled, continues⟩
    refine ⟨fun saved member => (le_seededStore_iff saved).mp (recalled saved member), ?_⟩
    intro last found
    obtain ⟨vote, read, above⟩ :=
      (@le_seededStore_iff nodeId node fileKept _).mpr (Or.inr ⟨last, found, le_rfl⟩)
    rcases continues vote read with ⟨saved, member, below⟩ | ⟨other, same, below⟩
    · exact Or.inr ⟨saved, member, above.trans below⟩
    · cases found.symm.trans same
      exact Or.inl ((seededVote_le_committed_iff nodeId last).mp (above.trans below))
  · rintro ⟨recalled, permitted⟩
    refine ⟨fun saved member => (le_seededStore_iff saved).mpr (recalled saved member), ?_⟩
    intro vote read
    rcases eq_of_mem_seededStore read with kept | ⟨last, found, rfl⟩
    · exact backed vote kept
    · rcases permitted last found with below | saved
      · exact Or.inr ⟨last, found, (seededVote_le_committed_iff nodeId last).mpr below⟩
      · exact Or.inl saved

theorem Backed.step (holds : node.Backed) {label : VoteLabel}
    (stepped : voteStep nodeId node label = some next) :
    next.Backed ∧ ((∀ restart ∈ next.restarts, restart.Continuous) ↔
      (∀ restart ∈ node.restarts, restart.Continuous) ∧ node.KeepsVotes nodeId label) := by
  cases label with
  | saveVote vote =>
    simp only [voteStep] at stepped
    split at stepped
    · cases stepped
      refine ⟨⟨fun _ read found => ?_, holds.uploaded⟩, (and_iff_left trivial).symm⟩
      cases found
      exact Or.inl ⟨vote, List.mem_cons_self, le_rfl⟩
    · cases stepped
  | apply logId =>
    simp only [voteStep] at stepped
    split at stepped
    · rename_i ordered
      cases stepped
      refine ⟨⟨holds.vote, fun last found => ⟨logId, rfl, ?_⟩⟩, (and_iff_left trivial).symm⟩
      obtain ⟨applied, lookup, below⟩ := holds.uploaded last found
      rw [lookup, Option.all_some] at ordered
      exact below.trans (of_decide_eq_true ordered).1
    · cases stepped
  | upload succeeds =>
    cases succeeds with
    | false =>
      cases stepped
      exact ⟨holds, (and_iff_left trivial).symm⟩
    | true =>
      cases stepped
      refine ⟨⟨fun continues vote read => ?_, fun last found => ⟨last, found, le_rfl⟩⟩,
        (and_iff_left trivial).symm⟩
      rcases holds.vote continues vote read with saved | ⟨last, found, below⟩
      · exact Or.inl saved
      · obtain ⟨applied, lookup, later⟩ := holds.uploaded last found
        exact Or.inr ⟨applied, lookup, below.trans (committed_le later)⟩
  | restart fileKept =>
    cases stepped
    refine ⟨⟨fun continues => ?_, fun last found => ⟨last, found, le_rfl⟩⟩, ?_⟩
    · exact (List.forall_mem_cons.mp continues).1.backed
    · rw [List.forall_mem_cons, and_comm]
      exact and_congr_right fun continues =>
        continuous_iff_restartsSafely (holds.vote continues) fileKept

end VotingNode

/-- In every run of one node, every restart recalls all votes and makes up none exactly if every
restart is safe. -/
theorem vote_continuity_iff (nodeId : Nat) {labels : List VoteLabel} {node : VotingNode}
    (reached : run (voteStep nodeId) .new labels = some node) :
    (∀ restart ∈ node.restarts, restart.Continuous) ↔
      Along (voteStep nodeId) (VotingNode.KeepsVotes nodeId) .new labels := by
  have exactly := run_property_iff VotingNode.Backed
    (fun _ _ _ stepped holds => (holds.step stepped).1)
    (fun _ _ _ stepped holds => (holds.step stepped).2) reached VotingNode.backed_new
  exact exactly.trans (and_iff_right fun _ impossible => absurd impossible List.not_mem_nil)

/-- The entry of the first leader that a snapshot was taken after. -/
def sampleApplied : LogId :=
  ⟨⟨1, 2⟩, 5⟩

/-- A follower of node 2 that uploads a snapshot and restarts. -/
def sampleFollower (fileKept : Bool) : List VoteLabel :=
  [.saveVote ⟨⟨1, 2⟩, true⟩, .apply sampleApplied, .upload true, .restart fileKept]

/-- Node 1 keeps its file. -/
theorem vote_continuity_iff_sample :
    ∃ node, run (voteStep 1) .new (sampleFollower true) = some node ∧
      node.restarts.map (·.vote) = [some ⟨⟨1, 2⟩, true⟩] ∧
      ∀ restart ∈ node.restarts, restart.Continuous := by
  have reached : run (voteStep 1) .new (sampleFollower true) = some _ := rfl
  exact ⟨_, reached, by decide +kernel, (vote_continuity_iff 1 reached).mpr (by decide +kernel)⟩

/-- Node 1 restarts with a vote below the one it has saved, when its file is lost; node 3 with a
vote above its leader's, even with the file. -/
theorem restart_changes_vote :
    (∃ node, run (voteStep 1) .new (sampleFollower false) = some node ∧
      ∃ restart ∈ node.restarts, restart.vote = some ⟨⟨1, 1⟩, false⟩ ∧ ¬ restart.Continuous) ∧
    ∃ node, run (voteStep 3) .new (sampleFollower true) = some node ∧
      ∃ restart ∈ node.restarts, restart.vote = some ⟨⟨1, 3⟩, false⟩ ∧ ¬ restart.Continuous := by
  constructor
  · refine ⟨_, rfl, _, List.mem_cons_self, by decide +kernel, fun continuous => ?_⟩
    obtain ⟨vote, read, above⟩ := continuous.recalled ⟨⟨1, 2⟩, true⟩ List.mem_cons_self
    cases read
    exact absurd above (by decide)
  · refine ⟨_, rfl, _, List.mem_cons_self, by decide +kernel, fun continuous => ?_⟩
    rcases continuous.backed ⟨⟨1, 3⟩, false⟩ (by decide +kernel) with ⟨saved, member, below⟩ |
        ⟨last, found, below⟩
    · rw [List.mem_singleton.mp member] at below
      exact absurd below (by decide)
    · cases found
      exact absurd below (by decide)

end Layerhouse
