/-
This file settles when node 1 founds a second cluster. Its join loop decides from
one pass over the peers: when no join is confirmed in the pass and no leader is
known, it founds a cluster, and only openraft's own check can stop it, which looks
for a vote, a log or a membership on node 1 itself. A restored snapshot seeds a
vote, so a restored node never founds a cluster; but a node that lost its log
before its first upload starts blank. It founds a second cluster unless a message
of the first one has reached it before the pass ends.

What stops it is told by the history of node 1: since it last started without its
log it has restored a snapshot, a vote request or an append has reached it, or an
earlier pass of it has ended. Exactly then its Raft state is not the blank one.
-/

import Layerhouse.Library.Schedules
import Layerhouse.Raft.Membership

namespace Layerhouse

/-- The node holds the membership, in its Raft state or in its uploaded snapshot. -/
def Node.Holds (node : Node) (membership : ClusterMembership) : Prop :=
  node.raft.membership = some membership ∨ node.raft.applied = some membership ∨
    node.saved = some membership

/-- Node 1 restores a snapshot, a vote request or an append reaches it, or a pass of it ends. -/
def Informs (cluster : Cluster) : ClusterLabel → Prop
  | .start id _ => id = 1 ∧ (cluster.nodes 1).saved.isSome = true
  | .requestVote _ target | .appendEntries _ target => target = 1
  | .endPass id => id = 1
  | _ => False

/-- Something of this kind has happened since node 1 last started without its log. -/
def Remembers (addr : Nat → String) (history : List ClusterLabel) : Prop :=
  ∃ before label after cluster, history = before ++ label :: after ∧
    run (clusterStep addr) Cluster.empty before = some cluster ∧ Informs cluster label ∧
      ClusterLabel.start 1 false ∉ after

/-- A pass of node 1 that ends while another node holds a membership ends when node 1 remembers a
cluster. -/
def Heard (addr : Nat → String) (history : List ClusterLabel) (cluster : Cluster)
    (label : ClusterLabel) : Prop :=
  label = .endPass 1 → (clusterStep addr cluster label).isSome = true →
    (∃ other, other ≠ 1 ∧ ∃ membership, (cluster.nodes other).Holds membership) →
      Remembers addr history

/-- No cluster is founded in the step while another node holds a membership. -/
def FoundsAlone (addr : Nat → String) (cluster : Cluster) (label : ClusterLabel) : Prop :=
  ∀ next, clusterStep addr cluster label = some next → cluster.foundings < next.foundings →
    ∀ other, other ≠ 1 → ∀ membership, ¬ (cluster.nodes other).Holds membership

/-- A node with a membership has a vote: every way to a membership leaves one. -/
structure Node.Voted (node : Node) : Prop where
  raft : ∀ membership, node.raft.membership = some membership ∨
    node.raft.applied = some membership → node.raft.vote = true
  saved : ∀ membership, node.running = true → node.saved = some membership →
    node.raft.vote = true
  verifying : node.running = true → node.task = .verifying → node.raft.vote = true

/-- All memberships stem from one founding, and nodes that hold one have a vote. -/
structure Cluster.OneOrigin (cluster : Cluster) : Prop where
  origin : ∀ first second firstMembership secondMembership,
    (cluster.nodes first).Holds firstMembership → (cluster.nodes second).Holds secondMembership →
    firstMembership.origin = secondMembership.origin
  voted : ∀ id, (cluster.nodes id).Voted

theorem Cluster.oneOrigin_empty : Cluster.empty.OneOrigin where
  origin first second firstMembership secondMembership holds := by
    rcases holds with held | held | held <;> cases held
  voted id :=
    { raft := fun membership held => by rcases held with held | held <;> cases held
      saved := fun membership running => by cases running
      verifying := fun running => by cases running }

section Steps

variable {addr : Nat → String} {cluster next : Cluster}

/-- A step that changes one node keeps the one origin when the memberships the node then holds
have the origin of a membership that was held before. -/
theorem Cluster.OneOrigin.set (one : cluster.OneOrigin) {id : Nat} {node : Node}
    (stems : ∀ membership, node.Holds membership → ∃ holder earlier,
      (cluster.nodes holder).Holds earlier ∧ earlier.origin = membership.origin)
    (voted : node.Voted) : (cluster.set id node).OneOrigin := by
  have earlier (holder : Nat) (membership : ClusterMembership)
      (holds : ((cluster.set id node).nodes holder).Holds membership) :
      ∃ before held, (cluster.nodes before).Holds held ∧ held.origin = membership.origin := by
    by_cases same : holder = id
    · subst same
      rw [Cluster.set_nodes_self] at holds
      exact stems membership holds
    · rw [Cluster.set_nodes_of_ne _ _ same] at holds
      exact ⟨holder, membership, holds, rfl⟩
  constructor
  · intro first second firstMembership secondMembership firstHolds secondHolds
    obtain ⟨firstBefore, firstHeld, firstWas, firstOrigin⟩ := earlier first _ firstHolds
    obtain ⟨secondBefore, secondHeld, secondWas, secondOrigin⟩ := earlier second _ secondHolds
    rw [← firstOrigin, ← secondOrigin]
    exact one.origin firstBefore secondBefore firstHeld secondHeld firstWas secondWas
  · intro holder
    by_cases same : holder = id
    · subst same
      rw [Cluster.set_nodes_self]
      exact voted
    · rw [Cluster.set_nodes_of_ne _ _ same]
      exact one.voted holder

/-- A step that changes only the process or the task of a node. -/
theorem Cluster.OneOrigin.setTask (one : cluster.OneOrigin) (id : Nat) {node : Node}
    (sameRaft : node.raft = (cluster.nodes id).raft)
    (sameSaved : node.saved = (cluster.nodes id).saved)
    (runs : node.running = true → (cluster.nodes id).running = true)
    (task : node.task = .verifying → (cluster.nodes id).task = .verifying) :
    (cluster.set id node).OneOrigin := by
  refine one.set (fun membership holds => ⟨id, membership, ?_, rfl⟩) ?_
  · rwa [Node.Holds, sameRaft, sameSaved] at holds
  · obtain ⟨raft, saved, verifying⟩ := one.voted id
    constructor
    · rw [sameRaft]
      exact raft
    · intro membership running found
      rw [sameRaft]
      exact saved membership (runs running) (sameSaved ▸ found)
    · intro running verifies
      rw [sameRaft]
      exact verifying (runs running) (task verifies)

/-- A founding that fails changes only the task. -/
theorem bootstrap_of_vote (id : Nat) (afterwards : MembershipTask)
    (voted : (cluster.nodes id).raft.vote = true) :
    cluster.bootstrap addr id afterwards =
      cluster.set id { cluster.nodes id with task := afterwards } := by
  have refused :
      (cluster.nodes id).raft.initializeWith cluster.foundings [⟨id, addr id⟩] = none := by
    rw [RaftState.initializeWith, if_pos (Or.inl voted)]
  simp only [Cluster.bootstrap, refused]

/-- A founding succeeds exactly on a node without a vote, a log and a membership. -/
theorem initializeWith_eq_some {raft founded : RaftState} {origin : Nat} {members : List NodeInfo}
    (succeeded : raft.initializeWith origin members = some founded) :
    raft.vote = false ∧ raft.log = false ∧ raft.membership = none ∧
      founded = { raft with
        vote := true
        log := true
        membership := some ⟨origin, 0, members⟩ } := by
  rw [RaftState.initializeWith] at succeeded
  split at succeeded
  · cases succeeded
  · rename_i blank
    simp only [not_or, Bool.not_eq_true, Option.isSome_eq_false_iff, Option.isNone_iff_eq_none]
      at blank
    cases succeeded
    exact ⟨blank.1, blank.2.1, blank.2.2, rfl⟩

/-- A node without a vote that runs holds no membership. -/
theorem Node.Voted.blank {node : Node} (voted : node.Voted) (running : node.running = true)
    (voteless : node.raft.vote = false) (membership : ClusterMembership) :
    ¬ node.Holds membership := by
  rintro (held | held | held)
  · exact absurd (voted.raft membership (.inl held)) (by rw [voteless]; decide)
  · exact absurd (voted.raft membership (.inr held)) (by rw [voteless]; decide)
  · exact absurd (voted.saved membership running held) (by rw [voteless]; decide)

/-- A founding by a node without a vote, while no other node holds a membership, is the first
one whose memberships are still held. -/
theorem Cluster.OneOrigin.bootstrap (one : cluster.OneOrigin) {id : Nat}
    {afterwards : MembershipTask} (unverified : afterwards ≠ .verifying)
    (running : (cluster.nodes id).running = true)
    (alone : cluster.foundings < (cluster.bootstrap addr id afterwards).foundings →
      ∀ other, other ≠ id → ∀ membership, ¬ (cluster.nodes other).Holds membership) :
    (cluster.bootstrap addr id afterwards).OneOrigin := by
  cases founded : (cluster.nodes id).raft.initializeWith cluster.foundings [⟨id, addr id⟩] with
  | none =>
    simp only [Cluster.bootstrap, founded]
    exact one.setTask id rfl rfl (fun _ => running) fun verifies => absurd verifies unverified
  | some raft =>
    simp only [Cluster.bootstrap, founded] at alone ⊢
    have nobody := alone (Nat.lt_succ_self _)
    obtain ⟨voteless, _, _, rfl⟩ := initializeWith_eq_some founded
    have unheld := (one.voted id).blank running voteless
    -- the founding node holds the new membership, and nobody holds another
    have holds (holder : Nat) (membership : ClusterMembership)
        (held : ((cluster.set id { cluster.nodes id with
          raft := { (cluster.nodes id).raft with
            vote := true
            log := true
            membership := some ⟨cluster.foundings, 0, [⟨id, addr id⟩]⟩ }
          task := .finished }).nodes holder).Holds membership) :
        membership.origin = cluster.foundings := by
      by_cases same : holder = id
      · subst same
        rw [Cluster.set_nodes_self] at held
        rcases held with new | old | old
        · cases new
          rfl
        · exact absurd (Or.inr (Or.inl old)) (unheld membership)
        · exact absurd (Or.inr (Or.inr old)) (unheld membership)
      · rw [Cluster.set_nodes_of_ne _ _ same] at held
        exact absurd held (nobody holder same membership)
    constructor
    · intro first second firstMembership secondMembership firstHolds secondHolds
      exact (holds first _ firstHolds).trans (holds second _ secondHolds).symm
    · intro holder
      by_cases same : holder = id
      · subst same
        simp only [Cluster.set_nodes_self]
        exact ⟨fun _ _ => rfl, fun _ _ _ => rfl, fun _ _ => rfl⟩
      · simp only [Cluster.set_nodes_of_ne _ _ same]
        exact one.voted holder

/-- A change of a leader's membership keeps its origin. -/
theorem Cluster.OneOrigin.changeMembership (one : cluster.OneOrigin) {leader : Nat}
    {voters : List NodeInfo} (changed : cluster.changeMembership leader voters = some next) :
    next.OneOrigin := by
  rw [Cluster.changeMembership] at changed
  cases found : (cluster.nodes leader).raft.membership with
  | none =>
    simp only [found] at changed
    cases changed
  | some membership =>
    simp only [found] at changed
    cases changed
    have voted := (one.voted leader).raft membership (.inl found)
    refine one.set (fun other holds => ?_)
      ⟨fun _ _ => voted, fun _ _ _ => voted, fun _ _ => voted⟩
    rcases holds with new | old | old
    · cases new
      exact ⟨leader, membership, .inl found, rfl⟩
    · exact ⟨leader, other, .inr (.inl old), rfl⟩
    · exact ⟨leader, other, .inr (.inr old), rfl⟩

/-- A message of a cluster leaves a vote, and a membership that its source holds. -/
theorem Cluster.OneOrigin.receive (one : cluster.OneOrigin) (source : Nat) {target : Nat}
    {raft : RaftState} (voted : raft.vote = true)
    (applied : raft.applied = (cluster.nodes target).raft.applied)
    (membership : raft.membership = (cluster.nodes target).raft.membership ∨
      raft.membership = (cluster.nodes source).raft.membership) :
    (cluster.set target { cluster.nodes target with raft := raft }).OneOrigin := by
  refine one.set (fun held holds => ?_) ⟨fun _ _ => voted, fun _ _ _ => voted, fun _ _ => voted⟩
  rcases holds with effective | old | old
  · rcases membership with same | sent
    · exact ⟨target, held, .inl (same.symm.trans effective), rfl⟩
    · exact ⟨source, held, .inl (sent.symm.trans effective), rfl⟩
  · exact ⟨target, held, .inr (.inl (applied.symm.trans old)), rfl⟩
  · exact ⟨target, held, .inr (.inr old), rfl⟩

/-- A node that starts holds nothing it did not hold before, and has a vote if it restores a
snapshot. -/
theorem Cluster.OneOrigin.start (one : cluster.OneOrigin) (id : Nat) (logKept : Bool) :
    (cluster.set id
      { cluster.nodes id with
        running := true
        raft := restoreRaft (if logKept then (cluster.nodes id).raft else .blank)
          (cluster.nodes id).saved
        task := startTask addr id (cluster.nodes id).saved }).OneOrigin := by
  have kept (membership : ClusterMembership)
      (held : (if logKept then (cluster.nodes id).raft else .blank).membership = some membership ∨
        (if logKept then (cluster.nodes id).raft else .blank).applied = some membership) :
      (cluster.nodes id).raft.membership = some membership ∨
        (cluster.nodes id).raft.applied = some membership := by
    cases logKept with
    | true => exact held
    | false => rcases held with held | held <;> cases held
  have keptVote (membership : ClusterMembership)
      (held : (if logKept then (cluster.nodes id).raft else .blank).membership = some membership ∨
        (if logKept then (cluster.nodes id).raft else .blank).applied = some membership) :
      (if logKept then (cluster.nodes id).raft else .blank).vote = true := by
    cases logKept with
    | true => exact (one.voted id).raft membership held
    | false => rcases held with held | held <;> cases held
  cases saved : (cluster.nodes id).saved with
  | none =>
    refine one.set (fun membership holds => ⟨id, membership, ?_, rfl⟩) ⟨?_, ?_, ?_⟩
    · rcases holds with held | held | held
      · exact (kept membership (.inl held)).imp_right Or.inl
      · exact (kept membership (.inr held)).imp_right Or.inl
      · cases saved.symm.trans held
    · exact fun membership held => keptVote membership held
    · intro membership _ found
      cases saved.symm.trans found
    · intro _ verifies
      cases verifies
  | some snapshot =>
    refine one.set (fun membership holds => ?_) ⟨fun _ _ => rfl, fun _ _ _ => rfl, fun _ _ => rfl⟩
    rcases holds with held | held | held
    · cases effective : (if logKept then (cluster.nodes id).raft else .blank).membership with
      | none =>
        simp only [restoreRaft, effective, Option.getD_none] at held
        cases held
        exact ⟨id, snapshot, .inr (.inr saved), rfl⟩
      | some own =>
        simp only [restoreRaft, effective, Option.getD_some] at held
        cases held
        exact ⟨id, membership, (kept membership (.inl effective)).imp_right Or.inl, rfl⟩
    · cases held
      exact ⟨id, snapshot, .inr (.inr saved), rfl⟩
    · exact ⟨id, membership, .inr (.inr held), rfl⟩

/-- The steps of openraft and of its snapshots. -/
theorem Cluster.OneOrigin.apply (one : cluster.OneOrigin) (id : Nat) :
    (cluster.set id { cluster.nodes id with
      raft := { (cluster.nodes id).raft with
        applied := (cluster.nodes id).raft.membership } }).OneOrigin := by
  obtain ⟨raft, saved, verifying⟩ := one.voted id
  refine one.set (fun membership holds => ⟨id, membership, ?_, rfl⟩) ⟨?_, saved, verifying⟩
  · rcases holds with held | held | held
    · exact Or.inl held
    · exact Or.inl held
    · exact Or.inr (Or.inr held)
  · intro membership held
    rcases held with held | held
    · exact raft membership (.inl held)
    · exact raft membership (.inl held)

theorem Cluster.OneOrigin.upload (one : cluster.OneOrigin) (id : Nat) :
    (cluster.set id { cluster.nodes id with
      saved := (cluster.nodes id).raft.applied }).OneOrigin := by
  obtain ⟨raft, saved, verifying⟩ := one.voted id
  refine one.set (fun membership holds => ⟨id, membership, ?_, rfl⟩) ⟨raft, ?_, verifying⟩
  · rcases holds with held | held | held
    · exact Or.inl held
    · exact Or.inr (Or.inl held)
    · exact Or.inr (Or.inl held)
  · exact fun membership _ held => raft membership (.inr held)

/-- A step that only changes the leader a node knows. -/
theorem Cluster.OneOrigin.elect (one : cluster.OneOrigin) (id : Nat) (leader : Option Nat) :
    (cluster.set id { cluster.nodes id with
      raft := { (cluster.nodes id).raft with leader := leader } }).OneOrigin := by
  obtain ⟨raft, saved, verifying⟩ := one.voted id
  exact one.set (fun membership holds => ⟨id, membership, holds, rfl⟩) ⟨raft, saved, verifying⟩

/-- A pass that ends on a node 1 that is blank founds a cluster. -/
theorem endPass_founds (blank : (cluster.nodes 1).raft = .blank)
    (stepped : runningStep addr cluster 1 (.endPass 1) = some next) :
    next.foundings = cluster.foundings + 1 ∧ (next.nodes 1).raft.vote = true := by
  have founded : RaftState.blank.initializeWith cluster.foundings [⟨1, addr 1⟩] =
      some ⟨true, true, some ⟨cluster.foundings, 0, [⟨1, addr 1⟩]⟩, none, none⟩ := rfl
  have leaderless : RaftState.blank.leader.isSome = false := rfl
  rw [runningStep] at stepped
  simp only [blank, ne_eq, not_true_eq_false, if_false, leaderless, Bool.false_eq_true]
    at stepped
  split at stepped
  · cases stepped
    simp only [Cluster.bootstrap, blank, founded, Cluster.set_nodes_self, and_self]
  · cases stepped

/-- A pass that ends keeps the one origin if it founds a cluster only while no other node holds a
membership. -/
theorem Cluster.OneOrigin.endPass (one : cluster.OneOrigin) {id : Nat}
    (running : (cluster.nodes id).running = true)
    (stepped : runningStep addr cluster id (.endPass id) = some next)
    (alone : cluster.foundings < next.foundings →
      ∀ other, other ≠ 1 → ∀ membership, ¬ (cluster.nodes other).Holds membership) :
    next.OneOrigin := by
  rw [runningStep] at stepped
  split at stepped
  · split at stepped
    · cases stepped
      exact one.setTask id rfl rfl (fun _ => running) nofun
    · rename_i first
      rw [not_not] at first
      subst first
      split at stepped
      · cases stepped
        exact one.setTask 1 rfl rfl (fun _ => running) nofun
      · cases stepped
        exact one.bootstrap nofun running alone
  · cases stepped

/-- A check of a restored membership never founds a cluster: the restored node has a vote. -/
theorem verify_eq_set {id : Nat} {answered : List ClusterStatus} {discovered : List String}
    (voted : (cluster.nodes id).task = .verifying → (cluster.nodes id).raft.vote = true)
    (stepped : runningStep addr cluster id (.verify id answered discovered) = some next) :
    ∃ task, task ≠ .verifying ∧ next = cluster.set id { cluster.nodes id with task := task } := by
  rw [runningStep] at stepped
  split at stepped
  · rename_i verifying
    split at stepped
    · split at stepped
      · cases stepped
        refine ⟨.finished, nofun, ?_⟩
        exact bootstrap_of_vote id .finished (voted verifying)
      · cases stepped
        exact ⟨.finished, nofun, rfl⟩
    · cases stepped
      exact ⟨.finished, nofun, rfl⟩
    · cases stepped
      exact ⟨.joining _, nofun, rfl⟩
  · cases stepped

theorem Cluster.OneOrigin.running (one : cluster.OneOrigin) {label : ClusterLabel}
    (running : (cluster.nodes label.actor).running = true)
    (stepped : runningStep addr cluster label.actor label = some next)
    (alone : cluster.foundings < next.foundings →
      ∀ other, other ≠ 1 → ∀ membership, ¬ (cluster.nodes other).Holds membership) :
    next.OneOrigin := by
  cases label with
  | start id logKept => cases stepped
  | crash id =>
    cases stepped
    exact one.setTask id rfl rfl nofun fun verifies => verifies
  | apply id =>
    cases stepped
    exact one.apply id
  | upload id =>
    cases stepped
    exact one.upload id
  | requestVote source target =>
    rw [runningStep] at stepped
    simp only at stepped
    split at stepped
    · cases stepped
      exact one.receive source rfl rfl (Or.inl rfl)
    · cases stepped
  | appendEntries source target =>
    rw [runningStep] at stepped
    simp only at stepped
    split at stepped
    · cases stepped
    · rename_i membership found
      split at stepped
      · cases stepped
        exact one.receive source rfl rfl (Or.inr found.symm)
      · cases stepped
  | elect id =>
    rw [runningStep] at stepped
    simp only at stepped
    split at stepped
    · cases stepped
    · split at stepped
      · cases stepped
        exact one.elect id (some id)
      · cases stepped
  | join leader request =>
    rw [runningStep] at stepped
    split at stepped
    · cases stepped
    · exact one.changeMembership stepped
  | leave leader nodeId =>
    rw [runningStep] at stepped
    split at stepped
    · cases stepped
    · exact one.changeMembership stepped
  | replaceVoters leader voters =>
    rw [runningStep] at stepped
    split at stepped
    · exact one.changeMembership stepped
    · cases stepped
  | discover id discovered =>
    rw [runningStep] at stepped
    split at stepped
    · cases stepped
      exact one.setTask id rfl rfl (fun _ => running) nofun
    · cases stepped
  | askPeer id answers =>
    rw [runningStep] at stepped
    split at stepped
    · cases stepped
      refine one.setTask id rfl rfl (fun _ => running) fun verifies => ?_
      simp only at verifies
      split at verifies <;> cases verifies
    · cases stepped
  | endPass id => exact one.endPass running stepped alone
  | verify id answered discovered =>
    obtain ⟨task, unverified, rfl⟩ := verify_eq_set ((one.voted id).verifying running) stepped
    exact one.setTask id rfl rfl (fun _ => running) fun verifies => absurd verifies unverified

/-- A step starts a node or is a step of a running one. -/
theorem clusterStep_cases {label : ClusterLabel}
    (stepped : clusterStep addr cluster label = some next) :
    (∃ id logKept, label = .start id logKept ∧ next = cluster.set id
      { cluster.nodes id with
        running := true
        raft := restoreRaft (if logKept then (cluster.nodes id).raft else .blank)
          (cluster.nodes id).saved
        task := startTask addr id (cluster.nodes id).saved }) ∨
    (cluster.nodes label.actor).running = true ∧
      runningStep addr cluster label.actor label = some next := by
  cases label with
  | start id logKept =>
    refine Or.inl ⟨id, logKept, rfl, ?_⟩
    exact (Option.some.inj (Option.ite_none_left_eq_some.mp stepped).2).symm
  | _ => exact Or.inr (Option.ite_none_right_eq_some.mp stepped)

theorem Cluster.OneOrigin.step (one : cluster.OneOrigin) {label : ClusterLabel}
    (stepped : clusterStep addr cluster label = some next)
    (alone : FoundsAlone addr cluster label) : next.OneOrigin := by
  rcases clusterStep_cases stepped with ⟨id, logKept, _, rfl⟩ | ⟨running, ran⟩
  · exact one.start id logKept
  · exact one.running running ran (alone next stepped)

end Steps

/-! ### What node 1 remembers -/

/-- Without a vote the Raft state of the node is the blank one; a check of a restored membership
follows a restore, which leaves a vote. -/
structure Node.Seeded (node : Node) : Prop where
  blank : node.raft.vote = false → node.raft = .blank
  verifying : node.task = .verifying → node.raft.vote = true

theorem Node.Seeded.of_vote {node : Node} (voted : node.raft.vote = true) : node.Seeded where
  blank voteless := absurd voted (by rw [voteless]; decide)
  verifying _ := voted

/-- A node with a membership has a vote. -/
theorem Node.Seeded.voted {node : Node} (seeded : node.Seeded) {membership : ClusterMembership}
    (found : node.raft.membership = some membership) : node.raft.vote = true := by
  by_contra voteless
  rw [seeded.blank (Bool.eq_false_iff.mpr voteless)] at found
  cases found

section Memory

variable {addr : Nat → String} {cluster next : Cluster} {label : ClusterLabel}

/-- Node 1 has a vote after the step exactly if the step informs it, or it had one and did not
start without its log. -/
structure VoteMoves (cluster : Cluster) (label : ClusterLabel) (next : Cluster) : Prop where
  seeded : (next.nodes 1).Seeded
  vote : (next.nodes 1).raft.vote = true ↔
    Informs cluster label ∨ (cluster.nodes 1).raft.vote = true ∧ label ≠ .start 1 false

/-- A step that gives node 1 a vote. -/
theorem VoteMoves.voted (voted : (next.nodes 1).raft.vote = true)
    (reason : Informs cluster label ∨ (cluster.nodes 1).raft.vote = true ∧
      label ≠ .start 1 false) : VoteMoves cluster label next where
  seeded := .of_vote voted
  vote := iff_of_true voted reason

/-- A step that leaves the vote of node 1 as it is, and its Raft state blank if it was. -/
theorem VoteMoves.kept (seeded : (cluster.nodes 1).Seeded) (uninformed : ¬ Informs cluster label)
    (other : label ≠ .start 1 false)
    (vote : (next.nodes 1).raft.vote = (cluster.nodes 1).raft.vote)
    (blank : (cluster.nodes 1).raft = .blank → (next.nodes 1).raft = .blank)
    (task : (next.nodes 1).task = .verifying → (cluster.nodes 1).task = .verifying) :
    VoteMoves cluster label next where
  seeded :=
    { blank := fun voteless => blank (seeded.blank (vote.symm.trans voteless))
      verifying := fun verifies => vote.trans (seeded.verifying (task verifies)) }
  vote := by rw [vote, or_iff_right uninformed, and_iff_left other]

/-- A step of one node that moves neither its vote nor its task to a check. -/
theorem VoteMoves.set (seeded : (cluster.nodes 1).Seeded) (uninformed : ¬ Informs cluster label)
    (other : label ≠ .start 1 false) (id : Nat) {node : Node}
    (vote : node.raft.vote = (cluster.nodes id).raft.vote)
    (blank : (cluster.nodes id).raft = .blank → node.raft = .blank)
    (task : node.task = .verifying → (cluster.nodes id).task = .verifying) :
    VoteMoves cluster label (cluster.set id node) := by
  by_cases first : 1 = id
  · subst first
    refine .kept seeded uninformed other ?_ ?_ ?_
    · rwa [Cluster.set_nodes_self]
    · rwa [Cluster.set_nodes_self]
    · rwa [Cluster.set_nodes_self]
  · refine .kept seeded uninformed other ?_ ?_ ?_
    · rw [Cluster.set_nodes_of_ne _ _ first]
    · rw [Cluster.set_nodes_of_ne _ _ first]
      exact fun blank => blank
    · rw [Cluster.set_nodes_of_ne _ _ first]
      exact fun verifies => verifies

/-- A message from a member leaves its target with a vote. -/
theorem VoteMoves.receive (seeded : (cluster.nodes 1).Seeded) {target : Nat} {node : Node}
    (informs : Informs cluster label ↔ target = 1) (other : label ≠ .start 1 false)
    (voted : node.raft.vote = true) : VoteMoves cluster label (cluster.set target node) := by
  by_cases first : 1 = target
  · subst first
    exact .voted (by rwa [Cluster.set_nodes_self]) (Or.inl (informs.mpr rfl))
  · refine .kept seeded (fun informed => first (informs.mp informed).symm) other ?_ ?_ ?_
    · rw [Cluster.set_nodes_of_ne _ _ first]
    · rw [Cluster.set_nodes_of_ne _ _ first]
      exact fun blank => blank
    · rw [Cluster.set_nodes_of_ne _ _ first]
      exact fun verifies => verifies

/-- A change of a leader's membership: if it is node 1, it has a vote. -/
theorem VoteMoves.changeMembership (seeded : (cluster.nodes 1).Seeded)
    (uninformed : ¬ Informs cluster label) (other : label ≠ .start 1 false) {leader : Nat}
    {voters : List NodeInfo} (changed : cluster.changeMembership leader voters = some next) :
    VoteMoves cluster label next := by
  rw [Cluster.changeMembership] at changed
  cases found : (cluster.nodes leader).raft.membership with
  | none =>
    simp only [found] at changed
    cases changed
  | some membership =>
    simp only [found] at changed
    cases changed
    refine .set seeded uninformed other leader rfl (fun blank => ?_) fun verifies => verifies
    rw [blank] at found
    cases found

/-- A founding that fails leaves the foundings and node 1 as they are, but for its task. -/
theorem VoteMoves.endPass (seeded : (cluster.nodes 1).Seeded) {id : Nat}
    (stepped : runningStep addr cluster id (.endPass id) = some next) :
    VoteMoves cluster (.endPass id) next := by
  by_cases first : id = 1
  · subst first
    refine .voted ?_ (Or.inl rfl)
    cases voted : (cluster.nodes 1).raft.vote with
    | true =>
      rw [runningStep] at stepped
      split at stepped
      · simp only [ne_eq, not_true_eq_false, if_false] at stepped
        split at stepped
        · cases stepped
          rwa [Cluster.set_nodes_self]
        · cases stepped
          rwa [bootstrap_of_vote 1 _ voted, Cluster.set_nodes_self]
      · cases stepped
    | false =>
      exact (endPass_founds (seeded.blank voted) stepped).2
  · rw [runningStep] at stepped
    simp only [if_pos first] at stepped
    split at stepped
    · cases stepped
      exact .set seeded (by exact first) (by nofun) id rfl (fun blank => blank) nofun
    · cases stepped

theorem VoteMoves.verify (seeded : (cluster.nodes 1).Seeded) {id : Nat}
    {answered : List ClusterStatus} {discovered : List String}
    (stepped : runningStep addr cluster id (.verify id answered discovered) = some next) :
    VoteMoves cluster (.verify id answered discovered) next := by
  by_cases first : id = 1
  · subst first
    obtain ⟨task, unverified, rfl⟩ := verify_eq_set seeded.verifying stepped
    exact .set seeded (by nofun) (by nofun) 1 rfl (fun blank => blank)
      fun verifies => absurd verifies unverified
  · rw [runningStep] at stepped
    split at stepped
    · split at stepped
      · simp only [if_neg first] at stepped
        cases stepped
        exact .set seeded (by nofun) (by nofun) id rfl (fun blank => blank) nofun
      · cases stepped
        exact .set seeded (by nofun) (by nofun) id rfl (fun blank => blank) nofun
      · cases stepped
        exact .set seeded (by nofun) (by nofun) id rfl (fun blank => blank) nofun
    · cases stepped

theorem VoteMoves.start (seeded : (cluster.nodes 1).Seeded) (id : Nat) (logKept : Bool) :
    VoteMoves cluster (.start id logKept) (cluster.set id
      { cluster.nodes id with
        running := true
        raft := restoreRaft (if logKept then (cluster.nodes id).raft else .blank)
          (cluster.nodes id).saved
        task := startTask addr id (cluster.nodes id).saved }) := by
  by_cases first : 1 = id
  · subst first
    cases saved : (cluster.nodes 1).saved with
    | some snapshot =>
      refine .voted ?_ (Or.inl ⟨rfl, by rw [saved]; rfl⟩)
      rw [Cluster.set_nodes_self]
      rfl
    | none =>
      have uninformed : ¬ Informs cluster (.start 1 logKept) := by
        rintro ⟨_, restored⟩
        rw [saved] at restored
        cases restored
      cases logKept with
      | true =>
        refine .kept seeded uninformed nofun ?_ ?_ ?_
        · rw [Cluster.set_nodes_self]
          rfl
        · intro blank
          rw [Cluster.set_nodes_self, if_pos rfl, blank]
          rfl
        · rw [Cluster.set_nodes_self]
          exact nofun
      | false =>
        constructor
        · rw [Cluster.set_nodes_self]
          exact ⟨fun _ => rfl, nofun⟩
        · rw [Cluster.set_nodes_self]
          refine iff_of_false nofun ?_
          rintro (informed | ⟨_, other⟩)
          · exact uninformed informed
          · exact other rfl
  · refine .kept seeded (fun informed => first informed.1.symm) ?_ ?_ ?_ ?_
    · rintro same
      cases same
      exact first rfl
    · rw [Cluster.set_nodes_of_ne _ _ first]
    · rw [Cluster.set_nodes_of_ne _ _ first]
      exact fun blank => blank
    · rw [Cluster.set_nodes_of_ne _ _ first]
      exact fun verifies => verifies

theorem VoteMoves.running (seeded : (cluster.nodes 1).Seeded)
    (stepped : runningStep addr cluster label.actor label = some next) :
    VoteMoves cluster label next := by
  cases label with
  | start id logKept => cases stepped
  | crash id =>
    cases stepped
    exact .set seeded (by nofun) (by nofun) id rfl (fun blank => blank) fun verifies => verifies
  | apply id =>
    cases stepped
    refine .set seeded (by nofun) (by nofun) id rfl (fun blank => ?_) fun verifies => verifies
    simp only [ClusterLabel.actor, blank]
    rfl
  | upload id =>
    cases stepped
    exact .set seeded (by nofun) (by nofun) id rfl (fun blank => blank) fun verifies => verifies
  | requestVote source target =>
    rw [runningStep] at stepped
    simp only at stepped
    split at stepped
    · cases stepped
      exact .receive seeded Iff.rfl (by nofun) rfl
    · cases stepped
  | appendEntries source target =>
    rw [runningStep] at stepped
    simp only at stepped
    split at stepped
    · cases stepped
    · split at stepped
      · cases stepped
        exact .receive seeded Iff.rfl (by nofun) rfl
      · cases stepped
  | elect id =>
    rw [runningStep] at stepped
    simp only at stepped
    split at stepped
    · cases stepped
    · rename_i membership found
      split at stepped
      · cases stepped
        refine .set seeded (by nofun) (by nofun) id rfl (fun blank => ?_) fun verifies => verifies
        rw [ClusterLabel.actor, blank] at found
        cases found
      · cases stepped
  | join leader request =>
    rw [runningStep] at stepped
    split at stepped
    · cases stepped
    · exact .changeMembership seeded (by nofun) (by nofun) stepped
  | leave leader nodeId =>
    rw [runningStep] at stepped
    split at stepped
    · cases stepped
    · exact .changeMembership seeded (by nofun) (by nofun) stepped
  | replaceVoters leader voters =>
    rw [runningStep] at stepped
    split at stepped
    · exact .changeMembership seeded (by nofun) (by nofun) stepped
    · cases stepped
  | discover id discovered =>
    rw [runningStep] at stepped
    split at stepped
    · cases stepped
      exact .set seeded (by nofun) (by nofun) id rfl (fun blank => blank) nofun
    · cases stepped
  | askPeer id answers =>
    rw [runningStep] at stepped
    split at stepped
    · cases stepped
      refine .set seeded (by nofun) (by nofun) id rfl (fun blank => blank) fun verifies => ?_
      simp only at verifies
      split at verifies <;> cases verifies
    · cases stepped
  | endPass id => exact .endPass seeded stepped
  | verify id answered discovered => exact .verify seeded stepped

theorem VoteMoves.step (seeded : (cluster.nodes 1).Seeded)
    (stepped : clusterStep addr cluster label = some next) : VoteMoves cluster label next := by
  rcases clusterStep_cases stepped with ⟨id, logKept, rfl, rfl⟩ | ⟨_, ran⟩
  · exact .start seeded id logKept
  · exact .running seeded ran

/-! ### Foundings -/

theorem foundings_changeMembership {leader : Nat} {voters : List NodeInfo}
    (changed : cluster.changeMembership leader voters = some next) :
    next.foundings = cluster.foundings := by
  rw [Cluster.changeMembership] at changed
  split at changed
  · cases changed
  · cases changed
    rfl

/-- Only the end of a pass of node 1 founds a cluster, and only without a vote. -/
theorem foundings_endPass {id : Nat}
    (stepped : runningStep addr cluster id (.endPass id) = some next) :
    next.foundings = cluster.foundings ∨ id = 1 ∧ (cluster.nodes 1).raft.vote = false := by
  by_cases first : id = 1
  · subst first
    cases voted : (cluster.nodes 1).raft.vote with
    | false => exact Or.inr ⟨rfl, rfl⟩
    | true =>
      refine Or.inl ?_
      rw [runningStep] at stepped
      split at stepped
      · simp only [ne_eq, not_true_eq_false, if_false] at stepped
        split at stepped
        · cases stepped
          rfl
        · cases stepped
          rw [bootstrap_of_vote 1 _ voted]
          rfl
      · cases stepped
  · refine Or.inl ?_
    rw [runningStep] at stepped
    simp only [if_pos first] at stepped
    split at stepped
    · cases stepped
      rfl
    · cases stepped

theorem foundings_verify (seeded : (cluster.nodes 1).Seeded) {id : Nat}
    {answered : List ClusterStatus} {discovered : List String}
    (stepped : runningStep addr cluster id (.verify id answered discovered) = some next) :
    next.foundings = cluster.foundings := by
  by_cases first : id = 1
  · subst first
    obtain ⟨task, _, rfl⟩ := verify_eq_set seeded.verifying stepped
    rfl
  · rw [runningStep] at stepped
    split at stepped
    · split at stepped
      · simp only [if_neg first] at stepped
        cases stepped
        rfl
      · cases stepped
        rfl
      · cases stepped
        rfl
    · cases stepped

theorem foundings_step (seeded : (cluster.nodes 1).Seeded)
    (stepped : clusterStep addr cluster label = some next) :
    next.foundings = cluster.foundings ∨
      label = .endPass 1 ∧ (cluster.nodes 1).raft.vote = false := by
  rcases clusterStep_cases stepped with ⟨id, logKept, rfl, rfl⟩ | ⟨_, stepped⟩
  · exact Or.inl rfl
  · cases label with
    | endPass id =>
      refine (foundings_endPass stepped).imp_right fun ⟨first, voteless⟩ => ⟨?_, voteless⟩
      exact congrArg ClusterLabel.endPass first
    | verify id answered discovered => exact Or.inl (foundings_verify seeded stepped)
    | start id logKept => cases stepped
    | crash id | apply id | upload id =>
      cases stepped
      exact Or.inl rfl
    | requestVote source target =>
      rw [runningStep] at stepped
      obtain ⟨_, same⟩ := Option.ite_none_right_eq_some.mp stepped
      cases same
      exact Or.inl rfl
    | appendEntries source target =>
      rw [runningStep] at stepped
      simp only at stepped
      split at stepped
      · cases stepped
      · obtain ⟨_, same⟩ := Option.ite_none_right_eq_some.mp stepped
        cases same
        exact Or.inl rfl
    | elect id =>
      rw [runningStep] at stepped
      simp only at stepped
      split at stepped
      · cases stepped
      · obtain ⟨_, same⟩ := Option.ite_none_right_eq_some.mp stepped
        cases same
        exact Or.inl rfl
    | join leader request | leave leader nodeId =>
      rw [runningStep] at stepped
      split at stepped
      · cases stepped
      · exact Or.inl (foundings_changeMembership stepped)
    | replaceVoters leader voters =>
      rw [runningStep] at stepped
      obtain ⟨_, changed⟩ := Option.ite_none_right_eq_some.mp stepped
      exact Or.inl (foundings_changeMembership changed)
    | discover id discovered | askPeer id answers =>
      rw [runningStep] at stepped
      split at stepped
      · cases stepped
        exact Or.inl rfl
      · cases stepped

/-! ### The history of node 1 -/

/-- The history grows by a step: it informs node 1, or node 1 keeps what it remembers. -/
theorem remembers_concat {history : List ClusterLabel}
    (before : run (clusterStep addr) Cluster.empty history = some cluster) :
    Remembers addr (history ++ [label]) ↔
      Informs cluster label ∨ Remembers addr history ∧ label ≠ .start 1 false := by
  constructor
  · rintro ⟨earlier, informing, after, reached, split, reaches, informs, kept⟩
    rcases concat_eq_append_cons_iff.mp split with ⟨_, rfl, rfl⟩ | ⟨middle, rfl, rfl⟩
    · cases before.symm.trans reaches
      exact Or.inl informs
    · rw [List.mem_append, List.mem_singleton, not_or] at kept
      exact Or.inr ⟨⟨earlier, informing, middle, reached, rfl, reaches, informs, kept.1⟩,
        Ne.symm kept.2⟩
  · rintro (informs | ⟨⟨earlier, informing, middle, reached, rfl, reaches, informs, kept⟩, other⟩)
    · exact ⟨history, label, [], cluster, rfl, before, informs, List.not_mem_nil⟩
    · refine ⟨earlier, informing, middle ++ [label], reached, by simp, reaches, informs, ?_⟩
      rw [List.mem_append, List.mem_singleton, not_or]
      exact ⟨kept, Ne.symm other⟩

/-- Node 1 has a vote exactly if it remembers a cluster, and is blank otherwise. -/
structure Aware (addr : Nat → String) (history : List ClusterLabel) (cluster : Cluster) :
    Prop where
  seeded : (cluster.nodes 1).Seeded
  vote : (cluster.nodes 1).raft.vote = true ↔ Remembers addr history

theorem aware_empty : Aware addr [] Cluster.empty where
  seeded := ⟨fun _ => rfl, nofun⟩
  vote := by
    refine iff_of_false nofun ?_
    rintro ⟨before, informing, after, _, split, _⟩
    exact absurd split.symm (List.append_ne_nil_of_right_ne_nil _ (List.cons_ne_nil _ _))

theorem Aware.step {history : List ClusterLabel} (aware : Aware addr history cluster)
    (before : run (clusterStep addr) Cluster.empty history = some cluster)
    (stepped : clusterStep addr cluster label = some next) :
    Aware addr (history ++ [label]) next := by
  obtain ⟨seeded, vote⟩ := VoteMoves.step aware.seeded stepped
  exact ⟨seeded, by rw [vote, remembers_concat before, aware.vote]⟩

/-- What node 1 remembers decides whether its pass founds a cluster beside another one. -/
theorem Aware.heard_iff {history : List ClusterLabel} (aware : Aware addr history cluster) :
    Heard addr history cluster label ↔ FoundsAlone addr cluster label := by
  constructor
  · intro heard next stepped founded other different membership holds
    rcases foundings_step aware.seeded stepped with same | ⟨ended, voteless⟩
    · exact absurd founded (by rw [same]; exact Nat.lt_irrefl _)
    · have remembers := heard ended (by rw [stepped]; rfl) ⟨other, different, membership, holds⟩
      exact absurd (aware.vote.mpr remembers) (by rw [voteless]; decide)
  · rintro alone rfl enabled ⟨other, different, membership, holds⟩
    by_contra forgotten
    obtain ⟨next, stepped⟩ := Option.isSome_iff_exists.mp enabled
    have blank := aware.seeded.blank (Bool.eq_false_iff.mpr fun voted =>
      forgotten (aware.vote.mp voted))
    obtain ⟨_, _, started, _⟩ | ⟨_, ran⟩ := clusterStep_cases stepped
    · cases started
    · have founded := (endPass_founds blank ran).1
      exact alone next stepped (by rw [founded]; exact Nat.lt_succ_self _) other different
        membership holds

end Memory

/-! ### One cluster -/

/-- The node runs and leads a cluster with the membership. -/
def Cluster.Leads (cluster : Cluster) (id : Nat) (membership : ClusterMembership) : Prop :=
  (cluster.nodes id).running = true ∧ (cluster.nodes id).raft.leader = some id ∧
    (cluster.nodes id).raft.membership = some membership

/-- Along a run that starts from nothing, what node 1 remembers when its passes end decides whether
every founding happens while no other node holds a membership. -/
theorem heard_iff_foundsAlone (addr : Nat → String) (labels : List ClusterLabel) :
    AlongHistory (clusterStep addr) (Heard addr) [] Cluster.empty labels ↔
      Along (clusterStep addr) (FoundsAlone addr) Cluster.empty labels := by
  refine alongHistory_iff_along (Aware addr) ?_ ?_ rfl aware_empty
  · exact fun _ _ _ _ before stepped aware => aware.step before stepped
  · exact fun _ _ _ aware => aware.heard_iff

/-- In every run: no cluster is founded while another node holds a membership, in its Raft state
or in its snapshot, exactly if node 1 remembers a cluster whenever a pass of it ends while another
node does. And in such a run all leaders of every state reached lead clusters of one founding. -/
theorem bootstrap_never_splits (addr : Nat → String) (labels : List ClusterLabel) :
    (AlongHistory (clusterStep addr) (Heard addr) [] Cluster.empty labels ↔
      Along (clusterStep addr) (FoundsAlone addr) Cluster.empty labels) ∧
    (AlongHistory (clusterStep addr) (Heard addr) [] Cluster.empty labels →
      ∀ count cluster first second firstMembership secondMembership,
        run (clusterStep addr) Cluster.empty (labels.take count) = some cluster →
        cluster.Leads first firstMembership → cluster.Leads second secondMembership →
        firstMembership.origin = secondMembership.origin) := by
  refine ⟨heard_iff_foundsAlone addr labels, fun heard => ?_⟩
  intro count cluster first second firstMembership secondMembership reached firstLeads secondLeads
  have alone := (heard_iff_foundsAlone addr labels).mp heard
  have one : cluster.OneOrigin :=
    run_invariant_along Cluster.OneOrigin
      (fun _ _ _ stepped aloneHere one => one.step stepped aloneHere) reached
      (along_take alone count) Cluster.oneOrigin_empty
  exact one.origin first second _ _ (Or.inl firstLeads.2.2) (Or.inl secondLeads.2.2)

/-! ### Two clusters -/

def sampleAddr (id : Nat) : String :=
  "layerhouse-" ++ toString (id - 1) ++ ".layerhouse-headless:5051"

/-- No call to the peer succeeds. -/
def unreachable : PeerAnswers where
  status := none
  join := none
  leaderStatus := none
  redirectedJoin := none
  redirectedLeaderStatus := none

/-- Node 1 founds a cluster, and nodes 2 and 3 join it. -/
def sampleFormation : List ClusterLabel :=
  [.start 1 false, .discover 1 [], .endPass 1, .elect 1,
    .start 2 false, .join 1 ⟨2, sampleAddr 2⟩, .appendEntries 1 2,
    .start 3 false, .join 1 ⟨3, sampleAddr 3⟩, .appendEntries 1 2, .appendEntries 1 3]

/-- Node 1 crashes before its first upload and loses its log; the others elect a leader. When
node 1 comes back, its calls to the peers fail. -/
def sampleSplit : List ClusterLabel :=
  sampleFormation ++ [.crash 1, .elect 2, .appendEntries 2 3, .start 1 false,
    .discover 1 [sampleAddr 2, sampleAddr 3], .askPeer 1 unreachable, .askPeer 1 unreachable,
    .endPass 1, .elect 1]

/-- Node 1 founds a second cluster while nodes 2 and 3 run the first one, and both clusters have
a leader. -/
theorem bootstrap_splits_cluster :
    ∃ cluster firstMembership secondMembership,
      run (clusterStep sampleAddr) Cluster.empty sampleSplit = some cluster ∧
      cluster.foundings = 2 ∧
      cluster.Leads 1 firstMembership ∧ cluster.Leads 2 secondMembership ∧
      firstMembership.origin ≠ secondMembership.origin :=
  ⟨_, _, _, rfl, rfl, ⟨rfl, rfl, rfl⟩, ⟨rfl, rfl, rfl⟩, by decide⟩

/-- The same restart of node 1, but a message of the new leader reaches it during the pass. -/
def sampleReturn : List ClusterLabel :=
  [.crash 1, .elect 2, .start 1 false, .discover 1 [sampleAddr 2, sampleAddr 3],
    .appendEntries 2 1, .askPeer 1 unreachable, .askPeer 1 unreachable]

/-- A step that ends no pass of node 1 needs no memory. -/
theorem heard_of_ne {addr : Nat → String} {history : List ClusterLabel} {cluster : Cluster}
    {label : ClusterLabel} (other : label ≠ .endPass 1) : Heard addr history cluster label :=
  fun ended => absurd ended other

theorem sampleFormation_heard :
    AlongHistory (clusterStep sampleAddr) (Heard sampleAddr) [] Cluster.empty
      sampleFormation := by
  refine ⟨heard_of_ne nofun, fun _ started => ⟨heard_of_ne nofun, fun _ asked => ⟨?_,
    fun _ _ => ?_⟩⟩⟩
  · cases started
    cases asked
    rintro _ _ ⟨other, different, membership, held⟩
    simp only [ClusterLabel.actor, Cluster.set_nodes_of_ne _ _ different] at held
    rcases held with held | held | held <;> cases held
  · exact ⟨heard_of_ne nofun, fun _ _ => ⟨heard_of_ne nofun, fun _ _ => ⟨heard_of_ne nofun,
      fun _ _ => ⟨heard_of_ne nofun, fun _ _ => ⟨heard_of_ne nofun, fun _ _ =>
      ⟨heard_of_ne nofun, fun _ _ => ⟨heard_of_ne nofun, fun _ _ => ⟨heard_of_ne nofun,
      fun _ _ => trivial⟩⟩⟩⟩⟩⟩⟩⟩

/-- Node 1 then founds nothing, and node 2 is the only leader. -/
theorem bootstrap_never_splits_sample :
    ∃ cluster membership,
      run (clusterStep sampleAddr) Cluster.empty
        ((sampleFormation ++ (sampleReturn ++ [ClusterLabel.endPass 1])).take 19) =
          some cluster ∧
      cluster.Leads 2 membership ∧
      ∀ id other, cluster.Leads id other → other.origin = membership.origin := by
  have heard : AlongHistory (clusterStep sampleAddr) (Heard sampleAddr) [] Cluster.empty
      (sampleFormation ++ (sampleReturn ++ [ClusterLabel.endPass 1])) := by
    refine alongHistory_append sampleFormation_heard fun _ _ => alongHistory_append ?_ ?_
    · exact ⟨heard_of_ne nofun, fun _ _ => ⟨heard_of_ne nofun, fun _ _ => ⟨heard_of_ne nofun,
        fun _ _ => ⟨heard_of_ne nofun, fun _ _ => ⟨heard_of_ne nofun, fun _ _ =>
        ⟨heard_of_ne nofun, fun _ _ => ⟨heard_of_ne nofun, fun _ _ => trivial⟩⟩⟩⟩⟩⟩⟩
    · -- the append of node 2 is what node 1 remembers
      refine fun _ _ => ⟨fun _ _ _ => ?_, fun _ _ => trivial⟩
      exact ⟨sampleFormation ++ sampleReturn.take 4, .appendEntries 2 1,
        [.askPeer 1 unreachable, .askPeer 1 unreachable], _, rfl, rfl, rfl, by simp⟩
  refine ⟨_, _, rfl, ⟨rfl, rfl, rfl⟩, fun id other leads => ?_⟩
  exact (bootstrap_never_splits sampleAddr _).2 heard 19 _ id 2 _ _ rfl leads ⟨rfl, rfl, rfl⟩

end Layerhouse
