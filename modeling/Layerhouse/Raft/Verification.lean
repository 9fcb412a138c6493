/-
This file is about the check that a node makes of a membership it has restored, `verify_or_rejoin`
of `raft/membership/mod.rs`: which peers it asks, and what a confirmation by their statuses means.

The check counts statuses, and one node may give several, under several addresses. Of the statuses
some are authoritative, those that are not far behind the newest one, and there always is one if
any other node has answered. A confirmation comes from a majority of the authoritative nodes exactly
if the statuses that repeat a node do not tip the count. When no other node has answered there is
nothing to check against, and the check ends without a confirmation and without a new join.
-/

import Layerhouse.Library.Headcounts
import Layerhouse.Raft.Membership

namespace Layerhouse

/-! ### The statuses -/

/-- The statuses of the peers that answered in time, in the order the peers are asked. -/
def gatherStatuses (answer : String → Option ClusterStatus) (peers : List String) :
    List ClusterStatus :=
  peers.filterMap answer

/-- `verify_or_rejoin`; the peers are the other members of the restored membership, or the
discovered ones if there are none. -/
def verifyOrRejoin (nodeId : Nat) (restored : List NodeInfo) (discovered : List String)
    (answer : String → Option ClusterStatus) : Verification :=
  let restoredPeers := restoredMembershipPeerTargets restored nodeId
  let discoveredPeers := if restoredPeers.isEmpty then discovered else []
  verifyMembership nodeId
    (gatherStatuses answer (selectVerificationPeerTargets restoredPeers discoveredPeers))

/-- The answers of other nodes. -/
def otherStatuses (nodeId : Nat) (answered : List ClusterStatus) : List ClusterStatus :=
  answered.filter (·.nodeId ≠ nodeId)

def maxApplied (statuses : List ClusterStatus) : Nat :=
  (statuses.filterMap (·.lastAppliedLog)).foldl max 0

/-- The statuses whose log is within the tolerance of the newest one. -/
def authoritativeStatuses (nodeId : Nat) (answered : List ClusterStatus) : List ClusterStatus :=
  (otherStatuses nodeId answered).filter fun status =>
    maxApplied (otherStatuses nodeId answered) - authoritativeLogTolerance ≤
      status.lastAppliedLog.getD 0

def listsVoter (nodeId : Nat) (status : ClusterStatus) : Bool :=
  status.voters.any (·.id = nodeId)

/-- The nodes with an authoritative status. -/
def authoritativeNodes (nodeId : Nat) (answered : List ClusterStatus) : Finset Nat :=
  Headcounts.voters ClusterStatus.nodeId (authoritativeStatuses nodeId answered)

/-- The nodes with an authoritative status that lists the asking node as a voter. -/
def listingNodes (nodeId : Nat) (answered : List ClusterStatus) : Finset Nat :=
  Headcounts.approvers ClusterStatus.nodeId (listsVoter nodeId)
    (authoritativeStatuses nodeId answered)

/-- Whoever is not asked to join again is listed by a majority of the authoritative nodes, and
there is an authoritative status if another node has answered. -/
structure RealMajority (nodeId : Nat) (answered : List ClusterStatus) : Prop where
  majority : verifyMembership nodeId answered ≠ .rejoin →
    (authoritativeNodes nodeId answered).card < 2 * (listingNodes nodeId answered).card
  authority : otherStatuses nodeId answered ≠ [] → authoritativeStatuses nodeId answered ≠ []

/-- The statuses that repeat a node make a majority that the nodes are not. -/
def RepeatsTip (nodeId : Nat) (answered : List ClusterStatus) : Prop :=
  Headcounts.Tipped ClusterStatus.nodeId (listsVoter nodeId)
    (authoritativeStatuses nodeId answered)

/-! ### What a check finds -/

theorem foldl_max_mem (first : Nat) (rest : List Nat) : rest.foldl max first ∈ first :: rest := by
  induction rest generalizing first with
  | nil => exact List.mem_cons_self
  | cons second rest inductionHypothesis =>
    rw [List.foldl_cons]
    rcases List.mem_cons.mp (inductionHypothesis (max first second)) with same | later
    · rw [same]
      rcases max_choice first second with isFirst | isSecond
      · rw [isFirst]
        exact List.mem_cons_self
      · rw [isSecond]
        exact List.mem_cons_of_mem _ List.mem_cons_self
    · exact List.mem_cons_of_mem _ (List.mem_cons_of_mem _ later)

/-- The newest log is that of a status, also when no status has a log. -/
theorem maxApplied_reached {statuses : List ClusterStatus} (present : statuses ≠ []) :
    ∃ status ∈ statuses, maxApplied statuses ≤ status.lastAppliedLog.getD 0 := by
  rcases List.mem_cons.mp (foldl_max_mem 0 (statuses.filterMap (·.lastAppliedLog))) with
    zero | reported
  · obtain ⟨status, member⟩ := List.exists_mem_of_ne_nil statuses present
    refine ⟨status, member, ?_⟩
    rw [maxApplied, zero]
    exact Nat.zero_le _
  · obtain ⟨status, member, applied⟩ := List.mem_filterMap.mp reported
    refine ⟨status, member, ?_⟩
    rw [applied]
    exact le_rfl

theorem le_foldl_max {member first : Nat} {rest : List Nat} (listed : member ∈ first :: rest) :
    member ≤ rest.foldl max first := by
  induction rest generalizing first member with
  | nil => exact (List.mem_singleton.mp listed).le
  | cons second rest inductionHypothesis =>
    rw [List.foldl_cons]
    have kept : max first second ≤ rest.foldl max (max first second) :=
      inductionHypothesis List.mem_cons_self
    rcases List.mem_cons.mp listed with rfl | later
    · exact (Nat.le_max_left _ _).trans kept
    · rcases List.mem_cons.mp later with rfl | further
      · exact (Nat.le_max_right _ _).trans kept
      · exact inductionHypothesis (List.mem_cons_of_mem _ further)

theorem le_maxApplied {statuses : List ClusterStatus} {status : ClusterStatus}
    (member : status ∈ statuses) : status.lastAppliedLog.getD 0 ≤ maxApplied statuses := by
  cases reported : status.lastAppliedLog with
  | none => exact Nat.zero_le _
  | some applied =>
    exact le_foldl_max (List.mem_cons_of_mem _ (List.mem_filterMap.mpr ⟨status, member, reported⟩))

theorem authoritativeStatuses_ne_nil {nodeId : Nat} {answered : List ClusterStatus}
    (present : otherStatuses nodeId answered ≠ []) :
    authoritativeStatuses nodeId answered ≠ [] := by
  obtain ⟨status, member, newest⟩ := maxApplied_reached present
  refine List.ne_nil_of_mem (List.mem_filter.mpr ⟨member, decide_eq_true ?_⟩)
  exact (Nat.sub_le _ _).trans newest

theorem verifyMembership_eq (nodeId : Nat) (answered : List ClusterStatus) :
    verifyMembership nodeId answered =
      if otherStatuses nodeId answered = [] then .noPeers
      else if (authoritativeStatuses nodeId answered).length <
          2 * (authoritativeStatuses nodeId answered).countP (listsVoter nodeId) then .confirmed
      else .rejoin := by
  by_cases alone : otherStatuses nodeId answered = []
  · rw [if_pos alone]
    exact if_pos (List.isEmpty_iff.mpr alone)
  · have present : ¬ (authoritativeStatuses nodeId answered).isEmpty = true := fun empty =>
      authoritativeStatuses_ne_nil alone (List.isEmpty_iff.mp empty)
    have half (total counted : Nat) : total / 2 < counted ↔ total < 2 * counted := by omega
    rw [if_neg alone]
    change (if (otherStatuses nodeId answered).isEmpty = true then Verification.noPeers
      else if (authoritativeStatuses nodeId answered).isEmpty = true then Verification.rejoin
      else if (authoritativeStatuses nodeId answered).length / 2 <
        (authoritativeStatuses nodeId answered).countP (listsVoter nodeId) then
          Verification.confirmed
      else Verification.rejoin) = _
    rw [if_neg fun empty => alone (List.isEmpty_iff.mp empty), if_neg present]
    simp only [half]

theorem realMajority_iff (nodeId : Nat) (answered : List ClusterStatus) :
    RealMajority nodeId answered ↔
      otherStatuses nodeId answered ≠ [] ∧ ¬ RepeatsTip nodeId answered := by
  rw [RepeatsTip, ← Headcounts.majority_iff_not_tipped]
  constructor
  · rintro ⟨majority, _⟩
    rw [verifyMembership_eq] at majority
    have present : otherStatuses nodeId answered ≠ [] := by
      intro alone
      rw [if_pos alone] at majority
      have nobody : authoritativeStatuses nodeId answered = [] := by
        rw [authoritativeStatuses, alone]
        rfl
      have none_lists := majority (by decide)
      rw [listingNodes, authoritativeNodes, nobody] at none_lists
      exact Nat.not_lt_zero _ none_lists
    refine ⟨present, fun counted => majority ?_⟩
    rw [if_neg present, if_pos counted]
    decide
  · rintro ⟨present, sound⟩
    refine ⟨fun settled => sound ?_, authoritativeStatuses_ne_nil⟩
    rw [verifyMembership_eq, if_neg present] at settled
    by_contra fewer
    exact settled (if_neg fewer)

/-! ### Who has answered -/

/-- The nodes that answered, other than the asking one; a node is repeated that answered again. -/
def answeringNodes (nodeId : Nat) (nodes : List Nat) : List Nat :=
  nodes.filter (· ≠ nodeId)

/-- A status with a log of this length and these voters. -/
def statusOf (applied : Nat) (voters : List NodeInfo) (nodeId : Nat) : ClusterStatus where
  nodeId := nodeId
  state := .follower
  leaderAddr := none
  voters := voters
  lastAppliedLog := some applied
  lastMembershipLogId := none

section Answers

variable {nodeId : Nat} {nodes : List Nat} {answered : List ClusterStatus}

theorem map_otherStatuses (nodeId : Nat) (answered : List ClusterStatus) :
    (otherStatuses nodeId answered).map (·.nodeId) =
      answeringNodes nodeId (answered.map (·.nodeId)) := by
  rw [otherStatuses, answeringNodes, List.filter_map]
  rfl

/-- Nodes that answered once each, or a single node, cannot tip a check. -/
theorem not_repeatsTip (counted : (answeringNodes nodeId (answered.map (·.nodeId))).Nodup ∨
    ∀ first ∈ answeringNodes nodeId (answered.map (·.nodeId)),
      ∀ second ∈ answeringNodes nodeId (answered.map (·.nodeId)), first = second) :
    ¬ RepeatsTip nodeId answered := by
  rw [← map_otherStatuses] at counted
  rcases counted with once | single
  · exact Headcounts.not_tipped_of_nodup (once.sublist (List.filter_sublist.map _))
  · refine Headcounts.not_tipped_of_single fun first memberFirst second memberSecond => ?_
    exact single _ (List.mem_map_of_mem (List.mem_of_mem_filter memberFirst)) _
      (List.mem_map_of_mem (List.mem_of_mem_filter memberSecond))

/-- What the nodes may say when one of them, which answered twice, lists the asking node, another
one does not, and all other statuses are behind. -/
def tippingStatus (nodeId repeated id : Nat) : ClusterStatus :=
  if id = repeated then statusOf 11 [⟨nodeId, ""⟩] id else statusOf 0 [] id

theorem filter_tippingStatus {repeated : Nat} (other : repeated ≠ nodeId) (nodes : List Nat) :
    ((nodes.map (tippingStatus nodeId repeated)).filter fun status =>
      decide (11 - authoritativeLogTolerance ≤ status.lastAppliedLog.getD 0) &&
        decide (status.nodeId ≠ nodeId)) =
        List.replicate (nodes.count repeated) (statusOf 11 [⟨nodeId, ""⟩] repeated) := by
  induction nodes with
  | nil => rfl
  | cons id nodes inductionHypothesis =>
    rw [List.map_cons, tippingStatus]
    by_cases same : id = repeated
    · subst same
      rw [if_pos rfl, List.filter_cons_of_pos, inductionHypothesis, List.count_cons_self,
        List.replicate_succ]
      simp [statusOf, authoritativeLogTolerance, other]
    · rw [if_neg same, List.filter_cons_of_neg, inductionHypothesis,
        List.count_cons_of_ne same]
      simp [statusOf, authoritativeLogTolerance]

theorem repeatsTip_of_repeated {repeated refuser : Nat} {before after : List Nat}
    (other : repeated ≠ nodeId) (otherRefuser : refuser ≠ nodeId) (different : repeated ≠ refuser)
    (twice : 2 ≤ before.count repeated + after.count repeated) :
    RepeatsTip nodeId (before.map (tippingStatus nodeId repeated) ++ statusOf 11 [] refuser ::
      after.map (tippingStatus nodeId repeated)) := by
  have newest : maxApplied (otherStatuses nodeId (before.map (tippingStatus nodeId repeated) ++
      statusOf 11 [] refuser :: after.map (tippingStatus nodeId repeated))) = 11 := by
    have given : statusOf 11 [] refuser ∈ otherStatuses nodeId
        (before.map (tippingStatus nodeId repeated) ++ statusOf 11 [] refuser ::
          after.map (tippingStatus nodeId repeated)) :=
      List.mem_filter.mpr ⟨List.mem_append_right _ List.mem_cons_self, decide_eq_true otherRefuser⟩
    refine le_antisymm ?_ (le_maxApplied given)
    obtain ⟨status, member, reached⟩ := maxApplied_reached (List.ne_nil_of_mem given)
    refine reached.trans ?_
    have low (id : Nat) : (tippingStatus nodeId repeated id).lastAppliedLog.getD 0 ≤ 11 := by
      rw [tippingStatus]
      split_ifs <;> simp [statusOf]
    rcases List.mem_append.mp (List.mem_of_mem_filter member) with early | late
    · obtain ⟨id, _, rfl⟩ := List.mem_map.mp early
      exact low id
    · rcases List.mem_cons.mp late with rfl | later
      · exact le_rfl
      · obtain ⟨id, _, rfl⟩ := List.mem_map.mp later
        exact low id
  have authoritative : authoritativeStatuses nodeId (before.map (tippingStatus nodeId repeated) ++
      statusOf 11 [] refuser :: after.map (tippingStatus nodeId repeated)) =
        List.replicate (before.count repeated) (statusOf 11 [⟨nodeId, ""⟩] repeated) ++
          statusOf 11 [] refuser ::
            List.replicate (after.count repeated) (statusOf 11 [⟨nodeId, ""⟩] repeated) := by
    rw [authoritativeStatuses, newest, otherStatuses, List.filter_filter,
      ← filter_tippingStatus other before, ← filter_tippingStatus other after, List.filter_append,
      List.filter_cons_of_pos (by simp [statusOf, authoritativeLogTolerance, otherRefuser])]
  rw [RepeatsTip, authoritative]
  exact Headcounts.tipped_of_repeated (by simp [listsVoter, statusOf])
    (by simp [listsVoter, statusOf]) different twice

theorem map_tippingStatus (nodeId repeated : Nat) (nodes : List Nat) :
    (nodes.map (tippingStatus nodeId repeated)).map (·.nodeId) = nodes := by
  have named (id : Nat) : (tippingStatus nodeId repeated id).nodeId = id := by
    rw [tippingStatus]
    split_ifs <;> rfl
  rw [List.map_map]
  exact (List.map_congr_left fun id _ => named id).trans (List.map_id _)

/-- A check is sound whatever the statuses say exactly if another node has answered, and either no
node has answered twice or all answers are of one node. -/
theorem realMajority_whatever_iff (nodeId : Nat) (nodes : List Nat) :
    (∀ answered : List ClusterStatus, answered.map (·.nodeId) = nodes →
      RealMajority nodeId answered) ↔
        answeringNodes nodeId nodes ≠ [] ∧ ((answeringNodes nodeId nodes).Nodup ∨
          ∀ first ∈ answeringNodes nodeId nodes, ∀ second ∈ answeringNodes nodeId nodes,
            first = second) := by
  have present_iff {answered : List ClusterStatus} (same : answered.map (·.nodeId) = nodes) :
      otherStatuses nodeId answered ≠ [] ↔ answeringNodes nodeId nodes ≠ [] := by
    rw [← same, ← map_otherStatuses, Ne, Ne, List.map_eq_nil_iff]
  constructor
  · intro sound
    have said := map_tippingStatus nodeId nodeId nodes
    refine ⟨(present_iff said).mp ((realMajority_iff _ _).mp (sound _ said)).1, ?_⟩
    by_contra uneven
    rw [not_or] at uneven
    obtain ⟨repeated, duplicate⟩ := List.exists_duplicate_iff_not_nodup.mpr uneven.1
    obtain ⟨refuser, member, different⟩ : ∃ refuser ∈ answeringNodes nodeId nodes,
        repeated ≠ refuser := by
      by_contra none_differs
      push Not at none_differs
      exact uneven.2 fun first memberFirst second memberSecond =>
        (none_differs first memberFirst).symm.trans (none_differs second memberSecond)
    obtain ⟨listed, otherRefuser⟩ := List.mem_filter.mp member
    have other := (List.mem_filter.mp duplicate.mem).2
    have twice := List.duplicate_iff_two_le_count.mp duplicate
    rw [answeringNodes, List.count_filter (p := fun node => decide (node ≠ nodeId)) other] at twice
    obtain ⟨before, after, split⟩ := List.append_of_mem listed
    rw [split, List.count_append, List.count_cons_of_ne different.symm] at twice
    have tips := repeatsTip_of_repeated (of_decide_eq_true other) (of_decide_eq_true otherRefuser)
      different twice
    refine ((realMajority_iff _ _).mp (sound _ ?_)).2 tips
    rw [List.map_append, List.map_cons, map_tippingStatus, map_tippingStatus, split]
    rfl
  · rintro ⟨present, counted⟩ answered same
    rw [realMajority_iff, present_iff same]
    rw [← same] at counted
    exact ⟨present, not_repeatsTip counted⟩

end Answers

/-- A check is sound exactly if another node has answered and repeated answers do not tip it; when
all that is known is who has answered how often, this is when no node has answered twice or all
answers are of one node. -/
theorem verification_sound_iff (nodeId : Nat) :
    (∀ answered, RealMajority nodeId answered ↔
      otherStatuses nodeId answered ≠ [] ∧ ¬ RepeatsTip nodeId answered) ∧
    ∀ nodes, (∀ answered : List ClusterStatus, answered.map (·.nodeId) = nodes →
      RealMajority nodeId answered) ↔
        answeringNodes nodeId nodes ≠ [] ∧ ((answeringNodes nodeId nodes).Nodup ∨
          ∀ first ∈ answeringNodes nodeId nodes, ∀ second ∈ answeringNodes nodeId nodes,
            first = second) :=
  ⟨realMajority_iff nodeId, realMajority_whatever_iff nodeId⟩

/-- Node 2 answers at both of its addresses, and outvotes node 3. -/
def dualStackAnswer (peer : String) : Option ClusterStatus :=
  if peer = "10.0.0.3:7000" then some (statusOf 40 [⟨2, "a"⟩, ⟨3, "b"⟩] 3)
  else some (statusOf 40 [⟨1, "c"⟩, ⟨2, "a"⟩] 2)

/-- A node with two addresses is counted twice, and confirms a membership alone against another. -/
theorem dual_stack_node_confirms :
    verifyOrRejoin 1 [] ["10.0.0.2:7000", "[fd00::2]:7000", "10.0.0.3:7000"] dualStackAnswer =
      .confirmed ∧
    ¬ RealMajority 1 (gatherStatuses dualStackAnswer
      ["10.0.0.2:7000", "[fd00::2]:7000", "10.0.0.3:7000"]) := by
  have no_members : restoredMembershipPeerTargets [] 1 = [] := by
    rw [restoredMembershipPeerTargets, List.filter_nil, List.map_nil, List.mergeSort_nil]
    rfl
  constructor
  · rw [verifyOrRejoin, no_members]
    decide
  · intro sound
    exact absurd (sound.majority (by decide)) (by decide)

end Layerhouse
