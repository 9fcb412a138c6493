/-
This file is how a leader changes the voters of its cluster: the join and leave handlers
and `replace_voters` of `raft/membership/mod.rs`, the leave of a leader that shuts down
in `main.rs`, and the reconciliation with the replicas of the StatefulSet in
`raft/kubernetes.rs`. Changes are made one after the other, under a lock.

A join and a leave compute their change when they have the lock. A shutdown and a
reconciliation compute the voters to put in place first and wait for the lock then, so
their change undoes what was changed while they waited. The file proves that a change
does more than its caller asked for in no other way.

A change of openraft is refused, or it commits with the voters that were asked for; the
joint configuration on the way is not a step of its own.
-/

import Layerhouse.Raft.Membership
import Mathlib.Order.Interval.Finset.Nat

namespace Layerhouse

/-! ### Calls -/

def RaftState.voterSet (raft : RaftState) : Finset Nat :=
  raft.voterIds.toFinset

/-- A call that changes the voters; a shutdown is the leader's own. -/
inductive MembershipCall where
  | join (request : JoinRequest)
  | leave (nodeId : Nat)
  | shutdown
  | reconcile (replicas : Nat)

def desiredVotersForReplicas (replicas : Nat) : Finset Nat :=
  Finset.Icc 1 replicas

/-- The first check of `replace_voters`. -/
def replaceVoters (newVoters : Finset Nat) : Option (Option (Finset Nat)) :=
  if newVoters = ∅ then none else some (some newVoters)

/-- What a call does before it waits for the lock: it is over, or it goes on with the voters to
put in place if it has computed them. -/
def MembershipCall.beforeLock (leader : Nat) (raft : RaftState) :
    MembershipCall → Option (Option (Finset Nat))
  | .join request => if (precheckJoin leader raft request.nodeId).isSome then none else some none
  | .leave nodeId => if (precheckLeave leader raft nodeId).isSome then none else some none
  | .shutdown =>
    if leader ∉ raft.voterSet ∨ raft.voterSet.card ≤ 1 ∨ raft.leader ≠ some leader then none
    else replaceVoters (raft.voterSet.erase leader)
  | .reconcile replicas =>
    let desired := desiredVotersForReplicas replicas
    if desired = ∅ ∨ raft.leader ≠ some leader ∨ desired = raft.voterSet ∨
        ¬ desired ⊆ raft.voterSet then none
    else replaceVoters desired

inductive ChangeMembers where
  | addVoterIds (node : NodeInfo)
  | replaceAllVoters (voters : Finset Nat)

/-- What a call asks openraft for when it has the lock, if anything. -/
def MembershipCall.underLock (leader : Nat) (raft : RaftState)
    (newVoters : Option (Finset Nat)) : MembershipCall → Option ChangeMembers
  | .join request =>
    if (precheckJoin leader raft request.nodeId).isSome then none
    else some (.addVoterIds ⟨request.nodeId, request.addr⟩)
  | .leave nodeId =>
    if (precheckLeave leader raft nodeId).isSome then none
    else some (.replaceAllVoters (raft.voterSet.erase nodeId))
  | .shutdown | .reconcile _ =>
    newVoters.bind fun newVoters =>
      if raft.voterSet = newVoters then none else some (.replaceAllVoters newVoters)

/-! ### The leader -/

/-- How far a call is. The voters that it read are kept to speak about them. -/
inductive MembershipStage where
  | received
  | waiting (read : Finset Nat) (newVoters : Option (Finset Nat))
  | locked (read : Finset Nat) (newVoters : Option (Finset Nat))

/-- A committed change, with the call that made it. -/
structure MembershipChange where
  cause : MembershipCall
  before : Finset Nat
  after : Finset Nat

/-- A leader with the nodes of its membership that do not vote, the call that holds the lock, the
calls and the committed changes, the latest first. -/
structure MembershipSystem where
  raft : RaftState
  learners : List NodeInfo
  holder : Option Nat
  calls : Nat → Option (MembershipCall × MembershipStage)
  changes : List MembershipChange

namespace MembershipSystem

def start (raft : RaftState) (learners : List NodeInfo) : MembershipSystem where
  raft := raft
  learners := learners
  holder := none
  calls := fun _ => none
  changes := []

def setCall (system : MembershipSystem) (id : Nat)
    (call : Option (MembershipCall × MembershipStage)) : MembershipSystem :=
  { system with calls := Function.update system.calls id call }

/-- A call that had the lock is over. -/
def finish (system : MembershipSystem) (id : Nat) : MembershipSystem :=
  { system.setCall id none with holder := none }

/-- `add_learner` keeps a node that is known already. -/
def addLearner (system : MembershipSystem) : ChangeMembers → MembershipSystem
  | .addVoterIds node =>
    if node.id ∈ system.raft.voterSet ∨ node.id ∈ system.learners.map (·.id) then system
    else { system with learners := system.learners ++ [node] }
  | .replaceAllVoters _ => system

/-- A change that openraft makes. Only a leader makes changes, and only nodes it knows can become
voters. It forgets the voters it drops, and steps down when it drops itself. -/
def changeMembership (leader : Nat) (system : MembershipSystem) (change : ChangeMembers) :
    Option MembershipSystem :=
  match system.raft.membership with
  | none => none
  | some membership =>
    if system.raft.leader ≠ some leader then none
    else
      match change with
      | .addVoterIds node =>
        some { system with
          raft := { system.raft with
            membership := some (membership.change (membership.voters ++ [node])) }
          learners := system.learners.filter (·.id ≠ node.id) }
      | .replaceAllVoters voters =>
        let nodes := membership.voters ++ system.learners
        if voters = ∅ ∨ ¬ voters ⊆ (nodes.map (·.id)).toFinset then none
        else
          some { system with
            raft := { system.raft with
              membership := some (membership.change (nodes.filter (·.id ∈ voters)))
              leader := if leader ∈ voters then some leader else none }
            learners := system.learners.filter (·.id ∉ voters) }

end MembershipSystem

/-- What becomes of a change: it commits, or it fails, after the joining node was added as a
learner or before. -/
inductive ChangeOutcome where
  | refused (learnerAdded : Bool)
  | committed

inductive MembershipLabel where
  | receive (id : Nat) (call : MembershipCall)
  | read (id : Nat)
  | lock (id : Nat)
  | change (id : Nat) (outcome : ChangeOutcome)

def membershipStep (leader : Nat) (system : MembershipSystem) :
    MembershipLabel → Option MembershipSystem
  | .receive id call =>
    match system.calls id with
    | none => some (system.setCall id (some (call, .received)))
    | some _ => none
  | .read id =>
    match system.calls id with
    | some (call, .received) =>
      some (system.setCall id
        ((call.beforeLock leader system.raft).map fun newVoters =>
          (call, .waiting system.raft.voterSet newVoters)))
    | _ => none
  | .lock id =>
    match system.calls id, system.holder with
    | some (call, .waiting read newVoters), none =>
      some { system.setCall id (some (call, .locked read newVoters)) with holder := some id }
    | _, _ => none
  | .change id outcome =>
    match system.calls id with
    | some (call, .locked _ newVoters) =>
      match call.underLock leader system.raft newVoters with
      | none => some (system.finish id)
      | some change =>
        match outcome with
        | .refused learnerAdded =>
          some ((if learnerAdded then system.addLearner change else system).finish id)
        | .committed =>
          (system.changeMembership leader change).map fun next =>
            { next.finish id with
              changes :=
                ⟨call, system.raft.voterSet, next.raft.voterSet⟩ :: system.changes }
    | _ => none

/-! ### What is asked of the changes -/

/-- The voters that a call may add. -/
def MembershipCall.MayAdd : MembershipCall → Nat → Prop
  | .join request, node => node = request.nodeId
  | .leave _, _ | .shutdown, _ | .reconcile _, _ => False

/-- The voters that a call may remove. -/
def MembershipCall.MayRemove (leader : Nat) : MembershipCall → Nat → Prop
  | .join _, _ => False
  | .leave nodeId, node => node = nodeId
  | .shutdown, node => node = leader
  | .reconcile replicas, node => replicas < node

/-- A change adds and removes no other voters than its call may. So a node that has joined is
removed by its own leave, or by a reconciliation with fewer replicas than its id. -/
structure MembershipChange.Justified (leader : Nat) (change : MembershipChange) : Prop where
  added : ∀ node ∈ change.after, node ∉ change.before → change.cause.MayAdd node
  removed : ∀ node ∈ change.before, node ∉ change.after → change.cause.MayRemove leader node

/-- The voters are as the call read them before it waited, apart from the leader that shuts down,
or as far as the replicas go; and no voter has the id zero, which no replica has. -/
def MembershipCall.ReadCurrent (leader : Nat) (read current : Finset Nat) :
    MembershipCall → Prop
  | .shutdown => read.erase leader = current.erase leader
  | .reconcile replicas =>
    0 ∉ current ∧
      read ∩ desiredVotersForReplicas replicas = current ∩ desiredVotersForReplicas replicas
  | .join _ | .leave _ => True

/-- What a call read that has the lock now. -/
def MembershipStage.lockedRead : MembershipStage → Option (Finset Nat)
  | .locked read _ => some read
  | .received | .waiting .. => none

/-- The change of a call that computed the voters before it waited commits while the voters are as
it read them. -/
def MembershipSystem.ChangesAsRead (leader : Nat) (system : MembershipSystem) :
    MembershipLabel → Prop
  | .change id .committed =>
    ∀ called ∈ system.calls id, ∀ read ∈ called.2.lockedRead,
      called.1.ReadCurrent leader read system.raft.voterSet
  | _ => True

instance MembershipCall.decidableReadCurrent (leader : Nat) (read current : Finset Nat)
    (call : MembershipCall) : Decidable (call.ReadCurrent leader read current) :=
  match call with
  | .shutdown => inferInstanceAs (Decidable (read.erase leader = current.erase leader))
  | .reconcile replicas => inferInstanceAs (Decidable (0 ∉ current ∧
      read ∩ desiredVotersForReplicas replicas = current ∩ desiredVotersForReplicas replicas))
  | .join _ | .leave _ => isTrue trivial

instance MembershipSystem.decidableChangesAsRead (leader : Nat) (system : MembershipSystem)
    (label : MembershipLabel) : Decidable (system.ChangesAsRead leader label) :=
  match label with
  | .change id .committed => inferInstanceAs (Decidable (∀ called ∈ system.calls id,
      ∀ read ∈ called.2.lockedRead, called.1.ReadCurrent leader read system.raft.voterSet))
  | .change _ (.refused _) | .receive .. | .read _ | .lock _ => isTrue trivial

/-! ### One change -/

def ChangeMembers.votersAfter (current : Finset Nat) : ChangeMembers → Finset Nat
  | .addVoterIds node => insert node.id current
  | .replaceAllVoters voters => voters

/-- What a call that waits has computed from what it read. -/
def MembershipCall.Planned (leader : Nat) (read : Finset Nat) (newVoters : Option (Finset Nat)) :
    MembershipCall → Prop
  | .shutdown => newVoters = some (read.erase leader)
  | .reconcile replicas =>
    newVoters = some (desiredVotersForReplicas replicas) ∧
      desiredVotersForReplicas replicas ⊆ read
  | .join _ | .leave _ => True

section

variable {leader : Nat} {raft : RaftState} {call : MembershipCall} {read : Finset Nat}
  {newVoters : Option (Finset Nat)} {change : ChangeMembers}

theorem replaceVoters_eq_some {voters : Finset Nat}
    (started : replaceVoters voters = some newVoters) : newVoters = some voters := by
  rw [replaceVoters] at started
  split at started
  · cases started
  · exact (Option.some.inj started).symm

theorem planned_of_beforeLock (started : call.beforeLock leader raft = some newVoters) :
    call.Planned leader raft.voterSet newVoters := by
  cases call with
  | join request => trivial
  | leave nodeId => trivial
  | shutdown =>
    rw [MembershipCall.beforeLock] at started
    split at started
    · cases started
    · exact replaceVoters_eq_some started
  | reconcile replicas =>
    simp only [MembershipCall.beforeLock] at started
    split at started
    · cases started
    · rename_i proceeds
      push Not at proceeds
      exact ⟨replaceVoters_eq_some started, proceeds.2.2.2⟩

theorem readCurrent_replicas_iff {replicas : Nat} {current : Finset Nat}
    (within : desiredVotersForReplicas replicas ⊆ read) :
    (MembershipCall.reconcile replicas).ReadCurrent leader read current ↔
      0 ∉ current ∧ desiredVotersForReplicas replicas ⊆ current := by
  rw [MembershipCall.ReadCurrent, Finset.inter_eq_right.mpr within, eq_comm,
    Finset.inter_eq_right]

/-- A call that computed its voters before it waited, and finds them in place, read what is
there. -/
theorem readCurrent_of_idle (planned : call.Planned leader read newVoters)
    (idle : call.underLock leader raft newVoters = none) :
    call.ReadCurrent leader read raft.voterSet := by
  cases call with
  | join request => trivial
  | leave nodeId => trivial
  | shutdown =>
    obtain rfl : newVoters = some (read.erase leader) := planned
    simp only [MembershipCall.underLock, Option.bind_some, ite_eq_left_iff, reduceCtorEq,
      imp_false, not_not] at idle
    rw [MembershipCall.ReadCurrent, idle, Finset.erase_idem]
  | reconcile replicas =>
    obtain ⟨rfl, within⟩ := planned
    simp only [MembershipCall.underLock, Option.bind_some, ite_eq_left_iff, reduceCtorEq,
      imp_false, not_not] at idle
    refine (readCurrent_replicas_iff within).mpr ⟨?_, idle.ge⟩
    rw [idle, desiredVotersForReplicas, Finset.mem_Icc]
    exact fun bounds => absurd bounds.1 (by decide)

/-- A change that openraft is asked for does what its call may do exactly if the call read the
voters as they are. -/
theorem justified_iff (planned : call.Planned leader read newVoters)
    (asked : call.underLock leader raft newVoters = some change) :
    MembershipChange.Justified leader ⟨call, raft.voterSet, change.votersAfter raft.voterSet⟩ ↔
      call.ReadCurrent leader read raft.voterSet := by
  cases call with
  | join request =>
    simp only [MembershipCall.underLock] at asked
    split at asked
    · cases asked
    · cases asked
      refine iff_of_true ⟨fun node after new => ?_, fun node before gone => ?_⟩ trivial
      · exact (Finset.mem_insert.mp after).resolve_right new
      · exact absurd (Finset.mem_insert_of_mem before) gone
  | leave nodeId =>
    simp only [MembershipCall.underLock] at asked
    split at asked
    · cases asked
    · cases asked
      refine iff_of_true ⟨fun node after new => ?_, fun node before gone => ?_⟩ trivial
      · exact absurd (Finset.mem_of_mem_erase after) new
      · exact by_contra fun other => gone (Finset.mem_erase.mpr ⟨other, before⟩)
  | shutdown =>
    obtain rfl : newVoters = some (read.erase leader) := planned
    simp only [MembershipCall.underLock, Option.bind_some] at asked
    split at asked
    · cases asked
    · cases asked
      rw [MembershipCall.ReadCurrent]
      constructor
      · rintro ⟨added, removed⟩
        ext node
        constructor
        · intro kept
          refine Finset.mem_erase.mpr ⟨Finset.ne_of_mem_erase kept, ?_⟩
          exact by_contra fun new => added node kept new
        · intro present
          obtain ⟨other, before⟩ := Finset.mem_erase.mp present
          exact by_contra fun gone => other (removed node before gone)
      · intro same
        refine ⟨fun node after new => ?_, fun node before gone => ?_⟩
        · exact absurd (Finset.mem_of_mem_erase (same ▸ after)) new
        · exact by_contra fun other => gone (same ▸ Finset.mem_erase.mpr ⟨other, before⟩)
  | reconcile replicas =>
    obtain ⟨rfl, within⟩ := planned
    simp only [MembershipCall.underLock, Option.bind_some] at asked
    split at asked
    · cases asked
    · cases asked
      rw [readCurrent_replicas_iff within]
      constructor
      · rintro ⟨added, removed⟩
        refine ⟨fun zero => ?_, fun node desired => ?_⟩
        · refine absurd (removed 0 zero fun desired => ?_) (Nat.not_lt_zero replicas)
          exact absurd (Finset.mem_Icc.mp desired).1 (by decide)
        · exact by_contra fun new => added node desired new
      · rintro ⟨positive, present⟩
        refine ⟨fun node after new => absurd (present after) new, fun node before gone => ?_⟩
        refine Nat.lt_of_not_le fun bounded => gone (Finset.mem_Icc.mpr ⟨?_, bounded⟩)
        exact Nat.one_le_iff_ne_zero.mpr fun zero => positive (zero ▸ before)

end

/-! ### The changes of openraft -/

namespace MembershipSystem

variable {leader : Nat} {system next : MembershipSystem} {change : ChangeMembers}

theorem changeMembership_frame (changed : system.changeMembership leader change = some next) :
    next.calls = system.calls ∧ next.changes = system.changes := by
  unfold changeMembership at changed
  split at changed
  · cases changed
  split at changed
  · cases changed
  cases change with
  | addVoterIds node =>
    cases changed
    exact ⟨rfl, rfl⟩
  | replaceAllVoters voters =>
    simp only at changed
    split at changed
    · cases changed
    · cases changed
      exact ⟨rfl, rfl⟩

theorem changeMembership_voterSet
    (changed : system.changeMembership leader change = some next) :
    next.raft.voterSet = change.votersAfter system.raft.voterSet ∧
      next.raft.voterSet.Nonempty := by
  unfold changeMembership at changed
  split at changed
  · cases changed
  rename_i membership found
  split at changed
  · cases changed
  have current : system.raft.voterSet = membership.voterIds.toFinset := by
    rw [RaftState.voterSet, RaftState.voterIds, found]
    rfl
  cases change with
  | addVoterIds node =>
    cases changed
    have after : RaftState.voterSet { system.raft with
        membership := some (membership.change (membership.voters ++ [node])) } =
          insert node.id membership.voterIds.toFinset := by
      ext id
      simp [RaftState.voterSet, RaftState.voterIds, ClusterMembership.voterIds,
        ClusterMembership.change]
    rw [after, current]
    exact ⟨rfl, Finset.insert_nonempty ..⟩
  | replaceAllVoters voters =>
    simp only at changed
    split at changed
    · cases changed
    rename_i accepted
    push Not at accepted
    cases changed
    have after : RaftState.voterSet { system.raft with
        membership := some (membership.change
          ((membership.voters ++ system.learners).filter (·.id ∈ voters)))
        leader := if leader ∈ voters then some leader else none } = voters := by
      ext id
      have known := @accepted.2 id
      simp only [RaftState.voterSet, RaftState.voterIds, ClusterMembership.voterIds,
        ClusterMembership.change, Option.map_some, Option.getD_some, List.mem_toFinset,
        List.mem_map, List.mem_filter, decide_eq_true_eq] at known ⊢
      constructor
      · rintro ⟨node, ⟨_, chosen⟩, rfl⟩
        exact chosen
      · intro chosen
        obtain ⟨node, member, rfl⟩ := known chosen
        exact ⟨node, ⟨member, chosen⟩, rfl⟩
    rw [after]
    exact ⟨rfl, accepted.1⟩


end MembershipSystem

/-! ### Runs -/

/-- What a call in its stage has planned. -/
def MembershipStage.Planned (leader : Nat) (call : MembershipCall) : MembershipStage → Prop
  | .received => True
  | .waiting read newVoters | .locked read newVoters => call.Planned leader read newVoters

namespace MembershipSystem

variable {leader : Nat} {system next : MembershipSystem} {label : MembershipLabel}

structure Sound (leader : Nat) (system : MembershipSystem) : Prop where
  nonempty : system.raft.voterSet.Nonempty
  planned : ∀ id call stage, system.calls id = some (call, stage) → stage.Planned leader call

theorem sound_start {raft : RaftState} (nonempty : raft.voterSet.Nonempty)
    (learners : List NodeInfo) : Sound leader (start raft learners) where
  nonempty := nonempty
  planned := fun id call stage impossible => by cases impossible

theorem Sound.setCall (holds : Sound leader system) (id : Nat)
    {called : Option (MembershipCall × MembershipStage)}
    (planned : ∀ call stage, called = some (call, stage) → stage.Planned leader call) :
    Sound leader (system.setCall id called) where
  nonempty := holds.nonempty
  planned := by
    intro other call stage found
    simp only [MembershipSystem.setCall, Function.update_apply] at found
    split at found
    · exact planned call stage found
    · exact holds.planned other call stage found

theorem Sound.finish (holds : Sound leader system) (id : Nat) : Sound leader (system.finish id) :=
  have ended : Sound leader (system.setCall id none) :=
    holds.setCall id fun _ _ impossible => by cases impossible
  ⟨ended.nonempty, ended.planned⟩

theorem addLearner_frame (system : MembershipSystem) (change : ChangeMembers) :
    (system.addLearner change).raft = system.raft ∧
      (system.addLearner change).calls = system.calls ∧
      (system.addLearner change).changes = system.changes := by
  cases change with
  | addVoterIds node =>
    rw [addLearner]
    split <;> exact ⟨rfl, rfl, rfl⟩
  | replaceAllVoters voters => exact ⟨rfl, rfl, rfl⟩

theorem changesAsRead_committed_iff {id : Nat} {call : MembershipCall} {read : Finset Nat}
    {newVoters : Option (Finset Nat)}
    (called : system.calls id = some (call, .locked read newVoters)) :
    system.ChangesAsRead leader (.change id .committed) ↔
      call.ReadCurrent leader read system.raft.voterSet := by
  simp only [ChangesAsRead, called, Option.mem_def, Option.some.injEq, forall_eq',
    MembershipStage.lockedRead]

/-- Every step keeps what is known of the calls, and adds a change that is justified exactly if its
call read the voters as they are. -/
theorem Sound.step (holds : Sound leader system)
    (stepped : membershipStep leader system label = some next) :
    Sound leader next ∧
      ((∀ change ∈ next.changes, change.Justified leader) ↔
        (∀ change ∈ system.changes, change.Justified leader) ∧
          system.ChangesAsRead leader label) := by
  cases label with
  | receive id call =>
    simp only [membershipStep] at stepped
    split at stepped
    · cases stepped
      refine ⟨holds.setCall id fun other stage same => ?_, (and_iff_left trivial).symm⟩
      cases same
      trivial
    · cases stepped
  | read id =>
    simp only [membershipStep] at stepped
    split at stepped
    · cases stepped
      refine ⟨holds.setCall id fun other stage same => ?_, (and_iff_left trivial).symm⟩
      obtain ⟨newVoters, started, waits⟩ := Option.map_eq_some_iff.mp same
      cases waits
      exact planned_of_beforeLock started
    · cases stepped
  | lock id =>
    simp only [membershipStep] at stepped
    split at stepped
    · rename_i call read newVoters called free
      cases stepped
      have locked : Sound leader (system.setCall id (some (call, .locked read newVoters))) := by
        refine holds.setCall id fun other stage same => ?_
        cases same
        have waited : call.Planned leader read newVoters := holds.planned id call _ called
        exact waited
      exact ⟨⟨locked.nonempty, locked.planned⟩, (and_iff_left trivial).symm⟩
    · cases stepped
  | change id outcome =>
    simp only [membershipStep] at stepped
    split at stepped
    · rename_i call read newVoters called
      have planned : call.Planned leader read newVoters := holds.planned id call _ called
      split at stepped
      · rename_i idle
        cases stepped
        refine ⟨holds.finish id, (and_iff_left ?_).symm⟩
        cases outcome with
        | refused learnerAdded => trivial
        | committed =>
          simp only [changesAsRead_committed_iff called]
          exact readCurrent_of_idle planned idle
      · rename_i change asked
        cases outcome with
        | refused learnerAdded =>
          cases stepped
          have frame := addLearner_frame system change
          have kept : Sound leader (if learnerAdded then system.addLearner change else system) ∧
              (if learnerAdded then system.addLearner change else system).changes =
                system.changes := by
            cases learnerAdded with
            | false => exact ⟨holds, rfl⟩
            | true =>
              refine ⟨⟨?_, ?_⟩, frame.2.2⟩
              · exact (congrArg (fun raft => raft.voterSet.Nonempty) frame.1).mpr holds.nonempty
              · intro other called stage found
                exact holds.planned other called stage
                  ((congrFun frame.2.1 other).symm.trans found)
          refine ⟨kept.1.finish id, ?_⟩
          rw [show ((if learnerAdded then system.addLearner change else system).finish id).changes =
            system.changes from kept.2]
          exact (and_iff_left trivial).symm
        | committed =>
          obtain ⟨after, changed, rfl⟩ := Option.map_eq_some_iff.mp stepped
          obtain ⟨voters, nonempty⟩ := changeMembership_voterSet changed
          have frame := changeMembership_frame changed
          have sound : Sound leader after := by
            refine ⟨nonempty, fun other called stage found => ?_⟩
            exact holds.planned other called stage ((congrFun frame.1 other).symm.trans found)
          have finished := sound.finish id
          refine ⟨⟨finished.nonempty, finished.planned⟩, ?_⟩
          simp only [List.forall_mem_cons, changesAsRead_committed_iff called, voters]
          rw [justified_iff planned asked, and_comm]
    · cases stepped

end MembershipSystem

/-- In every run of one leader, the voters never become none, and all committed changes do what
their calls may do exactly if every shutdown and every reconciliation commits its change while the
voters are as it read them before it waited for the lock. -/
theorem membership_changes_justified_iff (leader : Nat) {raft : RaftState}
    (nonempty : raft.voterSet.Nonempty) (learners : List NodeInfo)
    {labels : List MembershipLabel} {system : MembershipSystem}
    (reached : run (membershipStep leader) (.start raft learners) labels = some system) :
    system.raft.voterSet.Nonempty ∧
      ((∀ change ∈ system.changes, change.Justified leader) ↔
        Along (membershipStep leader) (MembershipSystem.ChangesAsRead leader)
          (.start raft learners) labels) := by
  have initially : MembershipSystem.Sound leader (.start raft learners) :=
    MembershipSystem.sound_start nonempty learners
  have sound : MembershipSystem.Sound leader system :=
    run_invariant (MembershipSystem.Sound leader)
      (fun _ _ _ stepped holds => (holds.step stepped).1) reached initially
  refine ⟨sound.nonempty, ?_⟩
  have exactly := run_property_iff (MembershipSystem.Sound leader)
    (fun _ _ _ stepped holds => (holds.step stepped).1)
    (fun _ _ _ stepped holds => (holds.step stepped).2) reached initially
  exact exactly.trans (and_iff_right fun _ impossible => absurd impossible List.not_mem_nil)

/-- A leader of three voters. -/
def sampleLeader : RaftState where
  vote := true
  log := true
  membership := some ⟨0, 0, [⟨1, "layerhouse-0:5051"⟩, ⟨2, "layerhouse-1:5051"⟩,
    ⟨3, "layerhouse-2:5051"⟩]⟩
  applied := none
  leader := some 1

def sampleNewNode : MembershipCall :=
  .join ⟨4, "layerhouse-3:5051"⟩

/-- A node joins, is scaled down, and the leader shuts down. -/
def sampleChanges : List MembershipLabel :=
  [.receive 0 sampleNewNode, .read 0, .lock 0, .change 0 .committed,
    .receive 1 (.reconcile 3), .read 1, .lock 1, .change 1 .committed,
    .receive 2 .shutdown, .read 2, .lock 2, .change 2 .committed]

theorem membership_changes_justified_iff_sample :
    ∃ system, run (membershipStep 1) (.start sampleLeader []) sampleChanges = some system ∧
      system.changes.map (·.after) = [{2, 3}, {1, 2, 3}, {1, 2, 3, 4}] ∧
      ∀ change ∈ system.changes, change.Justified 1 := by
  have reached : run (membershipStep 1) (.start sampleLeader []) sampleChanges = some _ := rfl
  exact ⟨_, reached, by decide +kernel,
    (membership_changes_justified_iff 1 (by decide +kernel) [] reached).2.mpr (by decide +kernel)⟩

/-- A node joins while the leader waits to leave, and is dropped when the leader leaves. -/
theorem shutdown_undoes_join :
    ∃ labels system change, run (membershipStep 1) (.start sampleLeader []) labels = some system ∧
      change ∈ system.changes ∧ ¬ change.Justified 1 := by
  refine ⟨[.receive 0 .shutdown, .read 0, .receive 1 sampleNewNode, .read 1, .lock 1,
    .change 1 .committed, .lock 0, .change 0 .committed], _, _, rfl, List.mem_cons_self, ?_⟩
  intro justified
  have removed : 4 = 1 := justified.removed 4 (by decide +kernel) (by decide +kernel)
  exact absurd removed (by decide)

end Layerhouse
