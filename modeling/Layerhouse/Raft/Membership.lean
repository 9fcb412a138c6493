/-
This file is how a node finds its cluster: the join loop, the check of a restored
membership and the join and leave handlers of `raft/membership/mod.rs`, and the
start of a node in `main.rs`. A node that restores a snapshot seeds a vote and
checks that it is still a member; any other node asks its peers to let it join, and
node 1 founds a cluster of its own when a pass over the peers leaves it without a
leader.

Of openraft only what these functions look at is kept: whether a node has a vote
and a log, its effective and its applied membership, and the leader it knows. A
membership carries the number of the founding it stems from. `initialize` succeeds
exactly on a node without a log, a vote and a membership. What peers answer (or do
not), what the name service answers, when messages arrive, nodes crash and
snapshots are uploaded is in the labels.
-/

import Layerhouse.Library.Runs
import Layerhouse.Library.Text

namespace Layerhouse

structure NodeInfo where
  id : Nat
  addr : String
deriving DecidableEq

/-- A membership of the cluster that the founding `origin` started. -/
structure ClusterMembership where
  origin : Nat
  logIndex : Nat
  voters : List NodeInfo
deriving DecidableEq

namespace ClusterMembership

def voterIds (membership : ClusterMembership) : List Nat :=
  membership.voters.map (·.id)

def addrOf (membership : ClusterMembership) (id : Nat) : Option String :=
  (membership.voters.find? (·.id = id)).map (·.addr)

/-- The next membership of the same cluster. -/
def change (membership : ClusterMembership) (voters : List NodeInfo) : ClusterMembership :=
  { membership with
    logIndex := membership.logIndex + 1
    voters := voters }

end ClusterMembership

/-- What a node's Raft instance holds. -/
structure RaftState where
  vote : Bool
  log : Bool
  membership : Option ClusterMembership
  applied : Option ClusterMembership
  leader : Option Nat
deriving DecidableEq

namespace RaftState

def blank : RaftState where
  vote := false
  log := false
  membership := none
  applied := none
  leader := none

def voterIds (raft : RaftState) : List Nat :=
  (raft.membership.map (·.voterIds)).getD []

/-- The address of the leader the node knows. -/
def leaderAddr (raft : RaftState) : Option String := do
  let leader ← raft.leader
  let membership ← raft.membership
  membership.addrOf leader

/-- Found a cluster with the given members. -/
def initializeWith (raft : RaftState) (origin : Nat) (members : List NodeInfo) :
    Option RaftState :=
  if raft.vote ∨ raft.log ∨ raft.membership.isSome then none
  else
    some { raft with
      vote := true
      log := true
      membership := some ⟨origin, 0, members⟩ }

end RaftState

/-! ### Join and leave requests -/

inductive NodeState where
  | leader
  | follower
  | candidate
  | learner
deriving DecidableEq

structure ClusterStatus where
  nodeId : Nat
  state : NodeState
  leaderAddr : Option String
  voters : List NodeInfo
  lastAppliedLog : Option Nat
  lastMembershipLogId : Option Nat
deriving DecidableEq

structure JoinRequest where
  nodeId : Nat
  addr : String

inductive JoinResult where
  | ok
  | notLeader
  | alreadyMember
deriving DecidableEq

structure JoinResponse where
  result : JoinResult
  leaderAddr : Option String
deriving DecidableEq

inductive LeaveResult where
  | ok
  | notLeader
  | lastVoter
  | notMember
deriving DecidableEq

structure LeaveResponse where
  result : LeaveResult
  leaderAddr : Option String
deriving DecidableEq

/-- The answer to a join request that changes nothing. -/
def precheckJoin (id : Nat) (raft : RaftState) (nodeId : Nat) : Option JoinResponse :=
  if raft.leader ≠ some id then some ⟨.notLeader, raft.leaderAddr⟩
  else if nodeId ∈ raft.voterIds then some ⟨.alreadyMember, none⟩
  else none

/-- The answer to a leave request that changes nothing. -/
def precheckLeave (id : Nat) (raft : RaftState) (nodeId : Nat) : Option LeaveResponse :=
  if raft.leader ≠ some id then some ⟨.notLeader, raft.leaderAddr⟩
  else if nodeId ∉ raft.voterIds then some ⟨.notMember, none⟩
  else if raft.voterIds.length ≤ 1 then some ⟨.lastVoter, none⟩
  else none

/-! ### The join loop -/

/-- A decimal number of 64 bits, with an optional plus sign. -/
def parseU64 (text : List Char) : Option Nat :=
  let digits := (Text.stripPrefix ['+'] text).getD text
  if digits = [] ∨ ¬ digits.all Char.isDigit then none
  else
    let value := digits.foldl (fun value digit => value * 10 + (digit.toNat - 48)) 0
    if value < 2 ^ 64 then some value else none

/-- The address of the first pod of the set that an advertised address belongs to. -/
def ordinalZeroPeerTarget (advertiseAddr : String) : Option String := do
  let (host, port) ← Text.rsplitOnce [':'] advertiseAddr.toList
  let (podName, domain) ← Text.splitOnce '.' host
  let (lead, ordinal) ← Text.rsplitOnce ['-'] podName
  let _ ← parseU64 ordinal
  return String.ofList (lead ++ "-0.".toList ++ domain ++ ':' :: port)

def mergeSeedAndDiscoveredPeers (seedPeers discoveredPeers : List String) : List String :=
  (seedPeers ++ discoveredPeers).foldl
    (fun seen peer => if peer ∈ seen then seen else seen ++ [peer]) []

def joinTargetForStatus (peer : String) (status : ClusterStatus) : Option String :=
  if status.state = .leader then some peer else status.leaderAddr

def localMembershipConfirmsJoin (currentLeader : Option Nat) (voterIds : List Nat)
    (localMembershipLogId leaderMembershipLogId : Option Nat) (leaderHasNode : Bool)
    (nodeId : Nat) : Bool :=
  currentLeader.isSome ∧ leaderHasNode ∧ nodeId ∈ voterIds ∧
    leaderMembershipLogId.getD 0 ≤ localMembershipLogId.getD 0

/-- The node's own view agrees with the status of the leader that accepted the join. -/
def localJoinIsConfirmed (raft : RaftState) (nodeId : Nat) (leaderStatus : Option ClusterStatus) :
    Bool :=
  match leaderStatus with
  | none => false
  | some status =>
    localMembershipConfirmsJoin raft.leader raft.voterIds (raft.membership.map (·.logIndex))
      status.lastMembershipLogId (status.voters.any (·.id = nodeId)) nodeId

/-- The answers to the calls of one turn of the loop over the peers, `none` standing for a failed
call: the status, the join, the status of the leader afterwards, and the last two again for the
leader that the peer names. -/
structure PeerAnswers where
  status : Option ClusterStatus
  join : Option JoinResponse
  leaderStatus : Option ClusterStatus
  redirectedJoin : Option JoinResponse
  redirectedLeaderStatus : Option ClusterStatus

/-- The join was accepted. -/
def JoinResponse.accepted (response : JoinResponse) : Bool :=
  response.result = .ok ∨ response.result = .alreadyMember

/-- One turn of the loop over the peers: whether the node has joined. -/
def joinThroughPeer (raft : RaftState) (nodeId : Nat) (peer : String) (answers : PeerAnswers) :
    Bool :=
  match answers.status with
  | none => false
  | some status =>
    if status.nodeId = nodeId ∨ joinTargetForStatus peer status = none then false
    else
      match answers.join with
      | none => false
      | some response =>
        if response.accepted then localJoinIsConfirmed raft nodeId answers.leaderStatus
        else
          response.leaderAddr.isSome ∧ answers.redirectedJoin.any (·.accepted) ∧
            localJoinIsConfirmed raft nodeId answers.redirectedLeaderStatus

/-! ### The check of a restored membership -/

def authoritativeLogTolerance : Nat := 10

inductive Verification where
  | noPeers
  | confirmed
  | rejoin
deriving DecidableEq

/-- What the statuses of the peers that answered say about a restored membership. -/
def verifyMembership (nodeId : Nat) (answered : List ClusterStatus) : Verification :=
  let statuses := answered.filter (·.nodeId ≠ nodeId)
  if statuses.isEmpty then .noPeers
  else
    let maxApplied := (statuses.filterMap (·.lastAppliedLog)).foldl max 0
    let authoritative := statuses.filter fun status =>
      maxApplied - authoritativeLogTolerance ≤ status.lastAppliedLog.getD 0
    let inMembership := authoritative.countP fun status => status.voters.any (·.id = nodeId)
    if authoritative.isEmpty then .rejoin
    else if authoritative.length / 2 < inMembership then .confirmed
    else .rejoin

/-- The addresses of the other members, in order and without repetitions. -/
def restoredMembershipPeerTargets (nodes : List NodeInfo) (selfNodeId : Nat) : List String :=
  let addrs := (nodes.filter fun node =>
    node.id ≠ selfNodeId ∧ Text.trim node.addr.toList ≠ []).map (·.addr)
  (addrs.mergeSort (· ≤ ·)).dedup

def selectVerificationPeerTargets (restoredPeers discoveredPeers : List String) : List String :=
  if restoredPeers.isEmpty then discoveredPeers else restoredPeers

/-! ### Nodes and their steps -/

/-- Where the membership task of a node stands: done, between two passes of the join loop, in a
pass with some peers left, or about to check a restored membership. -/
inductive MembershipTask where
  | finished
  | joining (seedPeers : List String)
  | asking (seedPeers peers : List String)
  | verifying

/-- A node: its process, its Raft state, which outlives the process only with its file, and the
membership in its uploaded snapshot. A snapshot in which nothing was applied counts as none. -/
structure Node where
  running : Bool
  raft : RaftState
  saved : Option ClusterMembership
  task : MembershipTask

/-- All nodes, and how many clusters were founded. -/
structure Cluster where
  nodes : Nat → Node
  foundings : Nat

def Cluster.empty : Cluster where
  nodes := fun _ => ⟨false, .blank, none, .finished⟩
  foundings := 0

def Cluster.set (cluster : Cluster) (id : Nat) (node : Node) : Cluster :=
  { cluster with nodes := Function.update cluster.nodes id node }

@[simp] theorem Cluster.set_nodes_self (cluster : Cluster) (id : Nat) (node : Node) :
    (cluster.set id node).nodes id = node :=
  Function.update_self ..

@[simp] theorem Cluster.set_nodes_of_ne (cluster : Cluster) {id other : Nat} (node : Node)
    (different : other ≠ id) : (cluster.set id node).nodes other = cluster.nodes other :=
  Function.update_of_ne different ..

@[simp] theorem Cluster.set_foundings (cluster : Cluster) (id : Nat) (node : Node) :
    (cluster.set id node).foundings = cluster.foundings :=
  rfl

/-- The Raft state of a starting node: a restored snapshot seeds a vote and, without a log, gives
the membership. -/
def restoreRaft (raft : RaftState) : Option ClusterMembership → RaftState
  | none => { raft with leader := none }
  | some membership =>
    { raft with
      vote := true
      membership := some (raft.membership.getD membership)
      applied := some membership
      leader := none }

/-- The task a node starts with. -/
def startTask (addr : Nat → String) (id : Nat) : Option ClusterMembership → MembershipTask
  | some _ => .verifying
  | none => .joining (if id = 1 then [] else (ordinalZeroPeerTarget (addr id)).toList)

inductive ClusterLabel where
  | start (id : Nat) (logKept : Bool)
  | crash (id : Nat)
  | apply (id : Nat)
  | upload (id : Nat)
  | requestVote (source target : Nat)
  | appendEntries (source target : Nat)
  | elect (id : Nat)
  | join (leader : Nat) (request : JoinRequest)
  | leave (leader nodeId : Nat)
  | replaceVoters (leader : Nat) (voters : List NodeInfo)
  | discover (id : Nat) (discovered : List String)
  | askPeer (id : Nat) (answers : PeerAnswers)
  | endPass (id : Nat)
  | verify (id : Nat) (answered : List ClusterStatus) (discovered : List String)

/-- The running voters of a membership that hold a membership of the same cluster. -/
def Cluster.supporters (cluster : Cluster) (membership : ClusterMembership) : Nat :=
  membership.voterIds.countP fun id =>
    (cluster.nodes id).running ∧
      (cluster.nodes id).raft.membership.any (·.origin = membership.origin)

/-- Node `id` tries to found a cluster; `afterwards` is its task when that fails. -/
def Cluster.bootstrap (cluster : Cluster) (addr : Nat → String) (id : Nat)
    (afterwards : MembershipTask) : Cluster :=
  let node := cluster.nodes id
  match node.raft.initializeWith cluster.foundings [⟨id, addr id⟩] with
  | some raft =>
    { cluster.set id { node with raft := raft, task := .finished } with
      foundings := cluster.foundings + 1 }
  | none => cluster.set id { node with task := afterwards }

/-- A leader changes its membership. -/
def Cluster.changeMembership (cluster : Cluster) (leader : Nat) (voters : List NodeInfo) :
    Option Cluster :=
  let node := cluster.nodes leader
  match node.raft.membership with
  | none => none
  | some membership =>
    some (cluster.set leader
      { node with raft := { node.raft with membership := some (membership.change voters) } })

/-- The steps of a running node. -/
def runningStep (addr : Nat → String) (cluster : Cluster) (id : Nat) :
    ClusterLabel → Option Cluster
  | .crash _ => some (cluster.set id { cluster.nodes id with running := false })
  | .apply _ =>
    let node := cluster.nodes id
    some (cluster.set id
      { node with raft := { node.raft with applied := node.raft.membership } })
  | .upload _ =>
    let node := cluster.nodes id
    some (cluster.set id { node with saved := node.raft.applied })
  | .requestVote _ target =>
    let node := cluster.nodes target
    if node.running ∧ (cluster.nodes id).raft.membership.isSome then
      some (cluster.set target { node with raft := { node.raft with vote := true } })
    else none
  | .appendEntries _ target =>
    let node := cluster.nodes target
    match (cluster.nodes id).raft.membership with
    | none => none
    | some membership =>
      if node.running then
        some (cluster.set target
          { node with raft := { node.raft with
              vote := true
              log := true
              membership := some membership
              leader := (cluster.nodes id).raft.leader } })
      else none
  | .elect _ =>
    let node := cluster.nodes id
    match node.raft.membership with
    | none => none
    | some membership =>
      if id ∈ membership.voterIds ∧
          membership.voterIds.length < 2 * cluster.supporters membership then
        some (cluster.set id { node with raft := { node.raft with leader := some id } })
      else none
  | .join _ request =>
    match precheckJoin id (cluster.nodes id).raft request.nodeId with
    | some _ => none
    | none =>
      cluster.changeMembership id
        (((cluster.nodes id).raft.membership.map (·.voters)).getD [] ++
          [⟨request.nodeId, request.addr⟩])
  | .leave _ nodeId =>
    match precheckLeave id (cluster.nodes id).raft nodeId with
    | some _ => none
    | none =>
      cluster.changeMembership id
        ((((cluster.nodes id).raft.membership.map (·.voters)).getD []).filter (·.id ≠ nodeId))
  | .replaceVoters _ voters =>
    if (cluster.nodes id).raft.leader = some id ∧ voters ≠ [] then
      cluster.changeMembership id voters
    else none
  | .discover _ discovered =>
    let node := cluster.nodes id
    match node.task with
    | .joining seedPeers =>
      some (cluster.set id
        { node with task := .asking seedPeers (mergeSeedAndDiscoveredPeers seedPeers discovered) })
    | _ => none
  | .askPeer _ answers =>
    let node := cluster.nodes id
    match node.task with
    | .asking seedPeers (peer :: rest) =>
      some (cluster.set id
        { node with task :=
            if joinThroughPeer node.raft id peer answers then .finished
            else .asking seedPeers rest })
    | _ => none
  | .endPass _ =>
    let node := cluster.nodes id
    match node.task with
    | .asking seedPeers [] =>
      if id ≠ 1 then some (cluster.set id { node with task := .joining seedPeers })
      else if node.raft.leader.isSome then some (cluster.set id { node with task := .finished })
      else some (cluster.bootstrap addr id (.joining seedPeers))
    | _ => none
  | .verify _ answered discovered =>
    let node := cluster.nodes id
    match node.task with
    | .verifying =>
      match verifyMembership id answered with
      | .noPeers =>
        if id = 1 then some (cluster.bootstrap addr id .finished)
        else some (cluster.set id { node with task := .finished })
      | .confirmed => some (cluster.set id { node with task := .finished })
      | .rejoin =>
        let restored := restoredMembershipPeerTargets
          ((node.raft.membership.map (·.voters)).getD []) id
        some (cluster.set id
          { node with task := .joining (selectVerificationPeerTargets restored discovered) })
    | _ => none
  | .start .. => none

/-- The node that takes a step; the source, where a message passes between two. -/
def ClusterLabel.actor : ClusterLabel → Nat
  | .start id _ | .crash id | .apply id | .upload id | .requestVote id _ | .appendEntries id _
  | .elect id | .join id _ | .leave id _ | .replaceVoters id _ | .discover id _ | .askPeer id _
  | .endPass id | .verify id _ _ => id

def clusterStep (addr : Nat → String) (cluster : Cluster) (label : ClusterLabel) :
    Option Cluster :=
  let node := cluster.nodes label.actor
  match label with
  | .start id logKept =>
    if node.running then none
    else
      some (cluster.set id
        { node with
          running := true
          raft := restoreRaft (if logKept then node.raft else .blank) node.saved
          task := startTask addr id node.saved })
  | label => if node.running then runningStep addr cluster label.actor label else none

end Layerhouse
