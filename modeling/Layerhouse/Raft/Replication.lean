/-
This file models a cluster of voters that replicate the metadata log, from the Raft
setup, restore and snapshot upload of `main.rs` down to the log store.

Each voter runs openraft over its log store: it campaigns, grants votes, leads,
takes over entries and snapshots, commits and applies. Requests and replies stay in
flight forever, so they may be delayed, reordered, repeated or never delivered. A
voter may stop at any time. Its log store is then lost, and a restart rebuilds the
voter from its own `latest.bin`, which only the upload loop and the shutdown path
write.

The state machine's data is modelled by the list of entries applied to it: the
metadata is a function of that list.
-/

import Layerhouse.Library.Runs
import Layerhouse.Raft.LogStore

namespace Layerhouse

/-! ### Snapshots -/

/-- A serialized snapshot: the version header and the state machine's data. -/
structure SnapshotBytes where
  version : Nat
  payload : List LogEntry

def serializeSnapshot (data : List LogEntry) : SnapshotBytes where
  version := snapshotVersion
  payload := data

def deserializeSnapshot (bytes : SnapshotBytes) : Except SnapshotError (List LogEntry) :=
  if bytes.version ≠ snapshotVersion then .error (.unsupportedVersion bytes.version)
  else .ok bytes.payload

/-- `SnapshotPolicy::LogsSinceLast` -/
def logsSinceLast : Nat := 1000

def maxInSnapshotLogToKeep : Nat := 100

/-! ### One voter -/

/-- The index after a log id. -/
def nextIndex : Option LogId → Nat
  | none => 0
  | some logId => logId.index + 1

inductive Role where
  | follower
  | candidate
  | leader
deriving DecidableEq

structure Replica where
  running : Bool
  role : Role
  /-- The redb file, lost when the voter restarts. -/
  store : RedbLogStore
  /-- The entries applied to the state machine. -/
  applied : List LogEntry
  /-- The number of entries known to be committed. -/
  committed : Nat
  /-- The newest snapshot, as the metrics show it. -/
  built : Option SnapshotBytes
  /-- The snapshot that the state machine keeps: one that was installed or restored. -/
  snapshot : Option SnapshotBytes
  /-- The indexes of the client writes that wait for their entry to be applied. -/
  pending : List Nat
  /-- `last_uploaded` of the upload loop. -/
  lastUploaded : Option LogId
  /-- The voter's snapshot object in S3. -/
  latestBin : Option SnapshotBytes

namespace Replica

variable (replica : Replica)

def vote : Vote :=
  replica.store.readVoteSync.getD default

def lastLogId : Option LogId :=
  replica.store.getLogStateSync.lastLogId

/-- The newest snapshot's last log id, as the metrics show it. -/
def snapshotLogId : Option LogId :=
  replica.built.bind fun bytes => Layerhouse.lastLogId bytes.payload

/-- The voter's log has the id: below the commit index every id of a leader is its own. -/
def hasLogId (logId : LogId) : Bool :=
  logId.index < replica.committed ∨ replica.store.logIdAt logId.index = some logId

/-- Follow the leader or candidate of a vote. -/
def follow (vote : Vote) : Replica :=
  { replica with
    role := .follower
    store := replica.store.saveVoteSync vote }

/-- Append an entry of the voter's own leadership. -/
def leaderEntry (payload : EntryPayload) : LogEntry :=
  ⟨⟨replica.vote.leaderId, nextIndex replica.lastLogId⟩, payload⟩

def append (entries : List LogEntry) : Replica :=
  { replica with store := replica.store.appendSync entries }

/-- Drop the log from an index on, and the client writes that wait for it. -/
def truncate (logId : LogId) : Replica :=
  { replica with
    store := replica.store.truncateSync logId
    pending := replica.pending.filter (· < logId.index) }

/-- Take over a leader's entries: those already held are skipped, and the first one that is
not replaces what follows it. -/
def takeEntries (entries : List LogEntry) : Replica :=
  match entries.dropWhile fun entry => replica.hasLogId entry.logId with
  | [] => replica
  | entry :: rest => (replica.truncate entry.logId).append (entry :: rest)

def commitTo (count : Nat) : Replica :=
  { replica with committed := max replica.committed count }

/-- `install_snapshot`, with the log cleared up to the snapshot. -/
def install (bytes : SnapshotBytes) (data : List LogEntry) (last : LogId) : Replica :=
  let cleared := if (replica.store.logIdAt last.index).any (· ≠ last)
    then replica.truncate { last with index := replica.committed } else replica
  { cleared with
    store := cleared.store.purgeSync last
    applied := data
    committed := last.index + 1
    built := some bytes
    snapshot := some bytes }

/-- `upload_snapshot_now` -/
def uploadSnapshotNow : Replica :=
  { replica with latestBin := some (serializeSnapshot replica.applied) }

end Replica

/-! ### Restarting -/

/-- The vote that the restore path seeds: the term of the last applied entry, for the node
itself. -/
def seededVote (nodeId : Nat) (lastApplied : LogId) : Vote :=
  Vote.new lastApplied.leaderId.term nodeId

/-- The log store after the restore path: a new file with the seeded vote, which openraft
purges up to the last applied entry when it starts. -/
def restoredStore (nodeId : Nat) : Option LogId → RedbLogStore
  | none => RedbLogStore.new
  | some lastApplied =>
    (RedbLogStore.new.seedVoteSync (seededVote nodeId lastApplied)).purgeSync lastApplied

/-- The restore path of `main`: a snapshot that cannot be read keeps the node from starting. -/
def restore (nodeId : Nat) (latestBin : Option SnapshotBytes) : Except SnapshotError Replica := do
  let data ← latestBin.elim (.ok []) deserializeSnapshot
  return {
    running := true
    role := .follower
    store := restoredStore nodeId (lastLogId data)
    applied := data
    committed := data.length
    built := latestBin
    snapshot := latestBin
    pending := []
    lastUploaded := none
    latestBin := latestBin }

/-! ### Messages -/

structure VoteRequest where
  leaderId : LeaderId
  lastLogId : Option LogId

/-- A granted vote. -/
structure VoteResponse where
  leaderId : LeaderId
  voter : Nat

structure AppendEntriesRequest where
  leaderId : LeaderId
  prevLogId : Option LogId
  entries : List LogEntry
  leaderCommit : Nat

structure InstallSnapshotRequest where
  leaderId : LeaderId
  snapshot : SnapshotBytes

/-- A success of one of the two requests above. -/
structure AppendEntriesResponse where
  leaderId : LeaderId
  voter : Nat
  matching : Option LogId

/-- A client write answered with success, and the leadership the answering node served. -/
structure Acknowledgement where
  leaderId : LeaderId
  entry : LogEntry

structure ReplicaSet where
  replicas : Nat → Replica
  voteRequests : List VoteRequest
  voteResponses : List VoteResponse
  appendRequests : List AppendEntriesRequest
  snapshotRequests : List InstallSnapshotRequest
  appendResponses : List AppendEntriesResponse
  acknowledged : List Acknowledgement

namespace ReplicaSet

def set (cluster : ReplicaSet) (id : Nat) (replica : Replica) : ReplicaSet :=
  { cluster with replicas := Function.update cluster.replicas id replica }

/-- The entry that founds the cluster. -/
def foundingEntry (voters : List Nat) : LogEntry :=
  ⟨⟨default, 0⟩, .membership ⟨[voters], ∅⟩⟩

/-- Every voter runs and holds the founding entry. -/
def start (voters : List Nat) : ReplicaSet where
  replicas _ := {
    running := true
    role := .follower
    store := RedbLogStore.new.appendSync [foundingEntry voters]
    applied := []
    committed := 0
    built := none
    snapshot := none
    pending := []
    lastUploaded := none
    latestBin := none }
  voteRequests := []
  voteResponses := []
  appendRequests := []
  snapshotRequests := []
  appendResponses := []
  acknowledged := []

/-! ### Elections -/

/-- A voter that knows the membership campaigns in the next term and votes for itself. -/
def elect (cluster : ReplicaSet) (id : Nat) : Option ReplicaSet :=
  let replica := cluster.replicas id
  if replica.role ≠ .leader ∧ replica.lastLogId.isSome then
    let vote := Vote.new (replica.vote.leaderId.term + 1) id
    some { cluster.set id
        { replica with role := .candidate, store := replica.store.saveVoteSync vote } with
      voteRequests := ⟨vote.leaderId, replica.lastLogId⟩ :: cluster.voteRequests
      voteResponses := ⟨vote.leaderId, id⟩ :: cluster.voteResponses }
  else none

/-- Grant a vote to a candidate whose vote is not below the voter's own and whose log is not
behind. A voter that grants another leadership stops campaigning or leading. -/
def handleVote (cluster : ReplicaSet) (id : Nat) (request : VoteRequest) : Option ReplicaSet :=
  let replica := cluster.replicas id
  let vote : Vote := ⟨request.leaderId, false⟩
  if replica.vote ≤ vote ∧ notBehind replica.lastLogId request.lastLogId then
    let role := if replica.vote.leaderId = request.leaderId then replica.role else .follower
    some { cluster.set id { replica.follow vote with role } with
      voteResponses := ⟨request.leaderId, id⟩ :: cluster.voteResponses }
  else none

/-- Adopt a higher vote seen in a reply: one that a peer has held. -/
def observeVote (cluster : ReplicaSet) (id peer : Nat) (vote : Vote) : Option ReplicaSet :=
  let replica := cluster.replicas id
  if replica.vote < vote ∧ vote ≤ (cluster.replicas peer).vote then
    some (cluster.set id (replica.follow vote))
  else none

/-- The voters that granted a leadership. -/
def grants (cluster : ReplicaSet) (leaderId : LeaderId) (voter : Nat) : Bool :=
  cluster.voteResponses.any fun response =>
    response.leaderId = leaderId ∧ response.voter = voter

/-- The voters that hold a leadership's log up to an index. -/
def copies (cluster : ReplicaSet) (leaderId : LeaderId) (index voter : Nat) : Bool :=
  cluster.appendResponses.any fun response =>
    response.leaderId = leaderId ∧ response.voter = voter ∧ index < nextIndex response.matching

/-- Append an entry as leader and count the leader's own copy. -/
def leaderAppend (cluster : ReplicaSet) (id : Nat) (replica : Replica) (payload : EntryPayload) :
    ReplicaSet :=
  let entry := replica.leaderEntry payload
  { cluster.set id (replica.append [entry]) with
    appendResponses := ⟨replica.vote.leaderId, id, some entry.logId⟩ :: cluster.appendResponses }

/-- A candidate with a majority of grants leads, and starts with a blank entry. -/
def establishLeader (voters : List Nat) (cluster : ReplicaSet) (id : Nat) : Option ReplicaSet :=
  let replica := cluster.replicas id
  let leaderId := replica.vote.leaderId
  if replica.role = .candidate ∧ voters.length < 2 * voters.countP (cluster.grants leaderId) then
    some (cluster.leaderAppend id { replica.follow ⟨leaderId, true⟩ with role := .leader } .blank)
  else none

/-! ### Replication -/

/-- A client's write is appended to the leader's log and waits for its entry to be applied. -/
def clientWrite (cluster : ReplicaSet) (id : Nat) (request : Request) : Option ReplicaSet :=
  let replica := cluster.replicas id
  if replica.role = .leader then
    some (cluster.leaderAppend id
      { replica with pending := nextIndex replica.lastLogId :: replica.pending } (.normal request))
  else none

/-- Send the entries from an index on. Purged entries cannot be sent. -/
def sendAppendEntries (cluster : ReplicaSet) (id start count : Nat) : Option ReplicaSet :=
  let replica := cluster.replicas id
  let send (prevLogId : Option LogId) : ReplicaSet :=
    { cluster with
      appendRequests :=
        { leaderId := replica.vote.leaderId
          prevLogId
          entries := replica.store.getEntriesSync start (start + count)
          leaderCommit := replica.committed } :: cluster.appendRequests }
  if replica.role = .leader then
    match start with
    | 0 => if replica.store.lastPurged.isNone then some (send none) else none
    | previous + 1 => (replica.store.logIdAt previous).map fun logId => send (some logId)
  else none

/-- Take over a leader's entries when the entry before them is held; otherwise drop the log from
that entry on. -/
def handleAppendEntries (cluster : ReplicaSet) (id : Nat) (request : AppendEntriesRequest) :
    Option ReplicaSet :=
  let vote : Vote := ⟨request.leaderId, true⟩
  if (cluster.replicas id).vote ≤ vote ∧ request.leaderId.nodeId ≠ id then
    let replica := (cluster.replicas id).follow vote
    match request.prevLogId.filter fun logId => !replica.hasLogId logId with
    | some missing => some (cluster.set id (replica.truncate missing))
    | none =>
      let matching := (lastLogId request.entries).or request.prevLogId
      some { cluster.set id
          ((replica.takeEntries request.entries).commitTo
            (min request.leaderCommit (nextIndex matching))) with
        appendResponses := ⟨request.leaderId, id, matching⟩ :: cluster.appendResponses }
  else none

/-- A leader sends what `get_current_snapshot` answers, which is no snapshot it has built. -/
def sendSnapshot (cluster : ReplicaSet) (id : Nat) : Option ReplicaSet :=
  let replica := cluster.replicas id
  if replica.role = .leader then
    replica.snapshot.map fun snapshot =>
      { cluster with
        snapshotRequests := ⟨replica.vote.leaderId, snapshot⟩ :: cluster.snapshotRequests }
  else none

/-- Install a leader's snapshot, unless the voter has committed as much. -/
def handleInstallSnapshot (cluster : ReplicaSet) (id : Nat) (request : InstallSnapshotRequest) :
    Option ReplicaSet :=
  let vote : Vote := ⟨request.leaderId, true⟩
  if (cluster.replicas id).vote ≤ vote ∧ request.leaderId.nodeId ≠ id then
    let replica := (cluster.replicas id).follow vote
    match deserializeSnapshot request.snapshot with
    | .error _ => none
    | .ok data =>
      (lastLogId data).map fun last =>
        { cluster.set id
            (if last.index < replica.committed then replica
            else replica.install request.snapshot data last) with
          appendResponses := ⟨request.leaderId, id, some last⟩ :: cluster.appendResponses }
  else none

/-- A leader commits an entry of its own leadership that a majority holds. -/
def commit (voters : List Nat) (cluster : ReplicaSet) (id index : Nat) : Option ReplicaSet :=
  let replica := cluster.replicas id
  let leaderId := replica.vote.leaderId
  if replica.role = .leader ∧ replica.store.logIdAt index = some ⟨leaderId, index⟩ ∧
      voters.length < 2 * voters.countP (cluster.copies leaderId index) then
    some (cluster.set id (replica.commitTo (index + 1)))
  else none

/-- Apply the next committed entry, and answer the client that waits for it. -/
def apply (cluster : ReplicaSet) (id : Nat) : Option ReplicaSet :=
  let replica := cluster.replicas id
  let index := replica.applied.length
  if index < replica.committed then
    (replica.store.logs[index]?).map fun entry =>
      { cluster.set id
          { replica with
            applied := replica.applied ++ [entry]
            pending := replica.pending.filter (· ≠ index) } with
        acknowledged := if index ∈ replica.pending
          then ⟨replica.vote.leaderId, entry⟩ :: cluster.acknowledged else cluster.acknowledged }
  else none

/-! ### Snapshots and restarts -/

def buildSnapshot (cluster : ReplicaSet) (id : Nat) : Option ReplicaSet :=
  let replica := cluster.replicas id
  if nextIndex replica.snapshotLogId + logsSinceLast ≤ replica.committed then
    some (cluster.set id { replica with built := some (serializeSnapshot replica.applied) })
  else none

/-- Purge the entries a snapshot covers, except the last ones. -/
def purge (cluster : ReplicaSet) (id : Nat) : Option ReplicaSet :=
  let replica := cluster.replicas id
  let stop := nextIndex replica.snapshotLogId - maxInSnapshotLogToKeep
  if nextIndex replica.store.lastPurged < stop then
    (replica.store.logIdAt (stop - 1)).map fun logId =>
      cluster.set id { replica with store := replica.store.purgeSync logId }
  else none

/-- One turn of `snapshot_upload_loop`: a new snapshot makes it upload the applied data. -/
def snapshotUploadLoop (cluster : ReplicaSet) (id : Nat) : Option ReplicaSet :=
  let replica := cluster.replicas id
  if replica.snapshotLogId.isSome ∧ replica.snapshotLogId ≠ replica.lastUploaded then
    some (cluster.set id
      { replica.uploadSnapshotNow with lastUploaded := replica.snapshotLogId })
  else none

end ReplicaSet

/-! ### Runs -/

inductive ReplicaLabel where
  | elect (id : Nat)
  | handleVote (id position : Nat)
  | observeVote (id peer : Nat) (vote : Vote)
  | establishLeader (id : Nat)
  | clientWrite (id : Nat) (request : Request)
  | sendAppendEntries (id start count : Nat)
  | handleAppendEntries (id position : Nat)
  | sendSnapshot (id : Nat)
  | handleInstallSnapshot (id position : Nat)
  | commit (id index : Nat)
  | apply (id : Nat)
  | buildSnapshot (id : Nat)
  | purge (id : Nat)
  | snapshotUploadLoop (id : Nat)
  /-- The upload of the shutdown path; the voter serves on until it stops. -/
  | uploadSnapshotNow (id : Nat)
  | stop (id : Nat)
  | restart (id : Nat)

def ReplicaLabel.actor : ReplicaLabel → Nat
  | elect id | handleVote id _ | observeVote id _ _ | establishLeader id | clientWrite id _
  | sendAppendEntries id _ _ | handleAppendEntries id _ | sendSnapshot id
  | handleInstallSnapshot id _ | commit id _ | apply id | buildSnapshot id | purge id
  | snapshotUploadLoop id | uploadSnapshotNow id | stop id | restart id => id

/-- A step of a running voter. -/
def runningReplicaStep (voters : List Nat) (cluster : ReplicaSet) :
    ReplicaLabel → Option ReplicaSet
  | .elect id => cluster.elect id
  | .handleVote id position => cluster.voteRequests[position]?.bind (cluster.handleVote id)
  | .observeVote id peer vote =>
    if peer ∈ voters then cluster.observeVote id peer vote else none
  | .establishLeader id => cluster.establishLeader voters id
  | .clientWrite id request => cluster.clientWrite id request
  | .sendAppendEntries id start count => cluster.sendAppendEntries id start count
  | .handleAppendEntries id position =>
    cluster.appendRequests[position]?.bind (cluster.handleAppendEntries id)
  | .sendSnapshot id => cluster.sendSnapshot id
  | .handleInstallSnapshot id position =>
    cluster.snapshotRequests[position]?.bind (cluster.handleInstallSnapshot id)
  | .commit id index => cluster.commit voters id index
  | .apply id => cluster.apply id
  | .buildSnapshot id => cluster.buildSnapshot id
  | .purge id => cluster.purge id
  | .snapshotUploadLoop id => cluster.snapshotUploadLoop id
  | .uploadSnapshotNow id => some (cluster.set id (cluster.replicas id).uploadSnapshotNow)
  | .stop id => some (cluster.set id { cluster.replicas id with running := false })
  | .restart _ => none

/-- A voter that is down can only restart, from its `latest.bin`. -/
def replicaStep (voters : List Nat) (cluster : ReplicaSet) (label : ReplicaLabel) :
    Option ReplicaSet :=
  let replica := cluster.replicas label.actor
  if label.actor ∈ voters then
    if replica.running then runningReplicaStep voters cluster label
    else match label with
      | .restart id =>
        match restore id replica.latestBin with
        | .error _ => none
        | .ok restored => some (cluster.set id restored)
      | _ => none
  else none

/-- The number of voters that are down. -/
def ReplicaSet.down (voters : List Nat) (cluster : ReplicaSet) : Nat :=
  voters.countP fun id => !(cluster.replicas id).running

end Layerhouse
