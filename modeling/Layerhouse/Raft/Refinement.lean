/-
This file relates the cluster to the abstract protocol of ballots. A leadership is
a ballot, a voter's log is the list its log store represents (the purged part is in
the applied data), its saved vote is its promise, and each message in flight says
something that holds of the abstract state and stays true.

A step of one voter moves the abstract state by steps of the protocol that concern
that voter only; `Moves` says what such steps keep. The lemmas of the last sections
give, for each operation of a voter, the abstract state after it.
-/

import Layerhouse.Library.Ballots
import Layerhouse.Raft.Replication

namespace Layerhouse

open Ballots

/-- Majorities of the voters decide, and an entry's ballot is the leadership it was written
under. -/
def raftScheme (voters : List Nat) : Scheme Nat LeaderId LogEntry where
  quorum := Majority voters
  meet _ _ first second := majority_meet first second
  ballotOf entry := entry.logId.leaderId

abbrev BallotState := State Nat LeaderId LogEntry

variable {voters : List Nat} {state next : BallotState} {id : Nat}

/-! ### What a step of one voter moves -/

/-- The abstract state moves by steps that concern one voter. -/
structure Moves (voters : List Nat) (id : Nat) (state next : BallotState) : Prop where
  grows : Grows state next
  invariant : Invariant (raftScheme voters) state → Invariant (raftScheme voters) next
  log : ∀ other, other ≠ id → next.log other = state.log other
  promised : ∀ other, other ≠ id → next.promised other = state.promised other
  offer : ∀ ballot, ballot.nodeId ≠ id → next.offer ballot = state.offer ballot
  ledger : ∀ ballot, ballot.nodeId ≠ id → next.ledger ballot = state.ledger ballot
  indexed : (∀ ballot history, state.ledger ballot = some history → Indexed history) →
    ∀ ballot history, next.ledger ballot = some history → Indexed history
  elected : (∀ ballot, state.ledger ballot ≠ none → ballot = default ∨ state.offer ballot ≠ none) →
    ∀ ballot, next.ledger ballot ≠ none → ballot = default ∨ next.offer ballot ≠ none

theorem Moves.refl (voters : List Nat) (id : Nat) (state : BallotState) :
    Moves voters id state state where
  grows := Grows.refl state
  invariant inv := inv
  log _ _ := rfl
  promised _ _ := rfl
  offer _ _ := rfl
  ledger _ _ := rfl
  indexed each := each
  elected each := each

theorem Moves.trans {last : BallotState} (first : Moves voters id state next)
    (second : Moves voters id next last) : Moves voters id state last where
  grows := first.grows.trans second.grows
  invariant inv := second.invariant (first.invariant inv)
  log other different := (second.log other different).trans (first.log other different)
  promised other different :=
    (second.promised other different).trans (first.promised other different)
  offer ballot different := (second.offer ballot different).trans (first.offer ballot different)
  ledger ballot different :=
    (second.ledger ballot different).trans (first.ledger ballot different)
  indexed each := second.indexed (first.indexed each)
  elected each := second.elected (first.elected each)

/-- A step that leaves the offers and the ledgers alone moves one voter when it leaves the
others alone. -/
theorem Moves.of_step (step : Step (raftScheme voters) state next)
    (log : ∀ other, other ≠ id → next.log other = state.log other)
    (promised : ∀ other, other ≠ id → next.promised other = state.promised other)
    (offer : next.offer = state.offer) (ledger : next.ledger = state.ledger) :
    Moves voters id state next where
  grows := step.grows
  invariant inv := inv.step step
  log := log
  promised := promised
  offer _ _ := by rw [offer]
  ledger _ _ := by rw [ledger]
  indexed each := by rwa [ledger]
  elected each := by rwa [ledger, offer]

theorem Moves.promise {ballot : LeaderId} (notBelow : state.promised id ≤ ballot) :
    Moves voters id state
      { state with promised := Function.update state.promised id ballot } :=
  .of_step (.promise id ballot notBelow) (fun _ _ => rfl)
    (fun _ different => Function.update_of_ne different _ _) rfl rfl

theorem Moves.stand {ballot : LeaderId} (fresh : state.offer ballot = none)
    (above : ∀ entry ∈ state.log id, entry.logId.leaderId < ballot) (own : ballot.nodeId = id) :
    Moves voters id state
      { state with offer := Function.update state.offer ballot (some (state.log id)) } := by
  have step : Step (raftScheme voters) state _ := .stand id ballot fresh above
  refine ⟨step.grows, fun inv => inv.step step, fun _ _ => rfl, fun _ _ => rfl,
    fun other different => ?_, fun _ _ => rfl, fun each => each, fun each other elected => ?_⟩
  · exact Function.update_of_ne (fun same : other = ballot => different (same ▸ own)) _ _
  · refine (each other elected).imp_right fun stood => ?_
    obtain ⟨offered, found⟩ := Option.ne_none_iff_exists'.mp stood
    exact Option.ne_none_iff_exists'.mpr ⟨offered, step.grows.offer other offered found⟩

theorem Moves.grant {ballot : LeaderId} {offered : List LogEntry}
    (stood : state.offer ballot = some offered) (serves : state.promised id = ballot)
    (upToDate : (raftScheme voters).UpToDate (state.log id) offered) :
    Moves voters id state { state with
      granted := fun other voter => state.granted other voter ∨ other = ballot ∧ voter = id } :=
  .of_step (.grant id ballot offered stood serves upToDate) (fun _ _ => rfl) (fun _ _ => rfl)
    rfl rfl

theorem Moves.elect {ballot : LeaderId} {offered : List LogEntry}
    (stood : state.offer ballot = some offered) (fresh : state.ledger ballot = none)
    (won : Majority voters {node | state.granted ballot node}) (own : ballot.nodeId = id)
    (offeredIndexed : Indexed offered) :
    Moves voters id state
      { state with ledger := Function.update state.ledger ballot (some offered) } := by
  have step : Step (raftScheme voters) state _ := .elect ballot offered stood fresh won
  refine ⟨step.grows, fun inv => inv.step step, fun _ _ => rfl, fun _ _ => rfl, fun _ _ => rfl,
    fun other different => ?_, fun each other history elected => ?_, fun each other elected => ?_⟩
  · exact Function.update_of_ne (fun same : other = ballot => different (same ▸ own)) _ _
  · rcases update_eq_some elected with ⟨_, rfl⟩ | earlier
    · exact offeredIndexed
    · exact each other history earlier
  · obtain ⟨history, found⟩ := Option.ne_none_iff_exists'.mp elected
    rcases update_eq_some found with ⟨rfl, _⟩ | earlier
    · exact Or.inr (Option.ne_none_iff_exists'.mpr ⟨offered, stood⟩)
    · exact each other (Option.ne_none_iff_exists'.mpr ⟨history, earlier⟩)

theorem Moves.propose {ballot : LeaderId} {history : List LogEntry} {entry : LogEntry}
    (elected : state.ledger ballot = some history) (written : entry.logId.leaderId = ballot)
    (own : ballot.nodeId = id) (position : entry.logId.index = history.length) :
    Moves voters id state
      { state with
        ledger := Function.update state.ledger ballot (some (history ++ [entry])) } := by
  have step : Step (raftScheme voters) state _ := .propose ballot history entry elected written
  refine ⟨step.grows, fun inv => inv.step step, fun _ _ => rfl, fun _ _ => rfl, fun _ _ => rfl,
    fun other different => ?_, fun each other longer found => ?_, fun each other found => ?_⟩
  · exact Function.update_of_ne (fun same : other = ballot => different (same ▸ own)) _ _
  · rcases update_eq_some found with ⟨_, rfl⟩ | earlier
    · exact (each ballot history elected).concat position
    · exact each other longer earlier
  · obtain ⟨longer, lookup⟩ := Option.ne_none_iff_exists'.mp found
    rcases update_eq_some lookup with ⟨rfl, _⟩ | earlier
    · exact each other (Option.ne_none_iff_exists'.mpr ⟨history, elected⟩)
    · exact each other (Option.ne_none_iff_exists'.mpr ⟨longer, earlier⟩)

theorem Moves.accept {ballot : LeaderId} {history taken : List LogEntry}
    (elected : state.ledger ballot = some history) (serves : state.promised id = ballot)
    (within : taken <+: history) :
    Moves voters id state { state with
      log := Function.update state.log id (takeOver (state.log id) taken)
      acked := fun other acker acknowledged => state.acked other acker acknowledged ∨
        other = ballot ∧ acker = id ∧ acknowledged = taken } :=
  .of_step (.accept id ballot history taken elected serves within)
    (fun _ different => Function.update_of_ne different _ _) (fun _ _ => rfl) rfl rfl

theorem Moves.truncate {ballot : LeaderId} {history : List LogEntry} {length : Nat}
    (elected : state.ledger ballot = some history) (serves : state.promised id = ballot)
    (conflict : ¬ history.take (length + 1) <+: state.log id) :
    Moves voters id state
      { state with log := Function.update state.log id ((state.log id).take length) } :=
  .of_step (.truncate id ballot history length elected serves conflict)
    (fun _ different => Function.update_of_ne different _ _) (fun _ _ => rfl) rfl rfl

/-! ### The relation -/

/-- The snapshot can be read and holds part of the data. -/
def SnapshotBytes.Within (bytes : SnapshotBytes) (data : List LogEntry) : Prop :=
  bytes.version = snapshotVersion ∧ bytes.payload <+: data

structure Replica.Refines (voters : List Nat) (state : BallotState) (id : Nat)
    (replica : Replica) : Prop where
  store : ∃ purged ≤ replica.applied.length, replica.store.Represents (state.log id) purged
  promised : state.promised id = replica.vote.leaderId
  applied : replica.applied <+: state.log id
  appliedLe : replica.applied.length ≤ replica.committed
  committedLe : replica.committed ≤ (state.log id).length
  chosen : state.Chosen (raftScheme voters) (state.promised id)
    ((state.log id).take replica.committed)
  built : ∀ bytes ∈ replica.built, bytes.Within replica.applied
  snapshot : ∀ bytes ∈ replica.snapshot, bytes.Within replica.applied
  latestBin : ∀ bytes ∈ replica.latestBin, bytes.Within replica.applied
  candidate : replica.role = .candidate → (state.promised id).nodeId = id ∧
    state.offer (state.promised id) = some (state.log id) ∧
    state.ledger (state.promised id) = none
  leader : replica.role = .leader → (state.promised id).nodeId = id ∧
    state.ledger (state.promised id) = some (state.log id)
  stood : ∀ ballot, state.offer ballot ≠ none → ballot.nodeId = id → ballot ≤ state.promised id

/-- The request carries the last id of the log its candidate stood with. -/
def VoteRequest.Sound (state : BallotState) (request : VoteRequest) : Prop :=
  ∃ offered, state.offer request.leaderId = some offered ∧
    request.lastLogId = Layerhouse.lastLogId offered

def VoteResponse.Sound (state : BallotState) (response : VoteResponse) : Prop :=
  state.granted response.leaderId response.voter

/-- The request carries a part of its leader's log and a commit index below which the log is
committed. -/
def AppendEntriesRequest.Sound (voters : List Nat) (state : BallotState)
    (request : AppendEntriesRequest) : Prop :=
  ∃ history start, state.ledger request.leaderId = some history ∧ start ≤ history.length ∧
    request.prevLogId = lastLogId (history.take start) ∧
    request.entries <+: history.drop start ∧ request.leaderCommit ≤ history.length ∧
    state.Chosen (raftScheme voters) request.leaderId (history.take request.leaderCommit)

/-- The request carries a committed part of its leader's log. -/
def InstallSnapshotRequest.Sound (voters : List Nat) (state : BallotState)
    (request : InstallSnapshotRequest) : Prop :=
  ∃ history, state.ledger request.leaderId = some history ∧
    request.snapshot.Within history ∧
    state.Chosen (raftScheme voters) request.leaderId request.snapshot.payload

def AppendEntriesResponse.Sound (state : BallotState) (response : AppendEntriesResponse) : Prop :=
  ∃ taken, state.acked response.leaderId response.voter taken ∧
    response.matching = lastLogId taken

/-- The answered write was committed. -/
def Acknowledgement.Sound (voters : List Nat) (state : BallotState)
    (acknowledgement : Acknowledgement) : Prop :=
  ∃ log, state.Chosen (raftScheme voters) acknowledgement.leaderId log ∧
    acknowledgement.entry ∈ log

/-- Everything in flight is true. -/
structure ReplicaSet.Sound (voters : List Nat) (state : BallotState) (cluster : ReplicaSet) :
    Prop where
  voteRequests : ∀ request ∈ cluster.voteRequests, request.Sound state
  voteResponses : ∀ response ∈ cluster.voteResponses, response.Sound state
  appendRequests : ∀ request ∈ cluster.appendRequests, request.Sound voters state
  snapshotRequests : ∀ request ∈ cluster.snapshotRequests, request.Sound voters state
  appendResponses : ∀ response ∈ cluster.appendResponses, response.Sound state
  acknowledged : ∀ acknowledgement ∈ cluster.acknowledged, acknowledgement.Sound voters state

structure ReplicaSet.Refines (voters : List Nat) (cluster : ReplicaSet) (state : BallotState) :
    Prop where
  invariant : Invariant (raftScheme voters) state
  indexed : ∀ ballot history, state.ledger ballot = some history → Indexed history
  elected : ∀ ballot, state.ledger ballot ≠ none → ballot = default ∨ state.offer ballot ≠ none
  replicas : ∀ id, (cluster.replicas id).Refines voters state id
  sound : cluster.Sound voters state

/-! ### What steps of other voters keep -/

theorem Replica.Refines.moves {replica : Replica} {other : Nat}
    (refines : replica.Refines voters state other) (moves : Moves voters id state next)
    (different : other ≠ id) : replica.Refines voters next other := by
  have sameLog := moves.log other different
  have samePromise := moves.promised other different
  have sameOffer : ∀ ballot : LeaderId, ballot.nodeId = other →
      next.offer ballot = state.offer ballot :=
    fun ballot own => moves.offer ballot (own ▸ different)
  have sameLedger : ∀ ballot : LeaderId, ballot.nodeId = other →
      next.ledger ballot = state.ledger ballot :=
    fun ballot own => moves.ledger ballot (own ▸ different)
  exact {
    store := by rw [sameLog]; exact refines.store
    promised := by rw [samePromise]; exact refines.promised
    applied := by rw [sameLog]; exact refines.applied
    appliedLe := refines.appliedLe
    committedLe := by rw [sameLog]; exact refines.committedLe
    chosen := by rw [sameLog, samePromise]; exact refines.chosen.grows moves.grows le_rfl
    built := refines.built
    snapshot := refines.snapshot
    latestBin := refines.latestBin
    candidate := fun stands => by
      obtain ⟨own, offered, fresh⟩ := refines.candidate stands
      rw [samePromise, sameLog, sameOffer _ own, sameLedger _ own]
      exact ⟨own, offered, fresh⟩
    leader := fun leads => by
      obtain ⟨own, elected⟩ := refines.leader leads
      rw [samePromise, sameLog, sameLedger _ own]
      exact ⟨own, elected⟩
    stood := fun ballot stood own => by
      rw [sameOffer ballot own] at stood
      rw [samePromise]
      exact refines.stood ballot stood own }

theorem AppendEntriesRequest.Sound.grows {request : AppendEntriesRequest}
    (sound : request.Sound voters state) (grows : Grows state next) :
    request.Sound voters next := by
  obtain ⟨history, start, elected, inside, previous, entries, commitInside, chosen⟩ := sound
  obtain ⟨longer, later, rest, rfl⟩ := grows.ledger _ _ elected
  refine ⟨history ++ rest, start, later, ?_, ?_, ?_, ?_, ?_⟩
  · rw [List.length_append]
    exact inside.trans (Nat.le_add_right _ _)
  · rw [List.take_append_of_le_length inside]
    exact previous
  · rw [List.drop_append_of_le_length inside]
    exact entries.trans (List.prefix_append _ _)
  · rw [List.length_append]
    exact commitInside.trans (Nat.le_add_right _ _)
  · rw [List.take_append_of_le_length commitInside]
    exact chosen.grows grows le_rfl

theorem ReplicaSet.Sound.grows {cluster : ReplicaSet} (sound : cluster.Sound voters state)
    (grows : Grows state next) : cluster.Sound voters next where
  voteRequests request member := by
    obtain ⟨offered, stood, last⟩ := sound.voteRequests request member
    exact ⟨offered, grows.offer _ _ stood, last⟩
  voteResponses response member := grows.granted _ _ (sound.voteResponses response member)
  appendRequests request member := (sound.appendRequests request member).grows grows
  snapshotRequests request member := by
    obtain ⟨history, elected, ⟨version, part⟩, chosen⟩ := sound.snapshotRequests request member
    obtain ⟨longer, later, extended⟩ := grows.ledger _ _ elected
    exact ⟨longer, later, ⟨version, part.trans extended⟩, chosen.grows grows le_rfl⟩
  appendResponses response member := by
    obtain ⟨taken, acked, last⟩ := sound.appendResponses response member
    exact ⟨taken, grows.acked _ _ _ acked, last⟩
  acknowledged acknowledgement member := by
    obtain ⟨log, chosen, within⟩ := sound.acknowledged acknowledgement member
    exact ⟨log, chosen.grows grows le_rfl, within⟩

/-- A step of one voter refines when its own state and the new messages do. -/
theorem ReplicaSet.Refines.act {cluster after : ReplicaSet} {replica : Replica}
    (refines : cluster.Refines voters state) (moves : Moves voters id state next)
    (self : replica.Refines voters next id) (sound : after.Sound voters next)
    (replicas : after.replicas = Function.update cluster.replicas id replica) :
    after.Refines voters next where
  invariant := moves.invariant refines.invariant
  indexed := moves.indexed refines.indexed
  elected := moves.elected refines.elected
  replicas other := by
    rw [replicas]
    by_cases same : other = id
    · rw [same, Function.update_self]
      exact self
    · rw [Function.update_of_ne same]
      exact (refines.replicas other).moves moves same
  sound := sound

/-! ### Operations of a voter -/

section Operations

variable {cluster : ReplicaSet} {replica : Replica} {ballot : LeaderId}
  {history taken log : List LogEntry}

theorem Vote.leaderId_le {first second : Vote} (below : first ≤ second) :
    first.leaderId ≤ second.leaderId := by
  rcases Prod.Lex.toLex_le_toLex.mp below with earlier | ⟨same, _⟩
  · exact earlier.le
  · exact same.le

theorem nextIndex_lastLogId (indexed : Indexed log) : nextIndex (lastLogId log) = log.length := by
  cases last : lastLogId log with
  | none =>
    rw [lastLogId, Option.map_eq_none_iff, List.getLast?_eq_none_iff] at last
    rw [last]
    rfl
  | some logId => exact (indexed.length_eq last).symm

theorem indexed_of_traced
    (indexed : ∀ ballot history, state.ledger ballot = some history → Indexed history)
    (traced : state.Traced (raftScheme voters) log) : Indexed log := by
  obtain rfl | ⟨initial, entry, rfl⟩ := log.eq_nil_or_concat'
  · exact Indexed.nil
  obtain ⟨history, elected, within⟩ := traced initial entry List.prefix_rfl
  exact (indexed _ _ elected).ofPrefix within

theorem ReplicaSet.Refines.logIndexed (refines : cluster.Refines voters state) (id : Nat) :
    Indexed (state.log id) :=
  indexed_of_traced refines.indexed (refines.invariant.logTraced id)

theorem Replica.Refines.lastLogId_eq (refines : replica.Refines voters state id) :
    replica.lastLogId = Layerhouse.lastLogId (state.log id) := by
  obtain ⟨_, _, represents⟩ := refines.store
  exact represents.lastLogId_eq

/-- A voter that saves a vote not below its own promises that leadership. It stops campaigning
or leading, unless the vote is for the leadership it has. -/
theorem Replica.Refines.saveVote (refines : replica.Refines voters state id) {vote : Vote}
    {role : Role} (notBelow : replica.vote.leaderId ≤ vote.leaderId)
    (kept : role = .follower ∨ role = replica.role ∧ replica.vote.leaderId = vote.leaderId) :
    { replica.follow vote with role }.Refines voters
      { state with promised := Function.update state.promised id vote.leaderId } id := by
  have promise : Function.update state.promised id vote.leaderId id = vote.leaderId :=
    Function.update_self _ _ _
  have moves : Moves voters id state _ := Moves.promise (refines.promised.trans_le notBelow)
  exact {
    store := by
      obtain ⟨purged, covered, represents⟩ := refines.store
      exact ⟨purged, covered, represents.saveVote vote⟩
    promised := promise
    applied := refines.applied
    appliedLe := refines.appliedLe
    committedLe := refines.committedLe
    chosen := by
      refine State.Chosen.grows refines.chosen moves.grows ?_
      exact (refines.promised.trans_le notBelow).trans_eq promise.symm
    built := refines.built
    snapshot := refines.snapshot
    latestBin := refines.latestBin
    candidate := fun stands => by
      rcases kept with rfl | ⟨rfl, same⟩
      · cases stands
      · have unchanged := promise.trans (same.symm.trans refines.promised.symm)
        simp only [unchanged]
        exact refines.candidate stands
    leader := fun leads => by
      rcases kept with rfl | ⟨rfl, same⟩
      · cases leads
      · have unchanged := promise.trans (same.symm.trans refines.promised.symm)
        simp only [unchanged]
        exact refines.leader leads
    stood := fun ballot stood own => by
      have below := (refines.stood ballot stood own).trans (refines.promised.trans_le notBelow)
      exact below.trans_eq promise.symm }

/-- What a voter has committed is in the ledger of every leadership from its promise on. -/
theorem Replica.Refines.committed_within (refines : replica.Refines voters state id)
    (inv : Invariant (raftScheme voters) state) (elected : state.ledger ballot = some history)
    (serves : state.promised id ≤ ballot) :
    (state.log id).take replica.committed <+: history :=
  inv.chosen_within refines.chosen elected serves

/-- Taking over a part of the ledger does not touch what the voter has committed. -/
theorem Replica.Refines.committed_takeOver (refines : replica.Refines voters state id)
    (inv : Invariant (raftScheme voters) state) (elected : state.ledger ballot = some history)
    (serves : state.promised id ≤ ballot) (within : taken <+: history) :
    (state.log id).take replica.committed <+: takeOver (state.log id) taken := by
  rcases takeOver_eq (state.log id) taken with kept | ⟨replaced, conflict⟩
  · rw [kept]
    exact List.take_prefix _ _
  · rw [replaced]
    have committed := refines.committed_within inv elected serves
    rcases List.prefix_or_prefix_of_prefix committed within with shorter | longer
    · exact shorter
    · exact absurd (longer.trans (List.take_prefix _ _)) conflict

theorem take_eq_of_prefix {count : Nat} {longer : List LogEntry} (inside : count ≤ log.length)
    (part : log.take count <+: longer) : longer.take count = log.take count := by
  rw [List.prefix_iff_eq_take, List.length_take, Nat.min_eq_left inside] at part
  exact part.symm

/-- A voter takes over a part of its leader's log. -/
theorem Replica.Refines.takeOver {store : RedbLogStore}
    (refines : replica.Refines voters state id) (inv : Invariant (raftScheme voters) state)
    (elected : state.ledger (state.promised id) = some history) (within : taken <+: history)
    (represents : ∃ purged ≤ replica.applied.length,
      store.Represents (Ballots.takeOver (state.log id) taken) purged)
    (sameVote : store.vote = replica.store.vote) (follows : replica.role = .follower) :
    { replica with store }.Refines voters { state with
      log := Function.update state.log id (Ballots.takeOver (state.log id) taken)
      acked := fun other acker acknowledged => state.acked other acker acknowledged ∨
        other = state.promised id ∧ acker = id ∧ acknowledged = taken } id := by
  have newLog : Function.update state.log id (Ballots.takeOver (state.log id) taken) id =
      Ballots.takeOver (state.log id) taken := Function.update_self _ _ _
  have moves : Moves voters id state _ := Moves.accept elected rfl within
  have committed := refines.committed_takeOver inv elected le_rfl within
  have sameCommitted := take_eq_of_prefix refines.committedLe committed
  exact {
    store := by
      simp only [newLog]
      exact represents
    promised := by
      show state.promised id = (store.vote.getD default).leaderId
      rw [sameVote]
      exact refines.promised
    applied := by
      simp only [newLog]
      refine List.IsPrefix.trans ?_ committed
      rw [List.prefix_take_iff]
      exact ⟨refines.applied, refines.appliedLe⟩
    appliedLe := refines.appliedLe
    committedLe := by
      simp only [newLog]
      have longer := committed.length_le
      rwa [List.length_take, Nat.min_eq_left refines.committedLe] at longer
    chosen := by
      simp only [newLog]
      rw [sameCommitted]
      exact refines.chosen.grows moves.grows le_rfl
    built := refines.built
    snapshot := refines.snapshot
    latestBin := refines.latestBin
    candidate := fun stands => nomatch follows.symm.trans stands
    leader := fun leads => nomatch follows.symm.trans leads
    stood := refines.stood }

/-- A follower drops its log from an index on that is not committed. -/
theorem Replica.Refines.truncate {logId : LogId} (refines : replica.Refines voters state id)
    (uncommitted : replica.committed ≤ logId.index) (follows : replica.role = .follower) :
    (replica.truncate logId).Refines voters { state with
      log := Function.update state.log id ((state.log id).take logId.index) } id := by
  have newLog : Function.update state.log id ((state.log id).take logId.index) id =
      (state.log id).take logId.index := Function.update_self _ _ _
  exact {
    store := by
      simp only [newLog]
      obtain ⟨purged, covered, represents⟩ := refines.store
      have unpurged : purged ≤ logId.index := covered.trans (refines.appliedLe.trans uncommitted)
      exact ⟨purged, covered, represents.truncate unpurged⟩
    promised := refines.promised
    applied := by
      simp only [newLog]
      rw [List.prefix_take_iff]
      exact ⟨refines.applied, refines.appliedLe.trans uncommitted⟩
    appliedLe := refines.appliedLe
    committedLe := by
      simp only [newLog]
      rw [List.length_take]
      exact le_min uncommitted refines.committedLe
    chosen := by
      simp only [newLog]
      have same : ((state.log id).take logId.index).take replica.committed =
          (state.log id).take replica.committed := by
        rw [List.take_take, Nat.min_eq_left uncommitted]
      show State.Chosen _ _ _ (List.take replica.committed _)
      rw [same]
      exact refines.chosen
    built := refines.built
    snapshot := refines.snapshot
    latestBin := refines.latestBin
    candidate := fun stands => nomatch follows.symm.trans stands
    leader := fun leads => nomatch follows.symm.trans leads
    stood := refines.stood }

/-- A voter learns that its log is committed up to a count. -/
theorem Replica.Refines.commitTo {count : Nat} (refines : replica.Refines voters state id)
    (inside : count ≤ (state.log id).length)
    (chosen : state.Chosen (raftScheme voters) (state.promised id) ((state.log id).take count)) :
    (replica.commitTo count).Refines voters state id :=
  { refines with
    appliedLe := refines.appliedLe.trans (le_max_left _ _)
    committedLe := max_le refines.committedLe inside
    chosen := by
      show state.Chosen _ _ ((state.log id).take (max replica.committed count))
      rcases max_choice replica.committed count with same | same
      · rw [same]
        exact refines.chosen
      · rw [same]
        exact chosen }

/-! ### Taking over entries -/

/-- The voter has the id of a leader's entry exactly when it has the leader's log up to it. -/
theorem Replica.Refines.hasLogId_iff (refines : replica.Refines voters state id)
    (inv : Invariant (raftScheme voters) state)
    (indexed : ∀ ballot history, state.ledger ballot = some history → Indexed history)
    (elected : state.ledger ballot = some history) (serves : state.promised id ≤ ballot)
    {index : Nat} {entry : LogEntry} (found : history[index]? = some entry) :
    replica.hasLogId entry.logId = true ↔ history.take (index + 1) <+: state.log id := by
  have position := indexed _ _ elected index entry found
  obtain ⟨purged, covered, represents⟩ := refines.store
  rw [Replica.hasLogId, decide_eq_true_eq, position]
  constructor
  · rintro (below | same)
    · have agreed := take_eq_of_prefix refines.committedLe
        (refines.committed_within inv elected serves)
      have shorter : history.take (index + 1) = (state.log id).take (index + 1) := by
        have inside : min (index + 1) replica.committed = index + 1 := Nat.min_eq_left below
        rw [← inside, ← List.take_take, agreed, List.take_take]
      rw [shorter]
      exact List.take_prefix _ _
    · obtain ⟨own, ownFound, sameId, _⟩ := represents.logIdAt
        (indexed_of_traced indexed (inv.logTraced id)) same
      have matched := (inv.ledgerTraced _ _ elected).take_eq (inv.logTraced id) found ownFound
        (congrArg LogId.leaderId sameId.symm)
      rw [matched]
      exact List.take_prefix _ _
  · intro held
    rcases lt_or_ge index replica.committed with below | above
    · exact Or.inl below
    · refine Or.inr ?_
      have lookup : (history.take (index + 1))[index]? = some entry := by
        rw [List.getElem?_take_of_lt (Nat.lt_succ_self index), found]
      have unpurged : purged ≤ index := covered.trans (refines.appliedLe.trans above)
      rw [RedbLogStore.logIdAt, represents.logs, if_pos unpurged, getElem?_ofPrefix held lookup]
      rfl

theorem Replica.committed_le_of_not_hasLogId {logId : LogId}
    (absent : replica.hasLogId logId ≠ true) : replica.committed ≤ logId.index := by
  rw [Replica.hasLogId, Ne, decide_eq_true_eq, not_or] at absent
  exact Nat.le_of_not_lt absent.1

/-- Skipping the entries a log holds ends after all of them, or at the first that conflicts. -/
theorem dropWhile_held {has : LogEntry → Bool} {entries : List LogEntry} {start : Nat}
    (decides : ∀ (index : Nat) (entry : LogEntry), history[index]? = some entry →
      (has entry = true ↔ history.take (index + 1) <+: log))
    (part : entries <+: history.drop start) (held : history.take start <+: log) :
    entries.dropWhile has = [] ∧ history.take (start + entries.length) <+: log ∨
      ∃ count entry rest, entries.dropWhile has = entry :: rest ∧
        history[count]? = some entry ∧ history.take count <+: log ∧
        ¬ history.take (count + 1) <+: log ∧
        history.take count ++ entry :: rest = history.take (start + entries.length) := by
  induction entries generalizing start with
  | nil => exact Or.inl ⟨rfl, held⟩
  | cons entry rest inductionHypothesis =>
    have split := List.prefix_iff_eq_take.mp part
    have found : history[start]? = some entry := by
      have first : (history.drop start)[0]? = some entry := getElem?_ofPrefix part rfl
      rwa [List.getElem?_drop, Nat.add_zero] at first
    by_cases skipped : has entry = true
    · have later : rest <+: history.drop (start + 1) := by
        rw [← List.drop_drop]
        exact part.drop 1
      have longer : start + (entry :: rest).length = start + 1 + rest.length := by
        rw [List.length_cons]
        omega
      rw [List.dropWhile_cons_of_pos skipped, longer]
      exact inductionHypothesis later ((decides start entry found).mp skipped)
    · rw [List.dropWhile_cons_of_neg skipped]
      refine Or.inr ⟨start, entry, rest, rfl, found, held, ?_, ?_⟩
      · exact fun conflict => skipped ((decides start entry found).mpr conflict)
      · rw [List.take_add, ← split]

/-- A voter that holds its leader's log up to the sent entries takes them over. -/
theorem Replica.Refines.takeEntries (refines : replica.Refines voters state id)
    (inv : Invariant (raftScheme voters) state)
    (indexed : ∀ ballot history, state.ledger ballot = some history → Indexed history)
    (elected : state.ledger (state.promised id) = some history) (follows : replica.role = .follower)
    {entries : List LogEntry} {start : Nat} (part : entries <+: history.drop start)
    (held : history.take start <+: state.log id) :
    (replica.takeEntries entries).Refines voters { state with
      log := Function.update state.log id
        (Ballots.takeOver (state.log id) (history.take (start + entries.length)))
      acked := fun other acker acknowledged => state.acked other acker acknowledged ∨
        other = state.promised id ∧ acker = id ∧
          acknowledged = history.take (start + entries.length) } id := by
  have within : history.take (start + entries.length) <+: history := List.take_prefix _ _
  obtain ⟨purged, covered, represents⟩ := refines.store
  rw [Replica.takeEntries]
  rcases dropWhile_held
      (fun index entry found => refines.hasLogId_iff inv indexed elected le_rfl found)
      part held with
    ⟨none, whole⟩ | ⟨count, entry, rest, some, found, agreed, conflict, joined⟩
  · rw [none]
    refine refines.takeOver inv elected within ⟨purged, covered, ?_⟩ rfl follows
    rw [Ballots.takeOver, if_pos whole]
    exact represents
  · rw [some]
    have position := indexed _ _ elected count entry found
    have inside : count < history.length := (List.getElem?_eq_some_iff.mp found).1
    have unpurged : purged ≤ entry.logId.index :=
      covered.trans (refines.appliedLe.trans (Replica.committed_le_of_not_hasLogId
        fun has => conflict ((refines.hasLogId_iff inv indexed elected le_rfl found).mp has)))
    have replaced : Ballots.takeOver (state.log id) (history.take (start + entries.length)) =
        history.take count ++ entry :: rest := by
      rw [Ballots.takeOver, if_neg ?_, joined]
      intro held
      refine conflict (List.IsPrefix.trans ?_ held)
      rw [← joined, List.take_add_one, found, List.prefix_append_right_inj]
      exact List.cons_prefix_cons.mpr ⟨rfl, List.nil_prefix⟩
    have truncated := represents.truncate unpurged
    rw [position, take_eq_of_prefix inside.le agreed] at truncated
    have appended := truncated.append ((indexed _ _ elected).ofPrefix (joined ▸ within))
    rw [← replaced] at appended
    have taken := refines.takeOver inv elected within ⟨purged, covered, appended⟩ rfl follows
    exact { taken with }

/-! ### Installing a snapshot -/

/-- A store whose log ends before a snapshot does holds nothing but the snapshot once it is
purged. -/
theorem RedbLogStore.Represents.of_purged {store : RedbLogStore} {data : List LogEntry}
    {last : LogId} (length : data.length = last.index + 1) (ends : lastLogId data = some last)
    (empty : ∀ index : Nat, last.index < index → store.logs[index]? = none) :
    (store.purgeSync last).Represents data data.length := by
  refine ⟨fun index => ?_, ?_, le_rfl⟩
  · rw [getElem?_purgeSync]
    split
    · rename_i above
      rw [empty index above, if_pos (by omega), List.getElem?_eq_none (by omega)]
    · rw [if_neg (by omega)]
  · rw [List.take_length]
    exact ends.symm

theorem Replica.Refines.install_represents (refines : replica.Refines voters state id)
    (inv : Invariant (raftScheme voters) state)
    (indexed : ∀ ballot history, state.ledger ballot = some history → Indexed history)
    (elected : state.ledger (state.promised id) = some history) {bytes : SnapshotBytes}
    {last : LogId} (within : taken <+: history) (ends : Layerhouse.lastLogId taken = some last)
    (beyond : replica.committed ≤ last.index) :
    (replica.install bytes taken last).store.Represents (Ballots.takeOver (state.log id) taken)
      taken.length := by
  have length := ((indexed _ _ elected).ofPrefix within).length_eq ends
  obtain ⟨purged, covered, represents⟩ := refines.store
  have unpurged : purged ≤ last.index := covered.trans (refines.appliedLe.trans beyond)
  have whole : history.take (last.index + 1) = taken := by
    rw [← length]
    exact (List.prefix_iff_eq_take.mp within).symm
  obtain ⟨index, entry, same, found, rfl⟩ := entry_of_lastLogId
    (length ▸ within.length_le : last.index + 1 ≤ history.length) (whole.symm ▸ ends)
  obtain rfl : index = entry.logId.index := by omega
  have holds : replica.store.logIdAt entry.logId.index = some entry.logId ↔
      taken <+: state.log id := by
    rw [← whole, ← refines.hasLogId_iff inv indexed elected le_rfl found, Replica.hasLogId,
      decide_eq_true_eq, or_iff_right (Nat.not_lt.mpr beyond)]
  rw [Replica.install]
  by_cases held : taken <+: state.log id
  · rw [Ballots.takeOver, if_pos held, holds.mpr held]
    have agreed : (state.log id).take (entry.logId.index + 1) = taken := by
      rw [← length]
      exact (List.prefix_iff_eq_take.mp held).symm
    rw [length]
    simp only [Option.any_some, ne_eq, not_true_eq_false, decide_false, Bool.false_eq_true,
      if_false]
    exact represents.purge (unpurged.trans (Nat.le_succ _)) (length.ge.trans held.length_le)
      (agreed.symm ▸ ends)
  · rw [Ballots.takeOver, if_neg held]
    refine .of_purged length ends fun index above => ?_
    split
    · show (replica.store.truncateSync _).logs[index]? = none
      rw [RedbLogStore.getElem?_truncateSync, if_neg (by simp only; omega)]
    · rename_i agrees
      have absent : replica.store.logIdAt entry.logId.index = none := by
        cases found : replica.store.logIdAt entry.logId.index with
        | none => rfl
        | some other =>
          rw [found, Option.any_some, decide_eq_true_eq, not_not] at agrees
          exact absurd (holds.mp (agrees ▸ found)) held
      rw [RedbLogStore.logIdAt, Option.or_eq_none_iff, Option.map_eq_none_iff, represents.logs,
        if_pos unpurged, List.getElem?_eq_none_iff] at absent
      rw [represents.logs, if_pos (by omega), List.getElem?_eq_none (by omega)]

/-- A follower installs a committed part of its leader's log that it has not committed. -/
theorem Replica.Refines.install (refines : replica.Refines voters state id)
    (inv : Invariant (raftScheme voters) state)
    (indexed : ∀ ballot history, state.ledger ballot = some history → Indexed history)
    (elected : state.ledger (state.promised id) = some history) (follows : replica.role = .follower)
    {bytes : SnapshotBytes} {last : LogId} (readable : bytes.Within history)
    (chosen : state.Chosen (raftScheme voters) (state.promised id) bytes.payload)
    (ends : Layerhouse.lastLogId bytes.payload = some last)
    (beyond : replica.committed ≤ last.index) :
    (replica.install bytes bytes.payload last).Refines voters { state with
      log := Function.update state.log id (Ballots.takeOver (state.log id) bytes.payload)
      acked := fun other acker acknowledged => state.acked other acker acknowledged ∨
        other = state.promised id ∧ acker = id ∧ acknowledged = bytes.payload } id := by
  obtain ⟨version, within⟩ := readable
  have length := ((indexed _ _ elected).ofPrefix within).length_eq ends
  have newLog : Function.update state.log id (Ballots.takeOver (state.log id) bytes.payload) id =
      Ballots.takeOver (state.log id) bytes.payload := Function.update_self _ _ _
  have takes := prefix_takeOver (state.log id) bytes.payload
  have moves : Moves voters id state _ := Moves.accept elected rfl within
  have older : replica.applied <+: bytes.payload := by
    have committed := refines.committed_within inv elected le_rfl
    have applied : replica.applied <+: (state.log id).take replica.committed := by
      rw [List.prefix_take_iff]
      exact ⟨refines.applied, refines.appliedLe⟩
    exact List.prefix_of_prefix_length_le (applied.trans committed) within
      (refines.appliedLe.trans (by omega))
  have role : (replica.install bytes bytes.payload last).role = .follower := by
    rw [Replica.install]
    split
    · exact follows
    · exact follows
  have vote : (replica.install bytes bytes.payload last).vote = replica.vote := by
    rw [Replica.install]
    split
    · rfl
    · rfl
  have latest : (replica.install bytes bytes.payload last).latestBin = replica.latestBin := by
    rw [Replica.install]
    split
    · rfl
    · rfl
  exact {
    store := by
      simp only [newLog]
      exact ⟨_, le_rfl, refines.install_represents inv indexed elected within ends beyond⟩
    promised := by
      rw [vote]
      exact refines.promised
    applied := by
      simp only [newLog]
      exact takes
    appliedLe := length.le
    committedLe := by
      simp only [newLog]
      exact length.ge.trans takes.length_le
    chosen := by
      have same : (Ballots.takeOver (state.log id) bytes.payload).take (last.index + 1) =
          bytes.payload := by
        rw [← length]
        exact (List.prefix_iff_eq_take.mp takes).symm
      simp only [newLog]
      show State.Chosen _ _ _ (List.take (last.index + 1) _)
      rw [same]
      exact chosen.grows moves.grows le_rfl
    built := fun other found => by
      cases found
      exact ⟨version, List.prefix_rfl⟩
    snapshot := fun other found => by
      cases found
      exact ⟨version, List.prefix_rfl⟩
    latestBin := fun other found => by
      rw [latest] at found
      obtain ⟨readable, part⟩ := refines.latestBin other found
      exact ⟨readable, part.trans older⟩
    candidate := fun stands => nomatch role.symm.trans stands
    leader := fun leads => nomatch role.symm.trans leads
    stood := refines.stood }

end Operations

end Layerhouse
