/-
This file settles when an acknowledged metadata write survives restarts.

A restart throws the log store away. What is left of the voter's log is what its
`latest.bin` covers, and what is left of its vote is the term of the last entry there;
the voter counts towards majorities all the same. When `latest.bin` ends where the lost
log ended and the seeded vote is not below the lost one, the restart changes nothing
that the protocol relies on. A run of such restarts refines the protocol of ballots, so
every leader holds every write that was acknowledged up to its vote. A run with one
other restart can lose a write.
-/

import Layerhouse.Raft.Refinement

namespace Layerhouse

open Ballots

variable {voters : List Nat} {state next : BallotState} {cluster after : ReplicaSet} {id : Nat}

/-! ### Elections -/

theorem LeaderId.lt_of_term {first second : LeaderId} (below : first.term < second.term) :
    first < second := by
  refine lt_of_not_ge fun above => ?_
  rcases Prod.Lex.toLex_le_toLex.mp above with earlier | ⟨same, _⟩
  · exact absurd earlier (Nat.lt_asymm below)
  · exact absurd same below.ne'

namespace ReplicaSet

theorem Refines.elect (refines : cluster.Refines voters state)
    (stepped : cluster.elect id = some after) : ∃ next, after.Refines voters next := by
  obtain ⟨_, eq⟩ := Option.ite_none_right_eq_some.mp stepped
  cases eq
  have self := refines.replicas id
  let ballot : LeaderId := ⟨(cluster.replicas id).vote.leaderId.term + 1, id⟩
  have above : state.promised id < ballot := by
    rw [self.promised]
    exact LeaderId.lt_of_term (Nat.lt_succ_self _)
  have fresh : state.offer ballot = none := by
    by_contra stood
    exact absurd (self.stood ballot stood rfl) (not_le.mpr above)
  have unelected : state.ledger ballot = none := by
    by_contra elected
    rcases refines.elected ballot elected with founding | stood
    · exact absurd (congrArg LeaderId.term founding) (Nat.succ_ne_zero _)
    · exact stood fresh
  let promised : BallotState :=
    { state with promised := Function.update state.promised id ballot }
  let stood : BallotState :=
    { promised with offer := Function.update state.offer ballot (some (state.log id)) }
  have promise : stood.promised id = ballot := Function.update_self _ _ _
  have offer : stood.offer ballot = some (state.log id) := Function.update_self _ _ _
  have promises : Moves voters id state promised := Moves.promise above.le
  have stands : Moves voters id promised stood := Moves.stand fresh
    (fun entry member => (refines.invariant.logPromised id entry member).trans_lt above) rfl
  have grants : Moves voters id stood _ := Moves.grant offer promise (Or.inr ⟨rfl, le_rfl⟩)
  have moves := promises.trans (stands.trans grants)
  have sound := refines.sound.grows moves.grows
  refine ⟨_, refines.act moves ?_ ?_ rfl⟩
  · exact {
      store := by
        obtain ⟨purged, covered, represents⟩ := self.store
        exact ⟨purged, covered, represents.saveVote _⟩
      promised := promise
      applied := self.applied
      appliedLe := self.appliedLe
      committedLe := self.committedLe
      chosen := by
        refine State.Chosen.grows self.chosen moves.grows ?_
        exact above.le.trans_eq promise.symm
      built := self.built
      snapshot := self.snapshot
      latestBin := self.latestBin
      candidate := fun _ => by
        show (stood.promised id).nodeId = id ∧ stood.offer (stood.promised id) = _ ∧
          state.ledger (stood.promised id) = none
        rw [promise]
        exact ⟨rfl, offer, unelected⟩
      leader := nofun
      stood := fun other otherStood own => by
        show other ≤ stood.promised id
        rw [promise]
        by_cases same : other = ballot
        · exact same.le
        · refine (self.stood other ?_ own).trans above.le
          have kept : stood.offer other = state.offer other := Function.update_of_ne same _ _
          exact kept ▸ otherStood }
  · exact { sound with
      voteRequests := List.forall_mem_cons.mpr
        ⟨⟨state.log id, offer, self.lastLogId_eq⟩, sound.voteRequests⟩
      voteResponses := List.forall_mem_cons.mpr ⟨Or.inr ⟨rfl, rfl⟩, sound.voteResponses⟩ }

/-- The comparison of last log ids is the comparison of logs. -/
theorem Refines.upToDate (refines : cluster.Refines voters state) {log offered : List LogEntry}
    (logTraced : state.Traced (raftScheme voters) log)
    (offerTraced : state.Traced (raftScheme voters) offered)
    (ahead : notBehind (lastLogId log) (lastLogId offered) = true) :
    (raftScheme voters).UpToDate log offered := by
  have logIndexed := indexed_of_traced refines.indexed logTraced
  have offerIndexed := indexed_of_traced refines.indexed offerTraced
  obtain rfl | ⟨initial, last, rfl⟩ := log.eq_nil_or_concat'
  · rcases bot_le (a := (raftScheme voters).lastBallot offered) |>.lt_or_eq with later | same
    · exact Or.inl later
    · exact Or.inr ⟨same, Nat.zero_le _⟩
  obtain rfl | ⟨offeredInitial, offeredLast, rfl⟩ := offered.eq_nil_or_concat'
  · rw [lastLogId_concat] at ahead
    cases ahead
  rw [lastLogId_concat, lastLogId_concat] at ahead
  have position := logIndexed.length_eq (lastLogId_concat initial last)
  have offeredPosition := offerIndexed.length_eq (lastLogId_concat offeredInitial offeredLast)
  rw [Scheme.UpToDate, lastBallot_concat, lastBallot_concat, WithBot.coe_lt_coe, WithBot.coe_inj,
    position, offeredPosition]
  rcases Prod.Lex.toLex_le_toLex.mp (of_decide_eq_true ahead) with later | ⟨same, notAfter⟩
  · exact Or.inl later
  · exact Or.inr ⟨same, Nat.succ_le_succ notAfter⟩

theorem role_kept {replica : Replica} {leaderId : LeaderId} :
    let role := if replica.vote.leaderId = leaderId then replica.role else .follower
    role = .follower ∨ role = replica.role ∧ replica.vote.leaderId = leaderId := by
  intro role
  by_cases same : replica.vote.leaderId = leaderId
  · exact Or.inr ⟨if_pos same, same⟩
  · exact Or.inl (if_neg same)

theorem Refines.handleVote (refines : cluster.Refines voters state) {request : VoteRequest}
    (requested : request.Sound state) (stepped : cluster.handleVote id request = some after) :
    ∃ next, after.Refines voters next := by
  obtain ⟨⟨notBelow, ahead⟩, eq⟩ := Option.ite_none_right_eq_some.mp stepped
  cases eq
  have self := refines.replicas id
  obtain ⟨offered, offer, last⟩ := requested
  rw [self.lastLogId_eq, last] at ahead
  have leaderBelow := Vote.leaderId_le notBelow
  let promised : BallotState :=
    { state with promised := Function.update state.promised id request.leaderId }
  have promises : Moves voters id state promised :=
    Moves.promise (self.promised.trans_le leaderBelow)
  have grants : Moves voters id promised _ := Moves.grant offer (Function.update_self _ _ _)
    (refines.upToDate (refines.invariant.logTraced id) (refines.invariant.offerTraced _ _ offer)
      ahead)
  have moves := promises.trans grants
  have sound := refines.sound.grows moves.grows
  refine ⟨_, refines.act moves ?_ ?_ rfl⟩
  · have saved : Replica.Refines voters promised id _ :=
      self.saveVote leaderBelow role_kept
    exact { saved with }
  · exact { sound with
      voteResponses := List.forall_mem_cons.mpr ⟨Or.inr ⟨rfl, rfl⟩, sound.voteResponses⟩ }

theorem Refines.observeVote (refines : cluster.Refines voters state) {peer : Nat} {vote : Vote}
    (stepped : cluster.observeVote id peer vote = some after) :
    ∃ next, after.Refines voters next := by
  obtain ⟨⟨below, _⟩, eq⟩ := Option.ite_none_right_eq_some.mp stepped
  cases eq
  have self := refines.replicas id
  have leaderBelow := Vote.leaderId_le below.le
  have moves : Moves voters id state _ := Moves.promise (self.promised.trans_le leaderBelow)
  have sound := refines.sound.grows moves.grows
  exact ⟨_, refines.act moves (self.saveVote leaderBelow (Or.inl rfl)) { sound with } rfl⟩

/-! ### Leaders -/

theorem takeOver_concat (log : List LogEntry) (entry : LogEntry) :
    takeOver log (log ++ [entry]) = log ++ [entry] := by
  refine if_neg fun shorter => ?_
  have length := shorter.length_le
  rw [List.length_append, List.length_singleton] at length
  omega

/-- A leader's entry is proposed under its leadership and taken over by the leader itself. -/
theorem Refines.leaderAppend (refines : cluster.Refines voters state)
    (moves : Moves voters id state next) {replica : Replica}
    (self : replica.Refines voters next id) (leads : replica.role = .leader)
    (payload : EntryPayload) :
    ∃ last, (cluster.leaderAppend id replica payload).Refines voters last := by
  have inv := moves.invariant refines.invariant
  have indexed := indexed_of_traced (moves.indexed refines.indexed) (inv.logTraced id)
  obtain ⟨own, elected⟩ := self.leader leads
  let entry := replica.leaderEntry payload
  let longer := next.log id ++ [entry]
  have written : entry.logId.leaderId = next.promised id := self.promised.symm
  have position : entry.logId.index = (next.log id).length := by
    show nextIndex replica.lastLogId = _
    rw [self.lastLogId_eq, nextIndex_lastLogId indexed]
  let proposed : BallotState :=
    { next with ledger := Function.update next.ledger (next.promised id) (some longer) }
  have newLedger : proposed.ledger (next.promised id) = some longer := Function.update_self _ _ _
  have proposes : Moves voters id next proposed := Moves.propose elected written own position
  have taken : takeOver (next.log id) longer = longer := takeOver_concat _ _
  have newLog : Function.update next.log id (takeOver (next.log id) longer) id = longer :=
    (Function.update_self _ _ _).trans taken
  have accepts : Moves voters id proposed _ := Moves.accept newLedger rfl List.prefix_rfl
  have follows : { replica with role := .follower }.Refines voters proposed id :=
    { self with
      candidate := nofun
      leader := nofun }
  have represents : ∃ purged ≤ replica.applied.length,
      (replica.store.appendSync [entry]).Represents (takeOver (next.log id) longer) purged := by
    obtain ⟨purged, covered, represents⟩ := self.store
    refine ⟨purged, covered, ?_⟩
    rw [taken]
    exact represents.append (indexed.concat position)
  have accepted := follows.takeOver (proposes.invariant inv) newLedger List.prefix_rfl represents
    rfl rfl
  have whole := moves.trans (proposes.trans accepts)
  have sound := refines.sound.grows whole.grows
  refine ⟨_, refines.act whole ?_ ?_ rfl⟩
  · exact { accepted with
      candidate := fun stands => nomatch leads.symm.trans stands
      leader := fun _ => ⟨own, newLedger.trans (congrArg some newLog.symm)⟩ }
  · exact { sound with
      appendResponses := List.forall_mem_cons.mpr ⟨⟨longer, Or.inr ⟨written, rfl, rfl⟩,
        (lastLogId_concat _ _).symm⟩, sound.appendResponses⟩ }

theorem Refines.establishLeader (refines : cluster.Refines voters state)
    (stepped : cluster.establishLeader voters id = some after) :
    ∃ next, after.Refines voters next := by
  obtain ⟨⟨stands, many⟩, eq⟩ := Option.ite_none_right_eq_some.mp stepped
  cases eq
  have self := refines.replicas id
  obtain ⟨own, offer, fresh⟩ := self.candidate stands
  have won : Majority voters {node | state.granted (state.promised id) node} := by
    refine ⟨cluster.grants (cluster.replicas id).vote.leaderId, fun node counted => ?_, many⟩
    obtain ⟨response, member, matched⟩ := List.any_eq_true.mp counted
    obtain ⟨sameLeader, rfl⟩ := of_decide_eq_true matched
    have granted := refines.sound.voteResponses response member
    rw [VoteResponse.Sound, sameLeader, ← self.promised] at granted
    exact granted
  have elects : Moves voters id state _ :=
    Moves.elect offer fresh won own (refines.logIndexed id)
  refine refines.leaderAppend elects ?_ rfl .blank
  exact { self with
    store := by
      obtain ⟨purged, covered, represents⟩ := self.store
      exact ⟨purged, covered, represents.saveVote _⟩
    candidate := nofun
    leader := fun _ => ⟨own, Function.update_self _ _ _⟩ }

theorem Refines.clientWrite (refines : cluster.Refines voters state) {request : Request}
    (stepped : cluster.clientWrite id request = some after) :
    ∃ next, after.Refines voters next := by
  obtain ⟨leads, eq⟩ := Option.ite_none_right_eq_some.mp stepped
  cases eq
  refine refines.leaderAppend (Moves.refl voters id state) ?_ ?_ _
  · exact { refines.replicas id with }
  · exact leads

/-! ### Replication -/

/-- A step that changes no voter refines when its new messages are true. -/
theorem Refines.send (refines : cluster.Refines voters state) (sound : after.Sound voters state)
    (same : after.replicas = cluster.replicas) : after.Refines voters state :=
  refines.act (Moves.refl voters 0 state) (refines.replicas 0) sound
    (same.trans (Function.update_eq_self 0 cluster.replicas).symm)

theorem Refines.appendRequest_sound (refines : cluster.Refines voters state)
    (leads : (cluster.replicas id).role = .leader) {purged start count : Nat}
    {prevLogId : Option LogId}
    (represents : (cluster.replicas id).store.Represents (state.log id) purged)
    (unpurged : purged ≤ start) (inside : start ≤ (state.log id).length)
    (previous : prevLogId = lastLogId ((state.log id).take start)) :
    AppendEntriesRequest.Sound voters state
      { leaderId := (cluster.replicas id).vote.leaderId
        prevLogId
        entries := (cluster.replicas id).store.getEntriesSync start (start + count)
        leaderCommit := (cluster.replicas id).committed } := by
  have self := refines.replicas id
  obtain ⟨_, elected⟩ := self.leader leads
  refine ⟨state.log id, start, self.promised ▸ elected, inside, previous, ?_, self.committedLe,
    self.promised ▸ self.chosen⟩
  show (cluster.replicas id).store.getEntriesSync start (start + count) <+: _
  rw [represents.getEntries unpurged]
  exact List.take_prefix _ _

theorem Refines.sendAppendEntries (refines : cluster.Refines voters state) {start count : Nat}
    (stepped : cluster.sendAppendEntries id start count = some after) :
    after.Refines voters state := by
  obtain ⟨leads, eq⟩ := Option.ite_none_right_eq_some.mp stepped
  obtain ⟨purged, covered, represents⟩ := (refines.replicas id).store
  cases start with
  | zero =>
    obtain ⟨unpurged, eq⟩ := Option.ite_none_right_eq_some.mp eq
    cases eq
    have nothing : (state.log id).take purged = [] := by
      rw [Option.isNone_iff_eq_none, represents.lastPurged, lastLogId, Option.map_eq_none_iff,
        List.getLast?_eq_none_iff] at unpurged
      exact unpurged
    have none : purged ≤ 0 := by
      have length := congrArg List.length nothing
      rw [List.length_take, Nat.min_eq_left represents.purgedLe] at length
      exact length.le
    refine refines.send { refines.sound with
      appendRequests := List.forall_mem_cons.mpr ⟨?_, refines.sound.appendRequests⟩ } rfl
    exact refines.appendRequest_sound leads represents none (Nat.zero_le _) rfl
  | succ previous =>
    obtain ⟨logId, found, eq⟩ := Option.map_eq_some_iff.mp eq
    cases eq
    obtain ⟨entry, lookup, rfl, unpurged⟩ := represents.logIdAt (refines.logIndexed id) found
    refine refines.send { refines.sound with
      appendRequests := List.forall_mem_cons.mpr ⟨?_, refines.sound.appendRequests⟩ } rfl
    exact refines.appendRequest_sound leads represents unpurged
      (List.getElem?_eq_some_iff.mp lookup).1 (lastLogId_take lookup).symm

/-- The last id of the sent entries, or of the entry before them, is the last id of the log
they complete. -/
theorem lastLogId_sent {history entries : List LogEntry} {start : Nat}
    (part : entries <+: history.drop start) :
    (lastLogId entries).or (lastLogId (history.take start)) =
      lastLogId (history.take (start + entries.length)) := by
  have split := List.prefix_iff_eq_take.mp part
  rw [List.take_add, ← split]
  obtain rfl | ⟨initial, last, rfl⟩ := entries.eq_nil_or_concat'
  · rw [List.append_nil]
    rfl
  · rw [← List.append_assoc, lastLogId_concat, lastLogId_concat]
    rfl

theorem Refines.handleAppendEntries (refines : cluster.Refines voters state)
    {request : AppendEntriesRequest} (requested : request.Sound voters state)
    (stepped : cluster.handleAppendEntries id request = some after) :
    ∃ next, after.Refines voters next := by
  obtain ⟨⟨notBelow, _⟩, eq⟩ := Option.ite_none_right_eq_some.mp stepped
  obtain ⟨history, start, elected, inside, previous, part, commitInside, chosen⟩ := requested
  have self := refines.replicas id
  have leaderBelow := Vote.leaderId_le notBelow
  let promised : BallotState :=
    { state with promised := Function.update state.promised id request.leaderId }
  have promise : promised.promised id = request.leaderId := Function.update_self _ _ _
  have promises : Moves voters id state promised :=
    Moves.promise (self.promised.trans_le leaderBelow)
  have inv := promises.invariant refines.invariant
  let replica := (cluster.replicas id).follow ⟨request.leaderId, true⟩
  have follows : replica.Refines voters promised id := self.saveVote leaderBelow (Or.inl rfl)
  have served : promised.ledger (promised.promised id) = some history := promise ▸ elected
  cases missing : request.prevLogId.filter fun logId => !replica.hasLogId logId with
  | some logId =>
    -- The entry before the sent ones conflicts with the leader's log.
    rw [missing] at eq
    cases eq
    obtain ⟨found, absent⟩ := Option.filter_eq_some_iff.mp missing
    rw [Bool.not_eq_true'] at absent
    obtain ⟨index, entry, _, lookup, rfl⟩ := entry_of_lastLogId inside (previous.symm.trans found)
    have position := refines.indexed _ _ elected index entry lookup
    have conflict : ¬ history.take (entry.logId.index + 1) <+: promised.log id := by
      rw [position]
      intro held
      rw [(follows.hasLogId_iff inv refines.indexed served le_rfl lookup).mpr held] at absent
      cases absent
    have truncates : Moves voters id promised _ := Moves.truncate served rfl conflict
    have sound := refines.sound.grows (promises.trans truncates).grows
    have uncommitted := Replica.committed_le_of_not_hasLogId (Bool.eq_false_iff.mp absent)
    exact ⟨_, refines.act (promises.trans truncates) (follows.truncate uncommitted rfl)
      { sound with } rfl⟩
  | none =>
    rw [missing] at eq
    cases eq
    have held : history.take start <+: promised.log id := by
      cases found : lastLogId (history.take start) with
      | none =>
        rw [lastLogId, Option.map_eq_none_iff, List.getLast?_eq_none_iff] at found
        rw [found]
        exact List.nil_prefix
      | some logId =>
        obtain ⟨index, entry, rfl, lookup, rfl⟩ := entry_of_lastLogId inside found
        rw [previous, found, Option.filter_eq_none_iff] at missing
        have present := missing entry.logId rfl
        rw [Bool.not_eq_true', Bool.not_eq_false] at present
        exact (follows.hasLogId_iff inv refines.indexed served le_rfl lookup).mp present
    let taken := history.take (start + request.entries.length)
    have within : taken <+: history := List.take_prefix _ _
    have accepts : Moves voters id promised _ := Moves.accept served rfl within
    have moves := promises.trans accepts
    have sound := refines.sound.grows moves.grows
    have matching : (lastLogId request.entries).or request.prevLogId = lastLogId taken :=
      previous ▸ lastLogId_sent part
    have upTo : nextIndex ((lastLogId request.entries).or request.prevLogId) = taken.length := by
      rw [matching, nextIndex_lastLogId ((refines.indexed _ _ elected).ofPrefix within)]
    have newLog : Function.update state.log id (takeOver (state.log id) taken) id =
        takeOver (state.log id) taken := Function.update_self _ _ _
    have takes := prefix_takeOver (state.log id) taken
    refine ⟨_, refines.act moves (Replica.Refines.commitTo
      (follows.takeEntries inv refines.indexed served rfl part held) ?_ ?_) ?_ rfl⟩
    · rw [upTo]
      refine (min_le_right _ _).trans ?_
      exact takes.length_le.trans_eq (congrArg List.length newLog.symm)
    · have committed : (takeOver (state.log id) taken).take
          (min request.leaderCommit taken.length) =
            history.take (min request.leaderCommit taken.length) := by
        refine take_eq_of_prefix ((min_le_left _ _).trans commitInside) (.trans ?_ takes)
        rw [List.prefix_take_iff]
        refine ⟨List.take_prefix _ _, (List.length_take_le _ _).trans ?_⟩
        exact (min_le_right _ _).trans (List.length_take_le _ _)
      rw [upTo]
      simp only
      rw [newLog, committed]
      refine (chosen.grows moves.grows promise.symm.le).ofPrefix ?_
      rw [List.prefix_take_iff]
      exact ⟨List.take_prefix _ _, (List.length_take_le _ _).trans (min_le_left _ _)⟩
    · exact { sound with
        appendResponses := List.forall_mem_cons.mpr
          ⟨⟨taken, Or.inr ⟨promise.symm, rfl, rfl⟩, matching⟩, sound.appendResponses⟩ }

theorem Refines.sendSnapshot (refines : cluster.Refines voters state)
    (stepped : cluster.sendSnapshot id = some after) : after.Refines voters state := by
  obtain ⟨leads, eq⟩ := Option.ite_none_right_eq_some.mp stepped
  obtain ⟨bytes, found, eq⟩ := Option.map_eq_some_iff.mp eq
  cases eq
  have self := refines.replicas id
  obtain ⟨_, elected⟩ := self.leader leads
  obtain ⟨version, part⟩ := self.snapshot bytes found
  have committed : bytes.payload <+: (state.log id).take (cluster.replicas id).committed := by
    rw [List.prefix_take_iff]
    exact ⟨part.trans self.applied, part.length_le.trans self.appliedLe⟩
  refine refines.send { refines.sound with
    snapshotRequests := List.forall_mem_cons.mpr ⟨?_, refines.sound.snapshotRequests⟩ } rfl
  exact ⟨state.log id, self.promised ▸ elected, ⟨version, part.trans self.applied⟩,
    self.promised ▸ self.chosen.ofPrefix committed⟩

theorem deserializeSnapshot_eq_ok {bytes : SnapshotBytes} {data : List LogEntry}
    (read : deserializeSnapshot bytes = .ok data) : data = bytes.payload := by
  rw [deserializeSnapshot] at read
  split at read
  · cases read
  · cases read
    rfl

theorem Refines.handleInstallSnapshot (refines : cluster.Refines voters state)
    {request : InstallSnapshotRequest} (requested : request.Sound voters state)
    (stepped : cluster.handleInstallSnapshot id request = some after) :
    ∃ next, after.Refines voters next := by
  obtain ⟨⟨notBelow, _⟩, eq⟩ := Option.ite_none_right_eq_some.mp stepped
  obtain ⟨history, elected, readable, chosen⟩ := requested
  have self := refines.replicas id
  have leaderBelow := Vote.leaderId_le notBelow
  let promised : BallotState :=
    { state with promised := Function.update state.promised id request.leaderId }
  have promise : promised.promised id = request.leaderId := Function.update_self _ _ _
  have promises : Moves voters id state promised :=
    Moves.promise (self.promised.trans_le leaderBelow)
  have inv := promises.invariant refines.invariant
  let replica := (cluster.replicas id).follow ⟨request.leaderId, true⟩
  have follows : replica.Refines voters promised id := self.saveVote leaderBelow (Or.inl rfl)
  have served : promised.ledger (promised.promised id) = some history := promise ▸ elected
  have chosenHere : promised.Chosen (raftScheme voters) (promised.promised id)
      request.snapshot.payload := chosen.grows promises.grows promise.symm.le
  have accepts : Moves voters id promised _ := Moves.accept served rfl readable.2
  have moves := promises.trans accepts
  have sound := refines.sound.grows moves.grows
  cases read : deserializeSnapshot request.snapshot with
  | error _ =>
    rw [read] at eq
    cases eq
  | ok data =>
    obtain rfl := deserializeSnapshot_eq_ok read
    rw [read] at eq
    obtain ⟨last, ends, eq⟩ := Option.map_eq_some_iff.mp eq
    cases eq
    refine ⟨_, refines.act moves ?_ { sound with
      appendResponses := List.forall_mem_cons.mpr
        ⟨⟨_, Or.inr ⟨promise.symm, rfl, rfl⟩, ends.symm⟩, sound.appendResponses⟩ } rfl⟩
    split
    · -- The voter has committed as much, and both are committed under this leadership.
      rename_i reached
      have length := ((refines.indexed _ _ elected).ofPrefix readable.2).length_eq ends
      have committed := follows.committed_within inv served le_rfl
      have held : request.snapshot.payload <+: promised.log id := by
        refine (List.prefix_of_prefix_length_le readable.2 committed ?_).trans
          (List.take_prefix _ _)
        rw [List.length_take, Nat.min_eq_left follows.committedLe]
        exact length.trans_le reached
      have kept : takeOver (promised.log id) request.snapshot.payload = promised.log id :=
        if_pos held
      refine follows.takeOver inv served readable.2 ?_ rfl rfl
      rw [kept]
      exact follows.store
    · rename_i beyond
      exact follows.install inv refines.indexed served rfl readable chosenHere ends
        (Nat.le_of_not_lt beyond)

/-! ### Committing and applying -/

theorem Refines.commit (refines : cluster.Refines voters state) {index : Nat}
    (stepped : cluster.commit voters id index = some after) : after.Refines voters state := by
  obtain ⟨⟨leads, ownEntry, many⟩, eq⟩ := Option.ite_none_right_eq_some.mp stepped
  cases eq
  have self := refines.replicas id
  obtain ⟨_, elected⟩ := self.leader leads
  obtain ⟨purged, covered, represents⟩ := self.store
  obtain ⟨entry, found, sameId, _⟩ := represents.logIdAt (refines.logIndexed id) ownEntry
  have inside : index < (state.log id).length := (List.getElem?_eq_some_iff.mp found).1
  let taken := (state.log id).take (index + 1)
  have own : (raftScheme voters).Own (state.promised id) taken := by
    refine ⟨entry, ?_, (congrArg LogId.leaderId sameId).trans self.promised.symm⟩
    show ((state.log id).take (index + 1)).getLast? = some entry
    rw [List.take_add_one, found]
    exact List.getLast?_concat
  have decided : Majority voters {node | state.Acked (state.promised id) node taken} := by
    refine ⟨cluster.copies (cluster.replicas id).vote.leaderId index, fun node counted => ?_, many⟩
    obtain ⟨response, member, matched⟩ := List.any_eq_true.mp counted
    obtain ⟨sameLeader, rfl, reached⟩ := of_decide_eq_true matched
    obtain ⟨acknowledged, acked, matching⟩ := refines.sound.appendResponses response member
    rw [sameLeader, ← self.promised] at acked
    refine ⟨acknowledged, acked, ?_⟩
    obtain ⟨history, found, within⟩ := refines.invariant.ackedHeld _ _ _ acked
    rw [elected, Option.some.injEq] at found
    subst found
    rw [matching, nextIndex_lastLogId ((refines.logIndexed id).ofPrefix within)] at reached
    refine List.prefix_of_prefix_length_le (List.take_prefix _ _) within ?_
    exact (List.length_take_le _ _).trans reached
  have chosen : state.Chosen (raftScheme voters) (state.promised id) taken :=
    Or.inr ⟨_, le_rfl, taken, ⟨own, _, decided, fun _ acked => acked⟩, List.prefix_rfl⟩
  exact refines.act (Moves.refl voters id state) (self.commitTo inside chosen)
    { refines.sound with } rfl

theorem Refines.apply (refines : cluster.Refines voters state)
    (stepped : cluster.apply id = some after) : after.Refines voters state := by
  obtain ⟨below, eq⟩ := Option.ite_none_right_eq_some.mp stepped
  obtain ⟨entry, found, eq⟩ := Option.map_eq_some_iff.mp eq
  cases eq
  have self := refines.replicas id
  let replica := cluster.replicas id
  obtain ⟨purged, covered, represents⟩ := self.store
  have lookup : (state.log id)[replica.applied.length]? = some entry := by
    rw [represents.logs, if_pos covered] at found
    exact found
  have longer : replica.applied ++ [entry] = (state.log id).take (replica.applied.length + 1) := by
    rw [List.take_add_one, lookup, ← List.prefix_iff_eq_take.mp self.applied]
    rfl
  have grown : replica.applied <+: replica.applied ++ [entry] := List.prefix_append _ _
  have committed : entry ∈ (state.log id).take replica.committed := by
    refine List.mem_of_getElem? (i := replica.applied.length) ?_
    rw [List.getElem?_take_of_lt below, lookup]
  have answered : Acknowledgement.Sound voters state ⟨replica.vote.leaderId, entry⟩ :=
    ⟨_, self.promised ▸ self.chosen, committed⟩
  refine refines.act (Moves.refl voters id state) ?_ ?_ rfl
  · exact { self with
      store := ⟨purged, covered.trans grown.length_le, represents⟩
      applied := by
        show replica.applied ++ [entry] <+: state.log id
        rw [longer]
        exact List.take_prefix _ _
      appliedLe := by
        show (replica.applied ++ [entry]).length ≤ replica.committed
        rw [List.length_append, List.length_singleton]
        exact below
      built := fun bytes present => by
        obtain ⟨version, part⟩ := self.built bytes present
        exact ⟨version, part.trans grown⟩
      snapshot := fun bytes present => by
        obtain ⟨version, part⟩ := self.snapshot bytes present
        exact ⟨version, part.trans grown⟩
      latestBin := fun bytes present => by
        obtain ⟨version, part⟩ := self.latestBin bytes present
        exact ⟨version, part.trans grown⟩ }
  · refine { refines.sound with acknowledged := ?_ }
    by_cases waits : replica.applied.length ∈ replica.pending
    · simp only [replica, waits, if_true]
      exact List.forall_mem_cons.mpr ⟨answered, refines.sound.acknowledged⟩
    · simp only [replica, waits, if_false]
      exact refines.sound.acknowledged

/-! ### Snapshots -/

theorem Refines.buildSnapshot (refines : cluster.Refines voters state)
    (stepped : cluster.buildSnapshot id = some after) : after.Refines voters state := by
  obtain ⟨_, eq⟩ := Option.ite_none_right_eq_some.mp stepped
  cases eq
  refine refines.act (Moves.refl voters id state) ?_ { refines.sound with } rfl
  exact { refines.replicas id with
    built := fun bytes found => by
      cases found
      exact ⟨rfl, List.prefix_rfl⟩ }

theorem Refines.purge (refines : cluster.Refines voters state)
    (stepped : cluster.purge id = some after) : after.Refines voters state := by
  obtain ⟨more, eq⟩ := Option.ite_none_right_eq_some.mp stepped
  obtain ⟨logId, found, eq⟩ := Option.map_eq_some_iff.mp eq
  cases eq
  have self := refines.replicas id
  obtain ⟨purged, covered, represents⟩ := self.store
  obtain ⟨entry, lookup, rfl, _⟩ := represents.logIdAt (refines.logIndexed id) found
  have position := refines.logIndexed id _ _ lookup
  have purgedEq : nextIndex (cluster.replicas id).store.lastPurged = purged := by
    rw [represents.lastPurged,
      nextIndex_lastLogId ((refines.logIndexed id).ofPrefix (List.take_prefix _ _)),
      List.length_take, Nat.min_eq_left represents.purgedLe]
  have snapshotLe : nextIndex (cluster.replicas id).snapshotLogId ≤
      (cluster.replicas id).applied.length := by
    cases taken : (cluster.replicas id).built with
    | none =>
      rw [Replica.snapshotLogId, taken]
      exact Nat.zero_le _
    | some bytes =>
      obtain ⟨_, part⟩ := self.built bytes taken
      rw [Replica.snapshotLogId, taken, Option.bind_some,
        nextIndex_lastLogId ((refines.logIndexed id).ofPrefix (part.trans self.applied))]
      exact part.length_le
  have stop : entry.logId.index + 1 =
      nextIndex (cluster.replicas id).snapshotLogId - maxInSnapshotLogToKeep := by
    omega
  have coveredNow : entry.logId.index + 1 ≤ (cluster.replicas id).applied.length := by omega
  have later : purged ≤ entry.logId.index + 1 := by omega
  have purges := represents.purge later
    (position.symm ▸ (List.getElem?_eq_some_iff.mp lookup).1)
    (position.symm ▸ lastLogId_take lookup)
  refine refines.act (Moves.refl voters id state) ?_ { refines.sound with } rfl
  exact { self with
    store := ⟨entry.logId.index + 1, coveredNow, purges⟩ }

theorem Refines.uploadSnapshotNow (refines : cluster.Refines voters state) (id : Nat)
    (lastUploaded : Option LogId) :
    (cluster.set id { (cluster.replicas id).uploadSnapshotNow with lastUploaded }).Refines
      voters state := by
  refine refines.act (Moves.refl voters id state) ?_ { refines.sound with } rfl
  exact { refines.replicas id with
    latestBin := fun bytes found => by
      cases found
      exact ⟨rfl, List.prefix_rfl⟩ }

end ReplicaSet

/-! ### Restarts that lose nothing -/

/-- The data `latest.bin` holds. -/
def latestData (latestBin : Option SnapshotBytes) : List LogEntry :=
  latestBin.elim [] (·.payload)

/-- The leadership a restarted node starts from: that of the seeded vote, if there is one. -/
def seededLeaderId (nodeId : Nat) (lastApplied : Option LogId) : LeaderId :=
  lastApplied.elim default fun logId => (seededVote nodeId logId).leaderId

/-- A restart loses nothing: `latest.bin` ends where the lost log ended, and the seeded vote is
not below the lost one. -/
def LosesNothing (cluster : ReplicaSet) : ReplicaLabel → Prop
  | .restart id =>
    let replica := cluster.replicas id
    let lastApplied := lastLogId (latestData replica.latestBin)
    lastApplied = replica.lastLogId ∧ replica.vote.leaderId ≤ seededLeaderId id lastApplied
  | _ => True

instance (cluster : ReplicaSet) : DecidablePred (LosesNothing cluster)
  | .restart _ => inferInstanceAs (Decidable (_ ∧ _))
  | .elect _ | .handleVote .. | .observeVote .. | .establishLeader _ | .clientWrite ..
  | .sendAppendEntries .. | .handleAppendEntries .. | .sendSnapshot _
  | .handleInstallSnapshot .. | .commit .. | .apply _ | .buildSnapshot _ | .purge _
  | .snapshotUploadLoop _ | .uploadSnapshotNow _ | .stop _ => isTrue trivial

theorem restoredStore_represents (nodeId : Nat) {data : List LogEntry} (indexed : Indexed data) :
    (restoredStore nodeId (lastLogId data)).Represents data data.length := by
  cases last : lastLogId data with
  | none =>
    rw [lastLogId, Option.map_eq_none_iff, List.getLast?_eq_none_iff] at last
    subst last
    exact .of_new
  | some logId =>
    refine RedbLogStore.Represents.of_purged (indexed.length_eq last) last fun index _ => ?_
    exact BTreeMap.getElem?_empty index

theorem restoredStore_vote (nodeId : Nat) (lastApplied : Option LogId) :
    ((restoredStore nodeId lastApplied).vote.getD default).leaderId =
      seededLeaderId nodeId lastApplied := by
  cases lastApplied with
  | none => rfl
  | some logId => rfl

theorem restore_eq_ok {nodeId : Nat} {latestBin : Option SnapshotBytes} {restored : Replica}
    (read : restore nodeId latestBin = .ok restored) :
    restored = {
      running := true
      role := .follower
      store := restoredStore nodeId (lastLogId (latestData latestBin))
      applied := latestData latestBin
      committed := (latestData latestBin).length
      built := latestBin
      snapshot := latestBin
      pending := []
      lastUploaded := none
      latestBin := latestBin } := by
  cases latestBin with
  | none =>
    cases read
    rfl
  | some bytes =>
    cases data : deserializeSnapshot bytes with
    | error _ =>
      rw [restore, Option.elim_some, data] at read
      cases read
    | ok payload =>
      rw [restore, Option.elim_some, data] at read
      cases read
      rw [ReplicaSet.deserializeSnapshot_eq_ok data]
      rfl

theorem ReplicaSet.Refines.restart (refines : cluster.Refines voters state) {restored : Replica}
    (losesNothing : LosesNothing cluster (.restart id))
    (read : restore id (cluster.replicas id).latestBin = .ok restored) :
    ∃ next, (cluster.set id restored).Refines voters next := by
  rw [restore_eq_ok read]
  have self := refines.replicas id
  obtain ⟨sameLast, notBelow⟩ := losesNothing
  have indexed := refines.logIndexed id
  have readable : ∀ bytes ∈ (cluster.replicas id).latestBin,
      bytes.Within (latestData (cluster.replicas id).latestBin) := by
    intro bytes found
    rw [Option.mem_def] at found
    rw [found]
    exact ⟨(self.latestBin bytes found).1, List.prefix_rfl⟩
  have older : latestData (cluster.replicas id).latestBin <+: (cluster.replicas id).applied := by
    cases found : (cluster.replicas id).latestBin with
    | none => exact List.nil_prefix
    | some bytes => exact (self.latestBin bytes found).2
  -- The snapshot is a part of the voter's log and ends where the log ends.
  have whole : latestData (cluster.replicas id).latestBin = state.log id := by
    refine List.IsPrefix.eq_of_length (older.trans self.applied) ?_
    rw [← nextIndex_lastLogId (indexed.ofPrefix (older.trans self.applied)), sameLast,
      self.lastLogId_eq, nextIndex_lastLogId indexed]
  have allCommitted : (cluster.replicas id).committed = (state.log id).length := by
    refine le_antisymm self.committedLe ?_
    rw [← whole]
    exact older.length_le.trans self.appliedLe
  rw [whole] at older readable notBelow ⊢
  have moves : Moves voters id state _ := Moves.promise (self.promised.trans_le notBelow)
  have sound := refines.sound.grows moves.grows
  refine ⟨_, refines.act moves ?_ { sound with } rfl⟩
  have promise : Function.update state.promised id
      (seededLeaderId id (lastLogId (state.log id))) id =
        seededLeaderId id (lastLogId (state.log id)) := Function.update_self _ _ _
  exact {
    store := ⟨_, le_rfl, restoredStore_represents id indexed⟩
    promised := promise.trans (restoredStore_vote id _).symm
    applied := List.prefix_rfl
    appliedLe := le_rfl
    committedLe := le_rfl
    chosen := by
      have chosen := self.chosen
      rw [allCommitted] at chosen
      refine State.Chosen.grows chosen moves.grows ?_
      exact (self.promised.trans_le notBelow).trans_eq promise.symm
    built := readable
    snapshot := readable
    latestBin := readable
    candidate := nofun
    leader := nofun
    stood := fun ballot stood own => by
      refine (self.stood ballot stood own).trans ?_
      exact (self.promised.trans_le notBelow).trans_eq promise.symm }

/-! ### Acknowledged writes -/

theorem foundingEntry_indexed (voters : List Nat) :
    Indexed [ReplicaSet.foundingEntry voters] :=
  Indexed.nil.concat rfl

theorem start_replica_refines (voters : List Nat) (id : Nat) :
    ((ReplicaSet.start voters).replicas id).Refines voters
      (founded default [ReplicaSet.foundingEntry voters]) id where
  store := ⟨0, le_rfl, RedbLogStore.Represents.of_new.append (foundingEntry_indexed voters)⟩
  promised := rfl
  applied := List.nil_prefix
  appliedLe := le_rfl
  committedLe := Nat.zero_le _
  chosen := Or.inl rfl
  built _ found := by cases found
  snapshot _ found := by cases found
  latestBin _ found := by cases found
  candidate stands := by cases stands
  leader leads := by cases leads
  stood _ stood := absurd rfl stood

/-- The initial cluster refines the state in which every voter holds the founding entry. -/
theorem ReplicaSet.Refines.start (voters : List Nat) :
    (ReplicaSet.start voters).Refines voters
      (founded default [ReplicaSet.foundingEntry voters]) where
  invariant := Invariant.founded fun entry member => by
    rw [List.mem_singleton.mp member]
    rfl
  indexed ballot history elected := by
    obtain ⟨_, eq⟩ := Option.ite_none_right_eq_some.mp elected
    rw [← Option.some.inj eq]
    exact foundingEntry_indexed voters
  elected ballot elected := by
    obtain ⟨history, found⟩ := Option.ne_none_iff_exists'.mp elected
    exact Or.inl (Option.ite_none_right_eq_some.mp found).1
  replicas := start_replica_refines voters
  sound := ⟨List.forall_mem_nil _, List.forall_mem_nil _, List.forall_mem_nil _,
    List.forall_mem_nil _, List.forall_mem_nil _, List.forall_mem_nil _⟩

theorem ReplicaSet.Refines.running (refines : cluster.Refines voters state) {label : ReplicaLabel}
    (stepped : runningReplicaStep voters cluster label = some after) :
    ∃ next, after.Refines voters next := by
  cases label with
  | elect id => exact refines.elect stepped
  | handleVote id position =>
    obtain ⟨request, found, stepped⟩ := Option.bind_eq_some_iff.mp stepped
    exact refines.handleVote (refines.sound.voteRequests _ (List.mem_of_getElem? found)) stepped
  | observeVote id peer vote =>
    exact refines.observeVote (Option.ite_none_right_eq_some.mp stepped).2
  | establishLeader id => exact refines.establishLeader stepped
  | clientWrite id request => exact refines.clientWrite stepped
  | sendAppendEntries id start count => exact ⟨state, refines.sendAppendEntries stepped⟩
  | handleAppendEntries id position =>
    obtain ⟨request, found, stepped⟩ := Option.bind_eq_some_iff.mp stepped
    exact refines.handleAppendEntries
      (refines.sound.appendRequests _ (List.mem_of_getElem? found)) stepped
  | sendSnapshot id => exact ⟨state, refines.sendSnapshot stepped⟩
  | handleInstallSnapshot id position =>
    obtain ⟨request, found, stepped⟩ := Option.bind_eq_some_iff.mp stepped
    exact refines.handleInstallSnapshot
      (refines.sound.snapshotRequests _ (List.mem_of_getElem? found)) stepped
  | commit id index => exact ⟨state, refines.commit stepped⟩
  | apply id => exact ⟨state, refines.apply stepped⟩
  | buildSnapshot id => exact ⟨state, refines.buildSnapshot stepped⟩
  | purge id => exact ⟨state, refines.purge stepped⟩
  | snapshotUploadLoop id =>
    obtain ⟨_, eq⟩ := Option.ite_none_right_eq_some.mp stepped
    cases eq
    exact ⟨state, refines.uploadSnapshotNow id _⟩
  | uploadSnapshotNow id =>
    cases stepped
    exact ⟨state, refines.uploadSnapshotNow id _⟩
  | stop id =>
    cases stepped
    refine ⟨state, refines.act (Moves.refl voters id state) ?_ { refines.sound with } rfl⟩
    exact { refines.replicas id with }
  | restart id => cases stepped

theorem ReplicaSet.Refines.step (refines : cluster.Refines voters state) {label : ReplicaLabel}
    (stepped : replicaStep voters cluster label = some after)
    (losesNothing : LosesNothing cluster label) : ∃ next, after.Refines voters next := by
  obtain ⟨_, stepped⟩ := Option.ite_none_right_eq_some.mp stepped
  split at stepped
  · exact refines.running stepped
  · split at stepped
    · split at stepped
      · cases stepped
      · rename_i read
        cases stepped
        exact refines.restart losesNothing read
    · cases stepped

/-- The entry is in the voter's log or in its applied data. -/
def Replica.Holds (replica : Replica) (entry : LogEntry) : Prop :=
  entry ∈ replica.applied ∨ ∃ index : Nat, replica.store.logs[index]? = some entry

theorem Replica.Holds.logId_mem {replica : Replica} {entry : LogEntry}
    (holds : replica.Holds entry) : entry.logId ∈ replica.applied.map (·.logId) ++
      replica.store.logs.toList.map (·.2.logId) := by
  rcases holds with applied | ⟨index, found⟩
  · exact List.mem_append_left _ (List.mem_map_of_mem applied)
  · have member := (BTreeMap.mem_toList _ index entry).mpr found
    exact List.mem_append_right _ (List.mem_map.mpr ⟨_, member, rfl⟩)

theorem Replica.Refines.holds {replica : Replica} (refines : replica.Refines voters state id)
    {entry : LogEntry} (member : entry ∈ state.log id) : replica.Holds entry := by
  obtain ⟨index, found⟩ := List.mem_iff_getElem?.mp member
  obtain ⟨purged, covered, represents⟩ := refines.store
  rcases lt_or_ge index replica.applied.length with inside | outside
  · refine Or.inl (List.mem_of_getElem? (i := index) ?_)
    rw [List.prefix_iff_eq_take.mp refines.applied, List.getElem?_take_of_lt inside, found]
  · refine Or.inr ⟨index, ?_⟩
    rw [represents.logs, if_pos (covered.trans outside), found]

/-- In a run whose restarts lose nothing, a leader holds every write that was acknowledged under
its vote or a lower one. -/
theorem acknowledged_writes_survive (voters : List Nat) {labels : List ReplicaLabel}
    {cluster : ReplicaSet}
    (reached : run (replicaStep voters) (ReplicaSet.start voters) labels = some cluster)
    (losesNothing : Along (replicaStep voters) LosesNothing (ReplicaSet.start voters) labels)
    {acknowledgement : Acknowledgement} (answered : acknowledgement ∈ cluster.acknowledged)
    {id : Nat} (leads : (cluster.replicas id).role = .leader)
    (later : acknowledgement.leaderId ≤ (cluster.replicas id).vote.leaderId) :
    (cluster.replicas id).Holds acknowledgement.entry := by
  obtain ⟨state, refines⟩ : ∃ state, cluster.Refines voters state := by
    refine run_invariant_along (fun cluster => ∃ state, cluster.Refines voters state)
      (fun cluster label after stepped keeps => ?_) reached losesNothing
      ⟨_, ReplicaSet.Refines.start voters⟩
    rintro ⟨state, refines⟩
    exact refines.step stepped keeps
  have self := refines.replicas id
  obtain ⟨_, elected⟩ := self.leader leads
  obtain ⟨log, chosen, member⟩ := refines.sound.acknowledged acknowledgement answered
  have within := refines.invariant.chosen_within chosen elected (self.promised ▸ later)
  exact self.holds (within.subset member)

/-! ### Two runs -/

def sampleWrite : Request :=
  .manifest (.deleteRepository "library/alpine" none)

/-- Voter 1 is elected by itself and another voter, and acknowledges a write that the two hold. -/
def acknowledgedRun (other : Nat) : List ReplicaLabel :=
  [.elect 1, .handleVote other 0, .establishLeader 1, .clientWrite 1 sampleWrite,
    .sendAppendEntries 1 1 2, .handleAppendEntries other 0, .commit 1 2,
    .apply 1, .apply 1, .apply 1]

/-- Voter 2 restarts without a `latest.bin` and elects voter 3, which never had the write. -/
def lossyRun : List ReplicaLabel :=
  [.stop 2, .restart 2, .elect 3, .handleVote 2 0, .establishLeader 3]

/-- One voter of three is down for a moment, and the leader elected afterwards does not hold the
acknowledged write. -/
theorem acknowledged_write_lost :
    ∃ middle cluster acknowledgement,
      run (replicaStep [1, 2, 3]) (ReplicaSet.start [1, 2, 3]) (acknowledgedRun 2) = some middle ∧
      run (replicaStep [1, 2, 3]) middle lossyRun = some cluster ∧
      Along (replicaStep [1, 2, 3]) (fun cluster _ => cluster.down [1, 2, 3] ≤ 1)
        (ReplicaSet.start [1, 2, 3]) (acknowledgedRun 2 ++ lossyRun) ∧
      acknowledgement ∈ middle.acknowledged ∧
      (middle.replicas 3).role = .follower ∧ (cluster.replicas 3).role = .leader ∧
      acknowledgement.leaderId < (cluster.replicas 3).vote.leaderId ∧
      ¬ (cluster.replicas 3).Holds acknowledgement.entry := by
  refine ⟨_, _, _, rfl, rfl, by decide +kernel, List.mem_singleton_self _, rfl, rfl, by decide, ?_⟩
  exact fun holds => absurd holds.logId_mem (by decide +kernel)

/-- Voter 3 applies all it has, uploads it and restarts, and is then elected by voter 2. -/
def keepingRun : List ReplicaLabel :=
  [.sendAppendEntries 1 3 0, .handleAppendEntries 3 0, .apply 3, .apply 3, .apply 3,
    .uploadSnapshotNow 3, .stop 3, .restart 3, .elect 3, .handleVote 2 0, .establishLeader 3]

theorem acknowledged_write_kept :
    ∃ cluster acknowledgement,
      run (replicaStep [1, 2, 3]) (ReplicaSet.start [1, 2, 3]) (acknowledgedRun 3 ++ keepingRun) =
        some cluster ∧
      acknowledgement ∈ cluster.acknowledged ∧ (cluster.replicas 3).role = .leader ∧
      (cluster.replicas 3).Holds acknowledgement.entry := by
  have losesNothing : Along (replicaStep [1, 2, 3]) LosesNothing (ReplicaSet.start [1, 2, 3])
      (acknowledgedRun 3 ++ keepingRun) := by
    decide +kernel
  refine ⟨_, _, rfl, List.mem_singleton_self _, rfl, ?_⟩
  exact acknowledged_writes_survive [1, 2, 3] rfl losesNothing (List.mem_singleton_self _) rfl
    (by decide)

end Layerhouse
