/-
This file models the Raft log store of `raft/log_store.rs`: a table of log entries
keyed by index, and a table that holds the saved vote and the id of the last purged
entry. Each command of the store's actor is one write transaction, so it is one
function on the two tables; a transaction that fails is not a step.

The store is read through one relation: it represents a list of entries of which the
first ones are purged. Each command has one lemma that says which list the store
represents afterwards.
-/

import Layerhouse.Library.BTreeMap
import Layerhouse.Raft.Apply

namespace Layerhouse

/-! ### Votes and log ids -/

/-- Leaderships are ordered by term and then by node: a term may have several. -/
instance : LinearOrder LeaderId where
  le first second := toLex (first.term, first.nodeId) ≤ toLex (second.term, second.nodeId)
  le_refl _ := le_rfl
  le_trans _ _ _ := le_trans
  le_antisymm first second below above := by
    cases first
    cases second
    cases le_antisymm below above
    rfl
  le_total _ _ := le_total _ _
  toDecidableLE first second :=
    inferInstanceAs (Decidable
      (toLex (first.term, first.nodeId) ≤ toLex (second.term, second.nodeId)))
  toDecidableEq := inferInstance

instance : Inhabited LeaderId := ⟨⟨0, 0⟩⟩

instance : LinearOrder LogId where
  le first second := toLex (first.leaderId, first.index) ≤ toLex (second.leaderId, second.index)
  le_refl _ := le_rfl
  le_trans _ _ _ := le_trans
  le_antisymm first second below above := by
    cases first
    cases second
    cases le_antisymm below above
    rfl
  le_total _ _ := le_total _ _
  toDecidableLE first second :=
    inferInstanceAs (Decidable
      (toLex (first.leaderId, first.index) ≤ toLex (second.leaderId, second.index)))
  toDecidableEq := inferInstance

/-- A vote for a leadership, `committed` once a quorum has granted it. -/
structure Vote where
  leaderId : LeaderId
  committed : Bool
deriving DecidableEq

instance : LinearOrder Vote where
  le first second :=
    toLex (first.leaderId, first.committed) ≤ toLex (second.leaderId, second.committed)
  le_refl _ := le_rfl
  le_trans _ _ _ := le_trans
  le_antisymm first second below above := by
    cases first
    cases second
    cases le_antisymm below above
    rfl
  le_total _ _ := le_total _ _
  toDecidableLE first second :=
    inferInstanceAs (Decidable
      (toLex (first.leaderId, first.committed) ≤ toLex (second.leaderId, second.committed)))
  toDecidableEq := inferInstance

instance : Inhabited Vote := ⟨⟨default, false⟩⟩

namespace Vote

/-- `Vote::new`: a vote that no quorum has granted yet. -/
def new (term nodeId : Nat) : Vote := ⟨⟨term, nodeId⟩, false⟩

end Vote

abbrev LogEntry := Entry

/-- The id of the last entry of a log. -/
def lastLogId (log : List LogEntry) : Option LogId :=
  log.getLast?.map (·.logId)

/-- `Option<LogId>` is ordered with `None` first. -/
def notBehind : Option LogId → Option LogId → Bool
  | none, _ => true
  | some _, none => false
  | some first, some second => decide (first ≤ second)

/-! ### The store -/

structure LogState where
  lastPurgedLogId : Option LogId
  lastLogId : Option LogId

structure RedbLogStore where
  logs : BTreeMap Nat LogEntry
  vote : Option Vote
  lastPurged : Option LogId

namespace RedbLogStore

/-- The store of a new database file. -/
def new : RedbLogStore where
  logs := ∅
  vote := none
  lastPurged := none

def getLogStateSync (store : RedbLogStore) : LogState where
  lastPurgedLogId := store.lastPurged
  lastLogId := (store.logs.toList.getLast?.map (·.2.logId)).or store.lastPurged

/-- The entries of the indexes `start..stop`, in order. -/
def getEntriesSync (store : RedbLogStore) (start stop : Nat) : List LogEntry :=
  (List.range' start (stop - start)).filterMap (store.logs[·]?)

def appendSync (store : RedbLogStore) (entries : List LogEntry) : RedbLogStore :=
  { store with
    logs := entries.foldl (fun logs entry => logs.insert entry.logId.index entry) store.logs }

def truncateSync (store : RedbLogStore) (logId : LogId) : RedbLogStore :=
  { store with logs := BTreeMap.retain (fun index _ => decide (index < logId.index)) store.logs }

def purgeSync (store : RedbLogStore) (logId : LogId) : RedbLogStore :=
  { store with
    logs := BTreeMap.retain (fun index _ => decide (logId.index < index)) store.logs
    lastPurged := some logId }

def saveVoteSync (store : RedbLogStore) (vote : Vote) : RedbLogStore :=
  { store with vote := some vote }

def readVoteSync (store : RedbLogStore) : Option Vote :=
  store.vote

def seedVoteSync (store : RedbLogStore) (vote : Vote) : RedbLogStore :=
  if store.readVoteSync.any (vote ≤ ·) then store else store.saveVoteSync vote

/-- The id of the entry at an index, kept for the last purged entry too. -/
def logIdAt (store : RedbLogStore) (index : Nat) : Option LogId :=
  (store.logs[index]?.map (·.logId)).or (store.lastPurged.filter (·.index = index))

end RedbLogStore

/-! ### The log a store represents -/

/-- Each entry carries its position as its index. -/
def Indexed (log : List LogEntry) : Prop :=
  ∀ (index : Nat) (entry : LogEntry), log[index]? = some entry → entry.logId.index = index

theorem getElem?_ofPrefix {log longer : List LogEntry} (part : log <+: longer) {index : Nat}
    {entry : LogEntry} (found : log[index]? = some entry) : longer[index]? = some entry := by
  obtain ⟨rest, rfl⟩ := part
  rw [List.getElem?_append_left (List.getElem?_eq_some_iff.mp found).1, found]

theorem Indexed.ofPrefix {log longer : List LogEntry} (indexed : Indexed longer)
    (part : log <+: longer) : Indexed log :=
  fun index entry found => indexed index entry (getElem?_ofPrefix part found)

theorem Indexed.nil : Indexed [] := by
  intro index entry found
  rw [List.getElem?_nil] at found
  cases found

theorem Indexed.concat {log : List LogEntry} (indexed : Indexed log) {entry : LogEntry}
    (position : entry.logId.index = log.length) : Indexed (log ++ [entry]) := by
  intro index last lookup
  rcases lt_trichotomy index log.length with inside | rfl | outside
  · rw [List.getElem?_append_left inside] at lookup
    exact indexed index last lookup
  · rw [List.getElem?_concat_length, Option.some.injEq] at lookup
    rw [← lookup, position]
  · have inside := (List.getElem?_eq_some_iff.mp lookup).1
    rw [List.length_append, List.length_singleton] at inside
    omega

theorem lastLogId_take {log : List LogEntry} {index : Nat} {entry : LogEntry}
    (found : log[index]? = some entry) : lastLogId (log.take (index + 1)) = some entry.logId := by
  rw [lastLogId, List.take_add_one, found]
  simp

theorem entry_of_lastLogId {log : List LogEntry} {count : Nat} {logId : LogId}
    (inside : count ≤ log.length) (last : lastLogId (log.take count) = some logId) :
    ∃ index entry, count = index + 1 ∧ log[index]? = some entry ∧ entry.logId = logId := by
  obtain ⟨entry, ends, rfl⟩ := Option.map_eq_some_iff.mp last
  cases count with
  | zero => cases ends
  | succ index =>
    rw [List.getLast?_eq_getElem?, List.length_take, Nat.min_eq_left inside,
      Nat.add_sub_cancel] at ends
    exact ⟨index, entry, rfl, getElem?_ofPrefix (List.take_prefix _ _) ends, rfl⟩

theorem lastLogId_concat (log : List LogEntry) (entry : LogEntry) :
    lastLogId (log ++ [entry]) = some entry.logId := by
  rw [lastLogId, List.getLast?_concat]
  rfl

/-- The last id of a log of indexed entries tells its length. -/
theorem Indexed.length_eq {log : List LogEntry} (indexed : Indexed log) {logId : LogId}
    (last : lastLogId log = some logId) : log.length = logId.index + 1 := by
  obtain rfl | ⟨initial, entry, rfl⟩ := log.eq_nil_or_concat'
  · cases last
  rw [lastLogId_concat, Option.some.injEq] at last
  rw [← last, indexed initial.length entry (List.getElem?_concat_length), List.length_append,
    List.length_singleton]

namespace RedbLogStore

/-- The store holds the log, less its first `purged` entries. -/
structure Represents (store : RedbLogStore) (log : List LogEntry) (purged : Nat) : Prop where
  logs : ∀ index : Nat, store.logs[index]? = if purged ≤ index then log[index]? else none
  lastPurged : store.lastPurged = lastLogId (log.take purged)
  purgedLe : purged ≤ log.length

variable {store : RedbLogStore} {log : List LogEntry} {purged : Nat}

theorem Represents.of_new : RedbLogStore.new.Represents [] 0 := by
  refine ⟨fun index => ?_, rfl, le_rfl⟩
  rw [List.getElem?_nil, ite_self]
  exact BTreeMap.getElem?_empty index

theorem Represents.maxKey_eq (represents : store.Represents log purged)
    (unpurged : purged < log.length) : store.logs.maxKey? = some (log.length - 1) := by
  rw [Std.ExtTreeMap.maxKey?_eq_some_iff_mem_and_forall]
  refine ⟨?_, fun index member => ?_⟩
  · rw [BTreeMap.mem_iff, represents.logs, if_pos (by omega)]
    exact ⟨_, List.getElem?_eq_getElem (by omega)⟩
  · obtain ⟨entry, found⟩ := (BTreeMap.mem_iff _ _).mp member
    rw [represents.logs] at found
    obtain ⟨_, lookup⟩ := Option.ite_none_right_eq_some.mp found
    have inside := (List.getElem?_eq_some_iff.mp lookup).1
    exact Nat.isLE_compare.mpr (by omega)

theorem Represents.getLast?_toList (represents : store.Represents log purged)
    (unpurged : purged < log.length) :
    store.logs.toList.getLast?.map (·.2) = log.getLast? := by
  have newest := represents.maxKey_eq unpurged
  rw [Std.ExtTreeMap.maxKey?_eq_getLast?_keys, ← Std.ExtTreeMap.map_fst_toList_eq_keys,
    List.getLast?_map] at newest
  obtain ⟨⟨index, entry⟩, ends, position⟩ := Option.map_eq_some_iff.mp newest
  have found := (BTreeMap.mem_toList _ _ _).mp (List.mem_of_getLast? ends)
  obtain rfl : index = log.length - 1 := position
  rw [represents.logs, if_pos (by omega)] at found
  rw [ends, List.getLast?_eq_getElem?, found]
  rfl

theorem Represents.lastLogId_eq (represents : store.Represents log purged) :
    store.getLogStateSync.lastLogId = lastLogId log := by
  show (store.logs.toList.getLast?.map (·.2.logId)).or store.lastPurged = _
  rcases represents.purgedLe.lt_or_eq with unpurged | all
  · have last := represents.getLast?_toList unpurged
    have mapped : store.logs.toList.getLast?.map (·.2.logId) = lastLogId log := by
      rw [lastLogId, ← last, Option.map_map]
      rfl
    rw [mapped, lastLogId, List.getLast?_eq_getElem?, List.getElem?_eq_getElem (by omega)]
    rfl
  · have empty : store.logs = ∅ := by
      refine BTreeMap.ext_getElem? fun index => ?_
      rw [represents.logs, BTreeMap.getElem?_empty]
      split
      · exact List.getElem?_eq_none (by omega)
      · rfl
    rw [empty, Std.ExtTreeMap.toList_eq_nil_iff.mpr rfl, represents.lastPurged, all,
      List.take_length]
    rfl

theorem Represents.append (represents : store.Represents log purged) {entries : List LogEntry}
    (indexed : Indexed (log ++ entries)) : (store.appendSync entries).Represents (log ++ entries)
      purged := by
  induction entries generalizing store log with
  | nil =>
    rw [List.append_nil]
    exact represents
  | cons entry rest inductionHypothesis =>
    have position : entry.logId.index = log.length := indexed log.length entry (by simp)
    have one : (store.appendSync [entry]).Represents (log ++ [entry]) purged := by
      refine ⟨fun index => ?_, ?_, ?_⟩
      · show (store.logs.insert entry.logId.index entry)[index]? = _
        rw [BTreeMap.getElem?_insert, represents.logs, position]
        rcases lt_trichotomy index log.length with inside | rfl | outside
        · rw [if_neg (by omega), List.getElem?_append_left inside]
        · rw [if_pos rfl, if_pos represents.purgedLe, List.getElem?_concat_length]
        · rw [if_neg (by omega), List.getElem?_eq_none (by omega),
            List.getElem?_eq_none (by rw [List.length_append, List.length_singleton]; omega)]
      · show store.lastPurged = _
        rw [represents.lastPurged, List.take_append_of_le_length represents.purgedLe]
      · rw [List.length_append]
        exact represents.purgedLe.trans (Nat.le_add_right _ _)
    have whole : log ++ entry :: rest = log ++ [entry] ++ rest := by simp
    rw [whole] at indexed ⊢
    exact inductionHypothesis one indexed

theorem getElem?_truncateSync (store : RedbLogStore) (logId : LogId) (index : Nat) :
    (store.truncateSync logId).logs[index]? =
      if index < logId.index then store.logs[index]? else none :=
  BTreeMap.getElem?_retain_keys (fun index => index < logId.index) store.logs index

theorem getElem?_purgeSync (store : RedbLogStore) (logId : LogId) (index : Nat) :
    (store.purgeSync logId).logs[index]? =
      if logId.index < index then store.logs[index]? else none :=
  BTreeMap.getElem?_retain_keys (fun index => logId.index < index) store.logs index

theorem Represents.truncate (represents : store.Represents log purged) {logId : LogId}
    (kept : purged ≤ logId.index) :
    (store.truncateSync logId).Represents (log.take logId.index) purged := by
  refine ⟨fun index => ?_, ?_, ?_⟩
  · rw [getElem?_truncateSync, represents.logs, List.getElem?_take]
    split
    · rfl
    · rw [ite_self]
  · show store.lastPurged = _
    rw [represents.lastPurged, List.take_take, Nat.min_eq_left kept]
  · rw [List.length_take]
    exact le_min kept represents.purgedLe

theorem Represents.purge (represents : store.Represents log purged) {logId : LogId}
    (more : purged ≤ logId.index + 1) (inside : logId.index < log.length)
    (last : lastLogId (log.take (logId.index + 1)) = some logId) :
    (store.purgeSync logId).Represents log (logId.index + 1) := by
  refine ⟨fun index => ?_, last.symm, inside⟩
  rw [getElem?_purgeSync, represents.logs]
  by_cases above : logId.index < index
  · rw [if_pos above, if_pos (more.trans above), if_pos (Nat.succ_le_of_lt above)]
  · rw [if_neg above, if_neg (fun reached : logId.index + 1 ≤ index => above reached)]

theorem Represents.saveVote (represents : store.Represents log purged) (vote : Vote) :
    (store.saveVoteSync vote).Represents log purged :=
  ⟨represents.logs, represents.lastPurged, represents.purgedLe⟩

theorem Represents.getEntries (represents : store.Represents log purged) {start : Nat}
    (unpurged : purged ≤ start) (stop : Nat) :
    store.getEntriesSync start stop = (log.drop start).take (stop - start) := by
  rw [getEntriesSync]
  induction stop - start generalizing start with
  | zero => rfl
  | succ count inductionHypothesis =>
    rw [List.range'_succ, List.filterMap_cons, inductionHypothesis (unpurged.trans (Nat.le_succ _)),
      represents.logs, if_pos unpurged]
    by_cases inside : start < log.length
    · rw [List.getElem?_eq_getElem inside, List.drop_eq_getElem_cons inside, List.take_succ_cons]
    · rw [List.getElem?_eq_none (by omega), List.drop_eq_nil_of_le (by omega),
        List.drop_eq_nil_of_le (by omega), List.take_nil, List.take_nil]

/-- An id found at an index is the id of the log's entry there, which is not purged or purged
last. -/
theorem Represents.logIdAt (represents : store.Represents log purged) (indexed : Indexed log)
    {index : Nat} {logId : LogId} (found : store.logIdAt index = some logId) :
    ∃ entry, log[index]? = some entry ∧ entry.logId = logId ∧ purged ≤ index + 1 := by
  rw [RedbLogStore.logIdAt, Option.or_eq_some_iff, represents.logs] at found
  rcases found with stored | ⟨_, purgedLast⟩
  · obtain ⟨entry, lookup, same⟩ := Option.map_eq_some_iff.mp stored
    obtain ⟨kept, lookup⟩ := Option.ite_none_right_eq_some.mp lookup
    exact ⟨entry, lookup, same, kept.trans (Nat.le_succ _)⟩
  · obtain ⟨last, position⟩ := Option.filter_eq_some_iff.mp purgedLast
    rw [represents.lastPurged] at last
    have length := (indexed.ofPrefix (List.take_prefix _ _)).length_eq last
    obtain ⟨entry, ends, rfl⟩ := Option.map_eq_some_iff.mp last
    rw [List.getLast?_eq_getElem?, length, Nat.add_sub_cancel, of_decide_eq_true position] at ends
    refine ⟨entry, getElem?_ofPrefix (List.take_prefix _ _) ends, rfl, ?_⟩
    rw [List.length_take, Nat.min_eq_left represents.purgedLe] at length
    rw [length, of_decide_eq_true position]

end RedbLogStore

end Layerhouse
