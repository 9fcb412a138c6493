/-
This file states what the Raft log store of `raft/log_store.rs` is for: it keeps the
id of the last purged entry, the entries after it, one for each index, and the vote.
The abstract log says this with a list of entries; that the list has no gap is part
of the type. An abstract step is defined only for a command that the Raft core may
issue: an append goes on from the last index, a truncation starts above the purged
index, and purged indexes never go back, although a purge may pass the end of the
log after a snapshot was installed.

The table of the store is compared with the abstract log through the relation of
the log store's file, which speaks of a log from index 0 on: the purged part, which
nothing reads but its last id, is filled with blank entries.

The store answers every read of the bounds it was given. Its caller turns the
bounds of a range into the first index and the index after the last one, and both
additions wrap at the largest index; an open end stops before that index.
-/

import Layerhouse.Library.Runs
import Layerhouse.Raft.Replication

namespace Layerhouse

/-! ### Ranges of indexes -/

/-- `Bound<u64>` of the standard library. -/
inductive Bound where
  | included (index : Nat)
  | excluded (index : Nat)
  | unbounded
deriving DecidableEq

namespace Bound

/-- The index is not before a range that starts with this bound. -/
def startsBy (start : Bound) (index : Nat) : Bool :=
  match start with
  | .included first => first ≤ index
  | .excluded before => before < index
  | .unbounded => true

/-- The index is not after a range that ends with this bound. -/
def endsAfter (stop : Bound) (index : Nat) : Bool :=
  match stop with
  | .included last => index ≤ last
  | .excluded after => index < after
  | .unbounded => true

end Bound

namespace RedbLogStore

def rangeStart : Bound → Nat
  | .included index => index
  | .excluded index => (index + 1) % 2 ^ 64
  | .unbounded => 0

def rangeStop : Bound → Nat
  | .included index => (index + 1) % 2 ^ 64
  | .excluded index => index
  | .unbounded => 2 ^ 64 - 1

/-- The additions of the two bounds wrap, as they do in a release build; a build that checks
for overflow panics there instead. -/
def tryGetLogEntries (store : RedbLogStore) (start stop : Bound) : List LogEntry :=
  store.getEntriesSync (rangeStart start) (rangeStop stop)

end RedbLogStore

/-! ### Commands -/

/-- The commands of the store's actor that write. -/
inductive LogCommand where
  | append (entries : List LogEntry)
  | truncate (logId : LogId)
  | purge (logId : LogId)
  | saveVote (vote : Vote)
  | seedVote (vote : Vote)

/-- One turn of `run_actor`. -/
def RedbLogStore.runCommand (store : RedbLogStore) : LogCommand → RedbLogStore
  | .append entries => store.appendSync entries
  | .truncate logId => store.truncateSync logId
  | .purge logId => store.purgeSync logId
  | .saveVote vote => store.saveVoteSync vote
  | .seedVote vote => store.seedVoteSync vote

/-- The entries have the indexes from `first` on, one each. -/
def ContiguousFrom (first : Nat) (entries : List LogEntry) : Prop :=
  entries.map (·.logId.index) = List.range' first entries.length

instance (first : Nat) (entries : List LogEntry) : Decidable (ContiguousFrom first entries) :=
  inferInstanceAs (Decidable (_ = _))

namespace ContiguousFrom

variable {first : Nat} {entries : List LogEntry}

theorem index_eq (contiguous : ContiguousFrom first entries) {position : Nat} {entry : LogEntry}
    (found : entries[position]? = some entry) : entry.logId.index = first + position := by
  have inside := (List.getElem?_eq_some_iff.mp found).1
  have mapped : (entries.map (·.logId.index))[position]? = some entry.logId.index := by
    rw [List.getElem?_map, found]
    rfl
  rw [contiguous, List.getElem?_range' inside, Option.some.injEq] at mapped
  rw [← mapped, Nat.one_mul]

theorem of_index_eq
    (indexed : ∀ position entry, entries[position]? = some entry →
      entry.logId.index = first + position) :
    ContiguousFrom first entries := by
  refine List.ext_getElem? fun position => ?_
  rw [List.getElem?_map]
  cases found : entries[position]? with
  | none =>
    rw [List.getElem?_eq_none_iff] at found
    rw [List.getElem?_eq_none (by rw [List.length_range']; exact found)]
    rfl
  | some entry =>
    have inside := (List.getElem?_eq_some_iff.mp found).1
    rw [List.getElem?_range' inside, Option.map_some, indexed position entry found, Nat.one_mul]

theorem append (contiguous : ContiguousFrom first entries) {more : List LogEntry}
    (goesOn : ContiguousFrom (first + entries.length) more) :
    ContiguousFrom first (entries ++ more) := by
  show (entries ++ more).map (·.logId.index) = _
  rw [List.map_append, contiguous, goesOn, List.length_append, List.range'_append_1]

theorem take (contiguous : ContiguousFrom first entries) (count : Nat) :
    ContiguousFrom first (entries.take count) :=
  of_index_eq fun _ _ found =>
    contiguous.index_eq (getElem?_ofPrefix (List.take_prefix count entries) found)

theorem drop (contiguous : ContiguousFrom first entries) (count : Nat) :
    ContiguousFrom (first + count) (entries.drop count) := by
  refine of_index_eq fun position entry found => ?_
  rw [List.getElem?_drop] at found
  rw [contiguous.index_eq found, Nat.add_assoc]

/-- Past the end of the entries every first index will do. -/
theorem drop_past (contiguous : ContiguousFrom first entries) {next : Nat} (more : first ≤ next) :
    ContiguousFrom next (entries.drop (next - first)) := by
  have dropped := contiguous.drop (next - first)
  rwa [Nat.add_sub_cancel' more] at dropped

theorem pairwise (contiguous : ContiguousFrom first entries) :
    entries.Pairwise (fun earlier later => earlier.logId.index < later.logId.index) := by
  rw [← List.pairwise_map, contiguous]
  exact List.pairwise_lt_range'

end ContiguousFrom

/-! ### The abstract log -/

structure AbstractLog where
  lastPurged : Option LogId
  entries : List LogEntry
  vote : Option Vote
  contiguous : ContiguousFrom (nextIndex lastPurged) entries
  /-- Indexes are 64-bit values. -/
  bounded : ∀ entry ∈ entries, entry.logId.index < 2 ^ 64

namespace AbstractLog

def new : AbstractLog where
  lastPurged := none
  entries := []
  vote := none
  contiguous := rfl
  bounded := by simp

/-- The last id of the log, which is the purged one when all entries are purged. -/
def lastLogId (log : AbstractLog) : Option LogId :=
  (Layerhouse.lastLogId log.entries).or log.lastPurged

def getLogState (log : AbstractLog) : LogState where
  lastPurgedLogId := log.lastPurged
  lastLogId := log.lastLogId

/-- The entries of a range, in order. -/
def entriesIn (log : AbstractLog) (start stop : Bound) : List LogEntry :=
  log.entries.filter fun entry =>
    start.startsBy entry.logId.index && stop.endsAfter entry.logId.index

theorem nextIndex_lastLogId (log : AbstractLog) :
    nextIndex log.lastLogId = nextIndex log.lastPurged + log.entries.length := by
  rw [lastLogId, Layerhouse.lastLogId, List.getLast?_eq_getElem?]
  rcases Nat.eq_zero_or_pos log.entries.length with empty | some
  · rw [List.getElem?_eq_none (by omega), empty]
    rfl
  · have found := List.getElem?_eq_getElem (show log.entries.length - 1 < log.entries.length by
      omega)
    have index := log.contiguous.index_eq found
    rw [found]
    show _ + 1 = _
    rw [index]
    omega

/-- The log after the entries that go on from its last index. -/
def append (log : AbstractLog) (entries : List LogEntry)
    (goesOn : ContiguousFrom (nextIndex log.lastLogId) entries)
    (bounded : ∀ entry ∈ entries, entry.logId.index < 2 ^ 64) : AbstractLog where
  lastPurged := log.lastPurged
  entries := log.entries ++ entries
  vote := log.vote
  contiguous := log.contiguous.append (log.nextIndex_lastLogId ▸ goesOn)
  bounded entry member := (List.mem_append.mp member).elim (log.bounded entry) (bounded entry)

/-- The log before an index. -/
def truncate (log : AbstractLog) (index : Nat) : AbstractLog where
  lastPurged := log.lastPurged
  entries := log.entries.take (index - nextIndex log.lastPurged)
  vote := log.vote
  contiguous := log.contiguous.take _
  bounded entry member := log.bounded entry (List.mem_of_mem_take member)

/-- The log after an id, which need not be one of its ids. -/
def purge (log : AbstractLog) (logId : LogId)
    (further : nextIndex log.lastPurged ≤ nextIndex (some logId)) : AbstractLog where
  lastPurged := some logId
  entries := log.entries.drop (nextIndex (some logId) - nextIndex log.lastPurged)
  vote := log.vote
  contiguous := log.contiguous.drop_past further
  bounded entry member := log.bounded entry (List.mem_of_mem_drop member)

def withVote (log : AbstractLog) (vote : Vote) : AbstractLog where
  lastPurged := log.lastPurged
  entries := log.entries
  vote := some vote
  contiguous := log.contiguous
  bounded := log.bounded

/-- The greater one of the log's vote and another. -/
def seededVote (log : AbstractLog) (vote : Vote) : Vote :=
  log.vote.elim vote (max · vote)

theorem nextIndex_le_of_purged {log : AbstractLog} {logId : LogId}
    (further : ∀ purged ∈ log.lastPurged, purged.index ≤ logId.index) :
    nextIndex log.lastPurged ≤ nextIndex (some logId) := by
  cases known : log.lastPurged with
  | none => exact Nat.zero_le _
  | some purged => exact Nat.succ_le_succ (further purged known)

/-- The abstract effect of a command that the Raft core may issue. -/
def step (log : AbstractLog) : LogCommand → Option AbstractLog
  | .append entries =>
    if goesOn : ContiguousFrom (nextIndex log.lastLogId) entries ∧
        ∀ entry ∈ entries, entry.logId.index < 2 ^ 64 then
      some (log.append entries goesOn.1 goesOn.2)
    else none
  | .truncate logId =>
    if (∀ purged ∈ log.lastPurged, purged.index < logId.index) ∧ logId.index < 2 ^ 64 then
      some (log.truncate logId.index)
    else none
  | .purge logId =>
    if further : (∀ purged ∈ log.lastPurged, purged.index ≤ logId.index) ∧
        logId.index < 2 ^ 64 then
      some (log.purge logId (nextIndex_le_of_purged further.1))
    else none
  | .saveVote vote => some (log.withVote vote)
  | .seedVote vote => some (log.withVote (log.seededVote vote))

/-- The blank entries that stand for the purged ones. -/
def purgedEntries (lastPurged : Option LogId) : List LogEntry :=
  lastPurged.elim [] fun logId =>
    (List.range (logId.index + 1)).map fun index => ⟨⟨logId.leaderId, index⟩, .blank⟩

/-- The log from index 0 on. -/
def whole (log : AbstractLog) : List LogEntry :=
  purgedEntries log.lastPurged ++ log.entries

theorem length_purgedEntries (lastPurged : Option LogId) :
    (purgedEntries lastPurged).length = nextIndex lastPurged := by
  cases lastPurged with
  | none => rfl
  | some logId => exact (List.length_map _).trans List.length_range

theorem lastLogId_purgedEntries (lastPurged : Option LogId) :
    Layerhouse.lastLogId (purgedEntries lastPurged) = lastPurged := by
  cases lastPurged with
  | none => rfl
  | some logId =>
    show Layerhouse.lastLogId ((List.range (logId.index + 1)).map _) = _
    rw [List.range_succ, List.map_append, List.map_singleton, lastLogId_concat]

theorem take_whole (log : AbstractLog) :
    log.whole.take (nextIndex log.lastPurged) = purgedEntries log.lastPurged :=
  List.take_left' (length_purgedEntries log.lastPurged)

theorem length_whole (log : AbstractLog) :
    log.whole.length = nextIndex log.lastPurged + log.entries.length := by
  rw [whole, List.length_append, length_purgedEntries]

theorem getElem?_whole (log : AbstractLog) {index : Nat} (kept : nextIndex log.lastPurged ≤ index) :
    log.whole[index]? = log.entries[index - nextIndex log.lastPurged]? := by
  rw [whole, List.getElem?_append_right (by rw [length_purgedEntries]; exact kept),
    length_purgedEntries]

theorem indexed_whole (log : AbstractLog) : Indexed log.whole := by
  intro index entry found
  rcases Nat.lt_or_ge index (nextIndex log.lastPurged) with purged | kept
  · rw [whole, List.getElem?_append_left (by rw [length_purgedEntries]; exact purged)] at found
    cases known : log.lastPurged with
    | none =>
      rw [known] at found
      cases found
    | some logId =>
      rw [known] at found
      have mapped : ((List.range (logId.index + 1)).map fun index =>
          (⟨⟨logId.leaderId, index⟩, .blank⟩ : LogEntry))[index]? = some entry := found
      rw [List.getElem?_map, List.getElem?_range (by rw [known] at purged; exact purged),
        Option.map_some, Option.some.injEq] at mapped
      rw [← mapped]
  · rw [log.getElem?_whole kept] at found
    rw [log.contiguous.index_eq found, Nat.add_sub_cancel' kept]

end AbstractLog

/-! ### The store refines the abstract log -/

/-- The store holds the entries of the log, its last purged id and its vote. -/
structure RedbLogStore.Refines (store : RedbLogStore) (log : AbstractLog) : Prop where
  represents : store.Represents log.whole (nextIndex log.lastPurged)
  vote : store.vote = log.vote

namespace RedbLogStore.Refines

variable {store : RedbLogStore} {log : AbstractLog}

theorem of_new : RedbLogStore.new.Refines .new :=
  ⟨Represents.of_new, rfl⟩

theorem lastPurged (refines : store.Refines log) : store.lastPurged = log.lastPurged := by
  rw [refines.represents.lastPurged, log.take_whole, AbstractLog.lastLogId_purgedEntries]

theorem getElem?_logs (refines : store.Refines log) (index : Nat) :
    store.logs[index]? = if nextIndex log.lastPurged ≤ index then
      log.entries[index - nextIndex log.lastPurged]? else none := by
  rw [refines.represents.logs]
  split
  next kept => rw [log.getElem?_whole kept]
  next => rfl

theorem append (refines : store.Refines log) {entries : List LogEntry}
    (goesOn : ContiguousFrom (nextIndex log.lastLogId) entries)
    (bounded : ∀ entry ∈ entries, entry.logId.index < 2 ^ 64) :
    (store.appendSync entries).Refines (log.append entries goesOn bounded) := by
  have whole : (log.append entries goesOn bounded).whole = log.whole ++ entries :=
    (List.append_assoc _ _ _).symm
  refine ⟨?_, refines.vote⟩
  rw [whole]
  exact refines.represents.append (whole ▸ (log.append entries goesOn bounded).indexed_whole)

theorem truncate (refines : store.Refines log) {logId : LogId}
    (kept : nextIndex log.lastPurged ≤ logId.index) :
    (store.truncateSync logId).Refines (log.truncate logId.index) := by
  have whole : (log.truncate logId.index).whole = log.whole.take logId.index := by
    rw [AbstractLog.whole, AbstractLog.whole, List.take_append,
      List.take_of_length_le (by rw [AbstractLog.length_purgedEntries]; exact kept),
      AbstractLog.length_purgedEntries]
    rfl
  refine ⟨?_, refines.vote⟩
  rw [whole]
  exact refines.represents.truncate kept

/-- No entry at or below the purged index is left, whether or not the log reaches it. -/
theorem purge (refines : store.Refines log) {logId : LogId}
    (further : nextIndex log.lastPurged ≤ nextIndex (some logId)) :
    (store.purgeSync logId).Refines (log.purge logId further) := by
  refine ⟨⟨fun index => ?_, ?_, ?_⟩, refines.vote⟩
  · rw [getElem?_purgeSync, refines.getElem?_logs]
    show _ = if nextIndex (some logId) ≤ index then
      (log.purge logId further).whole[index]? else none
    by_cases above : nextIndex (some logId) ≤ index
    · have position : nextIndex (some logId) - nextIndex log.lastPurged +
          (index - nextIndex (some logId)) = index - nextIndex log.lastPurged := by omega
      rw [if_pos (Nat.lt_of_succ_le above), if_pos (further.trans above), if_pos above,
        AbstractLog.getElem?_whole _ above]
      show _ = (log.entries.drop _)[index - nextIndex (some logId)]?
      rw [List.getElem?_drop, position]
    · rw [if_neg above, if_neg fun later => above (Nat.succ_le_of_lt later)]
  · rw [AbstractLog.take_whole]
    exact (AbstractLog.lastLogId_purgedEntries (some logId)).symm
  · rw [AbstractLog.length_whole]
    exact Nat.le_add_right _ _

theorem saveVote (refines : store.Refines log) (vote : Vote) :
    (store.saveVoteSync vote).Refines (log.withVote vote) :=
  ⟨refines.represents.saveVote vote, rfl⟩

theorem seedVote (refines : store.Refines log) (vote : Vote) :
    (store.seedVoteSync vote).Refines (log.withVote (log.seededVote vote)) := by
  rw [seedVoteSync, readVoteSync, refines.vote]
  cases known : log.vote with
  | none =>
    have seeded : log.seededVote vote = vote := by
      rw [AbstractLog.seededVote, known]
      rfl
    rw [seeded]
    exact refines.saveVote vote
  | some current =>
    have seeded : log.seededVote vote = max current vote := by
      rw [AbstractLog.seededVote, known]
      rfl
    rw [seeded, Option.any_some]
    by_cases older : vote ≤ current
    · rw [if_pos (decide_eq_true older), max_eq_left older]
      exact ⟨refines.represents, refines.vote.trans known⟩
    · rw [if_neg (by rw [decide_eq_true_eq]; exact older), max_eq_right (le_of_not_ge older)]
      exact refines.saveVote vote

theorem step (refines : store.Refines log) {command : LogCommand} {next : AbstractLog}
    (stepped : log.step command = some next) : (store.runCommand command).Refines next := by
  cases command with
  | append entries =>
    obtain ⟨goesOn, same⟩ := Option.dite_none_right_eq_some.mp stepped
    cases same
    exact refines.append goesOn.1 goesOn.2
  | truncate logId =>
    obtain ⟨above, same⟩ := Option.ite_none_right_eq_some.mp stepped
    cases same
    refine refines.truncate ?_
    cases known : log.lastPurged with
    | none => exact Nat.zero_le _
    | some purged => exact Nat.succ_le_of_lt (above.1 purged known)
  | purge logId =>
    obtain ⟨further, same⟩ := Option.dite_none_right_eq_some.mp stepped
    cases same
    exact refines.purge (AbstractLog.nextIndex_le_of_purged further.1)
  | saveVote vote =>
    cases stepped
    exact refines.saveVote vote
  | seedVote vote =>
    cases stepped
    exact refines.seedVote vote

theorem run (refines : store.Refines log) {commands : List LogCommand} {final : AbstractLog}
    (issued : Layerhouse.run AbstractLog.step log commands = some final) :
    (commands.foldl runCommand store).Refines final := by
  induction commands generalizing store log with
  | nil =>
    cases issued
    exact refines
  | cons command rest inductionHypothesis =>
    obtain ⟨next, stepped, continued⟩ := run_cons_eq_some.mp issued
    exact inductionHypothesis (refines.step stepped) continued

/-! ### Reads -/

theorem getLogState_eq (refines : store.Refines log) : store.getLogStateSync = log.getLogState := by
  have last : store.getLogStateSync.lastLogId = log.lastLogId := by
    rw [refines.represents.lastLogId_eq, AbstractLog.whole, Layerhouse.lastLogId,
      List.getLast?_append, AbstractLog.lastLogId, Layerhouse.lastLogId, Option.map_or]
    exact congrArg _ (AbstractLog.lastLogId_purgedEntries log.lastPurged)
  have purged : store.getLogStateSync.lastPurgedLogId = log.lastPurged := refines.lastPurged
  show LogState.mk _ _ = LogState.mk _ _
  rw [← last, ← purged]
  rfl

theorem mem_getEntries (refines : store.Refines log) {start stop : Nat} {entry : LogEntry} :
    entry ∈ store.getEntriesSync start stop ↔
      entry ∈ log.entries ∧ start ≤ entry.logId.index ∧ entry.logId.index < stop := by
  rw [getEntriesSync, List.mem_filterMap]
  constructor
  · rintro ⟨index, inside, found⟩
    rw [refines.getElem?_logs] at found
    obtain ⟨kept, found⟩ := Option.ite_none_right_eq_some.mp found
    have position : entry.logId.index = index := by
      rw [log.contiguous.index_eq found, Nat.add_sub_cancel' kept]
    rw [List.mem_range'_1] at inside
    rw [position]
    exact ⟨List.mem_of_getElem? found, inside.1, by omega⟩
  · rintro ⟨member, after, before⟩
    obtain ⟨position, found⟩ := List.mem_iff_getElem?.mp member
    have index := log.contiguous.index_eq found
    refine ⟨entry.logId.index, List.mem_range'_1.mpr ⟨after, by omega⟩, ?_⟩
    rw [refines.getElem?_logs, if_pos (by omega), index, Nat.add_sub_cancel_left, found]

/-- The entries read are those of the log with an index in `start..stop`: both lists are in the
order of the indexes. -/
theorem getEntries_eq (refines : store.Refines log) (start stop : Nat) :
    store.getEntriesSync start stop = log.entries.filter fun entry =>
      decide (start ≤ entry.logId.index) && decide (entry.logId.index < stop) := by
  have ordered : (store.getEntriesSync start stop).Pairwise
      (fun earlier later => earlier.logId.index < later.logId.index) := by
    refine List.pairwise_filterMap.mpr ?_
    refine List.Pairwise.imp ?_ List.pairwise_lt_range'
    intro earlier later before first found second lookup
    rw [refines.getElem?_logs] at found lookup
    obtain ⟨keptFirst, found⟩ := Option.ite_none_right_eq_some.mp found
    obtain ⟨keptSecond, lookup⟩ := Option.ite_none_right_eq_some.mp lookup
    rw [log.contiguous.index_eq found, log.contiguous.index_eq lookup]
    omega
  have irreflexive : Std.Irrefl
      (fun earlier later : LogEntry => earlier.logId.index < later.logId.index) :=
    ⟨fun entry => Nat.lt_irrefl entry.logId.index⟩
  refine List.Pairwise.eq_of_mem_iff ordered (log.contiguous.pairwise.filter _) fun entry => ?_
  rw [refines.mem_getEntries, List.mem_filter, Bool.and_eq_true, decide_eq_true_eq,
    decide_eq_true_eq]

end RedbLogStore.Refines

/-! ### Ranges of a refined log -/

/-- The bound is a value of `Bound<u64>`. -/
def Bound.IsU64 : Bound → Prop
  | .included index => index < 2 ^ 64
  | .excluded index => index < 2 ^ 64
  | .unbounded => True

/-- No entry lies where the computed bounds differ from the range: a start after the largest index
wraps to 0, an end after it wraps to 0 too, and an open end leaves that index out. -/
structure AbstractLog.FitsRange (log : AbstractLog) (start stop : Bound) : Prop where
  wrappedStart : start = .excluded (2 ^ 64 - 1) →
    ∀ entry ∈ log.entries, RedbLogStore.rangeStop stop ≤ entry.logId.index
  wrappedStop : stop = .included (2 ^ 64 - 1) →
    ∀ entry ∈ log.entries, start.startsBy entry.logId.index = false
  openEnd : stop = .unbounded →
    ∀ entry ∈ log.entries, start.startsBy entry.logId.index → entry.logId.index ≠ 2 ^ 64 - 1

theorem filter_eq_filter_iff {α : Type} {first second : α → Bool} {values : List α} :
    values.filter first = values.filter second ↔
      ∀ value ∈ values, (first value = true ↔ second value = true) := by
  constructor
  · intro same value member
    have kept : value ∈ values.filter first ↔ value ∈ values.filter second := by rw [same]
    rwa [List.mem_filter, List.mem_filter, and_iff_right member, and_iff_right member] at kept
  · exact fun alike =>
      List.filter_congr fun value member => Bool.eq_iff_iff.mpr (alike value member)

/-- The computed bounds and the range agree on an index exactly if it is not one of those that a
wrapped bound or the open end gets wrong. -/
theorem inBounds_iff_inRange {start stop : Bound} (ofStart : start.IsU64) (ofStop : stop.IsU64)
    {index : Nat} (bounded : index < 2 ^ 64) :
    (RedbLogStore.rangeStart start ≤ index ∧ index < RedbLogStore.rangeStop stop ↔
        start.startsBy index = true ∧ stop.endsAfter index = true) ↔
      (start = .excluded (2 ^ 64 - 1) → RedbLogStore.rangeStop stop ≤ index) ∧
      (stop = .included (2 ^ 64 - 1) → start.startsBy index = false) ∧
      (stop = .unbounded → start.startsBy index → index ≠ 2 ^ 64 - 1) := by
  cases start <;> cases stop <;>
    simp only [RedbLogStore.rangeStart, RedbLogStore.rangeStop, Bound.startsBy, Bound.endsAfter,
      Bound.IsU64, decide_eq_true_eq, decide_eq_false_iff_not, Bound.excluded.injEq,
      Bound.included.injEq, reduceCtorEq, false_implies, true_implies, true_and, and_true,
      Bool.true_eq_false, eq_self, imp_false, not_false_eq_true, Nat.zero_le, iff_true] at * <;>
    omega

theorem RedbLogStore.Refines.tryGetLogEntries_eq_iff {store : RedbLogStore} {log : AbstractLog}
    (refines : store.Refines log) {start stop : Bound} (ofStart : start.IsU64)
    (ofStop : stop.IsU64) :
    store.tryGetLogEntries start stop = log.entriesIn start stop ↔ log.FitsRange start stop := by
  rw [tryGetLogEntries, refines.getEntries_eq, AbstractLog.entriesIn, filter_eq_filter_iff]
  simp only [Bool.and_eq_true, decide_eq_true_eq]
  constructor
  · intro alike
    have each := fun entry (member : entry ∈ log.entries) =>
      (inBounds_iff_inRange ofStart ofStop (log.bounded entry member)).mp (alike entry member)
    exact ⟨fun wraps entry member => (each entry member).1 wraps,
      fun wraps entry member => (each entry member).2.1 wraps,
      fun openEnd entry member => (each entry member).2.2 openEnd⟩
  intro fits entry member
  refine (inBounds_iff_inRange ofStart ofStop (log.bounded entry member)).mpr ⟨?_, ?_, ?_⟩
  · exact fun wraps => fits.wrappedStart wraps entry member
  · exact fun wraps => fits.wrappedStop wraps entry member
  · exact fun openEnd => fits.openEnd openEnd entry member

/-- The stored indexes are those after the purged one, up to the last. -/
theorem RedbLogStore.Refines.mem_logs_iff {store : RedbLogStore} {log : AbstractLog}
    (refines : store.Refines log) (index : Nat) :
    index ∈ store.logs ↔
      nextIndex log.lastPurged ≤ index ∧ index < nextIndex log.lastLogId := by
  rw [BTreeMap.mem_iff, refines.getElem?_logs, log.nextIndex_lastLogId]
  constructor
  · rintro ⟨entry, found⟩
    obtain ⟨kept, found⟩ := Option.ite_none_right_eq_some.mp found
    have inside := (List.getElem?_eq_some_iff.mp found).1
    exact ⟨kept, by omega⟩
  · rintro ⟨kept, inside⟩
    rw [if_pos kept]
    exact ⟨_, List.getElem?_eq_getElem (by omega)⟩

theorem RedbLogStore.seedVoteSync_of_le {store : RedbLogStore} {vote current : Vote}
    (stored : store.readVoteSync = some current) (older : vote ≤ current) :
    store.seedVoteSync vote = store := by
  rw [seedVoteSync, stored, Option.any_some, if_pos (decide_eq_true older)]

/-- After any commands that the Raft core may issue, the store answers as the abstract log does.
A range of indexes is answered rightly exactly if no entry lies where its bounds wrap. -/
theorem log_store_refines_abstract_log {commands : List LogCommand} {log : AbstractLog}
    (issued : run AbstractLog.step .new commands = some log) :
    let store := commands.foldl RedbLogStore.runCommand .new
    store.getLogStateSync = log.getLogState ∧ store.readVoteSync = log.vote ∧
    (∀ start stop, start.IsU64 → stop.IsU64 →
      (store.tryGetLogEntries start stop = log.entriesIn start stop ↔
        log.FitsRange start stop)) ∧
    (∀ index, index ∈ store.logs ↔
      nextIndex store.lastPurged ≤ index ∧ index < nextIndex store.getLogStateSync.lastLogId) ∧
    (∀ vote current, store.readVoteSync = some current → vote ≤ current →
      store.seedVoteSync vote = store) := by
  intro store
  have refines : store.Refines log := RedbLogStore.Refines.of_new.run issued
  refine ⟨refines.getLogState_eq, refines.vote, ?_, ?_, ?_⟩
  · exact fun start stop ofStart ofStop => refines.tryGetLogEntries_eq_iff ofStart ofStop
  · intro index
    rw [refines.lastPurged, refines.getLogState_eq]
    exact refines.mem_logs_iff index
  · exact fun vote current stored older => RedbLogStore.seedVoteSync_of_le stored older

/-- A log that is truncated, purged past its end by a snapshot, and goes on after it. -/
def sampleLogCommands : List LogCommand :=
  [.append [⟨⟨⟨1, 1⟩, 0⟩, .blank⟩, ⟨⟨⟨1, 1⟩, 1⟩, .blank⟩], .truncate ⟨⟨1, 1⟩, 1⟩,
    .saveVote (.new 2 1), .purge ⟨⟨2, 1⟩, 4⟩, .append [⟨⟨⟨2, 1⟩, 5⟩, .blank⟩],
    .seedVote (.new 1 1)]

theorem log_store_refines_abstract_log_sample :
    ∃ log, run AbstractLog.step .new sampleLogCommands = some log ∧
      (sampleLogCommands.foldl RedbLogStore.runCommand .new).readVoteSync = log.vote := by
  obtain ⟨log, issued⟩ := Option.isSome_iff_exists.mp
    (show (run AbstractLog.step .new sampleLogCommands).isSome = true by decide +kernel)
  exact ⟨log, issued, (log_store_refines_abstract_log issued).2.1⟩

/-- The range `0..=u64::MAX` of a log with one entry has that entry, but the end of the range wraps
to 0 and the store returns none. -/
theorem log_store_misreads_a_wrapped_range :
    ∃ log, run AbstractLog.step .new [.append [⟨⟨⟨1, 1⟩, 0⟩, .blank⟩]] = some log ∧
      ([LogCommand.append [⟨⟨⟨1, 1⟩, 0⟩, .blank⟩]].foldl RedbLogStore.runCommand
        .new).tryGetLogEntries (.included 0) (.included (2 ^ 64 - 1)) ≠
        log.entriesIn (.included 0) (.included (2 ^ 64 - 1)) := by
  refine ⟨_, rfl, fun same => ?_⟩
  have lengths := congrArg List.length same
  revert lengths
  decide

end Layerhouse
