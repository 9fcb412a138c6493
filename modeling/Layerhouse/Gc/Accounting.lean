/-
This file is one run of the garbage collector from its own side, `run_gc_sweep` of `gc.rs`:
what it counts and which keys it sends for deletion. The listing, the two reads of the
reference counts, the clock, the answers of `still_leader` and those of the blob store are
given. Every listed object is counted once, under one of three heads, and the candidates are
sent in the order of the listing, a thousand at a time, until the node no longer leads or the
store fails.
-/

import Layerhouse.Gc.Sweep
import Layerhouse.Library.Pages

namespace Layerhouse

structure GcDeleteOutcome where
  deleted : Nat
  errors : Nat

structure GcStatus where
  lastRunAt : Nat
  durationMs : Nat
  scanned : Nat
  candidates : Nat
  deleted : Nat
  skippedReferenced : Nat
  skippedYoung : Nat
  deleteErrors : Nat
  dryRun : Bool
  leadershipLost : Bool
  lastError : Option String

/-- What a sweep meets behind the listing: the clocks (`now` in nanoseconds), the two reads of the
counts, and for each batch whether the node still leads and what the store answers. -/
structure SweepMeets where
  nowEpoch : Nat
  now : Nat
  elapsedMs : Nat
  refCounts : BTreeMap String Nat
  freshRefCounts : BTreeMap String Nat
  stillLeader : Nat → Bool
  deleteBlobBatch : Nat → List String → Except LayerhouseError GcDeleteOutcome

/-- The counters of the loop over the listing, and what it has put aside. -/
structure SweepSelection where
  skippedReferenced : Nat
  skippedYoung : Nat
  toDelete : List GcBlobObject

def GcConfig.gracePeriod (config : GcConfig) : Nat :=
  config.gracePeriodSecs * 10 ^ 9

section Sweep

variable (config : GcConfig) (meets : SweepMeets)

/-- One turn of the loop over the listing. -/
def selectObject (selection : SweepSelection) (object : GcBlobObject) : SweepSelection :=
  if 0 < BTreeMap.count meets.refCounts object.digest then
    { selection with skippedReferenced := selection.skippedReferenced + 1 }
  else if ¬ oldEnough meets.now config.gracePeriod object then
    { selection with skippedYoung := selection.skippedYoung + 1 }
  else { selection with toDelete := selection.toDelete ++ [object] }

def selectObjects (objects : List GcBlobObject) : SweepSelection :=
  objects.foldl (selectObject config meets) ⟨0, 0, []⟩

/-- The loop over the batches from this turn on, with the batches that it sends. -/
def deleteBatches : Nat → List (List GcBlobObject) → GcStatus →
    Except LayerhouseError GcStatus × List (List String)
  | _, [], stats => (.ok { stats with durationMs := meets.elapsedMs }, [])
  | turn, batch :: rest, stats =>
    if ¬ meets.stillLeader turn then
      (.ok { stats with leadershipLost := true, durationMs := meets.elapsedMs }, [])
    else
      let keys := batch.map (·.key)
      match meets.deleteBlobBatch turn keys with
      | .error error => (.error error, [keys])
      | .ok outcome =>
        let later := deleteBatches (turn + 1) rest
          { stats with
            deleted := stats.deleted + outcome.deleted
            deleteErrors := stats.deleteErrors + outcome.errors }
        (later.1, keys :: later.2)

/-- The result of a sweep and the batches of keys that it sends for deletion. -/
def runGcSweep (listing : Except LayerhouseError (List GcBlobObject)) :
    Except LayerhouseError GcStatus × List (List String) :=
  match listing with
  | .error error => (.error error, [])
  | .ok objects =>
    let selection := selectObjects config meets objects
    let toDelete := finalCheck meets.freshRefCounts selection.toDelete
    let stats : GcStatus :=
      { lastRunAt := meets.nowEpoch
        durationMs := 0
        scanned := objects.length
        candidates := toDelete.length
        deleted := 0
        skippedReferenced :=
          selection.skippedReferenced + (selection.toDelete.length - toDelete.length)
        skippedYoung := selection.skippedYoung
        deleteErrors := 0
        dryRun := config.dryRun
        leadershipLost := false
        lastError := none }
    if config.dryRun then (.ok { stats with durationMs := meets.elapsedMs }, [])
    else deleteBatches meets 0 (chunks deleteBatchSize toDelete) stats

/-! ### What is selected -/

/-- The object is referred to at neither read of the counts and was written a grace period ago. -/
def unusedSince (object : GcBlobObject) : Bool :=
  BTreeMap.count meets.refCounts object.digest = 0 ∧
    BTreeMap.count meets.freshRefCounts object.digest = 0 ∧
      object.lastModified.any fun modified => modified + config.gracePeriod ≤ meets.now

variable {config} {meets}

theorem oldEnough_iff {now gracePeriod : Nat} {object : GcBlobObject} :
    oldEnough now gracePeriod object =
      object.lastModified.any fun modified => modified + gracePeriod ≤ now := by
  rw [oldEnough]
  congr 1
  funext modified
  rw [decide_eq_decide]
  omega

/-- The loop puts the old objects without references aside and counts each of the others once. -/
theorem foldl_selectObject (objects : List GcBlobObject) (selection : SweepSelection) :
    (objects.foldl (selectObject config meets) selection).toDelete =
        selection.toDelete ++ objects.filter (fun object =>
          BTreeMap.count meets.refCounts object.digest = 0 ∧
            oldEnough meets.now config.gracePeriod object) ∧
      (objects.foldl (selectObject config meets) selection).skippedReferenced +
          (objects.foldl (selectObject config meets) selection).skippedYoung +
          (objects.foldl (selectObject config meets) selection).toDelete.length =
        selection.skippedReferenced + selection.skippedYoung + selection.toDelete.length +
          objects.length := by
  induction objects generalizing selection with
  | nil => simp
  | cons object rest inductionHypothesis =>
    obtain ⟨kept, counted⟩ := inductionHypothesis (selectObject config meets selection object)
    rw [List.foldl_cons, counted, kept, List.length_cons]
    by_cases referenced : 0 < BTreeMap.count meets.refCounts object.digest
    · rw [selectObject, if_pos referenced, List.filter_cons_of_neg (by
        rw [decide_eq_true_eq]
        omega)]
      exact ⟨rfl, by dsimp only; omega⟩
    · rw [selectObject, if_neg referenced]
      by_cases old : oldEnough meets.now config.gracePeriod object = true
      · rw [if_neg (not_not.mpr old), List.filter_cons_of_pos (by
          rw [decide_eq_true_eq]
          exact ⟨by omega, old⟩), List.length_append, List.append_assoc]
        exact ⟨rfl, by simp only [List.length_singleton]; omega⟩
      · rw [if_pos old, List.filter_cons_of_neg (by
          rw [decide_eq_true_eq]
          exact fun both => old both.2)]
        exact ⟨rfl, by dsimp only; omega⟩

theorem finalCheck_selected (objects : List GcBlobObject) :
    finalCheck meets.freshRefCounts (selectObjects config meets objects).toDelete =
      objects.filter (unusedSince config meets) := by
  rw [selectObjects, (foldl_selectObject objects ⟨0, 0, []⟩).1, List.nil_append, finalCheck,
    List.filter_filter]
  refine List.filter_congr fun object _ => ?_
  rw [oldEnough_iff, unusedSince, Bool.eq_iff_iff, Bool.and_eq_true]
  simp only [decide_eq_true_eq]
  exact and_left_comm

/-- The counters of the loop and of the second look at the counts add up. -/
theorem selection_balanced (objects : List GcBlobObject) :
    objects.length = (selectObjects config meets objects).skippedReferenced +
        ((selectObjects config meets objects).toDelete.length -
          (objects.filter (unusedSince config meets)).length) +
        (selectObjects config meets objects).skippedYoung +
      (objects.filter (unusedSince config meets)).length := by
  have counted : _ = _ := (@foldl_selectObject config meets objects ⟨0, 0, []⟩).2
  have fewer : (objects.filter (unusedSince config meets)).length ≤
      (selectObjects config meets objects).toDelete.length := by
    rw [← finalCheck_selected]
    exact List.length_filter_le _ _
  rw [← selectObjects] at counted
  simp only [List.length_nil, Nat.zero_add] at counted
  omega

/-! ### What is sent -/

/-- The loop sends whole batches in their order and leaves the counters of the selection. It stops
early only when the node has stopped leading or the store has failed. -/
theorem deleteBatches_sent (batches : List (List GcBlobObject)) (turn : Nat) (stats : GcStatus) :
    (deleteBatches meets turn batches stats).2 <+: batches.map (List.map (·.key)) ∧
      (∀ error, (deleteBatches meets turn batches stats).1 = .error error →
        ∃ turn keys, meets.deleteBlobBatch turn keys = .error error) ∧
      ∀ final, (deleteBatches meets turn batches stats).1 = .ok final →
        final.scanned = stats.scanned ∧ final.candidates = stats.candidates ∧
          final.skippedReferenced = stats.skippedReferenced ∧
          final.skippedYoung = stats.skippedYoung ∧
          (final.leadershipLost = true →
            stats.leadershipLost = true ∨ ∃ turn, meets.stillLeader turn = false) ∧
          (final.leadershipLost = false →
            (deleteBatches meets turn batches stats).2 = batches.map (List.map (·.key))) := by
  induction batches generalizing turn stats with
  | nil =>
    refine ⟨List.prefix_rfl, nofun, ?_⟩
    rintro _ ⟨⟩
    exact ⟨rfl, rfl, rfl, rfl, Or.inl, fun _ => rfl⟩
  | cons batch rest inductionHypothesis =>
    rw [deleteBatches, List.map_cons]
    split
    · rename_i lost
      refine ⟨List.nil_prefix, nofun, ?_⟩
      rintro _ ⟨⟩
      exact ⟨rfl, rfl, rfl, rfl, fun _ => Or.inr ⟨turn, Bool.eq_false_iff.mpr lost⟩, nofun⟩
    · dsimp only
      cases answer : meets.deleteBlobBatch turn (batch.map (·.key)) with
      | error error =>
        refine ⟨List.prefix_append [_] _, ?_, ?_⟩
        · rintro _ ⟨⟩
          exact ⟨turn, _, answer⟩
        · rintro _ ⟨⟩
      | ok outcome =>
        obtain ⟨sent, failed, ended⟩ := inductionHypothesis (turn + 1)
          { stats with
            deleted := stats.deleted + outcome.deleted
            deleteErrors := stats.deleteErrors + outcome.errors }
        refine ⟨List.cons_prefix_cons.mpr ⟨rfl, sent⟩, failed, fun final result => ?_⟩
        obtain ⟨scanned, candidates, referenced, young, lost, all⟩ := ended final result
        exact ⟨scanned, candidates, referenced, young, lost,
          fun kept => congrArg (batch.map (·.key) :: ·) (all kept)⟩

/-- Every batch is sent at a turn at which the node leads. -/
theorem deleteBatches_led (batches : List (List GcBlobObject)) (turn : Nat) (stats : GcStatus) :
    ∀ index < (deleteBatches meets turn batches stats).2.length,
      meets.stillLeader (turn + index) = true := by
  induction batches generalizing turn stats with
  | nil => exact fun index impossible => absurd impossible (Nat.not_lt_zero index)
  | cons batch rest inductionHypothesis =>
    rw [deleteBatches]
    split
    · exact fun index impossible => absurd impossible (Nat.not_lt_zero index)
    · rename_i leads
      have first : meets.stillLeader turn = true := not_not.mp leads
      dsimp only
      cases answer : meets.deleteBlobBatch turn (batch.map (·.key)) with
      | error error =>
        intro index small
        obtain rfl := Nat.lt_one_iff.mp small
        exact first
      | ok outcome =>
        intro index small
        cases index with
        | zero => exact first
        | succ index =>
          rw [← Nat.succ_add_eq_add_succ]
          exact inductionHypothesis (turn + 1) _ index (Nat.lt_of_succ_lt_succ small)

end Sweep

/-- The counts of a sweep balance, and it sends the keys of the unused objects: none in a dry run,
all of them when it ends as the leader, and those of the first batches when it stops leading or
the store fails. Whenever it sends a batch it leads. -/
structure SweepAccounts (config : GcConfig) (meets : SweepMeets) (objects : List GcBlobObject)
    (outcome : Except LayerhouseError GcStatus × List (List String)) : Prop where
  counted : ∀ stats, outcome.1 = .ok stats → stats.scanned = objects.length ∧
    stats.scanned = stats.skippedReferenced + stats.skippedYoung + stats.candidates
  selected : ∀ stats, outcome.1 = .ok stats →
    stats.candidates = (objects.filter (unusedSince config meets)).length
  batches : outcome.2 <+:
    chunks deleteBatchSize ((objects.filter (unusedSince config meets)).map (·.key))
  complete : ∀ stats, outcome.1 = .ok stats → stats.leadershipLost = false →
    config.dryRun = false →
      outcome.2.flatten = (objects.filter (unusedSince config meets)).map (·.key)
  lost : ∀ stats, outcome.1 = .ok stats → stats.leadershipLost = true →
    ∃ turn, meets.stillLeader turn = false
  failed : ∀ error, outcome.1 = .error error →
    ∃ turn keys, meets.deleteBlobBatch turn keys = .error error
  dry : config.dryRun = true → outcome.2 = []
  once : (objects.map (·.key)).Nodup → outcome.2.flatten.Nodup
  led : ∀ turn < outcome.2.length, meets.stillLeader turn = true

theorem sweep_accounts (config : GcConfig) (meets : SweepMeets) (objects : List GcBlobObject) :
    SweepAccounts config meets objects (runGcSweep config meets (.ok objects)) := by
  have balanced := @selection_balanced config meets objects
  have distinct (sent : List (List String))
      (starts : sent <+:
        chunks deleteBatchSize ((objects.filter (unusedSince config meets)).map (·.key)))
      (nodup : (objects.map (·.key)).Nodup) : sent.flatten.Nodup := by
    have flat : ((objects.filter (unusedSince config meets)).map (·.key)).Nodup :=
      nodup.sublist (List.filter_sublist.map _)
    obtain ⟨later, split⟩ := starts
    rw [← flatten_chunks deleteBatchSize ((objects.filter _).map _), ← split,
      List.flatten_append] at flat
    exact flat.of_append_left
  simp only [runGcSweep]
  rw [finalCheck_selected]
  split
  · rename_i dry
    refine ⟨?_, ?_, List.nil_prefix, ?_, ?_, nofun, fun _ => rfl, fun _ => List.nodup_nil,
      fun turn impossible => absurd impossible (Nat.not_lt_zero turn)⟩
    · rintro _ ⟨⟩
      exact ⟨rfl, balanced⟩
    · rintro _ ⟨⟩
      rfl
    · intro _ _ _ live
      rw [dry] at live
      cases live
    · rintro _ ⟨⟩ impossible
      cases impossible
  · rename_i live
    obtain ⟨sent, failed, ended⟩ := deleteBatches_sent _ _ _
    rw [← map_chunks] at sent
    refine ⟨fun stats result => ?_, fun stats result => (ended stats result).2.1, sent,
      fun stats result kept _ => ?_, fun stats result gone => ?_, failed,
      fun dry => absurd dry live, distinct _ sent, fun turn inTime => ?_⟩
    · obtain ⟨scanned, candidates, referenced, young, _⟩ := ended stats result
      rw [scanned, candidates, referenced, young]
      exact ⟨rfl, balanced⟩
    · rw [(ended stats result).2.2.2.2.2 kept, ← map_chunks, flatten_chunks]
    · exact ((ended stats result).2.2.2.2.1 gone).resolve_left nofun
    · have led := deleteBatches_led _ _ _ turn inTime
      rwa [Nat.zero_add] at led

end Layerhouse
