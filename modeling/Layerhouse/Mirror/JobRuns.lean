/-
This file is the history of the sync jobs: the runs that `raft/state_machine.rs` records for each
job, and the events that a run records of itself with the `mark_*` methods of
`store/metadata/types.rs`. Both are histories of the library that keep the newest fifty, the runs
with their ids as keys.

A run is reported again whenever it changes. A report of a run that has left the history in the
meantime is that of a new run, and the run comes in again at the end.
-/

import Layerhouse.Library.Histories
import Layerhouse.Raft.Effects

namespace Layerhouse

/-! ### The reports of a run -/

def maxSyncRunEvents : Nat := 50

def defaultSyncRunPhase : String :=
  "Queued"

namespace SyncJobRun

def running (id jobId nodeId : String) (startedAt : Nat) : SyncJobRun where
  id := id
  jobId := jobId
  nodeId := nodeId
  startedAt := startedAt
  finishedAt := none
  status := .running
  phase := defaultSyncRunPhase
  totalTags := 0
  completedTags := 0
  currentTag := none
  updatedAt := startedAt
  recentEvents := []
  tagsSynced := []
  tagsFailed := []

def pushEvent (run : SyncJobRun) (kind : SyncRunEventKind) (tag : Option String)
    (message : String) (occurredAt : Nat) : SyncJobRun :=
  let events := run.recentEvents ++ [⟨occurredAt, kind, tag, message⟩]
  { run with
    recentEvents :=
      if maxSyncRunEvents < events.length then events.drop (events.length - maxSyncRunEvents)
      else events }

def markResolutionStarted (run : SyncJobRun) (now : Nat) : SyncJobRun :=
  { run with
    phase := "Resolving tags"
    currentTag := none
    updatedAt := now }.pushEvent .info none "Resolving job target" now

def markResolutionFinished (run : SyncJobRun) (totalTags now : Nat) : SyncJobRun :=
  { run with
    totalTags := totalTags
    completedTags := 0
    currentTag := none
    phase := if totalTags = 0 then "No tags resolved" else "Syncing tags"
    updatedAt := now }.pushEvent .info none ("Resolved " ++ toString totalTags ++ " tags") now

def markResolutionFailed (run : SyncJobRun) (message : String) (now : Nat) : SyncJobRun :=
  { run with
    totalTags := 0
    completedTags := 0
    currentTag := none
    phase := "Resolve failed"
    updatedAt := now }.pushEvent .error none message now

def markTagStarted (run : SyncJobRun) (tag phase : String) (now : Nat) : SyncJobRun :=
  { run with
    phase := phase
    currentTag := some tag
    updatedAt := now }.pushEvent .info (some tag) "Started tag sync" now

def markTagFinished (run : SyncJobRun) (tag : String) (kind : SyncRunEventKind)
    (message : String) (completedTags now : Nat) : SyncJobRun :=
  { run with
    completedTags := min completedTags run.totalTags
    currentTag := some tag
    updatedAt := now }.pushEvent kind (some tag) message now

def finishedPhase : SyncRunStatus → String
  | .running => "Running"
  | .succeeded => "Succeeded"
  | .partialFailure => "Partial failure"
  | .failed => "Failed"

def finishedKind : SyncRunStatus → SyncRunEventKind
  | .succeeded => .success
  | .partialFailure => .warning
  | .failed => .error
  | .running => .info

def markFinished (run : SyncJobRun) (status : SyncRunStatus) (tagsSynced : List String)
    (tagsFailed : List (String × String)) (now : Nat) : SyncJobRun :=
  { run with
    finishedAt := some now
    status := status
    phase := finishedPhase status
    currentTag := none
    updatedAt := now
    completedTags :=
      if run.totalTags = 0 then 0
      else min (tagsSynced.length + tagsFailed.length) run.totalTags
    tagsSynced := tagsSynced
    tagsFailed := tagsFailed }.pushEvent (finishedKind status) none (finishedPhase status) now

end SyncJobRun

/-- A call of one of the `mark_*` methods. -/
inductive MarkCall where
  | resolutionStarted (now : Nat)
  | resolutionFinished (totalTags now : Nat)
  | resolutionFailed (message : String) (now : Nat)
  | tagStarted (tag phase : String) (now : Nat)
  | tagFinished (tag : String) (kind : SyncRunEventKind) (message : String)
      (completedTags now : Nat)
  | finished (status : SyncRunStatus) (tagsSynced : List String)
      (tagsFailed : List (String × String)) (now : Nat)

namespace MarkCall

def mark (run : SyncJobRun) : MarkCall → SyncJobRun
  | resolutionStarted now => run.markResolutionStarted now
  | resolutionFinished totalTags now => run.markResolutionFinished totalTags now
  | resolutionFailed message now => run.markResolutionFailed message now
  | tagStarted tag phase now => run.markTagStarted tag phase now
  | tagFinished tag kind message completedTags now =>
    run.markTagFinished tag kind message completedTags now
  | finished status tagsSynced tagsFailed now =>
    run.markFinished status tagsSynced tagsFailed now

/-- What a call has to record, whatever the run. -/
def event : MarkCall → SyncRunEvent
  | resolutionStarted now => ⟨now, .info, none, "Resolving job target"⟩
  | resolutionFinished totalTags now =>
    ⟨now, .info, none, "Resolved " ++ toString totalTags ++ " tags"⟩
  | resolutionFailed message now => ⟨now, .error, none, message⟩
  | tagStarted tag _ now => ⟨now, .info, some tag, "Started tag sync"⟩
  | tagFinished tag kind message _ now => ⟨now, kind, some tag, message⟩
  | finished status _ _ now =>
    ⟨now, SyncJobRun.finishedKind status, none, SyncJobRun.finishedPhase status⟩

end MarkCall

theorem recentEvents_pushEvent (run : SyncJobRun) (kind : SyncRunEventKind) (tag : Option String)
    (message : String) (occurredAt : Nat) :
    (run.pushEvent kind tag message occurredAt).recentEvents =
      Histories.push maxSyncRunEvents run.recentEvents ⟨occurredAt, kind, tag, message⟩ := by
  rw [SyncJobRun.pushEvent, Histories.push, Histories.newest]
  simp only
  split
  · rfl
  · rename_i fits
    rw [Nat.sub_eq_zero_of_le (Nat.le_of_not_lt fits), List.drop_zero]

/-- Each call adds its event to the history of the run. -/
theorem recentEvents_mark (run : SyncJobRun) (call : MarkCall) :
    (call.mark run).recentEvents =
      Histories.push maxSyncRunEvents run.recentEvents call.event := by
  cases call with
  | resolutionStarted now => exact recentEvents_pushEvent ..
  | resolutionFinished totalTags now => exact recentEvents_pushEvent ..
  | resolutionFailed message now => exact recentEvents_pushEvent ..
  | tagStarted tag phase now => exact recentEvents_pushEvent ..
  | tagFinished tag kind message completedTags now => exact recentEvents_pushEvent ..
  | finished status tagsSynced tagsFailed now => exact recentEvents_pushEvent ..

/-- No call makes the run complete more tags than it has. -/
theorem completedTags_mark_le {run : SyncJobRun} (call : MarkCall)
    (bounded : run.completedTags ≤ run.totalTags) :
    (call.mark run).completedTags ≤ (call.mark run).totalTags := by
  cases call with
  | resolutionStarted now => exact bounded
  | resolutionFinished totalTags now => exact Nat.zero_le totalTags
  | resolutionFailed message now => exact Nat.le_refl 0
  | tagStarted tag phase now => exact bounded
  | tagFinished tag kind message completedTags now => exact Nat.min_le_right _ _
  | finished status tagsSynced tagsFailed now =>
    have clamped : (if run.totalTags = 0 then 0
        else min (tagsSynced.length + tagsFailed.length) run.totalTags) ≤ run.totalTags := by
      split
      · exact Nat.zero_le _
      · exact Nat.min_le_right _ _
    exact clamped

/-- After any calls a run holds the newest of the events they recorded. -/
theorem recentEvents_marked (run : SyncJobRun) (calls : List MarkCall) :
    (calls.foldl MarkCall.mark run).recentEvents =
      (calls.map MarkCall.event).foldl (Histories.push maxSyncRunEvents) run.recentEvents := by
  induction calls generalizing run with
  | nil => rfl
  | cons call calls inductionHypothesis =>
    rw [List.foldl_cons, inductionHypothesis, recentEvents_mark, List.map_cons, List.foldl_cons]

theorem completedTags_marked_le {run : SyncJobRun} (calls : List MarkCall)
    (bounded : run.completedTags ≤ run.totalTags) :
    (calls.foldl MarkCall.mark run).completedTags ≤
      (calls.foldl MarkCall.mark run).totalTags := by
  induction calls generalizing run with
  | nil => exact bounded
  | cons call calls inductionHypothesis =>
    exact inductionHypothesis (completedTags_mark_le call bounded)

/-! ### The runs of a job -/

theorem recordRun_eq_put (runs : List SyncJobRun) (sent : SyncJobRun) :
    recordRun runs sent = Histories.put 50 (·.id) runs sent :=
  rfl

/-- The runs of a job with at most fifty of them, no two with one id. -/
abbrev RunsKept (runs : List SyncJobRun) : Prop :=
  Histories.Kept 50 (·.id) runs

/-- A report changes the runs of its job only as it should: it replaces the run with its id where
that is, and a new run is added behind the others, of which the oldest leaves if there are fifty. -/
structure RunRecorded (runs : List SyncJobRun) (sent : SyncJobRun) (next : List SyncJobRun) :
    Prop where
  replaced : ∀ before known after, runs = before ++ known :: after → known.id = sent.id →
    next = before ++ sent :: after
  added : (∀ known ∈ runs, known.id ≠ sent.id) →
    next = if runs.length < 50 then runs ++ [sent] else runs.tail ++ [sent]

theorem recordRun_recorded {runs : List SyncJobRun} (kept : RunsKept runs) (sent : SyncJobRun) :
    RunRecorded runs sent (recordRun runs sent) where
  replaced := by
    rintro before known after rfl same
    exact Histories.put_of_known kept.distinct same
  added := by
    intro fresh
    rw [recordRun_eq_put, Histories.put_of_new fresh]
    exact Histories.push_eq kept.length_le (by decide)

theorem runsKept_recorded {data : StateMachineData} {jobId : String}
    (kept : BTreeMap.All RunsKept data.syncJobRuns) :
    RunsKept (data.syncJobRuns[jobId]?.getD []) := by
  cases found : data.syncJobRuns[jobId]? with
  | none => exact Histories.kept_nil
  | some runs => exact kept jobId runs found

theorem applyJob_runsKept {now : Nat} {data : StateMachineData} (request : JobRequest)
    (kept : BTreeMap.All RunsKept data.syncJobRuns) :
    BTreeMap.All RunsKept (applyJob now data request).1.syncJobRuns := by
  cases request with
  | putSyncJob job => exact kept
  | deleteSyncJob id => exact kept.erase
  | claimSyncJob id nodeId =>
    rw [applyJob]
    split
    · exact kept
    · split <;> exact kept
  | triggerSyncJob id =>
    rw [applyJob]
    split
    · exact kept
    · split <;> exact kept
  | putSyncJobRun sent => exact kept.insert ((runsKept_recorded kept).put sent)

theorem requestStep_runsKept {externals : Externals} {data next : StateMachineData}
    {label : Nat × Request} (stepped : requestStep externals data label = some next)
    (kept : BTreeMap.All RunsKept data.syncJobRuns) :
    BTreeMap.All RunsKept next.syncJobRuns := by
  obtain ⟨now, request⟩ := label
  obtain ⟨response, applied⟩ := requestStep_eq_some.mp stepped
  have framed := congrArg StateMachineData.syncJobRuns (applyRequest_frame applied)
  cases request with
  | job inner =>
    cases applied
    exact applyJob_runsKept inner kept
  | manifest inner => exact framed ▸ kept
  | mirrorConfig inner => exact framed ▸ kept
  | token inner => exact framed ▸ kept
  | policy inner => exact framed ▸ kept
  | repository inner => exact framed ▸ kept
  | namespaces inner => exact framed ▸ kept

theorem runsKept_of_reached {externals : Externals} {labels : List (Nat × Request)}
    {data : StateMachineData}
    (reached : run (requestStep externals) StateMachineData.empty labels = some data) :
    BTreeMap.All RunsKept data.syncJobRuns :=
  run_invariant (fun data => BTreeMap.All RunsKept data.syncJobRuns)
    (fun _ _ _ => requestStep_runsKept) reached BTreeMap.all_empty

/-- A report changes the runs of its own job, and no others. -/
theorem putSyncJobRun_step (externals : Externals) {data : StateMachineData}
    (kept : BTreeMap.All RunsKept data.syncJobRuns) (now : Nat) (sent : SyncJobRun) :
    ∃ next, requestStep externals data (now, .job (.putSyncJobRun sent)) = some next ∧
      (∃ runs, next.syncJobRuns[sent.jobId]? = some runs ∧
        RunRecorded (data.syncJobRuns[sent.jobId]?.getD []) sent runs) ∧
      ∀ other, other ≠ sent.jobId → next.syncJobRuns[other]? = data.syncJobRuns[other]? := by
  refine ⟨_, rfl, ?_, ?_⟩
  · refine ⟨recordRun (data.syncJobRuns[sent.jobId]?.getD []) sent, ?_, ?_⟩
    · exact (BTreeMap.getElem?_insert ..).trans (if_pos rfl)
    · exact recordRun_recorded (runsKept_recorded kept) sent
  · intro other different
    exact (BTreeMap.getElem?_insert ..).trans (if_neg different.symm)

/-- A new run, marked in any way, holds the newest of the events and has bounded counters. -/
theorem marked_running (id jobId nodeId : String) (startedAt : Nat) (calls : List MarkCall) :
    let marked := calls.foldl MarkCall.mark (SyncJobRun.running id jobId nodeId startedAt)
    marked.recentEvents = (calls.map MarkCall.event).drop (calls.length - 50) ∧
      marked.completedTags ≤ marked.totalTags := by
  refine ⟨?_, completedTags_marked_le calls (Nat.le_refl 0)⟩
  have filled : (calls.map MarkCall.event).foldl (Histories.push maxSyncRunEvents) [] =
      (calls.map MarkCall.event).drop (calls.length - 50) := by
    rw [Histories.foldl_push_nil, Histories.newest, List.length_map, maxSyncRunEvents]
  exact (recentEvents_marked _ calls).trans filled

/-- In every state that a run of requests reaches, each job has at most fifty runs, no two with
one id, and the next report changes those of its own job only, as it should. A run itself, however
it is marked, holds the newest fifty of its events in their order and never more completed tags
than tags. -/
theorem job_history_bounded (externals : Externals) (labels : List (Nat × Request))
    (data : StateMachineData)
    (reached : run (requestStep externals) StateMachineData.empty labels = some data) :
    (∀ (jobId : String) (runs : List SyncJobRun), data.syncJobRuns[jobId]? = some runs →
      runs.length ≤ 50 ∧ (runs.map (·.id)).Nodup) ∧
    (∀ now sent, ∃ next,
      requestStep externals data (now, .job (.putSyncJobRun sent)) = some next ∧
        (∃ runs, next.syncJobRuns[sent.jobId]? = some runs ∧
          RunRecorded (data.syncJobRuns[sent.jobId]?.getD []) sent runs) ∧
        ∀ other, other ≠ sent.jobId → next.syncJobRuns[other]? = data.syncJobRuns[other]?) ∧
    ∀ (id jobId nodeId : String) (startedAt : Nat) (calls : List MarkCall),
      let marked := calls.foldl MarkCall.mark (SyncJobRun.running id jobId nodeId startedAt)
      marked.recentEvents = (calls.map MarkCall.event).drop (calls.length - 50) ∧
        marked.completedTags ≤ marked.totalTags := by
  have kept := runsKept_of_reached reached
  refine ⟨fun jobId runs found => ?_, putSyncJobRun_step externals kept, marked_running⟩
  exact ⟨(kept jobId runs found).length_le, (kept jobId runs found).distinct⟩

/-- A run that is reported again when it is finished. -/
theorem job_history_bounded_sample :
    ∃ data,
      run (requestStep sampleExternals) StateMachineData.empty
        [(1, .job (.putSyncJobRun (.running "run" "job" "node" 1))),
          (2, .job (.putSyncJobRun
            ((SyncJobRun.running "run" "job" "node" 1).markFinished .succeeded ["latest"] [] 2)))] =
        some data ∧
      ∀ runs : List SyncJobRun, data.syncJobRuns["job"]? = some runs →
        runs.length ≤ 50 ∧ (runs.map (·.id)).Nodup := by
  have reached : run (requestStep sampleExternals) StateMachineData.empty
      [(1, .job (.putSyncJobRun (.running "run" "job" "node" 1))),
        (2, .job (.putSyncJobRun
          ((SyncJobRun.running "run" "job" "node" 1).markFinished .succeeded ["latest"] [] 2)))] =
      some _ := rfl
  exact ⟨_, reached, (job_history_bounded sampleExternals _ _ reached).1 "job"⟩

end Layerhouse
