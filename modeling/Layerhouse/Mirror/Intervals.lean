/-
This file is about how often a scheduled job runs. A run that completes at some time
stores the time at which the job is due again, and nodes claim only jobs that are due.

The record of the completed run also carries the image and the tags that the run
resolved. The next reconciling pass compares them with what the rule asks for, takes
the difference for a change of the rule, and makes the job due at once. The file proves
that a job rests for its interval in every run in which, from its first completion on,
the resolved tags are the ones the rule is labelled with, no write replaces a record
that it was not worked out from, and no claim meets a job that is not due any more.
-/

import Layerhouse.Mirror.Claims

namespace Layerhouse

/-! ### What is scheduled -/

/-- A mirror rule or a proxy cache. -/
inductive ScheduledSource where
  | mirrorRule (rule : MirrorRule)
  | proxyCache (cache : ProxyCache)

namespace ScheduledSource

/-- The job that the reconciling pass wants for the source. -/
def job : ScheduledSource → Nat → Option SyncJob
  | .mirrorRule rule, now => scheduledMirrorJob rule now
  | .proxyCache cache, now => scheduledProxyCacheJob cache now

/-- The source is configured: it is what is listed under its id. -/
def Configured (data : StateMachineData) : ScheduledSource → Prop
  | .mirrorRule rule => rule ∈ data.listMirrorRules ∧
      ∀ listed ∈ data.listMirrorRules, listed.id = rule.id → listed = rule
  | .proxyCache cache => cache ∈ data.listProxyCaches ∧
      ∀ listed ∈ data.listProxyCaches, listed.id = cache.id → listed = cache

instance (data : StateMachineData) : (source : ScheduledSource) →
    Decidable (source.Configured data)
  | .mirrorRule rule => inferInstanceAs (Decidable (rule ∈ data.listMirrorRules ∧
      ∀ listed ∈ data.listMirrorRules, listed.id = rule.id → listed = rule))
  | .proxyCache cache => inferInstanceAs (Decidable (cache ∈ data.listProxyCaches ∧
      ∀ listed ∈ data.listProxyCaches, listed.id = cache.id → listed = cache))

end ScheduledSource

namespace SchedulerSystem

variable {Node : Type}

/-! ### Claims and the interval -/

/-- A claim of the job comes no earlier than its interval after each completion. -/
def KeepsInterval (nodeId : Node → String) (jobId : String) (system : SchedulerSystem Node)
    (label : SchedulerLabel Node) : Prop :=
  system.claims nodeId label = some jobId →
    ∀ completion ∈ system.completions, completion.jobId = jobId → 0 < completion.intervalSecs →
      completion.finishedAt + completion.intervalSecs ≤ system.now

/-- The configuration of the source does not change, and nobody triggers jobs by hand. -/
def Steady (source : ScheduledSource) (system : SchedulerSystem Node)
    (label : SchedulerLabel Node) : Prop :=
  system.Untriggered label ∧ ∀ past ∈ system.history, source.Configured past

/-- A run of the job has completed. -/
def HasCompleted (jobId : String) (system : SchedulerSystem Node) : Prop :=
  ∃ completion ∈ system.completions, completion.jobId = jobId

/-- What a run of the listed job resolves is what the wanted one asks for, and the job is due
again at a time of 64 bits. -/
def ResolvesAsWanted (wanted listed : SyncJob) (resolution : Except String (String × List String))
    (now : Nat) : Prop :=
  listed.kind = wanted.kind ∧ listed.ruleId = wanted.ruleId ∧ listed.ruleName = wanted.ruleName ∧
    (resolvedWork listed resolution).1 = wanted.image ∧
    (resolvedWork listed resolution).2.1 = wanted.tags ∧
    listed.intervalSecs = wanted.intervalSecs ∧ now + listed.intervalSecs < 2 ^ 64

/-- The condition on a step. No warm image has the id of the job, and a run of it resolves what
the source asks for. Once a run has completed, a reconciling or recovering write of the job and
the record of a later run replace the record they were worked out from, and the job is still due
when a claim of it succeeds. -/
def Orderly (nodeId : Node → String) (wanted : SyncJob) (system : SchedulerSystem Node) :
    SchedulerLabel Node → Prop
  | .reconcile .. => ∀ past ∈ system.history, ∀ warm ∈ past.listWarmImages, warm.id ≠ wanted.id
  | .write node => system.HasCompleted wanted.id → ∀ write ∈ system.writes (.write node),
      write.id = wanted.id → write.basis = system.data.syncJobs[wanted.id]?
  | .claim node permit => system.HasCompleted wanted.id →
      system.claims nodeId (.claim node permit) = some wanted.id →
        ∀ stored ∈ system.data.syncJobs[wanted.id]?, stored.nextRunAt ≤ system.now
  | .complete node permit resolution _ => ∀ task ∈ system.tasks (node, permit),
      task.listed.id = wanted.id → ResolvesAsWanted wanted task.listed resolution system.now
  | .finish node permit => system.HasCompleted wanted.id → ∀ task ∈ system.tasks (node, permit),
      task.listed.id = wanted.id → system.data.syncJobs[wanted.id]? = some task.claimed
  | _ => True

instance (nodeId : Node → String) (jobId : String) (system : SchedulerSystem Node)
    (label : SchedulerLabel Node) : Decidable (system.KeepsInterval nodeId jobId label) :=
  inferInstanceAs (Decidable (_ → _))

instance (source : ScheduledSource) (system : SchedulerSystem Node)
    (label : SchedulerLabel Node) : Decidable (system.Steady source label) :=
  inferInstanceAs (Decidable (_ ∧ _))

instance (jobId : String) (system : SchedulerSystem Node) :
    Decidable (system.HasCompleted jobId) :=
  inferInstanceAs (Decidable (∃ completion ∈ system.completions, _))

instance (wanted listed : SyncJob) (resolution : Except String (String × List String))
    (now : Nat) : Decidable (ResolvesAsWanted wanted listed resolution now) :=
  inferInstanceAs (Decidable (_ ∧ _))

instance (nodeId : Node → String) (wanted : SyncJob) (system : SchedulerSystem Node) :
    (label : SchedulerLabel Node) → Decidable (system.Orderly nodeId wanted label)
  | .reconcile .. => inferInstanceAs (Decidable (∀ past ∈ system.history, _))
  | .write _ | .claim .. | .finish .. => inferInstanceAs (Decidable (_ → _))
  | .complete .. => inferInstanceAs (Decidable (∀ task ∈ system.tasks _, _))
  | .tick _ | .other _ | .stamp _ | .failWrite _ | .recover .. | .list .. | .failClaim _
  | .sleep _ | .failFinish .. | .crash _ => isTrue trivial

end SchedulerSystem

/-! ### The wanted job -/

theorem mirrorJobId_inj {first second : String}
    (same : "mirror-rule-" ++ first = "mirror-rule-" ++ second) : first = second :=
  (String.append_right_inj _).mp same

theorem proxyCacheJobId_inj {first second : String}
    (same : "proxy-cache-" ++ first ++ "-warm" = "proxy-cache-" ++ second ++ "-warm") :
    first = second :=
  (String.append_right_inj _).mp ((String.append_left_inj _).mp same)

theorem mirrorJobId_ne_proxyCacheJobId (rule cache : String) :
    "mirror-rule-" ++ rule ≠ "proxy-cache-" ++ cache ++ "-warm" := by
  intro same
  have letters := congrArg (fun text : String => text.toList.head?) same
  simp at letters

namespace ScheduledSource

variable {source : ScheduledSource} {wanted : SyncJob}

/-- The wanted job at another time is the same up to the time at which it is due. -/
theorem job_at (scheduled : source.job 0 = some wanted) (now : Nat) :
    source.job now = some { wanted with nextRunAt := now } := by
  cases source with
  | mirrorRule rule =>
    obtain ⟨interval, parsed, rfl⟩ := Option.map_eq_some_iff.mp scheduled
    exact Option.map_eq_some_iff.mpr ⟨interval, parsed, rfl⟩
  | proxyCache cache =>
    obtain ⟨interval, parsed, rfl⟩ := Option.map_eq_some_iff.mp scheduled
    exact Option.map_eq_some_iff.mpr ⟨interval, parsed, rfl⟩

theorem job_kind (scheduled : source.job 0 = some wanted) : wanted.kind ≠ .legacyWarm := by
  cases source with
  | mirrorRule rule =>
    obtain ⟨interval, _, rfl⟩ := Option.map_eq_some_iff.mp scheduled
    exact SyncJobKind.noConfusion
  | proxyCache cache =>
    obtain ⟨interval, _, rfl⟩ := Option.map_eq_some_iff.mp scheduled
    exact SyncJobKind.noConfusion

/-- A configured source is among the wanted jobs. -/
theorem mem_desiredScheduled {ofRules ofCaches : StateMachineData}
    (inRules : source.Configured ofRules) (inCaches : source.Configured ofCaches)
    (scheduled : source.job 0 = some wanted) (now : Nat) :
    { wanted with nextRunAt := now } ∈
      desiredScheduled ofRules.listMirrorRules ofCaches.listProxyCaches now := by
  have atNow := job_at scheduled now
  cases source with
  | mirrorRule rule =>
    exact List.mem_append_left _ (List.mem_filterMap.mpr ⟨rule, inRules.1, atNow⟩)
  | proxyCache cache =>
    exact List.mem_append_right _ (List.mem_filterMap.mpr ⟨cache, inCaches.1, atNow⟩)

/-- A wanted job with the id of the source's one is that one. -/
theorem eq_of_mem_desiredScheduled {ofRules ofCaches : StateMachineData}
    (inRules : source.Configured ofRules) (inCaches : source.Configured ofCaches)
    (scheduled : source.job 0 = some wanted) {now : Nat} {desired : SyncJob}
    (member : desired ∈ desiredScheduled ofRules.listMirrorRules ofCaches.listProxyCaches now)
    (sameId : desired.id = wanted.id) : desired = { wanted with nextRunAt := now } := by
  have atNow := job_at scheduled now
  rcases List.mem_append.mp member with ofRule | ofCache
  · obtain ⟨listed, inList, found⟩ := List.mem_filterMap.mp ofRule
    cases source with
    | mirrorRule rule =>
      obtain ⟨interval, _, rfl⟩ := Option.map_eq_some_iff.mp scheduled
      have sameRule : listed = rule := by
        refine inRules.2 listed inList ?_
        obtain ⟨_, _, rfl⟩ := Option.map_eq_some_iff.mp found
        exact mirrorJobId_inj sameId
      rw [sameRule] at found
      exact Option.some.inj (found.symm.trans atNow)
    | proxyCache cache =>
      obtain ⟨_, _, rfl⟩ := Option.map_eq_some_iff.mp scheduled
      obtain ⟨_, _, rfl⟩ := Option.map_eq_some_iff.mp found
      exact absurd sameId (mirrorJobId_ne_proxyCacheJobId _ _)
  · obtain ⟨listed, inList, found⟩ := List.mem_filterMap.mp ofCache
    cases source with
    | mirrorRule rule =>
      obtain ⟨_, _, rfl⟩ := Option.map_eq_some_iff.mp scheduled
      obtain ⟨_, _, rfl⟩ := Option.map_eq_some_iff.mp found
      exact absurd sameId.symm (mirrorJobId_ne_proxyCacheJobId _ _)
    | proxyCache cache =>
      obtain ⟨interval, _, rfl⟩ := Option.map_eq_some_iff.mp scheduled
      have sameCache : listed = cache := by
        refine inCaches.2 listed inList ?_
        obtain ⟨_, _, rfl⟩ := Option.map_eq_some_iff.mp found
        exact proxyCacheJobId_inj sameId
      rw [sameCache] at found
      exact Option.some.inj (found.symm.trans atNow)

end ScheduledSource

/-! ### What passes and tasks know about the wanted job -/

theorem SyncJob.Agrees.trans {first second third : SyncJob} (left : first.Agrees second)
    (right : second.Agrees third) : first.Agrees third := by
  obtain ⟨kind, ruleId, ruleName, image, tags, interval⟩ := left
  obtain ⟨kind', ruleId', ruleName', image', tags', interval'⟩ := right
  exact ⟨kind.trans kind', ruleId.trans ruleId', ruleName.trans ruleName', image.trans image',
    tags.trans tags', interval.trans interval'⟩

/-- A reconciling write of the job was worked out from a record that asks for other work, and a
recovering write leaves the work of a running record and makes it due after it was claimed. -/
def SchedulerPass.Keeps (wanted : SyncJob) : SchedulerPass → Prop
  | .reconciling writes => ∀ write ∈ writes, write.id = wanted.id →
      ∀ basis ∈ write.basis, ¬ basis.Agrees wanted
  | .recovering writes => ∀ write ∈ writes, ∃ basis job, write = .put (some basis) job ∧
      basis.status = .running ∧ job.Agrees basis ∧ job.status = .idle ∧
      basis.claimedAt.getD 0 ≤ job.nextRunAt
  | _ => True

theorem SchedulerPass.Keeps.tail_reconciling {wanted : SyncJob} {write : JobWrite}
    {rest : List JobWrite} (keeps : (SchedulerPass.reconciling (write :: rest)).Keeps wanted) :
    (SchedulerPass.reconciling rest).Keeps wanted :=
  fun other member => keeps other (List.mem_cons_of_mem write member)

theorem SchedulerPass.Keeps.tail_recovering {wanted : SyncJob} {write : JobWrite}
    {rest : List JobWrite} (keeps : (SchedulerPass.recovering (write :: rest)).Keeps wanted) :
    (SchedulerPass.recovering rest).Keeps wanted :=
  fun other member => keeps other (List.mem_cons_of_mem write member)

theorem findJob_id {jobs : List SyncJob} {id : String} {job : SyncJob}
    (found : findJob jobs id = some job) : job.id = id := by
  have selected := List.find?_some found
  exact of_decide_eq_true selected

theorem reconcileScheduled_keeps {jobs : List SyncJob} {wanted : SyncJob} {now : Nat}
    {write : JobWrite}
    (planned : reconcileScheduled jobs { wanted with nextRunAt := now } = some write) :
    ∀ basis ∈ write.basis, ¬ basis.Agrees wanted := by
  intro basis based
  rw [reconcileScheduled] at planned
  split at planned
  · obtain ⟨updated, reconciled, rfl⟩ := Option.map_eq_some_iff.mp planned
    obtain rfl := Option.some.inj based
    obtain ⟨_, reconciled⟩ := Option.ite_none_left_eq_some.mp reconciled
    exact (Option.ite_none_right_eq_some.mp reconciled).1
  · obtain rfl := Option.some.inj planned
    cases based

theorem reconcileScheduled_id {jobs : List SyncJob} {desired : SyncJob} {write : JobWrite}
    (planned : reconcileScheduled jobs desired = some write) : write.id = desired.id := by
  rw [reconcileScheduled] at planned
  split at planned
  · obtain ⟨updated, reconciled, rfl⟩ := Option.map_eq_some_iff.mp planned
    obtain ⟨_, reconciled⟩ := Option.ite_none_left_eq_some.mp reconciled
    obtain ⟨_, same⟩ := Option.ite_none_right_eq_some.mp reconciled
    obtain rfl := Option.some.inj same
    rfl
  · obtain rfl := Option.some.inj planned
    rfl

theorem reconcileWarm_id {jobs : List SyncJob} {warm : WarmImage} {write : JobWrite}
    (planned : reconcileWarm jobs warm = some write) : write.id = warm.id := by
  rw [reconcileWarm] at planned
  split at planned
  · rename_i existing found
    obtain ⟨_, planned⟩ := Option.ite_none_left_eq_some.mp planned
    obtain ⟨_, same⟩ := Option.ite_none_right_eq_some.mp planned
    obtain rfl := Option.some.inj same
    have existingId := findJob_id found
    exact existingId
  · obtain rfl := Option.some.inj planned
    rfl

/-- A reconciling pass over a steady configuration writes the wanted job only when its record asks
for other work. -/
theorem reconcileJobs_keeps {source : ScheduledSource} {wanted : SyncJob}
    {ofWarm ofRules ofCaches ofJobs : StateMachineData} (scheduled : source.job 0 = some wanted)
    (cold : ∀ warm ∈ ofWarm.listWarmImages, warm.id ≠ wanted.id)
    (inRules : source.Configured ofRules) (inCaches : source.Configured ofCaches) (now : Nat) :
    (SchedulerPass.reconciling (reconcileJobs ofWarm.listWarmImages ofRules.listMirrorRules
      ofCaches.listProxyCaches ofJobs.listSyncJobs now)).Keeps wanted := by
  intro write member sameId
  rcases List.mem_append.mp member with early | deleted
  · rcases List.mem_append.mp early with ofDesired | warmed
    · obtain ⟨desired, inDesired, planned⟩ := List.mem_filterMap.mp ofDesired
      have desiredId := (reconcileScheduled_id planned).symm.trans sameId
      rw [ScheduledSource.eq_of_mem_desiredScheduled inRules inCaches scheduled inDesired
        desiredId] at planned
      exact reconcileScheduled_keeps planned
    · obtain ⟨warm, inWarm, planned⟩ := List.mem_filterMap.mp warmed
      exact absurd ((reconcileWarm_id planned).symm.trans sameId) (cold warm inWarm)
  · obtain ⟨job, _, planned⟩ := List.mem_filterMap.mp deleted
    obtain ⟨⟨_, unwanted⟩, planned⟩ := Option.ite_none_right_eq_some.mp planned
    obtain rfl := Option.some.inj planned
    intro basis based agrees
    obtain rfl := Option.some.inj based
    rcases unwanted with ⟨legacy, _⟩ | ⟨_, _, missing⟩
    · exact ScheduledSource.job_kind scheduled (agrees.1.symm.trans legacy)
    · exact missing _ (ScheduledSource.mem_desiredScheduled inRules inCaches scheduled now)
        sameId.symm

theorem recoverStaleJobs_keeps (wanted : SyncJob) (jobs : List SyncJob) (now : Nat) :
    (SchedulerPass.recovering (recoverStaleJobs jobs now)).Keeps wanted := by
  intro write member
  obtain ⟨job, _, planned⟩ := List.mem_filterMap.mp member
  obtain ⟨running, planned⟩ := Option.ite_none_left_eq_some.mp planned
  obtain ⟨stale, planned⟩ := Option.ite_none_right_eq_some.mp planned
  obtain rfl := Option.some.inj planned
  refine ⟨job, _, rfl, not_not.mp running, ⟨rfl, rfl, rfl, rfl, rfl, rfl⟩, rfl, ?_⟩
  show job.claimedAt.getD 0 ≤ now
  omega

/-- What holds of a task. When it is about the wanted job and ready to end, its record asks for
the wanted work and is due an interval after it ended. -/
structure SyncTask.Keeps (wanted : SyncJob) (now : Nat) (task : SyncTask) : Prop where
  running : task.claimed.status = .running
  claimedAt : task.claimed.claimedAt.getD 0 ≤ now
  recordId : ∀ record, task.stage = .completing record → record.id = task.listed.id
  record : task.listed.id = wanted.id → ∀ record, task.stage = .completing record →
    record.Agrees wanted ∧ record.status = .idle ∧
      task.claimed.claimedAt.getD 0 ≤ record.lastRunAt.getD 0 ∧
      (0 < record.intervalSecs →
        record.nextRunAt = record.lastRunAt.getD 0 + record.intervalSecs)

theorem SyncTask.Keeps.later {wanted : SyncJob} {now time : Nat} {task : SyncTask}
    (keeps : task.Keeps wanted now) (later : now ≤ time) : task.Keeps wanted time :=
  ⟨keeps.running, keeps.claimedAt.trans later, keeps.recordId, keeps.record⟩

/-- The record of a run that resolves what is wanted. -/
theorem completedJob_keeps {wanted listed claimed : SyncJob}
    {resolution : Except String (String × List String)} {now : Nat}
    (keeps : SyncTask.Keeps wanted now ⟨listed, claimed, .executing⟩)
    (resolves : listed.id = wanted.id →
      SchedulerSystem.ResolvesAsWanted wanted listed resolution now)
    (syncTag : String → Option String) :
    SyncTask.Keeps wanted now
      ⟨listed, claimed, .completing (completedJob listed resolution syncTag now)⟩ where
  running := keeps.running
  claimedAt := keeps.claimedAt
  recordId := by
    intro record same
    cases same
    rfl
  record := by
    intro sameId record same
    cases same
    obtain ⟨kind, ruleId, ruleName, image, tags, interval, small⟩ := resolves sameId
    refine ⟨⟨kind, ruleId, ruleName, image, tags, interval⟩, rfl, keeps.claimedAt, ?_⟩
    intro positive
    exact (if_neg (Nat.ne_of_gt positive)).trans (Nat.mod_eq_of_lt small)

/-! ### The stored job after a completion -/

/-- The stored record after a completion: it asks for the wanted work, it is due no earlier than
an interval after the completion, and it was due when it was claimed. -/
structure SyncJob.Rests (stored wanted : SyncJob) (completion : Completion) : Prop where
  interval : completion.intervalSecs = wanted.intervalSecs
  agrees : stored.Agrees wanted
  due : 0 < completion.intervalSecs →
    completion.finishedAt + completion.intervalSecs ≤ stored.nextRunAt
  claimed : stored.status = .running → stored.nextRunAt ≤ stored.claimedAt.getD 0

structure SchedulerSystem.Rested {Node : Type} (wanted : SyncJob)
    (system : SchedulerSystem Node) : Prop where
  passes : ∀ node, (system.passes node).Keeps wanted
  tasks : ∀ place task, system.tasks place = some task → task.Keeps wanted system.now
  rests : ∀ completion ∈ system.completions, completion.jobId = wanted.id →
    ∃ stored, system.data.syncJobs[wanted.id]? = some stored ∧ stored.Rests wanted completion

namespace SchedulerSystem.Rested

variable {Node : Type} {wanted : SyncJob} {system : SchedulerSystem Node}

theorem start (wanted : SyncJob) (data : StateMachineData) (now : Nat) :
    (SchedulerSystem.start data now : SchedulerSystem Node).Rested wanted where
  passes := fun _ => trivial
  tasks := fun _ _ impossible => by cases impossible
  rests := fun _ impossible => by cases impossible

/-- A commit after which the stored job still rests. -/
theorem commit (rested : system.Rested wanted) {next : StateMachineData}
    (keeps : system.HasCompleted wanted.id → ∀ stored,
      system.data.syncJobs[wanted.id]? = some stored →
        ∃ new, next.syncJobs[wanted.id]? = some new ∧
          ∀ completion, stored.Rests wanted completion → new.Rests wanted completion) :
    (system.commit next).Rested wanted where
  passes := rested.passes
  tasks := rested.tasks
  rests := by
    intro completion member sameId
    obtain ⟨stored, found, rests⟩ := rested.rests completion member sameId
    obtain ⟨new, foundNew, kept⟩ := keeps ⟨completion, member, sameId⟩ stored found
    exact ⟨new, foundNew, kept completion rests⟩

/-- A commit that leaves the job. -/
theorem commit_of_same (rested : system.Rested wanted) {next : StateMachineData}
    (same : next.syncJobs[wanted.id]? = system.data.syncJobs[wanted.id]?) :
    (system.commit next).Rested wanted :=
  rested.commit fun _ stored found => ⟨stored, same.trans found, fun _ rests => rests⟩

/-- A reconciling write that was worked out from the stored record is about another job. -/
theorem commitReconciled (rested : system.Rested wanted) {nodeId : Node → String} {node : Node}
    {write : JobWrite} {rest : List JobWrite} {request : JobRequest}
    (pass : system.passes node = .reconciling (write :: rest))
    (requested : write.request = some request)
    (orderly : system.Orderly nodeId wanted (.write node)) :
    (system.commitJob request).Rested wanted := by
  have writes : system.writes (.write node) = some write := by
    rw [SchedulerSystem.writes, pass]
  have keeps := rested.passes node
  rw [pass] at keeps
  refine rested.commit fun completed stored found => ?_
  by_cases sameId : write.id = wanted.id
  · have based := orderly completed write writes sameId
    rw [found] at based
    obtain ⟨completion, member, ofJob⟩ := completed
    obtain ⟨other, foundOther, rests⟩ := rested.rests completion member ofJob
    obtain rfl := Option.some.inj (found.symm.trans foundOther)
    exact absurd rests.agrees (keeps write List.mem_cons_self sameId stored based)
  · have same := JobWrite.request_getElem? requested system.now system.data sameId
    exact ⟨stored, same.trans found, fun _ rests => rests⟩

/-- A recovering write that was worked out from the stored record makes it due later. -/
theorem commitRecovered (rested : system.Rested wanted) {nodeId : Node → String} {node : Node}
    {write : JobWrite} {rest : List JobWrite} {request : JobRequest}
    (pass : system.passes node = .recovering (write :: rest))
    (requested : write.request = some request)
    (orderly : system.Orderly nodeId wanted (.write node)) :
    (system.commitJob request).Rested wanted := by
  have writes : system.writes (.write node) = some write := by
    rw [SchedulerSystem.writes, pass]
  have keeps := rested.passes node
  rw [pass] at keeps
  obtain ⟨basis, job, rfl, running, agrees, idle, later⟩ := keeps write List.mem_cons_self
  refine rested.commit fun completed stored found => ?_
  by_cases sameId : job.id = wanted.id
  · have based := orderly completed _ writes sameId
    obtain rfl := Option.some.inj (based.trans found)
    obtain rfl := Option.some.inj requested
    refine ⟨job, (BTreeMap.getElem?_insert ..).trans (if_pos sameId), fun completion rests => ?_⟩
    have claimed := rests.claimed running
    refine ⟨rests.interval, agrees.trans rests.agrees, fun positive => ?_, fun impossible => ?_⟩
    · exact ((rests.due positive).trans claimed).trans later
    · rw [idle] at impossible
      cases impossible
  · have same := JobWrite.request_getElem? requested system.now system.data sameId
    exact ⟨stored, same.trans found, fun _ rests => rests⟩

/-- A claim of the rested job that is still due comes after its interval. -/
theorem keepsInterval (rested : system.Rested wanted) {nodeId : Node → String}
    {label : SchedulerLabel Node} (orderly : system.Orderly nodeId wanted label) :
    system.KeepsInterval nodeId wanted.id label := by
  intro claims completion member ofJob positive
  obtain ⟨stored, found, rests⟩ := rested.rests completion member ofJob
  cases label with
  | claim node permit =>
    have due := orderly ⟨completion, member, ofJob⟩ claims stored found
    exact (rests.due positive).trans due
  | _ => cases claims

variable [DecidableEq Node]

theorem setPass (rested : system.Rested wanted) (node : Node) {pass : SchedulerPass}
    (keeps : pass.Keeps wanted) : (system.setPass node pass).Rested wanted where
  passes := by
    intro other
    simp only [SchedulerSystem.setPass, Function.update_apply]
    split
    · exact keeps
    · exact rested.passes other
  tasks := rested.tasks
  rests := rested.rests

theorem setTask (rested : system.Rested wanted) (place : Node × Fin maxConcurrentJobs)
    {task : Option SyncTask} (keeps : ∀ kept, task = some kept → kept.Keeps wanted system.now) :
    (system.setTask place task).Rested wanted where
  passes := rested.passes
  tasks := by
    intro other otherTask found
    simp only [SchedulerSystem.setTask, Function.update_apply] at found
    split at found
    · exact keeps otherTask found
    · exact rested.tasks other otherTask found
  rests := rested.rests

/-- The claim of a job that is due leaves the time at which it is due. -/
theorem claimJob (rested : system.Rested wanted) (nodeId : Node → String) {node : Node}
    {permit : Fin maxConcurrentJobs} {job : SyncJob} {rest : List SyncJob} {reading : Nat}
    (pass : system.passes node = .claiming (job :: rest) reading)
    (free : system.tasks (node, permit) = none)
    (orderly : system.Orderly nodeId wanted (.claim node permit)) :
    (system.claimJob nodeId node permit job).Rested wanted := by
  rcases system.claimJob_cases nodeId node permit job with
    ⟨stored, next, record, found, idle, applied, rfl, inserted, claimed⟩ | refused
  · have claims : system.claims nodeId (.claim node permit) = some job.id := by
      rw [SchedulerSystem.claims, pass, free]
      exact if_pos (by rw [applied])
    rw [claimed]
    refine setTask (rested.commit fun completed before foundBefore => ?_) (node, permit) ?_
    · by_cases sameId : job.id = wanted.id
      · rw [sameId] at found claims
        obtain rfl := Option.some.inj (found.symm.trans foundBefore)
        have due := orderly completed claims stored found
        refine ⟨_, (inserted wanted.id).trans (if_pos sameId), fun completion rests => ?_⟩
        exact ⟨rests.interval, rests.agrees, rests.due, fun _ => due⟩
      · refine ⟨before, ?_, fun _ rests => rests⟩
        exact ((inserted wanted.id).trans (if_neg sameId)).trans foundBefore
    · intro kept same
      obtain rfl := Option.some.inj same
      refine ⟨rfl, Nat.le_refl _, fun record impossible => ?_, fun _ record impossible => ?_⟩
      · cases impossible
      · cases impossible
  · rw [refused]
    exact rested.commit_of_same rfl

/-- The record of a run that ends: earlier completions are older than the claim of the run. -/
theorem finish (rested : system.Rested wanted) {nodeId : Node → String} {node : Node}
    {permit : Fin maxConcurrentJobs} {listed claimed record : SyncJob}
    (completing : system.tasks (node, permit) = some ⟨listed, claimed, .completing record⟩)
    (orderly : system.Orderly nodeId wanted (.finish node permit)) :
    ({ (system.setTask (node, permit) none).commitJob (.putSyncJob record) with
      completions :=
        ⟨record.id, record.lastRunAt.getD 0, record.intervalSecs⟩ :: system.completions } :
      SchedulerSystem Node).Rested wanted := by
  have ended : (system.setTask (node, permit) none).Rested wanted :=
    rested.setTask _ fun _ impossible => by cases impossible
  refine ⟨ended.passes, ended.tasks, ?_⟩
  have keeps := rested.tasks _ _ completing
  have recordId : record.id = listed.id := keeps.recordId record rfl
  intro completion member ofJob
  by_cases sameId : listed.id = wanted.id
  · obtain ⟨agrees, idle, after, due⟩ := keeps.record sameId record rfl
    have interval : record.intervalSecs = wanted.intervalSecs := agrees.2.2.2.2.2
    refine ⟨record, (BTreeMap.getElem?_insert ..).trans (if_pos (recordId.trans sameId)), ?_⟩
    have unclaimed : record.status = .running → record.nextRunAt ≤ record.claimedAt.getD 0 := by
      intro running
      rw [idle] at running
      cases running
    rcases List.mem_cons.mp member with rfl | earlier
    · exact ⟨interval, agrees, fun positive => (due positive).ge, unclaimed⟩
    · obtain ⟨stored, found, rests⟩ := rested.rests completion earlier ofJob
      have based := orderly ⟨completion, earlier, ofJob⟩ _ completing sameId
      obtain rfl := Option.some.inj (based.symm.trans found)
      refine ⟨rests.interval, agrees, fun positive => ?_, unclaimed⟩
      have claimedDue := rests.claimed keeps.running
      have rested := rests.due positive
      rw [rests.interval, ← interval] at positive
      rw [due positive]
      exact ((rested.trans claimedDue).trans after).trans (Nat.le_add_right ..)
  · have other : record.id ≠ wanted.id := fun same => sameId (recordId.symm.trans same)
    rcases List.mem_cons.mp member with rfl | earlier
    · exact absurd ofJob other
    · obtain ⟨stored, found, rests⟩ := rested.rests completion earlier ofJob
      exact ⟨stored, ((BTreeMap.getElem?_insert ..).trans (if_neg other)).trans found, rests⟩

theorem step (rested : system.Rested wanted) {source : ScheduledSource}
    (scheduled : source.job 0 = some wanted) {externals : Externals} {nodeId : Node → String}
    {label : SchedulerLabel Node} {next : SchedulerSystem Node}
    (stepped : schedulerStep externals nodeId system label = some next)
    (steady : system.Steady source label) (orderly : system.Orderly nodeId wanted label) :
    next.Rested wanted := by
  cases schedulerStep_move stepped with
  | tick later =>
    exact ⟨rested.passes, fun place task found => (rested.tasks place task found).later later,
      rested.rests⟩
  | other foreign applied =>
    have jobs := requestStep_syncJobs foreign steady.1 applied
    exact rested.commit_of_same (by rw [jobs])
  | reconcile warm rules caches jobs =>
    have cold := orderly _ warm
    have inRules := steady.2 _ rules
    have inCaches := steady.2 _ caches
    exact rested.setPass _ (reconcileJobs_keeps scheduled cold inRules inCaches system.now)
  | @stamp node warm rest pass =>
    have keeps := rested.passes node
    rw [pass] at keeps
    refine rested.setPass node fun write member => ?_
    rcases List.mem_cons.mp member with rfl | later
    · intro _ basis impossible
      cases impossible
    · exact keeps.tail_reconciling write later
  | @reconcileWrite node write rest request pass requested =>
    have keeps := rested.passes node
    rw [pass] at keeps
    exact (rested.commitReconciled pass requested orderly).setPass node keeps.tail_reconciling
  | @recoverWrite node write rest request pass requested =>
    have keeps := rested.passes node
    rw [pass] at keeps
    exact (rested.commitRecovered pass requested orderly).setPass node keeps.tail_recovering
  | failReconcile => exact rested.setPass _ trivial
  | failRecover => exact rested.setPass _ fun write member => by cases member
  | recover jobs => exact rested.setPass _ (recoverStaleJobs_keeps wanted _ _)
  | list jobs => exact rested.setPass _ trivial
  | claim pass free => exact (rested.claimJob nodeId pass free orderly).setPass _ trivial
  | failClaim pass => exact rested.setPass _ trivial
  | sleep => exact rested.setPass _ trivial
  | complete executing =>
    have keeps := rested.tasks _ _ executing
    refine rested.setTask _ fun kept same => ?_
    obtain rfl := Option.some.inj same
    exact completedJob_keeps keeps (orderly _ executing) _
  | finish completing => exact rested.finish completing orderly
  | failFinish => exact rested.setTask _ fun _ impossible => by cases impossible
  | @crash node =>
    have asleep : (system.setPass node .sleeping).Rested wanted := rested.setPass node trivial
    exact ⟨asleep.passes, fun place task found =>
      rested.tasks place task (Option.ite_none_left_eq_some.mp found).2, asleep.rests⟩

end SchedulerSystem.Rested

/-! ### Claims of listed jobs -/

/-- The jobs that are left to claim were due when the node read the clock. -/
def SchedulerPass.ListsDue (now : Nat) : SchedulerPass → Prop
  | .claiming jobs reading => reading ≤ now ∧ ∀ job ∈ jobs, job.nextRunAt ≤ reading
  | _ => True

namespace SchedulerSystem

variable {Node : Type} {system next : SchedulerSystem Node}

def ListsDue (system : SchedulerSystem Node) : Prop :=
  ∀ node, (system.passes node).ListsDue system.now

/-- A claim is orderly when the record is still the one that the node listed. -/
theorem ListsDue.orderly_claim (lists : system.ListsDue) {nodeId : Node → String} {node : Node}
    {permit : Fin maxConcurrentJobs} {wanted job : SyncJob} {rest : List SyncJob} {reading : Nat}
    (pass : system.passes node = .claiming (job :: rest) reading)
    (unchanged : system.data.syncJobs[wanted.id]? = some job) :
    system.Orderly nodeId wanted (.claim node permit) := by
  intro _ _ stored found
  obtain rfl := Option.some.inj (unchanged.symm.trans found)
  have listed := lists node
  rw [pass] at listed
  exact (listed.2 job List.mem_cons_self).trans listed.1

variable [DecidableEq Node] {externals : Externals} {nodeId : Node → String}
  {label : SchedulerLabel Node}

theorem ListsDue.setPass (lists : system.ListsDue) (node : Node) {pass : SchedulerPass}
    (due : pass.ListsDue system.now) : (system.setPass node pass).ListsDue := by
  intro other
  simp only [SchedulerSystem.setPass, Function.update_apply]
  split
  · exact due
  · exact lists other

theorem ListsDue.step (lists : system.ListsDue)
    (stepped : schedulerStep externals nodeId system label = some next) : next.ListsDue := by
  cases schedulerStep_move stepped with
  | tick later =>
    intro node
    have listed := lists node
    show (system.passes node).ListsDue _
    cases pass : system.passes node with
    | claiming jobs reading =>
      rw [pass] at listed
      exact ⟨listed.1.trans later, listed.2⟩
    | _ => trivial
  | other foreign applied => exact lists
  | reconcile warm rules caches jobs => exact lists.setPass _ trivial
  | stamp pass => exact lists.setPass _ trivial
  | @reconcileWrite node write rest request pass requested =>
    have committed : (system.commitJob request).ListsDue := lists
    exact committed.setPass node trivial
  | @recoverWrite node write rest request pass requested =>
    have committed : (system.commitJob request).ListsDue := lists
    exact committed.setPass node trivial
  | failReconcile => exact lists.setPass _ trivial
  | failRecover => exact lists.setPass _ trivial
  | recover jobs => exact lists.setPass _ trivial
  | list jobs =>
    refine lists.setPass _ ⟨le_rfl, fun job member => ?_⟩
    exact (of_decide_eq_true (List.mem_filter.mp member).2).2
  | @claim node permit job rest reading pass free =>
    have listed := lists node
    rw [pass] at listed
    have due : (SchedulerPass.claiming rest reading).ListsDue system.now :=
      ⟨listed.1, fun other member => listed.2 other (List.mem_cons_of_mem job member)⟩
    rcases system.claimJob_cases nodeId node permit job with
      ⟨stored, after, record, _, _, _, rfl, _, claimed⟩ | refused
    · rw [claimed]
      have spawned (data : StateMachineData) (task : Option SyncTask) :
          ((system.commit data).setTask (node, permit) task).ListsDue := lists
      exact (spawned _ _).setPass node due
    · rw [refused]
      have committed (data : StateMachineData) : (system.commit data).ListsDue := lists
      exact (committed _).setPass node due
  | @failClaim node job rest reading pass =>
    have listed := lists node
    rw [pass] at listed
    exact lists.setPass node
      ⟨listed.1, fun other member => listed.2 other (List.mem_cons_of_mem job member)⟩
  | sleep => exact lists.setPass _ trivial
  | complete executing => exact lists
  | finish completing => exact lists
  | failFinish => exact lists
  | @crash node =>
    have asleep : (system.setPass node .sleeping).ListsDue := lists.setPass node trivial
    exact asleep

/-- In every state reached, whatever a node has listed to claim was due at its reading. -/
theorem listsDue_of_reached {data : StateMachineData} {now : Nat}
    {labels : List (SchedulerLabel Node)}
    (reached : run (schedulerStep externals nodeId) (start data now) labels = some system) :
    system.ListsDue :=
  run_invariant ListsDue (fun _ _ _ stepped lists => lists.step stepped) reached
    fun _ => trivial

end SchedulerSystem

/-! ### Jobs rest for their interval -/

/-- In every orderly run of the schedulers with a steady configuration, the scheduled job of a
mirror rule or a proxy cache is claimed no earlier than its interval after each completion. -/
theorem scheduled_jobs_keep_interval {Node : Type} [DecidableEq Node] (externals : Externals)
    (nodeId : Node → String) (data : StateMachineData) (now : Nat) (source : ScheduledSource)
    (wanted : SyncJob) (scheduled : source.job 0 = some wanted)
    (labels : List (SchedulerLabel Node))
    (steady : Along (schedulerStep externals nodeId) (SchedulerSystem.Steady source)
      (SchedulerSystem.start data now) labels)
    (orderly : Along (schedulerStep externals nodeId) (SchedulerSystem.Orderly nodeId wanted)
      (SchedulerSystem.start data now) labels) :
    Along (schedulerStep externals nodeId) (SchedulerSystem.KeepsInterval nodeId wanted.id)
      (SchedulerSystem.start data now) labels :=
  (steady.and orderly).derive (SchedulerSystem.Rested wanted)
    (fun _ _ _ stepped meets rested => rested.step scheduled stepped meets.1 meets.2)
    (fun _ _ rested meets => rested.keepsInterval meets.2)
    (SchedulerSystem.Rested.start wanted data now)

/-- A cluster with one mirror rule and no jobs. -/
def sampleConfiguration (strategy : MirrorStrategy) : StateMachineData :=
  { StateMachineData.empty with
    mirrorRules := (∅ : BTreeMap String MirrorRule).insert "nginx" (sampleRule strategy) }

/-- One node creates the job, runs it, and looks for work again after this time. -/
def sampleRerun (time : Nat) (again : List (SchedulerLabel (Fin 2))) :
    List (SchedulerLabel (Fin 2)) :=
  .reconcile sampleNode 0 0 0 0 :: samplePass sampleNode ++
    [.complete sampleNode samplePermit (.ok ("mirror/nginx", ["latest"])) (fun _ => none),
      .finish sampleNode samplePermit, .sleep sampleNode, .tick time,
      .reconcile sampleNode 0 0 0 0] ++ again

/-- The rule mirrors all tags and there is one: the job is due again after fifteen seconds. -/
theorem scheduled_job_reruns_at_once :
    ∃ wanted, (ScheduledSource.mirrorRule (sampleRule .all)).job 0 = some wanted ∧
      ∃ (labels : List (SchedulerLabel (Fin 2))) (final : SchedulerSystem (Fin 2)),
        run (schedulerStep sampleExternals sampleNodeId)
          (SchedulerSystem.start (sampleConfiguration .all) 0) labels = some final ∧
        Along (schedulerStep sampleExternals sampleNodeId)
          (SchedulerSystem.Steady (.mirrorRule (sampleRule .all)))
          (SchedulerSystem.start (sampleConfiguration .all) 0) labels ∧
        ¬ Along (schedulerStep sampleExternals sampleNodeId)
          (SchedulerSystem.KeepsInterval sampleNodeId wanted.id)
          (SchedulerSystem.start (sampleConfiguration .all) 0) labels := by
  refine ⟨mirrorRuleJob (sampleRule .all) "mirror-rule-nginx" 0 60, by decide +kernel,
    sampleRerun 15 (samplePass 0), ?_⟩
  have reached : (run (schedulerStep sampleExternals sampleNodeId)
      (SchedulerSystem.start (sampleConfiguration .all) 0)
      (sampleRerun 15 (samplePass 0))).isSome = true := by
    decide +kernel
  obtain ⟨final, reached⟩ := Option.isSome_iff_exists.mp reached
  exact ⟨final, reached, by decide +kernel, by decide +kernel⟩

/-- The rule mirrors the tag "latest": the job runs again after a minute. -/
theorem scheduled_jobs_keep_interval_sample :
    (run (schedulerStep sampleExternals sampleNodeId)
        (SchedulerSystem.start (sampleConfiguration (.pattern "latest")) 0)
        (sampleRerun 60 [.recover 0 0, .list 0 0, .claim 0 0])).any
      (fun final => (final.tasks (0, 0)).isSome) = true ∧
    Along (schedulerStep sampleExternals sampleNodeId)
      (SchedulerSystem.KeepsInterval sampleNodeId "mirror-rule-nginx")
      (SchedulerSystem.start (sampleConfiguration (.pattern "latest")) 0)
      (sampleRerun 60 [.recover 0 0, .list 0 0, .claim 0 0]) :=
  ⟨by decide +kernel,
    scheduled_jobs_keep_interval sampleExternals sampleNodeId
      (sampleConfiguration (.pattern "latest")) 0 (.mirrorRule (sampleRule (.pattern "latest")))
      (mirrorRuleJob (sampleRule (.pattern "latest")) "mirror-rule-nginx" 0 60) (by decide +kernel)
      (sampleRerun 60 [.recover 0 0, .list 0 0, .claim 0 0]) (by decide +kernel)
      (by decide +kernel)⟩

end Layerhouse
