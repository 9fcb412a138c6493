/-
This file is `mirror/scheduler.rs`: the loop that every node runs to keep the jobs
of the mirror configuration, to recover jobs whose node is gone, and to claim and
execute the jobs that are due.

A pass of the loop reads the job list from its node's replica, which may be behind
the commits of the cluster, works out what to write, and then commits the writes
one by one; commits of other nodes come in between. The record that a write was
worked out from is kept with the write. What a sync run resolves and which tags
fail is decided outside of the scheduler and is in the labels. The arithmetic is
that of 64 bits, which wraps around.
-/

import Layerhouse.Raft.Effects
import Layerhouse.Raft.Membership

namespace Layerhouse

abbrev maxConcurrentJobs : Nat := 4

def staleJobThresholdSecs : Nat := 300

def fallbackScheduleIntervalSecs : Nat := 3600

/-! ### The jobs of the configuration -/

def scheduleIntervalSecs (schedule : String) : Option Nat :=
  match Text.splitWhitespace schedule.toList with
  | [minute, hour, _, _, _] =>
    if minute = ['*'] then some 60
    else
      match Text.stripPrefix ['*', '/'] minute with
      | some step =>
        (parseU64 step).bind fun step => if 0 < step then some (step * 60 % 2 ^ 64) else none
      | none =>
        if (parseU64 minute).any (· < 2 ^ 8) ∧ hour = ['*'] then some 3600
        else some fallbackScheduleIntervalSecs
  | _ => none

def scheduledMirrorJob (rule : MirrorRule) (now : Nat) : Option SyncJob :=
  (rule.schedule.bind scheduleIntervalSecs).map
    (mirrorRuleJob rule ("mirror-rule-" ++ rule.id) now)

def scheduledProxyCacheJob (cache : ProxyCache) (now : Nat) : Option SyncJob :=
  (cache.warmSchedule.bind scheduleIntervalSecs).map fun intervalSecs =>
    { proxyCacheWarmJob cache now with
      id := "proxy-cache-" ++ cache.id ++ "-warm"
      intervalSecs := intervalSecs }

/-- The job of a warm image that has none. -/
def legacyWarmJob (warm : WarmImage) (now : Nat) : SyncJob where
  id := warm.id
  kind := .legacyWarm
  ruleId := some warm.id
  ruleName := some warm.id
  image := warm.image
  tags := warm.tags
  intervalSecs := warm.intervalSecs
  status := .idle
  claimedBy := none
  claimedAt := none
  lastRunAt := none
  nextRunAt := now
  lastError := none

/-! ### Reconciling -/

/-- The record asks for the same work as the desired one. -/
def SyncJob.Agrees (existing desired : SyncJob) : Prop :=
  existing.kind = desired.kind ∧ existing.ruleId = desired.ruleId ∧
    existing.ruleName = desired.ruleName ∧ existing.image = desired.image ∧
    existing.tags = desired.tags ∧ existing.intervalSecs = desired.intervalSecs

instance (existing desired : SyncJob) : Decidable (existing.Agrees desired) :=
  inferInstanceAs (Decidable (_ ∧ _))

def reconcileJob (existing desired : SyncJob) : Option SyncJob :=
  if existing.status = .running then none
  else if ¬ existing.Agrees desired then
    some
      { desired with
        status := existing.status
        claimedBy := existing.claimedBy
        claimedAt := existing.claimedAt
        lastRunAt := existing.lastRunAt
        lastError := existing.lastError
        nextRunAt := min existing.nextRunAt desired.nextRunAt }
  else none

/-- A write that a pass has worked out, with the record it was worked out from. The record of a
new warm job is built when its turn comes. -/
inductive JobWrite where
  | put (basis : Option SyncJob) (job : SyncJob)
  | create (warm : WarmImage)
  | delete (basis : SyncJob)
deriving DecidableEq

namespace JobWrite

def id : JobWrite → String
  | .put _ job => job.id
  | .create warm => warm.id
  | .delete basis => basis.id

def basis : JobWrite → Option SyncJob
  | .put basis _ => basis
  | .create _ => none
  | .delete basis => some basis

end JobWrite

/-- The entry of the map that `reconcile_jobs` builds from the job list: of two jobs with one id
the later one. -/
def findJob (jobs : List SyncJob) (id : String) : Option SyncJob :=
  jobs.reverse.find? (·.id = id)

def reconcileScheduled (jobs : List SyncJob) (desired : SyncJob) : Option JobWrite :=
  match findJob jobs desired.id with
  | some existing => (reconcileJob existing desired).map (.put (some existing))
  | none => some (.put none desired)

def reconcileWarm (jobs : List SyncJob) (warm : WarmImage) : Option JobWrite :=
  match findJob jobs warm.id with
  | some existing =>
    if existing.status = .running then none
    else if existing.image ≠ warm.image ∨ existing.tags ≠ warm.tags ∨
        existing.intervalSecs ≠ warm.intervalSecs then
      some (.put (some existing)
        { existing with
          image := warm.image
          tags := warm.tags
          intervalSecs := warm.intervalSecs })
    else none
  | none => some (.create warm)

/-- The deletion of a job whose warm image, rule or cache is gone. -/
def deleteUnwanted (warmImages : List WarmImage) (desired : List SyncJob) (job : SyncJob) :
    Option JobWrite :=
  let staleLegacy := job.kind = .legacyWarm ∧ ∀ warm ∈ warmImages, warm.id ≠ job.id
  let staleScheduled := (job.kind = .mirror ∨ job.kind = .proxyCache) ∧ 0 < job.intervalSecs ∧
    ∀ wanted ∈ desired, wanted.id ≠ job.id
  if job.status ≠ .running ∧ (staleLegacy ∨ staleScheduled) then some (.delete job) else none

def desiredScheduled (rules : List MirrorRule) (caches : List ProxyCache) (now : Nat) :
    List SyncJob :=
  rules.filterMap (scheduledMirrorJob · now) ++ caches.filterMap (scheduledProxyCacheJob · now)

/-- The writes of `reconcile_jobs`, in order. -/
def reconcileJobs (warmImages : List WarmImage) (rules : List MirrorRule)
    (caches : List ProxyCache) (jobs : List SyncJob) (now : Nat) : List JobWrite :=
  let desired := desiredScheduled rules caches now
  desired.filterMap (reconcileScheduled jobs) ++ warmImages.filterMap (reconcileWarm jobs) ++
    jobs.filterMap (deleteUnwanted warmImages desired)

/-! ### Recovering -/

def staleThreshold (job : SyncJob) : Nat :=
  max (job.intervalSecs * 2 % 2 ^ 64) staleJobThresholdSecs

def recoverStaleJob (now : Nat) (job : SyncJob) : Option JobWrite :=
  if job.status ≠ .running then none
  else if staleThreshold job < now - job.claimedAt.getD 0 then
    some (.put (some job)
      { job with
        status := .idle
        claimedBy := none
        claimedAt := none
        nextRunAt := now })
  else none

/-- The writes of `recover_stale_jobs`, in order. -/
def recoverStaleJobs (jobs : List SyncJob) (now : Nat) : List JobWrite :=
  jobs.filterMap (recoverStaleJob now)

/-! ### Executing -/

/-- The jobs that `execute_due_jobs` tries to claim, in order. -/
def dueJobs (jobs : List SyncJob) (now : Nat) : List SyncJob :=
  jobs.filter fun job => job.status = .idle ∧ job.nextRunAt ≤ now

/-- What a run of the job works on: the image, its tags, and the failure to resolve them. -/
def resolvedWork (job : SyncJob) (resolution : Except String (String × List String)) :
    String × List String × List (String × String) :=
  if (job.kind = .mirror ∨ job.kind = .proxyCache) ∧ job.ruleId.isSome then
    match resolution with
    | .ok (image, tags) => (image, tags, [])
    | .error message => (job.image, [], [("resolve", message)])
  else (job.image, job.tags, [])

/-- The record that a run of the job leaves at its end. `syncTag` is the failure of a tag, if
any. -/
def completedJob (job : SyncJob) (resolution : Except String (String × List String))
    (syncTag : String → Option String) (now : Nat) : SyncJob :=
  let (image, tags, unresolved) := resolvedWork job resolution
  let failed := unresolved ++ tags.filterMap fun tag => (syncTag tag).map (tag, ·)
  { id := job.id
    kind := job.kind
    ruleId := job.ruleId
    ruleName := job.ruleName
    image := image
    tags := tags
    intervalSecs := job.intervalSecs
    status := .idle
    claimedBy := none
    claimedAt := none
    lastRunAt := some now
    nextRunAt := if job.intervalSecs = 0 then 2 ^ 64 - 1 else (now + job.intervalSecs) % 2 ^ 64
    lastError := failed.head?.map (·.2) }

/-! ### The nodes of a cluster -/

def StateMachineData.listWarmImages (data : StateMachineData) : List WarmImage :=
  data.warmImages.toList.map (·.2)

def StateMachineData.listMirrorRules (data : StateMachineData) : List MirrorRule :=
  data.mirrorRules.toList.map (·.2)

def StateMachineData.listProxyCaches (data : StateMachineData) : List ProxyCache :=
  data.proxyCaches.toList.map (·.2)

def StateMachineData.listSyncJobs (data : StateMachineData) : List SyncJob :=
  data.syncJobs.toList.map (·.2)

/-- Where a node is in its loop: the writes it has yet to commit, or the due jobs it has yet to
claim and its clock reading when it listed them. -/
inductive SchedulerPass where
  | sleeping
  | reconciling (writes : List JobWrite)
  | recovering (writes : List JobWrite)
  | claiming (jobs : List SyncJob) (reading : Nat)

inductive TaskStage where
  | executing
  | completing (record : SyncJob)

/-- A run of a job: the record that the node listed, the record that its claim stored, and whether
the job is still worked on. -/
structure SyncTask where
  listed : SyncJob
  claimed : SyncJob
  stage : TaskStage

/-- A run of the job that ended at this time, with this interval. -/
structure Completion where
  jobId : String
  finishedAt : Nat
  intervalSecs : Nat
deriving DecidableEq

/-- The time, the data after each committed request (the latest first), the loop of each node and
what it executes under each of its permits. The completions so far are recorded. -/
structure SchedulerSystem (Node : Type) where
  now : Nat
  history : List StateMachineData
  passes : Node → SchedulerPass
  tasks : Node × Fin maxConcurrentJobs → Option SyncTask
  completions : List Completion

inductive SchedulerLabel (Node : Type) where
  | tick (time : Nat)
  | other (request : Request)
  | reconcile (node : Node) (warmLag ruleLag cacheLag jobLag : Nat)
  | stamp (node : Node)
  | write (node : Node)
  | failWrite (node : Node)
  | recover (node : Node) (jobLag : Nat)
  | list (node : Node) (jobLag : Nat)
  | claim (node : Node) (permit : Fin maxConcurrentJobs)
  | failClaim (node : Node)
  | sleep (node : Node)
  | complete (node : Node) (permit : Fin maxConcurrentJobs)
      (resolution : Except String (String × List String)) (syncTag : String → Option String)
  | finish (node : Node) (permit : Fin maxConcurrentJobs)
  | failFinish (node : Node) (permit : Fin maxConcurrentJobs)
  | crash (node : Node)

/-- The requests that nobody but the scheduler makes. -/
def Request.isScheduler : Request → Bool
  | .job (.putSyncJob _) | .job (.deleteSyncJob _) | .job (.claimSyncJob _ _) => true
  | _ => false

/-- The request of a write whose record is built. -/
def JobWrite.request : JobWrite → Option JobRequest
  | .put _ job => some (.putSyncJob job)
  | .create _ => none
  | .delete basis => some (.deleteSyncJob basis.id)

namespace SchedulerSystem

variable {Node : Type}

/-- No node has begun a pass and nothing is executed. -/
def start (data : StateMachineData) (now : Nat) : SchedulerSystem Node where
  now := now
  history := [data]
  passes := fun _ => .sleeping
  tasks := fun _ => none
  completions := []

/-- The data after all committed requests. -/
def data (system : SchedulerSystem Node) : StateMachineData :=
  system.history.headD StateMachineData.empty

def commit (system : SchedulerSystem Node) (next : StateMachineData) : SchedulerSystem Node :=
  { system with history := next :: system.history }

def commitJob (system : SchedulerSystem Node) (request : JobRequest) : SchedulerSystem Node :=
  system.commit (applyJob system.now system.data request).1

variable [DecidableEq Node]

def setPass (system : SchedulerSystem Node) (node : Node) (pass : SchedulerPass) :
    SchedulerSystem Node :=
  { system with passes := Function.update system.passes node pass }

def setTask (system : SchedulerSystem Node) (place : Node × Fin maxConcurrentJobs)
    (task : Option SyncTask) : SchedulerSystem Node :=
  { system with tasks := Function.update system.tasks place task }

/-- The claim of a listed job. When the cluster answers that it is claimed, a task is spawned. -/
def claimJob (nodeId : Node → String) (system : SchedulerSystem Node) (node : Node)
    (permit : Fin maxConcurrentJobs) (job : SyncJob) : SchedulerSystem Node :=
  let claimed := system.commitJob (.claimSyncJob job.id (nodeId node))
  match (applyJob system.now system.data (.claimSyncJob job.id (nodeId node))).2,
    claimed.data.syncJobs[job.id]? with
  | .bool true, some record => claimed.setTask (node, permit) (some ⟨job, record, .executing⟩)
  | _, _ => claimed

end SchedulerSystem

open SchedulerSystem in
/-- The steps of the schedulers. A read names the number of committed requests that the node's
replica has yet to apply. A write, a claim or a completion may fail, and a node may crash. -/
def schedulerStep {Node : Type} [DecidableEq Node] (externals : Externals)
    (nodeId : Node → String) (system : SchedulerSystem Node) :
    SchedulerLabel Node → Option (SchedulerSystem Node)
  | .tick time =>
    if system.now ≤ time ∧ time < 2 ^ 64 then some { system with now := time } else none
  | .other request =>
    if request.isScheduler then none
    else (requestStep externals system.data (system.now, request)).map system.commit
  | .reconcile node warmLag ruleLag cacheLag jobLag =>
    match system.passes node, system.history[warmLag]?, system.history[ruleLag]?,
      system.history[cacheLag]?, system.history[jobLag]? with
    | .sleeping, some ofWarm, some ofRules, some ofCaches, some ofJobs =>
      some (system.setPass node (.reconciling
        (reconcileJobs ofWarm.listWarmImages ofRules.listMirrorRules ofCaches.listProxyCaches
          ofJobs.listSyncJobs system.now)))
    | _, _, _, _, _ => none
  | .stamp node =>
    match system.passes node with
    | .reconciling (.create warm :: rest) =>
      some (system.setPass node
        (.reconciling (.put none (legacyWarmJob warm system.now) :: rest)))
    | _ => none
  | .write node =>
    match system.passes node with
    | .reconciling (write :: rest) =>
      write.request.map fun request =>
        (system.commitJob request).setPass node (.reconciling rest)
    | .recovering (write :: rest) =>
      write.request.map fun request =>
        (system.commitJob request).setPass node (.recovering rest)
    | _ => none
  | .failWrite node =>
    match system.passes node with
    -- A failed reconcile ends the pass, a failed recovery does not.
    | .reconciling (_ :: _) => some (system.setPass node .sleeping)
    | .recovering (_ :: _) => some (system.setPass node (.recovering []))
    | _ => none
  | .recover node jobLag =>
    match system.passes node, system.history[jobLag]? with
    | .reconciling [], some past =>
      some (system.setPass node (.recovering (recoverStaleJobs past.listSyncJobs system.now)))
    | _, _ => none
  | .list node jobLag =>
    match system.passes node, system.history[jobLag]? with
    | .recovering [], some past =>
      some (system.setPass node
        (.claiming (dueJobs past.listSyncJobs system.now) system.now))
    | _, _ => none
  | .claim node permit =>
    match system.passes node, system.tasks (node, permit) with
    | .claiming (job :: rest) reading, none =>
      some ((system.claimJob nodeId node permit job).setPass node (.claiming rest reading))
    | _, _ => none
  | .failClaim node =>
    match system.passes node with
    | .claiming (_ :: rest) reading => some (system.setPass node (.claiming rest reading))
    | _ => none
  | .sleep node =>
    match system.passes node with
    | .claiming jobs _ =>
      if jobs = [] ∨ ∀ permit, (system.tasks (node, permit)).isSome then
        some (system.setPass node .sleeping)
      else none
    | _ => none
  | .complete node permit resolution syncTag =>
    match system.tasks (node, permit) with
    | some ⟨listed, claimed, .executing⟩ =>
      some (system.setTask (node, permit) (some ⟨listed, claimed,
        .completing (completedJob listed resolution syncTag system.now)⟩))
    | _ => none
  | .finish node permit =>
    match system.tasks (node, permit) with
    | some ⟨_, _, .completing record⟩ =>
      let finished := (system.commitJob (.putSyncJob record)).setTask (node, permit) none
      some { finished with
        completions :=
          ⟨record.id, record.lastRunAt.getD 0, record.intervalSecs⟩ :: system.completions }
    | _ => none
  | .failFinish node permit =>
    match system.tasks (node, permit) with
    | some ⟨_, _, .completing _⟩ => some (system.setTask (node, permit) none)
    | _ => none
  | .crash node =>
    some
      { system.setPass node .sleeping with
        tasks := fun place => if place.1 = node then none else system.tasks place }

/-! ### What a step can do -/

/-- The steps of the schedulers by what they start from. -/
inductive SchedulerMove {Node : Type} [DecidableEq Node] (externals : Externals)
    (nodeId : Node → String) (system : SchedulerSystem Node) :
    SchedulerLabel Node → SchedulerSystem Node → Prop
  | tick {time : Nat} (later : system.now ≤ time) :
      SchedulerMove externals nodeId system (.tick time) { system with now := time }
  | other {request : Request} {next : StateMachineData} (foreign : request.isScheduler = false)
      (applied : requestStep externals system.data (system.now, request) = some next) :
      SchedulerMove externals nodeId system (.other request) (system.commit next)
  | reconcile {node : Node} {warmLag ruleLag cacheLag jobLag : Nat}
      {ofWarm ofRules ofCaches ofJobs : StateMachineData} (warm : ofWarm ∈ system.history)
      (rules : ofRules ∈ system.history) (caches : ofCaches ∈ system.history)
      (jobs : ofJobs ∈ system.history) :
      SchedulerMove externals nodeId system (.reconcile node warmLag ruleLag cacheLag jobLag)
        (system.setPass node (.reconciling
          (reconcileJobs ofWarm.listWarmImages ofRules.listMirrorRules ofCaches.listProxyCaches
            ofJobs.listSyncJobs system.now)))
  | stamp {node : Node} {warm : WarmImage} {rest : List JobWrite}
      (pass : system.passes node = .reconciling (.create warm :: rest)) :
      SchedulerMove externals nodeId system (.stamp node)
        (system.setPass node
          (.reconciling (.put none (legacyWarmJob warm system.now) :: rest)))
  | reconcileWrite {node : Node} {write : JobWrite} {rest : List JobWrite} {request : JobRequest}
      (pass : system.passes node = .reconciling (write :: rest))
      (requested : write.request = some request) :
      SchedulerMove externals nodeId system (.write node)
        ((system.commitJob request).setPass node (.reconciling rest))
  | recoverWrite {node : Node} {write : JobWrite} {rest : List JobWrite} {request : JobRequest}
      (pass : system.passes node = .recovering (write :: rest))
      (requested : write.request = some request) :
      SchedulerMove externals nodeId system (.write node)
        ((system.commitJob request).setPass node (.recovering rest))
  | failReconcile {node : Node} :
      SchedulerMove externals nodeId system (.failWrite node) (system.setPass node .sleeping)
  | failRecover {node : Node} :
      SchedulerMove externals nodeId system (.failWrite node)
        (system.setPass node (.recovering []))
  | recover {node : Node} {jobLag : Nat} {past : StateMachineData}
      (jobs : past ∈ system.history) :
      SchedulerMove externals nodeId system (.recover node jobLag)
        (system.setPass node (.recovering (recoverStaleJobs past.listSyncJobs system.now)))
  | list {node : Node} {jobLag : Nat} {past : StateMachineData} (jobs : past ∈ system.history) :
      SchedulerMove externals nodeId system (.list node jobLag)
        (system.setPass node (.claiming (dueJobs past.listSyncJobs system.now) system.now))
  | claim {node : Node} {permit : Fin maxConcurrentJobs} {job : SyncJob} {rest : List SyncJob}
      {reading : Nat} (pass : system.passes node = .claiming (job :: rest) reading)
      (free : system.tasks (node, permit) = none) :
      SchedulerMove externals nodeId system (.claim node permit)
        ((system.claimJob nodeId node permit job).setPass node (.claiming rest reading))
  | failClaim {node : Node} {job : SyncJob} {rest : List SyncJob} {reading : Nat}
      (pass : system.passes node = .claiming (job :: rest) reading) :
      SchedulerMove externals nodeId system (.failClaim node)
        (system.setPass node (.claiming rest reading))
  | sleep {node : Node} :
      SchedulerMove externals nodeId system (.sleep node) (system.setPass node .sleeping)
  | complete {node : Node} {permit : Fin maxConcurrentJobs}
      {resolution : Except String (String × List String)} {syncTag : String → Option String}
      {listed claimed : SyncJob}
      (executing : system.tasks (node, permit) = some ⟨listed, claimed, .executing⟩) :
      SchedulerMove externals nodeId system (.complete node permit resolution syncTag)
        (system.setTask (node, permit) (some ⟨listed, claimed,
          .completing (completedJob listed resolution syncTag system.now)⟩))
  | finish {node : Node} {permit : Fin maxConcurrentJobs} {listed claimed record : SyncJob}
      (completing : system.tasks (node, permit) = some ⟨listed, claimed, .completing record⟩) :
      SchedulerMove externals nodeId system (.finish node permit)
        { (system.setTask (node, permit) none).commitJob (.putSyncJob record) with
          completions :=
            ⟨record.id, record.lastRunAt.getD 0, record.intervalSecs⟩ :: system.completions }
  | failFinish {node : Node} {permit : Fin maxConcurrentJobs} :
      SchedulerMove externals nodeId system (.failFinish node permit)
        (system.setTask (node, permit) none)
  | crash {node : Node} :
      SchedulerMove externals nodeId system (.crash node)
        { system.setPass node .sleeping with
          tasks := fun place => if place.1 = node then none else system.tasks place }

theorem schedulerStep_move {Node : Type} [DecidableEq Node] {externals : Externals}
    {nodeId : Node → String} {system next : SchedulerSystem Node} {label : SchedulerLabel Node}
    (stepped : schedulerStep externals nodeId system label = some next) :
    SchedulerMove externals nodeId system label next := by
  cases label with
  | tick time =>
    obtain ⟨⟨later, _⟩, same⟩ := Option.ite_none_right_eq_some.mp stepped
    obtain rfl := Option.some.inj same
    exact .tick later
  | other request =>
    obtain ⟨foreign, same⟩ := Option.ite_none_left_eq_some.mp stepped
    obtain ⟨data, applied, rfl⟩ := Option.map_eq_some_iff.mp same
    exact .other (Bool.eq_false_iff.mpr foreign) applied
  | reconcile node warmLag ruleLag cacheLag jobLag =>
    rw [schedulerStep] at stepped
    split at stepped
    · rename_i ofWarm ofRules ofCaches ofJobs pass warm rules caches jobs
      obtain rfl := Option.some.inj stepped
      exact .reconcile (List.mem_of_getElem? warm) (List.mem_of_getElem? rules)
        (List.mem_of_getElem? caches) (List.mem_of_getElem? jobs)
    · cases stepped
  | stamp node =>
    rw [schedulerStep] at stepped
    split at stepped
    · rename_i warm rest pass
      obtain rfl := Option.some.inj stepped
      exact .stamp pass
    · cases stepped
  | write node =>
    rw [schedulerStep] at stepped
    split at stepped
    · rename_i write rest pass
      obtain ⟨request, requested, rfl⟩ := Option.map_eq_some_iff.mp stepped
      exact .reconcileWrite pass requested
    · rename_i write rest pass
      obtain ⟨request, requested, rfl⟩ := Option.map_eq_some_iff.mp stepped
      exact .recoverWrite pass requested
    · cases stepped
  | failWrite node =>
    rw [schedulerStep] at stepped
    split at stepped
    · obtain rfl := Option.some.inj stepped
      exact .failReconcile
    · obtain rfl := Option.some.inj stepped
      exact .failRecover
    · cases stepped
  | recover node jobLag =>
    rw [schedulerStep] at stepped
    split at stepped
    · rename_i past pass jobs
      obtain rfl := Option.some.inj stepped
      exact .recover (List.mem_of_getElem? jobs)
    · cases stepped
  | list node jobLag =>
    rw [schedulerStep] at stepped
    split at stepped
    · rename_i past pass jobs
      obtain rfl := Option.some.inj stepped
      exact .list (List.mem_of_getElem? jobs)
    · cases stepped
  | claim node permit =>
    rw [schedulerStep] at stepped
    split at stepped
    · rename_i job rest reading pass free
      obtain rfl := Option.some.inj stepped
      exact .claim pass free
    · cases stepped
  | failClaim node =>
    rw [schedulerStep] at stepped
    split at stepped
    · rename_i job rest reading pass
      obtain rfl := Option.some.inj stepped
      exact .failClaim pass
    · cases stepped
  | sleep node =>
    rw [schedulerStep] at stepped
    split at stepped
    · obtain ⟨_, same⟩ := Option.ite_none_right_eq_some.mp stepped
      obtain rfl := Option.some.inj same
      exact .sleep
    · cases stepped
  | complete node permit resolution syncTag =>
    rw [schedulerStep] at stepped
    split at stepped
    · rename_i listed claimed executing
      obtain rfl := Option.some.inj stepped
      exact .complete executing
    · cases stepped
  | finish node permit =>
    rw [schedulerStep] at stepped
    split at stepped
    · rename_i listed claimed record completing
      obtain rfl := Option.some.inj stepped
      exact .finish completing
    · cases stepped
  | failFinish node permit =>
    rw [schedulerStep] at stepped
    split at stepped
    · obtain rfl := Option.some.inj stepped
      exact .failFinish
    · cases stepped
  | crash node =>
    obtain rfl := Option.some.inj stepped
    exact .crash

/-! ### The jobs that requests leave -/

/-- The requests of somebody who wants a job to run now. -/
def Request.isTrigger : Request → Bool
  | .job (.triggerSyncJob _) | .mirrorConfig (.triggerMirrorRule _)
  | .mirrorConfig (.triggerProxyCacheWarm _) => true
  | _ => false

theorem requestStep_syncJobs {externals : Externals} {now : Nat} {data next : StateMachineData}
    {request : Request} (foreign : request.isScheduler = false)
    (untriggered : request.isTrigger = false)
    (applied : requestStep externals data (now, request) = some next) :
    next.syncJobs = data.syncJobs := by
  obtain ⟨response, applied⟩ := requestStep_eq_some.mp applied
  have framed := congrArg StateMachineData.syncJobs (applyRequest_frame applied)
  cases request with
  | job inner =>
    cases inner with
    | putSyncJobRun run =>
      cases applied
      rfl
    | triggerSyncJob id => cases untriggered
    | putSyncJob job => cases foreign
    | deleteSyncJob id => cases foreign
    | claimSyncJob id node => cases foreign
  | mirrorConfig inner =>
    cases inner with
    | triggerMirrorRule id => cases untriggered
    | triggerProxyCacheWarm id => cases untriggered
    | _ =>
      cases applied
      rfl
  | manifest inner => exact framed
  | token inner => exact framed
  | policy inner => exact framed
  | repository inner => exact framed
  | namespaces inner => exact framed

/-- A claim succeeds exactly on a stored idle job, and leaves the data otherwise. -/
theorem applyJob_claim (now : Nat) (data : StateMachineData) (id node : String) :
    (∃ job, data.syncJobs[id]? = some job ∧ job.status = .idle ∧
      applyJob now data (.claimSyncJob id node) =
        ({ data with
          syncJobs := data.syncJobs.insert id
            { job with status := .running, claimedBy := some node, claimedAt := some now } },
          .bool true)) ∨
    applyJob now data (.claimSyncJob id node) = (data, .bool false) := by
  rw [applyJob]
  cases stored : data.syncJobs[id]? with
  | none => exact Or.inr rfl
  | some job =>
    by_cases idle : job.status = .idle
    · exact Or.inl ⟨job, rfl, idle, if_neg (not_not_intro idle)⟩
    · exact Or.inr (if_pos idle)

/-- A claim is accepted of a job that is stored as idle, and a task is spawned with the record that
the claim stored. A refused claim leaves the data. -/
theorem SchedulerSystem.claimJob_cases {Node : Type} [DecidableEq Node]
    (system : SchedulerSystem Node) (nodeId : Node → String) (node : Node)
    (permit : Fin maxConcurrentJobs) (job : SyncJob) :
    (∃ stored next record, system.data.syncJobs[job.id]? = some stored ∧ stored.status = .idle ∧
      applyJob system.now system.data (.claimSyncJob job.id (nodeId node)) = (next, .bool true) ∧
      record = { stored with
        status := .running
        claimedBy := some (nodeId node)
        claimedAt := some system.now } ∧
      (∀ id, next.syncJobs[id]? =
        if job.id = id then some record else system.data.syncJobs[id]?) ∧
      system.claimJob nodeId node permit job =
        (system.commit next).setTask (node, permit) (some ⟨job, record, .executing⟩)) ∨
    system.claimJob nodeId node permit job = system.commit system.data := by
  rw [SchedulerSystem.claimJob, SchedulerSystem.commitJob]
  rcases applyJob_claim system.now system.data job.id (nodeId node) with
    ⟨stored, found, idle, applied⟩ | refused
  · have inserted := fun id => BTreeMap.getElem?_insert system.data.syncJobs job.id id
      { stored with
        status := .running
        claimedBy := some (nodeId node)
        claimedAt := some system.now }
    have own := (inserted job.id).trans (if_pos rfl)
    refine Or.inl ⟨stored, _, _, found, idle, applied, rfl, inserted, ?_⟩
    rw [applied]
    simp only [SchedulerSystem.data, SchedulerSystem.commit, List.headD_cons]
    simp only [SchedulerSystem.data] at own
    rw [own]
  · rw [refused]
    exact Or.inr rfl

/-- The request of a write changes no job but its own. -/
theorem JobWrite.request_getElem? {write : JobWrite} {request : JobRequest}
    (requested : write.request = some request) (now : Nat) (data : StateMachineData) {id : String}
    (other : write.id ≠ id) :
    (applyJob now data request).1.syncJobs[id]? = data.syncJobs[id]? := by
  cases write with
  | put basis job =>
    obtain rfl := Option.some.inj requested
    exact (BTreeMap.getElem?_insert ..).trans (if_neg other)
  | create warm => cases requested
  | delete basis =>
    obtain rfl := Option.some.inj requested
    exact (BTreeMap.getElem?_erase ..).trans (if_neg other)

end Layerhouse
