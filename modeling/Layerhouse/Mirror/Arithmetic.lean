/-
This file is about the numbers of the scheduler: the step of a schedule in seconds, the doubled
interval after which a running job counts as stale, and the time at which a job is due again.
All of them are computed in 64 bits. The intervals come from schedules and from warm images,
and the admin API takes both as they are.

The numbers of a source fit exactly if its interval is below `2^63`. Intervals reach the
scheduler through the stored jobs; so in a run, all numbers fit if every source that is
configured in it has such an interval.
-/

import Layerhouse.Mirror.Claims
import Layerhouse.Routes.MirrorAdmin

namespace Layerhouse

/-! ### The interval of a schedule -/

/-- The number after the slash in a schedule of every so many minutes. -/
def scheduleStep (schedule : String) : Option Nat :=
  match Text.splitWhitespace schedule.toList with
  | [minute, _, _, _, _] => (Text.stripPrefix ['*', '/'] minute).bind parseU64
  | _ => none

theorem scheduleIntervalSecs_of_step {schedule : String} {step : Nat}
    (found : scheduleStep schedule = some step) :
    scheduleIntervalSecs schedule = if 0 < step then some (step * 60 % 2 ^ 64) else none := by
  rw [scheduleStep] at found
  split at found
  · rename_i minute hour day month weekday words
    obtain ⟨digits, stripped, parsed⟩ := Option.bind_eq_some_iff.mp found
    rw [scheduleIntervalSecs, words]
    have slash : minute ≠ ['*'] := by
      rintro rfl
      cases stripped
    show (if minute = ['*'] then _ else _) = _
    rw [if_neg slash, stripped]
    show (parseU64 digits).bind _ = _
    rw [parsed]
    rfl
  · cases found

/-- Without a step the interval is a minute or an hour. -/
theorem scheduleIntervalSecs_le {schedule : String} (absent : scheduleStep schedule = none)
    {interval : Nat} (found : scheduleIntervalSecs schedule = some interval) :
    interval ≤ 3600 := by
  rw [scheduleIntervalSecs] at found
  split at found
  · rename_i minute hour day month weekday words
    rw [scheduleStep, words] at absent
    change (Text.stripPrefix ['*', '/'] minute).bind parseU64 = none at absent
    split at found
    · obtain rfl := Option.some.inj found
      decide
    · split at found
      · rename_i digits stripped
        have unparsed : parseU64 digits = none := by rwa [stripped] at absent
        rw [unparsed] at found
        cases found
      · split at found
        · exact (Option.some.inj found).ge
        · exact (Option.some.inj found).ge
  · cases found

/-- A schedule has the same step when it is normalized. -/
theorem bind_scheduleStep_normalizeOptional (schedule : Option String) :
    (normalizeOptional schedule).bind scheduleStep = schedule.bind scheduleStep :=
  bind_words_normalizeOptional
    (fun words => match words with
      | [minute, _, _, _, _] => (Text.stripPrefix ['*', '/'] minute).bind parseU64
      | _ => none)
    rfl schedule

/-! ### Sources of jobs -/

/-- What the administrator configures. -/
inductive JobSource where
  | mirrorRule (rule : MirrorRule)
  | proxyCache (cache : ProxyCache)
  | warmImage (warm : WarmImage)

namespace JobSource

/-- What the admin API stores of a source that is put under this id. -/
def put (package : HttpPackage) (now : Nat) (id : String) :
    JobSource → Except LayerhouseError JobSource
  | .mirrorRule rule => do return .mirrorRule (← putRule package now id rule)
  | .proxyCache cache => do return .proxyCache (← putProxyCache package now id cache)
  | .warmImage warm => .ok (.warmImage (putWarm id warm))

/-- The request that stores a source. -/
def request : JobSource → MirrorConfigRequest
  | .mirrorRule rule => .putMirrorRule rule
  | .proxyCache cache => .putProxyCache cache
  | .warmImage warm => .putWarmImage warm

def schedule : JobSource → Option String
  | .mirrorRule rule => rule.schedule
  | .proxyCache cache => cache.warmSchedule
  | .warmImage _ => none

/-- The job that a reconciling pass at this time wants for the source. -/
def job : JobSource → Nat → Option SyncJob
  | .mirrorRule rule, now => scheduledMirrorJob rule now
  | .proxyCache cache, now => scheduledProxyCacheJob cache now
  | .warmImage warm, now => some (legacyWarmJob warm now)

/-- The numbers of the scheduler that come from the source are numbers of 64 bits. -/
structure Fits (source : JobSource) : Prop where
  product : ∀ step ∈ source.schedule.bind scheduleStep, step * 60 < 2 ^ 64
  doubled : ∀ created, ∀ job ∈ source.job created, job.intervalSecs * 2 < 2 ^ 64
  next : ∀ created, ∀ job ∈ source.job created, job.intervalSecs ≠ 0 →
    ∀ now < 2 ^ 63, now + job.intervalSecs < 2 ^ 64

/-- The interval of the source is below `2^63`. -/
def Bounded : JobSource → Prop
  | .mirrorRule rule => ∀ step ∈ rule.schedule.bind scheduleStep, step * 60 < 2 ^ 63
  | .proxyCache cache => ∀ step ∈ cache.warmSchedule.bind scheduleStep, step * 60 < 2 ^ 63
  | .warmImage warm => warm.intervalSecs < 2 ^ 63

variable {source : JobSource}

theorem schedule_of_bounded (bounded : source.Bounded) :
    ∀ step ∈ source.schedule.bind scheduleStep, step * 60 < 2 ^ 63 := by
  cases source with
  | mirrorRule rule => exact bounded
  | proxyCache cache => exact bounded
  | warmImage warm => nofun

/-- The interval of a scheduled job is that of its schedule. -/
theorem interval_of_job {created : Nat} {job : SyncJob} (found : source.job created = some job) :
    source.schedule.bind scheduleIntervalSecs = some job.intervalSecs ∨
      ∃ warm, source = .warmImage warm ∧ job.intervalSecs = warm.intervalSecs := by
  cases source with
  | mirrorRule rule =>
    obtain ⟨interval, scheduled, rfl⟩ := Option.map_eq_some_iff.mp found
    exact Or.inl scheduled
  | proxyCache cache =>
    obtain ⟨interval, scheduled, rfl⟩ := Option.map_eq_some_iff.mp found
    exact Or.inl scheduled
  | warmImage warm =>
    obtain rfl := Option.some.inj found
    exact Or.inr ⟨warm, rfl, rfl⟩

theorem interval_lt (bounded : source.Bounded) {created : Nat} {job : SyncJob}
    (found : source.job created = some job) : job.intervalSecs < 2 ^ 63 := by
  rcases interval_of_job found with scheduled | ⟨warm, rfl, same⟩
  · obtain ⟨schedule, configured, interval⟩ := Option.bind_eq_some_iff.mp scheduled
    cases counted : scheduleStep schedule with
    | none => exact (scheduleIntervalSecs_le counted interval).trans_lt (by decide)
    | some step =>
      have product := schedule_of_bounded bounded step
        (Option.bind_eq_some_iff.mpr ⟨schedule, configured, counted⟩)
      rw [scheduleIntervalSecs_of_step counted] at interval
      obtain ⟨_, same⟩ := Option.ite_none_right_eq_some.mp interval
      rw [← Option.some.inj same]
      exact (Nat.mod_le _ _).trans_lt product
  · exact same ▸ bounded

theorem job_of_interval {interval : Nat}
    (scheduled : source.schedule.bind scheduleIntervalSecs = some interval) :
    ∃ job, source.job 0 = some job ∧ job.intervalSecs = interval := by
  cases source with
  | mirrorRule rule => exact ⟨_, Option.map_eq_some_iff.mpr ⟨interval, scheduled, rfl⟩, rfl⟩
  | proxyCache cache => exact ⟨_, Option.map_eq_some_iff.mpr ⟨interval, scheduled, rfl⟩, rfl⟩
  | warmImage warm => cases scheduled

/-- The interval of a job can be doubled, so the product it comes from is half as large. -/
theorem Fits.step_lt (fits : source.Fits) {step : Nat}
    (member : step ∈ source.schedule.bind scheduleStep) : step * 60 < 2 ^ 63 := by
  have product := fits.product step member
  obtain ⟨schedule, configured, counted⟩ := Option.bind_eq_some_iff.mp member
  rcases Nat.eq_zero_or_pos step with rfl | positive
  · decide
  · have interval := scheduleIntervalSecs_of_step counted
    rw [if_pos positive, Nat.mod_eq_of_lt product] at interval
    obtain ⟨job, created, same⟩ :=
      job_of_interval (Option.bind_eq_some_iff.mpr ⟨schedule, configured, interval⟩)
    have doubled := fits.doubled 0 job created
    omega

/-- The numbers of a source fit if and only if its interval is bounded. -/
theorem fits_iff : source.Fits ↔ source.Bounded := by
  constructor
  · intro fits
    cases source with
    | mirrorRule rule => exact fun step => fits.step_lt
    | proxyCache cache => exact fun step => fits.step_lt
    | warmImage warm =>
      have doubled : warm.intervalSecs * 2 < 2 ^ 64 := fits.doubled 0 _ rfl
      show warm.intervalSecs < 2 ^ 63
      omega
  · intro bounded
    have small := @interval_lt source bounded
    constructor
    · intro step member
      exact (schedule_of_bounded bounded step member).trans (by decide)
    · intro created job found
      have := small found
      omega
    · intro created job found _ now early
      have := small found
      omega

/-- What is stored has the interval of what was sent. -/
theorem bounded_of_put {package : HttpPackage} {now : Nat} {id : String}
    {sent stored : JobSource} (accepted : sent.put package now id = .ok stored) :
    stored.Bounded ↔ sent.Bounded := by
  cases sent with
  | mirrorRule rule =>
    obtain ⟨kept, put, same⟩ := exceptBind_eq_ok.mp accepted
    obtain rfl := Except.ok.inj same
    show (∀ step ∈ kept.schedule.bind scheduleStep, step * 60 < 2 ^ 63) ↔ _
    rw [schedule_of_putRule put, bind_scheduleStep_normalizeOptional]
    rfl
  | proxyCache cache =>
    obtain ⟨kept, put, same⟩ := exceptBind_eq_ok.mp accepted
    obtain rfl := Except.ok.inj same
    show (∀ step ∈ kept.warmSchedule.bind scheduleStep, step * 60 < 2 ^ 63) ↔ _
    rw [warmSchedule_of_putProxyCache put, bind_scheduleStep_normalizeOptional]
    rfl
  | warmImage warm =>
    obtain rfl := Except.ok.inj accepted
    exact Iff.rfl

end JobSource

/-! ### The numbers of a step -/

namespace SchedulerSystem

variable {Node : Type}

/-- The numbers that a step computes are numbers of 64 bits: the products of the schedules that a
reconciling pass reads, the doubled intervals of the running jobs that a recovering pass
reads, and the time at which a completed job is due again. -/
def ArithmeticFits (system : SchedulerSystem Node) : SchedulerLabel Node → Prop
  | .reconcile _ _ ruleLag cacheLag _ =>
    (∀ past ∈ system.history[ruleLag]?, ∀ rule ∈ past.listMirrorRules,
      ∀ step ∈ rule.schedule.bind scheduleStep, step * 60 < 2 ^ 64) ∧
    ∀ past ∈ system.history[cacheLag]?, ∀ cache ∈ past.listProxyCaches,
      ∀ step ∈ cache.warmSchedule.bind scheduleStep, step * 60 < 2 ^ 64
  | .recover _ jobLag =>
    ∀ past ∈ system.history[jobLag]?, ∀ job ∈ past.listSyncJobs, job.status = .running →
      job.intervalSecs * 2 < 2 ^ 64
  | .complete node permit _ _ =>
    ∀ task ∈ system.tasks (node, permit), task.listed.intervalSecs ≠ 0 →
      system.now + task.listed.intervalSecs < 2 ^ 64
  | _ => True

end SchedulerSystem

/-- The time is below `2^63`, and so is the interval of a source that is put. -/
def SchedulerLabel.Bounded {Node : Type} : SchedulerLabel Node → Prop
  | .tick time => time < 2 ^ 63
  | .other request => ∀ source : JobSource, request = .mirrorConfig source.request → source.Bounded
  | _ => True

/-! ### Bounded data -/

/-- The interval of everything that is configured or stored is below `2^63`. -/
structure StateMachineData.Bounded (data : StateMachineData) : Prop where
  rules : BTreeMap.All (fun rule => (JobSource.mirrorRule rule).Bounded) data.mirrorRules
  caches : BTreeMap.All (fun cache => (JobSource.proxyCache cache).Bounded) data.proxyCaches
  warmImages : BTreeMap.All (fun warm => (JobSource.warmImage warm).Bounded) data.warmImages
  jobs : BTreeMap.All (fun job => job.intervalSecs < 2 ^ 63) data.syncJobs

namespace StateMachineData.Bounded

variable {data next : StateMachineData}

theorem empty : StateMachineData.empty.Bounded :=
  ⟨BTreeMap.all_empty, BTreeMap.all_empty, BTreeMap.all_empty, BTreeMap.all_empty⟩

theorem insertJob (bounded : data.Bounded) {id : String} {job : SyncJob}
    (small : job.intervalSecs < 2 ^ 63) :
    ({ data with syncJobs := data.syncJobs.insert id job } : StateMachineData).Bounded :=
  ⟨bounded.rules, bounded.caches, bounded.warmImages, bounded.jobs.insert small⟩

theorem applyJob (bounded : data.Bounded) (now : Nat) {request : JobRequest}
    (put : ∀ job, request = .putSyncJob job → job.intervalSecs < 2 ^ 63) :
    (applyJob now data request).1.Bounded := by
  cases request with
  | putSyncJob job => exact bounded.insertJob (put job rfl)
  | deleteSyncJob id =>
    exact ⟨bounded.rules, bounded.caches, bounded.warmImages, bounded.jobs.erase⟩
  | claimSyncJob id node =>
    rcases applyJob_claim now data id node with ⟨job, stored, _, claimed⟩ | unclaimed
    · rw [claimed]
      exact bounded.insertJob (bounded.jobs id job stored)
    · rw [unclaimed]
      exact bounded
  | triggerSyncJob id =>
    rw [Layerhouse.applyJob]
    cases stored : data.syncJobs[id]? with
    | none => exact bounded
    | some job =>
      dsimp only
      split
      · exact bounded
      · exact bounded.insertJob (bounded.jobs id job stored)
  | putSyncJobRun run => exact ⟨bounded.rules, bounded.caches, bounded.warmImages, bounded.jobs⟩

theorem applyMirrorConfig (bounded : data.Bounded) (now : Nat) {request : MirrorConfigRequest}
    (put : ∀ source : JobSource, request = source.request → source.Bounded) :
    (applyMirrorConfig now data request).1.Bounded := by
  cases request with
  | putMirrorRule rule =>
    exact ⟨bounded.rules.insert (put (.mirrorRule rule) rfl), bounded.caches,
      bounded.warmImages, bounded.jobs⟩
  | deleteMirrorRule id =>
    exact ⟨bounded.rules.erase, bounded.caches, bounded.warmImages, bounded.jobs⟩
  | triggerMirrorRule id =>
    rw [Layerhouse.applyMirrorConfig]
    cases stored : data.mirrorRules[id]? with
    | none => exact bounded
    | some rule =>
      dsimp only
      split
      · exact bounded
      · exact bounded.insertJob (Nat.two_pow_pos 63)
  | putProxyCache cache =>
    exact ⟨bounded.rules, bounded.caches.insert (put (.proxyCache cache) rfl),
      bounded.warmImages, bounded.jobs⟩
  | deleteProxyCache id =>
    exact ⟨bounded.rules, bounded.caches.erase, bounded.warmImages, bounded.jobs⟩
  | triggerProxyCacheWarm id =>
    rw [Layerhouse.applyMirrorConfig]
    cases stored : data.proxyCaches[id]? with
    | none => exact bounded
    | some cache =>
      dsimp only
      split
      · exact bounded
      · exact bounded.insertJob (Nat.two_pow_pos 63)
  | putProxyCacheTagValidation validation =>
    exact ⟨bounded.rules, bounded.caches, bounded.warmImages, bounded.jobs⟩
  | putWarmImage warm =>
    exact ⟨bounded.rules, bounded.caches, bounded.warmImages.insert (put (.warmImage warm) rfl),
      bounded.jobs⟩
  | deleteWarmImage id =>
    exact ⟨bounded.rules, bounded.caches, bounded.warmImages.erase, bounded.jobs⟩

/-- Nobody but the administrator and the scheduler adds an interval. -/
theorem requestStep (bounded : data.Bounded) {externals : Externals} {now : Nat}
    {request : Request} (foreign : request.isScheduler = false)
    (put : ∀ source : JobSource, request = .mirrorConfig source.request → source.Bounded)
    (applied : requestStep externals data (now, request) = some next) : next.Bounded := by
  obtain ⟨response, applied⟩ := requestStep_eq_some.mp applied
  have framed := applyRequest_frame applied
  cases request with
  | job inner =>
    cases applied
    refine bounded.applyJob now fun job same => ?_
    rw [same] at foreign
    cases foreign
  | mirrorConfig inner =>
    cases applied
    exact bounded.applyMirrorConfig now fun source same => put source (congrArg _ same)
  | _ =>
    exact ⟨(congrArg StateMachineData.mirrorRules framed).symm ▸ bounded.rules,
      (congrArg StateMachineData.proxyCaches framed).symm ▸ bounded.caches,
      (congrArg StateMachineData.warmImages framed).symm ▸ bounded.warmImages,
      (congrArg StateMachineData.syncJobs framed).symm ▸ bounded.jobs⟩

end StateMachineData.Bounded

/-! ### Bounded systems -/

/-- The interval that a write stores is below `2^63`. -/
def JobWrite.Bounded : JobWrite → Prop
  | .put _ job => job.intervalSecs < 2 ^ 63
  | .create warm => warm.intervalSecs < 2 ^ 63
  | .delete _ => True

def SchedulerPass.Bounded : SchedulerPass → Prop
  | .sleeping => True
  | .reconciling writes | .recovering writes => ∀ write ∈ writes, write.Bounded
  | .claiming jobs _ => ∀ job ∈ jobs, job.intervalSecs < 2 ^ 63

def SyncTask.Bounded (task : SyncTask) : Prop :=
  task.listed.intervalSecs < 2 ^ 63 ∧
    ∀ record, task.stage = .completing record → record.intervalSecs < 2 ^ 63

theorem JobWrite.Bounded.request {write : JobWrite} (bounded : write.Bounded)
    {request : JobRequest} (requested : write.request = some request) :
    ∀ job, request = .putSyncJob job → job.intervalSecs < 2 ^ 63 := by
  rintro job rfl
  cases write with
  | put basis wanted =>
    cases requested
    exact bounded
  | create warm => cases requested
  | delete basis => cases requested

section Passes

variable {ofWarm ofRules ofCaches ofJobs : StateMachineData}

theorem desiredScheduled_bounded (rules : ofRules.Bounded) (caches : ofCaches.Bounded)
    (now : Nat) {job : SyncJob}
    (member : job ∈ desiredScheduled ofRules.listMirrorRules ofCaches.listProxyCaches now) :
    job.intervalSecs < 2 ^ 63 := by
  rcases List.mem_append.mp member with ofRule | ofCache
  · obtain ⟨rule, listed, found⟩ := List.mem_filterMap.mp ofRule
    have bounded : (JobSource.mirrorRule rule).Bounded := rules.rules.of_mem listed
    exact JobSource.interval_lt bounded found
  · obtain ⟨cache, listed, found⟩ := List.mem_filterMap.mp ofCache
    have bounded : (JobSource.proxyCache cache).Bounded := caches.caches.of_mem listed
    exact JobSource.interval_lt bounded found

theorem reconcileScheduled_bounded {jobs : List SyncJob} {desired : SyncJob}
    (small : desired.intervalSecs < 2 ^ 63) {write : JobWrite}
    (found : reconcileScheduled jobs desired = some write) : write.Bounded := by
  rw [reconcileScheduled] at found
  split at found
  · obtain ⟨job, updated, rfl⟩ := Option.map_eq_some_iff.mp found
    obtain ⟨_, changed⟩ := Option.ite_none_left_eq_some.mp updated
    obtain ⟨_, same⟩ := Option.ite_none_right_eq_some.mp changed
    obtain rfl := Option.some.inj same
    exact small
  · obtain rfl := Option.some.inj found
    exact small

theorem reconcileWarm_bounded {jobs : List SyncJob} {warm : WarmImage}
    (small : warm.intervalSecs < 2 ^ 63) {write : JobWrite}
    (found : reconcileWarm jobs warm = some write) : write.Bounded := by
  rw [reconcileWarm] at found
  split at found
  · obtain ⟨_, changed⟩ := Option.ite_none_left_eq_some.mp found
    obtain ⟨_, same⟩ := Option.ite_none_right_eq_some.mp changed
    obtain rfl := Option.some.inj same
    exact small
  · obtain rfl := Option.some.inj found
    exact small

theorem reconcileJobs_bounded (warm : ofWarm.Bounded) (rules : ofRules.Bounded)
    (caches : ofCaches.Bounded) (jobs : List SyncJob) (now : Nat) :
    (SchedulerPass.reconciling (reconcileJobs ofWarm.listWarmImages ofRules.listMirrorRules
      ofCaches.listProxyCaches jobs now)).Bounded := by
  intro write member
  rcases List.mem_append.mp member with earlier | deletion
  · rcases List.mem_append.mp earlier with scheduled | created
    · obtain ⟨desired, wanted, found⟩ := List.mem_filterMap.mp scheduled
      exact reconcileScheduled_bounded (desiredScheduled_bounded rules caches now wanted) found
    · obtain ⟨image, listed, found⟩ := List.mem_filterMap.mp created
      exact reconcileWarm_bounded (warm.warmImages.of_mem listed) found
  · obtain ⟨job, _, found⟩ := List.mem_filterMap.mp deletion
    obtain ⟨_, same⟩ := Option.ite_none_right_eq_some.mp found
    obtain rfl := Option.some.inj same
    trivial

theorem recoverStaleJobs_bounded (jobs : ofJobs.Bounded) (now : Nat) :
    (SchedulerPass.recovering (recoverStaleJobs ofJobs.listSyncJobs now)).Bounded := by
  intro write member
  obtain ⟨job, listed, found⟩ := List.mem_filterMap.mp member
  obtain ⟨_, stale⟩ := Option.ite_none_left_eq_some.mp found
  obtain ⟨_, same⟩ := Option.ite_none_right_eq_some.mp stale
  obtain rfl := Option.some.inj same
  have small : job.intervalSecs < 2 ^ 63 := jobs.jobs.of_mem listed
  exact small

end Passes

namespace SchedulerSystem

variable {Node : Type}

/-- The time is below `2^63`, and so is every interval that a node has read or is about to
store. -/
structure Bounded (system : SchedulerSystem Node) : Prop where
  early : system.now < 2 ^ 63
  history : ∀ data ∈ system.history, data.Bounded
  passes : ∀ node, (system.passes node).Bounded
  tasks : ∀ place, ∀ task ∈ system.tasks place, task.Bounded

namespace Bounded

variable {system : SchedulerSystem Node}

theorem start {data : StateMachineData} (bounded : data.Bounded) {now : Nat}
    (early : now < 2 ^ 63) : (SchedulerSystem.start data now : SchedulerSystem Node).Bounded := by
  refine ⟨early, fun past member => ?_, fun _ => trivial, fun _ _ found => nomatch found⟩
  rw [List.mem_singleton.mp member]
  exact bounded

theorem data (bounded : system.Bounded) : system.data.Bounded := by
  rw [SchedulerSystem.data]
  cases recorded : system.history with
  | nil => exact .empty
  | cons latest earlier => exact bounded.history latest (recorded ▸ List.mem_cons_self)

theorem commit (bounded : system.Bounded) {next : StateMachineData} (kept : next.Bounded) :
    (system.commit next).Bounded :=
  ⟨bounded.early, List.forall_mem_cons.mpr ⟨kept, bounded.history⟩, bounded.passes, bounded.tasks⟩

theorem commitJob (bounded : system.Bounded) {request : JobRequest}
    (put : ∀ job, request = .putSyncJob job → job.intervalSecs < 2 ^ 63) :
    (system.commitJob request).Bounded :=
  bounded.commit (bounded.data.applyJob system.now put)

variable [DecidableEq Node]

theorem setPass (bounded : system.Bounded) (node : Node) {pass : SchedulerPass}
    (kept : pass.Bounded) : (system.setPass node pass).Bounded := by
  refine ⟨bounded.early, bounded.history, fun other => ?_, bounded.tasks⟩
  show (Function.update system.passes node pass other).Bounded
  rw [Function.update_apply]
  split
  · exact kept
  · exact bounded.passes other

theorem setTask (bounded : system.Bounded) (place : Node × Fin maxConcurrentJobs)
    {task : Option SyncTask} (kept : ∀ spawned ∈ task, spawned.Bounded) :
    (system.setTask place task).Bounded := by
  refine ⟨bounded.early, bounded.history, bounded.passes, fun other => ?_⟩
  show ∀ spawned ∈ Function.update system.tasks place task other, spawned.Bounded
  rw [Function.update_apply]
  split
  · exact kept
  · exact bounded.tasks other

/-- The task of a claim is spawned with the job that was listed. -/
theorem claimJob (bounded : system.Bounded) (nodeId : Node → String) (node : Node)
    (permit : Fin maxConcurrentJobs) {job : SyncJob} (small : job.intervalSecs < 2 ^ 63) :
    (system.claimJob nodeId node permit job).Bounded := by
  have claimed : (system.commitJob (.claimSyncJob job.id (nodeId node))).Bounded :=
    bounded.commitJob fun _ same => by cases same
  rw [SchedulerSystem.claimJob]
  split
  · refine claimed.setTask (node, permit) fun spawned same => ?_
    obtain rfl := Option.some.inj same
    exact ⟨small, fun _ same => by cases same⟩
  · exact claimed

theorem step (bounded : system.Bounded) {externals : Externals} {nodeId : Node → String}
    {label : SchedulerLabel Node} {next : SchedulerSystem Node}
    (stepped : schedulerStep externals nodeId system label = some next)
    (allowed : label.Bounded) : next.Bounded := by
  cases schedulerStep_move stepped with
  | tick later => exact ⟨allowed, bounded.history, bounded.passes, bounded.tasks⟩
  | other foreign applied =>
    exact bounded.commit (bounded.data.requestStep foreign allowed applied)
  | reconcile warm rules caches jobs =>
    exact bounded.setPass _ (reconcileJobs_bounded (bounded.history _ warm)
      (bounded.history _ rules) (bounded.history _ caches) _ _)
  | @stamp node warm rest pass =>
    have waiting : (SchedulerPass.reconciling (.create warm :: rest)).Bounded :=
      pass ▸ bounded.passes node
    have small : warm.intervalSecs < 2 ^ 63 := waiting (.create warm) List.mem_cons_self
    exact bounded.setPass node (List.forall_mem_cons.mpr
      ⟨small, fun write member => waiting write (List.mem_cons_of_mem _ member)⟩)
  | @reconcileWrite node write rest request pass requested =>
    have waiting : (SchedulerPass.reconciling (write :: rest)).Bounded :=
      pass ▸ bounded.passes node
    exact (bounded.commitJob ((waiting write List.mem_cons_self).request requested)).setPass node
      fun other member => waiting other (List.mem_cons_of_mem write member)
  | @recoverWrite node write rest request pass requested =>
    have waiting : (SchedulerPass.recovering (write :: rest)).Bounded :=
      pass ▸ bounded.passes node
    exact (bounded.commitJob ((waiting write List.mem_cons_self).request requested)).setPass node
      fun other member => waiting other (List.mem_cons_of_mem write member)
  | failReconcile => exact bounded.setPass _ trivial
  | failRecover => exact bounded.setPass _ fun _ member => nomatch member
  | recover jobs => exact bounded.setPass _ (recoverStaleJobs_bounded (bounded.history _ jobs) _)
  | list jobs =>
    exact bounded.setPass _ fun job due =>
      (bounded.history _ jobs).jobs.of_mem (List.mem_filter.mp due).1
  | @claim node permit job rest reading pass free =>
    have waiting : (SchedulerPass.claiming (job :: rest) reading).Bounded :=
      pass ▸ bounded.passes node
    exact (bounded.claimJob nodeId node permit (waiting job List.mem_cons_self)).setPass node
      fun other member => waiting other (List.mem_cons_of_mem job member)
  | @failClaim node job rest reading pass =>
    have waiting : (SchedulerPass.claiming (job :: rest) reading).Bounded :=
      pass ▸ bounded.passes node
    exact bounded.setPass node fun other member => waiting other (List.mem_cons_of_mem job member)
  | sleep => exact bounded.setPass _ trivial
  | complete executing =>
    have task := bounded.tasks _ _ executing
    refine bounded.setTask _ fun spawned same => ?_
    obtain rfl := Option.some.inj same
    refine ⟨task.1, fun record completing => ?_⟩
    obtain rfl := TaskStage.completing.inj completing
    exact task.1
  | @finish node permit listed claimed record completing =>
    have freed : (system.setTask (node, permit) none).Bounded :=
      bounded.setTask (node, permit) fun _ found => nomatch found
    have small : record.intervalSecs < 2 ^ 63 :=
      (bounded.tasks (node, permit) _ completing).2 record rfl
    have kept := @commitJob _ _ freed (.putSyncJob record) fun job same =>
      JobRequest.putSyncJob.inj same ▸ small
    exact ⟨kept.early, kept.history, kept.passes, kept.tasks⟩
  | failFinish => exact bounded.setTask _ fun _ found => nomatch found
  | @crash node =>
    have asleep : (system.setPass node .sleeping).Bounded := bounded.setPass node trivial
    exact ⟨asleep.early, asleep.history, asleep.passes, fun place task found =>
      bounded.tasks place task (Option.ite_none_left_eq_some.mp found).2⟩

end Bounded

end SchedulerSystem

namespace SchedulerSystem.Bounded

variable {Node : Type} {system : SchedulerSystem Node}

theorem arithmeticFits (bounded : system.Bounded) (label : SchedulerLabel Node) :
    system.ArithmeticFits label := by
  cases label with
  | reconcile node warmLag ruleLag cacheLag jobLag =>
    constructor
    · intro past read rule listed step member
      have kept := (bounded.history past (List.mem_of_getElem? read)).rules.of_mem listed
      exact (kept step member).trans (by decide)
    · intro past read cache listed step member
      have kept := (bounded.history past (List.mem_of_getElem? read)).caches.of_mem listed
      exact (kept step member).trans (by decide)
  | recover node jobLag =>
    intro past read job listed _
    have small : job.intervalSecs < 2 ^ 63 :=
      (bounded.history past (List.mem_of_getElem? read)).jobs.of_mem listed
    omega
  | complete node permit resolution syncTag =>
    intro task found _
    have small := (bounded.tasks (node, permit) task found).1
    have early := bounded.early
    omega
  | _ => trivial

end SchedulerSystem.Bounded

/-! ### The numbers of the scheduler -/

/-- The numbers of a source that the admin API accepts fit if and only if the interval that was sent
is below `2^63`; and in every run in which only such sources are configured and the time is
below `2^63`, the numbers of all steps fit. -/
theorem scheduler_numbers_fit_iff (package : HttpPackage) :
    (∀ (now : Nat) (id : String) (sent stored : JobSource),
      sent.put package now id = .ok stored → (stored.Fits ↔ sent.Bounded)) ∧
    ∀ (Node : Type) [DecidableEq Node] (externals : Externals) (nodeId : Node → String)
      (now : Nat) (labels : List (SchedulerLabel Node)),
      now < 2 ^ 63 → (∀ label ∈ labels, label.Bounded) →
      Along (schedulerStep externals nodeId) SchedulerSystem.ArithmeticFits
        (SchedulerSystem.start StateMachineData.empty now) labels := by
  constructor
  · intro now id sent stored accepted
    rw [JobSource.fits_iff, JobSource.bounded_of_put accepted]
  · intro Node _ externals nodeId now labels early allowed
    have along : Along (schedulerStep externals nodeId) (fun _ label => label.Bounded)
        (SchedulerSystem.start StateMachineData.empty now) labels :=
      along_of_forall fun label member _ => allowed label member
    exact along.derive SchedulerSystem.Bounded
      (fun _ _ _ stepped bounded kept => kept.step stepped bounded)
      (fun _ label kept _ => kept.arithmeticFits label) (.start .empty early)

/-- The sample rule with another schedule. -/
def sampleScheduled (schedule : String) : MirrorRule :=
  { sampleRule .all with schedule := some schedule }

/-- Put the rule, and read it in a pass of the first node. -/
def sampleScheduledPass (schedule : String) : List (SchedulerLabel (Fin 2)) :=
  [.other (.mirrorConfig (.putMirrorRule (sampleScheduled schedule))),
    .reconcile sampleNode 0 0 0 0]

theorem put_sampleScheduled {schedule : String}
    (known : schedule ∈ ["*/30 * * * *", "*/400000000000000000 * * * *"]) :
    (JobSource.mirrorRule (sampleScheduled schedule)).put samplePackage 0 "nginx" =
      .ok (.mirrorRule (sampleScheduled schedule)) := by
  have accepted : ∀ schedule ∈ ["*/30 * * * *", "*/400000000000000000 * * * *"],
      putRule samplePackage 0 "nginx" (sampleScheduled schedule) =
        .ok (sampleScheduled schedule) := by
    decide +kernel
  rw [JobSource.put, accepted schedule known]
  rfl

/-- Half an hour. -/
theorem scheduler_numbers_fit_half_hour :
    (JobSource.mirrorRule (sampleScheduled "*/30 * * * *")).Fits ∧
      Along (schedulerStep sampleExternals sampleNodeId) SchedulerSystem.ArithmeticFits
        (SchedulerSystem.start StateMachineData.empty 0) (sampleScheduledPass "*/30 * * * *") := by
  have bounded : (JobSource.mirrorRule (sampleScheduled "*/30 * * * *")).Bounded := by
    show ∀ step ∈ (some "*/30 * * * *").bind scheduleStep, step * 60 < 2 ^ 63
    decide +kernel
  refine ⟨((scheduler_numbers_fit_iff samplePackage).1 0 "nginx" _ _
      (put_sampleScheduled List.mem_cons_self)).mpr bounded,
    (scheduler_numbers_fit_iff samplePackage).2 (Fin 2) sampleExternals sampleNodeId 0
      (sampleScheduledPass "*/30 * * * *") (by decide) ?_⟩
  intro label member
  rcases List.mem_pair.mp member with rfl | rfl
  · intro source same
    cases source with
    | mirrorRule rule =>
      obtain rfl := MirrorConfigRequest.putMirrorRule.inj (Request.mirrorConfig.inj same)
      exact bounded
    | proxyCache cache => cases same
    | warmImage warm => cases same
  · trivial

/-- The product of sixty and a step of eighteen digits is more than `2^64`. -/
theorem huge_step_overflows :
    ∃ stored, (JobSource.mirrorRule (sampleScheduled "*/400000000000000000 * * * *")).put
        samplePackage 0 "nginx" = .ok stored ∧ ¬ stored.Fits ∧
      ¬ Along (schedulerStep sampleExternals sampleNodeId) SchedulerSystem.ArithmeticFits
        (SchedulerSystem.start StateMachineData.empty 0)
        (sampleScheduledPass "*/400000000000000000 * * * *") := by
  have counted : (some "*/400000000000000000 * * * *").bind scheduleStep =
      some 400000000000000000 := by
    decide +kernel
  refine ⟨_, put_sampleScheduled (List.mem_cons_of_mem _ List.mem_cons_self), fun fits => ?_,
    fun along => ?_⟩
  · exact absurd (fits.product _ counted) (by decide)
  · have pass := (along.2 _ rfl).1
    exact absurd (pass.1 _ rfl (sampleScheduled "*/400000000000000000 * * * *")
      List.mem_cons_self _ counted) (by decide)

end Layerhouse
