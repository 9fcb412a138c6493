/-
This file is about who executes a sync job. A claim is refused while the stored job
is running, so a job that is executed cannot be claimed as long as its stored record
stays the one that its claim stored.

The reconciling and the recovering pass leave a running job alone, but only as they
read it: when a record is written that was worked out before the claim, the job is
idle again while it is executed, and the next node claims it. The file proves that
this is the only way: job claims are exclusive in every run in which no such write
meets a running job that it was not worked out from.
-/

import Layerhouse.Mirror.Scheduler

namespace Layerhouse

namespace SchedulerSystem

variable {Node : Type}

/-! ### Claims that succeed -/

/-- The job that a step claims with success. -/
def claims (nodeId : Node → String) (system : SchedulerSystem Node) :
    SchedulerLabel Node → Option String
  | .claim node permit =>
    match system.passes node, system.tasks (node, permit) with
    | .claiming (job :: _) _, none =>
      if (applyJob system.now system.data (.claimSyncJob job.id (nodeId node))).2 = .bool true then
        some job.id
      else none
    | _, _ => none
  | _ => none

/-- A job that is claimed is not executed under this permit. -/
def ClaimsApart (nodeId : Node → String) (place : Node × Fin maxConcurrentJobs)
    (system : SchedulerSystem Node) (label : SchedulerLabel Node) : Prop :=
  ∀ id ∈ system.claims nodeId label, ∀ task ∈ system.tasks place, task.listed.id ≠ id

/-- A job that is claimed is executed nowhere. -/
def ClaimsExclusively (nodeId : Node → String) (system : SchedulerSystem Node)
    (label : SchedulerLabel Node) : Prop :=
  ∀ place, system.ClaimsApart nodeId place label

/-! ### Executions and writes -/

/-- The request of the step is no manual trigger. -/
def Untriggered (_ : SchedulerSystem Node) : SchedulerLabel Node → Prop
  | .other request => request.isTrigger = false
  | _ => True

/-- No execution has lasted longer than the stale threshold. -/
def Prompt (system : SchedulerSystem Node) : Prop :=
  ∀ place, ∀ task ∈ system.tasks place,
    system.now ≤ task.claimed.claimedAt.getD 0 + max (2 * task.claimed.intervalSecs) 300

/-- The write that a step commits. -/
def writes (system : SchedulerSystem Node) : SchedulerLabel Node → Option JobWrite
  | .write node =>
    match system.passes node with
    | .reconciling (write :: _) | .recovering (write :: _) => some write
    | _ => none
  | _ => none

/-- A stored job that is running when a reconciling or recovering write commits is the one that
the write was worked out from, and twice its interval is a number of 64 bits. -/
def SparesRunning (system : SchedulerSystem Node) (label : SchedulerLabel Node) : Prop :=
  ∀ write ∈ system.writes label, ∀ stored ∈ system.data.syncJobs[write.id]?,
    stored.status = .running → write.basis = some stored ∧ 2 * stored.intervalSecs < 2 ^ 64

instance (nodeId : Node → String) (place : Node × Fin maxConcurrentJobs)
    (system : SchedulerSystem Node) (label : SchedulerLabel Node) :
    Decidable (system.ClaimsApart nodeId place label) :=
  inferInstanceAs (Decidable (∀ id ∈ system.claims nodeId label, _))

instance (system : SchedulerSystem Node) (label : SchedulerLabel Node) :
    Decidable (system.Untriggered label) :=
  match label with
  | .other request => inferInstanceAs (Decidable (request.isTrigger = false))
  | .tick _ | .reconcile .. | .stamp _ | .write _ | .failWrite _ | .recover .. | .list ..
  | .claim .. | .failClaim _ | .sleep _ | .complete .. | .finish .. | .failFinish ..
  | .crash _ => isTrue trivial

instance [Fintype Node] (system : SchedulerSystem Node) : Decidable system.Prompt :=
  inferInstanceAs (Decidable (∀ _, _))

instance (system : SchedulerSystem Node) (label : SchedulerLabel Node) :
    Decidable (system.SparesRunning label) :=
  inferInstanceAs (Decidable (∀ write ∈ system.writes label, _))

end SchedulerSystem

/-! ### What passes and tasks know -/

/-- What holds of the writes of a pass: a reconciling one was not worked out from a running job,
and a recovering one was worked out from a job that is stale. -/
def SchedulerPass.Sound (now : Nat) : SchedulerPass → Prop
  | .reconciling writes => ∀ write ∈ writes, ∀ basis ∈ write.basis, basis.status ≠ .running
  | .recovering writes => ∀ write ∈ writes, ∀ basis ∈ write.basis,
      staleThreshold basis < now - basis.claimedAt.getD 0
  | _ => True

theorem SchedulerPass.Sound.later {now time : Nat} {pass : SchedulerPass}
    (sound : pass.Sound now) (later : now ≤ time) : pass.Sound time := by
  cases pass with
  | recovering writes =>
    intro write member basis based
    have stale := sound write member basis based
    omega
  | sleeping => trivial
  | reconciling writes => exact sound
  | claiming jobs reading => trivial

theorem SchedulerPass.Sound.tail_reconciling {now : Nat} {write : JobWrite} {rest : List JobWrite}
    (sound : (SchedulerPass.reconciling (write :: rest)).Sound now) :
    (SchedulerPass.reconciling rest).Sound now :=
  fun other member => sound other (List.mem_cons_of_mem write member)

theorem SchedulerPass.Sound.tail_recovering {now : Nat} {write : JobWrite} {rest : List JobWrite}
    (sound : (SchedulerPass.recovering (write :: rest)).Sound now) :
    (SchedulerPass.recovering rest).Sound now :=
  fun other member => sound other (List.mem_cons_of_mem write member)

theorem reconcileScheduled_basis {jobs : List SyncJob} {desired : SyncJob} {write : JobWrite}
    (planned : reconcileScheduled jobs desired = some write) :
    ∀ basis ∈ write.basis, basis.status ≠ .running := by
  intro basis based
  rw [reconcileScheduled] at planned
  split at planned
  · rename_i existing found
    obtain ⟨updated, reconciled, rfl⟩ := Option.map_eq_some_iff.mp planned
    obtain rfl := Option.some.inj based
    exact (Option.ite_none_left_eq_some.mp reconciled).1
  · obtain rfl := Option.some.inj planned
    cases based

theorem reconcileWarm_basis {jobs : List SyncJob} {warm : WarmImage} {write : JobWrite}
    (planned : reconcileWarm jobs warm = some write) :
    ∀ basis ∈ write.basis, basis.status ≠ .running := by
  intro basis based
  rw [reconcileWarm] at planned
  split at planned
  · rename_i existing found
    obtain ⟨idle, planned⟩ := Option.ite_none_left_eq_some.mp planned
    obtain ⟨_, planned⟩ := Option.ite_none_right_eq_some.mp planned
    obtain rfl := Option.some.inj planned
    obtain rfl := Option.some.inj based
    exact idle
  · obtain rfl := Option.some.inj planned
    cases based

theorem deleteUnwanted_basis {warmImages : List WarmImage} {desired : List SyncJob}
    {job : SyncJob} {write : JobWrite}
    (planned : deleteUnwanted warmImages desired job = some write) :
    ∀ basis ∈ write.basis, basis.status ≠ .running := by
  intro basis based
  obtain ⟨⟨idle, _⟩, planned⟩ := Option.ite_none_right_eq_some.mp planned
  obtain rfl := Option.some.inj planned
  obtain rfl := Option.some.inj based
  exact idle

theorem reconcileJobs_sound (warmImages : List WarmImage) (rules : List MirrorRule)
    (caches : List ProxyCache) (jobs : List SyncJob) (reading now : Nat) :
    (SchedulerPass.reconciling (reconcileJobs warmImages rules caches jobs reading)).Sound now := by
  intro write member
  rcases List.mem_append.mp member with early | deleted
  · rcases List.mem_append.mp early with scheduled | warmed
    · obtain ⟨desired, _, planned⟩ := List.mem_filterMap.mp scheduled
      exact reconcileScheduled_basis planned
    · obtain ⟨warm, _, planned⟩ := List.mem_filterMap.mp warmed
      exact reconcileWarm_basis planned
  · obtain ⟨job, _, planned⟩ := List.mem_filterMap.mp deleted
    exact deleteUnwanted_basis planned

theorem recoverStaleJobs_sound (jobs : List SyncJob) (now : Nat) :
    (SchedulerPass.recovering (recoverStaleJobs jobs now)).Sound now := by
  intro write member basis based
  obtain ⟨job, _, planned⟩ := List.mem_filterMap.mp member
  obtain ⟨_, planned⟩ := Option.ite_none_left_eq_some.mp planned
  obtain ⟨stale, planned⟩ := Option.ite_none_right_eq_some.mp planned
  obtain rfl := Option.some.inj planned
  obtain rfl := Option.some.inj based
  exact stale

/-! ### Executed jobs stay stored as claimed -/

/-- The stored record of a job that is executed is the one that its claim stored, and no job is
executed twice. -/
structure SchedulerSystem.Exclusive {Node : Type} (system : SchedulerSystem Node) : Prop where
  sound : ∀ node, (system.passes node).Sound system.now
  running : ∀ place task, system.tasks place = some task → task.claimed.status = .running
  stored : ∀ place task, system.tasks place = some task →
    system.data.syncJobs[task.listed.id]? = some task.claimed
  unique : ∀ place other task otherTask, system.tasks place = some task →
    system.tasks other = some otherTask → task.listed.id = otherTask.listed.id → place = other
  records : ∀ place task record, system.tasks place = some task →
    task.stage = .completing record → record.id = task.listed.id

namespace SchedulerSystem.Exclusive

variable {Node : Type} {system : SchedulerSystem Node}

theorem start (data : StateMachineData) (now : Nat) :
    (SchedulerSystem.start data now : SchedulerSystem Node).Exclusive where
  sound := fun _ => trivial
  running := fun _ _ impossible => by cases impossible
  stored := fun _ _ impossible => by cases impossible
  unique := fun _ _ _ _ impossible => by cases impossible
  records := fun _ _ _ impossible => by cases impossible

/-- A commit that leaves the executed jobs keeps them. -/
theorem commit (exclusive : system.Exclusive) {next : StateMachineData}
    (leaves : ∀ place task, system.tasks place = some task →
      next.syncJobs[task.listed.id]? = system.data.syncJobs[task.listed.id]?) :
    (system.commit next).Exclusive where
  sound := exclusive.sound
  running := exclusive.running
  stored := fun place task found =>
    (leaves place task found).trans (exclusive.stored place task found)
  unique := exclusive.unique
  records := exclusive.records

/-- Tasks may end. -/
theorem restrict (exclusive : system.Exclusive)
    {tasks : Node × Fin maxConcurrentJobs → Option SyncTask}
    (fewer : ∀ place task, tasks place = some task → system.tasks place = some task) :
    ({ system with tasks := tasks } : SchedulerSystem Node).Exclusive where
  sound := exclusive.sound
  running := fun place task found => exclusive.running place task (fewer place task found)
  stored := fun place task found => exclusive.stored place task (fewer place task found)
  unique := fun place other task otherTask found otherFound =>
    exclusive.unique place other task otherTask (fewer place task found)
      (fewer other otherTask otherFound)
  records := fun place task record found =>
    exclusive.records place task record (fewer place task found)

/-- No job that is stored as idle is executed. -/
theorem not_executed (exclusive : system.Exclusive) {id : String} {job : SyncJob}
    (found : system.data.syncJobs[id]? = some job) (idle : job.status = .idle)
    {place : Node × Fin maxConcurrentJobs} {task : SyncTask}
    (executed : system.tasks place = some task) : task.listed.id ≠ id := by
  rintro rfl
  have same := (exclusive.stored place task executed).symm.trans found
  have running := exclusive.running place task executed
  rw [Option.some.inj same, idle] at running
  cases running

/-- A write of a job that nobody executes leaves the executed ones. -/
theorem commitWrite (exclusive : system.Exclusive) {write : JobWrite} {request : JobRequest}
    (requested : write.request = some request)
    (spared : ∀ place task, system.tasks place = some task → task.listed.id ≠ write.id) :
    (system.commitJob request).Exclusive :=
  exclusive.commit fun place task found =>
    JobWrite.request_getElem? requested system.now system.data (spared place task found).symm

/-- A write of a job that is executed was worked out from the record that the claim stored. -/
theorem based (exclusive : system.Exclusive) {node : Node} {write : JobWrite}
    (writes : system.writes (.write node) = some write)
    (spares : system.SparesRunning (.write node)) {place : Node × Fin maxConcurrentJobs}
    {task : SyncTask} (executed : system.tasks place = some task)
    (same : task.listed.id = write.id) :
    write.basis = some task.claimed ∧ 2 * task.claimed.intervalSecs < 2 ^ 64 := by
  have stored := exclusive.stored place task executed
  rw [same] at stored
  exact spares write writes task.claimed stored (exclusive.running place task executed)

/-- Nobody executes the job of a reconciling write that spares the running jobs. -/
theorem reconciles_apart (exclusive : system.Exclusive) {node : Node} {write : JobWrite}
    {rest : List JobWrite} (pass : system.passes node = .reconciling (write :: rest))
    (spares : system.SparesRunning (.write node)) {place : Node × Fin maxConcurrentJobs}
    {task : SyncTask} (executed : system.tasks place = some task) :
    task.listed.id ≠ write.id := by
  intro same
  obtain ⟨based, _⟩ := exclusive.based (by rw [SchedulerSystem.writes, pass]) spares executed same
  have sound := exclusive.sound node
  rw [pass] at sound
  exact sound write List.mem_cons_self task.claimed based (exclusive.running place task executed)

/-- Nobody executes the job of a recovering write: it would have lasted too long. -/
theorem recovers_apart (exclusive : system.Exclusive) (prompt : system.Prompt) {node : Node}
    {write : JobWrite} {rest : List JobWrite}
    (pass : system.passes node = .recovering (write :: rest))
    (spares : system.SparesRunning (.write node)) {place : Node × Fin maxConcurrentJobs}
    {task : SyncTask} (executed : system.tasks place = some task) :
    task.listed.id ≠ write.id := by
  intro same
  obtain ⟨based, small⟩ :=
    exclusive.based (by rw [SchedulerSystem.writes, pass]) spares executed same
  have sound := exclusive.sound node
  rw [pass] at sound
  have stale := sound write List.mem_cons_self task.claimed based
  have soon := prompt place task executed
  rw [staleThreshold, staleJobThresholdSecs, Nat.mul_comm, Nat.mod_eq_of_lt small] at stale
  omega

variable [DecidableEq Node]

theorem setPass (exclusive : system.Exclusive) (node : Node) {pass : SchedulerPass}
    (sound : pass.Sound system.now) : (system.setPass node pass).Exclusive where
  sound := by
    intro other
    simp only [SchedulerSystem.setPass, Function.update_apply]
    split
    · exact sound
    · exact exclusive.sound other
  running := exclusive.running
  stored := exclusive.stored
  unique := exclusive.unique
  records := exclusive.records

theorem endTask (exclusive : system.Exclusive) (place : Node × Fin maxConcurrentJobs) :
    (system.setTask place none).Exclusive := by
  refine exclusive.restrict fun other task found => ?_
  rw [Function.update_apply] at found
  split at found
  · cases found
  · exact found

/-- A task takes a place: its job is stored as claimed and executed nowhere else. -/
theorem setTask (exclusive : system.Exclusive) (place : Node × Fin maxConcurrentJobs)
    {task : SyncTask} (running : task.claimed.status = .running)
    (stored : system.data.syncJobs[task.listed.id]? = some task.claimed)
    (alone : ∀ other otherTask, system.tasks other = some otherTask →
      otherTask.listed.id = task.listed.id → other = place)
    (records : ∀ record, task.stage = .completing record → record.id = task.listed.id) :
    (system.setTask place (some task)).Exclusive := by
  have cases : ∀ {other otherTask}, (system.setTask place (some task)).tasks other =
      some otherTask → other = place ∧ otherTask = task ∨ system.tasks other = some otherTask := by
    intro other otherTask found
    simp only [SchedulerSystem.setTask, Function.update_apply] at found
    split at found
    · rename_i same
      exact Or.inl ⟨same, (Option.some.inj found).symm⟩
    · exact Or.inr found
  refine ⟨exclusive.sound, ?_, ?_, ?_, ?_⟩
  · intro other otherTask found
    rcases cases found with ⟨rfl, rfl⟩ | found
    · exact running
    · exact exclusive.running other otherTask found
  · intro other otherTask found
    rcases cases found with ⟨rfl, rfl⟩ | found
    · exact stored
    · exact exclusive.stored other otherTask found
  · intro first second firstTask secondTask firstFound secondFound same
    rcases cases firstFound with ⟨rfl, rfl⟩ | firstOld
    · rcases cases secondFound with ⟨rfl, rfl⟩ | secondOld
      · rfl
      · exact (alone second secondTask secondOld same.symm).symm
    · rcases cases secondFound with ⟨rfl, rfl⟩ | secondOld
      · exact alone first firstTask firstOld same
      · exact exclusive.unique first second firstTask secondTask firstOld secondOld same
  · intro other otherTask record found completing
    rcases cases found with ⟨rfl, rfl⟩ | found
    · exact records record completing
    · exact exclusive.records other otherTask record found completing

theorem claimJob (exclusive : system.Exclusive) (nodeId : Node → String) (node : Node)
    (permit : Fin maxConcurrentJobs) (job : SyncJob) :
    (system.claimJob nodeId node permit job).Exclusive := by
  rcases system.claimJob_cases nodeId node permit job with
    ⟨stored, next, record, found, idle, _, rfl, inserted, claimed⟩ | refused
  · rw [claimed]
    have apart : ∀ place task, system.tasks place = some task → task.listed.id ≠ job.id :=
      fun place task executed => exclusive.not_executed found idle executed
    refine setTask (exclusive.commit fun place task executed => ?_) (node, permit) rfl
      ((inserted job.id).trans (if_pos rfl))
      (fun other otherTask executed same => absurd same (apart other otherTask executed))
      (fun record impossible => by cases impossible)
    exact (inserted task.listed.id).trans (if_neg (apart place task executed).symm)
  · rw [refused]
    exact exclusive.commit fun _ _ _ => rfl

theorem step (exclusive : system.Exclusive) {externals : Externals} {nodeId : Node → String}
    {label : SchedulerLabel Node} {next : SchedulerSystem Node}
    (stepped : schedulerStep externals nodeId system label = some next)
    (untriggered : system.Untriggered label) (prompt : system.Prompt)
    (spares : system.SparesRunning label) : next.Exclusive := by
  cases schedulerStep_move stepped with
  | tick later =>
    exact ⟨fun node => (exclusive.sound node).later later, exclusive.running, exclusive.stored,
      exclusive.unique, exclusive.records⟩
  | other foreign applied =>
    have jobs := requestStep_syncJobs foreign untriggered applied
    exact exclusive.commit fun place task _ => by rw [jobs]
  | reconcile warm rules caches jobs =>
    exact exclusive.setPass _ (reconcileJobs_sound _ _ _ _ _ _)
  | @stamp node warm rest pass =>
    have sound := exclusive.sound node
    rw [pass] at sound
    refine exclusive.setPass node fun write member => ?_
    rcases List.mem_cons.mp member with rfl | later
    · intro basis impossible
      cases impossible
    · exact sound.tail_reconciling write later
  | @reconcileWrite node write rest request pass requested =>
    have sound := exclusive.sound node
    rw [pass] at sound
    exact (exclusive.commitWrite requested fun place task executed =>
      exclusive.reconciles_apart pass spares executed).setPass node sound.tail_reconciling
  | @recoverWrite node write rest request pass requested =>
    have sound := exclusive.sound node
    rw [pass] at sound
    exact (exclusive.commitWrite requested fun place task executed =>
      exclusive.recovers_apart prompt pass spares executed).setPass node sound.tail_recovering
  | failReconcile => exact exclusive.setPass _ trivial
  | failRecover => exact exclusive.setPass _ fun write member => by cases member
  | recover jobs => exact exclusive.setPass _ (recoverStaleJobs_sound _ _)
  | list jobs => exact exclusive.setPass _ trivial
  | claim pass free => exact (exclusive.claimJob nodeId _ _ _).setPass _ trivial
  | failClaim pass => exact exclusive.setPass _ trivial
  | sleep => exact exclusive.setPass _ trivial
  | complete executing =>
    have running := exclusive.running _ _ executing
    have stored := exclusive.stored _ _ executing
    refine exclusive.setTask _ running stored (fun other otherTask found same =>
      exclusive.unique other _ otherTask _ found executing same) fun record completing => ?_
    cases completing
    rfl
  | @finish node permit listed claimed record completing =>
    have ended := exclusive.endTask (node, permit)
    refine ⟨ended.sound, ended.running, ?_, ended.unique, ended.records⟩
    intro place task found
    have kept := ended.stored place task found
    refine ((BTreeMap.getElem?_insert ..).trans (if_neg ?_)).trans kept
    -- Another task of the same job would sit in the same place.
    intro same
    change Function.update system.tasks (node, permit) none place = some task at found
    rw [Function.update_apply] at found
    obtain ⟨elsewhere, found⟩ := Option.ite_none_left_eq_some.mp found
    refine elsewhere (exclusive.unique place (node, permit) task _ found completing ?_)
    exact same.symm.trans (exclusive.records _ _ record completing rfl)
  | failFinish => exact exclusive.endTask _
  | @crash node =>
    have asleep : (system.setPass node .sleeping).Exclusive := exclusive.setPass node trivial
    refine asleep.restrict fun place task found => ?_
    exact (Option.ite_none_left_eq_some.mp found).2

end SchedulerSystem.Exclusive

/-! ### Claims are exclusive -/

theorem SchedulerSystem.Exclusive.claimsExclusively {Node : Type} {system : SchedulerSystem Node}
    (exclusive : system.Exclusive) (nodeId : Node → String) (label : SchedulerLabel Node) :
    system.ClaimsExclusively nodeId label := by
  intro place id claimed task executed
  unfold SchedulerSystem.claims at claimed
  split at claimed
  · rename_i node permit
    split at claimed
    · rename_i job rest reading pass free
      obtain ⟨succeeded, same⟩ := Option.ite_none_right_eq_some.mp claimed
      obtain rfl := Option.some.inj same
      rcases applyJob_claim system.now system.data job.id (nodeId node) with
        ⟨stored, found, idle, _⟩ | refused
      · exact exclusive.not_executed found idle executed
      · rw [refused] at succeeded
        cases succeeded
    · cases claimed
  · cases claimed

/-- In every run without manual triggers in which no execution lasts longer than the stale
threshold and every reconciling or recovering write spares the running jobs it was not worked out
from, no job is claimed while it is executed. -/
theorem job_claims_are_exclusive {Node : Type} [DecidableEq Node] (externals : Externals)
    (nodeId : Node → String) (data : StateMachineData) (now : Nat)
    (labels : List (SchedulerLabel Node))
    (prompt : Along (schedulerStep externals nodeId)
      (fun system label => system.Untriggered label ∧ system.Prompt)
      (SchedulerSystem.start data now) labels)
    (spares : Along (schedulerStep externals nodeId) SchedulerSystem.SparesRunning
      (SchedulerSystem.start data now) labels) :
    Along (schedulerStep externals nodeId) (SchedulerSystem.ClaimsExclusively nodeId)
      (SchedulerSystem.start data now) labels :=
  (prompt.and spares).derive SchedulerSystem.Exclusive
    (fun _ _ _ stepped meets exclusive => exclusive.step stepped meets.1.1 meets.1.2 meets.2)
    (fun _ label exclusive _ => exclusive.claimsExclusively nodeId label)
    (SchedulerSystem.Exclusive.start data now)

/-- A rule that mirrors every minute. -/
def sampleRule (strategy : MirrorStrategy) : MirrorRule where
  id := "nginx"
  direction := .pull
  localPrefix := "mirror/nginx"
  upstreamRegistry := "registry-1.docker.io"
  upstreamPrefix := none
  schedule := some "* * * * *"
  strategy := strategy
  plainHttp := false
  insecureTls := false
  outboundProxy := ⟨.none, none, none, none⟩
  username := none
  password := none
  createdAt := 0

def sampleNodeId (node : Fin 2) : String :=
  if node = 0 then "node-1" else "node-2"

/-- The node that begins. -/
def sampleNode : Fin 2 := 0

/-- The permit that it takes. -/
def samplePermit : Fin maxConcurrentJobs := 0

/-- The pass of a node in which it commits one write and claims one job. -/
def samplePass (node : Fin 2) : List (SchedulerLabel (Fin 2)) :=
  [.write node, .recover node 0, .list node 0, .claim node 0]

/-- The first node claims the job and crashes, the second one recovers and executes it. -/
def sampleRecovery : List (SchedulerLabel (Fin 2)) :=
  [.other (.mirrorConfig (.putMirrorRule (sampleRule .all))), .reconcile 0 0 0 0 0] ++
    samplePass 0 ++
    [.crash 0, .tick 1000, .reconcile 1 0 0 0 0, .recover 1 0, .write 1, .list 1 0, .claim 1 0,
      .complete 1 0 (.ok ("mirror/nginx", ["latest"])) (fun _ => none), .finish 1 0]

/-- Both nodes find that the job is missing. The second node creates and claims it before the
first node creates it again. -/
def sampleRace : List (SchedulerLabel (Fin 2)) :=
  [.other (.mirrorConfig (.putMirrorRule (sampleRule .all))), .reconcile 0 0 0 0 0,
    .reconcile 1 0 0 0 0] ++ samplePass 1 ++ samplePass 0

/-- The first node then claims the job that the second one executes. -/
theorem job_is_claimed_twice :
    ∃ (labels : List (SchedulerLabel (Fin 2))) (final : SchedulerSystem (Fin 2)),
      run (schedulerStep sampleExternals sampleNodeId)
        (SchedulerSystem.start StateMachineData.empty 0) labels = some final ∧
      Along (schedulerStep sampleExternals sampleNodeId)
        (fun system label => system.Untriggered label ∧ system.Prompt)
        (SchedulerSystem.start StateMachineData.empty 0) labels ∧
      ¬ Along (schedulerStep sampleExternals sampleNodeId)
        (SchedulerSystem.ClaimsExclusively sampleNodeId)
        (SchedulerSystem.start StateMachineData.empty 0) labels := by
  have reached : (run (schedulerStep sampleExternals sampleNodeId)
      (SchedulerSystem.start StateMachineData.empty 0) sampleRace).isSome = true := by
    decide +kernel
  obtain ⟨final, reached⟩ := Option.isSome_iff_exists.mp reached
  refine ⟨sampleRace, final, reached, by decide +kernel, fun along => ?_⟩
  have apart := along.imp fun system label exclusive => exclusive (1, 0)
  exact absurd apart (by decide +kernel)

theorem job_claims_are_exclusive_sample :
    (run (schedulerStep sampleExternals sampleNodeId)
        (SchedulerSystem.start StateMachineData.empty 0) sampleRecovery).any
      (fun final => final.completions = [⟨"mirror-rule-nginx", 1000, 60⟩]) = true ∧
    Along (schedulerStep sampleExternals sampleNodeId)
      (SchedulerSystem.ClaimsExclusively sampleNodeId)
      (SchedulerSystem.start StateMachineData.empty 0) sampleRecovery :=
  ⟨by decide +kernel,
    job_claims_are_exclusive sampleExternals sampleNodeId StateMachineData.empty 0
      sampleRecovery (by decide +kernel) (by decide +kernel)⟩

end Layerhouse
