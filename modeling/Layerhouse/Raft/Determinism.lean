/-
This file settles when two replicas that apply the same log stay equal although
their clocks differ. Four requests read the local clock while they are applied:
the two triggers of a mirror rule and of a proxy-cache warm-up, and the claim and
the trigger of a sync job. Each of them writes the reading into the data unless it
is refused before, so a log is applied alike under all clocks exactly when every
such request in it is refused whatever the clock says.
-/

import Layerhouse.Raft.Effects

namespace Layerhouse

/-! ### Applying a log -/

/-- A log applied by a replica whose clock shows `clock n` while the `n`th entry is applied:
the data it ends in and the responses, entry by entry. -/
def applyLog (externals : Externals) : (Nat → Nat) → StateMachineData → List Request →
    Except Panic (StateMachineData × List Response)
  | _, data, [] => .ok (data, [])
  | clock, data, request :: rest =>
    match applyRequest externals (clock 0) data request with
    | .error panic => .error panic
    | .ok (next, response) =>
      match applyLog externals (fun index => clock (index + 1)) next rest with
      | .error panic => .error panic
      | .ok (final, responses) => .ok (final, response :: responses)

/-- The request is applied without reading the clock, or is refused whatever the clock says. -/
def ClockFree (data : StateMachineData) : Request → Prop
  | .mirrorConfig (.triggerMirrorRule id) =>
    data.mirrorRules[id]? = none ∨ triggerBlocked data .mirror id 0 = true
  | .mirrorConfig (.triggerProxyCacheWarm id) =>
    data.proxyCaches[id]? = none ∨ triggerBlocked data .proxyCache id 0 = true
  | .job (.claimSyncJob id _) => ∀ job, data.syncJobs[id]? = some job → job.status ≠ .idle
  | .job (.triggerSyncJob id) => ∀ job, data.syncJobs[id]? = some job → job.status = .running
  | _ => True

/-- A trigger that is blocked at the clock reading zero is blocked at every reading. -/
theorem triggerBlocked_of_zero {data : StateMachineData} {kind : SyncJobKind} {id : String}
    (blocked : triggerBlocked data kind id 0 = true) (now : Nat) :
    triggerBlocked data kind id now = true := by
  obtain ⟨entry, member, blocks⟩ := List.any_eq_true.mp blocked
  refine List.any_eq_true.mpr ⟨entry, member, ?_⟩
  simp only [syncJobBlocksTrigger, decide_eq_true_eq] at blocks ⊢
  obtain ⟨sameKind, sameRule, busy⟩ := blocks
  refine ⟨sameKind, sameRule, busy.imp_right fun oneShot => ?_⟩
  exact ⟨oneShot.1, Nat.le_trans oneShot.2 (Nat.zero_le now)⟩

/-! ### One request -/

theorem applyMirrorConfig_clockFree {data : StateMachineData} {request : MirrorConfigRequest}
    (free : ClockFree data (.mirrorConfig request)) (first second : Nat) :
    applyMirrorConfig first data request = applyMirrorConfig second data request := by
  cases request with
  | triggerMirrorRule id =>
    rw [applyMirrorConfig, applyMirrorConfig]
    rcases free with missing | blocked
    · rw [missing]
    · simp only [triggerBlocked_of_zero blocked, if_true]
  | triggerProxyCacheWarm id =>
    rw [applyMirrorConfig, applyMirrorConfig]
    rcases free with missing | blocked
    · rw [missing]
    · simp only [triggerBlocked_of_zero blocked, if_true]
  | _ => rfl

theorem applyJob_clockFree {data : StateMachineData} {request : JobRequest}
    (free : ClockFree data (.job request)) (first second : Nat) :
    applyJob first data request = applyJob second data request := by
  cases request with
  | claimSyncJob id nodeId =>
    rw [applyJob, applyJob]
    cases found : data.syncJobs[id]? with
    | none => rfl
    | some job => simp only [if_pos (free job found)]
  | triggerSyncJob id =>
    rw [applyJob, applyJob]
    cases found : data.syncJobs[id]? with
    | none => rfl
    | some job => simp only [if_pos (free job found)]
  | _ => rfl

theorem applyRequest_of_clockFree (externals : Externals) {data : StateMachineData}
    {request : Request} (free : ClockFree data request) (first second : Nat) :
    applyRequest externals first data request = applyRequest externals second data request := by
  cases request with
  | mirrorConfig inner =>
    rw [applyRequest, applyRequest, applyMirrorConfig_clockFree free first second]
  | job inner => rw [applyRequest, applyRequest, applyJob_clockFree free first second]
  | _ => rfl

/-- A trigger that is not refused answers with a job that carries the clock reading. -/
theorem triggered_nextRunAt {data : StateMachineData} {kind : SyncJobKind} {id : String}
    (build : Nat → SyncJob) (reads : ∀ now, (build now).nextRunAt = now)
    (same : ∀ first second,
      (if triggerBlocked data kind id first then MirrorConfigResponse.bool false
        else .syncJob (some (build first))) =
      (if triggerBlocked data kind id second then MirrorConfigResponse.bool false
        else .syncJob (some (build second)))) :
    triggerBlocked data kind id 0 = true := by
  by_contra unblocked
  have equal := same 0 1
  rw [if_neg unblocked] at equal
  split at equal
  · cases equal
  · have jobs : build 0 = build 1 := Option.some.inj (MirrorConfigResponse.syncJob.inj equal)
    have readings := congrArg SyncJob.nextRunAt jobs
    rw [reads, reads] at readings
    cases readings

theorem clockFree_of_applyMirrorConfig {data : StateMachineData} {request : MirrorConfigRequest}
    (same : ∀ first second, applyMirrorConfig first data request =
      applyMirrorConfig second data request) : ClockFree data (.mirrorConfig request) := by
  cases request with
  | triggerMirrorRule id =>
    cases found : data.mirrorRules[id]? with
    | none => exact Or.inl found
    | some rule =>
      refine Or.inr (triggered_nextRunAt
        (fun now => mirrorRuleJob rule (id ++ "-" ++ toString now) now 0) (fun _ => rfl) ?_)
      intro first second
      have answers := congrArg Prod.snd (same first second)
      simp only [applyMirrorConfig, found] at answers
      rw [apply_ite Prod.snd, apply_ite Prod.snd] at answers
      exact answers
  | triggerProxyCacheWarm id =>
    cases found : data.proxyCaches[id]? with
    | none => exact Or.inl found
    | some cache =>
      refine Or.inr (triggered_nextRunAt (proxyCacheWarmJob cache) (fun _ => rfl) ?_)
      intro first second
      have answers := congrArg Prod.snd (same first second)
      simp only [applyMirrorConfig, found] at answers
      rw [apply_ite Prod.snd, apply_ite Prod.snd] at answers
      exact answers
  | _ => trivial

theorem clockFree_of_applyJob {data : StateMachineData} {request : JobRequest}
    (same : ∀ first second, applyJob first data request = applyJob second data request) :
    ClockFree data (.job request) := by
  cases request with
  | claimSyncJob id nodeId =>
    intro job found idle
    have jobs := congrArg (fun result => result.1.syncJobs[id]?.bind (·.claimedAt)) (same 0 1)
    simp [applyJob, found, idle] at jobs
  | triggerSyncJob id =>
    intro job found
    by_contra stopped
    have jobs := congrArg (fun result => result.1.syncJobs[id]?.map (·.nextRunAt)) (same 0 1)
    simp [applyJob, found, stopped] at jobs
  | _ => trivial

/-- A request is applied alike under all clocks exactly when it is clock-free. -/
theorem applyRequest_clock_iff (externals : Externals) (data : StateMachineData)
    (request : Request) :
    (∀ first second, applyRequest externals first data request =
      applyRequest externals second data request) ↔ ClockFree data request := by
  constructor
  · intro same
    cases request with
    | mirrorConfig inner =>
      refine clockFree_of_applyMirrorConfig fun first second => ?_
      have results := Except.ok.inj (same first second)
      rw [Prod.mk.injEq, Response.mirrorConfig.injEq] at results
      exact Prod.ext results.1 results.2
    | job inner =>
      refine clockFree_of_applyJob fun first second => ?_
      have results := Except.ok.inj (same first second)
      rw [Prod.mk.injEq, Response.job.injEq] at results
      exact Prod.ext results.1 results.2
    | _ => trivial
  · exact fun free => applyRequest_of_clockFree externals free

/-! ### Whole logs -/

/-- The step of a replica whose clock shows zero; a clock-free request moves every replica
alike. -/
def logStep (externals : Externals) (data : StateMachineData) (request : Request) :
    Option StateMachineData :=
  requestStep externals data (0, request)

/-- The log after its first entry, as a replica with the given clock applies it. -/
theorem applyLog_cons_of_ok {externals : Externals} {data next : StateMachineData}
    {request : Request} {response : Response} {clock : Nat → Nat} (rest : List Request)
    (applied : applyRequest externals (clock 0) data request = .ok (next, response)) :
    applyLog externals clock data (request :: rest) =
      (applyLog externals (fun index => clock (index + 1)) next rest).map
        fun result => (result.1, response :: result.2) := by
  rw [applyLog, applied]
  simp only
  cases applyLog externals (fun index => clock (index + 1)) next rest <;> rfl

theorem applyLog_singleton (externals : Externals) (clock : Nat → Nat) (data : StateMachineData)
    (request : Request) :
    applyLog externals clock data [request] =
      (applyRequest externals (clock 0) data request).map fun result => (result.1, [result.2]) := by
  rw [applyLog]
  cases applyRequest externals (clock 0) data request <;> rfl

theorem except_map_injective {Error Value Result : Type} {change : Value → Result}
    (injective : Function.Injective change) :
    Function.Injective (Except.map change : Except Error Value → Except Error Result) := by
  intro first second same
  cases first with
  | error firstError =>
    cases second with
    | error secondError =>
      rw [Except.error.inj same]
    | ok secondValue => cases same
  | ok firstValue =>
    cases second with
    | error secondError => cases same
    | ok secondValue => rw [injective (Except.ok.inj same)]

theorem applyLog_of_clockFree (externals : Externals) {data : StateMachineData}
    {log : List Request} (free : Along (logStep externals) ClockFree data log)
    (first second : Nat → Nat) :
    applyLog externals first data log = applyLog externals second data log := by
  induction log generalizing data first second with
  | nil => rfl
  | cons request rest inductionHypothesis =>
    have same := applyRequest_of_clockFree externals free.1
    cases applied : applyRequest externals 0 data request with
    | error panic =>
      rw [applyLog, applyLog, same (first 0) 0, same (second 0) 0, applied]
    | ok result =>
      obtain ⟨next, response⟩ := result
      have stepped : logStep externals data request = some next :=
        requestStep_eq_some.mpr ⟨response, applied⟩
      rw [applyLog_cons_of_ok rest ((same (first 0) 0).trans applied),
        applyLog_cons_of_ok rest ((same (second 0) 0).trans applied),
        inductionHypothesis (free.2 next stepped)]

/-- The clock that shows `now` at the first entry and then follows another clock. -/
def Clock.cons (now : Nat) (clock : Nat → Nat) : Nat → Nat
  | 0 => now
  | index + 1 => clock index

/-- Two replicas that start from equal data agree on the data and on every response after each
entry of a log, whatever their clocks show, exactly when every entry is clock-free in the state
it is applied to. -/
theorem replicas_agree_iff_clockFree (externals : Externals) (data : StateMachineData)
    (log : List Request) :
    (∀ count first second, applyLog externals first data (log.take count) =
      applyLog externals second data (log.take count)) ↔
      Along (logStep externals) ClockFree data log := by
  constructor
  · intro agree
    induction log generalizing data with
    | nil => trivial
    | cons request rest inductionHypothesis =>
      have free : ClockFree data request := by
        refine (applyRequest_clock_iff externals data request).mp fun first second => ?_
        have single := agree 1 (fun _ => first) (fun _ => second)
        rw [List.take_succ_cons, List.take_zero, applyLog_singleton, applyLog_singleton] at single
        exact except_map_injective (fun _ _ same => by simpa [Prod.ext_iff] using same) single
      refine ⟨free, fun next stepped => inductionHypothesis next fun count first second => ?_⟩
      obtain ⟨response, applied⟩ := requestStep_eq_some.mp stepped
      have whole := agree (count + 1) (Clock.cons 0 first) (Clock.cons 0 second)
      rw [List.take_succ_cons, applyLog_cons_of_ok _ applied, applyLog_cons_of_ok _ applied]
        at whole
      exact except_map_injective (fun _ _ same => by simpa [Prod.ext_iff] using same) whole
  · intro free count first second
    exact applyLog_of_clockFree externals (along_take free count) first second

/-- An idle job, as the scheduler puts it. -/
def sampleJob : SyncJob where
  id := "job"
  kind := .legacyWarm
  ruleId := none
  ruleName := none
  image := "users/alice/app"
  tags := []
  intervalSecs := 3600
  status := .idle
  claimedBy := none
  claimedAt := none
  lastRunAt := none
  nextRunAt := 0
  lastError := none

/-- Two replicas whose clocks differ by a second while a claimed job is applied store different
claim times. -/
theorem replicas_diverge_on_claimSyncJob :
    ¬ ∀ (externals : Externals) (data : StateMachineData) (log : List Request)
        (first second : Nat → Nat),
      applyLog externals first data log = applyLog externals second data log := by
  intro agree
  have same := agree sampleExternals StateMachineData.empty
    [.job (.putSyncJob sampleJob), .job (.claimSyncJob "job" "node-1")] (fun _ => 1) (fun _ => 2)
  have claimTimes := congrArg (fun result : Except Panic (StateMachineData × List Response) =>
    (result.toOption.bind (·.1.syncJobs["job"]?)).bind (·.claimedAt)) same
  revert claimTimes
  decide

end Layerhouse
