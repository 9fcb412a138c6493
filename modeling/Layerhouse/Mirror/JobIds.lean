/-
This file compares the ids of sync jobs. All jobs are stored in one map, and five places
make up the key of a record from a free-form id: the schedule of a mirror rule, the
schedule of a proxy cache, a warm image, the trigger of a rule and the trigger of a
cache. A record that is stored under the id of another source's job replaces that job.

The ids of the triggers end in the time of the trigger, and a time has no dash, so the
last dash of such an id is known. This decides which ids can be the same, and the file
lists all of the cases: nothing keeps an administrator from choosing ids that fall into
one of them.
-/

import Layerhouse.Mirror.Intervals

namespace Layerhouse

/-! ### Ids that end in a time -/

/-- What stands before and after the last dash of a text. -/
theorem lastDash_inj {before other after rest : String} (ofAfter : '-' ∉ after.toList)
    (ofRest : '-' ∉ rest.toList) (same : before ++ "-" ++ after = other ++ "-" ++ rest) :
    before = other ∧ after = rest := by
  exact (Text.lastSeparator_inj ofAfter ofRest).mp same

theorem dashed_time_inj {before other : String} {first second : Nat} :
    before ++ "-" ++ toString first = other ++ "-" ++ toString second ↔
      before = other ∧ first = second := by
  constructor
  · intro same
    obtain ⟨sameBefore, sameTime⟩ :=
      lastDash_inj (Text.dash_notMem_toString first) (Text.dash_notMem_toString second) same
    exact ⟨sameBefore, Text.toString_inj sameTime⟩
  · rintro ⟨rfl, rfl⟩
    rfl

/-- A text that begins with `head` and a dash ends in a dash and a time in two ways: the time is
all that follows, or what follows ends in a dash and the time. -/
theorem dashed_eq_dashed_time {head rest before : String} {time : Nat} :
    head ++ "-" ++ rest = before ++ "-" ++ toString time ↔
      (before = head ∧ rest = toString time) ∨
        ∃ stem, rest = stem ++ "-" ++ toString time ∧ before = head ++ "-" ++ stem := by
  constructor
  · intro same
    cases split : Text.rsplitOnce ['-'] rest.toList with
    | none =>
      have absent : '-' ∉ rest.toList := by
        intro member
        obtain ⟨first, second, found⟩ := List.append_of_mem member
        refine Text.rsplitOnce_eq_none.mp split first second ?_
        rw [found, List.append_assoc, List.singleton_append]
      obtain ⟨sameBefore, sameTime⟩ := lastDash_inj absent (Text.dash_notMem_toString time) same
      exact Or.inl ⟨sameBefore.symm, sameTime⟩
    | some halves =>
      obtain ⟨found, absent⟩ := Text.rsplitOnce_singleton.mp split
      have parts : rest = String.ofList halves.1 ++ "-" ++ String.ofList halves.2 := by
        have dash : "-" = String.singleton '-' := rfl
        rw [← String.toList_inj, dash, Text.toList_separated, String.toList_ofList,
          String.toList_ofList, found]
      rw [parts, ← String.append_assoc, ← String.append_assoc] at same
      obtain ⟨sameBefore, sameTime⟩ := lastDash_inj (by rw [String.toList_ofList]; exact absent)
        (Text.dash_notMem_toString time) same
      refine Or.inr ⟨String.ofList halves.1, ?_, sameBefore.symm⟩
      rw [parts, sameTime]
  · rintro (⟨rfl, rfl⟩ | ⟨stem, rfl, rfl⟩)
    · rfl
    · rw [← String.append_assoc, ← String.append_assoc]

/-! ### Where jobs come from -/

/-- The source of a job. Triggers are numbered, so that two of one second can be told apart. -/
inductive JobOrigin where
  | scheduledRule (rule : String)
  | scheduledCache (cache : String)
  | warmImage (image : String)
  | triggeredRule (rule : String) (now trigger : Nat)
  | triggeredCache (cache : String) (now trigger : Nat)
deriving DecidableEq

namespace JobOrigin

def jobId : JobOrigin → String
  | .scheduledRule rule => "mirror-rule-" ++ rule
  | .scheduledCache cache => "proxy-cache-" ++ cache ++ "-warm"
  | .warmImage image => image
  | .triggeredRule rule now _ => rule ++ "-" ++ toString now
  | .triggeredCache cache now _ => cache ++ "-warm-" ++ toString now

/-- The job is one that the source creates. -/
def Creates (origin : JobOrigin) (job : SyncJob) : Prop :=
  match origin with
  | .scheduledRule id => ∃ rule now, rule.id = id ∧ scheduledMirrorJob rule now = some job
  | .scheduledCache id => ∃ cache now, cache.id = id ∧ scheduledProxyCacheJob cache now = some job
  | .warmImage id => ∃ warm now, warm.id = id ∧ legacyWarmJob warm now = job
  | .triggeredRule id now _ =>
    ∃ data, (applyMirrorConfig now data (.triggerMirrorRule id)).2 = .syncJob (some job)
  | .triggeredCache id now _ =>
    ∃ data, (∀ cache, data.proxyCaches[id]? = some cache → cache.id = id) ∧
      (applyMirrorConfig now data (.triggerProxyCacheWarm id)).2 = .syncJob (some job)

/-- The requests that the source commits to store its job. A reconcile works them out from a list
of the jobs. -/
def Stores (origin : JobOrigin) (now : Nat) (data : StateMachineData) (request : Request) :
    Prop :=
  match origin with
  | .scheduledRule id =>
    ∃ rule jobs reading wanted write put, rule.id = id ∧
      scheduledMirrorJob rule reading = some wanted ∧
      reconcileScheduled jobs wanted = some write ∧ write.request = some put ∧ request = .job put
  | .scheduledCache id =>
    ∃ cache jobs reading wanted write put, cache.id = id ∧
      scheduledProxyCacheJob cache reading = some wanted ∧
      reconcileScheduled jobs wanted = some write ∧ write.request = some put ∧ request = .job put
  | .warmImage id =>
    ∃ warm jobs reading write put, warm.id = id ∧ reconcileWarm jobs warm = some write ∧
      (write.request = some put ∨
        write = .create warm ∧ put = .putSyncJob (legacyWarmJob warm reading)) ∧
      request = .job put
  | .triggeredRule id triggered _ =>
    now = triggered ∧ request = .mirrorConfig (.triggerMirrorRule id)
  | .triggeredCache id triggered _ =>
    now = triggered ∧ (∀ cache, data.proxyCaches[id]? = some cache → cache.id = id) ∧
      request = .mirrorConfig (.triggerProxyCacheWarm id)

/-- The requests that are committed for the source: those that store its job, and the one that
deletes the job when the source is gone. -/
def Commits (origin : JobOrigin) (now : Nat) (data : StateMachineData) (request : Request) :
    Prop :=
  origin.Stores now data request ∨
    ∃ warmImages desired job write put, job.id = origin.jobId ∧
      deleteUnwanted warmImages desired job = some write ∧ write.request = some put ∧
      request = .job put

/-- A request of the first source changes the job record of the second. -/
def Overwrites (first second : JobOrigin) : Prop :=
  ∃ externals now data request next response, first.Commits now data request ∧
    applyRequest externals now data request = .ok (next, response) ∧
    next.syncJobs[second.jobId]? ≠ data.syncJobs[second.jobId]?

/-- The two sources have the same job id. -/
def Meets : JobOrigin → JobOrigin → Prop
  | .warmImage image, .scheduledRule rule => image = "mirror-rule-" ++ rule
  | .warmImage image, .scheduledCache cache => image = "proxy-cache-" ++ cache ++ "-warm"
  | .warmImage image, .triggeredRule rule now _ => image = rule ++ "-" ++ toString now
  | .warmImage image, .triggeredCache cache now _ => image = cache ++ "-warm-" ++ toString now
  | .triggeredRule rule now _, .triggeredRule other at_ _ => rule = other ∧ now = at_
  | .triggeredCache cache now _, .triggeredCache other at_ _ => cache = other ∧ now = at_
  | .triggeredRule rule now _, .triggeredCache cache at_ _ => rule = cache ++ "-warm" ∧ now = at_
  | .scheduledRule rule, .triggeredRule other now _ =>
    (other = "mirror-rule" ∧ rule = toString now) ∨
      ∃ stem, rule = stem ++ "-" ++ toString now ∧ other = "mirror-rule-" ++ stem
  | .scheduledRule rule, .triggeredCache cache now _ =>
    ∃ stem, rule = stem ++ "-" ++ toString now ∧ cache ++ "-warm" = "mirror-rule-" ++ stem
  | _, _ => False

/-- The two sources have the same job id, in either order. -/
def Clashes (first second : JobOrigin) : Prop :=
  first.Meets second ∨ second.Meets first

/-- The order in which `Meets` names two sources. -/
def rank : JobOrigin → Nat
  | .warmImage _ => 0
  | .scheduledRule _ => 1
  | .scheduledCache _ => 2
  | .triggeredRule .. => 3
  | .triggeredCache .. => 4

theorem jobId_scheduledRule (rule : String) :
    (scheduledRule rule).jobId = "mirror-rule" ++ "-" ++ rule := rfl

theorem jobId_scheduledCache (cache : String) :
    (scheduledCache cache).jobId = "proxy-cache-" ++ cache ++ "-" ++ "warm" := by
  have joined : "-warm" = "-" ++ "warm" := rfl
  rw [jobId, joined, ← String.append_assoc]

theorem jobId_triggeredCache (cache : String) (now trigger : Nat) :
    (triggeredCache cache now trigger).jobId = cache ++ "-warm" ++ "-" ++ toString now := by
  have joined : "-warm-" = "-warm" ++ "-" := rfl
  rw [jobId, joined, ← String.append_assoc]

/-- The id of a scheduled cache ends in no time. -/
theorem jobId_scheduledCache_ne_dashed_time (cache before : String) (time : Nat) :
    (scheduledCache cache).jobId ≠ before ++ "-" ++ toString time := by
  rw [jobId_scheduledCache]
  intro same
  have warm := (lastDash_inj (by decide) (Text.dash_notMem_toString time) same).2
  have letter : 'w' ∈ (toString time).toList := by
    rw [← warm]
    decide
  rw [Text.toList_toString] at letter
  exact absurd (Nat.isDigit_of_mem_toDigits (by decide) (by decide) letter) (by decide)

theorem jobId_eq_of_meets {first second : JobOrigin} (meets : first.Meets second) :
    first.jobId = second.jobId := by
  unfold Meets at meets
  split at meets
  · exact meets
  · exact meets
  · exact meets
  · exact meets
  · obtain ⟨rfl, rfl⟩ := meets
    rfl
  · obtain ⟨rfl, rfl⟩ := meets
    rfl
  · obtain ⟨rfl, rfl⟩ := meets
    exact (jobId_triggeredCache ..).symm
  · exact dashed_eq_dashed_time.mpr meets
  · obtain ⟨stem, ofRule, ofCache⟩ := meets
    rw [jobId_triggeredCache, jobId_scheduledRule]
    exact dashed_eq_dashed_time.mpr (Or.inr ⟨stem, ofRule, ofCache⟩)
  · exact meets.elim

theorem meets_of_jobId_eq {first second : JobOrigin} (ordered : first.rank ≤ second.rank)
    (different : first ≠ second) (same : first.jobId = second.jobId) : first.Meets second := by
  cases first with
  | warmImage image =>
    cases second with
    | warmImage other => exact absurd (congrArg warmImage same) different
    | _ => exact same
  | scheduledRule rule =>
    cases second with
    | warmImage image => exact absurd ordered (by simp [rank])
    | scheduledRule other =>
      exact absurd (congrArg scheduledRule (mirrorJobId_inj same)) different
    | scheduledCache cache => exact absurd same (mirrorJobId_ne_proxyCacheJobId rule cache)
    | triggeredRule other now trigger => exact dashed_eq_dashed_time.mp same
    | triggeredCache cache now trigger =>
      rw [jobId_triggeredCache, jobId_scheduledRule] at same
      rcases dashed_eq_dashed_time.mp same with ⟨short, _⟩ | found
      · have ends := congrArg (fun text => text.toList.getLast?) short
        simp only [String.toList_append] at ends
        rw [List.getLast?_append] at ends
        cases ends
      · exact found
  | scheduledCache cache =>
    cases second with
    | warmImage image => exact absurd ordered (by simp [rank])
    | scheduledRule rule => exact absurd ordered (by simp [rank])
    | scheduledCache other =>
      exact absurd (congrArg scheduledCache (proxyCacheJobId_inj same)) different
    | triggeredRule rule now trigger =>
      exact absurd same (jobId_scheduledCache_ne_dashed_time cache rule now)
    | triggeredCache other now trigger =>
      rw [jobId_triggeredCache] at same
      exact absurd same (jobId_scheduledCache_ne_dashed_time cache _ now)
  | triggeredRule rule now trigger =>
    cases second with
    | warmImage image => exact absurd ordered (by simp [rank])
    | scheduledRule other => exact absurd ordered (by simp [rank])
    | scheduledCache cache => exact absurd ordered (by simp [rank])
    | triggeredRule other at_ again => exact dashed_time_inj.mp same
    | triggeredCache cache at_ again =>
      rw [jobId_triggeredCache] at same
      exact dashed_time_inj.mp same
  | triggeredCache cache now trigger =>
    cases second with
    | warmImage image => exact absurd ordered (by simp [rank])
    | scheduledRule other => exact absurd ordered (by simp [rank])
    | scheduledCache other => exact absurd ordered (by simp [rank])
    | triggeredRule other at_ again => exact absurd ordered (by simp [rank])
    | triggeredCache other at_ again =>
      rw [jobId_triggeredCache, jobId_triggeredCache] at same
      obtain ⟨sameCache, sameTime⟩ := dashed_time_inj.mp same
      exact ⟨String.append_left_inj _ |>.mp sameCache, sameTime⟩

/-- Different sources have the same job id exactly if their ids clash. -/
theorem jobId_eq_iff {first second : JobOrigin} (different : first ≠ second) :
    first.jobId = second.jobId ↔ first.Clashes second := by
  constructor
  · intro same
    rcases Nat.le_total first.rank second.rank with ordered | ordered
    · exact Or.inl (meets_of_jobId_eq ordered different same)
    · exact Or.inr (meets_of_jobId_eq ordered different.symm same.symm)
  · rintro (meets | meets)
    · exact jobId_eq_of_meets meets
    · exact (jobId_eq_of_meets meets).symm

/-! ### Created jobs -/

def sampleRuleOf (id : String) : MirrorRule :=
  { sampleRule .all with id := id }

def sampleCacheOf (id : String) : ProxyCache where
  id := id
  localPrefix := "cache"
  upstreamRegistry := "registry-1.docker.io"
  upstreamPrefix := none
  warmFilters := [.all]
  warmSchedule := some "* * * * *"
  plainHttp := false
  insecureTls := false
  outboundProxy := ⟨.none, none, none, none⟩
  username := none
  password := none
  createdAt := 0

theorem creates_id {origin : JobOrigin} {job : SyncJob} (creates : origin.Creates job) :
    job.id = origin.jobId := by
  cases origin with
  | scheduledRule id =>
    obtain ⟨rule, now, rfl, scheduled⟩ := creates
    obtain ⟨interval, _, rfl⟩ := Option.map_eq_some_iff.mp scheduled
    rfl
  | scheduledCache id =>
    obtain ⟨cache, now, rfl, scheduled⟩ := creates
    obtain ⟨interval, _, rfl⟩ := Option.map_eq_some_iff.mp scheduled
    rfl
  | warmImage id =>
    obtain ⟨warm, now, rfl, rfl⟩ := creates
    rfl
  | triggeredRule id now trigger =>
    obtain ⟨data, answered⟩ := creates
    rw [applyMirrorConfig] at answered
    split at answered
    · cases answered
    split at answered
    · cases answered
    · cases answered
      rfl
  | triggeredCache id now trigger =>
    obtain ⟨data, keyed, answered⟩ := creates
    rw [applyMirrorConfig] at answered
    split at answered
    · cases answered
    rename_i cache found
    split at answered
    · cases answered
    · cases answered
      rw [proxyCacheWarmJob, keyed cache found]
      rfl

theorem scheduleIntervalSecs_everyMinute : scheduleIntervalSecs "* * * * *" = some 60 := by
  decide +kernel

/-- Every source creates jobs. -/
theorem exists_creates (origin : JobOrigin) : ∃ job, origin.Creates job := by
  cases origin with
  | scheduledRule id =>
    have scheduled : ∃ job, scheduledMirrorJob (sampleRuleOf id) 0 = some job :=
      ⟨_, Option.map_eq_some_iff.mpr ⟨60, scheduleIntervalSecs_everyMinute, rfl⟩⟩
    obtain ⟨job, scheduled⟩ := scheduled
    exact ⟨job, sampleRuleOf id, 0, rfl, scheduled⟩
  | scheduledCache id =>
    have scheduled : ∃ job, scheduledProxyCacheJob (sampleCacheOf id) 0 = some job :=
      ⟨_, Option.map_eq_some_iff.mpr ⟨60, scheduleIntervalSecs_everyMinute, rfl⟩⟩
    obtain ⟨job, scheduled⟩ := scheduled
    exact ⟨job, sampleCacheOf id, 0, rfl, scheduled⟩
  | warmImage id => exact ⟨_, ⟨id, "", [], 0⟩, 0, rfl, rfl⟩
  | triggeredRule id now trigger =>
    let data := StateMachineData.empty
    have stored : (data.mirrorRules.insert id (sampleRuleOf id))[id]? = some (sampleRuleOf id) :=
      (BTreeMap.getElem?_insert ..).trans (if_pos rfl)
    refine ⟨mirrorRuleJob (sampleRuleOf id) (id ++ "-" ++ toString now) now 0,
      { data with mirrorRules := data.mirrorRules.insert id (sampleRuleOf id) }, ?_⟩
    rw [applyMirrorConfig]
    simp only [stored]
    rfl
  | triggeredCache id now trigger =>
    let data := StateMachineData.empty
    have stored : (data.proxyCaches.insert id (sampleCacheOf id))[id]? =
        some (sampleCacheOf id) :=
      (BTreeMap.getElem?_insert ..).trans (if_pos rfl)
    refine ⟨proxyCacheWarmJob (sampleCacheOf id) now,
      { data with proxyCaches := data.proxyCaches.insert id (sampleCacheOf id) }, ?_, ?_⟩
    · intro cache found
      obtain rfl := Option.some.inj (stored.symm.trans found)
      rfl
    · rw [applyMirrorConfig]
      simp only [stored]
      rfl

theorem stores_frame {origin : JobOrigin} {externals : Externals} {now : Nat}
    {data next : StateMachineData} {request : Request} {response : Response} {id : String}
    (stores : origin.Stores now data request)
    (applied : applyRequest externals now data request = .ok (next, response))
    (other : origin.jobId ≠ id) : next.syncJobs[id]? = data.syncJobs[id]? := by
  cases origin with
  | scheduledRule ruleId =>
    obtain ⟨rule, jobs, reading, wanted, write, put, rfl, scheduled, planned, requested, rfl⟩ :=
      stores
    obtain ⟨rfl, rfl⟩ := Prod.mk.inj (Except.ok.inj applied)
    refine JobWrite.request_getElem? requested now data ?_
    have created : (scheduledRule rule.id).Creates wanted := ⟨rule, reading, rfl, scheduled⟩
    rw [reconcileScheduled_id planned, creates_id created]
    exact other
  | scheduledCache cacheId =>
    obtain ⟨cache, jobs, reading, wanted, write, put, rfl, scheduled, planned, requested, rfl⟩ :=
      stores
    obtain ⟨rfl, rfl⟩ := Prod.mk.inj (Except.ok.inj applied)
    refine JobWrite.request_getElem? requested now data ?_
    have created : (scheduledCache cache.id).Creates wanted := ⟨cache, reading, rfl, scheduled⟩
    rw [reconcileScheduled_id planned, creates_id created]
    exact other
  | warmImage imageId =>
    obtain ⟨warm, jobs, reading, write, put, rfl, planned, requested, rfl⟩ := stores
    obtain ⟨rfl, rfl⟩ := Prod.mk.inj (Except.ok.inj applied)
    rcases requested with requested | ⟨_, rfl⟩
    · refine JobWrite.request_getElem? requested now data ?_
      rw [reconcileWarm_id planned]
      exact other
    · exact (BTreeMap.getElem?_insert ..).trans (if_neg other)
  | triggeredRule ruleId triggered trigger =>
    obtain ⟨rfl, rfl⟩ := stores
    obtain ⟨rfl, rfl⟩ := Prod.mk.inj (Except.ok.inj applied)
    show (applyMirrorConfig now data (.triggerMirrorRule ruleId)).1.syncJobs[id]? = _
    rw [applyMirrorConfig]
    split
    · rfl
    split
    · rfl
    · exact (BTreeMap.getElem?_insert ..).trans (if_neg other)
  | triggeredCache cacheId triggered trigger =>
    obtain ⟨rfl, keyed, rfl⟩ := stores
    obtain ⟨rfl, rfl⟩ := Prod.mk.inj (Except.ok.inj applied)
    show (applyMirrorConfig now data (.triggerProxyCacheWarm cacheId)).1.syncJobs[id]? = _
    rw [applyMirrorConfig]
    split
    · rfl
    rename_i cache found
    split
    · rfl
    · refine (BTreeMap.getElem?_insert ..).trans (if_neg ?_)
      rw [proxyCacheWarmJob, keyed cache found]
      exact other

/-- The requests of a source touch no record but its own. -/
theorem commits_frame {origin : JobOrigin} {externals : Externals} {now : Nat}
    {data next : StateMachineData} {request : Request} {response : Response} {id : String}
    (commits : origin.Commits now data request)
    (applied : applyRequest externals now data request = .ok (next, response))
    (other : origin.jobId ≠ id) : next.syncJobs[id]? = data.syncJobs[id]? := by
  rcases commits with stores | ⟨warmImages, desired, job, write, put, own, planned, requested, rfl⟩
  · exact stores_frame stores applied other
  · obtain ⟨rfl, rfl⟩ := Prod.mk.inj (Except.ok.inj applied)
    obtain ⟨_, same⟩ := Option.ite_none_right_eq_some.mp planned
    obtain rfl := Option.some.inj same
    refine JobWrite.request_getElem? requested now data ?_
    show job.id ≠ id
    rw [own]
    exact other

/-- A job that one source creates never has the id of a job that another source creates, and the
requests of one source leave the job record of the other as it is. -/
def StaysApart (first second : JobOrigin) : Prop :=
  (∀ job other, first.Creates job → second.Creates other → job.id ≠ other.id) ∧
    ¬ first.Overwrites second ∧ ¬ second.Overwrites first

theorem not_overwrites {first second : JobOrigin} (apart : first.jobId ≠ second.jobId) :
    ¬ first.Overwrites second := by
  rintro ⟨externals, now, data, request, next, response, commits, applied, changed⟩
  exact changed (commits_frame commits applied apart)

/-- Two sources, or two triggers of one source, stay apart exactly if their ids do not clash. -/
theorem job_ids_stay_apart_iff {first second : JobOrigin} (different : first ≠ second) :
    first.StaysApart second ↔ ¬ first.Clashes second := by
  rw [← jobId_eq_iff different]
  constructor
  · rintro ⟨unequal, _, _⟩ same
    obtain ⟨job, created⟩ := exists_creates first
    obtain ⟨other, otherCreated⟩ := exists_creates second
    apply unequal job other created otherCreated
    rw [creates_id created, creates_id otherCreated, same]
  · intro apart
    refine ⟨fun job other created otherCreated same => apart ?_, not_overwrites apart,
      not_overwrites (Ne.symm apart)⟩
    rw [← creates_id created, ← creates_id otherCreated, same]

/-- Two triggers of one rule in different seconds stay apart. -/
theorem job_ids_stay_apart_sample :
    (triggeredRule "nginx" 5 0).StaysApart (triggeredRule "nginx" 6 1) :=
  (job_ids_stay_apart_iff (by decide)).mpr fun clashes =>
    clashes.elim (fun meets => absurd meets.2 (by decide)) fun meets => absurd meets.2 (by decide)

end JobOrigin

/-! ### Ids of the administrator -/

/-- All that the admin API asks of the id of a rule or a cache. -/
def required (value field : String) : Except LayerhouseError Unit :=
  if Text.trim value.toList = [] then .error (.nameInvalid (field ++ " is required")) else .ok ()

/-- A rule is called like the warm-up of a cache. Both are triggered in one second, and the job of
the rule takes the place of the job of the cache. -/
theorem job_ids_collide :
    ∃ before after, required "a" "id" = .ok () ∧ required "a-warm" "id" = .ok () ∧
      run (requestStep sampleExternals) StateMachineData.empty
        [(1, .mirrorConfig (.putProxyCache (JobOrigin.sampleCacheOf "a"))),
          (2, .mirrorConfig (.putMirrorRule (JobOrigin.sampleRuleOf "a-warm"))),
          (5, .mirrorConfig (.triggerProxyCacheWarm "a"))] = some before ∧
      requestStep sampleExternals before (5, .mirrorConfig (.triggerMirrorRule "a-warm")) =
        some after ∧
      (before.syncJobs["a-warm-5"]?.map fun job => (job.kind, job.ruleId)) =
        some (.proxyCache, some "a") ∧
      (after.syncJobs["a-warm-5"]?.map fun job => (job.kind, job.ruleId)) =
        some (.mirror, some "a-warm") := by
  have accepted : required "a" "id" = .ok () ∧ required "a-warm" "id" = .ok () := by
    decide +kernel
  refine ⟨_, _, accepted.1, accepted.2, rfl, rfl, ?_, ?_⟩
  · decide +kernel
  · decide +kernel

end Layerhouse
