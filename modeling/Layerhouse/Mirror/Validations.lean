/-
This file is the validations of a proxy cache. A task that pulls a tag through a cache
asks the upstream of the cache it was configured with, and records, in a request of its
own, that the tag was validated. For a day the tag is then served without asking again.

Every request that changes a cache or takes a tag away also clears the validations that
no longer hold, and the file proves this of all requests. The request that records a
validation checks nothing, though, and may arrive after any of them. The validations
are current in every state of a run exactly if each one is recorded while the cache is
still configured as the task read it and the tag still exists.
-/

import Layerhouse.Mirror.Inflight
import Layerhouse.Mirror.Upstreams
import Layerhouse.Raft.References

namespace Layerhouse

/-! ### Stored validations -/

def getProxyCacheTagValidation (validations : ProxyCacheTagValidations)
    (cacheId repository tag : String) : Option ProxyCacheTagValidation :=
  validations[cacheId]?.bind fun repos => BTreeMap.entry? repos repository tag

theorem getProxyCacheTagValidation_put (validations : ProxyCacheTagValidations)
    (validation : ProxyCacheTagValidation) (cacheId repository tag : String) :
    getProxyCacheTagValidation (putProxyCacheTagValidation validations validation) cacheId
        repository tag =
      if validation.cacheId = cacheId ∧ validation.repository = repository ∧ validation.tag = tag
      then some validation else getProxyCacheTagValidation validations cacheId repository tag := by
  rw [getProxyCacheTagValidation, putProxyCacheTagValidation, BTreeMap.getElem?_insert]
  by_cases same : validation.cacheId = cacheId
  · subst same
    rw [if_pos rfl, Option.bind_some, BTreeMap.entry?_put]
    simp only [true_and]
    refine if_congr Iff.rfl rfl ?_
    rw [getProxyCacheTagValidation]
    cases validations[validation.cacheId]? with
    | none => exact BTreeMap.entry?_empty repository tag
    | some repos => rfl
  · rw [if_neg same, if_neg fun both => same both.1]
    rfl

theorem getProxyCacheTagValidation_clearForCache (validations : ProxyCacheTagValidations)
    (cleared cacheId repository tag : String) :
    getProxyCacheTagValidation (clearProxyCacheTagValidationsForCache validations cleared) cacheId
        repository tag =
      if cleared = cacheId then none
      else getProxyCacheTagValidation validations cacheId repository tag := by
  rw [getProxyCacheTagValidation, clearProxyCacheTagValidationsForCache, BTreeMap.getElem?_erase]
  split
  · rfl
  · rfl

/-- Dropping the entry of a cache that is left empty loses nothing. -/
theorem entry?_of_nonempty (repos : BTreeMap String (BTreeMap String ProxyCacheTagValidation))
    (repository tag : String) :
    ((if repos.isEmpty then none else some repos).bind fun kept =>
      BTreeMap.entry? kept repository tag) = BTreeMap.entry? repos repository tag := by
  split
  · rename_i empty
    rw [Std.ExtTreeMap.isEmpty_iff.mp empty, BTreeMap.entry?_empty]
    rfl
  · rfl

theorem getProxyCacheTagValidation_clearForRepository (validations : ProxyCacheTagValidations)
    (cleared cacheId repository tag : String) :
    getProxyCacheTagValidation (clearProxyCacheTagValidationsForRepository validations cleared)
        cacheId repository tag =
      if cleared = repository then none
      else getProxyCacheTagValidation validations cacheId repository tag := by
  rw [getProxyCacheTagValidation, clearProxyCacheTagValidationsForRepository,
    BTreeMap.getElem?_filterMap, Option.bind_assoc, getProxyCacheTagValidation]
  cases validations[cacheId]? with
  | none => exact (ite_self none).symm
  | some repos =>
    rw [Option.bind_some, Option.bind_some]
    exact (entry?_of_nonempty _ _ _).trans (BTreeMap.entry?_erase repos cleared repository tag)

theorem getProxyCacheTagValidation_clearForTag (validations : ProxyCacheTagValidations)
    (clearedRepository clearedTag cacheId repository tag : String) :
    getProxyCacheTagValidation
        (clearProxyCacheTagValidationsForTag validations clearedRepository clearedTag) cacheId
        repository tag =
      if clearedRepository = repository ∧ clearedTag = tag then none
      else getProxyCacheTagValidation validations cacheId repository tag := by
  rw [getProxyCacheTagValidation, clearProxyCacheTagValidationsForTag,
    BTreeMap.getElem?_filterMap, Option.bind_assoc, getProxyCacheTagValidation]
  cases validations[cacheId]? with
  | none => exact (ite_self none).symm
  | some repos =>
    rw [Option.bind_some, Option.bind_some]
    refine (entry?_of_nonempty _ _ _).trans ?_
    cases found : repos[clearedRepository]? with
    | none =>
      by_cases same : clearedRepository = repository ∧ clearedTag = tag
      · rw [if_pos same, ← same.1, BTreeMap.entry?, found]
        rfl
      · rw [if_neg same]
    | some tags =>
      have erased : BTreeMap.entry? (repos.insert clearedRepository (tags.erase clearedTag))
          repository tag = if clearedRepository = repository ∧ clearedTag = tag then none
            else BTreeMap.entry? repos repository tag := by
        rw [BTreeMap.entry?_insert, BTreeMap.getElem?_erase]
        by_cases same : clearedRepository = repository
        · subst same
          rw [if_pos rfl, BTreeMap.entry?_of_getElem? found]
          simp only [true_and]
        · rw [if_neg same, if_neg fun both => same both.1]
      simp only
      split
      · rename_i empty
        rw [← erased, BTreeMap.entry?_erase, BTreeMap.entry?_insert,
          Std.ExtTreeMap.isEmpty_iff.mp empty, BTreeMap.getElem?_empty]
      · exact erased

theorem getProxyCacheTagValidation_clearForTags (validations : ProxyCacheTagValidations)
    (clearedRepository : String) (clearedTags : List String) (cacheId repository tag : String) :
    getProxyCacheTagValidation (clearedTags.foldl (fun validations clearedTag =>
        clearProxyCacheTagValidationsForTag validations clearedRepository clearedTag) validations)
        cacheId repository tag =
      if clearedRepository = repository ∧ tag ∈ clearedTags then none
      else getProxyCacheTagValidation validations cacheId repository tag := by
  induction clearedTags generalizing validations with
  | nil => rw [if_neg fun both => List.not_mem_nil both.2, List.foldl_nil]
  | cons head rest inductionHypothesis =>
    rw [List.foldl_cons, inductionHypothesis, getProxyCacheTagValidation_clearForTag]
    by_cases same : clearedRepository = repository
    · simp only [same, true_and, List.mem_cons]
      by_cases inRest : tag ∈ rest
      · rw [if_pos inRest, if_pos (Or.inr inRest)]
      · rw [if_neg inRest]
        exact if_congr ⟨fun first => Or.inl first.symm, fun either =>
          either.elim Eq.symm fun member => absurd member inRest⟩ rfl rfl
    · rw [if_neg fun both => same both.1, if_neg fun both => same both.1,
        if_neg fun both => same both.1]

/-! ### What requests retain -/

/-- The request that records a validation. Only pulls make it. -/
def Request.recordsValidation : Request → Bool
  | .mirrorConfig (.putProxyCacheTagValidation _) => true
  | _ => false

namespace StateMachineData

/-- The validations of the later data are among those of the earlier, and belong to tags that did
not go. -/
def Retains (data next : StateMachineData) : Prop :=
  ∀ cacheId repository tag validation,
    getProxyCacheTagValidation next.proxyCacheTagValidations cacheId repository tag =
        some validation →
      getProxyCacheTagValidation data.proxyCacheTagValidations cacheId repository tag =
          some validation ∧
        ((data.content.tag? repository tag).isSome → (next.content.tag? repository tag).isSome)

theorem Retains.of_fields {data next : StateMachineData}
    (validations : next.proxyCacheTagValidations = data.proxyCacheTagValidations)
    (content : next.content = data.content) : data.Retains next := by
  intro cacheId repository tag validation stored
  rw [validations] at stored
  rw [content]
  exact ⟨stored, fun tagged => tagged⟩

theorem Retains.refl (data : StateMachineData) : data.Retains data :=
  .of_fields rfl rfl

/-- A push leaves the validations of the tags that it does not set. -/
theorem Retains.pushed {data next : StateMachineData} {name : String} {entry : ManifestEntry}
    {tag : Option String} (content : next.content = data.content.push name entry tag)
    (validations : ∀ cacheId repository other validation,
      getProxyCacheTagValidation next.proxyCacheTagValidations cacheId repository other =
          some validation →
        getProxyCacheTagValidation data.proxyCacheTagValidations cacheId repository other =
          some validation) : data.Retains next := by
  intro cacheId repository other validation stored
  refine ⟨validations cacheId repository other validation stored, fun tagged => ?_⟩
  rw [content]
  show (if name = repository ∧ tag = some other then some entry.digest.toStr
    else data.content.tag? repository other).isSome
  split
  · rfl
  · exact tagged

/-- A removal clears the validations of the tags that go with it. -/
theorem Retains.removed {data next : StateMachineData} {name : String} {hit : String → Bool}
    (content : next.content = data.content.remove name hit)
    (validations : ∀ cacheId repository tag validation,
      getProxyCacheTagValidation next.proxyCacheTagValidations cacheId repository tag =
          some validation →
        getProxyCacheTagValidation data.proxyCacheTagValidations cacheId repository tag =
            some validation ∧
          ∀ digest, name = repository → data.content.tag? name tag = some digest →
            hit digest = false) : data.Retains next := by
  intro cacheId repository tag validation stored
  obtain ⟨earlier, missed⟩ := validations cacheId repository tag validation stored
  refine ⟨earlier, fun tagged => ?_⟩
  obtain ⟨digest, found⟩ := Option.isSome_iff_exists.mp tagged
  rw [content]
  show ((data.content.tag? repository tag).filter fun digest =>
    ¬ (name = repository ∧ hit digest = true)).isSome
  rw [found, Option.filter_some, if_pos]
  · rfl
  · rw [decide_eq_true_eq]
    rintro ⟨rfl, isHit⟩
    rw [missed digest rfl found] at isHit
    cases isHit

theorem storeEntry_validations (data : StateMachineData) (name : String) (entry : ManifestEntry) :
    (data.storeEntry name entry).proxyCacheTagValidations = data.proxyCacheTagValidations := by
  unfold storeEntry
  simp only
  split
  · rfl
  · rfl

theorem removeEntry_validations (data : StateMachineData) (name digest : String) :
    (data.removeEntry name digest).proxyCacheTagValidations = data.proxyCacheTagValidations := by
  unfold removeEntry
  split
  · rfl
  · simp only
    split
    · rfl
    · rfl

theorem foldl_decrementBlobRefs_validations (entries : List ManifestEntry)
    (data : StateMachineData) :
    (entries.foldl decrementBlobRefs data).proxyCacheTagValidations =
      data.proxyCacheTagValidations := by
  induction entries generalizing data with
  | nil => rfl
  | cons entry rest inductionHypothesis => exact inductionHypothesis (data.decrementBlobRefs entry)

theorem removeEntries_validations (data : StateMachineData) (name : String)
    (digests : List String) :
    (data.removeEntries name digests).proxyCacheTagValidations =
      data.proxyCacheTagValidations := by
  unfold removeEntries
  split
  · rfl
  · exact foldl_decrementBlobRefs_validations _ _

theorem removeManifests_validations (data : StateMachineData) (name : String) :
    (data.removeManifests name).proxyCacheTagValidations = data.proxyCacheTagValidations := by
  unfold removeManifests
  split
  · rfl
  · exact foldl_decrementBlobRefs_validations _ _

/-- Dropping the tags of removed entries clears the validations of each. -/
theorem dropTags_validations {data removed : StateMachineData} {name : String}
    {hit : String → Bool} (sameTags : removed.tags = data.tags)
    (sameValidations : removed.proxyCacheTagValidations = data.proxyCacheTagValidations)
    {cacheId repository tag : String} {validation : ProxyCacheTagValidation}
    (stored : getProxyCacheTagValidation (removed.dropTags name hit).proxyCacheTagValidations
      cacheId repository tag = some validation) :
    getProxyCacheTagValidation data.proxyCacheTagValidations cacheId repository tag =
        some validation ∧
      ∀ digest, name = repository → data.content.tag? name tag = some digest →
        hit digest = false := by
  unfold dropTags at stored
  cases found : data.tags[name]? with
  | none =>
    simp only [sameTags, found, sameValidations] at stored
    refine ⟨stored, fun digest _ tagged => ?_⟩
    simp only [content, BTreeMap.entry?, found] at tagged
    cases tagged
  | some repoTags =>
    simp only [sameTags, found, sameValidations, tagsAt] at stored
    rw [getProxyCacheTagValidation_clearForTags] at stored
    obtain ⟨kept, earlier⟩ := Option.ite_none_left_eq_some.mp stored
    refine ⟨earlier, fun digest same tagged => ?_⟩
    simp only [content, BTreeMap.entry?_of_getElem? found] at tagged
    by_contra isHit
    rw [Bool.not_eq_false] at isHit
    refine kept ⟨same, List.mem_map.mpr ⟨(tag, digest), List.mem_filter.mpr ⟨?_, isHit⟩, rfl⟩⟩
    exact (BTreeMap.mem_toList repoTags tag digest).mpr tagged

theorem applyManifest_retains (externals : Externals) (data : StateMachineData)
    (request : ManifestRequest) :
    data.Retains (applyManifest externals data request).1 := by
  cases request with
  | putManifest put =>
    refine afterCheck_fst data.Retains (.refl data) fun _ => ?_
    split
    · exact .refl data
    · simp only
      split
      · refine .pushed (storeEntry_content _ _ _)
          fun cacheId repository other validation stored => ?_
        rw [storeEntry_validations] at stored
        exact stored
      · refine .pushed (setTag_content _ _ _ _)
          fun cacheId repository other validation stored => ?_
        simp only [setTag, storeEntry_validations] at stored
        rw [getProxyCacheTagValidation_clearForTag] at stored
        exact (Option.ite_none_left_eq_some.mp stored).2
  | deleteManifest name expected digest =>
    refine afterCheck_fst data.Retains (.refl data) fun _ => ?_
    refine .removed (dropTags_content (removeEntry_keys data name digest).2
      (removeEntry_entries data name digest)) fun cacheId repository tag validation stored => ?_
    exact dropTags_validations (removeEntry_keys data name digest).2
      (removeEntry_validations data name digest) stored
  | deleteTag name expected digest tag =>
    refine afterCheck_fst data.Retains (.refl data) fun _ => ?_
    cases found : data.tags[name]? with
    | none => exact .refl data
    | some repoTags =>
      simp only
      split
      · intro cacheId repository other validation stored
        rw [getProxyCacheTagValidation_clearForTag] at stored
        obtain ⟨kept, earlier⟩ := Option.ite_none_left_eq_some.mp stored
        refine ⟨earlier, fun tagged => ?_⟩
        simp only [content, BTreeMap.entry?_insert, BTreeMap.getElem?_erase] at tagged ⊢
        split
        · rename_i same
          rw [if_neg fun sameTag => kept ⟨same, sameTag⟩, ← BTreeMap.entry?_of_getElem? found, same]
          exact tagged
        · exact tagged
      · exact .refl data
  | deleteRepository name expected =>
    refine afterCheck_fst data.Retains (.refl data) fun _ => ?_
    refine .removed (removeManifests_content data name _)
      fun cacheId repository tag validation stored => ?_
    simp only [removeManifests_validations] at stored
    rw [getProxyCacheTagValidation_clearForRepository] at stored
    obtain ⟨kept, earlier⟩ := Option.ite_none_left_eq_some.mp stored
    exact ⟨earlier, fun digest same _ => absurd same kept⟩
  | deleteManifests name expected digests =>
    refine afterCheck_fst data.Retains (.refl data) fun _ => ?_
    simp only
    refine .removed (dropTags_content (removeEntries_keys data name _).2 ?_)
      fun cacheId repository tag validation stored =>
        dropTags_validations (removeEntries_keys data name _).2
          (removeEntries_validations data name _) stored
    intro other digest
    rw [removeEntries_entries]
    refine if_congr (and_congr_right fun _ => ?_) rfl rfl
    rw [Std.ExtTreeMap.mem_keys, ← Std.ExtTreeMap.contains_iff_mem]
  | mountBlob sourceRepo destRepo expected digest =>
    exact afterCheck_fst data.Retains (.refl data) fun _ => .refl data
  | recordBlobDelete digest requestedAt => exact .of_fields rfl rfl
  | clearBlobDelete digest => exact .of_fields rfl rfl

/-- The validations are retained, and the caches they belong to are configured as before. -/
def RetainsConfigured (data next : StateMachineData) : Prop :=
  data.Retains next ∧ ∀ cacheId repository tag validation,
    getProxyCacheTagValidation next.proxyCacheTagValidations cacheId repository tag =
        some validation →
      next.proxyCaches[cacheId]? = data.proxyCaches[cacheId]?

theorem RetainsConfigured.of_fields {data next : StateMachineData}
    (validations : next.proxyCacheTagValidations = data.proxyCacheTagValidations)
    (caches : next.proxyCaches = data.proxyCaches) (content : next.content = data.content) :
    data.RetainsConfigured next := by
  refine ⟨.of_fields validations content, fun cacheId _ _ _ _ => ?_⟩
  rw [caches]

/-- A change of one cache clears its validations. -/
theorem RetainsConfigured.cleared {data next : StateMachineData} {id : String}
    (validations : next.proxyCacheTagValidations =
      clearProxyCacheTagValidationsForCache data.proxyCacheTagValidations id)
    (caches : ∀ cacheId, id ≠ cacheId → next.proxyCaches[cacheId]? = data.proxyCaches[cacheId]?)
    (content : next.content = data.content) : data.RetainsConfigured next := by
  have kept : ∀ cacheId repository tag validation,
      getProxyCacheTagValidation next.proxyCacheTagValidations cacheId repository tag =
          some validation →
        id ≠ cacheId ∧ getProxyCacheTagValidation data.proxyCacheTagValidations cacheId repository
          tag = some validation := by
    intro cacheId repository tag validation stored
    rw [validations, getProxyCacheTagValidation_clearForCache] at stored
    exact Option.ite_none_left_eq_some.mp stored
  refine ⟨fun cacheId repository tag validation stored => ?_,
    fun cacheId repository tag validation stored => ?_⟩
  · rw [content]
    exact ⟨(kept cacheId repository tag validation stored).2, fun tagged => tagged⟩
  · exact caches cacheId (kept cacheId repository tag validation stored).1

theorem applyMirrorConfig_retains (now : Nat) (data : StateMachineData)
    {request : MirrorConfigRequest}
    (unrecorded : (Request.mirrorConfig request).recordsValidation = false) :
    data.RetainsConfigured (applyMirrorConfig now data request).1 := by
  cases request with
  | putProxyCacheTagValidation validation => cases unrecorded
  | putProxyCache cache =>
    refine .cleared rfl (fun cacheId other => ?_) rfl
    exact (BTreeMap.getElem?_insert ..).trans (if_neg other)
  | deleteProxyCache id =>
    refine .cleared rfl (fun cacheId other => ?_) rfl
    exact (BTreeMap.getElem?_erase ..).trans (if_neg other)
  | triggerMirrorRule id =>
    rw [applyMirrorConfig]
    split
    · exact .of_fields rfl rfl rfl
    split
    · exact .of_fields rfl rfl rfl
    · exact .of_fields rfl rfl rfl
  | triggerProxyCacheWarm id =>
    rw [applyMirrorConfig]
    split
    · exact .of_fields rfl rfl rfl
    split
    · exact .of_fields rfl rfl rfl
    · exact .of_fields rfl rfl rfl
  | _ => exact .of_fields rfl rfl rfl

/-- Every request retains the validations, except the one that records one. -/
theorem applyRequest_retains {externals : Externals} {now : Nat} {data next : StateMachineData}
    {request : Request} {response : Response}
    (applied : applyRequest externals now data request = .ok (next, response))
    (unrecorded : request.recordsValidation = false) : data.RetainsConfigured next := by
  have framed := applyRequest_frame applied
  have sameCaches := congrArg proxyCaches framed
  cases request with
  | manifest inner =>
    have caches : next.proxyCaches = data.proxyCaches := sameCaches
    cases applied
    refine ⟨applyManifest_retains externals data inner, fun cacheId _ _ _ _ => ?_⟩
    rw [caches]
  | mirrorConfig inner =>
    cases applied
    exact applyMirrorConfig_retains now data unrecorded
  | _ =>
    have sameValidations := congrArg proxyCacheTagValidations framed
    have sameContent := congrArg content framed
    exact .of_fields sameValidations sameCaches sameContent

end StateMachineData

/-! ### Pulls through a cache -/

structure ProxyCacheValidationTarget where
  cacheId : String
  repository : String
  tag : String
deriving DecidableEq

def ProxyCacheValidationTarget.forReference (cacheId repository reference : String) :
    Option ProxyCacheValidationTarget :=
  if (Digest.fromStrChecked reference).isSome then none else some ⟨cacheId, repository, reference⟩

def proxyCacheTagValidationIntervalSecs : Nat := 24 * 60 * 60

def proxyCacheTagValidationIsFresh (validation : ProxyCacheTagValidation) (localDigest : String)
    (now : Nat) : Bool :=
  validation.upstreamDigest = localDigest ∧
    now - validation.lastValidatedAt < proxyCacheTagValidationIntervalSecs

/-- How far a pull is. The digest is the one that the upstream answered with. -/
inductive ProxyPullPhase where
  /-- `validate_cached_proxy_tag_inner` asks the upstream about the local manifest. -/
  | validating (localDigest : String)
  /-- `do_pull` asks the upstream. -/
  | pulling
  /-- `do_pull_after_head` looks for the manifest that the upstream has. -/
  | headed (digest : String)
  | fetching (digest : String)
  /-- Manifests are stored, and with `reread` the tag is looked up afterwards. -/
  | storing (digest : String) (reread : Bool)
  | rereading (digest : String)
  /-- `record_proxy_cache_tag_validation` is on its way. -/
  | recording (digest : String)

/-- A pull of a reference, with the configuration that the task has read. -/
structure ProxyPull where
  cache : ProxyCache
  repoName : String
  reference : String
  mode : PullMode
  phase : ProxyPullPhase

def ProxyPull.validationTarget (pull : ProxyPull) : Option ProxyCacheValidationTarget :=
  ProxyCacheValidationTarget.forReference pull.cache.id pull.repoName pull.reference

/-- The pull records the validation next, if it is one of a tag, and else is done. -/
def ProxyPull.proceed (pull : ProxyPull) (digest : String) : Option ProxyPull :=
  pull.validationTarget.map fun _ => { pull with phase := .recording digest }

/-- The data after each committed request, the latest first, and the pulls. Kept to speak about
it: the configuration that each recorded validation was obtained from. -/
structure ProxyPullSystem where
  history : List StateMachineData
  pulls : Nat → Option ProxyPull
  obtained : String → String → String → Option ProxyCache

/-- What happens. A task reads data of some time ago: nodes lag behind, and keep a copy of the
caches. The manifests that a pull stores are committed like those of everybody else. -/
inductive ProxyPullLabel where
  | commit (now : Nat) (request : Request)
  | validate (id cacheLag validationLag localLag now : Nat) (repoName reference : String)
  | pull (id cacheLag : Nat) (mode : PullMode) (repoName reference : String)
  | head (id : Nat) (digest : String)
  | readLocal (id : Nat) (lag : Option Nat)
  | fetch (id : Nat)
  | stored (id : Nat)
  | reread (id lag : Nat)
  | record (id now : Nat)
  | giveUp (id : Nat)

namespace ProxyPullSystem

def initial : ProxyPullSystem where
  history := [StateMachineData.empty]
  pulls := fun _ => none
  obtained := fun _ _ _ => none

/-- The data after all committed requests. -/
def data (system : ProxyPullSystem) : StateMachineData :=
  system.history.headD StateMachineData.empty

def setPull (system : ProxyPullSystem) (id : Nat) (pull : Option ProxyPull) : ProxyPullSystem :=
  { system with pulls := Function.update system.pulls id pull }

/-- The validation that a step records, with the configuration it was obtained from. -/
def recorded (system : ProxyPullSystem) :
    ProxyPullLabel → Option (ProxyCache × ProxyCacheTagValidation)
  | .record id now =>
    (system.pulls id).bind fun pull =>
      match pull.phase with
      | .recording digest => pull.validationTarget.map fun target =>
        (pull.cache, ⟨target.cacheId, target.repository, target.tag, digest, now⟩)
      | _ => none
  | _ => none

/-- The pull of a reference starts when a cache fits the repository. -/
def begin (system : ProxyPullSystem) (id cacheLag : Nat) (repoName : String)
    (pull : ProxyCache → Option ProxyPull) : Option ProxyPullSystem :=
  match system.pulls id, system.history[cacheLag]? with
  | none, some past =>
    (matchProxyCache past.listProxyCaches repoName).bind fun found =>
      (pull found.1).map fun started => system.setPull id (some started)
  | _, _ => none

/-- The pull goes on, or is done. -/
def advance (system : ProxyPullSystem) (id : Nat)
    (move : ProxyPull → Option (Option ProxyPull)) : Option ProxyPullSystem :=
  ((system.pulls id).bind move).map (system.setPull id)

def step (externals : Externals) (system : ProxyPullSystem) :
    ProxyPullLabel → Option ProxyPullSystem
  | .commit now request =>
    if request.recordsValidation then none
    else
      (requestStep externals system.data (now, request)).map fun next =>
        { system with history := next :: system.history }
  | .validate id cacheLag validationLag localLag now repoName reference =>
    system.begin id cacheLag repoName fun cache =>
      match system.history[validationLag]?,
        system.history[localLag]?.bind (·.getManifest repoName reference),
        ProxyCacheValidationTarget.forReference cache.id repoName reference with
      | some past, some found, some _ =>
        if (getProxyCacheTagValidation past.proxyCacheTagValidations cache.id repoName
            reference).any (proxyCacheTagValidationIsFresh · found.digest.toStr now) then none
        else some ⟨cache, repoName, reference, .lazy, .validating found.digest.toStr⟩
      | _, _, _ => none
  | .pull id cacheLag mode repoName reference =>
    system.begin id cacheLag repoName fun cache =>
      some ⟨cache, repoName, reference, mode, .pulling⟩
  | .head id digest =>
    system.advance id fun pull =>
      match pull.phase with
      | .validating localDigest =>
        some (if localDigest = digest then pull.proceed digest
          else some { pull with phase := .headed digest })
      | .pulling => some (some { pull with phase := .headed digest })
      | _ => none
  | .readLocal id lag =>
    system.advance id fun pull =>
      match pull.phase with
      | .headed digest =>
        let past := lag.bind (system.history[·]?)
        let found := past.bind (·.getManifest pull.repoName pull.reference)
        some (if found.any (·.digest.toStr = digest) then
            match pull.mode with
            | .eager => some { pull with phase := .storing digest false }
            | .lazy => pull.proceed digest
          else some { pull with phase := .fetching digest })
      | _ => none
  | .fetch id =>
    system.advance id fun pull =>
      match pull.phase with
      | .fetching digest => some (some { pull with phase := .storing digest true })
      | _ => none
  | .stored id =>
    system.advance id fun pull =>
      match pull.phase with
      | .storing digest reread =>
        some (if reread then some { pull with phase := .rereading digest }
          else pull.proceed digest)
      | _ => none
  | .reread id lag =>
    system.advance id fun pull =>
      match pull.phase, system.history[lag]? with
      | .rereading digest, some past =>
        some ((past.getManifest pull.repoName pull.reference).bind fun _ => pull.proceed digest)
      | _, _ => none
  | .record id now =>
    (system.recorded (.record id now)).bind fun entry =>
      (requestStep externals system.data
        (now, .mirrorConfig (.putProxyCacheTagValidation entry.2))).map fun next =>
          { system.setPull id none with
            history := next :: system.history
            obtained := fun cacheId repository tag =>
              if entry.2.cacheId = cacheId ∧ entry.2.repository = repository ∧ entry.2.tag = tag
              then some entry.1 else system.obtained cacheId repository tag }
  | .giveUp id => some (system.setPull id none)

/-- Every stored validation belongs to a cache that is configured as when the validation was
obtained, and to a tag that exists. -/
def Current (system : ProxyPullSystem) : Prop :=
  ∀ cacheId repository tag validation,
    getProxyCacheTagValidation system.data.proxyCacheTagValidations cacheId repository tag =
        some validation →
      ∃ cache, system.obtained cacheId repository tag = some cache ∧
        system.data.proxyCaches[cacheId]? = some cache ∧
        (system.data.content.tag? repository tag).isSome

/-- A validation is recorded while the cache is configured as the pull read it and the tag
exists. -/
def Timely (system : ProxyPullSystem) (label : ProxyPullLabel) : Prop :=
  ∀ entry ∈ system.recorded label, system.data.proxyCaches[entry.2.cacheId]? = some entry.1 ∧
    (system.data.content.tag? entry.2.repository entry.2.tag).isSome

variable {externals : Externals} {system next : ProxyPullSystem} {label : ProxyPullLabel}

theorem begin_pulls {id cacheLag : Nat} {repoName : String}
    {pull : ProxyCache → Option ProxyPull}
    (began : system.begin id cacheLag repoName pull = some next) :
    ∃ pulls, next = { system with pulls := pulls } := by
  rw [begin] at began
  split at began
  · obtain ⟨found, _, started⟩ := Option.bind_eq_some_iff.mp began
    obtain ⟨task, _, rfl⟩ := Option.map_eq_some_iff.mp started
    exact ⟨_, rfl⟩
  · cases began

theorem advance_pulls {id : Nat} {move : ProxyPull → Option (Option ProxyPull)}
    (advanced : system.advance id move = some next) :
    ∃ pulls, next = { system with pulls := pulls } := by
  obtain ⟨pull, _, rfl⟩ := Option.map_eq_some_iff.mp advanced
  exact ⟨_, rfl⟩

/-- The validation is stored, with the configuration it was obtained from. -/
def storeValidation (system : ProxyPullSystem) (cache : ProxyCache)
    (validation : ProxyCacheTagValidation) : ProxyPullSystem :=
  { system with
    history :=
      { system.data with
        proxyCacheTagValidations := putProxyCacheTagValidation
          system.data.proxyCacheTagValidations validation } :: system.history
    obtained := fun cacheId repository tag =>
      if validation.cacheId = cacheId ∧ validation.repository = repository ∧ validation.tag = tag
      then some cache else system.obtained cacheId repository tag }

theorem storeValidation_current_iff (current : system.Current) (cache : ProxyCache)
    (validation : ProxyCacheTagValidation) :
    (system.storeValidation cache validation).Current ↔
      system.data.proxyCaches[validation.cacheId]? = some cache ∧
        (system.data.content.tag? validation.repository validation.tag).isSome := by
  have lookup := getProxyCacheTagValidation_put system.data.proxyCacheTagValidations validation
  constructor
  · intro later
    obtain ⟨found, obtained, same, tagged⟩ := later validation.cacheId validation.repository
      validation.tag validation ((lookup ..).trans (if_pos ⟨rfl, rfl, rfl⟩))
    obtain rfl := Option.some.inj ((if_pos ⟨rfl, rfl, rfl⟩).symm.trans obtained)
    exact ⟨same, tagged⟩
  · rintro ⟨same, tagged⟩ cacheId repository tag stored found
    have looked := (lookup cacheId repository tag).symm.trans found
    split at looked
    · rename_i sameKey
      obtain ⟨rfl, rfl, rfl⟩ := sameKey
      exact ⟨cache, if_pos ⟨rfl, rfl, rfl⟩, same, tagged⟩
    · rename_i otherKey
      obtain ⟨known, obtained, configured, present⟩ := current cacheId repository tag stored looked
      exact ⟨known, (if_neg otherKey).trans obtained, configured, present⟩

theorem step_record (externals : Externals) {cache : ProxyCache}
    {validation : ProxyCacheTagValidation} {id now : Nat}
    (recorded : system.recorded (.record id now) = some (cache, validation)) :
    step externals system (.record id now) =
      some { system.storeValidation cache validation with
        pulls := (system.setPull id none).pulls } := by
  rw [step, recorded]
  rfl

/-- A step commits a request, records a validation, or moves the pulls only. -/
theorem step_cases (stepped : step externals system label = some next) :
    (∃ now request data response, request.recordsValidation = false ∧
      applyRequest externals now system.data request = .ok (data, response) ∧
      next = { system with history := data :: system.history }) ∨
    (∃ cache validation pulls, system.recorded label = some (cache, validation) ∧
      next = { system.storeValidation cache validation with pulls := pulls }) ∨
    system.recorded label = none ∧ ∃ pulls, next = { system with pulls := pulls } := by
  cases label with
  | commit now request =>
    obtain ⟨unrecorded, committed⟩ := Option.ite_none_left_eq_some.mp stepped
    obtain ⟨data, requested, rfl⟩ := Option.map_eq_some_iff.mp committed
    obtain ⟨response, applied⟩ := requestStep_eq_some.mp requested
    rw [Bool.not_eq_true] at unrecorded
    exact Or.inl ⟨now, request, data, response, unrecorded, applied, rfl⟩
  | validate id cacheLag validationLag localLag now repoName reference =>
    rw [step] at stepped
    exact Or.inr (Or.inr ⟨rfl, begin_pulls stepped⟩)
  | pull id cacheLag mode repoName reference =>
    rw [step] at stepped
    exact Or.inr (Or.inr ⟨rfl, begin_pulls stepped⟩)
  | record id now =>
    obtain ⟨⟨cache, validation⟩, found, committed⟩ := Option.bind_eq_some_iff.mp stepped
    rw [step_record externals found] at stepped
    obtain rfl := Option.some.inj stepped
    exact Or.inr (Or.inl ⟨cache, validation, _, found, rfl⟩)
  | giveUp id =>
    obtain rfl := Option.some.inj stepped
    exact Or.inr (Or.inr ⟨rfl, _, rfl⟩)
  | _ =>
    rw [step] at stepped
    exact Or.inr (Or.inr ⟨rfl, advance_pulls stepped⟩)

/-- A step from a state with current validations leaves them current exactly if what it records is
timely. -/
theorem step_current_iff (current : system.Current) :
    (∀ next, step externals system label = some next → next.Current) ↔ system.Timely label := by
  constructor
  · rintro kept ⟨cache, validation⟩ recorded
    cases label with
    | record id now =>
      have later := kept _ (step_record externals recorded)
      exact (storeValidation_current_iff current cache validation).mp later
    | _ => cases recorded
  · intro timely next stepped
    rcases step_cases stepped with ⟨now, request, data, response, unrecorded, applied, rfl⟩ |
      ⟨cache, validation, pulls, recorded, rfl⟩ | ⟨_, pulls, rfl⟩
    · intro cacheId repository tag stored found
      obtain ⟨retained, configured⟩ := StateMachineData.applyRequest_retains applied unrecorded
      obtain ⟨earlier, tagKept⟩ := retained cacheId repository tag stored found
      obtain ⟨cache, obtained, same, tagged⟩ := current cacheId repository tag stored earlier
      exact ⟨cache, obtained, (configured cacheId repository tag stored found).trans same,
        tagKept tagged⟩
    · exact (storeValidation_current_iff current cache validation).mpr (timely _ recorded)
    · exact current

theorem initial_current : initial.Current := by
  intro cacheId repository tag validation stored
  have none : getProxyCacheTagValidation (∅ : ProxyCacheTagValidations) cacheId repository tag =
      none := by
    rw [getProxyCacheTagValidation, BTreeMap.getElem?_empty]
    rfl
  cases none.symm.trans stored

/-- The validations are current in every state of a run exactly if each is recorded in time. -/
theorem validations_stay_current_iff (externals : Externals) (labels : List ProxyPullLabel) :
    Along (step externals)
        (fun system label => ∀ next, step externals system label = some next → next.Current)
        initial labels ↔
      Along (step externals) Timely initial labels :=
  along_invariant_iff Current (fun _ _ current => step_current_iff current) initial_current

/-- A cache of a registry. -/
def sampleProxyCache (registry : String) : ProxyCache where
  id := "docker"
  localPrefix := "mirror"
  upstreamRegistry := registry
  upstreamPrefix := none
  warmFilters := []
  warmSchedule := none
  plainHttp := false
  insecureTls := false
  outboundProxy := ⟨.none, none, none, none⟩
  username := none
  password := none
  createdAt := 0

/-- A tag is validated against a registry, and the cache is moved to another one before the
validation is recorded. -/
def sampleLateValidation : List ProxyPullLabel :=
  [.commit 0 (sampleClaim "mirror" "admin" false),
    .commit 1 (.mirrorConfig (.putProxyCache (sampleProxyCache "registry.example"))),
    .commit 2 (.manifest (.putManifest
      (samplePush "mirror/nginx" (some ⟨"mirror", 1⟩) (sampleDigest 'a') (sampleDigest 'b')))),
    .validate 0 0 0 0 3 "mirror/nginx" "latest", .head 0 (sampleDigest 'a'),
    .commit 4 (.mirrorConfig (.putProxyCache (sampleProxyCache "other.example"))),
    .record 0 5]

theorem validation_outlives_its_configuration :
    ∃ final, run (step sampleExternals) initial sampleLateValidation = some final ∧
      (getProxyCacheTagValidation final.data.proxyCacheTagValidations "docker" "mirror/nginx"
        "latest").isSome ∧
      final.obtained "docker" "mirror/nginx" "latest" =
        some (sampleProxyCache "registry.example") ∧
      final.data.proxyCaches["docker"]? = some (sampleProxyCache "other.example") ∧
      ¬ final.Current := by
  have reached : (run (step sampleExternals) initial sampleLateValidation).any (fun final =>
      (getProxyCacheTagValidation final.data.proxyCacheTagValidations "docker" "mirror/nginx"
        "latest").isSome ∧
      final.obtained "docker" "mirror/nginx" "latest" =
        some (sampleProxyCache "registry.example") ∧
      final.data.proxyCaches["docker"]? = some (sampleProxyCache "other.example")) = true := by
    decide +kernel
  obtain ⟨final, reached, holds⟩ := (Option.any_eq_true ..).mp reached
  obtain ⟨stored, obtained, configured⟩ := of_decide_eq_true holds
  refine ⟨final, reached, stored, obtained, configured, fun current => ?_⟩
  obtain ⟨validation, found⟩ := Option.isSome_iff_exists.mp stored
  obtain ⟨cache, from_, same, _⟩ := current "docker" "mirror/nginx" "latest" validation found
  rw [obtained, Option.some.injEq] at from_
  rw [configured, Option.some.injEq, ← from_] at same
  exact absurd same (by decide)

end ProxyPullSystem

end Layerhouse
