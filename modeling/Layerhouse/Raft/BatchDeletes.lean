/-
This file proves that a batch deletion of manifests is the single deletions it stands
for. The batch removes its digests from the repository in sorted order, releases the
blobs of all removed entries afterwards and then drops all tags in one loop; single
deletions go through the same steps for one digest at a time. The released blobs are
the same up to order, and so are the tags whose validations are cleared, so the data
ends the same, however the digests are ordered or repeated.
-/

import Layerhouse.Library.Erasures
import Layerhouse.Raft.References

namespace Layerhouse

/-! ### Validations of a tag -/

theorem clearForTag_eq (validations : ProxyCacheTagValidations) (repository tag : String) :
    clearProxyCacheTagValidationsForTag validations repository tag =
      BTreeMap.filterMap (fun _ repos =>
        BTreeMap.dropEmpty (BTreeMap.eraseInner repository tag repos)) validations := by
  refine congrArg (fun select => BTreeMap.filterMap select validations) ?_
  funext _ repos
  unfold BTreeMap.eraseInner
  cases repos[repository]? with
  | none => rfl
  | some tags => rfl

theorem clearForTag_comm (validations : ProxyCacheTagValidations)
    (repository first second : String) :
    clearProxyCacheTagValidationsForTag
        (clearProxyCacheTagValidationsForTag validations repository first) repository second =
      clearProxyCacheTagValidationsForTag
        (clearProxyCacheTagValidationsForTag validations repository second) repository first := by
  rw [clearForTag_eq validations, clearForTag_eq validations, clearForTag_eq, clearForTag_eq,
    BTreeMap.filterMap_filterMap, BTreeMap.filterMap_filterMap]
  refine congrArg (fun select => BTreeMap.filterMap select validations) ?_
  funext _ repos
  rw [BTreeMap.dropEmpty_bind (BTreeMap.isEmpty_eraseInner repository second),
    BTreeMap.dropEmpty_bind (BTreeMap.isEmpty_eraseInner repository first),
    BTreeMap.eraseInner_comm]

theorem foldl_clearForTag_perm {first second : List String} (same : first.Perm second)
    (validations : ProxyCacheTagValidations) (repository : String) :
    first.foldl (fun validations tag =>
        clearProxyCacheTagValidationsForTag validations repository tag) validations =
      second.foldl (fun validations tag =>
        clearProxyCacheTagValidationsForTag validations repository tag) validations :=
  same.foldl_eq' (fun first _ second _ validations =>
    clearForTag_comm validations repository first second) validations

/-! ### The removal loop -/

/-- The loop goes on where an earlier one stopped. -/
theorem removeAll_append (first second : List String) (repo : BTreeMap String ManifestEntry) :
    removeAll (first ++ second) repo =
      ((removeAll second (removeAll first repo).1).1,
        (removeAll first repo).2 ++ (removeAll second (removeAll first repo).1).2) := by
  obtain ⟨remove, loop, absent, taken⟩ := removeAll_eq_foldl
  have collected : ∀ (digests : List String) (left : BTreeMap String ManifestEntry)
      (removed : List ManifestEntry), digests.foldl remove (left, removed) =
        ((digests.foldl remove (left, [])).1, removed ++ (digests.foldl remove (left, [])).2) := by
    intro digests
    induction digests with
    | nil => exact fun left removed => by simp only [List.foldl_nil, List.append_nil]
    | cons digest rest inductionHypothesis =>
      intro left removed
      simp only [List.foldl_cons]
      cases found : left[digest]? with
      | none => simp only [absent left _ digest found, inductionHypothesis left removed]
      | some entry =>
        simp only [taken left _ digest entry found]
        rw [inductionHypothesis _ (removed ++ [entry]), inductionHypothesis _ ([] ++ [entry])]
        simp only [List.nil_append, List.append_assoc]
  rw [loop, loop, loop, List.foldl_append]
  exact collected second _ _

/-- Lists with the same digests leave the same and remove the same, up to order. -/
theorem removeAll_congr {first second : List String} (same : ∀ digest, digest ∈ first ↔
    digest ∈ second) (repo : BTreeMap String ManifestEntry) :
    (removeAll first repo).1 = (removeAll second repo).1 ∧
      (removeAll first repo).2.Perm (removeAll second repo).2 := by
  classical
  have left : (removeAll first repo).1 = (removeAll second repo).1 :=
    BTreeMap.ext_getElem? fun digest => by
      rw [getElem?_removeAll, getElem?_removeAll, if_congr (same digest) rfl rfl]
  refine ⟨left, List.perm_iff_count.mpr fun entry => ?_⟩
  -- an entry is counted by what its weight lacks in what is left
  have occurrences : ∀ entries : List ManifestEntry,
      (entries.map fun other => if other = entry then 1 else 0).sum = entries.count entry := by
    intro entries
    induction entries with
    | nil => rfl
    | cons other rest inductionHypothesis =>
      rw [List.map_cons, List.sum_cons, inductionHypothesis, List.count_cons, Nat.add_comm]
      simp only [beq_iff_eq]
  have firstBalance := (removeAll_spec first repo).2.2 fun other => if other = entry then 1 else 0
  have secondBalance := (removeAll_spec second repo).2.2 fun other =>
    if other = entry then 1 else 0
  rw [occurrences] at firstBalance secondBalance
  rw [left] at firstBalance
  omega

/-! ### Deletions field by field -/

namespace StateMachineData

variable (data : StateMachineData) (name : String)

/-- Deleting the manifests of a list of digests, with their tags. -/
def deleteAll (digests : List String) : StateMachineData :=
  (data.removeEntries name digests).dropTags name (digests.contains ·)

/-- The manifests that are left. -/
def remaining (digests : List String) : BTreeMap String (BTreeMap String ManifestEntry) :=
  match data.manifests[name]? with
  | none => data.manifests
  | some repo => data.manifests.insert name (removeAll digests repo).1

/-- The manifests that are removed. -/
def removed (digests : List String) : List ManifestEntry :=
  match data.manifests[name]? with
  | none => []
  | some repo => (removeAll digests repo).2

/-- The tags that are left. -/
def remainingTags (hit : String → Bool) : BTreeMap String (BTreeMap String String) :=
  match data.tags[name]? with
  | none => data.tags
  | some repoTags => data.tags.insert name (BTreeMap.retain (fun _ digest => !hit digest) repoTags)

theorem foldl_decrementBlobRefs_eq (entries : List ManifestEntry) :
    entries.foldl decrementBlobRefs data =
      { data with
        blobRefCounts :=
          (entries.flatMap (·.blobKeys)).foldl BTreeMap.decrement data.blobRefCounts } := by
  induction entries generalizing data with
  | nil => rfl
  | cons entry rest inductionHypothesis =>
    rw [List.foldl_cons, inductionHypothesis, List.flatMap_cons, List.foldl_append]
    rfl

theorem removeEntries_eq (digests : List String) : data.removeEntries name digests =
    { data with
      manifests := data.remaining name digests
      blobRefCounts := ((data.removed name digests).flatMap (·.blobKeys)).foldl
        BTreeMap.decrement data.blobRefCounts } := by
  rw [removeEntries, remaining, removed]
  cases data.manifests[name]? with
  | none => rfl
  | some repo => exact foldl_decrementBlobRefs_eq _ _

theorem dropTags_eq (hit : String → Bool) : data.dropTags name hit =
    { data with
      tags := data.remainingTags name hit
      proxyCacheTagValidations := (data.tagsAt name hit).foldl
        (fun validations tag => clearProxyCacheTagValidationsForTag validations name tag)
        data.proxyCacheTagValidations } := by
  rw [dropTags, remainingTags, tagsAt]
  cases data.tags[name]? with
  | none => rfl
  | some repoTags => rfl

theorem deleteAll_eq (digests : List String) : data.deleteAll name digests =
    { data with
      manifests := data.remaining name digests
      blobRefCounts := ((data.removed name digests).flatMap (·.blobKeys)).foldl
        BTreeMap.decrement data.blobRefCounts
      tags := data.remainingTags name (digests.contains ·)
      proxyCacheTagValidations := (data.tagsAt name (digests.contains ·)).foldl
        (fun validations tag => clearProxyCacheTagValidationsForTag validations name tag)
        data.proxyCacheTagValidations } := by
  rw [deleteAll, dropTags_eq, removeEntries_eq]
  rfl

/-! ### One list after another -/

theorem remaining_append (first second : List String) :
    (data.deleteAll name first).remaining name second = data.remaining name (first ++ second) := by
  rw [deleteAll_eq, remaining, remaining, remaining]
  cases found : data.manifests[name]? with
  | none => simp only [found]
  | some repo =>
    simp only [BTreeMap.getElem?_insert, if_true, removeAll_append]
    refine BTreeMap.ext_getElem? fun other => ?_
    simp only [BTreeMap.getElem?_insert]
    by_cases same : name = other
    · simp only [same, if_true]
    · simp only [same, if_false]

theorem removed_append (first second : List String) :
    data.removed name (first ++ second) =
      data.removed name first ++ (data.deleteAll name first).removed name second := by
  rw [deleteAll_eq, removed, removed, removed, remaining]
  cases found : data.manifests[name]? with
  | none => simp only [found, List.append_nil]
  | some repo => simp only [BTreeMap.getElem?_insert, if_true, removeAll_append]

theorem remainingTags_append (first second : List String) :
    (data.deleteAll name first).remainingTags name (second.contains ·) =
      data.remainingTags name ((first ++ second).contains ·) := by
  rw [deleteAll_eq, remainingTags, remainingTags, remainingTags]
  cases found : data.tags[name]? with
  | none => simp only [found]
  | some repoTags =>
    simp only [BTreeMap.getElem?_insert, if_true]
    refine BTreeMap.ext_getElem? fun other => ?_
    simp only [BTreeMap.getElem?_insert]
    by_cases same : name = other
    · rw [if_pos same, if_pos same]
      refine congrArg some (BTreeMap.ext_getElem? fun tag => ?_)
      rw [BTreeMap.getElem?_retain, BTreeMap.getElem?_retain, BTreeMap.getElem?_retain,
        Option.filter_filter]
      refine congrArg (fun keep => Option.filter keep repoTags[tag]?) (funext fun digest => ?_)
      rw [List.contains_append, Bool.not_or, Bool.and_comm]
    · rw [if_neg same, if_neg same, if_neg same]

theorem mem_tagsAt {hit : String → Bool} {tag : String} :
    tag ∈ data.tagsAt name hit ↔
      ∃ repoTags digest, data.tags[name]? = some repoTags ∧ repoTags[tag]? = some digest ∧
        hit digest = true := by
  rw [tagsAt]
  cases data.tags[name]? with
  | none => simp only [List.not_mem_nil, reduceCtorEq, false_and, exists_false]
  | some repoTags =>
    constructor
    · intro member
      obtain ⟨entry, kept, rfl⟩ := List.mem_map.mp member
      obtain ⟨listed, isHit⟩ := List.mem_filter.mp kept
      exact ⟨repoTags, entry.2, rfl, (BTreeMap.mem_toList _ _ _).mp listed, isHit⟩
    · rintro ⟨_, digest, same, found, isHit⟩
      obtain rfl := Option.some.inj same
      exact List.mem_map.mpr ⟨(tag, digest),
        List.mem_filter.mpr ⟨(BTreeMap.mem_toList _ _ _).mpr found, isHit⟩, rfl⟩

theorem nodup_tagsAt (hit : String → Bool) : (data.tagsAt name hit).Nodup := by
  rw [tagsAt]
  cases data.tags[name]? with
  | none => exact List.nodup_nil
  | some repoTags =>
    exact (List.filter_sublist.map _).nodup (BTreeMap.nodup_keys_toList repoTags)

/-- The tags that two deletions drop are those that one deletion of both lists drops. -/
theorem tagsAt_append (first second : List String) :
    (data.tagsAt name ((first ++ second).contains ·)).Perm
      (data.tagsAt name (first.contains ·) ++
        (data.deleteAll name first).tagsAt name (second.contains ·)) := by
  have later : ∀ tag, tag ∈ (data.deleteAll name first).tagsAt name (second.contains ·) ↔
      ∃ repoTags digest, data.tags[name]? = some repoTags ∧ repoTags[tag]? = some digest ∧
        digest ∉ first ∧ digest ∈ second := by
    intro tag
    rw [mem_tagsAt, deleteAll_eq, remainingTags]
    cases found : data.tags[name]? with
    | none => simp only [found, reduceCtorEq, false_and, exists_false]
    | some repoTags =>
      simp only [BTreeMap.getElem?_insert, if_true, Option.some.injEq, List.contains_iff_mem]
      constructor
      · rintro ⟨_, digest, rfl, kept, late⟩
        rw [BTreeMap.getElem?_retain, Option.filter_eq_some_iff] at kept
        exact ⟨repoTags, digest, rfl, kept.1, by simpa using kept.2, late⟩
      · rintro ⟨_, digest, rfl, found, early, late⟩
        refine ⟨_, digest, rfl, ?_, late⟩
        rw [BTreeMap.getElem?_retain, Option.filter_eq_some_iff]
        exact ⟨found, by simpa using early⟩
  refine (List.perm_ext_iff_of_nodup (nodup_tagsAt data name _) ?_).mpr fun tag => ?_
  · refine List.nodup_append.mpr ⟨nodup_tagsAt data name _, nodup_tagsAt _ name _, ?_⟩
    rintro tag early _ late rfl
    obtain ⟨_, digest, tags, found, isHit⟩ := (mem_tagsAt data name).mp early
    obtain ⟨_, _, sameTags, sameFound, kept, _⟩ := (later tag).mp late
    obtain rfl := Option.some.inj (tags.symm.trans sameTags)
    obtain rfl := Option.some.inj (found.symm.trans sameFound)
    exact kept (List.contains_iff_mem.mp isHit)
  · rw [List.mem_append, later, mem_tagsAt, mem_tagsAt]
    constructor
    · rintro ⟨repoTags, digest, tags, found, isHit⟩
      by_cases early : digest ∈ first
      · exact Or.inl ⟨repoTags, digest, tags, found, List.contains_iff_mem.mpr early⟩
      · have either := List.mem_append.mp (List.contains_iff_mem.mp isHit)
        exact Or.inr ⟨repoTags, digest, tags, found, early, either.resolve_left early⟩
    · rintro (⟨repoTags, digest, tags, found, isHit⟩ | ⟨repoTags, digest, tags, found, _, late⟩)
      · exact ⟨repoTags, digest, tags, found,
          List.contains_iff_mem.mpr (List.mem_append_left _ (List.contains_iff_mem.mp isHit))⟩
      · exact ⟨repoTags, digest, tags, found,
          List.contains_iff_mem.mpr (List.mem_append_right _ late)⟩

/-- Deleting one list of digests after another is deleting both at once. -/
theorem deleteAll_append (first second : List String) :
    (data.deleteAll name first).deleteAll name second = data.deleteAll name (first ++ second) := by
  rw [deleteAll_eq (data.deleteAll name first), remaining_append, remainingTags_append,
    deleteAll_eq data name (first ++ second), removed_append, List.flatMap_append,
    List.foldl_append, foldl_clearForTag_perm (tagsAt_append data name first second),
    List.foldl_append, deleteAll_eq data name first]

/-- What is deleted depends on the digests alone. -/
theorem deleteAll_congr {first second : List String} (same : ∀ digest, digest ∈ first ↔
    digest ∈ second) : data.deleteAll name first = data.deleteAll name second := by
  have sameHit : (first.contains ·) = (second.contains ·) := by
    funext digest
    rw [Bool.eq_iff_iff, List.contains_iff_mem, List.contains_iff_mem, same]
  have sameRemaining : data.remaining name first = data.remaining name second := by
    rw [remaining, remaining]
    cases data.manifests[name]? with
    | none => rfl
    | some repo =>
      exact congrArg (fun left => data.manifests.insert name left) (removeAll_congr same repo).1
  have sameRemoved : (data.removed name first).Perm (data.removed name second) := by
    rw [removed, removed]
    cases data.manifests[name]? with
    | none => exact List.Perm.refl _
    | some repo => exact (removeAll_congr same repo).2
  rw [deleteAll_eq, deleteAll_eq, sameHit, sameRemaining,
    BTreeMap.foldl_decrement_perm (sameRemoved.flatMap_right _)]

/-! ### Single deletions -/

theorem deleteAll_nil : data.deleteAll name [] = data := by
  have sameManifests : data.remaining name [] = data.manifests := by
    rw [remaining]
    cases found : data.manifests[name]? with
    | none => rfl
    | some repo => exact BTreeMap.insert_of_found found
  have noneRemoved : data.removed name [] = [] := by
    rw [removed]
    cases data.manifests[name]? with
    | none => rfl
    | some repo => rfl
  have noneAt : data.tagsAt name (([] : List String).contains ·) = [] :=
    List.eq_nil_iff_forall_not_mem.mpr fun tag member => by
      obtain ⟨_, _, _, _, isHit⟩ := (mem_tagsAt data name).mp member
      cases isHit
  have sameTags : data.remainingTags name (([] : List String).contains ·) = data.tags := by
    rw [remainingTags]
    cases found : data.tags[name]? with
    | none => rfl
    | some repoTags =>
      have all : BTreeMap.retain (fun _ digest => !([] : List String).contains digest) repoTags =
          repoTags := BTreeMap.ext_getElem? fun tag => by
        rw [BTreeMap.getElem?_retain]
        cases repoTags[tag]? with
        | none => rfl
        | some digest => rfl
      dsimp only
      rw [all]
      exact BTreeMap.insert_of_found found
  rw [deleteAll_eq, sameManifests, noneRemoved, sameTags, noneAt]
  rfl

theorem deleteAll_singleton (digest : String) :
    (data.removeEntry name digest).dropTags name (· = digest) = data.deleteAll name [digest] := by
  have sameHit : (fun other : String => decide (other = digest)) = ([digest].contains ·) := by
    funext other
    rw [Bool.eq_iff_iff, decide_eq_true_iff, List.contains_iff_mem, List.mem_singleton]
  have sameEntries : data.removeEntry name digest = data.removeEntries name [digest] := by
    rw [removeEntry, removeEntries]
    cases data.manifests[name]? with
    | none => rfl
    | some repo =>
      simp only [removeAll, List.foldl_cons, List.foldl_nil]
      cases absent : repo[digest]? with
      | none => simp only [BTreeMap.erase_of_absent absent, List.foldl_nil]
      | some entry => simp only [List.nil_append, List.foldl_cons, List.foldl_nil]
  rw [deleteAll, ← sameHit, sameEntries]

end StateMachineData

/-- The set of the digests of a batch. -/
theorem getElem?_digestSet (digests : List String) (digest : String) :
    (digests.foldl (fun (set : BTreeMap String Unit) digest => set.insert digest ()) ∅)[digest]? =
      if digest ∈ digests then some () else none := by
  suffices general : ∀ set : BTreeMap String Unit,
      (digests.foldl (fun set digest => set.insert digest ()) set)[digest]? =
        if digest ∈ digests then some () else set[digest]? by
    rw [general, BTreeMap.getElem?_empty]
  induction digests with
  | nil => exact fun set => by rw [if_neg List.not_mem_nil, List.foldl_nil]
  | cons head rest inductionHypothesis =>
    intro set
    rw [List.foldl_cons, inductionHypothesis, BTreeMap.getElem?_insert]
    by_cases later : digest ∈ rest
    · rw [if_pos later, if_pos (List.mem_cons_of_mem head later)]
    · rw [if_neg later]
      refine if_congr ⟨fun same => ?_, fun member => ?_⟩ rfl rfl
      · rw [same]
        exact List.mem_cons_self
      · exact ((List.mem_cons.mp member).resolve_right later).symm

section

variable (externals : Externals) (data : StateMachineData) (name : String)
  (expected : Option NamespaceEpoch)

/-- The data after single deletions, one digest after the other. -/
def deleteEach (digests : List String) : StateMachineData :=
  digests.foldl (fun data digest =>
    (applyManifest externals data (.deleteManifest name expected digest)).1) data

theorem requireExpectedNamespace_deleteAll (digests : List String) :
    requireExpectedNamespace (data.deleteAll name digests) name expected =
      requireExpectedNamespace data name expected := by
  rw [StateMachineData.deleteAll_eq]
  rfl

/-- A single deletion is refused for its namespace only. -/
theorem deleteManifest_answer (digest : String) :
    (applyManifest externals data (.deleteManifest name expected digest)).2 =
      (requireExpectedNamespace data name expected).map fun _ => .ok := by
  rw [applyManifest]
  cases requireExpectedNamespace data name expected with
  | error error => rfl
  | ok passed => rfl

theorem deleteEach_of_checked (checked : requireExpectedNamespace data name expected = .ok ())
    (digests : List String) :
    deleteEach externals data name expected digests = data.deleteAll name digests := by
  induction digests generalizing data with
  | nil => exact (data.deleteAll_nil name).symm
  | cons digest rest inductionHypothesis =>
    have single : (applyManifest externals data (.deleteManifest name expected digest)).1 =
        data.deleteAll name [digest] := by
      rw [applyManifest, checked]
      exact data.deleteAll_singleton name digest
    rw [deleteEach, List.foldl_cons, single]
    refine (inductionHypothesis _ ?_).trans (data.deleteAll_append name [digest] rest)
    rw [requireExpectedNamespace_deleteAll, checked]

theorem deleteEach_of_refused {error : LayerhouseError}
    (refused : requireExpectedNamespace data name expected = .error error)
    (digests : List String) : deleteEach externals data name expected digests = data := by
  induction digests with
  | nil => rfl
  | cons digest rest inductionHypothesis =>
    have single : (applyManifest externals data (.deleteManifest name expected digest)).1 =
        data := by
      rw [applyManifest, refused]
      rfl
    rw [deleteEach, List.foldl_cons, single]
    exact inductionHypothesis

theorem applyManifest_deleteManifests
    (checked : requireExpectedNamespace data name expected = .ok ()) (digests : List String) :
    applyManifest externals data (.deleteManifests name expected digests) =
      (data.deleteAll name digests, .ok (.deleteCounts
        ⟨(data.removed name digests).length, data.tags[name]?.elim 0 (·.size) -
          (data.deleteAll name digests).tags[name]?.elim 0 (·.size)⟩)) := by
  rw [applyManifest, checked, afterCheck]
  dsimp only
  generalize setOf : digests.foldl (fun (set : BTreeMap String Unit) digest =>
    set.insert digest ()) ∅ = digestSet
  have listed : ∀ digest, digest ∈ digestSet.keys ↔ digest ∈ digests := by
    intro digest
    rw [BTreeMap.mem_keys, ← setOf, getElem?_digestSet]
    by_cases member : digest ∈ digests
    · rw [if_pos member]
      exact iff_of_true ⟨(), rfl⟩ member
    · simp only [member, if_false, reduceCtorEq, exists_false]
  have sameHit : (digestSet.contains ·) = (digestSet.keys.contains ·) := by
    funext digest
    rw [Bool.eq_iff_iff, List.contains_iff_mem, Std.ExtTreeMap.mem_keys,
      Std.ExtTreeMap.contains_iff_mem]
  have sameData : (data.removeEntries name digestSet.keys).dropTags name (digestSet.contains ·) =
      data.deleteAll name digests := by
    rw [sameHit]
    exact data.deleteAll_congr name listed
  have sameCount : data.removedCount name digestSet.keys =
      (data.removed name digests).length := by
    rw [StateMachineData.removedCount, StateMachineData.removed]
    cases data.manifests[name]? with
    | none => rfl
    | some repo => exact (removeAll_congr listed repo).2.length_eq
  rw [sameData, sameCount]

/-- What is removed and what is left make up what was there. -/
theorem length_removed (digests : List String) :
    (data.removed name digests).length +
        (data.deleteAll name digests).manifests[name]?.elim 0 (·.size) =
      data.manifests[name]?.elim 0 (·.size) := by
  rw [StateMachineData.deleteAll_eq]
  simp only [StateMachineData.removed, StateMachineData.remaining]
  cases found : data.manifests[name]? with
  | none => simp only [found, List.length_nil, Option.elim_none]
  | some repo =>
    have balance := (removeAll_spec digests repo).2.2 fun _ => 1
    rw [← BTreeMap.size_eq_total, ← BTreeMap.size_eq_total, List.map_const', List.sum_replicate,
      Nat.smul_one_eq_cast, Nat.cast_id] at balance
    simp only [BTreeMap.getElem?_insert, if_true, Option.elim_some]
    omega

theorem size_remainingTags_le (digests : List String) :
    (data.deleteAll name digests).tags[name]?.elim 0 (·.size) ≤
      data.tags[name]?.elim 0 (·.size) := by
  rw [StateMachineData.deleteAll_eq]
  simp only [StateMachineData.remainingTags]
  cases found : data.tags[name]? with
  | none => simp only [found, Option.elim_none, Nat.le_refl]
  | some repoTags =>
    simp only [BTreeMap.getElem?_insert, if_true, Option.elim_some]
    exact BTreeMap.size_retain_le _ repoTags

/-- A batch deletion leaves the data that single deletions of its digests leave, in whatever order
and however often each of them is deleted. It is refused as any of them is, wherever in the series
it stands, and it counts what is gone. -/
theorem batch_delete_is_single_deletes (digests : List String) :
    (∀ singles, (∀ digest, digest ∈ singles ↔ digest ∈ digests) →
      deleteEach externals data name expected singles =
        (applyManifest externals data (.deleteManifests name expected digests)).1) ∧
    (∀ earlier digest error,
      (applyManifest externals (deleteEach externals data name expected earlier)
          (.deleteManifest name expected digest)).2 = .error error ↔
        (applyManifest externals data (.deleteManifests name expected digests)).2 =
          .error error) ∧
    ∀ next counts, applyManifest externals data (.deleteManifests name expected digests) =
        (next, .ok (.deleteCounts counts)) →
      counts.deletedManifests + next.manifests[name]?.elim 0 (·.size) =
          data.manifests[name]?.elim 0 (·.size) ∧
        counts.deletedTags + next.tags[name]?.elim 0 (·.size) =
          data.tags[name]?.elim 0 (·.size) := by
  cases checked : requireExpectedNamespace data name expected with
  | error error =>
    have batch : applyManifest externals data (.deleteManifests name expected digests) =
        (data, .error error) := by
      rw [applyManifest, checked, afterCheck]
    have unchanged := deleteEach_of_refused externals data name expected checked
    rw [batch]
    refine ⟨fun singles _ => unchanged singles, fun earlier digest other => ?_,
      fun next counts answered => ?_⟩
    · rw [unchanged earlier, deleteManifest_answer, checked]
      rfl
    · cases (Prod.mk.inj answered).2
  | ok passed =>
    have series := deleteEach_of_checked externals data name expected checked
    rw [applyManifest_deleteManifests externals data name expected checked digests]
    refine ⟨?_, ?_, ?_⟩
    · intro singles same
      rw [series]
      exact data.deleteAll_congr name same
    · intro earlier digest error
      rw [series, deleteManifest_answer, requireExpectedNamespace_deleteAll, checked]
      exact iff_of_false (fun refused => by cases refused) fun refused => by cases refused
    · intro next counts answered
      obtain ⟨rfl, counted⟩ := Prod.mk.inj answered
      obtain rfl := ManifestResponse.deleteCounts.inj (Except.ok.inj counted)
      exact ⟨length_removed data name digests,
        Nat.sub_add_cancel (size_remainingTags_le data name digests)⟩

end

end Layerhouse
