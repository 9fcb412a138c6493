/-
This file is about the release of a handle that holds nothing. A release is refused
while some content lives under the handle, and the check looks at the keys of the
content maps. Deleting a repository removes its keys, but deleting its manifests or
its tags one by one leaves an empty map under its name. A handle with such a name
cannot be released although nothing is stored under it.

The file proves that this is the only obstacle: a live handle without content can be
revoked, and released by its owner, exactly when no empty map is left under it.
-/

import Layerhouse.Raft.Content

namespace Layerhouse

/-- No repository under the handle has a manifest or a tag, and none has an object. -/
def StateMachineData.Contentless (data : StateMachineData) (handle : String) : Prop :=
  ∀ rest, (∀ digest, BTreeMap.entry? data.manifests (handle ++ "/" ++ rest) digest = none) ∧
    (∀ tag, BTreeMap.entry? data.tags (handle ++ "/" ++ rest) tag = none) ∧
    data.repositories[handle ++ "/" ++ rest]? = none

/-- An empty map of manifests or tags is left under the handle. -/
def StateMachineData.LeavesEmptyMap (data : StateMachineData) (handle : String) : Prop :=
  ∃ rest, data.manifests[handle ++ "/" ++ rest]? = some ∅ ∨
    data.tags[handle ++ "/" ++ rest]? = some ∅

/-- An administrator can revoke the handle, and the user who owns it can release it. -/
def Releasable (externals : Externals) (data : StateMachineData) (handle : String)
    (live : Namespace) : Prop :=
  (∀ actor time now, ∃ next, applyRequest externals now data
    (.namespaces (.adminRevoke handle actor time)) = .ok (next, .namespaces .ok)) ∧
  ∀ subject, live.owner = .user subject → ∀ reason time now, ∃ next,
    applyRequest externals now data (.namespaces (.delete handle subject reason time)) =
      .ok (next, .namespaces .ok)

/-- A map that is there and holds nothing is empty. -/
theorem eq_empty_of_entry?_eq_none {Value : Type} {map : BTreeMap String (BTreeMap String Value)}
    {name : String} {inners : BTreeMap String Value} (found : map[name]? = some inners)
    (holdsNothing : ∀ key, BTreeMap.entry? map name key = none) : inners = ∅ := by
  refine BTreeMap.ext_getElem? fun key => ?_
  rw [BTreeMap.getElem?_empty, ← BTreeMap.entry?_of_getElem? found, holdsNothing]

/-- Under a handle without content the scan finds the empty maps only. -/
theorem hasContent_iff_of_contentless {data : StateMachineData} {handle : String}
    (contentless : data.Contentless handle) :
    data.hasContent handle = true ↔ data.LeavesEmptyMap handle := by
  rw [hasContent_eq_true]
  refine exists_congr fun rest => ?_
  obtain ⟨noManifest, noTag, noRepository⟩ := contentless rest
  constructor
  · rintro (inManifests | inTags | inRepositories)
    · obtain ⟨inners, found⟩ := (BTreeMap.mem_iff _ _).mp inManifests
      rw [eq_empty_of_entry?_eq_none found noManifest] at found
      exact Or.inl found
    · obtain ⟨inners, found⟩ := (BTreeMap.mem_iff _ _).mp inTags
      rw [eq_empty_of_entry?_eq_none found noTag] at found
      exact Or.inr found
    · obtain ⟨repository, found⟩ := (BTreeMap.mem_iff _ _).mp inRepositories
      exact nomatch noRepository.symm.trans found
  · rintro (inManifests | inTags)
    · exact Or.inl ((BTreeMap.mem_iff _ _).mpr ⟨∅, inManifests⟩)
    · exact Or.inr (Or.inl ((BTreeMap.mem_iff _ _).mpr ⟨∅, inTags⟩))

/-- A live handle can be released exactly when the scan finds nothing under it. -/
theorem releasable_iff_hasContent {externals : Externals} {data : StateMachineData}
    {handle : String} {live : Namespace} (found : data.namespaces[handle]? = some live) :
    Releasable externals data handle live ↔ data.hasContent handle = false := by
  have foundInTables : data.namespaceTables.namespaces[handle]? = some live := found
  constructor
  · intro releasable
    obtain ⟨next, revoked⟩ := releasable.1 "" 0 0
    rw [applyRequest, applyNamespace, applyNamespaceCore] at revoked
    by_contra content
    rw [if_pos (Bool.not_eq_false _ ▸ content)] at revoked
    cases congrArg (Except.map Prod.snd) revoked
  · intro contentless
    refine ⟨fun actor time now => ?_, fun subject owned reason time now => ?_⟩
    · rw [applyRequest, applyNamespace, applyNamespaceCore, contentless, foundInTables]
      exact ⟨_, rfl⟩
    · have owner : live.owner.isReleasableBy subject = true := by
        rw [owned]
        exact decide_eq_true rfl
      rw [applyRequest, applyNamespace, applyNamespaceCore, foundInTables]
      simp only [owner, contentless, not_true_eq_false, if_false, Bool.false_eq_true]
      exact ⟨_, rfl⟩

/-- A live handle without content can be revoked, and released by its owner, exactly when no empty
map is left under it. -/
theorem contentless_handle_releasable_iff (externals : Externals) (data : StateMachineData)
    (handle : String) (live : Namespace) (found : data.namespaces[handle]? = some live)
    (contentless : data.Contentless handle) :
    Releasable externals data handle live ↔ ¬ data.LeavesEmptyMap handle := by
  rw [releasable_iff_hasContent found, ← hasContent_iff_of_contentless contentless,
    Bool.not_eq_true]

/-- Data without entries has no content. -/
theorem contentless_of_isEmpty {data : StateMachineData}
    (manifests : data.manifests.toList.all (·.2.isEmpty) = true)
    (tags : data.tags.toList.all (·.2.isEmpty) = true) (repositories : data.repositories = ∅)
    (handle : String) : data.Contentless handle := by
  have nothing : ∀ {Value : Type} {map : BTreeMap String (BTreeMap String Value)},
      map.toList.all (·.2.isEmpty) = true → ∀ name key, BTreeMap.entry? map name key = none := by
    intro Value map empties name key
    cases found : map[name]? with
    | none => rw [BTreeMap.entry?, found, Option.bind_none]
    | some inners =>
      have member := (BTreeMap.mem_toList map name inners).mpr found
      have emptied : inners.isEmpty = true := List.all_eq_true.mp empties _ member
      rw [BTreeMap.entry?_of_getElem? found, Std.ExtTreeMap.isEmpty_iff.mp emptied,
        BTreeMap.getElem?_empty]
  refine fun rest => ⟨nothing manifests _, nothing tags _, ?_⟩
  rw [repositories, BTreeMap.getElem?_empty]

/-- The owner of a handle pushes a manifest and deletes what was pushed. -/
def samplePushAndDelete (deletion : ManifestRequest) : List (Nat × Request) :=
  [(0, sampleClaim "alice" "first" false),
    (0, .manifest (.putManifest
      (samplePush "alice/app" (some ⟨"alice", 1⟩) (sampleDigest 'a') (sampleDigest 'b')))),
    (0, .manifest deletion)]

/-- The manifest is deleted by its digest: nothing is left, and the handle cannot be released. -/
theorem emptied_handle_not_releasable :
    ∃ labels data live, run (requestStep sampleExternals) StateMachineData.empty labels =
        some data ∧
      data.namespaces["alice"]? = some live ∧ data.Contentless "alice" ∧
        ¬ Releasable sampleExternals data "alice" live := by
  let labels := samplePushAndDelete
    (.deleteManifest "alice/app" (some ⟨"alice", 1⟩) (sampleDigest 'a'))
  have reached : (run (requestStep sampleExternals) StateMachineData.empty labels).any
      (fun data => data.namespaces["alice"]?.isSome ∧ data.hasContent "alice" ∧
        data.manifests.toList.all (·.2.isEmpty) ∧ data.tags.toList.all (·.2.isEmpty) ∧
        data.repositories.isEmpty) = true := by
    decide +kernel
  obtain ⟨data, reached, checked⟩ := (Option.any_eq_true ..).mp reached
  obtain ⟨claimed, content, manifests, tags, repositories⟩ := of_decide_eq_true checked
  obtain ⟨live, found⟩ := Option.isSome_iff_exists.mp claimed
  refine ⟨labels, data, live, reached, found,
    contentless_of_isEmpty manifests tags (Std.ExtTreeMap.isEmpty_iff.mp repositories) "alice", ?_⟩
  rw [releasable_iff_hasContent found, content]
  exact Bool.noConfusion

/-- The repository is deleted as a whole: the handle can be released. -/
theorem contentless_handle_releasable_sample :
    ∃ labels data live, run (requestStep sampleExternals) StateMachineData.empty labels =
        some data ∧
      data.namespaces["alice"]? = some live ∧ Releasable sampleExternals data "alice" live := by
  let labels := samplePushAndDelete (.deleteRepository "alice/app" (some ⟨"alice", 1⟩))
  have reached : (run (requestStep sampleExternals) StateMachineData.empty labels).any
      (fun data => data.namespaces["alice"]?.isSome ∧ data.hasContent "alice" = false ∧
        data.manifests.toList.all (·.2.isEmpty) ∧ data.tags.toList.all (·.2.isEmpty) ∧
        data.repositories.isEmpty) = true := by
    decide +kernel
  obtain ⟨data, reached, checked⟩ := (Option.any_eq_true ..).mp reached
  obtain ⟨claimed, scanned, manifests, tags, repositories⟩ := of_decide_eq_true checked
  obtain ⟨live, found⟩ := Option.isSome_iff_exists.mp claimed
  have contentless :=
    contentless_of_isEmpty manifests tags (Std.ExtTreeMap.isEmpty_iff.mp repositories) "alice"
  refine ⟨labels, data, live, reached, found,
    (contentless_handle_releasable_iff sampleExternals data "alice" live found contentless).mpr ?_⟩
  rw [← hasContent_iff_of_contentless contentless, scanned]
  exact Bool.noConfusion

end Layerhouse
