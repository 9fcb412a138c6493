/-
This file shows that the summaries of `raft/state_machine.rs` and `store/metadata/types.rs` lose
nothing and count nothing twice. The summaries of a repository are made manifest by manifest, and
each takes the tags of its digest out of a table; those of all repositories are made from two maps,
the manifests and the repositories that were created.

All of it rests on the tags: each points at a manifest of its own repository, as in every state
that is reached from the empty one. A tag without its manifest would be in no summary and in the
count of its repository.
-/

import Layerhouse.Library.Groups
import Layerhouse.Raft.References
import Layerhouse.Routes.Listings

namespace Layerhouse

/-- Every tag points at a manifest of its repository. -/
def StateMachineData.TagIntegrity (data : StateMachineData) : Prop :=
  ∀ name tag digest, data.content.tag? name tag = some digest →
    ∃ entry, data.content.entry? name digest = some entry

theorem tagIntegrity_of_reached {externals : Externals} {labels : List (Nat × Request)}
    {data : StateMachineData}
    (reached : run (requestStep externals) StateMachineData.empty labels = some data)
    (addressed : ∀ label ∈ labels, label.2.Addressed externals.sha256) : data.TagIntegrity :=
  (content_consistent reached addressed).present

/-! ### The summaries of the manifests -/

/-- The summary of a manifest with these tags. -/
def manifestSummary (externals : Externals) (manifest : String × ManifestEntry)
    (tags : List String) : ManifestSummary where
  digest := manifest.1
  mediaType := manifest.2.contentType
  artifactType := manifest.2.artifactType
  storedSizeBytes := manifestStoredSizeBytes externals manifest.2
  manifestSizeBytes := manifest.2.manifestSizeBytes
  createdAt := manifest.2.createdAt
  lastModified := manifest.2.lastModified
  tags := tags.insertionSort (· ≤ ·)
  subject := manifest.2.subject.map Digest.toStr
  annotations := manifest.2.annotations
  configSummary := manifest.2.configSummary
  body := (externals.fromSlice manifest.2.body).getD .null

/-- The manifests of a repository by their digests. -/
def repositoryManifests (data : StateMachineData) (name : String) :
    List (String × ManifestEntry) :=
  (data.manifests[name]?.map (·.toList)).getD []

/-- The tags of a repository and their digests. -/
def repositoryTags (data : StateMachineData) (name : String) : List (String × String) :=
  (data.tags[name]?.map (·.toList)).getD []

/-- The tags of a digest, in their order. -/
def tagsOf (data : StateMachineData) (name digest : String) : List String :=
  Groups.group (·.2) (·.1) (repositoryTags data name) digest

theorem mem_repositoryTags {data : StateMachineData} {name tag digest : String} :
    (tag, digest) ∈ repositoryTags data name ↔ data.content.tag? name tag = some digest := by
  have lookup : data.content.tag? name tag = data.tags[name]?.bind (·[tag]?) := rfl
  rw [lookup, repositoryTags]
  cases data.tags[name]? with
  | none => exact iff_of_false List.not_mem_nil nofun
  | some tags => exact BTreeMap.mem_toList tags tag digest

theorem mem_repositoryManifests {data : StateMachineData} {name : String}
    {manifest : String × ManifestEntry} :
    manifest ∈ repositoryManifests data name ↔
      data.content.entry? name manifest.1 = some manifest.2 := by
  have lookup : data.content.entry? name manifest.1 =
      data.manifests[name]?.bind (·[manifest.1]?) := rfl
  rw [lookup, repositoryManifests]
  cases data.manifests[name]? with
  | none => exact iff_of_false List.not_mem_nil nofun
  | some manifests => exact BTreeMap.mem_toList manifests manifest.1 manifest.2

theorem nodup_repositoryManifests (data : StateMachineData) (name : String) :
    ((repositoryManifests data name).map (·.1)).Nodup := by
  rw [repositoryManifests]
  cases data.manifests[name]? with
  | none => exact List.nodup_nil
  | some manifests => exact BTreeMap.nodup_keys_toList manifests

theorem mem_tagsOf {data : StateMachineData} {name tag digest : String} :
    tag ∈ tagsOf data name digest ↔ data.content.tag? name tag = some digest := by
  rw [tagsOf, Groups.mem_group, ← mem_repositoryTags]
  constructor
  · rintro ⟨_, member, rfl, rfl⟩
    exact member
  · intro member
    exact ⟨_, member, rfl, rfl⟩

theorem nodup_tagsOf (data : StateMachineData) (name digest : String) :
    (tagsOf data name digest).Nodup := by
  refine List.Nodup.sublist (Groups.group_sublist digest) ?_
  rw [repositoryTags]
  cases data.tags[name]? with
  | none => exact List.nodup_nil
  | some tags => exact BTreeMap.nodup_keys_toList tags

theorem summarizeManifests_eq_handOut (externals : Externals)
    (byDigest : BTreeMap String (List String)) (manifests : List (String × ManifestEntry)) :
    summarizeManifests externals byDigest manifests =
      Groups.handOut (manifestSummary externals) byDigest manifests := by
  induction manifests generalizing byDigest with
  | nil => rfl
  | cons manifest rest inductionHypothesis =>
    rw [summarizeManifests, Groups.handOut, inductionHypothesis]
    rfl

/-- Each manifest has one summary, with the tags of its digest. -/
theorem listManifestSummaries_eq_map (externals : Externals) (data : StateMachineData)
    (name : String) :
    listManifestSummaries externals data name =
      (repositoryManifests data name).map fun manifest =>
        manifestSummary externals manifest (tagsOf data name manifest.1) := by
  rw [listManifestSummaries, repositoryManifests]
  cases data.manifests[name]? with
  | none => rfl
  | some manifests =>
    simp only [buildManifestSummaries, Option.map_some, Option.getD_some]
    rw [summarizeManifests_eq_handOut,
      Groups.handOut_eq_map _ (BTreeMap.nodup_keys_toList manifests)]
    refine List.map_congr_left fun manifest _ => congrArg (manifestSummary externals manifest) ?_
    exact Groups.getD_gathered manifest.1

theorem mem_digests_listManifestSummaries {externals : Externals} {data : StateMachineData}
    {name digest : String} :
    digest ∈ (listManifestSummaries externals data name).map (·.digest) ↔
      ∃ entry, data.content.entry? name digest = some entry := by
  rw [listManifestSummaries_eq_map, List.map_map, List.mem_map]
  constructor
  · rintro ⟨manifest, member, rfl⟩
    exact ⟨manifest.2, mem_repositoryManifests.mp member⟩
  · rintro ⟨entry, found⟩
    exact ⟨(digest, entry), mem_repositoryManifests.mpr found, rfl⟩

theorem mem_tags_iff {externals : Externals} {data : StateMachineData} {name : String}
    {summary : ManifestSummary} (listed : summary ∈ listManifestSummaries externals data name)
    (tag : String) :
    tag ∈ summary.tags ↔ data.content.tag? name tag = some summary.digest := by
  rw [listManifestSummaries_eq_map] at listed
  obtain ⟨manifest, _, rfl⟩ := List.mem_map.mp listed
  rw [manifestSummary, List.mem_insertionSort, mem_tagsOf]

theorem sortedLT_tags {externals : Externals} {data : StateMachineData} {name : String}
    {summary : ManifestSummary} (listed : summary ∈ listManifestSummaries externals data name) :
    summary.tags.SortedLT := by
  rw [listManifestSummaries_eq_map] at listed
  obtain ⟨manifest, _, rfl⟩ := List.mem_map.mp listed
  refine (List.sortedLE_insertionSort).sortedLT_of_nodup ?_
  exact (List.perm_insertionSort _ _).nodup_iff.mpr (nodup_tagsOf data name manifest.1)

/-- A summary is that of the manifest with its digest. -/
theorem eq_manifestSummary {externals : Externals} {data : StateMachineData} {name : String}
    {summary : ManifestSummary} (listed : summary ∈ listManifestSummaries externals data name) :
    ∃ entry, data.content.entry? name summary.digest = some entry ∧
      summary = manifestSummary externals (summary.digest, entry) summary.tags := by
  have sorted := (sortedLT_tags listed).sortedLE.pairwise
  rw [listManifestSummaries_eq_map] at listed
  obtain ⟨manifest, member, rfl⟩ := List.mem_map.mp listed
  refine ⟨manifest.2, mem_repositoryManifests.mp member, ?_⟩
  have unchanged := sorted.insertionSort_eq
  rw [manifestSummary] at unchanged ⊢
  simp only [manifestSummary, unchanged]

/-- A tag is in one summary, that of its digest. -/
theorem digests_with_tag {externals : Externals} {data : StateMachineData}
    {name tag digest : String} (integrity : data.TagIntegrity)
    (found : data.content.tag? name tag = some digest) :
    ((listManifestSummaries externals data name).filter (tag ∈ ·.tags)).map (·.digest) =
      [digest] := by
  have same : (listManifestSummaries externals data name).filter (tag ∈ ·.tags) =
      (listManifestSummaries externals data name).filter ((· = digest) ∘ (·.digest)) := by
    refine List.filter_congr fun summary listed => decide_eq_decide.mpr ?_
    rw [mem_tags_iff listed, found, Option.some.injEq]
    exact eq_comm
  have present : digest ∈ (listManifestSummaries externals data name).map (·.digest) :=
    mem_digests_listManifestSummaries.mpr (integrity name tag digest found)
  rw [same, ← List.filter_map, List.filter_eq,
    List.count_eq_one_of_mem (nodup_listManifestSummaries externals data name) present]
  rfl

/-- The summaries have each manifest of the repository once, as it is, and each of its tags once,
with the manifest that it points at. -/
structure ManifestsSummarized (externals : Externals) (data : StateMachineData) (name : String)
    (summaries : List ManifestSummary) : Prop where
  distinct : (summaries.map (·.digest)).Nodup
  complete : ∀ digest, digest ∈ summaries.map (·.digest) ↔
    ∃ entry, data.content.entry? name digest = some entry
  described : ∀ summary ∈ summaries, ∃ entry,
    data.content.entry? name summary.digest = some entry ∧
      summary = manifestSummary externals (summary.digest, entry) summary.tags
  tagged : ∀ summary ∈ summaries, ∀ tag,
    tag ∈ summary.tags ↔ data.content.tag? name tag = some summary.digest
  sorted : ∀ summary ∈ summaries, summary.tags.SortedLT
  once : ∀ tag digest, data.content.tag? name tag = some digest →
    (summaries.filter (tag ∈ ·.tags)).map (·.digest) = [digest]

theorem manifestsSummarized (externals : Externals) {data : StateMachineData}
    (integrity : data.TagIntegrity) (name : String) :
    ManifestsSummarized externals data name (listManifestSummaries externals data name) where
  distinct := nodup_listManifestSummaries externals data name
  complete := fun _ => mem_digests_listManifestSummaries
  described := fun _ => eq_manifestSummary
  tagged := fun _ => mem_tags_iff
  sorted := fun _ => sortedLT_tags
  once := fun _ _ => digests_with_tag integrity

/-! ### The summaries of the repositories -/

/-- The summaries have each repository once, that it was pushed to or that was created, and count
what the summaries of its manifests hold. -/
structure RepositoriesSummarized (externals : Externals) (data : StateMachineData)
    (summaries : List RepositorySummary) : Prop where
  distinct : (summaries.map (·.name)).Nodup
  complete : ∀ name, name ∈ summaries.map (·.name) ↔
    name ∈ data.manifests ∨ name ∈ data.repositories
  manifestCount : ∀ summary ∈ summaries,
    summary.manifestCount = (listManifestSummaries externals data summary.name).length
  tagCount : ∀ summary ∈ summaries,
    summary.tagCount =
      ((listManifestSummaries externals data summary.name).map (·.tags.length)).sum

theorem mem_names_listRepositorySummaries {externals : Externals} {data : StateMachineData}
    {name : String} :
    name ∈ (listRepositorySummaries externals data).map (·.name) ↔
      name ∈ data.manifests ∨ name ∈ data.repositories := by
  have pushed : name ∈ (data.manifests.toList.map fun repo =>
      pushedSummary externals data repo.1 repo.2).map (·.name) ↔ name ∈ data.manifests := by
    rw [List.map_map, ← Std.ExtTreeMap.mem_keys, ← Std.ExtTreeMap.map_fst_toList_eq_keys]
    rfl
  have shadows : name ∈ ((data.repositories.toList.filter fun repo =>
      ¬ data.manifests.contains repo.1).map fun repo => shadowSummary repo.1 repo.2).map (·.name) ↔
      name ∈ data.repositories ∧ name ∉ data.manifests := by
    rw [List.map_map, List.mem_map, BTreeMap.mem_iff]
    constructor
    · rintro ⟨repo, member, rfl⟩
      obtain ⟨listed, absent⟩ := List.mem_filter.mp member
      exact ⟨⟨repo.2, (BTreeMap.mem_toList _ _ _).mp listed⟩, of_decide_eq_true absent⟩
    · rintro ⟨⟨repo, found⟩, absent⟩
      refine ⟨(name, repo), List.mem_filter.mpr ⟨?_, decide_eq_true absent⟩, rfl⟩
      exact (BTreeMap.mem_toList _ _ _).mpr found
  rw [listRepositorySummaries, List.map_append, List.mem_append, pushed, shadows]
  by_cases known : name ∈ data.manifests
  · exact iff_of_true (Or.inl known) (Or.inl known)
  · rw [or_iff_right known, or_iff_right known, and_iff_left known]

theorem length_repositoryTags (data : StateMachineData) (name : String) :
    (repositoryTags data name).length = (data.tags[name]?.map (·.size)).getD 0 := by
  rw [repositoryTags]
  cases data.tags[name]? with
  | none => rfl
  | some tags => exact Std.ExtTreeMap.length_toList

/-- The summaries of the manifests hold all tags. -/
theorem sum_length_tags {externals : Externals} {data : StateMachineData}
    (integrity : data.TagIntegrity) (name : String) :
    ((listManifestSummaries externals data name).map (·.tags.length)).sum =
      (repositoryTags data name).length := by
  have covered : ∀ tag ∈ repositoryTags data name,
      tag.2 ∈ (repositoryManifests data name).map (·.1) := by
    rintro ⟨tag, digest⟩ member
    obtain ⟨entry, found⟩ := integrity name tag digest (mem_repositoryTags.mp member)
    exact List.mem_map.mpr ⟨(digest, entry), mem_repositoryManifests.mpr found, rfl⟩
  have total : (((repositoryManifests data name).map (·.1)).map fun digest =>
      (tagsOf data name digest).length).sum = (repositoryTags data name).length :=
    Groups.sum_length_group (nodup_repositoryManifests data name) covered
  rw [← total, listManifestSummaries_eq_map, List.map_map, List.map_map]
  refine congrArg List.sum (List.map_congr_left fun manifest _ => ?_)
  exact List.length_insertionSort _ _

/-- Without manifests there are no summaries of them. -/
theorem listManifestSummaries_of_absent {externals : Externals} {data : StateMachineData}
    {name : String} (absent : data.manifests[name]? = none) :
    listManifestSummaries externals data name = [] := by
  rw [listManifestSummaries, absent]

theorem counts_of_listed {externals : Externals} {data : StateMachineData}
    (integrity : data.TagIntegrity) {summary : RepositorySummary}
    (listed : summary ∈ listRepositorySummaries externals data) :
    summary.manifestCount = (listManifestSummaries externals data summary.name).length ∧
      summary.tagCount =
        ((listManifestSummaries externals data summary.name).map (·.tags.length)).sum := by
  rcases List.mem_append.mp listed with pushed | shadow
  · obtain ⟨⟨name, manifests⟩, member, rfl⟩ := List.mem_map.mp pushed
    have found := (BTreeMap.mem_toList _ _ _).mp member
    simp only [pushedSummary]
    constructor
    · rw [listManifestSummaries_eq_map, List.length_map, repositoryManifests, found]
      exact Std.ExtTreeMap.length_toList.symm
    · rw [sum_length_tags integrity, length_repositoryTags]
  · obtain ⟨⟨name, repo⟩, member, rfl⟩ := List.mem_map.mp shadow
    have absent : name ∉ data.manifests := of_decide_eq_true (List.mem_filter.mp member).2
    simp only [shadowSummary]
    rw [listManifestSummaries_of_absent (Std.ExtTreeMap.getElem?_eq_none absent)]
    exact ⟨rfl, rfl⟩

/-- In a state whose tags point at manifests of their own repositories, the summaries of each
repository have every manifest and every tag once, and the summaries of all repositories have
every repository once, with the numbers of its manifests and tags in those summaries. -/
theorem summaries_lose_nothing (externals : Externals) (data : StateMachineData)
    (integrity : data.TagIntegrity) :
    (∀ name, ManifestsSummarized externals data name
      (listManifestSummaries externals data name)) ∧
    RepositoriesSummarized externals data (listRepositorySummaries externals data) := by
  refine ⟨manifestsSummarized externals integrity, ?_⟩
  exact
    { distinct := nodup_listRepositorySummaries externals data
      complete := fun _ => mem_names_listRepositorySummaries
      manifestCount := fun _ listed => (counts_of_listed integrity listed).1
      tagCount := fun _ listed => (counts_of_listed integrity listed).2 }

/-- A pushed manifest is in one summary, with its tag. -/
theorem summaries_lose_nothing_sample :
    ∃ data,
      run (requestStep emptyBodyExternals) StateMachineData.empty
        [(0, sampleClaim "alice" "first" false),
          (0, .manifest (.putManifest (samplePush "alice/app" (some ⟨"alice", 1⟩) emptyBodyDigest
            (sampleDigest 'b'))))] = some data ∧
      data.content.tag? "alice/app" "latest" = some emptyBodyDigest ∧
      ManifestsSummarized emptyBodyExternals data "alice/app"
        (listManifestSummaries emptyBodyExternals data "alice/app") ∧
      RepositoriesSummarized emptyBodyExternals data
        (listRepositorySummaries emptyBodyExternals data) := by
  have reached : run (requestStep emptyBodyExternals) StateMachineData.empty
      [(0, sampleClaim "alice" "first" false),
        (0, .manifest (.putManifest (samplePush "alice/app" (some ⟨"alice", 1⟩) emptyBodyDigest
          (sampleDigest 'b'))))] = some _ := rfl
  have summarized := summaries_lose_nothing emptyBodyExternals _
    (tagIntegrity_of_reached reached (by
      intro label member put pushed
      rcases List.mem_pair.mp member with rfl | rfl
      · cases pushed
      · cases pushed
        rfl))
  exact ⟨_, reached, rfl, summarized.1 "alice/app", summarized.2⟩

end Layerhouse
