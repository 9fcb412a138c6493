/-
This file proves that the blob reference counts are exact: in every state a node
can reach by applying requests and installing snapshots, the count stored for a
digest is the number of manifest entries that refer to it, and no digest is
stored with the count zero. So the counts always equal what rebuilding them from
the manifests gives.

An entry refers to each of its blobs once (its references are sorted and
deduplicated when it is stored), so moving the counts along an entry's
references adds or takes exactly the weight of the entry.
-/

import Layerhouse.Raft.Effects

namespace Layerhouse

/-! ### References of an entry -/

theorem mem_sortDedupDigests {digest : Digest} {digests : List Digest}
    (member : digest ∈ sortDedupDigests digests) : digest ∈ digests :=
  (List.mem_insertionSort _).mp ((List.destutter_sublist _ _).subset member)

/-- A digest that is dropped for its neighbour has the printed form of one that is kept. -/
theorem exists_mem_destutter {digests : List Digest} {first digest : Digest}
    (member : digest ∈ first :: digests) :
    ∃ kept ∈ digests.destutter' (fun first second => first.toStr ≠ second.toStr) first,
      kept.toStr = digest.toStr := by
  induction digests generalizing first digest with
  | nil => exact ⟨first, List.mem_singleton_self first, by rw [List.mem_singleton.mp member]⟩
  | cons second rest inductionHypothesis =>
    rw [List.destutter'_cons]
    split
    · rcases List.mem_cons.mp member with rfl | later
      · exact ⟨digest, List.mem_cons_self, rfl⟩
      · obtain ⟨kept, found, same⟩ := inductionHypothesis later
        exact ⟨kept, List.mem_cons_of_mem _ found, same⟩
    · rename_i repeated
      rcases List.mem_cons.mp member with rfl | later
      · exact inductionHypothesis List.mem_cons_self
      · rcases List.mem_cons.mp later with rfl | last
        · obtain ⟨kept, found, same⟩ := inductionHypothesis (List.mem_cons_self (a := first))
          exact ⟨kept, found, same.trans (not_not.mp repeated)⟩
        · exact inductionHypothesis (List.mem_cons_of_mem first last)

theorem mem_keys_sortDedupDigests {text : String} {digests : List Digest} :
    text ∈ (sortDedupDigests digests).map Digest.toStr ↔ text ∈ digests.map Digest.toStr := by
  constructor
  · intro member
    obtain ⟨digest, kept, rfl⟩ := List.mem_map.mp member
    exact List.mem_map_of_mem (mem_sortDedupDigests kept)
  · intro member
    obtain ⟨digest, found, rfl⟩ := List.mem_map.mp member
    rw [← List.mem_insertionSort fun first second : Digest => first.toStr ≤ second.toStr] at found
    rw [sortDedupDigests]
    generalize digests.insertionSort (fun first second => first.toStr ≤ second.toStr) = sorted
      at found ⊢
    cases sorted with
    | nil => exact absurd found List.not_mem_nil
    | cons first rest =>
      obtain ⟨kept, member, same⟩ := exists_mem_destutter found
      rw [← same]
      exact List.mem_map_of_mem member

theorem sorted_sortDedupDigests (digests : List Digest) :
    (sortDedupDigests digests).Pairwise fun first second => first.toStr ≤ second.toStr :=
  (List.pairwise_insertionSort (fun first second : Digest => first.toStr ≤ second.toStr)
    digests).sublist (List.destutter_sublist _ _)

theorem nodup_sortDedupDigests (digests : List Digest) :
    ((sortDedupDigests digests).map Digest.toStr).Nodup := by
  have sorted := sorted_sortDedupDigests digests
  have different : (sortDedupDigests digests).IsChain fun first second =>
      first.toStr ≠ second.toStr := List.isChain_destutter _ _
  have increasing : ((sortDedupDigests digests).map Digest.toStr).IsChain (· < ·) := by
    rw [List.isChain_map, List.isChain_iff_forall_rel_of_append_cons_cons]
    intro first second before after same
    refine lt_of_le_of_ne ?_ (List.isChain_iff_forall_rel_of_append_cons_cons.mp different same)
    exact List.isChain_iff_forall_rel_of_append_cons_cons.mp sorted.isChain same
  exact increasing.pairwise.imp fun less => ne_of_lt less

/-- One when the entry refers to the digest, and zero otherwise. -/
def ManifestEntry.weight (digest : String) (entry : ManifestEntry) : Nat :=
  if digest ∈ entry.blobKeys then 1 else 0

/-- The number of pairs of a repository and a manifest entry in it that refers to the
digest. -/
def referenceCount (manifests : BTreeMap String (BTreeMap String ManifestEntry))
    (digest : String) : Nat :=
  BTreeMap.total (BTreeMap.total (ManifestEntry.weight digest)) manifests

theorem count_blobKeys {entry : ManifestEntry} (distinct : entry.blobKeys.Nodup)
    (digest : String) : entry.blobKeys.count digest = entry.weight digest := by
  unfold ManifestEntry.weight
  split
  · rename_i member
    exact List.count_eq_one_of_mem distinct member
  · rename_i absent
    exact List.count_eq_zero_of_not_mem absent

theorem count_incrementBlobRefs (data : StateMachineData) {entry : ManifestEntry}
    (distinct : entry.blobKeys.Nodup) (digest : String) :
    BTreeMap.count (data.incrementBlobRefs entry).blobRefCounts digest =
      BTreeMap.count data.blobRefCounts digest + entry.weight digest := by
  rw [StateMachineData.incrementBlobRefs, BTreeMap.count_foldl_increment, count_blobKeys distinct]

theorem count_decrementBlobRefs (data : StateMachineData) {entry : ManifestEntry}
    (distinct : entry.blobKeys.Nodup) (digest : String) :
    BTreeMap.count (data.decrementBlobRefs entry).blobRefCounts digest =
      BTreeMap.count data.blobRefCounts digest - entry.weight digest := by
  rw [StateMachineData.decrementBlobRefs, BTreeMap.count_foldl_decrement, count_blobKeys distinct]

theorem positive_incrementBlobRefs {data : StateMachineData}
    (positive : BTreeMap.Positive data.blobRefCounts) (entry : ManifestEntry) :
    BTreeMap.Positive (data.incrementBlobRefs entry).blobRefCounts :=
  BTreeMap.positive_foldl (fun _ key kept => BTreeMap.positive_increment kept key) _ positive

theorem positive_decrementBlobRefs {data : StateMachineData}
    (positive : BTreeMap.Positive data.blobRefCounts) (entry : ManifestEntry) :
    BTreeMap.Positive (data.decrementBlobRefs entry).blobRefCounts :=
  BTreeMap.positive_foldl (fun _ key kept => BTreeMap.positive_decrement kept key) _ positive

/-- Releasing the references of several entries in turn. -/
theorem foldl_decrementBlobRefs (entries : List ManifestEntry) (data : StateMachineData)
    (distinct : ∀ entry ∈ entries, entry.blobKeys.Nodup)
    (positive : BTreeMap.Positive data.blobRefCounts) :
    BTreeMap.Positive (entries.foldl StateMachineData.decrementBlobRefs data).blobRefCounts ∧
      ∀ digest,
        BTreeMap.count (entries.foldl StateMachineData.decrementBlobRefs data).blobRefCounts
            digest =
          BTreeMap.count data.blobRefCounts digest - (entries.map (·.weight digest)).sum := by
  induction entries generalizing data with
  | nil => exact ⟨positive, fun _ => rfl⟩
  | cons entry rest inductionHypothesis =>
    obtain ⟨stillPositive, counted⟩ := inductionHypothesis
      (data.decrementBlobRefs entry) (fun other member => distinct other (.tail _ member))
      (positive_decrementBlobRefs positive entry)
    refine ⟨stillPositive, fun digest => ?_⟩
    rw [List.foldl_cons, counted, count_decrementBlobRefs data (distinct entry (.head _)),
      List.map_cons, List.sum_cons]
    omega

/-! ### The invariant -/

/-- The counts are exact, none is stored as zero, and entries refer to each blob once. -/
structure BlobRefsExact (data : StateMachineData) : Prop where
  distinct : ∀ (name : String) repo (digest : String) entry, data.manifests[name]? = some repo →
    repo[digest]? = some entry → entry.blobKeys.Nodup
  positive : BTreeMap.Positive data.blobRefCounts
  counted : ∀ digest, BTreeMap.count data.blobRefCounts digest =
    referenceCount data.manifests digest

theorem blobRefsExact_empty : BlobRefsExact StateMachineData.empty where
  distinct := fun name repo _ _ found _ => by
    have absent : (∅ : BTreeMap String (BTreeMap String ManifestEntry))[name]? = none :=
      BTreeMap.getElem?_empty name
    exact absurd (absent.symm.trans found) (Option.some_ne_none repo).symm
  positive := BTreeMap.positive_empty
  counted := fun _ => (BTreeMap.total_empty _).symm

/-- The weight of a repository, absent ones weighing nothing. -/
theorem elim_total (manifests : BTreeMap String (BTreeMap String ManifestEntry)) (name : String)
    (digest : String) :
    manifests[name]?.elim 0 (BTreeMap.total (ManifestEntry.weight digest)) =
      BTreeMap.total (ManifestEntry.weight digest) (manifests[name]?.getD ∅) := by
  cases manifests[name]? with
  | none => exact (BTreeMap.total_empty _).symm
  | some repo => rfl

/-- Replacing a repository changes the reference count by the difference of the two weights. -/
theorem referenceCount_insert (manifests : BTreeMap String (BTreeMap String ManifestEntry))
    (name : String) (repo : BTreeMap String ManifestEntry) (digest : String) :
    referenceCount (manifests.insert name repo) digest +
        BTreeMap.total (ManifestEntry.weight digest) (manifests[name]?.getD ∅) =
      referenceCount manifests digest + BTreeMap.total (ManifestEntry.weight digest) repo := by
  rw [← elim_total]
  exact BTreeMap.total_insert _ manifests name repo

theorem referenceCount_erase (manifests : BTreeMap String (BTreeMap String ManifestEntry))
    (name digest : String) :
    referenceCount (manifests.erase name) digest +
        BTreeMap.total (ManifestEntry.weight digest) (manifests[name]?.getD ∅) =
      referenceCount manifests digest := by
  rw [← elim_total]
  exact BTreeMap.total_erase _ manifests name

/-! ### Storing an entry -/

theorem BlobRefsExact.storeEntry {data : StateMachineData} (holds : BlobRefsExact data)
    (name : String) {entry : ManifestEntry} (distinct : entry.blobKeys.Nodup) :
    BlobRefsExact (data.storeEntry name entry) := by
  have distinctOld : ∀ (digest : String) old, (data.manifests[name]?.getD ∅)[digest]? = some old →
      old.blobKeys.Nodup := by
    intro digest old found
    cases lookup : data.manifests[name]? with
    | none =>
      rw [lookup, Option.getD_none, BTreeMap.getElem?_empty] at found
      cases found
    | some repo =>
      rw [lookup, Option.getD_some] at found
      exact holds.distinct name repo digest old lookup found
  have moved : ∀ digest, referenceCount (data.manifests.insert name
        ((data.manifests[name]?.getD ∅).insert entry.digest.toStr entry)) digest +
      (data.manifests[name]?.getD ∅)[entry.digest.toStr]?.elim 0 (ManifestEntry.weight digest) =
        referenceCount data.manifests digest + entry.weight digest := by
    intro digest
    have outer := referenceCount_insert data.manifests name
      ((data.manifests[name]?.getD ∅).insert entry.digest.toStr entry) digest
    have inner := BTreeMap.total_insert (ManifestEntry.weight digest)
      (data.manifests[name]?.getD ∅) entry.digest.toStr entry
    omega
  have distinctNew : ∀ (other : String) repo (digest : String) stored, (data.manifests.insert name
        ((data.manifests[name]?.getD ∅).insert entry.digest.toStr entry))[other]? = some repo →
      repo[digest]? = some stored → stored.blobKeys.Nodup := by
    intro other repo digest stored repoFound entryFound
    rw [BTreeMap.getElem?_insert] at repoFound
    split at repoFound
    · cases repoFound
      rw [BTreeMap.getElem?_insert] at entryFound
      split at entryFound
      · cases entryFound
        exact distinct
      · exact distinctOld digest stored entryFound
    · exact holds.distinct other repo digest stored repoFound entryFound
  unfold StateMachineData.storeEntry
  cases previous : (data.manifests[name]?.getD ∅)[entry.digest.toStr]? with
  | none =>
    simp only [previous]
    refine ⟨distinctNew, positive_incrementBlobRefs holds.positive entry, fun digest => ?_⟩
    have balance := moved digest
    rw [previous, Option.elim_none, Nat.add_zero] at balance
    rw [count_incrementBlobRefs _ distinct]
    exact (congrArg (· + entry.weight digest) (holds.counted digest)).trans balance.symm
  | some old =>
    simp only [previous]
    have oldDistinct := distinctOld _ old previous
    refine ⟨distinctNew, positive_incrementBlobRefs
      (positive_decrementBlobRefs holds.positive old) entry, fun digest => ?_⟩
    have balance := moved digest
    have inside := BTreeMap.total_erase (ManifestEntry.weight digest)
      (data.manifests[name]?.getD ∅) entry.digest.toStr
    have outside := referenceCount_erase data.manifests name digest
    have counted := holds.counted digest
    rw [previous, Option.elim_some] at balance inside
    rw [count_incrementBlobRefs _ distinct, count_decrementBlobRefs _ oldDistinct]
    simp only [StateMachineData.incrementBlobRefs, StateMachineData.decrementBlobRefs]
    omega

/-! ### Removing entries -/

/-- The counts stay exact when a repository's entries are replaced by some of them and the
others' references are released. -/
theorem BlobRefsExact.release {data : StateMachineData} (holds : BlobRefsExact data)
    {name : String} {repo : BTreeMap String ManifestEntry} (kept : BTreeMap String ManifestEntry)
    {removed : List ManifestEntry} (found : data.manifests[name]? = some repo)
    (keptFrom : ∀ (digest : String) entry, kept[digest]? = some entry → repo[digest]? = some entry)
    (removedFrom : ∀ entry ∈ removed, ∃ digest : String, repo[digest]? = some entry)
    (balanced : ∀ digest, BTreeMap.total (ManifestEntry.weight digest) kept +
      (removed.map (·.weight digest)).sum = BTreeMap.total (ManifestEntry.weight digest) repo)
    (manifests : BTreeMap String (BTreeMap String ManifestEntry))
    (placed : manifests = data.manifests.insert name kept ∨
      (manifests = data.manifests.erase name ∧ kept = ∅)) :
    BlobRefsExact (removed.foldl StateMachineData.decrementBlobRefs
      { data with manifests := manifests }) := by
  have distinctRemoved : ∀ entry ∈ removed, entry.blobKeys.Nodup := by
    intro entry member
    obtain ⟨digest, entryFound⟩ := removedFrom entry member
    exact holds.distinct name repo digest entry found entryFound
  have lookup : ∀ (other : String) otherRepo, manifests[other]? = some otherRepo →
      data.manifests[other]? = some otherRepo ∨ otherRepo = kept := by
    intro other otherRepo present
    rcases placed with rfl | ⟨rfl, _⟩
    · rw [BTreeMap.getElem?_insert] at present
      split at present
      · exact Or.inr (Option.some.inj present).symm
      · exact Or.inl present
    · rw [BTreeMap.getElem?_erase] at present
      split at present
      · cases present
      · exact Or.inl present
  have moved : ∀ digest, referenceCount manifests digest + (removed.map (·.weight digest)).sum =
      referenceCount data.manifests digest := by
    intro digest
    have balance := balanced digest
    rcases placed with rfl | ⟨rfl, rfl⟩
    · have replaced := referenceCount_insert data.manifests name kept digest
      rw [found, Option.getD_some] at replaced
      omega
    · have erased := referenceCount_erase data.manifests name digest
      rw [found, Option.getD_some] at erased
      rw [BTreeMap.total_empty] at balance
      omega
  obtain ⟨stillPositive, counted⟩ := foldl_decrementBlobRefs removed
    { data with manifests := manifests } distinctRemoved holds.positive
  have sameManifests := (foldl_decrementBlobRefs_frame removed
    { data with manifests := manifests }).2.2
  refine ⟨?_, stillPositive, fun digest => ?_⟩
  · rw [sameManifests]
    intro other otherRepo digest entry repoFound entryFound
    rcases lookup other otherRepo repoFound with unchanged | rfl
    · exact holds.distinct other otherRepo digest entry unchanged entryFound
    · exact holds.distinct name repo digest entry found (keptFrom digest entry entryFound)
  · rw [counted, sameManifests]
    have before := holds.counted digest
    have balance := moved digest
    simp only at before ⊢
    omega

/-- The removal is a loop that takes out the entry of each digest, where there is one. -/
theorem removeAll_eq_foldl :
    ∃ remove : BTreeMap String ManifestEntry × List ManifestEntry → String →
        BTreeMap String ManifestEntry × List ManifestEntry,
      (∀ digests repo, removeAll digests repo = digests.foldl remove (repo, [])) ∧
      (∀ left removed digest, left[digest]? = none →
        remove (left, removed) digest = (left, removed)) ∧
      ∀ left removed digest entry, left[digest]? = some entry →
        remove (left, removed) digest = (left.erase digest, removed ++ [entry]) := by
  refine ⟨_, fun _ _ => rfl, ?_, ?_⟩
  · intro left removed digest absent
    simp only [absent]
  · intro left removed digest entry found
    simp only [found]

/-- What the removal loop keeps and removes: together they are the repository. -/
theorem removeAll_spec (digests : List String) (repo : BTreeMap String ManifestEntry) :
    (∀ (digest : String) entry, (removeAll digests repo).1[digest]? = some entry →
        repo[digest]? = some entry) ∧
      (∀ entry ∈ (removeAll digests repo).2, ∃ digest : String, repo[digest]? = some entry) ∧
      ∀ weight : ManifestEntry → Nat, BTreeMap.total weight (removeAll digests repo).1 +
        ((removeAll digests repo).2.map weight).sum = BTreeMap.total weight repo := by
  obtain ⟨remove, loop, absent, taken⟩ := removeAll_eq_foldl
  rw [loop]
  -- the loop has already removed `removed`, which together with what is left makes the repository
  suffices general : ∀ (left : BTreeMap String ManifestEntry) (removed : List ManifestEntry),
      (∀ (digest : String) entry, left[digest]? = some entry → repo[digest]? = some entry) →
      (∀ entry ∈ removed, ∃ digest : String, repo[digest]? = some entry) →
      (∀ weight : ManifestEntry → Nat, BTreeMap.total weight left + (removed.map weight).sum =
        BTreeMap.total weight repo) →
      let final := digests.foldl remove (left, removed)
      (∀ (digest : String) entry, final.1[digest]? = some entry → repo[digest]? = some entry) ∧
        (∀ entry ∈ final.2, ∃ digest : String, repo[digest]? = some entry) ∧
        ∀ weight : ManifestEntry → Nat, BTreeMap.total weight final.1 +
          (final.2.map weight).sum = BTreeMap.total weight repo from
    general repo [] (fun _ _ same => same) (fun _ member => absurd member List.not_mem_nil)
      (fun _ => rfl)
  induction digests with
  | nil => exact fun left removed keptFrom removedFrom balanced =>
      ⟨keptFrom, removedFrom, balanced⟩
  | cons digest rest inductionHypothesis =>
    intro left removed keptFrom removedFrom balanced
    rw [List.foldl_cons]
    cases found : left[digest]? with
    | none =>
      rw [absent left removed digest found]
      exact inductionHypothesis left removed keptFrom removedFrom balanced
    | some entry =>
      rw [taken left removed digest entry found]
      refine inductionHypothesis (left.erase digest) (removed ++ [entry]) ?_ ?_ ?_
      · intro other otherEntry otherFound
        rw [BTreeMap.getElem?_erase] at otherFound
        split at otherFound
        · cases otherFound
        · exact keptFrom other otherEntry otherFound
      · intro other member
        rcases List.mem_append.mp member with earlier | last
        · exact removedFrom other earlier
        · rw [List.mem_singleton.mp last]
          exact ⟨digest, keptFrom digest entry found⟩
      · intro weight
        have erased := BTreeMap.total_erase weight left digest
        have balance := balanced weight
        rw [found, Option.elim_some] at erased
        rw [List.map_append, List.sum_append, List.map_singleton, List.sum_singleton]
        omega

theorem BlobRefsExact.removeEntry {data : StateMachineData} (holds : BlobRefsExact data)
    (name digest : String) : BlobRefsExact (data.removeEntry name digest) := by
  unfold StateMachineData.removeEntry
  cases found : data.manifests[name]? with
  | none => exact holds
  | some repo =>
    obtain ⟨keptFrom, removedFrom, balanced⟩ := removeAll_spec [digest] repo
    have released := holds.release _ found keptFrom removedFrom (fun key => balanced _) _ (.inl rfl)
    cases entryFound : repo[digest]? with
    | none =>
      have unchanged : repo.erase digest = repo := BTreeMap.ext_getElem? fun other => by
        rw [BTreeMap.getElem?_erase]
        split
        · rename_i same
          rw [← same, entryFound]
        · rfl
      simp only [removeAll, List.foldl_cons, List.foldl_nil, entryFound] at released
      simp only [unchanged, entryFound]
      exact released
    | some entry =>
      simp only [removeAll, List.foldl_cons, List.foldl_nil, entryFound, List.nil_append]
        at released
      simp only [entryFound]
      exact released

theorem BlobRefsExact.removeEntries {data : StateMachineData} (holds : BlobRefsExact data)
    (name : String) (digests : List String) : BlobRefsExact (data.removeEntries name digests) := by
  unfold StateMachineData.removeEntries
  cases found : data.manifests[name]? with
  | none => exact holds
  | some repo =>
    obtain ⟨keptFrom, removedFrom, balanced⟩ := removeAll_spec digests repo
    exact holds.release _ found keptFrom removedFrom (fun key => balanced _) _ (.inl rfl)

theorem BlobRefsExact.removeManifests {data : StateMachineData} (holds : BlobRefsExact data)
    (name : String) : BlobRefsExact (data.removeManifests name) := by
  unfold StateMachineData.removeManifests
  cases found : data.manifests[name]? with
  | none => exact holds
  | some repo =>
    refine holds.release ∅ found ?_ ?_ ?_ _ (.inr ⟨rfl, rfl⟩)
    · intro digest entry impossible
      rw [BTreeMap.getElem?_empty] at impossible
      cases impossible
    · intro entry member
      obtain ⟨pair, pairMember, rfl⟩ := List.mem_map.mp member
      exact ⟨pair.1, (BTreeMap.mem_toList repo pair.1 pair.2).mp pairMember⟩
    · intro digest
      rw [BTreeMap.total_empty, Nat.zero_add, BTreeMap.total, List.map_map]
      rfl

/-! ### Every manifest request -/

/-- Exactness only speaks about the manifests and the counts. -/
theorem BlobRefsExact.of_same {data other : StateMachineData} (holds : BlobRefsExact data)
    (same : other.manifests = data.manifests ∧ other.blobRefCounts = data.blobRefCounts) :
    BlobRefsExact other := by
  obtain ⟨sameManifests, sameCounts⟩ := same
  constructor
  · rw [sameManifests]
    exact holds.distinct
  · rw [sameCounts]
    exact holds.positive
  · rw [sameManifests, sameCounts]
    exact holds.counted

theorem BlobRefsExact.applyManifest {data : StateMachineData} (holds : BlobRefsExact data)
    (externals : Externals) (request : ManifestRequest) :
    BlobRefsExact (applyManifest externals data request).1 := by
  cases request with
  | putManifest put =>
    refine afterCheck_fst BlobRefsExact holds fun _ => ?_
    split
    · exact holds
    · have distinct : (put.entry externals).blobKeys.Nodup := nodup_sortDedupDigests _
      have stored := holds.storeEntry put.name distinct
      simp only
      split
      · exact stored
      · exact stored.of_same ⟨rfl, rfl⟩
  | deleteManifest name expected digest =>
    refine afterCheck_fst BlobRefsExact holds fun _ => ?_
    exact (holds.removeEntry name digest).of_same (dropTags_frame _ _ _).2
  | deleteTag name expected digest tag =>
    refine afterCheck_fst BlobRefsExact holds fun _ => ?_
    cases data.tags[name]? with
    | none => exact holds
    | some repoTags =>
      simp only
      split
      · exact holds.of_same ⟨rfl, rfl⟩
      · exact holds
  | deleteRepository name expected =>
    refine afterCheck_fst BlobRefsExact holds fun _ => ?_
    exact (holds.removeManifests name).of_same ⟨rfl, rfl⟩
  | deleteManifests name expected digests =>
    refine afterCheck_fst BlobRefsExact holds fun _ => ?_
    exact (holds.removeEntries name _).of_same (dropTags_frame _ _ _).2
  | mountBlob sourceRepo destRepo expected digest =>
    exact afterCheck_fst BlobRefsExact holds fun _ => holds
  | recordBlobDelete digest requestedAt => exact holds.of_same ⟨rfl, rfl⟩
  | clearBlobDelete digest => exact holds.of_same ⟨rfl, rfl⟩

/-- Every request keeps the counts exact. -/
theorem BlobRefsExact.applyRequest {externals : Externals} {now : Nat}
    {data next : StateMachineData} {request : Request} {response : Response}
    (holds : BlobRefsExact data)
    (applied : Layerhouse.applyRequest externals now data request = .ok (next, response)) :
    BlobRefsExact next := by
  refine applyRequest_invariant BlobRefsExact applied ?_
    (fun inner _ => holds.applyManifest externals inner) ?_ ?_
  · intro other same
    exact holds.of_same ⟨congrArg Registry.manifests same, congrArg Registry.blobRefCounts same⟩
  · intro inner
    cases inner with
    | putRepository repository expected =>
      exact afterCheck_fst BlobRefsExact holds fun _ => holds.of_same ⟨rfl, rfl⟩
    | deleteRepository name expected =>
      exact afterCheck_fst BlobRefsExact holds fun _ => holds.of_same ⟨rfl, rfl⟩
  · intro inner after answer outcome
    rw [(applyNamespace_effect outcome).1]
    exact holds.of_same ⟨rfl, rfl⟩

/-! ### All entries -/

/-- Every stored entry has the property. -/
def AllEntries (holds : ManifestEntry → Prop) (data : StateMachineData) : Prop :=
  ∀ (name : String) repo (digest : String) entry, data.manifests[name]? = some repo →
    repo[digest]? = some entry → holds entry

theorem AllEntries.of_manifests {holds : ManifestEntry → Prop} {data other : StateMachineData}
    (all : AllEntries holds data) (same : other.manifests = data.manifests) :
    AllEntries holds other := by
  unfold AllEntries
  rw [same]
  exact all

theorem AllEntries.insert {holds : ManifestEntry → Prop} {data other : StateMachineData}
    (all : AllEntries holds data) {name : String} {kept : BTreeMap String ManifestEntry}
    (placed : other.manifests = data.manifests.insert name kept)
    (each : ∀ (digest : String) entry, kept[digest]? = some entry → holds entry) :
    AllEntries holds other := by
  intro otherName repo digest entry repoFound entryFound
  rw [placed, BTreeMap.getElem?_insert] at repoFound
  split at repoFound
  · cases repoFound
    exact each digest entry entryFound
  · exact all otherName repo digest entry repoFound entryFound

theorem AllEntries.removeEntries {holds : ManifestEntry → Prop} {data : StateMachineData}
    (all : AllEntries holds data) (name : String) (digests : List String) :
    AllEntries holds (data.removeEntries name digests) := by
  unfold StateMachineData.removeEntries
  cases found : data.manifests[name]? with
  | none => exact all
  | some repo =>
    refine all.insert (foldl_decrementBlobRefs_frame _ _).2.2 fun digest entry entryFound => ?_
    exact all name repo digest entry found ((removeAll_spec digests repo).1 digest entry entryFound)

theorem AllEntries.removeEntry {holds : ManifestEntry → Prop} {data : StateMachineData}
    (all : AllEntries holds data) (name digest : String) :
    AllEntries holds (data.removeEntry name digest) := by
  unfold StateMachineData.removeEntry
  cases found : data.manifests[name]? with
  | none => exact all
  | some repo =>
    have kept : ∀ (other : String) entry, (repo.erase digest)[other]? = some entry →
        holds entry := by
      intro other entry entryFound
      rw [BTreeMap.getElem?_erase] at entryFound
      split at entryFound
      · cases entryFound
      · exact all name repo other entry found entryFound
    simp only
    split
    · exact all.insert rfl kept
    · exact all.insert rfl kept

theorem AllEntries.removeManifests {holds : ManifestEntry → Prop} {data : StateMachineData}
    (all : AllEntries holds data) (name : String) :
    AllEntries holds (data.removeManifests name) := by
  unfold StateMachineData.removeManifests
  cases found : data.manifests[name]? with
  | none => exact all
  | some repo =>
    intro other otherRepo digest entry repoFound entryFound
    rw [(foldl_decrementBlobRefs_frame _ _).2.2, BTreeMap.getElem?_erase] at repoFound
    split at repoFound
    · cases repoFound
    · exact all other otherRepo digest entry repoFound entryFound

theorem AllEntries.storeEntry {holds : ManifestEntry → Prop} {data : StateMachineData}
    (all : AllEntries holds data) (name : String) {entry : ManifestEntry} (new : holds entry) :
    AllEntries holds (data.storeEntry name entry) := by
  refine all.insert (storeEntry_frame data name entry).2.2 fun digest other entryFound => ?_
  rw [BTreeMap.getElem?_insert] at entryFound
  split at entryFound
  · cases entryFound
    exact new
  · cases lookup : data.manifests[name]? with
    | none =>
      rw [lookup, Option.getD_none, BTreeMap.getElem?_empty] at entryFound
      cases entryFound
    | some repo =>
      rw [lookup, Option.getD_some] at entryFound
      exact all name repo digest other lookup entryFound

theorem AllEntries.applyManifest {holds : ManifestEntry → Prop} {data : StateMachineData}
    (all : AllEntries holds data) (externals : Externals) (request : ManifestRequest)
    (pushed : ∀ put, request = .putManifest put → holds (put.entry externals)) :
    AllEntries holds (applyManifest externals data request).1 := by
  cases request with
  | putManifest put =>
    refine afterCheck_fst (AllEntries holds) all fun _ => ?_
    split
    · exact all
    · have stored := all.storeEntry put.name (pushed put rfl)
      simp only
      split
      · exact stored
      · exact stored.of_manifests rfl
  | deleteManifest name expected digest =>
    refine afterCheck_fst (AllEntries holds) all fun _ => ?_
    exact (all.removeEntry name digest).of_manifests (dropTags_frame _ _ _).2.1
  | deleteTag name expected digest tag =>
    refine afterCheck_fst (AllEntries holds) all fun _ => ?_
    cases data.tags[name]? with
    | none => exact all
    | some repoTags =>
      simp only
      split
      · exact all.of_manifests rfl
      · exact all
  | deleteRepository name expected =>
    refine afterCheck_fst (AllEntries holds) all fun _ => ?_
    exact (all.removeManifests name).of_manifests rfl
  | deleteManifests name expected digests =>
    refine afterCheck_fst (AllEntries holds) all fun _ => ?_
    exact (all.removeEntries name _).of_manifests (dropTags_frame _ _ _).2.1
  | mountBlob sourceRepo destRepo expected digest =>
    exact afterCheck_fst (AllEntries holds) all fun _ => all
  | recordBlobDelete digest requestedAt => exact all.of_manifests rfl
  | clearBlobDelete digest => exact all.of_manifests rfl

/-- A property of all entries holds after a request when it holds of the entry that the request
pushes, if it pushes one. -/
theorem AllEntries.applyRequest {holds : ManifestEntry → Prop} {externals : Externals} {now : Nat}
    {data next : StateMachineData} {request : Request} {response : Response}
    (all : AllEntries holds data)
    (applied : Layerhouse.applyRequest externals now data request = .ok (next, response))
    (pushed : ∀ put, request = .manifest (.putManifest put) → holds (put.entry externals)) :
    AllEntries holds next := by
  refine applyRequest_invariant (AllEntries holds) applied ?_ ?_ ?_ ?_
  · exact fun other same => all.of_manifests (congrArg Registry.manifests same)
  · intro inner isManifest
    exact all.applyManifest externals inner fun put isPut => pushed put (isPut ▸ isManifest)
  · intro inner
    cases inner with
    | putRepository repository expected =>
      exact afterCheck_fst (AllEntries holds) all fun _ => all.of_manifests rfl
    | deleteRepository name expected =>
      exact afterCheck_fst (AllEntries holds) all fun _ => all.of_manifests rfl
  · intro inner after answer outcome
    rw [(applyNamespace_effect outcome).1]
    exact all.of_manifests rfl

/-! ### Rebuilding the counts -/

/-- Counting the references of a list of entries adds each entry's weight. -/
theorem foldl_countEntries (entries : List (String × ManifestEntry)) (counts : BTreeMap String Nat)
    (distinct : ∀ entry ∈ entries, entry.2.blobKeys.Nodup)
    (positive : BTreeMap.Positive counts) :
    BTreeMap.Positive (entries.foldl (fun counts entry =>
        entry.2.blobKeys.foldl BTreeMap.increment counts) counts) ∧
      ∀ digest, BTreeMap.count (entries.foldl (fun counts entry =>
          entry.2.blobKeys.foldl BTreeMap.increment counts) counts) digest =
        BTreeMap.count counts digest + (entries.map fun entry => entry.2.weight digest).sum := by
  induction entries generalizing counts with
  | nil => exact ⟨positive, fun _ => rfl⟩
  | cons entry rest inductionHypothesis =>
    obtain ⟨stillPositive, counted⟩ := inductionHypothesis
      (entry.2.blobKeys.foldl BTreeMap.increment counts)
      (fun other member => distinct other (.tail _ member))
      (BTreeMap.positive_foldl (fun _ key kept => BTreeMap.positive_increment kept key) _ positive)
    refine ⟨stillPositive, fun digest => ?_⟩
    rw [List.foldl_cons, counted, BTreeMap.count_foldl_increment,
      count_blobKeys (distinct entry (.head _)), List.map_cons, List.sum_cons]
    omega

/-- Rebuilding gives exact counts, whatever they were before. -/
theorem blobRefsExact_rebuild (data : StateMachineData)
    (distinct : ∀ (name : String) repo (digest : String) entry, data.manifests[name]? = some repo →
      repo[digest]? = some entry → entry.blobKeys.Nodup) :
    BlobRefsExact data.rebuildBlobRefCounts := by
  have counting : ∀ (repos : List (String × BTreeMap String ManifestEntry))
      (counts : BTreeMap String Nat),
      (∀ repo ∈ repos, ∀ entry ∈ repo.2.toList, entry.2.blobKeys.Nodup) →
      BTreeMap.Positive counts →
      BTreeMap.Positive (repos.foldl (fun counts repo =>
        repo.2.toList.foldl (fun counts entry =>
          entry.2.blobKeys.foldl BTreeMap.increment counts) counts) counts) ∧
      ∀ digest, BTreeMap.count (repos.foldl (fun counts repo =>
          repo.2.toList.foldl (fun counts entry =>
            entry.2.blobKeys.foldl BTreeMap.increment counts) counts) counts) digest =
        BTreeMap.count counts digest +
          (repos.map fun repo => BTreeMap.total (ManifestEntry.weight digest) repo.2).sum := by
    intro repos
    induction repos with
    | nil => exact fun counts _ positive => ⟨positive, fun _ => rfl⟩
    | cons repo rest inductionHypothesis =>
      intro counts distinctIn positive
      obtain ⟨innerPositive, innerCounted⟩ := foldl_countEntries repo.2.toList counts
        (distinctIn repo (.head _)) positive
      obtain ⟨stillPositive, counted⟩ := inductionHypothesis _
        (fun other member => distinctIn other (.tail _ member)) innerPositive
      refine ⟨stillPositive, fun digest => ?_⟩
      rw [List.foldl_cons, counted, innerCounted, List.map_cons, List.sum_cons]
      exact Nat.add_assoc _ _ _
  have distinctIn : ∀ repo ∈ data.manifests.toList, ∀ entry ∈ repo.2.toList,
      entry.2.blobKeys.Nodup := by
    intro repo repoMember entry entryMember
    exact distinct repo.1 repo.2 entry.1 entry.2 ((BTreeMap.mem_toList _ _ _).mp repoMember)
      ((BTreeMap.mem_toList _ _ _).mp entryMember)
  obtain ⟨positive, counted⟩ := counting data.manifests.toList ∅ distinctIn
    BTreeMap.positive_empty
  refine ⟨distinct, positive, fun digest => (counted digest).trans ?_⟩
  exact Nat.zero_add _

/-- Exact counts are what rebuilding them gives. -/
theorem BlobRefsExact.rebuild_eq {data : StateMachineData} (holds : BlobRefsExact data) :
    data.rebuildBlobRefCounts = data := by
  have rebuilt := blobRefsExact_rebuild data holds.distinct
  have sameCounts : data.rebuildBlobRefCounts.blobRefCounts = data.blobRefCounts := by
    refine BTreeMap.eq_of_count_eq rebuilt.positive holds.positive fun digest => ?_
    rw [rebuilt.counted, holds.counted]
    rfl
  calc data.rebuildBlobRefCounts
      = { data with blobRefCounts := data.rebuildBlobRefCounts.blobRefCounts } := rfl
    _ = data := by rw [sameCounts]

/-! ### Every run -/

/-- A restored snapshot has exact counts, whatever its bytes decode to. -/
theorem blobRefsExact_normalize (externals : Externals) (now : Nat) (data : StateMachineData) :
    BlobRefsExact (data.normalizeRestoredMetadata externals now) := by
  refine blobRefsExact_rebuild _ fun name repo digest entry repoFound entryFound => ?_
  simp only [BTreeMap.getElem?_filterMap] at repoFound
  obtain ⟨restored, _, repoEq⟩ := Option.bind_eq_some_iff.mp repoFound
  cases repoEq
  rw [BTreeMap.getElem?_filterMap] at entryFound
  obtain ⟨original, _, entryEq⟩ := Option.bind_eq_some_iff.mp entryFound
  cases entryEq
  exact nodup_sortDedupDigests _

theorem machineStep_blobRefsExact {externals : Externals} {codec : SnapshotCodec}
    {machine next : StateMachine} {label : MachineLabel}
    (stepped : machineStep externals codec machine label = some next)
    (holds : BlobRefsExact machine.data) : BlobRefsExact next.data := by
  cases label with
  | apply now request =>
    rw [machineStep] at stepped
    cases outcome : applyRequest externals now machine.data request with
    | error panic =>
      rw [outcome] at stepped
      cases stepped
    | ok result =>
      rw [outcome] at stepped
      cases stepped
      exact holds.applyRequest outcome
  | install now header bytes =>
    rw [machineStep, installSnapshot] at stepped
    cases decoded : decodeSnapshot codec bytes with
    | error error =>
      rw [decoded] at stepped
      cases stepped
      exact holds
    | ok restored =>
      rw [decoded] at stepped
      cases stepped
      exact (blobRefsExact_normalize externals now restored).of_same ⟨rfl, rfl⟩

/-- In every state reached from the empty one by applied requests and installed snapshots, the
count stored for a digest is the number of entries that refer to it, a digest nothing refers to
is not stored, and rebuilding the counts changes nothing. -/
theorem blobRefCounts_eq_referenceCount (externals : Externals) (codec : SnapshotCodec)
    {labels : List MachineLabel} {machine : StateMachine}
    (reached : run (machineStep externals codec) ⟨StateMachineData.empty, none⟩ labels =
      some machine) :
    (∀ digest : String, machine.data.blobRefCounts[digest]? =
      if referenceCount machine.data.manifests digest = 0 then none
      else some (referenceCount machine.data.manifests digest)) ∧
    machine.data.rebuildBlobRefCounts = machine.data := by
  have holds : BlobRefsExact machine.data :=
    run_invariant (fun state : StateMachine => BlobRefsExact state.data)
      (fun _ _ _ stepped holds => machineStep_blobRefsExact stepped holds) reached
      blobRefsExact_empty
  refine ⟨fun digest => ?_, holds.rebuild_eq⟩
  rw [BTreeMap.getElem?_of_positive holds.positive, holds.counted]

def sampleCodec : SnapshotCodec where
  toVec := fun _ => []
  fromSlice := fun _ => none
  displayLeaderId := fun _ => ""

/-- The push is applied, and then a snapshot without a version is refused. -/
def sampleLabels : List MachineLabel :=
  [.apply 0 (.manifest (.putManifest
      (samplePush "users/alice/app" none (sampleDigest 'a') (sampleDigest 'b')))),
    .install 0 ⟨none, ⟨none, ⟨[], ∅⟩⟩, "empty"⟩ []]

theorem blobRefCounts_after_samplePush :
    ∃ machine, run (machineStep sampleExternals sampleCodec) ⟨StateMachineData.empty, none⟩
        sampleLabels = some machine ∧
      machine.data.blobRefCounts[sampleDigest 'b']? = some 1 ∧
      (∀ digest : String, machine.data.blobRefCounts[digest]? =
        if referenceCount machine.data.manifests digest = 0 then none
        else some (referenceCount machine.data.manifests digest)) ∧
      machine.data.rebuildBlobRefCounts = machine.data := by
  have reached : run (machineStep sampleExternals sampleCodec) ⟨StateMachineData.empty, none⟩
      sampleLabels = some _ := rfl
  exact ⟨_, reached, by decide, blobRefCounts_eq_referenceCount _ _ reached⟩

end Layerhouse
