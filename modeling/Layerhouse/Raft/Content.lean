/-
This file proves that no content is orphaned or inherited: in every reachable
state each repository that holds manifests, tags or a repository object lies
under a handle that is reserved or live, so a handle that has just been claimed
holds nothing.

Content enters under a name that passed the namespace check, whose handle is the
text before the first slash. A handle is released only when the prefix scan finds
nothing under it, and the scan sees every name with that handle.
-/

import Layerhouse.Raft.Epochs

namespace Layerhouse

/-- The text before the first slash is determined by the whole. -/
theorem handle_unique {first second firstRest secondRest : String}
    (same : first ++ "/" ++ firstRest = second ++ "/" ++ secondRest)
    (firstSlashless : '/' ∉ first.toList) (secondSlashless : '/' ∉ second.toList) :
    first = second := by
  have firstSplit : Text.splitOnce '/' (first ++ "/" ++ firstRest).toList =
      some (first.toList, firstRest.toList) :=
    Text.splitOnce_eq_some.mpr ⟨by simp, firstSlashless⟩
  have secondSplit : Text.splitOnce '/' (second ++ "/" ++ secondRest).toList =
      some (second.toList, secondRest.toList) :=
    Text.splitOnce_eq_some.mpr ⟨by simp, secondSlashless⟩
  rw [same, secondSplit, Option.some.injEq, Prod.mk.injEq] at firstSplit
  exact String.toList_inj.mp firstSplit.1.symm

/-! ### The prefix scan -/

theorem anyKeyWithPrefix_eq_true {Value : Type} {map : BTreeMap String Value} {lead : String} :
    anyKeyWithPrefix map lead = true ↔ ∃ key rest, key ∈ map ∧ key = lead ++ rest := by
  rw [anyKeyWithPrefix, List.any_eq_true]
  constructor
  · rintro ⟨key, member, found⟩
    obtain ⟨rest, stripped⟩ := Option.isSome_iff_exists.mp found
    refine ⟨key, String.ofList rest, Std.ExtTreeMap.mem_keys.mp member, ?_⟩
    rw [← String.toList_inj, Text.stripPrefix_eq_some.mp stripped]
    simp
  · rintro ⟨key, rest, member, rfl⟩
    refine ⟨_, Std.ExtTreeMap.mem_keys.mpr member, Option.isSome_iff_exists.mpr ⟨rest.toList, ?_⟩⟩
    refine Text.stripPrefix_eq_some.mpr ?_
    simp

/-- Some content is stored under this name: a manifest map, a tag map or a repository
object. -/
def StateMachineData.Holds (data : StateMachineData) (name : String) : Prop :=
  name ∈ data.manifests ∨ name ∈ data.tags ∨ name ∈ data.repositories

theorem hasContent_eq_true {data : StateMachineData} {handle : String} :
    data.hasContent handle = true ↔ ∃ rest, data.Holds (handle ++ "/" ++ rest) := by
  rw [StateMachineData.hasContent, Bool.or_eq_true, Bool.or_eq_true, anyKeyWithPrefix_eq_true,
    anyKeyWithPrefix_eq_true, anyKeyWithPrefix_eq_true]
  constructor
  · rintro ((⟨key, rest, member, rfl⟩ | ⟨key, rest, member, rfl⟩) | ⟨key, rest, member, rfl⟩)
    · exact ⟨rest, .inl member⟩
    · exact ⟨rest, .inr (.inl member)⟩
    · exact ⟨rest, .inr (.inr member)⟩
  · rintro ⟨rest, member | member | member⟩
    · exact .inl (.inl ⟨_, rest, member, rfl⟩)
    · exact .inl (.inr ⟨_, rest, member, rfl⟩)
    · exact .inr ⟨_, rest, member, rfl⟩

/-! ### Owned names -/

/-- The name's handle is reserved or live. -/
def StateMachineData.Owns (data : StateMachineData) (name : String) : Prop :=
  ∃ handle, handleOf name = .ok handle ∧
    (isHandleReserved handle = true ∨ handle ∈ data.namespaces)

/-- A name that passes the namespace check is owned. -/
theorem owns_of_check {data : StateMachineData} {name : String}
    {expected : Option NamespaceEpoch}
    (passed : requireExpectedNamespace data name expected = .ok ()) : data.Owns name := by
  rw [requireExpectedNamespace] at passed
  cases target : handleOf name with
  | error error =>
    rw [target] at passed
    cases passed
  | ok handle =>
    rw [target] at passed
    simp only at passed
    refine ⟨handle, target, ?_⟩
    split at passed
    · rename_i reserved
      exact Or.inl reserved
    · cases expected with
      | none => cases passed
      | some expected =>
        simp only at passed
        split at passed
        · cases passed
        · cases found : data.namespaces[handle]? with
          | none =>
            rw [found] at passed
            cases passed
          | some current => exact Or.inr ((BTreeMap.mem_iff _ _).mpr ⟨current, found⟩)

/-- All stored content is owned. -/
def OwnedContent (data : StateMachineData) : Prop :=
  ∀ name, data.Holds name → data.Owns name

/-! ### Where names enter -/

theorem mem_insert_self_or {Value : Type} {map : BTreeMap String Value} {key other : String}
    {value : Value} (member : other ∈ map.insert key value) : other = key ∨ other ∈ map := by
  obtain ⟨found, lookup⟩ := (BTreeMap.mem_iff _ _).mp member
  rw [BTreeMap.getElem?_insert] at lookup
  split at lookup
  · rename_i same
    exact Or.inl same.symm
  · exact Or.inr ((BTreeMap.mem_iff _ _).mpr ⟨found, lookup⟩)

theorem mem_of_mem_erase {Value : Type} {map : BTreeMap String Value} {key other : String}
    (member : other ∈ map.erase key) : other ∈ map := by
  obtain ⟨found, lookup⟩ := (BTreeMap.mem_iff _ _).mp member
  rw [BTreeMap.getElem?_erase] at lookup
  split at lookup
  · cases lookup
  · exact (BTreeMap.mem_iff _ _).mpr ⟨found, lookup⟩

/-- Replacing the value of a key that is there adds no key. -/
theorem mem_of_mem_insert_present {Value : Type} {map : BTreeMap String Value}
    {key other : String} {value present : Value} (found : map[key]? = some present)
    (member : other ∈ map.insert key value) : other ∈ map := by
  rcases mem_insert_self_or member with rfl | there
  · exact (BTreeMap.mem_iff _ _).mpr ⟨present, found⟩
  · exact there

theorem removeEntry_keys (data : StateMachineData) (name digest : String) :
    (∀ other, other ∈ (data.removeEntry name digest).manifests → other ∈ data.manifests) ∧
      (data.removeEntry name digest).tags = data.tags := by
  unfold StateMachineData.removeEntry
  cases found : data.manifests[name]? with
  | none => exact ⟨fun _ => id, rfl⟩
  | some repo =>
    simp only
    cases repo[digest]? with
    | none => exact ⟨fun _ => mem_of_mem_insert_present found, rfl⟩
    | some entry => exact ⟨fun _ => mem_of_mem_insert_present found, rfl⟩

theorem removeEntries_keys (data : StateMachineData) (name : String) (digests : List String) :
    (∀ other, other ∈ (data.removeEntries name digests).manifests → other ∈ data.manifests) ∧
      (data.removeEntries name digests).tags = data.tags := by
  unfold StateMachineData.removeEntries
  cases found : data.manifests[name]? with
  | none => exact ⟨fun _ => id, rfl⟩
  | some repo =>
    simp only [(foldl_decrementBlobRefs_frame _ _).2]
    exact ⟨fun _ => mem_of_mem_insert_present found, trivial⟩

theorem removeManifests_keys (data : StateMachineData) (name : String) :
    (∀ other, other ∈ (data.removeManifests name).manifests → other ∈ data.manifests) ∧
      (data.removeManifests name).tags = data.tags := by
  unfold StateMachineData.removeManifests
  cases data.manifests[name]? with
  | none => exact ⟨fun _ => id, rfl⟩
  | some repo =>
    simp only [(foldl_decrementBlobRefs_frame _ _).2]
    exact ⟨fun _ => mem_of_mem_erase, trivial⟩

theorem dropTags_keys {data : StateMachineData} {name other : String} {hit : String → Bool}
    (member : other ∈ (data.dropTags name hit).tags) : other ∈ data.tags := by
  unfold StateMachineData.dropTags at member
  cases found : data.tags[name]? with
  | none =>
    rw [found] at member
    exact member
  | some repoTags =>
    rw [found] at member
    exact mem_of_mem_insert_present found member

/-- Every name of `next` with manifests or tags is one of `data` or is owned. -/
def KeysFrom (data next : StateMachineData) : Prop :=
  ∀ name, (name ∈ next.manifests → name ∈ data.manifests ∨ data.Owns name) ∧
    (name ∈ next.tags → name ∈ data.tags ∨ data.Owns name)

theorem keysFrom_of_subset {data next : StateMachineData}
    (manifests : ∀ name, name ∈ next.manifests → name ∈ data.manifests)
    (tags : ∀ name, name ∈ next.tags → name ∈ data.tags) : KeysFrom data next :=
  fun name =>
    ⟨fun member => Or.inl (manifests name member), fun member => Or.inl (tags name member)⟩

theorem applyManifest_keysFrom (externals : Externals) (data : StateMachineData)
    (request : ManifestRequest) : KeysFrom data (applyManifest externals data request).1 := by
  have unchanged : KeysFrom data data := keysFrom_of_subset (fun _ => id) (fun _ => id)
  cases request with
  | putManifest put =>
    refine afterCheck_fst (KeysFrom data) unchanged fun passed => ?_
    have owned : ∀ name, name = put.name → data.Owns name := by
      rintro name rfl
      exact owns_of_check passed
    split
    · exact unchanged
    · obtain ⟨_, sameTags, manifestsEq⟩ := storeEntry_frame data put.name (put.entry externals)
      intro name
      have stored : name ∈ (data.storeEntry put.name (put.entry externals)).manifests →
          name ∈ data.manifests ∨ data.Owns name := by
        rw [manifestsEq]
        intro member
        exact (mem_insert_self_or member).symm.imp_right (owned name)
      simp only
      split
      · rw [sameTags]
        exact ⟨stored, Or.inl⟩
      · refine ⟨stored, fun member => ?_⟩
        have inserted := mem_insert_self_or member
        rw [sameTags] at inserted
        exact inserted.symm.imp_right (owned name)
  | deleteManifest name expected digest =>
    refine afterCheck_fst (KeysFrom data) unchanged fun _ => keysFrom_of_subset ?_ ?_
    · intro other member
      rw [(dropTags_frame _ _ _).2.1] at member
      exact (removeEntry_keys data name digest).1 other member
    · intro other member
      have kept := dropTags_keys member
      rwa [(removeEntry_keys data name digest).2] at kept
  | deleteTag name expected digest tag =>
    refine afterCheck_fst (KeysFrom data) unchanged fun _ => ?_
    cases found : data.tags[name]? with
    | none => exact unchanged
    | some repoTags =>
      simp only
      split
      · exact keysFrom_of_subset (fun _ => id) fun _ => mem_of_mem_insert_present found
      · exact unchanged
  | deleteRepository name expected =>
    refine afterCheck_fst (KeysFrom data) unchanged fun _ => keysFrom_of_subset ?_ ?_
    · exact (removeManifests_keys data name).1
    · intro other member
      have kept := mem_of_mem_erase member
      rwa [(removeManifests_keys data name).2] at kept
  | deleteManifests name expected digests =>
    refine afterCheck_fst (KeysFrom data) unchanged fun _ => keysFrom_of_subset ?_ ?_
    · intro other member
      rw [(dropTags_frame _ _ _).2.1] at member
      exact (removeEntries_keys data name _).1 other member
    · intro other member
      have kept := dropTags_keys member
      rwa [(removeEntries_keys data name _).2] at kept
  | mountBlob sourceRepo destRepo expected digest =>
    exact afterCheck_fst (KeysFrom data) unchanged fun _ => unchanged
  | recordBlobDelete digest requestedAt => exact unchanged
  | clearBlobDelete digest => exact unchanged

/-! ### Every request keeps content owned -/

theorem OwnedContent.applyManifest {data : StateMachineData} (holds : OwnedContent data)
    (externals : Externals) (request : ManifestRequest) :
    OwnedContent (applyManifest externals data request).1 := by
  intro name stored
  have owners := applyManifest_owners externals data request
  have sameRepositories : _ = data.repositories := congrArg (·.1) owners
  have sameNamespaces : _ = data.namespaces := congrArg (·.2.1) owners
  obtain ⟨fromManifests, fromTags⟩ := applyManifest_keysFrom externals data request name
  have before : data.Owns name := by
    rcases stored with inManifests | inTags | inRepositories
    · exact (fromManifests inManifests).elim (fun old => holds name (.inl old)) id
    · exact (fromTags inTags).elim (fun old => holds name (.inr (.inl old))) id
    · refine holds name (.inr (.inr ?_))
      rwa [← sameRepositories]
  obtain ⟨handle, target, live⟩ := before
  refine ⟨handle, target, live.imp_right fun member => ?_⟩
  rwa [← sameNamespaces] at member

theorem OwnedContent.applyRepository {data : StateMachineData} (holds : OwnedContent data)
    (request : RepositoryRequest) : OwnedContent (applyRepository data request).1 := by
  cases request with
  | putRepository repository expected =>
    refine afterCheck_fst OwnedContent holds fun passed => ?_
    rintro name (inManifests | inTags | inRepositories)
    · exact holds name (.inl inManifests)
    · exact holds name (.inr (.inl inTags))
    · rcases mem_insert_self_or inRepositories with rfl | there
      · exact owns_of_check passed
      · exact holds name (.inr (.inr there))
  | deleteRepository name expected =>
    refine afterCheck_fst OwnedContent holds fun _ => ?_
    rintro other (inManifests | inTags | inRepositories)
    · exact holds other (.inl inManifests)
    · exact holds other (.inr (.inl inTags))
    · exact holds other (.inr (.inr (mem_of_mem_erase inRepositories)))

theorem OwnedContent.applyNamespace {data next : StateMachineData} (holds : OwnedContent data)
    {request : NamespaceRequest} {answer : Except LayerhouseError NamespaceResponse}
    (applied : Layerhouse.applyNamespace data request = .ok (next, answer)) :
    OwnedContent next := by
  obtain ⟨nextEq, effect⟩ := applyNamespace_effect applied
  intro name stored
  have storedBefore : data.Holds name := by
    rw [nextEq] at stored
    exact stored
  obtain ⟨handle, target, live⟩ := holds name storedBefore
  refine ⟨handle, target, live.imp_right fun member => ?_⟩
  cases effect with
  | kept sameNamespaces sameReleased refused =>
    rwa [show next.namespaces = data.namespaces from sameNamespaces]
  | claimed valid unreserved unclaimed assigned namespacesEq releasedEq =>
    rw [show next.namespaces = _ from namespacesEq, Std.ExtTreeMap.mem_insert]
    exact Or.inr member
  | @released _ _ freed live tomb asked found contentless namespacesEq releasedEq recorded =>
    -- the scan found nothing under the released handle, so the name has another one
    have other : freed ≠ handle := by
      rintro rfl
      obtain ⟨rest, _, rfl, _⟩ := handleOf_eq_ok.mp target
      have scanned := hasContent_eq_true.mpr ⟨rest, storedBefore⟩
      rw [contentless] at scanned
      cases scanned
    obtain ⟨current, lookup⟩ := (BTreeMap.mem_iff _ _).mp member
    refine (BTreeMap.mem_iff _ _).mpr ⟨current, ?_⟩
    rw [show next.namespaces = _ from namespacesEq, BTreeMap.getElem?_erase, if_neg other]
    exact lookup

theorem requestStep_ownedContent {externals : Externals} {data next : StateMachineData}
    {label : Nat × Request} (stepped : requestStep externals data label = some next)
    (holds : OwnedContent data) : OwnedContent next := by
  obtain ⟨response, applied⟩ := requestStep_eq_some.mp stepped
  refine applyRequest_invariant OwnedContent applied ?_
    (fun inner _ => holds.applyManifest externals inner)
    holds.applyRepository fun _ _ _ outcome => holds.applyNamespace outcome
  intro other same name stored
  have sameManifests : other.manifests = data.manifests := congrArg Registry.manifests same
  have sameTags : other.tags = data.tags := congrArg Registry.tags same
  have sameRepositories : other.repositories = data.repositories :=
    congrArg Registry.repositories same
  have sameNamespaces : other.namespaces = data.namespaces := congrArg Registry.namespaces same
  have storedBefore : data.Holds name := by
    rwa [StateMachineData.Holds, sameManifests, sameTags, sameRepositories] at stored
  obtain ⟨handle, target, live⟩ := holds name storedBefore
  exact ⟨handle, target, by rwa [sameNamespaces]⟩

theorem ownedContent_empty : OwnedContent StateMachineData.empty := by
  rintro name (member | member | member)
  · exact absurd member Std.ExtTreeMap.not_mem_empty
  · exact absurd member Std.ExtTreeMap.not_mem_empty
  · exact absurd member Std.ExtTreeMap.not_mem_empty

/-- A successful claim leaves the content as it was and gives the handle an owner it did not
have. -/
theorem claim_ok {externals : Externals} {now : Nat} {data next : StateMachineData}
    {handle : String} {owner : Owner} {ownerLabel : String} {actor : Subject}
    {adminOverride : Bool} {claimedAt : Nat}
    (succeeded : applyRequest externals now data
      (.namespaces (.claim handle owner ownerLabel actor adminOverride claimedAt)) =
      .ok (next, .namespaces .ok)) :
    validateHandle handle = .ok () ∧ isHandleReserved handle = false ∧
      data.namespaces[handle]? = none ∧ ∀ name, next.Holds name → data.Holds name := by
  obtain ⟨nextEq, effect⟩ := applyNamespace_effect (applyNamespace_of_ok succeeded)
  have sameContent : ∀ name, next.Holds name → data.Holds name := by
    intro name stored
    rw [nextEq] at stored
    exact stored
  cases effect with
  | kept sameNamespaces sameReleased refused =>
    obtain ⟨error, impossible⟩ := refused rfl
    cases impossible
  | claimed valid unreserved unclaimed assigned namespacesEq releasedEq =>
    exact ⟨valid, unreserved, unclaimed, sameContent⟩
  | released asked found contentless namespacesEq releasedEq recorded =>
    rcases asked with ⟨_, _, _, impossible⟩ | ⟨_, _, impossible⟩ <;> cases impossible

/-- In every reachable state every name with a manifest map, a tag map or a repository object is
a handle, a slash and a non-empty rest, and the handle is reserved or live; and after a
successful claim nothing is stored under the claimed handle. -/
theorem content_owned_and_never_inherited (externals : Externals)
    {labels : List (Nat × Request)} {data : StateMachineData}
    (reached : run (requestStep externals) StateMachineData.empty labels = some data) :
    (∀ name, name ∈ data.manifests ∨ name ∈ data.tags ∨ name ∈ data.repositories →
      ∃ handle rest, name = handle ++ "/" ++ rest ∧ rest ≠ "" ∧ '/' ∉ handle.toList ∧
        (isHandleReserved handle = true ∨ handle ∈ data.namespaces)) ∧
    (∀ now handle owner ownerLabel actor adminOverride claimedAt next,
      applyRequest externals now data
        (.namespaces (.claim handle owner ownerLabel actor adminOverride claimedAt)) =
        .ok (next, .namespaces .ok) →
      ∀ rest, handle ++ "/" ++ rest ∉ next.manifests ∧ handle ++ "/" ++ rest ∉ next.tags ∧
        handle ++ "/" ++ rest ∉ next.repositories) := by
  have holds : OwnedContent data :=
    run_invariant OwnedContent (fun _ _ _ stepped => requestStep_ownedContent stepped) reached
      ownedContent_empty
  constructor
  · intro name stored
    obtain ⟨handle, target, live⟩ := holds name stored
    obtain ⟨rest, nonempty, nameEq, slashless⟩ := handleOf_eq_ok.mp target
    exact ⟨handle, rest, nameEq, nonempty, slashless, live⟩
  · intro now handle owner ownerLabel actor adminOverride claimedAt next succeeded rest
    obtain ⟨valid, unreserved, unclaimed, sameContent⟩ := claim_ok succeeded
    have slashless := slash_not_mem_of_validateHandle valid
    have nothing : ¬ next.Holds (handle ++ "/" ++ rest) := by
      intro stored
      obtain ⟨found, target, live⟩ := holds _ (sameContent _ stored)
      obtain ⟨foundRest, _, nameEq, foundSlashless⟩ := handleOf_eq_ok.mp target
      have sameHandle : found = handle :=
        handle_unique nameEq.symm foundSlashless slashless
      subst sameHandle
      rcases live with reserved | member
      · rw [unreserved] at reserved
        cases reserved
      · obtain ⟨current, lookup⟩ := (BTreeMap.mem_iff _ _).mp member
        rw [unclaimed] at lookup
        cases lookup
    exact ⟨fun member => nothing (.inl member), fun member => nothing (.inr (.inl member)),
      fun member => nothing (.inr (.inr member))⟩

/-- A handle is claimed and pushed to; the push lies under it, and the next handle that is
claimed holds nothing. -/
theorem content_owned_and_never_inherited_sample :
    ∃ data next, run (requestStep sampleExternals) StateMachineData.empty
        [(0, sampleClaim "alice" "first" false),
          (0, .manifest (.putManifest (samplePush "alice/app" (some ⟨"alice", 1⟩)
            (sampleDigest 'a') (sampleDigest 'b'))))] = some data ∧
      (∃ handle rest, "alice/app" = handle ++ "/" ++ rest ∧ rest ≠ "" ∧ '/' ∉ handle.toList ∧
        (isHandleReserved handle = true ∨ handle ∈ data.namespaces)) ∧
      applyRequest sampleExternals 0 data (sampleClaim "carol" "second" false) =
        .ok (next, .namespaces .ok) ∧ "carol/app" ∉ next.manifests := by
  have reached : run (requestStep sampleExternals) StateMachineData.empty
      [(0, sampleClaim "alice" "first" false),
        (0, .manifest (.putManifest (samplePush "alice/app" (some ⟨"alice", 1⟩)
          (sampleDigest 'a') (sampleDigest 'b'))))] = some _ := rfl
  obtain ⟨owned, uninherited⟩ := content_owned_and_never_inherited sampleExternals reached
  refine ⟨_, _, reached, owned "alice/app" (.inl (by decide)), rfl, ?_⟩
  exact (uninherited 0 "carol" (.user "second") "second" "second" false 1 _ rfl "app").1

end Layerhouse
