/-
This file is the accounting of sizes: the sums of `oci/manifest.rs` over one manifest and
those of `store/metadata/types.rs` over a stored manifest and over a repository. The sizes are
the ones that the body of a manifest declares.

The sums that count stored bytes take each digest once, at the largest size that is declared
for it, and a manifest without a sized descriptor at its own size; the totals of the summary
add up what is listed. All of them are sums in 64 bits, and nothing bounds the declared sizes.
So all are exact if and only if the size of the repository and the totals are below `2^64`, since a
repository declares no less than its manifests.
-/

import Layerhouse.Library.Tallies
import Layerhouse.Raft.Effects
import Layerhouse.Routes.Manifests

namespace Layerhouse

open Tally

/-! ### Stored manifests -/

def sizedDescriptorsFromEntry (externals : Externals) (entry : ManifestEntry) :
    List SizedDescriptor :=
  ((externals.fromSlice entry.body).map extractSizedReferencedDescriptors).getD []

def manifestStoredSizeBytes (externals : Externals) (entry : ManifestEntry) : Nat :=
  let descriptors := sizedDescriptorsFromEntry externals entry
  if descriptors = [] then
    if 0 < entry.storedSizeBytes then entry.storedSizeBytes else entry.manifestSizeBytes
  else storedSizeFromDescriptors descriptors

/-- A table of the largest sizes by the printed digest. -/
def recordDescriptor : BTreeMap String Nat → SizedDescriptor → BTreeMap String Nat :=
  record (·.digest.toStr) (·.size)

/-- The loop of `repository_stored_size_bytes`, over the table and the fallback size. -/
def tallyEntry (externals : Externals) (sizes : BTreeMap String Nat × Nat)
    (entry : ManifestEntry) : BTreeMap String Nat × Nat :=
  let descriptors := sizedDescriptorsFromEntry externals entry
  if descriptors = [] then
    (sizes.1, (sizes.2 + max entry.storedSizeBytes entry.manifestSizeBytes) % 2 ^ 64)
  else (descriptors.foldl recordDescriptor sizes.1, sizes.2)

def repositoryStoredSizeBytes (externals : Externals)
    (repoManifests : BTreeMap String ManifestEntry) : Nat :=
  let sizes := (repoManifests.toList.map (·.2)).foldl (tallyEntry externals) (∅, 0)
  ((sizes.1.toList.map (·.2)).sum % 2 ^ 64 + sizes.2) % 2 ^ 64

/-! ### The sums they stand for -/

/-- Each digest once, at the largest size that is declared for it. -/
def declaredSize (descriptors : List SizedDescriptor) : Nat :=
  sumLargest (·.digest) (·.size) descriptors

/-- The declared size of a stored manifest, which is its own size without a sized descriptor. -/
def ManifestEntry.declaredSize (externals : Externals) (entry : ManifestEntry) : Nat :=
  let descriptors := sizedDescriptorsFromEntry externals entry
  if descriptors = [] then entry.manifestSizeBytes else Layerhouse.declaredSize descriptors

/-- The declared size of all manifests together, with the own sizes of those without a sized
descriptor. -/
def repositoryDeclaredSize (externals : Externals) (entries : List ManifestEntry) : Nat :=
  declaredSize (entries.flatMap (sizedDescriptorsFromEntry externals)) +
    ((entries.filter (sizedDescriptorsFromEntry externals · = [])).map (·.manifestSizeBytes)).sum

/-- The sum of the sizes in a list of the manifest. -/
def listedTotal (manifest : Value) (key : String) : Option Nat :=
  ((manifest.get key).bind Value.asArray).map fun items =>
    (items.filterMap fun item => (item.get "size").bind Value.asU64).sum

/-- A number of the summary. -/
def summaryTotal (manifest : Value) (key : String) : Option Nat :=
  ((extractConfigSummary manifest).bind (·.get key)).bind Value.asU64

/-! ### One manifest -/

theorem storedSizeFromDescriptors_eq {descriptors : List SizedDescriptor}
    (checked : ∀ descriptor ∈ descriptors, descriptor.digest.Checked) :
    storedSizeFromDescriptors descriptors = declaredSize descriptors % 2 ^ 64 := by
  have table : storedSizeFromDescriptors descriptors =
      BTreeMap.total id (descriptors.foldl recordDescriptor ∅) % 2 ^ 64 := rfl
  rw [table, recordDescriptor, total_foldl_record]
  refine congrArg (· % 2 ^ 64) (sumLargest_rename fun first inFirst second inSecond same => ?_)
  have parsed := checked first inFirst
  rw [Digest.Checked, same, checked second inSecond] at parsed
  exact (Option.some.inj parsed).symm

theorem checked_of_mem_sized {value : Value} {descriptor : SizedDescriptor}
    (member : descriptor ∈ extractSizedReferencedDescriptors value) :
    descriptor.digest.Checked :=
  checked_of_mem_extractReferencedDigests (mem_extractReferencedDigests_of_sized member)

theorem checked_of_mem_entry {externals : Externals} {entry : ManifestEntry}
    {descriptor : SizedDescriptor}
    (member : descriptor ∈ sizedDescriptorsFromEntry externals entry) :
    descriptor.digest.Checked := by
  rw [sizedDescriptorsFromEntry] at member
  cases parsed : externals.fromSlice entry.body with
  | none =>
    rw [parsed] at member
    cases member
  | some value =>
    rw [parsed] at member
    exact checked_of_mem_sized member

/-! ### The totals of a summary -/

theorem get_of_fields (fields : List (String × Value)) (key : String) :
    (if fields.isEmpty then none else some (Value.object fields)).bind (·.get key) =
      (fields.find? (·.1 = key)).map (·.2) := by
  cases fields with
  | nil => rfl
  | cons first rest => rfl

theorem asU64_summaryNumber (value : Nat) :
    (summaryNumber value).asU64 = some (value % 2 ^ 64) :=
  congrArg some UInt64.toNat_ofNat'

/-- A part of the summary with other keys does not matter. -/
theorem find?_part_of_ne {Item : Type} {part : Item → List (String × Value)} {key : String}
    (others : ∀ item, ∀ field ∈ part item, field.1 ≠ key) (value : Option Item) :
    ((value.map part).getD []).find? (·.1 = key) = none := by
  cases value with
  | none => rfl
  | some item =>
    refine List.find?_eq_none.mpr fun field member => ?_
    rw [decide_eq_true_eq]
    exact others item field member

theorem find?_field_of_ne {Item : Type} {make : Item → Value} {key other : String}
    (different : other ≠ key) (value : Option Item) :
    ((value.map fun item => (other, make item)).toList).find? (·.1 = key) = none := by
  cases value with
  | none => rfl
  | some item =>
    refine List.find?_cons_of_neg ?_
    rwa [decide_eq_true_eq]

theorem find?_summaryList_of_ne (countKey sizeKey : String) {key : String}
    (count : countKey ≠ key) (size : sizeKey ≠ key) (value : Option (List Value)) :
    ((value.map (summaryList countKey sizeKey)).getD []).find? (·.1 = key) = none := by
  refine find?_part_of_ne (fun items field member => ?_) value
  rcases List.mem_pair.mp member with rfl | rfl
  · exact count
  · exact size

theorem find?_platforms_of_ne {key : String} (count : "manifest_count" ≠ key)
    (list : "platforms" ≠ key) (value : Option (List Value)) :
    ((value.map fun manifests =>
      let platforms := manifests.filterMap (·.get "platform")
      ("manifest_count", summaryNumber manifests.length) ::
        (if platforms.isEmpty then [] else [("platforms", Value.array platforms)])).getD []).find?
        (·.1 = key) = none := by
  refine find?_part_of_ne (fun manifests field member => ?_) value
  rcases List.mem_cons.mp member with rfl | later
  · exact count
  · split at later
    · cases later
    · rw [List.mem_singleton.mp later]
      exact list

theorem find?_summaryList {countKey sizeKey : String} (different : countKey ≠ sizeKey)
    (value : Option (List Value)) :
    ((((value.map (summaryList countKey sizeKey)).getD []).find? (·.1 = sizeKey)).map
      (·.2)).bind Value.asU64 =
      value.map fun items =>
        (items.filterMap fun item => (item.get "size").bind Value.asU64).sum % 2 ^ 64 := by
  cases value with
  | none => rfl
  | some items =>
    rw [Option.map_some, Option.getD_some, summaryList,
      List.find?_cons_of_neg (by rwa [decide_eq_true_eq]),
      List.find?_cons_of_pos (by exact decide_eq_true rfl)]
    exact asU64_summaryNumber _

/-- The summary has the totals of the lists, in 64 bits. -/
theorem summaryTotal_layers (manifest : Value) :
    summaryTotal manifest "layer_size_bytes" =
      (listedTotal manifest "layers").map (· % 2 ^ 64) := by
  rw [summaryTotal, extractConfigSummary, get_of_fields]
  simp only [List.find?_append]
  rw [find?_field_of_ne (by decide), find?_field_of_ne (by decide), find?_field_of_ne (by decide),
    find?_field_of_ne (by decide),
    find?_summaryList_of_ne "blob_count" "blob_size_bytes" (by decide) (by decide),
    find?_platforms_of_ne (by decide) (by decide)]
  simp only [Option.none_or, Option.or_none]
  rw [listedTotal, Option.map_map]
  exact find?_summaryList (by decide) _

theorem summaryTotal_blobs (manifest : Value) :
    summaryTotal manifest "blob_size_bytes" =
      (listedTotal manifest "blobs").map (· % 2 ^ 64) := by
  rw [summaryTotal, extractConfigSummary, get_of_fields]
  simp only [List.find?_append]
  rw [find?_field_of_ne (by decide), find?_field_of_ne (by decide), find?_field_of_ne (by decide),
    find?_field_of_ne (by decide),
    find?_summaryList_of_ne "layer_count" "layer_size_bytes" (by decide) (by decide),
    find?_platforms_of_ne (by decide) (by decide)]
  simp only [Option.none_or, Option.or_none]
  rw [listedTotal, Option.map_map]
  exact find?_summaryList (by decide) _

/-! ### A repository of pushed manifests -/

/-- The entry was stored by a push: some accepted body, with whatever the handler found for the
epoch and the reference. -/
def Pushed (externals : Externals) (entry : ManifestEntry) : Prop :=
  ∃ name reference contentType body call now expected absent,
    PushCall.receive externals name reference contentType body = .ok call ∧
    entry = (call.putManifest externals now expected absent).entry externals

variable {externals : Externals}

theorem Pushed.parsed {entry : ManifestEntry} (pushed : Pushed externals entry) :
    ∃ parsed, externals.fromSlice entry.body = some parsed ∧
      entry.storedSizeBytes = storedSizeBytes parsed ∧
      entry.configSummary = extractConfigSummary parsed := by
  obtain ⟨name, reference, contentType, body, call, now, expected, absent, accepted, rfl⟩ := pushed
  rw [PushCall.receive] at accepted
  split at accepted
  · cases accepted
  · split at accepted
    · cases accepted
    · rename_i parsed found
      cases accepted
      exact ⟨parsed, found, rfl, rfl⟩

theorem Pushed.storedSizeBytes_eq {entry : ManifestEntry} (pushed : Pushed externals entry) :
    entry.storedSizeBytes = declaredSize (sizedDescriptorsFromEntry externals entry) % 2 ^ 64 := by
  obtain ⟨parsed, found, stored, -⟩ := pushed.parsed
  rw [stored, sizedDescriptorsFromEntry, found]
  exact storedSizeFromDescriptors_eq fun descriptor => checked_of_mem_sized

/-- Without a sized descriptor the stored size is zero, and the own size is what counts. -/
theorem Pushed.max_eq {entry : ManifestEntry} (pushed : Pushed externals entry)
    (unsized : sizedDescriptorsFromEntry externals entry = []) :
    max entry.storedSizeBytes entry.manifestSizeBytes = entry.manifestSizeBytes := by
  rw [pushed.storedSizeBytes_eq, unsized]
  exact Nat.zero_max _

theorem Pushed.manifestStoredSizeBytes_eq {entry : ManifestEntry}
    (pushed : Pushed externals entry) (fits : entry.declaredSize externals < 2 ^ 64) :
    manifestStoredSizeBytes externals entry = entry.declaredSize externals := by
  rw [ManifestEntry.declaredSize] at fits ⊢
  rw [manifestStoredSizeBytes]
  split
  · rename_i unsized
    rw [if_neg]
    rw [pushed.storedSizeBytes_eq, unsized]
    exact Nat.lt_irrefl 0
  · rename_i sized
    rw [if_neg sized] at fits
    rw [storedSizeFromDescriptors_eq fun descriptor => checked_of_mem_entry]
    exact Nat.mod_eq_of_lt fits

/-- The totals of the summary and of the body. -/
def ManifestEntry.summaryTotal (entry : ManifestEntry) (key : String) : Option Nat :=
  (entry.configSummary.bind (·.get key)).bind Value.asU64

def ManifestEntry.listedTotal (externals : Externals) (entry : ManifestEntry) (key : String) :
    Option Nat :=
  (externals.fromSlice entry.body).bind (Layerhouse.listedTotal · key)

theorem Pushed.layers_eq {entry : ManifestEntry} (pushed : Pushed externals entry) :
    entry.summaryTotal "layer_size_bytes" =
      (entry.listedTotal externals "layers").map (· % 2 ^ 64) := by
  obtain ⟨parsed, found, -, summary⟩ := pushed.parsed
  rw [ManifestEntry.summaryTotal, summary, ManifestEntry.listedTotal, found]
  exact summaryTotal_layers parsed

theorem Pushed.blobs_eq {entry : ManifestEntry} (pushed : Pushed externals entry) :
    entry.summaryTotal "blob_size_bytes" =
      (entry.listedTotal externals "blobs").map (· % 2 ^ 64) := by
  obtain ⟨parsed, found, -, summary⟩ := pushed.parsed
  rw [ManifestEntry.summaryTotal, summary, ManifestEntry.listedTotal, found]
  exact summaryTotal_blobs parsed

/-- The loop over the entries, as one table and one sum. -/
theorem foldl_tallyEntry (entries : List ManifestEntry) (table : BTreeMap String Nat)
    (fallback : Nat) (below : fallback < 2 ^ 64) :
    entries.foldl (tallyEntry externals) (table, fallback) =
      ((entries.flatMap (sizedDescriptorsFromEntry externals)).foldl recordDescriptor table,
        (fallback + ((entries.filter (sizedDescriptorsFromEntry externals · = [])).map
          fun entry => max entry.storedSizeBytes entry.manifestSizeBytes).sum) % 2 ^ 64) := by
  induction entries generalizing table fallback with
  | nil => exact congrArg (Prod.mk table) (Nat.mod_eq_of_lt below).symm
  | cons entry rest inductionHypothesis =>
    rw [List.foldl_cons, List.flatMap_cons, List.foldl_append, tallyEntry]
    by_cases unsized : sizedDescriptorsFromEntry externals entry = []
    · rw [if_pos unsized, inductionHypothesis _ _ (Nat.mod_lt _ (by decide)), unsized,
        List.filter_cons_of_pos (by exact decide_eq_true unsized), List.map_cons, List.sum_cons,
        Nat.mod_add_mod, Nat.add_assoc]
      rfl
    · rw [if_neg unsized, inductionHypothesis _ _ below,
        List.filter_cons_of_neg (by rwa [decide_eq_true_eq])]

/-- The size of a repository is the declared one, in 64 bits. -/
theorem repositoryStoredSizeBytes_eq {repoManifests : BTreeMap String ManifestEntry}
    (pushed : ∀ entry ∈ repoManifests.toList.map (·.2), Pushed externals entry) :
    repositoryStoredSizeBytes externals repoManifests =
      repositoryDeclaredSize externals (repoManifests.toList.map (·.2)) % 2 ^ 64 := by
  rw [repositoryStoredSizeBytes, foldl_tallyEntry _ _ _ (by decide), repositoryDeclaredSize]
  have own : ((repoManifests.toList.map (·.2)).filter
      (sizedDescriptorsFromEntry externals · = [])).map
        (fun entry => max entry.storedSizeBytes entry.manifestSizeBytes) =
      ((repoManifests.toList.map (·.2)).filter
        (sizedDescriptorsFromEntry externals · = [])).map (·.manifestSizeBytes) := by
    refine List.map_congr_left fun entry member => ?_
    obtain ⟨stored, unsized⟩ := List.mem_filter.mp member
    exact (pushed entry stored).max_eq (of_decide_eq_true unsized)
  rw [own, Nat.zero_add]
  calc
    _ = (storedSizeFromDescriptors ((repoManifests.toList.map (·.2)).flatMap
          (sizedDescriptorsFromEntry externals)) + _ % 2 ^ 64) % 2 ^ 64 := rfl
    _ = _ := by
      rw [storedSizeFromDescriptors_eq, ← Nat.add_mod]
      intro descriptor member
      obtain ⟨entry, -, inEntry⟩ := List.mem_flatMap.mp member
      exact checked_of_mem_entry inEntry

/-! ### Exact sizes -/

/-- All sizes of a repository and of its manifests are the sums they stand for, and the size of a
repository with one manifest is that of the manifest. -/
structure SizesExact (externals : Externals) (repoManifests : BTreeMap String ManifestEntry) :
    Prop where
  stored : ∀ entry ∈ repoManifests.toList.map (·.2),
    entry.storedSizeBytes = declaredSize (sizedDescriptorsFromEntry externals entry)
  manifest : ∀ entry ∈ repoManifests.toList.map (·.2),
    manifestStoredSizeBytes externals entry = entry.declaredSize externals
  layers : ∀ entry ∈ repoManifests.toList.map (·.2),
    entry.summaryTotal "layer_size_bytes" = entry.listedTotal externals "layers"
  blobs : ∀ entry ∈ repoManifests.toList.map (·.2),
    entry.summaryTotal "blob_size_bytes" = entry.listedTotal externals "blobs"
  repository : repositoryStoredSizeBytes externals repoManifests =
    repositoryDeclaredSize externals (repoManifests.toList.map (·.2))
  single : ∀ entry, repoManifests.toList.map (·.2) = [entry] →
    repositoryStoredSizeBytes externals repoManifests = manifestStoredSizeBytes externals entry

/-- The declared sizes of a repository and the totals of its manifests fit into 64 bits. -/
structure SizesFit (externals : Externals) (repoManifests : BTreeMap String ManifestEntry) :
    Prop where
  repository : repositoryDeclaredSize externals (repoManifests.toList.map (·.2)) < 2 ^ 64
  layers : ∀ entry ∈ repoManifests.toList.map (·.2),
    ∀ total ∈ entry.listedTotal externals "layers", total < 2 ^ 64
  blobs : ∀ entry ∈ repoManifests.toList.map (·.2),
    ∀ total ∈ entry.listedTotal externals "blobs", total < 2 ^ 64

theorem descriptorsSize_le {entries : List ManifestEntry} {entry : ManifestEntry}
    (member : entry ∈ entries) :
    declaredSize (sizedDescriptorsFromEntry externals entry) ≤
      repositoryDeclaredSize externals entries := by
  refine le_add_right (sumLargest_mono fun descriptor inEntry => ?_)
  exact List.mem_flatMap.mpr ⟨entry, member, inEntry⟩

/-- A manifest declares no more than its repository. -/
theorem declaredSize_le {entries : List ManifestEntry} {entry : ManifestEntry}
    (member : entry ∈ entries) :
    entry.declaredSize externals ≤ repositoryDeclaredSize externals entries := by
  rw [ManifestEntry.declaredSize]
  split
  · rename_i unsized
    refine le_add_left (List.le_sum_of_mem (List.mem_map_of_mem ?_))
    exact List.mem_filter.mpr ⟨member, decide_eq_true unsized⟩
  · exact descriptorsSize_le member

/-- A single manifest declares what its repository does. -/
theorem repositoryDeclaredSize_single (entry : ManifestEntry) :
    repositoryDeclaredSize externals [entry] = entry.declaredSize externals := by
  rw [ManifestEntry.declaredSize, repositoryDeclaredSize, List.flatMap_singleton]
  by_cases unsized : sizedDescriptorsFromEntry externals entry = []
  · rw [if_pos unsized, unsized, List.filter_cons_of_pos (by exact decide_eq_true unsized)]
    exact Nat.zero_add _
  · rw [if_neg unsized, List.filter_cons_of_neg (by rwa [decide_eq_true_eq])]
    rfl

/-- A total in 64 bits is right if and only if it fits. -/
theorem map_mod_eq_iff {total : Option Nat} :
    total.map (· % 2 ^ 64) = total ↔ ∀ sum ∈ total, sum < 2 ^ 64 := by
  cases total with
  | none => exact iff_of_true rfl nofun
  | some sum =>
    rw [Option.map_some, Option.some_inj, Nat.mod_eq_iff_lt (by decide)]
    exact ⟨fun fits _ same => Option.some.inj same ▸ fits, fun fit => fit sum rfl⟩

/-- The sizes of pushed manifests are exact if and only if the sums fit into 64 bits. -/
theorem sizes_exact_iff {repoManifests : BTreeMap String ManifestEntry}
    (pushed : ∀ entry ∈ repoManifests.toList.map (·.2), Pushed externals entry) :
    SizesExact externals repoManifests ↔ SizesFit externals repoManifests := by
  constructor
  · intro sizes
    refine ⟨?_, fun entry member => ?_, fun entry member => ?_⟩
    · rw [← sizes.repository, repositoryStoredSizeBytes_eq pushed]
      exact Nat.mod_lt _ (by decide)
    · rw [← map_mod_eq_iff, ← (pushed entry member).layers_eq]
      exact sizes.layers entry member
    · rw [← map_mod_eq_iff, ← (pushed entry member).blobs_eq]
      exact sizes.blobs entry member
  · intro fit
    have fits : ∀ entry ∈ repoManifests.toList.map (·.2), entry.declaredSize externals < 2 ^ 64 :=
      fun entry member => (declaredSize_le member).trans_lt fit.repository
    have total : repositoryStoredSizeBytes externals repoManifests =
        repositoryDeclaredSize externals (repoManifests.toList.map (·.2)) := by
      rw [repositoryStoredSizeBytes_eq pushed]
      exact Nat.mod_eq_of_lt fit.repository
    refine ⟨fun entry member => ?_, fun entry member => ?_, fun entry member => ?_,
      fun entry member => ?_, total, fun entry single => ?_⟩
    · rw [(pushed entry member).storedSizeBytes_eq]
      exact Nat.mod_eq_of_lt ((descriptorsSize_le member).trans_lt fit.repository)
    · exact (pushed entry member).manifestStoredSizeBytes_eq (fits entry member)
    · rw [(pushed entry member).layers_eq, map_mod_eq_iff]
      exact fit.layers entry member
    · rw [(pushed entry member).blobs_eq, map_mod_eq_iff]
      exact fit.blobs entry member
    · have member : entry ∈ repoManifests.toList.map (·.2) := single ▸ List.mem_singleton_self _
      rw [total, single, repositoryDeclaredSize_single,
        (pushed entry member).manifestStoredSizeBytes_eq (fits entry member)]

/-! ### Wrapped sizes -/

/-- A manifest with these layers, each the digit of a digest and a size. -/
def sampleSizedManifest (layers : List (Char × UInt64)) : Value :=
  .object [("layers", .array (layers.map fun layer =>
    .object [("digest", .string (sampleDigest layer.1)), ("size", .number (.unsigned layer.2))]))]

/-- The same in JSON. -/
def sampleSizedText (layers : List (Char × UInt64)) : List UInt8 :=
  Text.utf8 ("\x7b\"layers\":[".toList ++ List.intercalate [','] (layers.map fun layer =>
    "\x7b\"digest\":\"".toList ++ (sampleDigest layer.1).toList ++ "\",\"size\":".toList ++
      Nat.toDigits 10 layer.2.toNat ++ "\x7d".toList) ++ "]\x7d".toList)

/-- The parser on the texts of these manifests. -/
def sampleSizesExternals (manifests : List (List (Char × UInt64))) : Externals :=
  { sampleExternals with
    fromSlice := fun body =>
      (manifests.find? (sampleSizedText · = body)).map sampleSizedManifest }

section

variable {manifests : List (List (Char × UInt64))} {layers : List (Char × UInt64)}

/-- What a push of the manifest stores. -/
def sampleSizedEntry (manifests : List (List (Char × UInt64))) (layers : List (Char × UInt64)) :
    ManifestEntry :=
  (PushCall.putManifest (sampleSizesExternals manifests) 0
    ⟨"users/alice/app", "latest", "application/vnd.oci.image.manifest.v1+json",
      sampleSizedText layers, sampleSizedManifest layers⟩ none false).entry
        (sampleSizesExternals manifests)

theorem pushed_sampleSizedEntry
    (found : manifests.find? (sampleSizedText · = sampleSizedText layers) = some layers) :
    Pushed (sampleSizesExternals manifests) (sampleSizedEntry manifests layers) := by
  refine ⟨"users/alice/app", "latest", "application/vnd.oci.image.manifest.v1+json",
    sampleSizedText layers, _, 0, none, false, ?_, rfl⟩
  have parsed : (sampleSizesExternals manifests).fromSlice (sampleSizedText layers) =
      some (sampleSizedManifest layers) := by
    simp only [sampleSizesExternals, found, Option.map_some]
  rw [PushCall.receive, if_neg (by decide), parsed]

end

/-- Two manifests, of which the second states another size for the layer of the first. -/
def sampleShared : List (List (Char × UInt64)) :=
  [[('1', 7)], [('1', 9), ('2', 4)]]

def sampleSharedRepository : BTreeMap String ManifestEntry :=
  ((∅ : BTreeMap String ManifestEntry).insert (sampleDigest 'a')
    (sampleSizedEntry sampleShared [('1', 7)])).insert (sampleDigest 'b')
      (sampleSizedEntry sampleShared [('1', 9), ('2', 4)])

/-- A layer that two manifests share counts once, at its largest size. -/
theorem sizes_exact_one_layer :
    SizesExact (sampleSizesExternals sampleShared) sampleSharedRepository := by
  refine (sizes_exact_iff fun entry member => ?_).mpr ⟨?_, ?_, ?_⟩
  · obtain ⟨⟨digest, stored⟩, listed, rfl⟩ := List.mem_map.mp member
    have found := (BTreeMap.mem_toList _ _ _).mp listed
    rw [sampleSharedRepository, BTreeMap.getElem?_insert, BTreeMap.getElem?_insert] at found
    split at found
    · rw [← Option.some.inj found]
      exact pushed_sampleSizedEntry (by decide +kernel)
    · split at found
      · rw [← Option.some.inj found]
        exact pushed_sampleSizedEntry (by decide +kernel)
      · exact nomatch found
  · decide +kernel
  · decide +kernel
  · decide +kernel

/-- Two layers with half of the numbers each. -/
def sampleHalves : List (Char × UInt64) :=
  [('1', 2 ^ 63), ('2', 2 ^ 63)]

def sampleHalvesRepository : BTreeMap String ManifestEntry :=
  (∅ : BTreeMap String ManifestEntry).insert (sampleDigest 'a')
    (sampleSizedEntry [sampleHalves] sampleHalves)

/-- The total of the summary, the stored size and the size of the repository are zero for a manifest
with two layers of half of the numbers each. -/
theorem sizes_wrap :
    ∃ externals repoManifests, (∀ entry ∈ repoManifests.toList.map (·.2), Pushed externals entry) ∧
      ¬ SizesExact externals repoManifests := by
  have entries : sampleHalvesRepository.toList.map (·.2) =
      [sampleSizedEntry [sampleHalves] sampleHalves] :=
    rfl
  refine ⟨sampleSizesExternals [sampleHalves], sampleHalvesRepository, fun entry member => ?_,
    fun sizes => ?_⟩
  · rw [entries, List.mem_singleton] at member
    rw [member]
    exact pushed_sampleSizedEntry (by decide +kernel)
  · have repository := sizes.repository
    rw [entries] at repository
    revert repository
    decide +kernel

end Layerhouse
