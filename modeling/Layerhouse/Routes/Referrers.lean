/-
This file is the referrers of a manifest: `list_referrers` of `raft/state_machine.rs` and the
endpoint of `routes/referrers.rs`. There is no index from subjects to the manifests that refer to
them. Each answer is read off the stored entries, so it is right exactly as far as an entry says
of its subject, its type and its annotations what its body says. The entries that the writers make
do, in every state, and what is pushed is what is stored.
-/

import Layerhouse.Raft.Restoration
import Layerhouse.Routes.Queries
import Layerhouse.Routes.Summaries

namespace Layerhouse

/-! ### The list -/

structure ReferrerEntry where
  digest : Digest
  mediaType : String
  size : Nat
  artifactType : Option String
  annotations : Option Value

/-- The entry as a referrer; its size is that of the body. -/
def ManifestEntry.referrer (entry : ManifestEntry) : ReferrerEntry where
  digest := entry.digest
  mediaType := entry.contentType
  size := entry.body.length
  artifactType := entry.artifactType
  annotations := entry.annotations

def StateMachineData.listReferrers (data : StateMachineData) (name subjectDigest : String)
    (artifactType : Option String) : List ReferrerEntry :=
  match data.manifests[name]? with
  | none => []
  | some repoManifests =>
    repoManifests.toList.filterMap fun manifest =>
      if manifest.2.subject.map Digest.toStr = some subjectDigest then
        match artifactType with
        | some filter =>
          if manifest.2.referrer.artifactType = some filter then some manifest.2.referrer else none
        | none => some manifest.2.referrer
      else none

/-! ### The endpoint -/

structure ReferrerDescriptor where
  mediaType : String
  digest : String
  size : Nat
  artifactType : Option String
  annotations : Option Value

structure ReferrerIndex where
  schemaVersion : Nat
  mediaType : String
  manifests : List ReferrerDescriptor

def ReferrerIndex.empty : ReferrerIndex where
  schemaVersion := 2
  mediaType := "application/vnd.oci.image.index.v1+json"
  manifests := []

def ReferrerEntry.descriptor (entry : ReferrerEntry) : ReferrerDescriptor where
  mediaType := entry.mediaType
  digest := entry.digest.toStr
  size := entry.size
  artifactType := entry.artifactType
  annotations := entry.annotations

/-- The index with the two headers that `get_referrers` sets. -/
structure ReferrersResponse where
  contentType : String
  ociFiltersApplied : Option String
  index : ReferrerIndex

def getReferrers (data : StateMachineData) (name digestStr : String)
    (query : BTreeMap String String) : Except LayerhouseError ReferrersResponse :=
  match Digest.fromStrChecked digestStr with
  | none => .error (.digestInvalid digestStr)
  | some digest =>
    let artifactType := query["artifactType"]?
    let entries := data.listReferrers name digest.toStr artifactType
    .ok {
      contentType := "application/vnd.oci.image.index.v1+json"
      ociFiltersApplied := if artifactType.isSome then some "artifactType" else none
      index := { ReferrerIndex.empty with manifests := entries.map ReferrerEntry.descriptor } }

/-- `dispatch` of `routes/referrers.rs`. -/
def dispatchReferrers (data : StateMachineData) (method : Method) (name digestStr : String)
    (query : Option (List Char)) : Except LayerhouseError ReferrersResponse :=
  if method ≠ .get then .error (.unsupported "method not allowed")
  else getReferrers data name digestStr (queryParams query)

/-! ### What is listed -/

theorem StateMachineData.listReferrers_eq_filterMap (data : StateMachineData)
    (name subjectDigest : String) (artifactType : Option String) :
    data.listReferrers name subjectDigest artifactType =
      (repositoryManifests data name).filterMap fun manifest =>
        if manifest.2.subject.map Digest.toStr = some subjectDigest ∧
            ∀ filter, artifactType = some filter → manifest.2.artifactType = some filter
        then some manifest.2.referrer else none := by
  rw [listReferrers, repositoryManifests]
  cases data.manifests[name]? with
  | none => rfl
  | some repoManifests =>
    refine List.filterMap_congr fun manifest _ => ?_
    rw [ite_and]
    refine if_congr Iff.rfl ?_ rfl
    cases artifactType with
    | none => exact (if_pos fun filter asked => absurd asked (Option.some_ne_none filter).symm).symm
    | some wanted =>
      refine if_congr ⟨fun same filter asked => ?_, fun all => all wanted rfl⟩ rfl rfl
      exact same.trans asked

theorem StateMachineData.mem_listReferrers {data : StateMachineData} (keyed : data.content.Keyed)
    {name subjectDigest : String} {artifactType : Option String} {referrer : ReferrerEntry} :
    referrer ∈ data.listReferrers name subjectDigest artifactType ↔
      ∃ entry, data.content.entry? name entry.digest.toStr = some entry ∧
        entry.subject.map Digest.toStr = some subjectDigest ∧
        (∀ filter, artifactType = some filter → entry.artifactType = some filter) ∧
        referrer = entry.referrer := by
  rw [listReferrers_eq_filterMap, List.mem_filterMap]
  constructor
  · rintro ⟨⟨digest, entry⟩, member, listed⟩
    obtain ⟨⟨subject, asked⟩, same⟩ := Option.ite_none_right_eq_some.mp listed
    have found := mem_repositoryManifests.mp member
    obtain rfl := keyed name digest entry found
    exact ⟨entry, found, subject, asked, (Option.some.inj same).symm⟩
  · rintro ⟨entry, found, subject, asked, rfl⟩
    exact ⟨(entry.digest.toStr, entry), mem_repositoryManifests.mpr found,
      if_pos ⟨subject, asked⟩⟩

/-- No manifest is listed twice. -/
theorem StateMachineData.nodup_listReferrers {data : StateMachineData}
    (keyed : data.content.Keyed) (name subjectDigest : String) (artifactType : Option String) :
    ((data.listReferrers name subjectDigest artifactType).map (·.digest.toStr)).Nodup := by
  have distinct : (repositoryManifests data name).Pairwise (·.1 ≠ ·.1) :=
    List.pairwise_map.mp (nodup_repositoryManifests data name)
  -- the digest that is listed is the key that the entry is stored under
  have listedKey : ∀ manifest ∈ repositoryManifests data name, ∀ {condition : Prop}
      [Decidable condition] {referrer : ReferrerEntry},
      (if condition then some manifest.2.referrer else none) = some referrer →
      referrer.digest.toStr = manifest.1 := by
    intro manifest member condition _ referrer listed
    obtain ⟨_, same⟩ := Option.ite_none_right_eq_some.mp listed
    rw [keyed name manifest.1 manifest.2 (mem_repositoryManifests.mp member),
      ← Option.some.inj same]
    rfl
  rw [listReferrers_eq_filterMap, List.Nodup, List.pairwise_map, List.pairwise_filterMap]
  refine distinct.imp_of_mem fun {first second} inFirst inSecond different => ?_
  intro one listedOne two listedTwo same
  rw [listedKey first inFirst listedOne, listedKey second inSecond listedTwo] at same
  exact different same

/-! ### Entries that say what their bodies say -/

/-- The subject, the artifact type and the annotations of the entry are those of its body. -/
def ManifestEntry.Describes (externals : Externals) (entry : ManifestEntry) : Prop :=
  ∃ parsed, externals.fromSlice entry.body = some parsed ∧
    entry.subject = extractSubjectDigest parsed ∧
    entry.artifactType = extractArtifactType parsed ∧
    entry.annotations = extractAnnotations parsed

theorem checked_of_extractSubjectDigest {value : Value} {digest : Digest}
    (named : extractSubjectDigest value = some digest) : digest.Checked := by
  rw [extractSubjectDigest] at named
  obtain ⟨subject, _, named⟩ := Option.bind_eq_some_iff.mp named
  obtain ⟨field, _, named⟩ := Option.bind_eq_some_iff.mp named
  obtain ⟨text, _, parsed⟩ := Option.bind_eq_some_iff.mp named
  exact Digest.checked_of_fromStrChecked parsed

/-- A subject survives being printed into the request and read by the state machine. -/
theorem extractSubjectDigest_readBack (value : Value) :
    ((extractSubjectDigest value).map Digest.toStr).bind Digest.fromStrChecked =
      extractSubjectDigest value := by
  obtain none | ⟨digest, named⟩ := Option.eq_none_or_eq_some (extractSubjectDigest value)
  · rw [none]
    rfl
  · rw [named]
    exact checked_of_extractSubjectDigest named

theorem ManifestEntry.FromBody.describes {externals : Externals} {entry : ManifestEntry}
    (fromBody : entry.FromBody externals) (name reference : String)
    (expected : Option NamespaceEpoch) (absent : Bool) :
    ((putManifestWithExpectedNamespace name reference entry expected absent).entry
      externals).Describes externals := by
  obtain ⟨parsed, now, parses, made⟩ := fromBody.made
  have subject : entry.subject = extractSubjectDigest parsed := by rw [made]; rfl
  have artifactType : entry.artifactType = extractArtifactType parsed := by rw [made]; rfl
  have annotations : entry.annotations = extractAnnotations parsed := by rw [made]; rfl
  refine ⟨parsed, parses, ?_, artifactType, annotations⟩
  simp only [PutManifest.entry, putManifestWithExpectedNamespace]
  rw [subject, extractSubjectDigest_readBack]

theorem WritesFromBody.addressed {externals : Externals} {request : Request}
    (writes : WritesFromBody externals request) : request.Addressed externals.sha256 := by
  rintro put rfl
  obtain ⟨name, reference, entry, expected, absent, rfl, fromBody⟩ := writes
  obtain ⟨parsed, now, _, made⟩ := fromBody.made
  have digest : entry.digest = Digest.sha256 externals.sha256 entry.body := by rw [made]; rfl
  exact congrArg Digest.toStr digest

/-- In every state reached by pushes of entries made from their bodies, every entry says what its
body says. -/
theorem describes_of_reached {externals : Externals} {labels : List (Nat × Request)}
    {data : StateMachineData} (written : ∀ label ∈ labels, WritesFromBody externals label.2)
    (reached : run (requestStep externals) StateMachineData.empty labels = some data) :
    AllEntries (ManifestEntry.Describes externals) data := by
  refine run_invariant_along (AllEntries (ManifestEntry.Describes externals)) ?_ reached
    (along_of_forall fun label member _ => written label member) ?_
  · intro state label next stepped writes holds
    obtain ⟨response, applied⟩ := requestStep_eq_some.mp stepped
    refine holds.applyRequest applied fun put pushes => ?_
    rw [pushes] at writes
    obtain ⟨name, reference, entry, expected, absent, rfl, fromBody⟩ := writes
    exact fromBody.describes name reference expected absent
  · intro name repo digest entry found _
    exact absurd ((BTreeMap.getElem?_empty name).symm.trans found) (Option.some_ne_none repo).symm

/-! ### Answers -/

/-- Digests that the checked parser returns and that are printed alike are one. -/
theorem Digest.Checked.eq_of_toStr {first second : Digest} (checked : first.Checked)
    (other : second.Checked) (same : first.toStr = second.toStr) : first = second := by
  rw [Checked, same] at checked
  exact Option.some.inj (checked.symm.trans other)

/-- What a manifest with this body is listed as. -/
def referrerOfBody (externals : Externals) (contentType : String) (body : List UInt8)
    (parsed : Value) : ReferrerDescriptor where
  mediaType := contentType
  digest := (Digest.sha256 externals.sha256 body).toStr
  size := body.length
  artifactType := extractArtifactType parsed
  annotations := extractAnnotations parsed

/-- The response lists the manifests of the repository whose own body names the subject, and the
artifact type if one is asked for: each once, under the digest that it is downloaded by, with the
size and the fields of its body. -/
structure ReferrersAnswered (externals : Externals) (data : StateMachineData) (name : String)
    (subject : Digest) (artifactType : Option String) (response : ReferrersResponse) : Prop where
  distinct : (response.index.manifests.map (·.digest)).Nodup
  listed : ∀ descriptor, descriptor ∈ response.index.manifests ↔ ∃ entry parsed,
    data.getManifest name (Digest.sha256 externals.sha256 entry.body).toStr = some entry ∧
      externals.fromSlice entry.body = some parsed ∧
      extractSubjectDigest parsed = some subject ∧
      (∀ filter, artifactType = some filter → extractArtifactType parsed = some filter) ∧
      descriptor = referrerOfBody externals entry.contentType entry.body parsed
  marked : response.ociFiltersApplied = some "artifactType" ↔ artifactType.isSome = true

/-- A manifest of consistent content is found by the digest of its body. -/
theorem getManifest_sha256_iff {externals : Externals} {data : StateMachineData}
    (consistent : data.content.Consistent externals.sha256) {name : String}
    {entry : ManifestEntry} :
    data.getManifest name (Digest.sha256 externals.sha256 entry.body).toStr = some entry ↔
      data.content.entry? name entry.digest.toStr = some entry := by
  rw [getManifest_eq_resolve, Content.resolve, if_pos (Content.isDigestReference_sha256 _ _)]
  constructor
  · intro found
    rwa [consistent.addressed _ _ _ found]
  · intro found
    rwa [consistent.addressed _ _ _ found] at found

/-- An entry that says what its body says is one of the subject's if its body names the subject. -/
theorem ManifestEntry.Describes.subject_iff {externals : Externals} {entry : ManifestEntry}
    {parsed : Value} (describes : entry.Describes externals)
    (parses : externals.fromSlice entry.body = some parsed) {subject : Digest}
    (checked : subject.Checked) :
    entry.subject.map Digest.toStr = some subject.toStr ↔
      extractSubjectDigest parsed = some subject := by
  obtain ⟨again, parsesAgain, stated, _⟩ := describes
  obtain rfl := Option.some.inj (parsesAgain.symm.trans parses)
  rw [stated, Option.map_eq_some_iff]
  constructor
  · rintro ⟨digest, named, same⟩
    rw [named, (checked_of_extractSubjectDigest named).eq_of_toStr checked same]
  · intro named
    exact ⟨subject, named, rfl⟩

theorem ManifestEntry.Describes.descriptor_eq {externals : Externals} {entry : ManifestEntry}
    {parsed : Value} (describes : entry.Describes externals)
    (parses : externals.fromSlice entry.body = some parsed)
    (addressed : entry.digest = Digest.sha256 externals.sha256 entry.body) :
    entry.referrer.descriptor =
      referrerOfBody externals entry.contentType entry.body parsed := by
  obtain ⟨again, parsesAgain, _, artifactType, annotations⟩ := describes
  obtain rfl := Option.some.inj (parsesAgain.symm.trans parses)
  rw [referrerOfBody, ← artifactType, ← annotations, ← addressed]
  rfl

theorem mem_descriptors {externals : Externals} {data : StateMachineData}
    (consistent : data.content.Consistent externals.sha256)
    (described : AllEntries (ManifestEntry.Describes externals) data) {name : String}
    {subject : Digest} (checked : subject.Checked) {artifactType : Option String}
    {descriptor : ReferrerDescriptor} :
    descriptor ∈ (data.listReferrers name subject.toStr artifactType).map
        ReferrerEntry.descriptor ↔ ∃ entry parsed,
      data.getManifest name (Digest.sha256 externals.sha256 entry.body).toStr = some entry ∧
        externals.fromSlice entry.body = some parsed ∧
        extractSubjectDigest parsed = some subject ∧
        (∀ filter, artifactType = some filter → extractArtifactType parsed = some filter) ∧
        descriptor = referrerOfBody externals entry.contentType entry.body parsed := by
  have describes : ∀ entry, data.content.entry? name entry.digest.toStr = some entry →
      entry.Describes externals := by
    intro entry found
    obtain ⟨repo, repoFound, entryFound⟩ := Option.bind_eq_some_iff.mp found
    exact described name repo _ entry repoFound entryFound
  simp only [getManifest_sha256_iff consistent]
  rw [List.mem_map]
  constructor
  · rintro ⟨referrer, member, rfl⟩
    obtain ⟨entry, found, named, asked, rfl⟩ :=
      (StateMachineData.mem_listReferrers consistent.keyed).mp member
    obtain ⟨parsed, parses, _, ofType, _⟩ := describes entry found
    refine ⟨entry, parsed, found, parses,
      ((describes entry found).subject_iff parses checked).mp named,
      fun filter wanted => ofType.symm.trans (asked filter wanted), ?_⟩
    exact (describes entry found).descriptor_eq parses (consistent.addressed _ _ _ found)
  · rintro ⟨entry, parsed, found, parses, named, asked, rfl⟩
    refine ⟨entry.referrer, ?_, (describes entry found).descriptor_eq parses
      (consistent.addressed _ _ _ found)⟩
    refine (StateMachineData.mem_listReferrers consistent.keyed).mpr ⟨entry, found,
      ((describes entry found).subject_iff parses checked).mpr named,
      fun filter wanted => ?_, rfl⟩
    obtain ⟨again, parsesAgain, _, ofType, _⟩ := describes entry found
    obtain rfl := Option.some.inj (parsesAgain.symm.trans parses)
    exact ofType.trans (asked filter wanted)

/-- In every state that is reached by pushes of entries made from their bodies, the referrers of a
digest are the manifests of the repository whose own body names it, whether or not the manifest
with that digest is there. Each is listed once, and the digest it is listed under is the one of its
body and downloads it. A text that is no digest is refused. -/
theorem referrers_are_read_off_bodies (externals : Externals) {labels : List (Nat × Request)}
    {data : StateMachineData} (written : ∀ label ∈ labels, WritesFromBody externals label.2)
    (reached : run (requestStep externals) StateMachineData.empty labels = some data)
    (name digestStr : String) (query : Option (List Char)) :
    (Digest.fromStrChecked digestStr = none →
      dispatchReferrers data .get name digestStr query = .error (.digestInvalid digestStr)) ∧
    ∀ subject, Digest.fromStrChecked digestStr = some subject →
      ∃ response, dispatchReferrers data .get name digestStr query = .ok response ∧
        ReferrersAnswered externals data name subject (queryParams query)["artifactType"]?
          response := by
  have consistent := content_consistent reached fun label member =>
    (written label member).addressed
  have described := describes_of_reached written reached
  simp only [dispatchReferrers, ne_eq, not_true_eq_false, if_false, getReferrers]
  constructor
  · intro malformed
    rw [malformed]
  · intro subject parsed
    rw [parsed]
    refine ⟨_, rfl, ?_, fun descriptor => ?_, ?_⟩
    · rw [List.map_map]
      exact StateMachineData.nodup_listReferrers consistent.keyed _ _ _
    · exact mem_descriptors consistent described (Digest.checked_of_fromStrChecked parsed)
    · cases (queryParams query)["artifactType"]? with
      | none => exact iff_of_false nofun nofun
      | some filter => exact iff_of_true rfl rfl

/-- The manifest of a bill of materials for the empty object. -/
def sampleReferrerBody : List UInt8 :=
  ("\x7b\"artifactType\":\"application/vnd.example.sbom\",\"subject\":\x7b\"digest\":" ++
    "\"sha256:44136fa355b3678a1146ad16f7e8649e94fb4fc21fe77e8310c060f61caaff8a\"\x7d\x7d"
    ).toUTF8.toList

def sampleReferrerValue : Value :=
  .object [("artifactType", .string "application/vnd.example.sbom"),
    ("subject", .object [("digest", .string
      "sha256:44136fa355b3678a1146ad16f7e8649e94fb4fc21fe77e8310c060f61caaff8a")])]

/-- Functions of other packages for runs that push that manifest; the hash is the one of its
body. -/
def referrerExternals : Externals :=
  { sampleExternals with
    fromSlice := fun _ => some sampleReferrerValue
    sha256 := fun _ =>
      #v[0xa6, 0x3f, 0x90, 0xd4, 0x87, 0xd1, 0x96, 0x85, 0x1c, 0x7c, 0x7a, 0x2f, 0xa4, 0x41, 0x94,
        0xc0, 0xa6, 0x82, 0x69, 0xbc, 0x41, 0xaa, 0x18, 0xd1, 0xa6, 0xa3, 0xe2, 0xdc, 0x0b, 0x16,
        0xd9, 0x1f] }

def sampleReferrerEntry : ManifestEntry :=
  ManifestEntry.fromParsedJson referrerExternals.sha256 2 sampleReferrerValue
    "application/vnd.oci.artifact.manifest.v1+json" sampleReferrerBody []

/-- The manifest is pushed under a tag; its subject never is. -/
def sampleReferrerWrites : List (Nat × Request) :=
  [(1, sampleClaim "alice" "first" false),
    (2, .manifest (.putManifest (putManifestWithExpectedNamespace "alice/app" "sbom"
      sampleReferrerEntry (some ⟨"alice", 1⟩) true)))]

theorem referrers_are_read_off_bodies_sample :
    ∃ data response, run (requestStep referrerExternals) StateMachineData.empty
        sampleReferrerWrites = some data ∧
      dispatchReferrers data .get "alice/app"
        "sha256:44136fa355b3678a1146ad16f7e8649e94fb4fc21fe77e8310c060f61caaff8a"
        (some "artifactType=application%2Fvnd.example.sbom".toList) = .ok response ∧
      referrerOfBody referrerExternals "application/vnd.oci.artifact.manifest.v1+json"
        sampleReferrerBody sampleReferrerValue ∈ response.index.manifests := by
  have reached : (run (requestStep referrerExternals) StateMachineData.empty
      sampleReferrerWrites).any (fun data => (data.getManifest "alice/app"
        (Digest.sha256 referrerExternals.sha256 sampleReferrerBody).toStr).any fun entry =>
          entry.body = sampleReferrerBody ∧
            entry.contentType = "application/vnd.oci.artifact.manifest.v1+json") = true := by
    decide +kernel
  obtain ⟨data, reached, pushed⟩ := (Option.any_eq_true ..).mp reached
  obtain ⟨entry, found, same⟩ := (Option.any_eq_true ..).mp pushed
  obtain ⟨sameBody, sameType⟩ := of_decide_eq_true same
  have written : ∀ label ∈ sampleReferrerWrites, WritesFromBody referrerExternals label.2 := by
    intro label member
    rcases List.mem_cons.mp member with rfl | member
    · trivial
    · obtain rfl := List.mem_singleton.mp member
      exact ⟨_, _, _, _, _, rfl, ⟨sampleReferrerValue, 2, rfl, rfl⟩, by decide, by decide⟩
  have parsed : (Digest.fromStrChecked
      "sha256:44136fa355b3678a1146ad16f7e8649e94fb4fc21fe77e8310c060f61caaff8a").isSome = true ∧
      Digest.fromStrChecked
        "sha256:44136fa355b3678a1146ad16f7e8649e94fb4fc21fe77e8310c060f61caaff8a" =
          extractSubjectDigest sampleReferrerValue := by decide +kernel
  obtain ⟨subject, named⟩ := Option.isSome_iff_exists.mp parsed.1
  obtain ⟨response, answered, exactly⟩ :=
    (referrers_are_read_off_bodies referrerExternals written reached "alice/app" _
      (some "artifactType=application%2Fvnd.example.sbom".toList)).2 subject named
  refine ⟨data, response, reached, answered, (exactly.listed _).mpr ⟨entry, sampleReferrerValue,
    sameBody ▸ found, rfl, parsed.2.symm.trans named, ?_, by rw [sameBody, sameType]⟩⟩
  have asked : (queryParams (some "artifactType=application%2Fvnd.example.sbom".toList))[
      "artifactType"]? = extractArtifactType sampleReferrerValue := by decide +kernel
  intro filter wanted
  exact asked.symm.trans wanted

end Layerhouse
