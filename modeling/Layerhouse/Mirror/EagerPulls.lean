/-
This file is the eager pull of `mirror/mod.rs`: `store_manifest_recursive` walks an index
and its children with a stack and a set of the hashes it has visited, pulls the blobs of
every image manifest, and stores each manifest after its children.

A pull that returns has stored a complete image when the upstream and the local store are
in order: every child that an index names has a size, what is served for a child hashes to
the digest it is named by, and every blob that a manifest refers to has a size or is there
already. The walk skips descriptors without a size, though the stored manifest counts them,
and files a child under the hash of what it received, so otherwise an image can be left
incomplete without an error.
-/

import Layerhouse.Routes.ReadBack

namespace Layerhouse

/-! ### Descriptors -/

/-- `ManifestData`, without the digest that nothing reads. -/
structure ManifestData where
  body : List UInt8
  contentType : String
deriving DecidableEq

structure BlobDescriptor where
  digest : String
  size : Nat
deriving DecidableEq

def isIndexManifest (contentType : String) : Bool :=
  contentType ∈ ["application/vnd.oci.image.index.v1+json",
    "application/vnd.docker.distribution.manifest.list.v2+json"]

def extractBlobDescriptors (manifest : Value) : List BlobDescriptor :=
  (extractSizedReferencedDescriptors manifest).map fun descriptor =>
    ⟨descriptor.digest.toStr, descriptor.size⟩

def childDescriptor (value : Value) : Option BlobDescriptor := do
  let digest ← (← value.get "digest").asStr
  let size ← (← value.get "size").asU64
  return { digest, size }

def childEntries (index : Value) : List Value :=
  ((index.get "manifests").bind Value.asArray).getD []

def extractChildManifests (index : Value) : List BlobDescriptor :=
  (childEntries index).filterMap childDescriptor

/-- The child digests that an index names, with a size or without. -/
def namedChildren (index : Value) : List String :=
  (childEntries index).filterMap fun value => (value.get "digest").bind Value.asStr

/-! ### The pull -/

/-- What an upstream serves, as any function. -/
structure Upstream where
  manifest : String → Except LayerhouseError ManifestData
  blob : String → Except LayerhouseError (List UInt8)

/-- The metadata and the blobs of the registry. -/
structure PullStore where
  data : StateMachineData
  blobs : BTreeMap String (List UInt8)

/-- A pull into a repository. -/
structure EagerPull where
  externals : Externals
  now : Nat
  repoName : String
  upstream : Upstream

inductive Frame where
  | process (reference : String) (manifest : ManifestData)
  | store (reference : String) (manifest : ManifestData) (parsed : Value)

/-- The variables of the loop. The top of the stack comes first. -/
structure Traversal where
  stack : List Frame
  visited : List String
  store : PullStore

namespace EagerPull

variable (pull : EagerPull)

/-- The digest of a manifest as text. -/
def hash (manifest : ManifestData) : String :=
  (Digest.sha256 pull.externals.sha256 manifest.body).toStr

def putStreaming (blobs : BTreeMap String (List UInt8)) (digest : Digest) (bytes : List UInt8) :
    Except LayerhouseError (BTreeMap String (List UInt8)) :=
  let actual := Digest.sha256 pull.externals.sha256 bytes
  if actual ≠ digest then
    .error (.s3 ("digest mismatch: expected " ++ digest.toStr ++ ", got " ++ actual.toStr))
  else .ok (blobs.insert digest.toStr bytes)

/-- One round of the loop of `pull_blobs`. -/
def pullBlob (blobs : BTreeMap String (List UInt8)) (blob : BlobDescriptor) :
    Except LayerhouseError (BTreeMap String (List UInt8)) :=
  match Digest.fromStrChecked blob.digest with
  | none => .ok blobs
  | some digest =>
    if blobs.contains digest.toStr then .ok blobs
    else do
      let bytes ← pull.upstream.blob blob.digest
      pull.putStreaming blobs digest bytes

def pullBlobs (blobs : BTreeMap String (List UInt8)) (descriptors : List BlobDescriptor) :
    Except LayerhouseError (BTreeMap String (List UInt8)) :=
  descriptors.foldlM pull.pullBlob blobs

/-- `put_manifest` of the store, for an entry that was made from a parsed manifest. -/
def putRequest (data : StateMachineData) (reference : String) (manifest : ManifestData)
    (parsed : Value) : PutManifest :=
  let entry := ManifestEntry.fromParsedJson pull.externals.sha256 pull.now parsed
    manifest.contentType manifest.body (extractReferencedDigests parsed)
  { name := pull.repoName
    expectedNamespace := expectedNamespaceForRepository data pull.repoName
    reference := reference
    requireReferenceAbsent := false
    digest := entry.digest.toStr
    contentType := entry.contentType
    body := entry.body
    subject := entry.subject.map Digest.toStr
    artifactType := entry.artifactType
    annotations := entry.annotations
    storedSizeBytes := entry.storedSizeBytes
    manifestSizeBytes := entry.manifestSizeBytes
    createdAt := entry.createdAt
    lastModified := entry.lastModified
    configSummary := entry.configSummary
    referencedBlobs := entry.referencedBlobs.map Digest.toStr }

def putManifest (data : StateMachineData) (reference : String) (manifest : ManifestData)
    (parsed : Value) : Except LayerhouseError StateMachineData :=
  match writeManifest pull.externals data
      (.putManifest (pull.putRequest data reference manifest parsed)) with
  | (_, .error error) => .error error
  | (next, .ok _) => .ok next

def putManifestEntry (data : StateMachineData) (reference : String) (manifest : ManifestData)
    (parsed : Value) : Except LayerhouseError StateMachineData := do
  let next ← pull.putManifest data reference manifest parsed
  if reference ≠ pull.hash manifest then
    pull.putManifest next (pull.hash manifest) manifest parsed
  else .ok next

/-- What is processed for a child: the local manifest, or the one of the upstream. -/
def childManifest (data : StateMachineData) (digest : String) :
    Except LayerhouseError ManifestData :=
  match data.getManifest pull.repoName digest with
  | some existing => .ok ⟨existing.body, existing.contentType⟩
  | none => pull.upstream.manifest digest

/-- The children are pushed from the last to the first. -/
def pushChildren (data : StateMachineData) (children : List BlobDescriptor) (stack : List Frame) :
    Except LayerhouseError (List Frame) :=
  children.reverse.foldlM (fun stack child => do
    let manifest ← pull.childManifest data child.digest
    .ok (.process child.digest manifest :: stack)) stack

/-- One round of the loop, with the frame that was popped and the rest of the stack. -/
def step (frame : Frame) (rest : List Frame) (visited : List String) (store : PullStore) :
    Except LayerhouseError Traversal :=
  match frame with
  | .process reference manifest =>
    if pull.hash manifest ∈ visited then .ok ⟨rest, visited, store⟩
    else
      match pull.externals.fromSlice manifest.body with
      | none => .error (.upstream "invalid manifest JSON")
      | some parsed =>
        let visited := pull.hash manifest :: visited
        if isIndexManifest manifest.contentType then do
          let stack ← pull.pushChildren store.data (extractChildManifests parsed)
            (.store reference manifest parsed :: rest)
          .ok ⟨stack, visited, store⟩
        else do
          let blobs ← pull.pullBlobs store.blobs (extractBlobDescriptors parsed)
          let data ← pull.putManifestEntry store.data reference manifest parsed
          .ok ⟨rest, visited, ⟨data, blobs⟩⟩
  | .store reference manifest parsed => do
    let data ← pull.putManifestEntry store.data reference manifest parsed
    .ok ⟨rest, visited, { store with data := data }⟩

/-- The loop, for a number of rounds; `none` when they do not suffice. -/
def loop : Nat → Traversal → Option (Except LayerhouseError PullStore)
  | 0, _ => none
  | rounds + 1, traversal =>
    match traversal.stack with
    | [] => some (.ok traversal.store)
    | frame :: rest =>
      match pull.step frame rest traversal.visited traversal.store with
      | .error error => some (.error error)
      | .ok next => loop rounds next

def storeManifestRecursive (rounds : Nat) (store : PullStore) (reference : String)
    (manifest : ManifestData) : Option (Except LayerhouseError PullStore) :=
  pull.loop rounds ⟨[.process reference manifest], [], store⟩

/-! ### What a pull stores -/

variable {pull}

theorem pullBlob_contains {blobs next : BTreeMap String (List UInt8)} {blob : BlobDescriptor}
    (pulled : pull.pullBlob blobs blob = .ok next) (text : String) :
    next.contains text = true ↔ blobs.contains text = true ∨
      (Digest.fromStrChecked blob.digest).map Digest.toStr = some text := by
  rw [pullBlob] at pulled
  cases checked : Digest.fromStrChecked blob.digest with
  | none =>
    simp only [checked] at pulled
    rw [← Except.ok.inj pulled, Option.map_none]
    simp only [reduceCtorEq, or_false]
  | some digest =>
    simp only [checked] at pulled
    rw [Option.map_some, Option.some.injEq]
    split at pulled
    · rename_i held
      rw [← Except.ok.inj pulled]
      constructor
      · exact Or.inl
      · rintro (kept | rfl)
        · exact kept
        · exact held
    · obtain ⟨bytes, _, stored⟩ := exceptBind_eq_ok.mp pulled
      rw [putStreaming] at stored
      split at stored
      · exact nomatch stored
      · rw [← Except.ok.inj stored, Std.ExtTreeMap.contains_insert, Bool.or_eq_true, or_comm,
          beq_iff_eq, compare_eq_iff_eq]

theorem pullBlobs_contains {blobs next : BTreeMap String (List UInt8)}
    {descriptors : List BlobDescriptor} (pulled : pull.pullBlobs blobs descriptors = .ok next)
    (text : String) :
    next.contains text = true ↔ blobs.contains text = true ∨
      ∃ blob ∈ descriptors, (Digest.fromStrChecked blob.digest).map Digest.toStr = some text := by
  rw [pullBlobs] at pulled
  induction descriptors generalizing blobs with
  | nil =>
    rw [← Except.ok.inj pulled]
    simp only [List.not_mem_nil, false_and, exists_false, or_false]
  | cons blob rest inductionHypothesis =>
    rw [List.foldlM_cons] at pulled
    obtain ⟨between, first, others⟩ := exceptBind_eq_ok.mp pulled
    rw [inductionHypothesis others, pullBlob_contains first, or_assoc, List.exists_mem_cons_iff]

/-- The blobs that are there after those of a manifest were pulled: the ones that it states a size
for are added. -/
theorem pullBlobs_extracted {blobs next : BTreeMap String (List UInt8)} {parsed : Value}
    (pulled : pull.pullBlobs blobs (extractBlobDescriptors parsed) = .ok next) (text : String) :
    next.contains text = true ↔ blobs.contains text = true ∨
      ∃ sized ∈ extractSizedReferencedDescriptors parsed, sized.digest.toStr = text := by
  rw [pullBlobs_contains pulled, extractBlobDescriptors]
  simp only [List.mem_map, exists_exists_and_eq_and]
  refine or_congr_right (exists_congr fun sized => and_congr_right fun member => ?_)
  have checked : Digest.fromStrChecked sized.digest.toStr = some sized.digest :=
    checked_of_mem_extractReferencedDigests (mem_extractReferencedDigests_of_sized member)
  rw [checked, Option.map_some, Option.some.injEq]

/-- The entry is one that was made from the manifest. -/
structure Records (pull : EagerPull) (entry : ManifestEntry) (manifest : ManifestData) :
    Prop where
  body : entry.body = manifest.body
  contentType : entry.contentType = manifest.contentType
  references : ∃ parsed, pull.externals.fromSlice manifest.body = some parsed ∧
    ∀ text, text ∈ entry.blobKeys ↔ text ∈ (extractReferencedDigests parsed).map Digest.toStr

theorem putRequest_records (data : StateMachineData) (reference : String)
    {manifest : ManifestData} {parsed : Value}
    (read : pull.externals.fromSlice manifest.body = some parsed) :
    Records pull ((pull.putRequest data reference manifest parsed).entry pull.externals)
      manifest where
  body := rfl
  contentType := rfl
  references := by
    refine ⟨parsed, read, fun text => ?_⟩
    have kept : ((extractReferencedDigests parsed).map Digest.toStr).filterMap
        Digest.fromStrChecked = extractReferencedDigests parsed := by
      rw [List.filterMap_map]
      refine Eq.trans (List.filterMap_congr fun digest member => ?_) List.filterMap_some
      exact checked_of_mem_extractReferencedDigests member
    rw [ManifestEntry.blobKeys, PutManifest.entry]
    simp only [putRequest, ManifestEntry.fromParsedJson, kept, read, ite_self]
    exact mem_keys_sortDedupDigests

/-- The digest of a manifest is read as a digest. -/
theorem isDigestReference_hash (manifest : ManifestData) :
    Content.IsDigestReference (pull.hash manifest) :=
  Content.isDigestReference_sha256 pull.externals.sha256 manifest.body

/-- An entry for the manifest was stored under its digest, and nothing else of the repository
changed. -/
structure Stores (pull : EagerPull) (data next : StateMachineData) (manifest : ManifestData) :
    Prop where
  entry : ∃ entry, next.content.entry? pull.repoName (pull.hash manifest) = some entry ∧
    Records pull entry manifest
  others : ∀ digest, digest ≠ pull.hash manifest →
    next.content.entry? pull.repoName digest = data.content.entry? pull.repoName digest

theorem putManifest_ok {data next : StateMachineData} {reference : String}
    {manifest : ManifestData} {parsed : Value}
    (read : pull.externals.fromSlice manifest.body = some parsed)
    (put : pull.putManifest data reference manifest parsed = .ok next) :
    Stores pull data next manifest := by
  rw [putManifest] at put
  split at put
  · exact nomatch put
  · rename_i after response written
    obtain rfl := Except.ok.inj put
    have pushed := applyManifest_putManifest_ok (writeManifest_eq_ok written)
    have addressed : (pull.putRequest data reference manifest parsed).Addressed
        pull.externals.sha256 := rfl
    have filed : ((pull.putRequest data reference manifest parsed).entry
        pull.externals).digest.toStr = pull.hash manifest :=
      congrArg Digest.toStr addressed.entry
    constructor
    · rw [pushed]
      exact ⟨_, if_pos ⟨rfl, filed⟩, putRequest_records data reference read⟩
    · intro digest other
      rw [pushed]
      exact if_neg fun same => other (same.2.symm.trans filed)

/-- With both of its writes, a manifest is stored once, under its digest. -/
theorem putManifestEntry_ok {data next : StateMachineData} {reference : String}
    {manifest : ManifestData} {parsed : Value}
    (read : pull.externals.fromSlice manifest.body = some parsed)
    (put : pull.putManifestEntry data reference manifest parsed = .ok next) :
    Stores pull data next manifest := by
  obtain ⟨between, first, second⟩ := exceptBind_eq_ok.mp put
  have once := putManifest_ok read first
  split at second
  · have twice := putManifest_ok read second
    exact ⟨twice.entry, fun digest other => (twice.others digest other).trans
      (once.others digest other)⟩
  · rw [← Except.ok.inj second]
    exact once

/-- The stack after the children of an index were pushed. -/
theorem mem_pushChildren {data : StateMachineData} {children : List BlobDescriptor}
    {stack next : List Frame} (pushed : pull.pushChildren data children stack = .ok next) :
    (∀ frame, frame ∈ next ↔ frame ∈ stack ∨ ∃ child ∈ children, ∃ manifest,
        pull.childManifest data child.digest = .ok manifest ∧
          frame = .process child.digest manifest) ∧
      ∀ child ∈ children, ∃ manifest, pull.childManifest data child.digest = .ok manifest := by
  rw [pushChildren] at pushed
  have reversed : ∀ child, child ∈ children ↔ child ∈ children.reverse :=
    fun child => List.mem_reverse.symm
  simp only [reversed]
  generalize children.reverse = pending at pushed ⊢
  induction pending generalizing stack with
  | nil =>
    rw [← Except.ok.inj pushed]
    simp
  | cons child rest inductionHypothesis =>
    rw [List.foldlM_cons] at pushed
    obtain ⟨between, first, others⟩ := exceptBind_eq_ok.mp pushed
    obtain ⟨manifest, found, first⟩ := exceptBind_eq_ok.mp first
    obtain rfl := Except.ok.inj first
    obtain ⟨frames, answered⟩ := inductionHypothesis others
    constructor
    · intro frame
      rw [frames, List.mem_cons, List.exists_mem_cons_iff, ← or_assoc]
      refine or_congr_left ?_
      rw [or_comm]
      refine or_congr_right ⟨fun same => ⟨manifest, found, same⟩, ?_⟩
      rintro ⟨other, foundOther, same⟩
      rw [same, Except.ok.inj (foundOther.symm.trans found)]
    · intro other member
      rcases List.mem_cons.mp member with rfl | later
      · exact ⟨manifest, found⟩
      · exact answered other later

/-! ### Complete images and well-served pulls -/

/-- The entries of an image that the store holds: the one of the manifest that was pulled, and the
ones under the digests that an index among them names. -/
inductive Held (pull : EagerPull) (final : PullStore) (root : ManifestData) :
    ManifestEntry → Prop where
  | root {entry : ManifestEntry}
      (found : final.data.getManifest pull.repoName (pull.hash root) = some entry) :
      Held pull final root entry
  | child {index entry : ManifestEntry} {parsed : Value} {digest : String}
      (held : Held pull final root index)
      (isIndex : isIndexManifest index.contentType = true)
      (read : pull.externals.fromSlice index.body = some parsed)
      (named : digest ∈ namedChildren parsed)
      (found : final.data.getManifest pull.repoName digest = some entry) :
      Held pull final root entry

/-- The store holds the manifest, every child that an index of the image names, and every blob
that an image manifest of it refers to. -/
structure Complete (pull : EagerPull) (final : PullStore) (root : ManifestData) : Prop where
  held : (final.data.getManifest pull.repoName (pull.hash root)).isSome = true
  children : ∀ index, Held pull final root index → isIndexManifest index.contentType = true →
    ∀ parsed, pull.externals.fromSlice index.body = some parsed →
      ∀ digest ∈ namedChildren parsed, (final.data.getManifest pull.repoName digest).isSome = true
  blobs : ∀ image, Held pull final root image → isIndexManifest image.contentType = false →
    ∀ digest ∈ image.referencedBlobs, final.blobs.contains digest.toStr = true

/-- The manifests that the store and the upstream answer with, from the one that is pulled down
the children with a size. -/
inductive Met (pull : EagerPull) (start : PullStore) (root : ManifestData) :
    ManifestData → Prop where
  | root : Met pull start root root
  | child {index manifest : ManifestData} {parsed : Value} {child : BlobDescriptor}
      (met : Met pull start root index)
      (isIndex : isIndexManifest index.contentType = true)
      (read : pull.externals.fromSlice index.body = some parsed)
      (member : child ∈ extractChildManifests parsed)
      (found : pull.childManifest start.data child.digest = .ok manifest) :
      Met pull start root manifest

/-- Every child that a met index names has a size and is named by the digest of what is answered
for it, and every blob that a met image manifest refers to has a size or is there already. -/
structure WellServed (pull : EagerPull) (start : PullStore) (root : ManifestData) : Prop where
  children : ∀ index, Met pull start root index → isIndexManifest index.contentType = true →
    ∀ parsed, pull.externals.fromSlice index.body = some parsed →
      ∀ digest ∈ namedChildren parsed,
        (∃ child ∈ extractChildManifests parsed, child.digest = digest) ∧
        Content.IsDigestReference digest ∧
        ∀ manifest, pull.childManifest start.data digest = .ok manifest →
          pull.hash manifest = digest
  blobs : ∀ image, Met pull start root image → isIndexManifest image.contentType = false →
    ∀ parsed, pull.externals.fromSlice image.body = some parsed →
      ∀ digest ∈ extractReferencedDigests parsed, start.blobs.contains digest.toStr = true ∨
        ∃ sized ∈ extractSizedReferencedDescriptors parsed, sized.digest = digest

theorem mem_namedChildren {parsed : Value} {child : BlobDescriptor}
    (member : child ∈ extractChildManifests parsed) : child.digest ∈ namedChildren parsed := by
  obtain ⟨value, entry, read⟩ := List.mem_filterMap.mp member
  refine List.mem_filterMap.mpr ⟨value, entry, ?_⟩
  rw [childDescriptor] at read
  obtain ⟨field, named, read⟩ := Option.bind_eq_some_iff.mp read
  obtain ⟨digest, text, read⟩ := Option.bind_eq_some_iff.mp read
  obtain ⟨field, _, read⟩ := Option.bind_eq_some_iff.mp read
  obtain ⟨size, _, read⟩ := Option.bind_eq_some_iff.mp read
  cases read
  rw [named]
  exact text

/-! ### What the walk keeps -/

section Walk

variable (pull) (start : PullStore) (root : ManifestData)

/-- The entries of the repository are those of the start, or were made from visited manifests. -/
structure Filed (data : StateMachineData) (done : List ManifestData) : Prop where
  kept : ∀ digest, (start.data.content.entry? pull.repoName digest).isSome = true →
    (data.content.entry? pull.repoName digest).isSome = true
  entries : ∀ digest entry, data.content.entry? pull.repoName digest = some entry →
    start.data.content.entry? pull.repoName digest = some entry ∨
      ∃ manifest ∈ done, pull.hash manifest = digest ∧ Records pull entry manifest

/-- The entry under the digest of the manifest was made from a visited one. -/
def Stored (data : StateMachineData) (done : List ManifestData) (manifest : ManifestData) : Prop :=
  ∃ entry, data.content.entry? pull.repoName (pull.hash manifest) = some entry ∧
    ∃ origin ∈ done, Records pull entry origin

/-- The digest was visited, or is the one of a manifest that is still to be processed. -/
def Owed (traversal : Traversal) (digest : String) : Prop :=
  digest ∈ traversal.visited ∨
    ∃ reference manifest, .process reference manifest ∈ traversal.stack ∧
      pull.hash manifest = digest

/-- The invariant of the loop, for the list of the manifests that were visited. -/
structure Walk (traversal : Traversal) (done : List ManifestData) : Prop where
  visited : ∀ digest, digest ∈ traversal.visited ↔ ∃ manifest ∈ done, pull.hash manifest = digest
  met : ∀ manifest ∈ done, Met pull start root manifest
  processes : ∀ reference manifest, .process reference manifest ∈ traversal.stack →
    Met pull start root manifest
  stores : ∀ reference manifest parsed, .store reference manifest parsed ∈ traversal.stack →
    manifest ∈ done ∧ pull.externals.fromSlice manifest.body = some parsed
  filed : Filed pull start traversal.store.data done
  settled : ∀ manifest ∈ done, Stored pull traversal.store.data done manifest ∨
    ∃ reference parsed, .store reference manifest parsed ∈ traversal.stack
  blobs : ∀ text, start.blobs.contains text = true → traversal.store.blobs.contains text = true
  images : ∀ manifest ∈ done, isIndexManifest manifest.contentType = false →
    ∀ parsed, pull.externals.fromSlice manifest.body = some parsed →
      ∀ digest ∈ extractReferencedDigests parsed,
        traversal.store.blobs.contains digest.toStr = true
  indexes : ∀ manifest ∈ done, isIndexManifest manifest.contentType = true →
    ∀ parsed, pull.externals.fromSlice manifest.body = some parsed →
      ∀ digest ∈ namedChildren parsed, Owed pull traversal digest
  root : Owed pull traversal (pull.hash root)

variable {pull start root} {traversal : Traversal} {done : List ManifestData}
  {data next : StateMachineData} {manifest : ManifestData}

theorem Filed.put (holds : Filed pull start data done) (stored : Stores pull data next manifest)
    (member : manifest ∈ done) : Filed pull start next done where
  kept := by
    intro digest present
    by_cases same : digest = pull.hash manifest
    · obtain ⟨entry, found, _⟩ := stored.entry
      rw [same, found, Option.isSome_some]
    · rw [stored.others digest same]
      exact holds.kept digest present
  entries := by
    intro digest entry found
    by_cases same : digest = pull.hash manifest
    · obtain ⟨new, lookup, records⟩ := stored.entry
      rw [same, lookup] at found
      obtain rfl := Option.some.inj found
      exact Or.inr ⟨manifest, member, same.symm, records⟩
    · rw [stored.others digest same] at found
      exact holds.entries digest entry found

theorem Filed.visit (holds : Filed pull start data done) (manifest : ManifestData) :
    Filed pull start data (manifest :: done) where
  kept := holds.kept
  entries := by
    intro digest entry found
    refine (holds.entries digest entry found).imp_right ?_
    rintro ⟨origin, member, rest⟩
    exact ⟨origin, List.mem_cons_of_mem manifest member, rest⟩

theorem Stores.stored (stores : Stores pull data next manifest) (member : manifest ∈ done) :
    Stored pull next done manifest := by
  obtain ⟨entry, found, records⟩ := stores.entry
  exact ⟨entry, found, manifest, member, records⟩

theorem Stored.put {other : ManifestData} (holds : Stored pull data done other)
    (stores : Stores pull data next manifest) (member : manifest ∈ done) :
    Stored pull next done other := by
  by_cases same : pull.hash other = pull.hash manifest
  · rw [Stored, same]
    exact stores.stored member
  · obtain ⟨entry, found, origin⟩ := holds
    exact ⟨entry, (stores.others _ same).trans found, origin⟩

theorem Stored.visit {other : ManifestData} (holds : Stored pull data done other)
    (manifest : ManifestData) : Stored pull data (manifest :: done) other := by
  obtain ⟨entry, found, origin, member, records⟩ := holds
  exact ⟨entry, found, origin, List.mem_cons_of_mem manifest member, records⟩

/-- What is found for a child during the walk is a met manifest with the digest of the child. The
store can answer with an entry that the walk has made, where the upstream was asked at first. -/
theorem Walk.found (served : WellServed pull start root)
    (holds : Walk pull start root traversal done) {index : ManifestData}
    (met : Met pull start root index) (isIndex : isIndexManifest index.contentType = true)
    {parsed : Value} (read : pull.externals.fromSlice index.body = some parsed)
    {child : BlobDescriptor} (member : child ∈ extractChildManifests parsed)
    (found : pull.childManifest traversal.store.data child.digest = .ok manifest) :
    Met pull start root manifest ∧ pull.hash manifest = child.digest := by
  obtain ⟨_, digested, honest⟩ :=
    served.children index met isIndex parsed read child.digest (mem_namedChildren member)
  have ofStart : pull.childManifest start.data child.digest = .ok manifest →
      Met pull start root manifest ∧ pull.hash manifest = child.digest := fun answered =>
    ⟨.child met isIndex read member answered, honest manifest answered⟩
  have lookup : ∀ data : StateMachineData, data.getManifest pull.repoName child.digest =
      data.content.entry? pull.repoName child.digest := by
    intro data
    rw [getManifest_eq_resolve, Content.resolve, if_pos digested]
  rw [childManifest, lookup] at found ofStart
  cases present : traversal.store.data.content.entry? pull.repoName child.digest with
  | some entry =>
    rw [present] at found
    obtain rfl := Except.ok.inj found
    rcases holds.filed.entries child.digest entry present with old | ⟨origin, member, same, records⟩
    · exact ofStart (by rw [old])
    · rw [records.body, records.contentType]
      exact ⟨holds.met origin member, same⟩
  | none =>
    rw [present] at found
    cases before : start.data.content.entry? pull.repoName child.digest with
    | none => exact ofStart (by rw [before]; exact found)
    | some entry =>
      have still := holds.filed.kept child.digest (by rw [before, Option.isSome_some])
      rw [present] at still
      cases still

theorem Owed.mono {after : Traversal} {digest : String} (holds : Owed pull traversal digest)
    (visited : ∀ digest ∈ traversal.visited, digest ∈ after.visited)
    (frames : ∀ reference manifest, .process reference manifest ∈ traversal.stack →
      .process reference manifest ∈ after.stack ∨ pull.hash manifest ∈ after.visited) :
    Owed pull after digest := by
  rcases holds with seen | ⟨reference, manifest, pending, rfl⟩
  · exact Or.inl (visited digest seen)
  · rcases frames reference manifest pending with still | seen
    · exact Or.inr ⟨reference, manifest, still, rfl⟩
    · exact Or.inl seen

variable {reference : String} {rest : List Frame} {visited : List String} {store : PullStore}
  {parsed : Value}

/-- A frame whose manifest was visited is dropped. -/
theorem Walk.skip
    (holds : Walk pull start root ⟨.process reference manifest :: rest, visited, store⟩ done)
    (seen : pull.hash manifest ∈ visited) :
    Walk pull start root ⟨rest, visited, store⟩ done := by
  have owed : ∀ digest, Owed pull ⟨.process reference manifest :: rest, visited, store⟩ digest →
      Owed pull ⟨rest, visited, store⟩ digest := by
    intro digest before
    refine before.mono (fun _ old => old) fun other pending member => ?_
    rcases List.mem_cons.mp member with same | later
    · cases same
      exact Or.inr seen
    · exact Or.inl later
  exact {
    visited := holds.visited
    met := holds.met
    processes := fun other pending member =>
      holds.processes other pending (List.mem_cons_of_mem _ member)
    stores := fun other pending value member =>
      holds.stores other pending value (List.mem_cons_of_mem _ member)
    filed := holds.filed
    settled := by
      intro origin member
      refine (holds.settled origin member).imp_right ?_
      rintro ⟨other, value, pending⟩
      exact ⟨other, value, (List.mem_cons.mp pending).resolve_left nofun⟩
    blobs := holds.blobs
    images := holds.images
    indexes := fun index member isIndex value read digest named =>
      owed digest (holds.indexes index member isIndex value read digest named)
    root := owed _ holds.root }

/-- A manifest whose children are done is stored. -/
theorem Walk.put
    (holds : Walk pull start root ⟨.store reference manifest parsed :: rest, visited, store⟩ done)
    (stored : Stores pull store.data next manifest) :
    Walk pull start root ⟨rest, visited, { store with data := next }⟩ done := by
  obtain ⟨member, _⟩ := holds.stores reference manifest parsed List.mem_cons_self
  have owed : ∀ digest,
      Owed pull ⟨.store reference manifest parsed :: rest, visited, store⟩ digest →
        Owed pull ⟨rest, visited, { store with data := next }⟩ digest := by
    intro digest before
    refine before.mono (fun _ old => old) fun other pending member => ?_
    exact Or.inl ((List.mem_cons.mp member).resolve_left nofun)
  exact {
    visited := holds.visited
    met := holds.met
    processes := fun other pending member =>
      holds.processes other pending (List.mem_cons_of_mem _ member)
    stores := fun other pending value member =>
      holds.stores other pending value (List.mem_cons_of_mem _ member)
    filed := holds.filed.put stored member
    settled := by
      intro origin originMember
      rcases holds.settled origin originMember with old | ⟨other, value, pending⟩
      · exact Or.inl (old.put stored member)
      · rcases List.mem_cons.mp pending with same | later
        · cases same
          exact Or.inl (stored.stored member)
        · exact Or.inr ⟨other, value, later⟩
    blobs := holds.blobs
    images := holds.images
    indexes := fun index member isIndex value read digest named =>
      owed digest (holds.indexes index member isIndex value read digest named)
    root := owed _ holds.root }

/-- The digest of a manifest that is visited now. -/
theorem mem_visited_cons
    (visits : ∀ digest, digest ∈ visited ↔ ∃ manifest ∈ done, pull.hash manifest = digest)
    (digest : String) :
    digest ∈ pull.hash manifest :: visited ↔
      ∃ other ∈ manifest :: done, pull.hash other = digest := by
  rw [List.mem_cons, List.exists_mem_cons_iff, visits digest, eq_comm]

/-- An image manifest is stored after its blobs. -/
theorem Walk.image (served : WellServed pull start root)
    (holds : Walk pull start root ⟨.process reference manifest :: rest, visited, store⟩ done)
    (isImage : isIndexManifest manifest.contentType = false)
    (read : pull.externals.fromSlice manifest.body = some parsed)
    {blobs : BTreeMap String (List UInt8)}
    (pulled : pull.pullBlobs store.blobs (extractBlobDescriptors parsed) = .ok blobs)
    (stored : Stores pull store.data next manifest) :
    Walk pull start root ⟨rest, pull.hash manifest :: visited, ⟨next, blobs⟩⟩
      (manifest :: done) := by
  have met := holds.processes reference manifest List.mem_cons_self
  have owed : ∀ digest, Owed pull ⟨.process reference manifest :: rest, visited, store⟩ digest →
      Owed pull ⟨rest, pull.hash manifest :: visited, ⟨next, blobs⟩⟩ digest := by
    intro digest before
    refine before.mono (fun _ old => List.mem_cons_of_mem _ old) fun other pending member => ?_
    rcases List.mem_cons.mp member with same | later
    · cases same
      exact Or.inr List.mem_cons_self
    · exact Or.inl later
  have grown : ∀ text, store.blobs.contains text = true → blobs.contains text = true :=
    fun text old => (pullBlobs_extracted pulled text).mpr (Or.inl old)
  exact {
    visited := mem_visited_cons holds.visited
    met := List.forall_mem_cons.mpr ⟨met, holds.met⟩
    processes := fun other pending member =>
      holds.processes other pending (List.mem_cons_of_mem _ member)
    stores := fun other pending value member =>
      (holds.stores other pending value (List.mem_cons_of_mem _ member)).imp_left
        (List.mem_cons_of_mem manifest)
    filed := (holds.filed.visit manifest).put stored List.mem_cons_self
    settled := by
      refine List.forall_mem_cons.mpr ⟨Or.inl (stored.stored List.mem_cons_self), ?_⟩
      intro origin member
      rcases holds.settled origin member with old | ⟨other, value, pending⟩
      · exact Or.inl ((old.visit manifest).put stored List.mem_cons_self)
      · exact Or.inr ⟨other, value, (List.mem_cons.mp pending).resolve_left nofun⟩
    blobs := fun text old => grown text (holds.blobs text old)
    images := by
      refine List.forall_mem_cons.mpr ⟨fun _ value readValue digest member => ?_, ?_⟩
      · obtain rfl := Option.some.inj (read.symm.trans readValue)
        rcases served.blobs manifest met isImage parsed read digest member with
          old | ⟨sized, stated, rfl⟩
        · exact grown _ (holds.blobs _ old)
        · exact (pullBlobs_extracted pulled _).mpr (Or.inr ⟨sized, stated, rfl⟩)
      · exact fun origin member image value readValue digest referenced =>
          grown _ (holds.images origin member image value readValue digest referenced)
    indexes := by
      refine List.forall_mem_cons.mpr ⟨fun isIndex => ?_, ?_⟩
      · exact absurd (isIndex.symm.trans isImage) nofun
      · exact fun index member isIndex value readValue digest named =>
          owed digest (holds.indexes index member isIndex value readValue digest named)
    root := owed _ holds.root }

/-- The children of an index are put on the stack above the frame that stores it. -/
theorem Walk.index (served : WellServed pull start root)
    (holds : Walk pull start root ⟨.process reference manifest :: rest, visited, store⟩ done)
    (isIndex : isIndexManifest manifest.contentType = true)
    (read : pull.externals.fromSlice manifest.body = some parsed) {stack : List Frame}
    (pushed : pull.pushChildren store.data (extractChildManifests parsed)
      (.store reference manifest parsed :: rest) = .ok stack) :
    Walk pull start root ⟨stack, pull.hash manifest :: visited, store⟩ (manifest :: done) := by
  have met := holds.processes reference manifest List.mem_cons_self
  obtain ⟨frames, answered⟩ := mem_pushChildren pushed
  have below : ∀ frame ∈ rest, frame ∈ stack := fun frame member =>
    (frames frame).mpr (Or.inl (List.mem_cons_of_mem _ member))
  have owed : ∀ digest, Owed pull ⟨.process reference manifest :: rest, visited, store⟩ digest →
      Owed pull ⟨stack, pull.hash manifest :: visited, store⟩ digest := by
    intro digest before
    refine before.mono (fun _ old => List.mem_cons_of_mem _ old) fun other pending member => ?_
    rcases List.mem_cons.mp member with same | later
    · cases same
      exact Or.inr List.mem_cons_self
    · exact Or.inl (below _ later)
  exact {
    visited := mem_visited_cons holds.visited
    met := List.forall_mem_cons.mpr ⟨met, holds.met⟩
    processes := by
      intro other pending member
      rcases (frames _).mp member with old | ⟨child, childMember, found, answer, same⟩
      · exact holds.processes other pending
          (List.mem_cons_of_mem _ ((List.mem_cons.mp old).resolve_left nofun))
      · cases same
        exact (holds.found served met isIndex read childMember answer).1
    stores := by
      intro other pending value member
      rcases (frames _).mp member with old | ⟨child, _, found, _, same⟩
      · rcases List.mem_cons.mp old with same | later
        · cases same
          exact ⟨List.mem_cons_self, read⟩
        · exact (holds.stores other pending value (List.mem_cons_of_mem _ later)).imp_left
            (List.mem_cons_of_mem manifest)
      · exact nomatch same
    filed := holds.filed.visit manifest
    settled := by
      refine List.forall_mem_cons.mpr
        ⟨Or.inr ⟨reference, parsed, (frames _).mpr (Or.inl List.mem_cons_self)⟩, ?_⟩
      intro origin member
      rcases holds.settled origin member with old | ⟨other, value, pending⟩
      · exact Or.inl (old.visit manifest)
      · exact Or.inr ⟨other, value, below _ ((List.mem_cons.mp pending).resolve_left nofun)⟩
    blobs := holds.blobs
    images := by
      refine List.forall_mem_cons.mpr ⟨fun isImage => ?_, holds.images⟩
      exact absurd (isIndex.symm.trans isImage) nofun
    indexes := by
      refine List.forall_mem_cons.mpr ⟨fun _ value readValue digest named => ?_, ?_⟩
      · obtain rfl := Option.some.inj (read.symm.trans readValue)
        obtain ⟨child, member, rfl⟩ := (served.children manifest met isIndex parsed read digest
          named).1
        obtain ⟨found, answer⟩ := answered child member
        exact Or.inr ⟨child.digest, found, (frames _).mpr (Or.inr ⟨child, member, found, answer,
          rfl⟩), (holds.found served met isIndex read member answer).2⟩
      · exact fun index member isIndex value readValue digest named =>
          owed digest (holds.indexes index member isIndex value readValue digest named)
    root := owed _ holds.root }

theorem Walk.initial (reference : String) :
    Walk pull start root ⟨[.process reference root], [], start⟩ [] where
  visited := by
    intro digest
    simp only [List.not_mem_nil, false_and, exists_false]
  met := nofun
  processes := by
    intro other pending member
    cases List.mem_singleton.mp member
    exact .root
  stores := fun other pending value member => nomatch List.mem_singleton.mp member
  filed := ⟨fun digest present => present, fun digest entry found => Or.inl found⟩
  settled := nofun
  blobs := fun text old => old
  images := nofun
  indexes := nofun
  root := Or.inr ⟨reference, root, List.mem_singleton_self _, rfl⟩

theorem Walk.step (served : WellServed pull start root) {frame : Frame} {after : Traversal}
    (holds : Walk pull start root ⟨frame :: rest, visited, store⟩ done)
    (stepped : pull.step frame rest visited store = .ok after) :
    ∃ done, Walk pull start root after done := by
  cases frame with
  | process reference manifest =>
    simp only [EagerPull.step] at stepped
    split at stepped
    · rename_i seen
      rw [← Except.ok.inj stepped]
      exact ⟨done, holds.skip seen⟩
    · split at stepped
      · exact nomatch stepped
      · rename_i parsed read
        split at stepped
        · rename_i isIndex
          obtain ⟨stack, pushed, same⟩ := exceptBind_eq_ok.mp stepped
          rw [← Except.ok.inj same]
          exact ⟨manifest :: done, holds.index served isIndex read pushed⟩
        · rename_i isImage
          obtain ⟨blobs, pulled, stepped⟩ := exceptBind_eq_ok.mp stepped
          obtain ⟨data, put, same⟩ := exceptBind_eq_ok.mp stepped
          rw [← Except.ok.inj same]
          exact ⟨manifest :: done, holds.image served (Bool.eq_false_iff.mpr isImage) read pulled
            (putManifestEntry_ok read put)⟩
  | store reference manifest parsed =>
    obtain ⟨_, read⟩ := holds.stores reference manifest parsed List.mem_cons_self
    obtain ⟨data, put, same⟩ := exceptBind_eq_ok.mp stepped
    rw [← Except.ok.inj same]
    exact ⟨done, holds.put (putManifestEntry_ok read put)⟩

/-- The invariant at the end of the loop, where the stack is empty. -/
theorem Walk.loop (served : WellServed pull start root) {rounds : Nat} {final : PullStore}
    (holds : Walk pull start root traversal done)
    (returned : pull.loop rounds traversal = some (.ok final)) :
    ∃ visited done, Walk pull start root ⟨[], visited, final⟩ done := by
  induction rounds generalizing traversal done with
  | zero => exact nomatch returned
  | succ rounds inductionHypothesis =>
    obtain ⟨stack, visited, store⟩ := traversal
    cases stack with
    | nil =>
      rw [← Except.ok.inj (Option.some.inj returned)]
      exact ⟨visited, done, holds⟩
    | cons frame rest =>
      simp only [EagerPull.loop] at returned
      split at returned
      · exact nomatch Option.some.inj returned
      · rename_i after stepped
        obtain ⟨next, preserved⟩ := holds.step served stepped
        exact inductionHypothesis preserved returned

theorem Walk.getManifest {final : PullStore}
    (holds : Walk pull start root ⟨[], visited, final⟩ done) {digest : String}
    (digested : Content.IsDigestReference digest) (owed : Owed pull ⟨[], visited, final⟩ digest) :
    ∃ entry, final.data.getManifest pull.repoName digest = some entry ∧
      ∃ origin ∈ done, Records pull entry origin := by
  rcases owed with seen | ⟨reference, manifest, pending, _⟩
  · obtain ⟨manifest, member, rfl⟩ := (holds.visited digest).mp seen
    rcases holds.settled manifest member with stored | ⟨reference, parsed, pending⟩
    · rw [getManifest_eq_resolve, Content.resolve, if_pos digested]
      exact stored
    · cases pending
  · cases pending

/-- When the loop ends, every entry of the image was made from a visited manifest. -/
theorem Walk.held (served : WellServed pull start root) {final : PullStore}
    (holds : Walk pull start root ⟨[], visited, final⟩ done) {entry : ManifestEntry}
    (held : Held pull final root entry) : ∃ origin ∈ done, Records pull entry origin := by
  induction held with
  | root found =>
    obtain ⟨stored, lookup, origin⟩ := holds.getManifest (isDigestReference_hash root) holds.root
    obtain rfl := Option.some.inj (lookup.symm.trans found)
    exact origin
  | child _ isIndex read named found inductionHypothesis =>
    obtain ⟨index, member, records⟩ := inductionHypothesis
    rw [records.contentType] at isIndex
    rw [records.body] at read
    obtain ⟨_, digested, _⟩ :=
      served.children index (holds.met index member) isIndex _ read _ named
    obtain ⟨stored, lookup, origin⟩ :=
      holds.getManifest digested (holds.indexes index member isIndex _ read _ named)
    obtain rfl := Option.some.inj (lookup.symm.trans found)
    exact origin

theorem Walk.complete (served : WellServed pull start root) {final : PullStore}
    (holds : Walk pull start root ⟨[], visited, final⟩ done) : Complete pull final root where
  held := by
    obtain ⟨entry, found, _⟩ := holds.getManifest (isDigestReference_hash root) holds.root
    rw [found, Option.isSome_some]
  children := by
    intro entry held isIndex parsed read digest named
    obtain ⟨index, member, records⟩ := holds.held served held
    rw [records.contentType] at isIndex
    rw [records.body] at read
    obtain ⟨_, digested, _⟩ :=
      served.children index (holds.met index member) isIndex parsed read digest named
    obtain ⟨child, found, _⟩ :=
      holds.getManifest digested (holds.indexes index member isIndex parsed read digest named)
    rw [found, Option.isSome_some]
  blobs := by
    intro entry held isImage digest referenced
    obtain ⟨image, member, records⟩ := holds.held served held
    rw [records.contentType] at isImage
    obtain ⟨parsed, read, references⟩ := records.references
    obtain ⟨same, stated, text⟩ :=
      List.mem_map.mp ((references digest.toStr).mp (List.mem_map_of_mem referenced))
    rw [← text]
    exact holds.images image member isImage parsed read same stated

end Walk

/-! ### Pulls of one image manifest -/

variable {start final : PullStore} {root : ManifestData} {rounds : Nat} {reference : String}

theorem storeManifestRecursive_image (isImage : isIndexManifest root.contentType = false)
    (returned : pull.storeManifestRecursive rounds start reference root = some (.ok final)) :
    ∃ parsed, pull.externals.fromSlice root.body = some parsed ∧
      pull.pullBlobs start.blobs (extractBlobDescriptors parsed) = .ok final.blobs ∧
      Stores pull start.data final.data root := by
  cases rounds with
  | zero => exact nomatch returned
  | succ rounds =>
    simp only [storeManifestRecursive, loop, step, List.not_mem_nil, if_false] at returned
    split at returned
    · exact nomatch Option.some.inj returned
    · rename_i after stepped
      split at stepped
      · exact nomatch stepped
      · rename_i parsed read
        rw [if_neg (by rw [isImage]; exact Bool.false_ne_true)] at stepped
        obtain ⟨blobs, pulled, stepped⟩ := exceptBind_eq_ok.mp stepped
        obtain ⟨data, put, same⟩ := exceptBind_eq_ok.mp stepped
        obtain rfl := Except.ok.inj same
        cases rounds with
        | zero => exact nomatch returned
        | succ rounds =>
          obtain rfl := Except.ok.inj (Option.some.inj returned)
          exact ⟨parsed, read, pulled, putManifestEntry_ok read put⟩

/-- A pulled image manifest that is complete stated a size for every blob that was not there. -/
theorem wellServed_of_image_complete (isImage : isIndexManifest root.contentType = false)
    (returned : pull.storeManifestRecursive rounds start reference root = some (.ok final))
    (complete : Complete pull final root) : WellServed pull start root := by
  obtain ⟨parsed, read, pulled, stored⟩ := storeManifestRecursive_image isImage returned
  obtain ⟨entry, found, records⟩ := stored.entry
  have alone : ∀ manifest, Met pull start root manifest → manifest = root := by
    intro manifest met
    induction met with
    | root => rfl
    | child _ isIndex _ _ _ inductionHypothesis =>
      rw [inductionHypothesis] at isIndex
      exact absurd (isIndex.symm.trans isImage) nofun
  constructor
  · intro index met isIndex
    rw [alone index met] at isIndex
    exact absurd (isIndex.symm.trans isImage) nofun
  · intro image met _ value readValue digest stated
    rw [alone image met] at readValue
    obtain ⟨other, readOther, references⟩ := records.references
    obtain rfl := Option.some.inj (read.symm.trans readValue)
    obtain rfl := Option.some.inj (read.symm.trans readOther)
    have held : Held pull final root entry := by
      refine .root ?_
      rw [getManifest_eq_resolve, Content.resolve, if_pos (isDigestReference_hash root)]
      exact found
    obtain ⟨kept, referenced, text⟩ :=
      List.mem_map.mp ((references digest.toStr).mpr (List.mem_map_of_mem stated))
    have present := complete.blobs entry held (by rw [records.contentType]; exact isImage) kept
      referenced
    rw [text, pullBlobs_extracted pulled] at present
    refine present.imp_right ?_
    rintro ⟨sized, listed, same⟩
    have checkedSized : sized.digest.Checked :=
      checked_of_mem_extractReferencedDigests (mem_extractReferencedDigests_of_sized listed)
    have checked : digest.Checked := checked_of_mem_extractReferencedDigests stated
    rw [Digest.Checked, same] at checkedSized
    exact ⟨sized, listed, Option.some.inj (checkedSized.symm.trans checked)⟩

/-- A pull that returns has stored a complete image if every child that an index names has a size
and is named by the digest of what is answered for it, and every blob that an image manifest
refers to has a size or was there before. For a pull of an image manifest, only if. -/
theorem eager_pull_is_complete (pull : EagerPull) (start final : PullStore) (reference : String)
    (root : ManifestData) (rounds : Nat)
    (returned : pull.storeManifestRecursive rounds start reference root = some (.ok final)) :
    (WellServed pull start root → Complete pull final root) ∧
      (isIndexManifest root.contentType = false →
        (Complete pull final root ↔ WellServed pull start root)) := by
  have enough : WellServed pull start root → Complete pull final root := by
    intro served
    obtain ⟨visited, done, walked⟩ := (Walk.initial reference).loop served returned
    exact walked.complete served
  exact ⟨enough, fun isImage => ⟨wellServed_of_image_complete isImage returned, enough⟩⟩

/-- The bytes of a text in ASCII. -/
def sampleBytes (text : String) : List UInt8 :=
  text.toList.map fun char => char.toNat.toUInt8

/-- The digest of the empty object, which is the layer of the images below. -/
def sampleLayerDigest : String :=
  "sha256:44136fa355b3678a1146ad16f7e8649e94fb4fc21fe77e8310c060f61caaff8a"

def sampleImageDigest : String :=
  "sha256:134bfc93baf8889def09a5ee6533f25754bf2251755ed4ed3c96e788783734ea"

/-- An image manifest with one layer, whose size is stated. -/
def samplePulledImage : ManifestData where
  body := sampleBytes ("\x7b\"layers\":[\x7b\"digest\":\"" ++ sampleLayerDigest ++
    "\",\"size\":2\x7d]\x7d")
  contentType := "application/vnd.oci.image.manifest.v1+json"

/-- The same manifest without the size of its layer. -/
def sampleUnsizedImage : ManifestData where
  body := sampleBytes ("\x7b\"layers\":[\x7b\"digest\":\"" ++ sampleLayerDigest ++ "\"\x7d]\x7d")
  contentType := "application/vnd.oci.image.manifest.v1+json"

/-- An index of the image. -/
def samplePulledIndex : ManifestData where
  body := sampleBytes ("\x7b\"manifests\":[\x7b\"digest\":\"" ++ sampleImageDigest ++
    "\",\"size\":106\x7d]\x7d")
  contentType := "application/vnd.oci.image.index.v1+json"

def samplePulledIndexValue : Value :=
  .object [("manifests", .array
    [.object [("digest", .string sampleImageDigest), ("size", .number (.unsigned 106))]])]

def samplePulledImageValue : Value :=
  .object [("layers", .array
    [.object [("digest", .string sampleLayerDigest), ("size", .number (.unsigned 2))]])]

/-- A pull from an upstream that serves the image and its layer, with the parser and the hash on
the bodies above. -/
def sampleEagerPull : EagerPull where
  externals := { emptyObjectExternals with
    fromSlice := fun body =>
      if body = samplePulledIndex.body then some samplePulledIndexValue
      else if body = samplePulledImage.body then some samplePulledImageValue
      else if body = sampleUnsizedImage.body then
        some (.object [("layers", .array [.object [("digest", .string sampleLayerDigest)]])])
      else some (.object [])
    sha256 := fun body =>
      if body = samplePulledIndex.body then
        #v[0x8a, 0x90, 0x15, 0x4e, 0x54, 0xa4, 0x4b, 0x5e, 0x6f, 0xc3, 0x19, 0x0f, 0xce, 0x25,
          0xe7, 0x3e, 0xb4, 0x05, 0xe6, 0xbf, 0x13, 0xc4, 0xeb, 0xe3, 0x79, 0xc0, 0xa5, 0x07,
          0xa0, 0x4f, 0x1a, 0xcc]
      else if body = samplePulledImage.body then
        #v[0x13, 0x4b, 0xfc, 0x93, 0xba, 0xf8, 0x88, 0x9d, 0xef, 0x09, 0xa5, 0xee, 0x65, 0x33,
          0xf2, 0x57, 0x54, 0xbf, 0x22, 0x51, 0x75, 0x5e, 0xd4, 0xed, 0x3c, 0x96, 0xe7, 0x88,
          0x78, 0x37, 0x34, 0xea]
      else if body = sampleUnsizedImage.body then
        #v[0x29, 0xb5, 0x46, 0x18, 0x84, 0x7d, 0xe0, 0xa3, 0x39, 0x35, 0x16, 0xff, 0xb3, 0x07,
          0x03, 0x48, 0x85, 0xdb, 0x05, 0xbe, 0xfb, 0x8f, 0x43, 0x86, 0x14, 0x64, 0x41, 0x4e,
          0x5c, 0x69, 0xfa, 0x13]
      else emptyObjectExternals.sha256 body }
  now := 1
  repoName := "users/alice/app"
  upstream :=
    { manifest := fun reference =>
        if reference = sampleImageDigest then .ok samplePulledImage
        else .error (.manifestUnknown reference)
      blob := fun digest =>
        if digest = sampleLayerDigest then .ok (sampleBytes "\x7b\x7d")
        else .error (.blobUnknown digest) }

/-- An empty registry. -/
def samplePullStore : PullStore := ⟨.empty, ∅⟩

/-- What a concrete pull that returns leaves. -/
def pulledStore (outcome : Option (Except LayerhouseError PullStore)) : Option PullStore :=
  match outcome with
  | some (.ok final) => some final
  | _ => none

theorem pulledStore_eq_some {outcome : Option (Except LayerhouseError PullStore)}
    {final : PullStore} (pulled : pulledStore outcome = some final) :
    outcome = some (.ok final) := by
  obtain _ | _ | store := outcome
  · exact nomatch pulled
  · exact nomatch pulled
  · rw [Option.some.inj pulled]

theorem sampleEagerPull_served :
    WellServed sampleEagerPull samplePullStore samplePulledIndex := by
  have readIndex : sampleEagerPull.externals.fromSlice samplePulledIndex.body =
      some samplePulledIndexValue := by
    simp only [sampleEagerPull, if_true]
  have readImage : sampleEagerPull.externals.fromSlice samplePulledImage.body =
      some samplePulledImageValue := by
    have different : samplePulledImage.body ≠ samplePulledIndex.body := by decide +kernel
    simp only [sampleEagerPull, different, if_true, if_false]
  have children : extractChildManifests samplePulledIndexValue = [⟨sampleImageDigest, 106⟩] := by
    decide +kernel
  have answer : sampleEagerPull.childManifest samplePullStore.data sampleImageDigest =
      .ok samplePulledImage := by
    decide +kernel
  have met : ∀ manifest, Met sampleEagerPull samplePullStore samplePulledIndex manifest →
      manifest = samplePulledIndex ∨ manifest = samplePulledImage := by
    intro manifest met
    induction met with
    | root => exact Or.inl rfl
    | child _ isIndex read member found inductionHypothesis =>
      rcases inductionHypothesis with rfl | rfl
      · obtain rfl := Option.some.inj (readIndex.symm.trans read)
        rw [children] at member
        rw [List.mem_singleton.mp member] at found
        exact Or.inr (Except.ok.inj (found.symm.trans answer))
      · exact absurd isIndex (by decide)
  constructor
  · intro index reached isIndex parsed read digest named
    rcases met index reached with rfl | rfl
    · obtain rfl := Option.some.inj (readIndex.symm.trans read)
      have names : namedChildren samplePulledIndexValue = [sampleImageDigest] := by decide +kernel
      rw [names] at named
      obtain rfl := List.mem_singleton.mp named
      refine ⟨⟨⟨sampleImageDigest, 106⟩, by rw [children]; exact List.mem_singleton_self _, rfl⟩,
        by decide +kernel, fun manifest found => ?_⟩
      rw [← Except.ok.inj (answer.symm.trans found)]
      decide +kernel
    · exact absurd isIndex (by decide)
  · intro image reached isImage parsed read digest stated
    rcases met image reached with rfl | rfl
    · exact absurd isImage (by decide)
    · obtain rfl := Option.some.inj (readImage.symm.trans read)
      have every : ∀ digest ∈ extractReferencedDigests samplePulledImageValue,
          ∃ sized ∈ extractSizedReferencedDescriptors samplePulledImageValue,
            sized.digest = digest := by
        decide +kernel
      exact Or.inr (every digest stated)

/-- An index, its image and the layer of that are pulled into an empty registry. -/
theorem eager_pull_is_complete_sample :
    ∃ final, sampleEagerPull.storeManifestRecursive 5 samplePullStore "latest" samplePulledIndex =
        some (.ok final) ∧
      Complete sampleEagerPull final samplePulledIndex := by
  have pulled : (pulledStore (sampleEagerPull.storeManifestRecursive 5 samplePullStore "latest"
      samplePulledIndex)).isSome = true := by
    decide +kernel
  obtain ⟨final, found⟩ := Option.isSome_iff_exists.mp pulled
  have returned := pulledStore_eq_some found
  exact ⟨final, returned, (eager_pull_is_complete sampleEagerPull samplePullStore final "latest"
    samplePulledIndex 5 returned).1 sampleEagerPull_served⟩

/-- The pull of an image whose layer has no size returns without the layer. -/
theorem unsized_layer_is_not_pulled :
    ∃ final, sampleEagerPull.storeManifestRecursive 5 samplePullStore "latest" sampleUnsizedImage =
        some (.ok final) ∧
      ¬ Complete sampleEagerPull final sampleUnsizedImage := by
  have pulled : (pulledStore (sampleEagerPull.storeManifestRecursive 5 samplePullStore "latest"
      sampleUnsizedImage)).any (fun final =>
        (final.data.getManifest sampleEagerPull.repoName
          (sampleEagerPull.hash sampleUnsizedImage)).any fun entry =>
            isIndexManifest entry.contentType = false ∧
              ∃ digest ∈ entry.referencedBlobs, final.blobs.contains digest.toStr = false) =
      true := by
    decide +kernel
  obtain ⟨final, found, checked⟩ := (Option.any_eq_true ..).mp pulled
  obtain ⟨entry, stored, checked⟩ := (Option.any_eq_true ..).mp checked
  obtain ⟨isImage, digest, referenced, absent⟩ := of_decide_eq_true checked
  refine ⟨final, pulledStore_eq_some found, fun complete => ?_⟩
  have present := complete.blobs entry (.root stored) isImage digest referenced
  exact absurd (present.symm.trans absent) nofun

end EagerPull

end Layerhouse
