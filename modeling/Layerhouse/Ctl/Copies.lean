/-
This file is `layerhouse-ctl mirror`: `mirror.rs` with the manifest requests of
`registry.rs`. A tag is copied unless both registries answer a HEAD with the same digest; an
index is copied after its children, and another manifest after its blobs.

A mirror that returns can still have left something out. Two registries that send no
`Docker-Content-Digest` are taken to agree, and of a manifest only that is copied which its
content type and the sizes in its descriptors let the walk see. The file says which
manifests are copied, and that the copy is complete exactly if what these name is copied
or was there.
-/

import Layerhouse.Ctl.Transfers
import Layerhouse.Mirror.EagerPulls

namespace Layerhouse

/-! ### Attempts -/

section Attempts

variable {Result Next : Type}

/-- The attempt comes to an end and is a success. -/
def Returns (attempt : ExceptT RegistryError Option Result) (result : Result) : Prop :=
  attempt.run = some (.ok result)

theorem returns_pure {first second : Result} :
    Returns (pure first) second ↔ first = second := by
  simp [Returns]

theorem returns_throw {error : RegistryError} {result : Result} :
    ¬ Returns (throw error) result := by
  simp [Returns]

theorem returns_bind {attempt : ExceptT RegistryError Option Result}
    {next : Result → ExceptT RegistryError Option Next} {result : Next} :
    Returns (attempt >>= next) result ↔
      ∃ between, Returns attempt between ∧ Returns (next between) result := by
  rw [Returns, ExceptT.run_bind]
  constructor
  · intro ended
    obtain ⟨outcome, first, rest⟩ := Option.bind_eq_some_iff.mp ended
    cases outcome with
    | error error => exact nomatch rest
    | ok between => exact ⟨between, first, rest⟩
  · rintro ⟨between, first, rest⟩
    exact Option.bind_eq_some_iff.mpr ⟨.ok between, first, rest⟩

theorem returns_liftExcept {outcome : Except RegistryError Result} {result : Result} :
    Returns (ExceptT.mk (some outcome)) result ↔ outcome = .ok result :=
  ⟨fun ended => Option.some.inj ended, fun same => congrArg some same⟩

theorem returns_adapt {attempt : ExceptT RegistryError Option Result}
    {context : RegistryError → RegistryError} {result : Result} :
    Returns (attempt.adapt context) result ↔ Returns attempt result := by
  show Option.map (Except.mapError context) attempt.run = some (.ok result) ↔ _
  rw [Option.map_eq_some_iff, Returns]
  constructor
  · rintro ⟨outcome, ended, same⟩
    cases outcome with
    | error error => exact nomatch same
    | ok other =>
      cases same
      exact ended
  · exact fun ended => ⟨.ok result, ended, rfl⟩

/-- What every round of a loop keeps, for the items that it has been through. -/
theorem returns_foldlM {Item : Type} {body : Result → Item → ExceptT RegistryError Option Result}
    (items : List Item) (first last : Result) (keeps : List Item → Result → Prop)
    (round : ∀ {seen item before after}, item ∈ items → keeps seen before →
      Returns (body before item) after → keeps (item :: seen) after)
    (begins : keeps [] first) (returned : Returns (items.foldlM body first) last) :
    keeps items.reverse last := by
  suffices goesOn : ∀ (rest seen : List Item) (first : Result), (∀ item ∈ rest, item ∈ items) →
      keeps seen first → Returns (rest.foldlM body first) last →
      keeps (rest.reverse ++ seen) last by
    have all := goesOn items [] first (fun _ member => member) begins returned
    rwa [List.append_nil] at all
  intro rest
  induction rest with
  | nil =>
    intro seen first _ kept returned
    rw [List.foldlM_nil, returns_pure] at returned
    rw [← returned]
    exact kept
  | cons item rest inductionHypothesis =>
    intro seen first among kept returned
    rw [List.foldlM_cons, returns_bind] at returned
    obtain ⟨between, one, others⟩ := returned
    rw [List.reverse_cons, List.append_assoc]
    exact inductionHypothesis (item :: seen) between
      (fun other member => among other (List.mem_cons_of_mem item member))
      (round (among item List.mem_cons_self) kept one) others

end Attempts

/-! ### Registries -/

/-- A manifest as a registry serves it: the content type is a header that may be missing. -/
structure ServedManifest where
  body : List UInt8
  contentType : Option String
deriving DecidableEq

/-- The content type that `get_manifest` reads. -/
def ServedManifest.mediaType (served : ServedManifest) : String :=
  served.contentType.getD "application/vnd.oci.image.manifest.v1+json"

/-- A repository of the source. A registry is content-addressed: what it serves under a digest is
the manifest with that digest, and no two of its manifests have the same one. -/
structure SourceRepository (hash : List UInt8 → String) where
  manifests : BTreeMap String ServedManifest
  blob : String → BlobSource
  addressed : ∀ {reference digest : String} {served other : ServedManifest},
    manifests[reference]? = some served → manifests[digest]? = some other →
      hash served.body = digest → other = served
  distinct : ∀ {reference another : String} {served other : ServedManifest},
    manifests[reference]? = some served → manifests[another]? = some other →
      hash served.body = hash other.body → served.body = other.body

/-- A repository of the destination. -/
structure DestinationRepository where
  manifests : BTreeMap String ServedManifest
  blobs : BTreeMap String (List UInt8)

/-- A mirror from one repository to another. The registries send the `Docker-Content-Digest` or
not, for each reference, and the destination takes the manifests and blobs it likes. -/
structure RegistryMirror where
  fromSlice : List UInt8 → Option Value
  hash : List UInt8 → String
  source : SourceRepository hash
  sourceHeadAnnounces : String → Bool
  sourceGetAnnounces : String → Bool
  destinationAnnounces : String → Bool
  acceptsManifest : DestinationRepository → String → ServedManifest → Bool
  acceptsBlob : String → List UInt8 → Bool

/-- `ManifestData` of `layerhouse-ctl`. -/
structure FetchedManifest where
  body : List UInt8
  contentType : String
  digest : String

/-- `extract_blob_descriptors` of `layerhouse-ctl`: the config and the layers. -/
def ctlBlobDescriptors (manifest : Value) : List BlobDescriptor :=
  ((manifest.get "config").bind childDescriptor).toList ++
    (((manifest.get "layers").bind Value.asArray).getD []).filterMap childDescriptor

/-- The blob digests that a manifest names, with a size or without. -/
def namedBlobs (manifest : Value) : List String :=
  extractDescriptors (fun value => (value.get "digest").bind Value.asStr) manifest

/-! ### The mirror -/

/-- The tags that are asked for; `listed` is what the source lists. -/
def requestedTags (allTags : Bool) (reference : Option String)
    (listed : Except RegistryError (List String)) : Except RegistryError (List String) :=
  if allTags then listed.mapError (.withContext "list source tags")
  else
    match reference with
    | none =>
      .error (.protocol "source must specify a tag or digest (or use --all)")
    | some tag => .ok [tag]

namespace RegistryMirror

variable (mirror : RegistryMirror)

/-- The digest that a response carries, or the empty text. -/
def digestHeader (announced : Bool) (served : ServedManifest) : String :=
  if announced then mirror.hash served.body else ""

def headSource (reference : String) : Option String :=
  mirror.source.manifests[reference]?.map
    (mirror.digestHeader (mirror.sourceHeadAnnounces reference))

def headDestination (repository : DestinationRepository) (reference : String) : Option String :=
  repository.manifests[reference]?.map
    (mirror.digestHeader (mirror.destinationAnnounces reference))

/-- What `get_manifest` makes of a response. -/
def fetched (reference : String) (served : ServedManifest) : FetchedManifest where
  body := served.body
  contentType := served.mediaType
  digest := mirror.digestHeader (mirror.sourceGetAnnounces reference) served

def getManifest (reference : String) : Except RegistryError FetchedManifest :=
  match mirror.source.manifests[reference]? with
  | none => .error (.http ("GET manifest " ++ reference ++ ": HTTP 404 Not Found"))
  | some served => .ok (mirror.fetched reference served)

/-- An empty reference makes a path that is none of a manifest. -/
def putManifest (repository : DestinationRepository) (reference : String) (body : List UInt8)
    (contentType : String) : Except RegistryError DestinationRepository :=
  let stored : ServedManifest := ⟨body, some contentType⟩
  if reference = "" ∨ mirror.acceptsManifest repository reference stored = false then
    .error (.http ("PUT manifest " ++ reference ++ " failed"))
  else
    .ok { repository with
      manifests := (repository.manifests.insert (mirror.hash body) stored).insert reference
        stored }

def transferSingleBlob (rounds : Nat) (repository : DestinationRepository)
    (blob : BlobDescriptor) : ExceptT RegistryError Option DestinationRepository :=
  if repository.blobs.contains blob.digest then pure repository
  else do
    let done ← ExceptT.mk (transferLoop (mirror.source.blob blob.digest) blob.size rounds .new)
    if mirror.acceptsBlob blob.digest done.staged then
      pure { repository with blobs := repository.blobs.insert blob.digest done.staged }
    else throw (.http "complete upload failed")

/-- The tasks run at once, and the mirror goes on when all of them are a success. -/
def transferBlobs (rounds : Nat) (repository : DestinationRepository)
    (blobs : List BlobDescriptor) : ExceptT RegistryError Option DestinationRepository :=
  blobs.foldlM (mirror.transferSingleBlob rounds) repository

/-- The recursion through the indexes, for a number of levels; `none` when they do not suffice. -/
def mirrorManifest (rounds : Nat) : Nat → DestinationRepository → FetchedManifest → String →
    Bool → ExceptT RegistryError Option DestinationRepository
  | 0, _, _, _, _ => ExceptT.mk none
  | depth + 1, repository, manifest, reference, isTag =>
    match mirror.fromSlice manifest.body with
    | none => throw (.protocol "invalid manifest JSON")
    | some parsed =>
      let referenced : ExceptT RegistryError Option DestinationRepository :=
        if isIndexManifest manifest.contentType then
          (extractChildManifests parsed).foldlM (fun repository child =>
            if repository.manifests.contains child.digest then pure repository
            else do
              let childManifest ← ExceptT.mk (some (mirror.getManifest child.digest))
              mirrorManifest rounds depth repository childManifest child.digest false) repository
        else mirror.transferBlobs rounds repository (ctlBlobDescriptors parsed)
      let pushRef := if isTag then reference else manifest.digest
      do
        let copied ← referenced
        ExceptT.mk (some (mirror.putManifest copied pushRef manifest.body manifest.contentType))

def mirrorTag (rounds : Nat) (repository : DestinationRepository) (tag : String) :
    ExceptT RegistryError Option DestinationRepository :=
  match mirror.headSource tag with
  | none => pure repository
  | some srcDigest =>
    if mirror.headDestination repository tag = some srcDigest then pure repository
    else do
      let manifest ← ExceptT.mk (some (mirror.getManifest tag))
      mirror.mirrorManifest rounds rounds repository manifest tag true

def mirrorTags (rounds : Nat) (repository : DestinationRepository) (tags : List String) :
    ExceptT RegistryError Option DestinationRepository :=
  tags.foldlM (fun repository tag =>
    (mirror.mirrorTag rounds repository tag).adapt (.withContext ("mirror tag " ++ tag)))
    repository

/-- `mirror`, with what the source lists. -/
def mirrorAll (rounds : Nat) (repository : DestinationRepository) (allTags : Bool)
    (reference : Option String) (listed : Except RegistryError (List String)) :
    ExceptT RegistryError Option DestinationRepository := do
  let tags ← ExceptT.mk (some (requestedTags allTags reference listed))
  mirror.mirrorTags rounds repository tags

end RegistryMirror

/-! ### What is copied -/

namespace RegistryMirror

section Copies

variable (mirror : RegistryMirror) (start : DestinationRepository) (tags : List String)

/-- What the stored manifests name is stored as well. -/
def Closed (repository : DestinationRepository) : Prop :=
  ∀ (reference : String) (stored : ServedManifest),
    repository.manifests[reference]? = some stored →
    ∀ parsed, mirror.fromSlice stored.body = some parsed →
      (∀ digest ∈ namedChildren parsed, repository.manifests.contains digest = true) ∧
        ∀ digest ∈ namedBlobs parsed, repository.blobs.contains digest = true

/-- Every tag that is asked for and exists at the source is there with the same body. -/
def HasTags (repository : DestinationRepository) : Prop :=
  ∀ tag ∈ tags, ∀ served, mirror.source.manifests[tag]? = some served →
    ∃ copy, repository.manifests[tag]? = some copy ∧ copy.body = served.body

/-- The HEAD requests for a tag are answered alike before the mirror starts. -/
def Agreed (tag : String) : Prop :=
  mirror.headDestination start tag = mirror.headSource tag

/-- The manifests that are copied: those of the tags for which the registries do not agree, and,
under an index, the children that have a size and are not there. -/
inductive Copied : ServedManifest → Prop
  | tag {tag : String} {served : ServedManifest} (asked : tag ∈ tags)
      (found : mirror.source.manifests[tag]? = some served)
      (behind : ¬ mirror.Agreed start tag) : Copied served
  | child {index served : ServedManifest} {parsed : Value} {child : BlobDescriptor}
      (copied : Copied index) (isIndex : isIndexManifest index.mediaType = true)
      (read : mirror.fromSlice index.body = some parsed)
      (member : child ∈ extractChildManifests parsed)
      (missing : start.manifests.contains child.digest = false)
      (found : mirror.source.manifests[child.digest]? = some served) : Copied served

/-- A blob that is sent: a copied manifest that is no index has it, with a size, as its config or a
layer. -/
def Sent (digest : String) : Prop :=
  ∃ served, mirror.Copied start tags served ∧ isIndexManifest served.mediaType = false ∧
    ∃ parsed, mirror.fromSlice served.body = some parsed ∧
      ∃ blob ∈ ctlBlobDescriptors parsed, blob.digest = digest

/-- A copied manifest is filed under its digest, and under a tag for which the registries do not
agree. -/
def Files (served : ServedManifest) (reference : String) : Prop :=
  mirror.hash served.body = reference ∨
    (reference ∈ tags ∧ mirror.source.manifests[reference]? = some served ∧
      ¬ mirror.Agreed start reference)

/-- Where the registries agree on a tag it has the same manifest at both. -/
def AgreesTruly : Prop :=
  ∀ tag ∈ tags, ∀ served old, mirror.source.manifests[tag]? = some served →
    start.manifests[tag]? = some old → mirror.Agreed start tag →
      old.body = served.body ∨
        (mirror.Copied start tags served ∧ mirror.hash served.body = tag)

/-- What the copied manifests name is there before, or is copied as well. -/
def NamesCopied : Prop :=
  ∀ served, mirror.Copied start tags served →
    ∀ parsed, mirror.fromSlice served.body = some parsed →
      (∀ digest ∈ namedChildren parsed, start.manifests.contains digest = true ∨
        ∃ child, mirror.Copied start tags child ∧ mirror.Files start tags child digest) ∧
      ∀ digest ∈ namedBlobs parsed, start.blobs.contains digest = true ∨
        mirror.Sent start tags digest

/-! ### What a mirror keeps -/

/-- The reference is answered with the body of one of the manifests that were pushed. -/
def Pushed (repository : DestinationRepository) (done : List ServedManifest)
    (reference : String) : Prop :=
  ∃ entry, repository.manifests[reference]? = some entry ∧
    ∃ served ∈ done, entry.body = served.body ∧ mirror.Files start tags served reference

/-- The manifest of a child was pushed, if the source has one and it was not there. -/
def ChildDone (done : List ServedManifest) (child : BlobDescriptor) : Prop :=
  start.manifests.contains child.digest = false →
    ∀ served, mirror.source.manifests[child.digest]? = some served → served ∈ done

/-- The invariant, for the manifests that were pushed. -/
structure Progress (repository : DestinationRepository) (done : List ServedManifest) :
    Prop where
  copied : ∀ served ∈ done, mirror.Copied start tags served
  kept : ∀ reference, start.manifests.contains reference = true →
    repository.manifests.contains reference = true
  keptBlobs : ∀ digest, start.blobs.contains digest = true →
    repository.blobs.contains digest = true
  entries : ∀ reference entry, repository.manifests[reference]? = some entry →
    start.manifests[reference]? = some entry ∨ mirror.Pushed start tags repository done reference
  filed : ∀ served ∈ done, mirror.Pushed start tags repository done (mirror.hash served.body)
  children : ∀ served ∈ done, isIndexManifest served.mediaType = true →
    ∀ parsed, mirror.fromSlice served.body = some parsed →
      ∀ child ∈ extractChildManifests parsed, mirror.ChildDone start done child
  blobs : ∀ served ∈ done, isIndexManifest served.mediaType = false →
    ∀ parsed, mirror.fromSlice served.body = some parsed →
      ∀ blob ∈ ctlBlobDescriptors parsed, repository.blobs.contains blob.digest = true
  sent : ∀ digest, repository.blobs.contains digest = true →
    start.blobs.contains digest = true ∨ mirror.Sent start tags digest

/-- What a part of the mirror adds to a repository. -/
structure Extends (before : DestinationRepository) (done : List ServedManifest)
    (after : DestinationRepository) (more : List ServedManifest) : Prop where
  manifests : ∀ reference, before.manifests.contains reference = true →
    after.manifests.contains reference = true
  grown : ∀ served ∈ done, served ∈ more
  pushed : ∀ reference, mirror.Pushed start tags before done reference →
    mirror.Pushed start tags after more reference

variable {mirror start tags} {repository before between after : DestinationRepository}
  {done some_more more : List ServedManifest} {served : ServedManifest}

theorem Extends.refl : mirror.Extends start tags repository done repository done where
  manifests := fun _ held => held
  grown := fun _ member => member
  pushed := fun _ pushed => pushed

theorem Extends.trans (first : mirror.Extends start tags before done between some_more)
    (second : mirror.Extends start tags between some_more after more) :
    mirror.Extends start tags before done after more where
  manifests := fun reference held => second.manifests reference (first.manifests reference held)
  grown := fun other member => second.grown other (first.grown other member)
  pushed := fun reference pushed => second.pushed reference (first.pushed reference pushed)

theorem progress_start : mirror.Progress start tags start [] where
  copied := fun _ member => nomatch member
  kept := fun _ held => held
  keptBlobs := fun _ held => held
  entries := fun _ _ found => Or.inl found
  filed := fun _ member => nomatch member
  children := fun _ member => nomatch member
  blobs := fun _ member => nomatch member
  sent := fun _ held => Or.inl held

/-- A copied manifest is one that the source serves. -/
theorem Copied.found (copied : mirror.Copied start tags served) :
    ∃ reference : String, mirror.source.manifests[reference]? = some served := by
  cases copied with
  | tag _ found _ => exact ⟨_, found⟩
  | child _ _ _ _ _ found => exact ⟨_, found⟩

/-- What is filed under a reference that the source serves is what it serves there. -/
theorem Files.eq (copied : mirror.Copied start tags served) {reference : String}
    (files : mirror.Files start tags served reference) {other : ServedManifest}
    (found : mirror.source.manifests[reference]? = some other) : other = served := by
  rcases files with digest | ⟨_, same, _⟩
  · obtain ⟨_, ofServed⟩ := copied.found
    exact mirror.source.addressed ofServed found digest
  · exact Option.some.inj (found.symm.trans same)

end Copies

end RegistryMirror

/-! ### The parts of a mirror -/

namespace RegistryMirror

section Parts

variable {mirror : RegistryMirror} {start : DestinationRepository} {tags : List String}
  {before after : DestinationRepository} {done : List ServedManifest} {served : ServedManifest}

theorem putManifest_ok {reference contentType : String} {body : List UInt8}
    (put : mirror.putManifest before reference body contentType = .ok after) :
    reference ≠ "" ∧ after.blobs = before.blobs ∧
      ∀ other, after.manifests[other]? =
        if reference = other ∨ mirror.hash body = other then some ⟨body, some contentType⟩
        else before.manifests[other]? := by
  rw [putManifest] at put
  split at put
  · exact nomatch put
  · rename_i taken
    cases put
    refine ⟨fun empty => taken (Or.inl empty), rfl, fun other => ?_⟩
    rw [BTreeMap.getElem?_insert, BTreeMap.getElem?_insert]
    by_cases same : reference = other
    · rw [if_pos same, if_pos (Or.inl same)]
    · rw [if_neg same]
      by_cases digest : mirror.hash body = other
      · rw [if_pos digest, if_pos (Or.inr digest)]
      · rw [if_neg digest, if_neg (not_or.mpr ⟨same, digest⟩)]

/-- A manifest is pushed after its children or its blobs. -/
theorem Progress.put (progress : mirror.Progress start tags before done)
    (copied : mirror.Copied start tags served)
    (children : isIndexManifest served.mediaType = true →
      ∀ parsed, mirror.fromSlice served.body = some parsed →
        ∀ child ∈ extractChildManifests parsed, mirror.ChildDone start done child)
    (blobs : isIndexManifest served.mediaType = false →
      ∀ parsed, mirror.fromSlice served.body = some parsed →
        ∀ blob ∈ ctlBlobDescriptors parsed, before.blobs.contains blob.digest = true)
    {reference contentType : String} (files : mirror.Files start tags served reference)
    (put : mirror.putManifest before reference served.body contentType = .ok after) :
    mirror.Progress start tags after (served :: done) ∧
      mirror.Extends start tags before done after (served :: done) ∧
      mirror.Pushed start tags after (served :: done) reference := by
  obtain ⟨_, sameBlobs, lookup⟩ := putManifest_ok put
  have held : ∀ other, before.manifests.contains other = true →
      after.manifests.contains other = true := by
    intro other
    rw [Std.ExtTreeMap.contains_eq_isSome_getElem?, Std.ExtTreeMap.contains_eq_isSome_getElem?,
      lookup]
    split
    · exact fun _ => rfl
    · exact id
  have filesAt : ∀ other, reference = other ∨ mirror.hash served.body = other →
      mirror.Pushed start tags after (served :: done) other := by
    rintro other written
    refine ⟨_, (lookup other).trans (if_pos written), served, List.mem_cons_self, rfl, ?_⟩
    rcases written with rfl | digest
    · exact files
    · exact Or.inl digest
  have pushed : ∀ other, mirror.Pushed start tags before done other →
      mirror.Pushed start tags after (served :: done) other := by
    intro other old
    by_cases written : reference = other ∨ mirror.hash served.body = other
    · exact filesAt other written
    · obtain ⟨entry, found, origin, member, same⟩ := old
      exact ⟨entry, (lookup other).trans ((if_neg written).trans found), origin,
        List.mem_cons_of_mem served member, same⟩
  refine ⟨?_, ⟨held, fun _ member => List.mem_cons_of_mem served member, pushed⟩,
    filesAt reference (Or.inl rfl)⟩
  exact {
    copied := by
      rintro other (_ | ⟨_, member⟩)
      · exact copied
      · exact progress.copied other member
    kept := fun other known => held other (progress.kept other known)
    keptBlobs := by
      rw [sameBlobs]
      exact progress.keptBlobs
    entries := by
      intro other entry found
      by_cases written : reference = other ∨ mirror.hash served.body = other
      · exact Or.inr (filesAt other written)
      · rw [lookup, if_neg written] at found
        exact (progress.entries other entry found).imp_right (pushed other)
    filed := by
      rintro other (_ | ⟨_, member⟩)
      · exact filesAt _ (Or.inr rfl)
      · exact pushed _ (progress.filed other member)
    children := by
      rintro other (_ | ⟨_, member⟩) isIndex parsed read child extracted
      · exact fun missing found source => List.mem_cons_of_mem served
          (children isIndex parsed read child extracted missing found source)
      · exact fun missing found source => List.mem_cons_of_mem served
          (progress.children other member isIndex parsed read child extracted missing found source)
    blobs := by
      rw [sameBlobs]
      rintro other (_ | ⟨_, member⟩) isImage parsed read blob extracted
      · exact blobs isImage parsed read blob extracted
      · exact progress.blobs other member isImage parsed read blob extracted
    sent := by
      rw [sameBlobs]
      exact progress.sent }

/-- A blob that is transferred is there afterwards, and nothing else changes. -/
theorem transferSingleBlob_ok {rounds : Nat} {blob : BlobDescriptor}
    (returned : Returns (mirror.transferSingleBlob rounds before blob) after) :
    after.manifests = before.manifests ∧ ∀ digest, after.blobs.contains digest = true ↔
      before.blobs.contains digest = true ∨ blob.digest = digest := by
  rw [transferSingleBlob] at returned
  split at returned
  · rename_i present
    rw [returns_pure] at returned
    obtain rfl := returned
    refine ⟨rfl, fun digest => ⟨Or.inl, ?_⟩⟩
    rintro (held | rfl)
    · exact held
    · exact present
  · rw [returns_bind] at returned
    obtain ⟨uploaded, _, completed⟩ := returned
    split at completed
    · rw [returns_pure] at completed
      obtain rfl := completed
      refine ⟨rfl, fun digest => ?_⟩
      rw [Std.ExtTreeMap.contains_insert, Bool.or_eq_true, or_comm, beq_iff_eq,
        compare_eq_iff_eq]
    · exact absurd completed returns_throw

theorem transferBlobs_ok {rounds : Nat} {blobs : List BlobDescriptor}
    (returned : Returns (mirror.transferBlobs rounds before blobs) after) :
    after.manifests = before.manifests ∧ ∀ digest, after.blobs.contains digest = true ↔
      before.blobs.contains digest = true ∨ ∃ blob ∈ blobs, blob.digest = digest := by
  have all := returns_foldlM blobs before after (fun seen repository =>
      repository.manifests = before.manifests ∧ ∀ digest, repository.blobs.contains digest = true ↔
        before.blobs.contains digest = true ∨ ∃ blob ∈ seen, blob.digest = digest)
    ?_ ?_ returned
  · simpa only [List.mem_reverse] using all
  · intro seen blob repository next _ kept one
    obtain ⟨manifests, held⟩ := transferSingleBlob_ok one
    refine ⟨manifests.trans kept.1, fun digest => ?_⟩
    rw [held, kept.2, or_assoc, List.exists_mem_cons_iff]
    exact or_congr_right or_comm
  · refine ⟨rfl, fun digest => ?_⟩
    simp only [List.not_mem_nil, false_and, exists_false, or_false]

end Parts

end RegistryMirror

/-! ### The recursion -/

namespace RegistryMirror

section Recursion

variable {mirror : RegistryMirror} {start : DestinationRepository} {tags : List String}
  {before after : DestinationRepository} {done : List ServedManifest} {served : ServedManifest}

/-- The blobs of a copied manifest are sent before the manifest is pushed. -/
theorem Progress.transferBlobs (progress : mirror.Progress start tags before done)
    (copied : mirror.Copied start tags served)
    (isImage : isIndexManifest served.mediaType = false) {parsed : Value}
    (read : mirror.fromSlice served.body = some parsed) {rounds : Nat}
    (returned : Returns (mirror.transferBlobs rounds before (ctlBlobDescriptors parsed)) after) :
    mirror.Progress start tags after done ∧ mirror.Extends start tags before done after done ∧
      ∀ blob ∈ ctlBlobDescriptors parsed, after.blobs.contains blob.digest = true := by
  obtain ⟨manifests, held⟩ := transferBlobs_ok returned
  have pushed : ∀ reference, mirror.Pushed start tags before done reference →
      mirror.Pushed start tags after done reference := by
    intro reference old
    rw [Pushed, manifests]
    exact old
  refine ⟨?_, ⟨by rw [manifests]; exact fun _ known => known, fun _ member => member, pushed⟩,
    fun blob member => (held _).mpr (Or.inr ⟨blob, member, rfl⟩)⟩
  exact {
    copied := progress.copied
    kept := by
      rw [manifests]
      exact progress.kept
    keptBlobs := fun digest known => (held digest).mpr (Or.inl (progress.keptBlobs digest known))
    entries := by
      rw [manifests]
      exact fun reference entry found =>
        (progress.entries reference entry found).imp_right (pushed reference)
    filed := fun other member => pushed _ (progress.filed other member)
    children := progress.children
    blobs := fun other member isOther value readOther blob extracted =>
      (held _).mpr (Or.inl (progress.blobs other member isOther value readOther blob extracted))
    sent := by
      intro digest known
      rcases (held digest).mp known with old | ⟨blob, member, same⟩
      · exact progress.sent digest old
      · exact Or.inr ⟨served, copied, isImage, parsed, read, blob, member, same⟩ }

/-- A child that is there already is one that was pushed, unless it was there at the start. -/
theorem Progress.childDone (progress : mirror.Progress start tags before done)
    {child : BlobDescriptor} (present : before.manifests.contains child.digest = true) :
    mirror.ChildDone start done child := by
  intro missing other found
  rw [Std.ExtTreeMap.contains_eq_isSome_getElem?] at present missing
  obtain ⟨entry, lookup⟩ := Option.isSome_iff_exists.mp present
  rcases progress.entries child.digest entry lookup with old | ⟨_, _, origin, member, _, files⟩
  · rw [old] at missing
    exact nomatch missing
  · rw [files.eq (progress.copied origin member) found]
    exact member

theorem getManifest_ok {reference : String} {manifest : FetchedManifest}
    (got : mirror.getManifest reference = .ok manifest) :
    ∃ served, mirror.source.manifests[reference]? = some served ∧
      manifest = mirror.fetched reference served := by
  rw [getManifest] at got
  split at got
  · exact nomatch got
  · rename_i served found
    exact ⟨served, found, (Except.ok.inj got).symm⟩

/-- What a walk of some depth does when it returns: it goes on from the progress it finds, and it
pushes its manifest, under its reference if that is a tag. -/
def WalksWell (mirror : RegistryMirror) (start : DestinationRepository) (tags : List String)
    (rounds depth : Nat) : Prop :=
  ∀ {before after : DestinationRepository} {done : List ServedManifest} {served : ServedManifest}
    {reference : String} {isTag : Bool}, mirror.Progress start tags before done →
    mirror.Copied start tags served →
    (isTag = true → mirror.Files start tags served reference) →
    Returns (mirror.mirrorManifest rounds depth before
      (mirror.fetched reference served) reference isTag) after →
    ∃ more, mirror.Progress start tags after more ∧
      mirror.Extends start tags before done after more ∧ served ∈ more ∧
      (isTag = true → mirror.Pushed start tags after more reference)

section Children

variable {rounds depth : Nat} {parsed : Value} (walks : mirror.WalksWell start tags rounds depth)
  (copied : mirror.Copied start tags served) (isIndex : isIndexManifest served.mediaType = true)
  (read : mirror.fromSlice served.body = some parsed)

include walks copied isIndex read

/-- A child is walked unless it is there. -/
theorem WalksWell.child (progress : mirror.Progress start tags before done)
    {child : BlobDescriptor} (member : child ∈ extractChildManifests parsed)
    (returned : Returns (if before.manifests.contains child.digest then pure before
      else do
        let childManifest ← ExceptT.mk (some (mirror.getManifest child.digest))
        mirror.mirrorManifest rounds depth before childManifest child.digest false) after) :
    ∃ more, mirror.Progress start tags after more ∧
      mirror.Extends start tags before done after more ∧ mirror.ChildDone start more child := by
  split at returned
  · rename_i present
    obtain rfl := returns_pure.mp returned
    exact ⟨done, progress, .refl, progress.childDone present⟩
  · rename_i absent
    obtain ⟨childManifest, got, walked⟩ := returns_bind.mp returned
    obtain ⟨source, found, rfl⟩ := getManifest_ok (returns_liftExcept.mp got)
    have missing : start.manifests.contains child.digest = false :=
      Bool.eq_false_iff.mpr fun held => absent (progress.kept child.digest held)
    obtain ⟨more, kept, grown, pushed, _⟩ := walks progress
      (.child copied isIndex read member missing found)
      (fun tagged => absurd tagged Bool.false_ne_true) walked
    refine ⟨more, kept, grown, fun _ other foundOther => ?_⟩
    rw [Option.some.inj (foundOther.symm.trans found)]
    exact pushed

theorem WalksWell.children (progress : mirror.Progress start tags before done)
    (returned : Returns ((extractChildManifests parsed).foldlM (fun repository child =>
      if repository.manifests.contains child.digest then pure repository
      else do
        let childManifest ← ExceptT.mk (some (mirror.getManifest child.digest))
        mirror.mirrorManifest rounds depth repository childManifest child.digest false)
      before) after) :
    ∃ more, mirror.Progress start tags after more ∧
      mirror.Extends start tags before done after more ∧
      ∀ child ∈ extractChildManifests parsed, mirror.ChildDone start more child := by
  have all := returns_foldlM (extractChildManifests parsed) before after
    (fun seen repository => ∃ more, mirror.Progress start tags repository more ∧
      mirror.Extends start tags before done repository more ∧
        ∀ child ∈ seen, mirror.ChildDone start more child)
    ?_ ⟨done, progress, .refl, nofun⟩ returned
  · obtain ⟨more, kept, grown, children⟩ := all
    exact ⟨more, kept, grown, fun child member => children child (List.mem_reverse.mpr member)⟩
  · rintro seen child repository next member ⟨further, kept, grown, children⟩ one
    obtain ⟨more, keptMore, grownMore, last⟩ :=
      walks.child copied isIndex read kept member one
    refine ⟨more, keptMore, grown.trans grownMore, ?_⟩
    rintro other (_ | ⟨_, earlier⟩)
    · exact last
    · exact fun lacks same found => grownMore.grown same (children other earlier lacks same found)

end Children

/-- A manifest that is not pushed under its tag is pushed under the digest of its header, which the
destination checks. -/
theorem files_of_put {reference contentType : String} {isTag : Bool}
    (files : isTag = true → mirror.Files start tags served reference)
    (put : mirror.putManifest before
      (if isTag = true then reference else (mirror.fetched reference served).digest)
      served.body contentType = .ok after) :
    mirror.Files start tags served
      (if isTag = true then reference else (mirror.fetched reference served).digest) := by
  have named := (putManifest_ok put).1
  split at named
  · rename_i tagged
    rw [if_pos tagged]
    exact files tagged
  · rename_i untagged
    rw [if_neg untagged]
    simp only [fetched, digestHeader] at named ⊢
    split at named
    · rename_i announced
      rw [if_pos announced]
      exact Or.inl rfl
    · exact absurd rfl named

theorem mirrorManifest_ok {rounds depth : Nat} : mirror.WalksWell start tags rounds depth := by
  induction depth with
  | zero => exact fun _ _ _ returned => nomatch returned
  | succ depth inductionHypothesis =>
    intro before after done served reference isTag progress copied files returned
    rw [mirrorManifest] at returned
    cases read : mirror.fromSlice served.body with
    | none =>
      rw [show mirror.fromSlice (mirror.fetched reference served).body = none from read] at returned
      exact absurd returned returns_throw
    | some parsed =>
      rw [show mirror.fromSlice (mirror.fetched reference served).body = some parsed from read]
        at returned
      obtain ⟨between, referenced, put⟩ := returns_bind.mp returned
      have put := returns_liftExcept.mp put
      have through : ∃ further, mirror.Progress start tags between further ∧
          mirror.Extends start tags before done between further ∧
          (isIndexManifest served.mediaType = true →
            ∀ child ∈ extractChildManifests parsed, mirror.ChildDone start further child) ∧
          (isIndexManifest served.mediaType = false →
            ∀ blob ∈ ctlBlobDescriptors parsed,
              between.blobs.contains blob.digest = true) := by
        split at referenced
        · rename_i isIndex
          obtain ⟨further, kept, grown, children⟩ :=
            inductionHypothesis.children copied isIndex read progress referenced
          exact ⟨further, kept, grown, fun _ => children,
            fun isImage => nomatch isIndex.symm.trans isImage⟩
        · rename_i isImage
          obtain ⟨kept, grown, blobs⟩ := progress.transferBlobs copied
            (Bool.eq_false_iff.mpr isImage) read referenced
          exact ⟨done, kept, grown, fun isIndex => absurd isIndex isImage, fun _ => blobs⟩
      obtain ⟨further, kept, grown, children, blobs⟩ := through
      obtain ⟨keptAll, grownAll, pushed⟩ := kept.put copied
        (fun isIndex value readValue child member => by
          obtain rfl := Option.some.inj (read.symm.trans readValue)
          exact children isIndex child member)
        (fun isImage value readValue blob member => by
          obtain rfl := Option.some.inj (read.symm.trans readValue)
          exact blobs isImage blob member) (files_of_put files put) put
      refine ⟨served :: further, keptAll, grown.trans grownAll, List.mem_cons_self,
        fun tagged => ?_⟩
      rw [if_pos tagged] at pushed
      exact pushed

end Recursion

end RegistryMirror

/-! ### The tags -/

namespace RegistryMirror

section Tags

variable {mirror : RegistryMirror} {start : DestinationRepository} {tags : List String}
  {before after : DestinationRepository} {done : List ServedManifest}

/-- The manifest of a tag was pushed, if the registries did not agree on it at the start. -/
def TagDone (mirror : RegistryMirror) (start : DestinationRepository) (tags : List String)
    (repository : DestinationRepository) (done : List ServedManifest) (tag : String) : Prop :=
  ∀ served, mirror.source.manifests[tag]? = some served → ¬ mirror.Agreed start tag →
    served ∈ done ∧ mirror.Pushed start tags repository done tag

/-- An entry that is not the one of the start was pushed. -/
theorem Progress.pushed_of_head (progress : mirror.Progress start tags before done) {tag : String}
    (known : before.manifests.contains tag = true)
    (changed : mirror.headDestination before tag ≠ mirror.headDestination start tag) :
    mirror.Pushed start tags before done tag := by
  rw [Std.ExtTreeMap.contains_eq_isSome_getElem?] at known
  obtain ⟨entry, found⟩ := Option.isSome_iff_exists.mp known
  refine (progress.entries tag entry found).resolve_left fun old => changed ?_
  rw [headDestination, headDestination, found, old]

theorem contains_of_headDestination {tag digest : String}
    (head : mirror.headDestination before tag = some digest) :
    before.manifests.contains tag = true := by
  obtain ⟨entry, found, _⟩ := Option.map_eq_some_iff.mp head
  rw [Std.ExtTreeMap.contains_eq_isSome_getElem?, found, Option.isSome_some]

theorem Pushed.mem {tag : String} (pushed : mirror.Pushed start tags before done tag)
    (progress : mirror.Progress start tags before done) {served : ServedManifest}
    (found : mirror.source.manifests[tag]? = some served) : served ∈ done := by
  obtain ⟨_, _, origin, member, _, files⟩ := pushed
  rw [files.eq (progress.copied origin member) found]
  exact member

theorem mirrorTag_ok {rounds : Nat} {tag : String}
    (progress : mirror.Progress start tags before done) (asked : tag ∈ tags)
    (returned : Returns (mirror.mirrorTag rounds before tag) after) :
    ∃ more, mirror.Progress start tags after more ∧
      mirror.Extends start tags before done after more ∧
      mirror.TagDone start tags after more tag := by
  rw [mirrorTag] at returned
  split at returned
  · rename_i missing
    obtain rfl := returns_pure.mp returned
    refine ⟨done, progress, .refl, fun served found => ?_⟩
    rw [headSource, found] at missing
    exact nomatch missing
  · rename_i srcDigest head
    obtain ⟨served, found, _⟩ := Option.map_eq_some_iff.mp head
    split at returned
    · rename_i same
      obtain rfl := returns_pure.mp returned
      refine ⟨done, progress, .refl, fun other foundOther behind => ?_⟩
      have pushed := progress.pushed_of_head (contains_of_headDestination same)
        fun unchanged => behind (unchanged.symm.trans (same.trans head.symm))
      exact ⟨pushed.mem progress foundOther, pushed⟩
    · rename_i differs
      obtain ⟨manifest, got, walked⟩ := returns_bind.mp returned
      obtain ⟨other, foundOther, rfl⟩ := getManifest_ok (returns_liftExcept.mp got)
      obtain rfl := Option.some.inj (found.symm.trans foundOther)
      have copies : mirror.Copied start tags served ∧ mirror.Files start tags served tag := by
        by_cases agreed : mirror.Agreed start tag
        · -- The tag was filed in between, as the digest of another manifest's child.
          have present := progress.kept tag (contains_of_headDestination (agreed.trans head))
          obtain ⟨_, _, origin, member, _, files⟩ := progress.pushed_of_head present
            fun unchanged => differs (unchanged.trans (agreed.trans head))
          obtain rfl := files.eq (progress.copied origin member) found
          exact ⟨progress.copied _ member, files⟩
        · exact ⟨.tag asked found agreed, Or.inr ⟨asked, found, agreed⟩⟩
      obtain ⟨more, kept, grown, member, pushed⟩ :=
        mirrorManifest_ok progress copies.1 (fun _ => copies.2) walked
      refine ⟨more, kept, grown, fun another foundAnother _ => ⟨?_, pushed rfl⟩⟩
      rw [Option.some.inj (foundAnother.symm.trans found)]
      exact member

theorem mirrorTags_ok {rounds : Nat} {final : DestinationRepository}
    (returned : Returns (mirror.mirrorTags rounds start tags) final) :
    ∃ done, mirror.Progress start tags final done ∧
      ∀ tag ∈ tags, mirror.TagDone start tags final done tag := by
  have all := returns_foldlM tags start final (fun seen repository =>
      ∃ done, mirror.Progress start tags repository done ∧
        ∀ tag ∈ seen, mirror.TagDone start tags repository done tag)
    ?_ ⟨[], progress_start, nofun⟩ returned
  · obtain ⟨done, kept, each⟩ := all
    exact ⟨done, kept, fun tag member => each tag (List.mem_reverse.mpr member)⟩
  · rintro seen tag repository next member ⟨done, kept, each⟩ one
    obtain ⟨more, keptMore, grown, this⟩ := mirrorTag_ok kept member (returns_adapt.mp one)
    refine ⟨more, keptMore, ?_⟩
    rintro other (_ | ⟨_, earlier⟩)
    · exact this
    · intro served found behind
      obtain ⟨stored, pushed⟩ := each other earlier served found behind
      exact ⟨grown.grown served stored, grown.pushed other pushed⟩

/-- Every manifest that is to be copied was pushed. -/
theorem Progress.complete (progress : mirror.Progress start tags before done)
    (each : ∀ tag ∈ tags, mirror.TagDone start tags before done tag) {served : ServedManifest}
    (copied : mirror.Copied start tags served) : served ∈ done := by
  induction copied with
  | tag asked found behind => exact (each _ asked _ found behind).1
  | child _ isIndex read member missing found inductionHypothesis =>
    exact progress.children _ inductionHypothesis isIndex _ read _ member missing _ found

theorem Progress.contains_iff (progress : mirror.Progress start tags before done)
    (each : ∀ tag ∈ tags, mirror.TagDone start tags before done tag) (reference : String) :
    before.manifests.contains reference = true ↔ start.manifests.contains reference = true ∨
      ∃ served, mirror.Copied start tags served ∧
        mirror.Files start tags served reference := by
  have held : mirror.Pushed start tags before done reference →
      before.manifests.contains reference = true := by
    rintro ⟨entry, found, _⟩
    rw [Std.ExtTreeMap.contains_eq_isSome_getElem?, found, Option.isSome_some]
  constructor
  · intro present
    rw [Std.ExtTreeMap.contains_eq_isSome_getElem?] at present ⊢
    obtain ⟨entry, found⟩ := Option.isSome_iff_exists.mp present
    rcases progress.entries reference entry found with old | ⟨_, _, served, member, _, files⟩
    · exact Or.inl (Option.isSome_iff_exists.mpr ⟨entry, old⟩)
    · exact Or.inr ⟨served, progress.copied served member, files⟩
  · rintro (old | ⟨served, copied, digest | ⟨asked, found, behind⟩⟩)
    · exact progress.kept reference old
    · rw [← digest] at held ⊢
      exact held (progress.filed served (progress.complete each copied))
    · exact held (each reference asked served found behind).2

theorem Progress.blobs_iff (progress : mirror.Progress start tags before done)
    (each : ∀ tag ∈ tags, mirror.TagDone start tags before done tag) (digest : String) :
    before.blobs.contains digest = true ↔ start.blobs.contains digest = true ∨
      mirror.Sent start tags digest := by
  refine ⟨progress.sent digest, ?_⟩
  rintro (old | ⟨served, copied, isImage, parsed, read, blob, member, rfl⟩)
  · exact progress.keptBlobs digest old
  · exact progress.blobs served (progress.complete each copied) isImage parsed read blob member

end Tags

end RegistryMirror

/-! ### Complete copies -/

namespace RegistryMirror

section Complete

variable {mirror : RegistryMirror} {start final : DestinationRepository} {tags : List String}
  {done : List ServedManifest}

/-- What is pushed under a reference that the source serves has the body of what it serves. -/
theorem Pushed.body {tag : String} (pushed : mirror.Pushed start tags final done tag)
    (progress : mirror.Progress start tags final done) {served : ServedManifest}
    (found : mirror.source.manifests[tag]? = some served) :
    ∃ copy, final.manifests[tag]? = some copy ∧ copy.body = served.body := by
  obtain ⟨copy, lookup, origin, member, same, files⟩ := pushed
  rw [files.eq (progress.copied origin member) found]
  exact ⟨copy, lookup, same⟩

theorem Progress.hasTags_iff (progress : mirror.Progress start tags final done)
    (each : ∀ tag ∈ tags, mirror.TagDone start tags final done tag) :
    mirror.HasTags tags final ↔ mirror.AgreesTruly start tags := by
  constructor
  · intro has tag asked served old found before agreed
    obtain ⟨copy, lookup, same⟩ := has tag asked served found
    rcases progress.entries tag copy lookup with kept | ⟨_, _, origin, member, _, files⟩
    · rw [Option.some.inj (before.symm.trans kept)]
      exact Or.inl same
    · rw [files.eq (progress.copied origin member) found]
      rcases files with digest | ⟨_, _, behind⟩
      · exact Or.inr ⟨progress.copied origin member, digest⟩
      · exact absurd agreed behind
  · intro truly tag asked served found
    by_cases agreed : mirror.Agreed start tag
    · have head : mirror.headDestination start tag = some (mirror.digestHeader
          (mirror.sourceHeadAnnounces tag) served) := by
        rw [agreed, headSource, found, Option.map_some]
      obtain ⟨old, before, _⟩ := Option.map_eq_some_iff.mp head
      have present := progress.kept tag (contains_of_headDestination head)
      rw [Std.ExtTreeMap.contains_eq_isSome_getElem?] at present
      obtain ⟨copy, lookup⟩ := Option.isSome_iff_exists.mp present
      rcases progress.entries tag copy lookup with kept | pushed
      · rcases truly tag asked served old found before agreed with same | ⟨copied, digest⟩
        · rw [Option.some.inj (before.symm.trans kept)] at same
          exact ⟨copy, lookup, same⟩
        · have filed := progress.filed served (progress.complete each copied)
          rw [digest] at filed
          exact filed.body progress found
      · exact pushed.body progress found
    · exact (each tag asked served found agreed).2.body progress found

theorem Progress.closed_iff (progress : mirror.Progress start tags final done)
    (each : ∀ tag ∈ tags, mirror.TagDone start tags final done tag)
    (closed : mirror.Closed start) :
    mirror.Closed final ↔ mirror.NamesCopied start tags := by
  constructor
  · intro closedFinal served copied parsed read
    obtain ⟨entry, lookup, origin, member, same, files⟩ :=
      progress.filed served (progress.complete each copied)
    obtain ⟨_, ofServed⟩ := copied.found
    obtain ⟨_, ofOrigin⟩ := (progress.copied origin member).found
    have body : entry.body = served.body := by
      rw [same]
      rcases files with digest | ⟨_, found, _⟩
      · exact mirror.source.distinct ofOrigin ofServed digest
      · rw [mirror.source.addressed ofServed found rfl]
    obtain ⟨children, blobs⟩ :=
      closedFinal _ entry lookup parsed ((congrArg mirror.fromSlice body).trans read)
    exact ⟨fun digest named => (progress.contains_iff each digest).mp (children digest named),
      fun digest named => (progress.blobs_iff each digest).mp (blobs digest named)⟩
  · intro names reference stored lookup parsed read
    rcases progress.entries reference stored lookup with
      old | ⟨entry, found, origin, member, same, _⟩
    · obtain ⟨children, blobs⟩ := closed reference stored old parsed read
      exact ⟨fun digest named => progress.kept digest (children digest named),
        fun digest named => progress.keptBlobs digest (blobs digest named)⟩
    · rw [Option.some.inj (lookup.symm.trans found), same] at read
      obtain ⟨children, blobs⟩ := names origin (progress.copied origin member) parsed read
      exact ⟨fun digest named => (progress.contains_iff each digest).mpr (children digest named),
        fun digest named => (progress.blobs_iff each digest).mpr (blobs digest named)⟩

end Complete

/-- A mirror that returns has every tag with the body it has at the source exactly if the tags on
which the registries agreed were the same, and it leaves the destination closed exactly if
everything that a copied manifest names was there or is copied. -/
theorem mirror_copies_iff {mirror : RegistryMirror} {start final : DestinationRepository}
    {rounds : Nat} {allTags : Bool} {reference : Option String}
    {listed : Except RegistryError (List String)} {tags : List String}
    (closed : mirror.Closed start)
    (requested : requestedTags allTags reference listed = .ok tags)
    (returned : Returns (mirror.mirrorAll rounds start allTags reference listed) final) :
    (mirror.HasTags tags final ↔ mirror.AgreesTruly start tags) ∧
      (mirror.Closed final ↔ mirror.NamesCopied start tags) := by
  obtain ⟨others, asked, mirrored⟩ := returns_bind.mp returned
  cases requested.symm.trans (returns_liftExcept.mp asked)
  obtain ⟨done, progress, each⟩ := mirrorTags_ok mirrored
  exact ⟨progress.hasTags_iff each, progress.closed_iff each closed⟩

end RegistryMirror

/-! ### A mirror of an index -/

/-- The digest of a body in the samples. -/
def sampleManifestHash (body : List UInt8) : String :=
  (Digest.sha256 EagerPull.sampleEagerPull.externals.sha256 body).toStr

def sampleServedIndex : ServedManifest where
  body := EagerPull.samplePulledIndex.body
  contentType := some EagerPull.samplePulledIndex.contentType

def sampleServedImage : ServedManifest where
  body := EagerPull.samplePulledImage.body
  contentType := some EagerPull.samplePulledImage.contentType

def sampleIndexDigest : String :=
  "sha256:8a90154e54a44b5e6fc3190fce25e73eb405e6bf13c4ebe379c0a507a04f1acc"

def sampleSourceManifests : BTreeMap String ServedManifest :=
  (((∅ : BTreeMap String ServedManifest).insert "latest" sampleServedIndex).insert
    sampleIndexDigest sampleServedIndex).insert EagerPull.sampleImageDigest sampleServedImage

theorem sampleSourceManifests_found {reference : String} {served : ServedManifest}
    (found : sampleSourceManifests[reference]? = some served) :
    ((reference = "latest" ∨ reference = sampleIndexDigest) ∧ served = sampleServedIndex) ∨
      (reference = EagerPull.sampleImageDigest ∧ served = sampleServedImage) := by
  rw [sampleSourceManifests, BTreeMap.getElem?_insert, BTreeMap.getElem?_insert,
    BTreeMap.getElem?_insert] at found
  split at found
  · rename_i same
    exact Or.inr ⟨same.symm, (Option.some.inj found).symm⟩
  · split at found
    · rename_i same
      exact Or.inl ⟨Or.inr same.symm, (Option.some.inj found).symm⟩
    · split at found
      · rename_i same
        exact Or.inl ⟨Or.inl same.symm, (Option.some.inj found).symm⟩
      · exact nomatch found

theorem sampleManifestHash_index :
    sampleManifestHash sampleServedIndex.body = sampleIndexDigest := by
  decide +kernel

theorem sampleManifestHash_image :
    sampleManifestHash sampleServedImage.body = EagerPull.sampleImageDigest := by
  decide +kernel

/-- A source with an index under a tag, its image and the layer of that. -/
def sampleSourceRepository : SourceRepository sampleManifestHash where
  manifests := sampleSourceManifests
  blob := fun digest _ offset =>
    if digest = EagerPull.sampleLayerDigest then
      .ok ⟨[(EagerPull.sampleBytes "\x7b\x7d").drop offset], none⟩
    else .error (.http "GET blob: HTTP 404 Not Found")
  addressed := by
    intro reference digest served other found foundOther same
    rcases sampleSourceManifests_found found with ⟨_, rfl⟩ | ⟨_, rfl⟩
    · rw [sampleManifestHash_index] at same
      rcases sampleSourceManifests_found foundOther with ⟨_, rfl⟩ | ⟨image, _⟩
      · rfl
      · exact absurd (same.trans image) (by decide +kernel)
    · rw [sampleManifestHash_image] at same
      rcases sampleSourceManifests_found foundOther with ⟨index, _⟩ | ⟨_, rfl⟩
      · rcases index with tag | index
        · exact absurd (same.trans tag) (by decide +kernel)
        · exact absurd (same.trans index) (by decide +kernel)
      · rfl
  distinct := by
    intro reference another served other found foundOther same
    rcases sampleSourceManifests_found found with ⟨_, rfl⟩ | ⟨_, rfl⟩ <;>
      rcases sampleSourceManifests_found foundOther with ⟨_, rfl⟩ | ⟨_, rfl⟩
    · rfl
    · rw [sampleManifestHash_index, sampleManifestHash_image] at same
      exact absurd same (by decide +kernel)
    · rw [sampleManifestHash_index, sampleManifestHash_image] at same
      exact absurd same (by decide +kernel)
    · rfl

/-- Two registries that both send the digest of a manifest or both do not. -/
def sampleRegistryMirror (announces : Bool) : RegistryMirror where
  fromSlice := fun body =>
    if body = EagerPull.samplePulledIndex.body then some EagerPull.samplePulledIndexValue
    else if body = EagerPull.samplePulledImage.body then some EagerPull.samplePulledImageValue
    else if body = [0x7b, 0x7d] then some (.object [])
    else none
  hash := sampleManifestHash
  source := sampleSourceRepository
  sourceHeadAnnounces := fun _ => announces
  sourceGetAnnounces := fun _ => announces
  destinationAnnounces := fun _ => announces
  acceptsManifest := fun _ _ _ => true
  acceptsBlob := fun _ _ => true

/-- A destination that has another manifest under the tag. -/
def sampleDestination : DestinationRepository where
  manifests := (∅ : BTreeMap String ServedManifest).insert "latest" ⟨[0x7b, 0x7d], none⟩
  blobs := ∅

theorem closed_sampleDestination (announces : Bool) :
    (sampleRegistryMirror announces).Closed sampleDestination := by
  intro reference stored found parsed read
  rw [sampleDestination, BTreeMap.getElem?_insert] at found
  split at found
  · obtain rfl := Option.some.inj found
    have notIndex : [0x7b, 0x7d] ≠ EagerPull.samplePulledIndex.body := by decide +kernel
    have notImage : [0x7b, 0x7d] ≠ EagerPull.samplePulledImage.body := by decide +kernel
    simp only [sampleRegistryMirror, notIndex, notImage, if_true, if_false] at read
    obtain rfl := Option.some.inj read
    exact ⟨nofun, nofun⟩
  · exact nomatch found

namespace RegistryMirror

theorem sample_behind : ¬ (sampleRegistryMirror true).Agreed sampleDestination "latest" := by
  rw [Agreed]
  decide +kernel

theorem sample_copies_index :
    (sampleRegistryMirror true).Copied sampleDestination ["latest"] sampleServedIndex :=
  .tag (List.mem_singleton_self _) (by decide +kernel) sample_behind

theorem sample_reads_index : (sampleRegistryMirror true).fromSlice sampleServedIndex.body =
    some EagerPull.samplePulledIndexValue := by
  simp only [sampleRegistryMirror, sampleServedIndex, if_true]

theorem sample_reads_image : (sampleRegistryMirror true).fromSlice sampleServedImage.body =
    some EagerPull.samplePulledImageValue := by
  have different : EagerPull.samplePulledImage.body ≠ EagerPull.samplePulledIndex.body := by
    decide +kernel
  simp only [sampleRegistryMirror, sampleServedImage, different, if_true, if_false]

theorem sample_children : extractChildManifests EagerPull.samplePulledIndexValue =
    [⟨EagerPull.sampleImageDigest, 106⟩] := by
  decide +kernel

theorem sample_copies_image :
    (sampleRegistryMirror true).Copied sampleDestination ["latest"] sampleServedImage := by
  have listed : ⟨EagerPull.sampleImageDigest, 106⟩ ∈
      extractChildManifests EagerPull.samplePulledIndexValue := by
    rw [sample_children]
    exact List.mem_singleton_self _
  refine .child sample_copies_index (by decide +kernel) sample_reads_index listed ?_ ?_
  · decide +kernel
  · decide +kernel

/-- The index and its image are all that is copied. -/
theorem sample_copied {served : ServedManifest}
    (copied : (sampleRegistryMirror true).Copied sampleDestination ["latest"] served) :
    served = sampleServedIndex ∨ served = sampleServedImage := by
  induction copied with
  | tag asked found _ =>
    rcases sampleSourceManifests_found found with ⟨_, index⟩ | ⟨_, image⟩
    · exact Or.inl index
    · exact Or.inr image
  | child _ _ _ _ _ found _ =>
    rcases sampleSourceManifests_found found with ⟨_, index⟩ | ⟨_, image⟩
    · exact Or.inl index
    · exact Or.inr image

/-- An index is copied with its image and the layer of that. -/
theorem mirror_copies_iff_sample :
    ∃ final, Returns ((sampleRegistryMirror true).mirrorAll 3 sampleDestination false
        (some "latest") (.ok [])) final ∧
      (sampleRegistryMirror true).HasTags ["latest"] final ∧
        (sampleRegistryMirror true).Closed final := by
  have ends : ((sampleRegistryMirror true).mirrorAll 3 sampleDestination false
      (some "latest") (.ok [])).run.any (·.isOk) = true := by
    decide +kernel
  obtain ⟨outcome, ended, isOk⟩ := (Option.any_eq_true ..).mp ends
  cases outcome with
  | error error => exact nomatch isOk
  | ok final =>
    have requested : requestedTags false (some "latest") (.ok []) = .ok ["latest"] := rfl
    have copies := mirror_copies_iff (closed_sampleDestination true) requested ended
    refine ⟨final, ended, copies.1.mpr ?_, copies.2.mpr ?_⟩
    · intro tag asked served old _ _ agreed
      rw [List.mem_singleton.mp asked] at agreed
      exact absurd agreed sample_behind
    · intro served copied parsed read
      rcases sample_copied copied with rfl | rfl
      · obtain rfl := Option.some.inj (sample_reads_index.symm.trans read)
        have children : namedChildren EagerPull.samplePulledIndexValue =
            [EagerPull.sampleImageDigest] := by
          decide +kernel
        have blobs : namedBlobs EagerPull.samplePulledIndexValue = [] := by decide +kernel
        rw [children, blobs]
        refine ⟨fun digest named => Or.inr ⟨_, sample_copies_image, Or.inl ?_⟩, nofun⟩
        rw [List.mem_singleton.mp named]
        exact sampleManifestHash_image
      · obtain rfl := Option.some.inj (sample_reads_image.symm.trans read)
        have children : namedChildren EagerPull.samplePulledImageValue = [] := by decide +kernel
        have blobs : namedBlobs EagerPull.samplePulledImageValue =
            [EagerPull.sampleLayerDigest] := by
          decide +kernel
        have layers : ctlBlobDescriptors EagerPull.samplePulledImageValue =
            [⟨EagerPull.sampleLayerDigest, 2⟩] := by
          decide +kernel
        rw [children, blobs]
        refine ⟨nofun, fun digest named => Or.inr ⟨_, sample_copies_image, by decide +kernel, _,
          sample_reads_image, ⟨EagerPull.sampleLayerDigest, 2⟩, ?_, ?_⟩⟩
        · rw [layers]
          exact List.mem_singleton_self _
        · exact (List.mem_singleton.mp named).symm

end RegistryMirror

/-- Without the digests of the HEAD responses the registries seem to agree, and the mirror is a
success that copies nothing. -/
theorem mirror_skips_stale_tag :
    ∃ final, Returns ((sampleRegistryMirror false).mirrorAll 3 sampleDestination false
        (some "latest") (.ok [])) final ∧
      (sampleRegistryMirror false).Closed sampleDestination ∧
      ¬ (sampleRegistryMirror false).HasTags ["latest"] final := by
  refine ⟨sampleDestination, rfl, closed_sampleDestination false, fun has => ?_⟩
  have tagged : sampleSourceManifests["latest"]? = some sampleServedIndex := by decide +kernel
  obtain ⟨copy, found, same⟩ := has "latest" List.mem_cons_self sampleServedIndex tagged
  have stale : sampleDestination.manifests["latest"]? = some ⟨[0x7b, 0x7d], none⟩ := rfl
  rw [← Option.some.inj (stale.symm.trans found)] at same
  exact absurd same (by decide +kernel)

end Layerhouse
