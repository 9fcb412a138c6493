/-
This file proves that references resolve: a tag holds no colon and points at a
manifest of its own repository, and a manifest is stored under the digest of its
own bytes.

The content of the registry is seen as two functions, from a repository and a
digest to an entry and from a repository and a tag to a digest. Manifest requests
move it in three ways: a push stores an entry and points at most one tag at it, a
removal takes entries away together with every tag that points at one of them,
and the deletion of a tag takes that tag away. What holds of tags and entries is
proved of the moves.
-/

import Layerhouse.Raft.BlobRefs
import Layerhouse.Raft.Content

namespace Layerhouse

/-! ### The content of the registry -/

/-- The entries and the tags of the registry as functions. -/
structure Content where
  entry? : String → String → Option ManifestEntry
  tag? : String → String → Option String

namespace Content

/-- A reference that the lookup reads as a digest. -/
def IsDigestReference (reference : String) : Prop :=
  (Text.stripPrefix "sha256:".toList reference.toList).isSome ∨
    (Text.stripPrefix "sha512:".toList reference.toList).isSome

instance (reference : String) : Decidable (IsDigestReference reference) :=
  inferInstanceAs (Decidable (_ ∨ _))

/-- The entry a reference resolves to. -/
def resolve (content : Content) (name reference : String) : Option ManifestEntry :=
  if IsDigestReference reference then content.entry? name reference
  else (content.tag? name reference).bind ( content.entry? name)

/-- Store an entry under its digest and point the tag, if there is one, at it. -/
def push (content : Content) (name : String) (entry : ManifestEntry) (tag : Option String) :
    Content where
  entry? := fun other digest =>
    if name = other ∧ entry.digest.toStr = digest then some entry else content.entry? other digest
  tag? := fun other reference =>
    if name = other ∧ tag = some reference then some entry.digest.toStr
    else content.tag? other reference

/-- Take away the entries of a repository whose digest is hit, and the tags that point at
them. -/
def remove (content : Content) (name : String) (hit : String → Bool) : Content where
  entry? := fun other digest =>
    if name = other ∧ hit digest = true then none else content.entry? other digest
  tag? := fun other reference =>
    (content.tag? other reference).filter fun digest => ¬ (name = other ∧ hit digest = true)

/-- Take away one tag. -/
def untag (content : Content) (name tag : String) : Content where
  entry? := content.entry?
  tag? := fun other reference =>
    if name = other ∧ tag = reference then none else content.tag? other reference

end Content

def StateMachineData.content (data : StateMachineData) : Content where
  entry? := BTreeMap.entry? data.manifests
  tag? := BTreeMap.entry? data.tags

theorem getManifest_eq_resolve (data : StateMachineData) (name reference : String) :
    data.getManifest name reference = data.content.resolve name reference := by
  rw [StateMachineData.getManifest, Content.resolve]
  simp only [Content.IsDigestReference]
  refine if_congr Iff.rfl rfl ?_
  simp only [StateMachineData.content, BTreeMap.entry?]
  cases data.tags[name]?.bind (·[reference]?) <;> rfl

/-! ### Requests move the content -/

/-- The tag that a push points at its entry. -/
def PutManifest.tag (put : PutManifest) : Option String :=
  if ':' ∈ put.reference.toList then none else some put.reference

/-- What a manifest request does to the content. -/
inductive ContentMove (externals : Externals) (data : StateMachineData) :
    ManifestRequest → Content → Prop
  | kept {request : ManifestRequest} : ContentMove externals data request data.content
  | pushed {put : PutManifest}
      (checked : requireExpectedNamespace data put.name put.expectedNamespace = .ok ())
      (absent : put.requireReferenceAbsent = true → ':' ∉ put.reference.toList →
        data.getManifest put.name put.reference = none) :
      ContentMove externals data (.putManifest put)
        (data.content.push put.name (put.entry externals) put.tag)
  | removed {request : ManifestRequest} {name : String} {hit : String → Bool} :
      ContentMove externals data request (data.content.remove name hit)
  | untagged {request : ManifestRequest} {name tag : String} :
      ContentMove externals data request (data.content.untag name tag)

theorem Content.ext_lookups {first second : Content}
    (entries : ∀ name digest, first.entry? name digest = second.entry? name digest)
    (tags : ∀ name tag, first.tag? name tag = second.tag? name tag) : first = second := by
  obtain ⟨firstEntries, firstTags⟩ := first
  obtain ⟨secondEntries, secondTags⟩ := second
  rw [Content.mk.injEq]
  exact ⟨funext fun name => funext (entries name), funext fun name => funext (tags name)⟩

/-- What the removal loop keeps: the entries under no digest of the list. -/
theorem getElem?_removeAll (digests : List String) (repo : BTreeMap String ManifestEntry)
    (digest : String) :
    (removeAll digests repo).1[digest]? = if digest ∈ digests then none else repo[digest]? := by
  obtain ⟨remove, loop, absent, taken⟩ := removeAll_eq_foldl
  rw [loop]
  suffices general : ∀ (left : BTreeMap String ManifestEntry) (removed : List ManifestEntry),
      (digests.foldl remove (left, removed)).1[digest]? =
      if digest ∈ digests then none else left[digest]? from general repo []
  induction digests with
  | nil => exact fun left removed => by rw [if_neg List.not_mem_nil]; rfl
  | cons head rest inductionHypothesis =>
    intro left removed
    rw [List.foldl_cons]
    have erased : (left.erase head)[digest]? =
        if digest = head then none else left[digest]? := by
      rw [BTreeMap.getElem?_erase]
      exact if_congr eq_comm rfl rfl
    cases found : left[head]? with
    | none =>
      rw [absent left removed head found, inductionHypothesis left removed]
      rw [BTreeMap.erase_of_absent found] at erased
      by_cases inRest : digest ∈ rest
      · rw [if_pos inRest, if_pos (List.mem_cons_of_mem head inRest)]
      · rw [if_neg inRest]
        conv_lhs => rw [erased]
        simp only [List.mem_cons, inRest, or_false]
    | some entry =>
      rw [taken left removed head entry found, inductionHypothesis, erased]
      by_cases inRest : digest ∈ rest
      · rw [if_pos inRest, if_pos (List.mem_cons_of_mem head inRest)]
      · rw [if_neg inRest]
        simp only [List.mem_cons, inRest, or_false]

theorem storeEntry_content (data : StateMachineData) (name : String) (entry : ManifestEntry) :
    (data.storeEntry name entry).content = data.content.push name entry none := by
  obtain ⟨_, sameTags, manifestsEq⟩ := storeEntry_frame data name entry
  refine Content.ext_lookups (fun other digest => ?_) fun other reference => ?_
  · simp only [StateMachineData.content, Content.push, manifestsEq]
    exact BTreeMap.entry?_put data.manifests name other entry.digest.toStr digest entry
  · simp only [StateMachineData.content, Content.push, sameTags, reduceCtorEq, and_false, if_false]

theorem setTag_content (data : StateMachineData) (name : String) (entry : ManifestEntry)
    (reference : String) :
    ((data.storeEntry name entry).setTag name reference entry.digest.toStr).content =
      data.content.push name entry (some reference) := by
  have stored := storeEntry_content data name entry
  refine Content.ext_lookups (fun other digest => ?_) fun other tag => ?_
  · exact congrFun (congrFun (congrArg Content.entry? stored) other) digest
  · have sameTags := (storeEntry_frame data name entry).2.1
    simp only [StateMachineData.content, StateMachineData.setTag, Content.push, sameTags,
      Option.some.injEq]
    exact BTreeMap.entry?_put data.tags name other reference tag entry.digest.toStr

/-- Dropping the tags of removed entries completes a removal. -/
theorem dropTags_content {data removed : StateMachineData} {name : String} {hit : String → Bool}
    (sameTags : removed.tags = data.tags)
    (entries : ∀ other digest, removed.content.entry? other digest =
      if name = other ∧ hit digest = true then none else data.content.entry? other digest) :
    (removed.dropTags name hit).content = data.content.remove name hit := by
  refine Content.ext_lookups (fun other digest => ?_) fun other reference => ?_
  · have sameManifests := (dropTags_frame removed name hit).2.1
    simp only [StateMachineData.content, sameManifests]
    exact entries other digest
  · simp only [StateMachineData.content, Content.remove]
    unfold StateMachineData.dropTags
    rw [sameTags]
    cases found : data.tags[name]? with
    | none =>
      simp only [sameTags]
      by_cases same : name = other
      · rw [← same, BTreeMap.entry?, found]
        rfl
      · simp only [same, false_and, not_false_eq_true, decide_true]
        cases BTreeMap.entry? data.tags other reference <;> rfl
    | some repoTags =>
      simp only [BTreeMap.entry?_insert, BTreeMap.getElem?_retain]
      by_cases same : name = other
      · subst same
        rw [if_pos rfl, BTreeMap.entry?_of_getElem? found]
        simp only [true_and, Bool.not_eq_true, Bool.decide_eq_false]
      · simp only [same, if_false, false_and, not_false_eq_true, decide_true]
        cases BTreeMap.entry? data.tags other reference <;> rfl

theorem removeEntry_entries (data : StateMachineData) (name digest other otherDigest : String) :
    Content.entry? (data.removeEntry name digest).content other otherDigest =
      if name = other ∧ decide (otherDigest = digest) = true then none
      else data.content.entry? other otherDigest := by
  have erased : ∀ repo, data.manifests[name]? = some repo →
      BTreeMap.entry? (data.manifests.insert name (repo.erase digest)) other otherDigest =
        if name = other ∧ decide (otherDigest = digest) = true then none
        else BTreeMap.entry? data.manifests other otherDigest := by
    intro repo found
    rw [BTreeMap.entry?_insert, BTreeMap.getElem?_erase]
    by_cases same : name = other
    · subst same
      simp only [if_true, true_and, decide_eq_true_eq, BTreeMap.entry?_of_getElem? found]
      exact if_congr eq_comm rfl rfl
    · rw [if_neg same, if_neg fun both => same both.1]
  simp only [StateMachineData.content]
  unfold StateMachineData.removeEntry
  cases found : data.manifests[name]? with
  | none =>
    by_cases same : name = other ∧ decide (otherDigest = digest) = true
    · rw [if_pos same, ← same.1, BTreeMap.entry?, found]
      rfl
    · rw [if_neg same]
  | some repo =>
    simp only
    cases repo[digest]? with
    | none => exact erased repo found
    | some entry => exact erased repo found

theorem removeEntries_entries (data : StateMachineData) (name : String) (digests : List String)
    (other digest : String) :
    Content.entry? (data.removeEntries name digests).content other digest =
      if name = other ∧ digest ∈ digests then none else data.content.entry? other digest := by
  simp only [StateMachineData.content]
  unfold StateMachineData.removeEntries
  cases found : data.manifests[name]? with
  | none =>
    by_cases same : name = other ∧ digest ∈ digests
    · rw [if_pos same, ← same.1, BTreeMap.entry?, found]
      rfl
    · rw [if_neg same]
  | some repo =>
    simp only [(foldl_decrementBlobRefs_frame _ _).2.2]
    rw [BTreeMap.entry?_insert, getElem?_removeAll]
    by_cases same : name = other
    · subst same
      simp only [if_true, true_and, BTreeMap.entry?_of_getElem? found]
    · rw [if_neg same, if_neg fun both => same both.1]

/-- The removal of a repository's manifests and tags removes every digest of it. -/
theorem removeManifests_content (data : StateMachineData) (name : String)
    (validations : ProxyCacheTagValidations) :
    ({ data.removeManifests name with
        tags := (data.removeManifests name).tags.erase name
        proxyCacheTagValidations := validations } : StateMachineData).content =
      data.content.remove name fun _ => true := by
  have removed : ∀ other digest, BTreeMap.entry? (data.removeManifests name).manifests other
      digest = if name = other then none else BTreeMap.entry? data.manifests other digest := by
    intro other digest
    unfold StateMachineData.removeManifests
    cases found : data.manifests[name]? with
    | none =>
      by_cases same : name = other
      · rw [if_pos same, ← same, BTreeMap.entry?, found]
        rfl
      · rw [if_neg same]
    | some repo =>
      simp only [(foldl_decrementBlobRefs_frame _ _).2.2]
      exact BTreeMap.entry?_erase data.manifests name other digest
  refine Content.ext_lookups (fun other digest => ?_) fun other reference => ?_
  · simp only [StateMachineData.content, Content.remove, and_true]
    exact removed other digest
  · simp only [StateMachineData.content, Content.remove, and_true,
      (removeManifests_keys data name).2, BTreeMap.entry?_erase]
    by_cases same : name = other
    · simp only [same, if_true, not_true_eq_false, decide_false]
      cases BTreeMap.entry? data.tags other reference <;> rfl
    · simp only [same, if_false, not_false_eq_true, decide_true]
      cases BTreeMap.entry? data.tags other reference <;> rfl

/-- A push is refused or stores its entry; with the check for absence, only under a tag that
resolves nowhere. -/
theorem putManifest_content (externals : Externals) (data : StateMachineData)
    (put : PutManifest) :
    let next := (applyManifest externals data (.putManifest put)).1
    next.content = data.content ∨
      requireExpectedNamespace data put.name put.expectedNamespace = .ok () ∧
        (put.requireReferenceAbsent = true → ':' ∉ put.reference.toList →
          data.getManifest put.name put.reference = none) ∧
        next.content = data.content.push put.name (put.entry externals) put.tag := by
  refine afterCheck_fst (fun next => next.content = data.content ∨
      requireExpectedNamespace data put.name put.expectedNamespace = .ok () ∧
        (put.requireReferenceAbsent = true → ':' ∉ put.reference.toList →
          data.getManifest put.name put.reference = none) ∧
        next.content = data.content.push put.name (put.entry externals) put.tag)
    (Or.inl rfl) fun checked => ?_
  split
  · exact Or.inl rfl
  · rename_i unblocked
    refine Or.inr ⟨checked, fun required untagged => ?_, ?_⟩
    · by_contra present
      exact unblocked ⟨required, untagged, Option.isSome_iff_ne_none.mpr present⟩
    · simp only
      split
      · rename_i byDigest
        rw [storeEntry_content, PutManifest.tag, if_pos byDigest]
      · rename_i byTag
        rw [setTag_content, PutManifest.tag, if_neg byTag]

/-- Every manifest request makes one of the moves. -/
theorem applyManifest_move (externals : Externals) (data : StateMachineData)
    (request : ManifestRequest) :
    ContentMove externals data request (applyManifest externals data request).1.content := by
  cases request with
  | putManifest put =>
    rcases putManifest_content externals data put with kept | ⟨checked, absent, pushed⟩
    · rw [kept]
      exact .kept
    · rw [pushed]
      exact .pushed checked absent
  | deleteManifest name expected digest =>
    refine afterCheck_fst (fun next =>
      ContentMove externals data (.deleteManifest name expected digest) next.content)
      .kept fun _ => ?_
    rw [dropTags_content (removeEntry_keys data name digest).2
      (removeEntry_entries data name digest)]
    exact .removed
  | deleteTag name expected digest tag =>
    refine afterCheck_fst (fun next =>
      ContentMove externals data (.deleteTag name expected digest tag) next.content)
      .kept fun _ => ?_
    cases found : data.tags[name]? with
    | none => exact .kept
    | some repoTags =>
      simp only
      split
      · have untagged : ({ data with
            tags := data.tags.insert name (repoTags.erase tag)
            proxyCacheTagValidations := clearProxyCacheTagValidationsForTag
              data.proxyCacheTagValidations name tag } : StateMachineData).content =
            data.content.untag name tag := by
          refine Content.ext_lookups (fun _ _ => rfl) fun other reference => ?_
          simp only [StateMachineData.content, Content.untag, BTreeMap.entry?_insert,
            BTreeMap.getElem?_erase]
          by_cases same : name = other
          · subst same
            simp only [if_true, true_and, BTreeMap.entry?_of_getElem? found]
          · rw [if_neg same, if_neg fun both => same both.1]
        rw [untagged]
        exact .untagged
      · exact .kept
  | deleteRepository name expected =>
    refine afterCheck_fst (fun next =>
      ContentMove externals data (.deleteRepository name expected) next.content) .kept fun _ => ?_
    rw [removeManifests_content]
    exact .removed
  | deleteManifests name expected digests =>
    refine afterCheck_fst (fun next =>
      ContentMove externals data (.deleteManifests name expected digests) next.content)
      .kept fun _ => ?_
    simp only
    rw [dropTags_content (removeEntries_keys data name _).2]
    · exact .removed
    · intro other digest
      rw [removeEntries_entries]
      refine if_congr (and_congr_right fun _ => ?_) rfl rfl
      rw [Std.ExtTreeMap.mem_keys, ← Std.ExtTreeMap.contains_iff_mem]
  | mountBlob sourceRepo destRepo expected digest =>
    exact afterCheck_fst (fun next =>
      ContentMove externals data (.mountBlob sourceRepo destRepo expected digest) next.content)
      .kept fun _ => .kept
  | recordBlobDelete digest requestedAt => exact .kept
  | clearBlobDelete digest => exact .kept

/-- A request of another domain leaves the content, and a manifest request makes a move. -/
theorem applyRequest_content {externals : Externals} {now : Nat} {data next : StateMachineData}
    {request : Request} {response : Response}
    (applied : applyRequest externals now data request = .ok (next, response)) :
    next.content = data.content ∨
      ∃ inner, request = .manifest inner ∧ ContentMove externals data inner next.content := by
  have framed := congrArg StateMachineData.content (applyRequest_frame applied)
  cases request with
  | manifest inner =>
    cases applied
    exact Or.inr ⟨inner, rfl, applyManifest_move externals data inner⟩
  | _ => exact Or.inl framed

/-! ### References resolve -/

/-- Every entry is stored under its digest. -/
def Content.Keyed (content : Content) : Prop :=
  ∀ name digest entry, content.entry? name digest = some entry → digest = entry.digest.toStr

namespace Content.Keyed

variable {content : Content}

theorem push (holds : content.Keyed) (name : String) (entry : ManifestEntry)
    (tag : Option String) : (content.push name entry tag).Keyed := by
  intro other digest stored found
  simp only [Content.push] at found
  split at found
  · rename_i same
    cases found
    exact same.2.symm
  · exact holds other digest stored found

theorem remove (holds : content.Keyed) (name : String) (hit : String → Bool) :
    (content.remove name hit).Keyed :=
  fun other digest entry found =>
    holds other digest entry (Option.ite_none_left_eq_some.mp found).2

theorem applyRequest {externals : Externals} {now : Nat} {data next : StateMachineData}
    {request : Request} {response : Response} (holds : data.content.Keyed)
    (applied : Layerhouse.applyRequest externals now data request = .ok (next, response)) :
    next.content.Keyed := by
  rcases applyRequest_content applied with same | ⟨inner, _, moved⟩
  · rw [same]
    exact holds
  · generalize next.content = content at moved ⊢
    cases moved with
    | kept => exact holds
    | pushed checked absent => exact holds.push _ _ _
    | removed => exact holds.remove _ _
    | untagged => exact holds

end Content.Keyed

/-- What holds of the tags and entries: a tag holds no colon and points at an entry of its
repository, and an entry is stored under its digest, which is the one of its body. -/
structure Content.Consistent (hash : List UInt8 → Vector UInt8 32) (content : Content) : Prop where
  plain : ∀ name tag digest, content.tag? name tag = some digest → ':' ∉ tag.toList
  present : ∀ name tag digest, content.tag? name tag = some digest →
    ∃ entry, content.entry? name digest = some entry
  keyed : content.Keyed
  addressed : ∀ name digest entry, content.entry? name digest = some entry →
    entry.digest = Digest.sha256 hash entry.body

namespace Content.Consistent

variable {hash : List UInt8 → Vector UInt8 32} {content : Content}

theorem push (holds : content.Consistent hash) (name : String) {entry : ManifestEntry}
    {tag : Option String} (plain : ∀ reference, tag = some reference → ':' ∉ reference.toList)
    (addressed : entry.digest = Digest.sha256 hash entry.body) :
    (content.push name entry tag).Consistent hash where
  plain := by
    intro other reference digest found
    simp only [Content.push] at found
    split at found
    · rename_i same
      exact plain reference same.2
    · exact holds.plain other reference digest found
  present := by
    intro other reference digest found
    simp only [Content.push] at found ⊢
    split at found
    · rename_i same
      cases found
      exact ⟨entry, if_pos ⟨same.1, rfl⟩⟩
    · obtain ⟨stored, lookup⟩ := holds.present other reference digest found
      by_cases same : name = other ∧ entry.digest.toStr = digest
      · exact ⟨entry, if_pos same⟩
      · exact ⟨stored, (if_neg same).trans lookup⟩
  keyed := holds.keyed.push name entry tag
  addressed := by
    intro other digest stored found
    simp only [Content.push] at found
    split at found
    · cases found
      exact addressed
    · exact holds.addressed other digest stored found

theorem remove (holds : content.Consistent hash) (name : String) (hit : String → Bool) :
    (content.remove name hit).Consistent hash := by
  have entryOf : ∀ other digest entry,
      Content.entry? (content.remove name hit) other digest = some entry →
      content.entry? other digest = some entry := by
    intro other digest entry found
    exact (Option.ite_none_left_eq_some.mp found).2
  have tagOf : ∀ other reference digest,
      (content.remove name hit).tag? other reference = some digest →
        content.tag? other reference = some digest ∧ ¬ (name = other ∧ hit digest = true) := by
    intro other reference digest found
    obtain ⟨lookup, kept⟩ := Option.filter_eq_some_iff.mp found
    exact ⟨lookup, of_decide_eq_true kept⟩
  exact {
    plain := fun other reference digest found =>
      holds.plain other reference digest (tagOf other reference digest found).1
    present := by
      intro other reference digest found
      obtain ⟨lookup, kept⟩ := tagOf other reference digest found
      obtain ⟨entry, stored⟩ := holds.present other reference digest lookup
      exact ⟨entry, (if_neg kept).trans stored⟩
    keyed := holds.keyed.remove name hit
    addressed := fun other digest entry found =>
      holds.addressed other digest entry (entryOf other digest entry found) }

theorem untag (holds : content.Consistent hash) (name tag : String) :
    (content.untag name tag).Consistent hash where
  plain := fun other reference digest found =>
    holds.plain other reference digest (Option.ite_none_left_eq_some.mp found).2
  present := fun other reference digest found =>
    holds.present other reference digest (Option.ite_none_left_eq_some.mp found).2
  keyed := holds.keyed
  addressed := holds.addressed

end Content.Consistent

/-- The digest field of the push is the digest of its body, as the writers of the request make
it. -/
def PutManifest.Addressed (hash : List UInt8 → Vector UInt8 32) (put : PutManifest) : Prop :=
  put.digest = (Digest.sha256 hash put.body).toStr

theorem PutManifest.Addressed.entry {externals : Externals} {put : PutManifest}
    (addressed : put.Addressed externals.sha256) :
    (put.entry externals).digest =
      Digest.sha256 externals.sha256 (put.entry externals).body := by
  simp only [PutManifest.entry]
  rw [PutManifest.Addressed] at addressed
  cases parsed : Digest.fromStrChecked put.digest with
  | none => rfl
  | some digest =>
    rw [addressed] at parsed
    exact Digest.eq_sha256_of_fromStrChecked parsed

/-- A request that pushes nothing, or pushes a manifest under the digest of its body. -/
def Request.Addressed (hash : List UInt8 → Vector UInt8 32) (request : Request) : Prop :=
  ∀ put, request = .manifest (.putManifest put) → put.Addressed hash

theorem Content.Consistent.applyRequest {externals : Externals} {now : Nat}
    {data next : StateMachineData} {request : Request} {response : Response}
    (holds : data.content.Consistent externals.sha256)
    (addressed : request.Addressed externals.sha256)
    (applied : Layerhouse.applyRequest externals now data request = .ok (next, response)) :
    next.content.Consistent externals.sha256 := by
  rcases applyRequest_content applied with same | ⟨inner, rfl, moved⟩
  · rw [same]
    exact holds
  · generalize next.content = content at moved ⊢
    cases moved with
    | kept => exact holds
    | @pushed put checked absent =>
      refine holds.push put.name (fun reference tagged => ?_) (addressed put rfl).entry
      rw [PutManifest.tag] at tagged
      obtain ⟨plain, same⟩ := Option.ite_none_left_eq_some.mp tagged
      cases same
      exact plain
    | removed => exact holds.remove _ _
    | untagged => exact holds.untag _ _

theorem content_consistent_empty (hash : List UInt8 → Vector UInt8 32) :
    StateMachineData.empty.content.Consistent hash := by
  have noEntry : ∀ name digest, StateMachineData.empty.content.entry? name digest = none :=
    BTreeMap.entry?_empty
  have noTag : ∀ name tag, StateMachineData.empty.content.tag? name tag = none :=
    BTreeMap.entry?_empty
  exact {
    plain := fun name tag digest found => by rw [noTag] at found; cases found
    present := fun name tag digest found => by rw [noTag] at found; cases found
    keyed := fun name digest entry found => by rw [noEntry] at found; cases found
    addressed := fun name digest entry found => by rw [noEntry] at found; cases found }

/-- A reference that is read as a digest holds a colon. -/
theorem Content.IsDigestReference.colon {reference : String} (read : IsDigestReference reference) :
    ':' ∈ reference.toList := by
  rcases read with found | found
  · obtain ⟨rest, stripped⟩ := Option.isSome_iff_exists.mp found
    rw [Text.stripPrefix_eq_some.mp stripped]
    exact List.mem_append_left rest (by decide)
  · obtain ⟨rest, stripped⟩ := Option.isSome_iff_exists.mp found
    rw [Text.stripPrefix_eq_some.mp stripped]
    exact List.mem_append_left rest (by decide)

/-- The digest of bytes is read as a digest. -/
theorem Content.isDigestReference_sha256 (hash : List UInt8 → Vector UInt8 32)
    (bytes : List UInt8) : IsDigestReference (Digest.sha256 hash bytes).toStr := by
  refine Or.inl (Option.isSome_iff_exists.mpr ⟨(Digest.sha256 hash bytes).hex.toList, ?_⟩)
  rw [Text.stripPrefix_eq_some]
  simp [Digest.toStr, Digest.sha256]

/-- A tag of consistent content resolves to the entry it points at. -/
theorem Content.Consistent.resolve_tag {hash : List UInt8 → Vector UInt8 32} {content : Content}
    (holds : content.Consistent hash) {name tag digest : String}
    (found : content.tag? name tag = some digest) :
    ∃ entry, content.resolve name tag = some entry ∧ entry.digest.toStr = digest := by
  obtain ⟨entry, stored⟩ := holds.present name tag digest found
  refine ⟨entry, ?_, (holds.keyed name digest entry stored).symm⟩
  rw [Content.resolve, if_neg fun read => holds.plain name tag digest found read.colon, found]
  exact stored

/-- A digest of consistent content resolves only to bytes with that digest. -/
theorem Content.Consistent.resolve_digest {hash : List UInt8 → Vector UInt8 32}
    {content : Content} (holds : content.Consistent hash) {name reference : String}
    {entry : ManifestEntry} (read : IsDigestReference reference)
    (resolved : content.resolve name reference = some entry) :
    reference = (Digest.sha256 hash entry.body).toStr := by
  rw [Content.resolve, if_pos read] at resolved
  rw [holds.keyed name reference entry resolved, holds.addressed name reference entry resolved]

theorem content_consistent {externals : Externals} {labels : List (Nat × Request)}
    {data : StateMachineData}
    (reached : run (requestStep externals) StateMachineData.empty labels = some data)
    (addressed : ∀ label ∈ labels, label.2.Addressed externals.sha256) :
    data.content.Consistent externals.sha256 := by
  refine run_invariant_along (fun data => data.content.Consistent externals.sha256) ?_ reached
    (along_of_forall fun label member _ => addressed label member)
    (content_consistent_empty externals.sha256)
  intro state label next stepped meets holds
  obtain ⟨response, applied⟩ := requestStep_eq_some.mp stepped
  exact holds.applyRequest meets applied

/-- In every state that a run of requests reaches whose pushes carry the digest of their body,
tags hold no colon and point at a manifest of their repository, and manifests are stored under
their digest, which is the one of their body. So a lookup by tag never dangles, and a lookup by
digest returns bytes with that digest. -/
theorem references_resolve (externals : Externals) (labels : List (Nat × Request))
    (data : StateMachineData)
    (reached : run (requestStep externals) StateMachineData.empty labels = some data)
    (addressed : ∀ label ∈ labels, label.2.Addressed externals.sha256) :
    data.content.Consistent externals.sha256 ∧
      (∀ name tag digest, data.content.tag? name tag = some digest →
        ∃ entry, data.getManifest name tag = some entry ∧ entry.digest.toStr = digest) ∧
      ∀ name reference entry, Content.IsDigestReference reference →
        data.getManifest name reference = some entry →
          reference = (Digest.sha256 externals.sha256 entry.body).toStr := by
  have holds := content_consistent reached addressed
  refine ⟨holds, fun name tag digest found => ?_, fun name reference entry read resolved => ?_⟩
  · rw [getManifest_eq_resolve]
    exact holds.resolve_tag found
  · rw [getManifest_eq_resolve] at resolved
    exact holds.resolve_digest read resolved

/-- Functions of other packages for concrete runs whose manifests have an empty body: the hash
is the one of the empty text. -/
def emptyBodyExternals : Externals :=
  { sampleExternals with
    sha256 := fun _ => Digest.emptyTextHash }

def emptyBodyDigest : String :=
  "sha256:e3b0c44298fc1c149afbf4c8996fb92427ae41e4649b934ca495991b7852b855"

/-- A push of an empty manifest to a claimed namespace: its tag resolves to it. -/
theorem references_resolve_sample :
    ∃ data entry,
      run (requestStep emptyBodyExternals) StateMachineData.empty
        [(0, sampleClaim "alice" "first" false),
          (0, .manifest (.putManifest (samplePush "alice/app" (some ⟨"alice", 1⟩) emptyBodyDigest
            (sampleDigest 'b'))))] = some data ∧
      data.getManifest "alice/app" "latest" = some entry ∧
      entry.digest.toStr = emptyBodyDigest := by
  have reached : run (requestStep emptyBodyExternals) StateMachineData.empty
      [(0, sampleClaim "alice" "first" false),
        (0, .manifest (.putManifest (samplePush "alice/app" (some ⟨"alice", 1⟩) emptyBodyDigest
          (sampleDigest 'b'))))] = some _ := rfl
  obtain ⟨entry, found, same⟩ := (references_resolve emptyBodyExternals _ _ reached (by
    intro label member put pushed
    rcases List.mem_pair.mp member with rfl | rfl
    · cases pushed
    · cases pushed
      rfl)).2.1 "alice/app" "latest" emptyBodyDigest rfl
  exact ⟨_, entry, reached, found, same⟩

end Layerhouse
