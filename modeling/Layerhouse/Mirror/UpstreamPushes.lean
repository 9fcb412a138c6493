/-
This file is the push of an image to an upstream: `push_manifest_recursive` of
`mirror/mod.rs`, which pushes the children of an index before the index. It follows the
digest strings of the children through `get_manifest`, which also resolves tags, and keeps
no set of what it has visited.

Children that are named by a digest cannot lead back to an index: a manifest would name its
own digest over some steps. But nothing asks that the digest string of a child is a digest.
An index that names a tag as its child is accepted, and when the tag leads back to the
index the push never ends. The file proves that it ends in all other cases.
-/

import Layerhouse.Library.Descents
import Layerhouse.Mirror.EagerPulls
import Layerhouse.Raft.References

namespace Layerhouse

open Relation

/-! ### The push -/

/-- What a push does, in order: a call for the first of some references, with the calls it came
through, the push of the blobs of a manifest, and the push of a manifest. -/
inductive PushEvent where
  | call (path : List String)
  | blobs (descriptors : List BlobDescriptor)
  | manifest (reference : String) (entry : ManifestEntry)

/-- What the blob store and the upstream answer to the last of some events. -/
abbrev PushAnswers := List PushEvent → Except LayerhouseError Unit

/-- A repository of the registry, as a push reads it. -/
structure LocalRepository where
  externals : Externals
  data : StateMachineData
  repoName : String

namespace LocalRepository

variable (repository : LocalRepository)

def getManifest (reference : String) : Option ManifestEntry :=
  repository.data.getManifest repository.repoName reference

/-- The loop over the children of an index, which calls `push` for each of them. -/
def pushChildren
    (push : String → ManifestEntry → List PushEvent →
      Option (Except LayerhouseError Unit × List PushEvent)) :
    List BlobDescriptor → List PushEvent → Option (Except LayerhouseError Unit × List PushEvent)
  | [], events => some (.ok (), events)
  | child :: rest, events =>
    match repository.getManifest child.digest with
    | none => some (.error (.manifestUnknown child.digest), events)
    | some childEntry =>
      match push child.digest childEntry events with
      | none => none
      | some (.error error, events) => some (.error error, events)
      | some (.ok (), events) => pushChildren push rest events

/-- The push of what a manifest refers to. -/
def pushReferenced (answers : PushAnswers)
    (push : String → ManifestEntry → List PushEvent →
      Option (Except LayerhouseError Unit × List PushEvent))
    (entry : ManifestEntry) (parsed : Value) (events : List PushEvent) :
    Option (Except LayerhouseError Unit × List PushEvent) :=
  if isIndexManifest entry.contentType then
    repository.pushChildren push (extractChildManifests parsed) events
  else
    let events := .blobs (extractBlobDescriptors parsed) :: events
    some (answers events, events)

/-- The recursion, for a number of levels; `none` when they do not suffice. -/
def pushManifestRecursive (answers : PushAnswers) :
    Nat → List String → String → ManifestEntry → List PushEvent →
      Option (Except LayerhouseError Unit × List PushEvent)
  | 0, _, _, _, _ => none
  | depth + 1, above, reference, entry, events =>
    let events := .call (reference :: above) :: events
    match repository.externals.fromSlice entry.body with
    | none => some (.error (.manifestInvalid "invalid manifest JSON"), events)
    | some parsed =>
      let push := pushManifestRecursive answers depth (reference :: above)
      match repository.pushReferenced answers push entry parsed events with
      | none => none
      | some (.error error, events) => some (.error error, events)
      | some (.ok (), events) =>
        let events := .manifest reference entry :: events
        some (answers events, events)

/-! ### What a push descends to -/

/-- The manifest and all below it are there, so that the push goes on after it unless an answer is
an error. -/
inductive Pushable : String → Prop where
  | image {reference : String} {entry : ManifestEntry} {parsed : Value}
      (found : repository.getManifest reference = some entry)
      (read : repository.externals.fromSlice entry.body = some parsed)
      (isImage : isIndexManifest entry.contentType = false) : Pushable reference
  | index {reference : String} {entry : ManifestEntry} {parsed : Value}
      (found : repository.getManifest reference = some entry)
      (read : repository.externals.fromSlice entry.body = some parsed)
      (isIndex : isIndexManifest entry.contentType = true)
      (children : ∀ child ∈ extractChildManifests parsed, Pushable child.digest) :
      Pushable reference

/-- A child of an index that is there, after children that can be pushed. -/
structure Visits (reference digest : String) : Prop where
  found : ∃ entry, repository.getManifest reference = some entry ∧
    isIndexManifest entry.contentType = true ∧
    ∃ parsed, repository.externals.fromSlice entry.body = some parsed ∧
      ∃ before child after, extractChildManifests parsed = before ++ child :: after ∧
        child.digest = digest ∧ ∀ earlier ∈ before, repository.Pushable earlier.digest
  present : ∃ entry, repository.getManifest digest = some entry

/-- No child that is visited, and named by anything but a digest, leads back to the index that
names it. -/
def TagsLeadOn (reference : String) : Prop :=
  ∀ index digest, ReflTransGen repository.Visits reference index →
    repository.Visits index digest → ¬ Content.IsDigestReference digest →
      ¬ ReflTransGen repository.Visits digest index

/-- The push of the manifest under a reference ends whatever is answered, and no call comes through
a call for the same reference. -/
def PushEnds (reference : String) (entry : ManifestEntry) : Prop :=
  ∀ answers : PushAnswers, ∃ depth result events,
    repository.pushManifestRecursive answers depth [] reference entry [] =
      some (result, events) ∧
    ∀ path, .call path ∈ events → path.Nodup

end LocalRepository

/-- No manifest names its own digest as a child, over any number of manifests. -/
def HashAcyclic (externals : Externals) : Prop :=
  ∀ body, ¬ TransGen (fun index child => ∃ parsed, externals.fromSlice index = some parsed ∧
    (Digest.sha256 externals.sha256 child).toStr ∈
      (extractChildManifests parsed).map (·.digest)) body body

/-! ### The loop over the children -/

namespace LocalRepository

variable {repository : LocalRepository}
  {push : String → ManifestEntry → List PushEvent →
    Option (Except LayerhouseError Unit × List PushEvent)}
  {result : Except LayerhouseError Unit} {events after : List PushEvent}

/-- The child was pushed without an error. -/
def PushedWell (repository : LocalRepository)
    (push : String → ManifestEntry → List PushEvent →
      Option (Except LayerhouseError Unit × List PushEvent)) (child : BlobDescriptor) : Prop :=
  ∃ entry events after, repository.getManifest child.digest = some entry ∧
    push child.digest entry events = some (.ok (), after)

theorem pushedWell_concat {seen : List BlobDescriptor} {child : BlobDescriptor}
    (well : ∀ earlier ∈ seen, repository.PushedWell push earlier)
    (last : repository.PushedWell push child) :
    ∀ earlier ∈ seen ++ [child], repository.PushedWell push earlier := by
  intro earlier member
  rcases List.mem_append.mp member with before | same
  · exact well earlier before
  · rw [List.mem_singleton.mp same]
    exact last

theorem pushChildren_ok {children : List BlobDescriptor}
    (pushed : repository.pushChildren push children events = some (.ok (), after)) :
    ∀ child ∈ children, repository.PushedWell push child := by
  induction children generalizing events with
  | nil => exact nofun
  | cons child rest inductionHypothesis =>
    rw [pushChildren] at pushed
    split at pushed
    · exact nomatch pushed
    · rename_i entry found
      split at pushed
      · exact nomatch pushed
      · exact nomatch pushed
      · rename_i between once
        rintro other (_ | ⟨_, member⟩)
        · exact ⟨entry, events, between, found, once⟩
        · exact inductionHypothesis pushed other member

theorem pushChildren_error {children : List BlobDescriptor} {error : LayerhouseError}
    (pushed : repository.pushChildren push children events = some (.error error, after)) :
    ∃ child ∈ children, repository.getManifest child.digest = none ∨
      ∃ entry events between, repository.getManifest child.digest = some entry ∧
        push child.digest entry events = some (.error error, between) := by
  induction children generalizing events with
  | nil => exact nomatch pushed
  | cons child rest inductionHypothesis =>
    rw [pushChildren] at pushed
    split at pushed
    · rename_i missing
      exact ⟨child, List.mem_cons_self, Or.inl missing⟩
    · rename_i entry found
      split at pushed
      · exact nomatch pushed
      · rename_i between once
        cases pushed
        exact ⟨child, List.mem_cons_self, Or.inr ⟨entry, events, _, found, once⟩⟩
      · obtain ⟨other, member, failed⟩ := inductionHypothesis pushed
        exact ⟨other, List.mem_cons_of_mem child member, failed⟩

/-- What the push of a child keeps, when the children before it were pushed without an error, is
kept by the loop. -/
theorem pushChildren_keeps (keeps : List PushEvent → Prop) (seen children : List BlobDescriptor)
    (one : ∀ {before child rest entry events result after},
      seen ++ children = before ++ child :: rest →
      (∀ earlier ∈ before, repository.PushedWell push earlier) →
      repository.getManifest child.digest = some entry → keeps events →
      push child.digest entry events = some (result, after) → keeps after)
    (well : ∀ earlier ∈ seen, repository.PushedWell push earlier) (kept : keeps events)
    (pushed : repository.pushChildren push children events = some (result, after)) :
    keeps after := by
  induction children generalizing seen events with
  | nil =>
    cases pushed
    exact kept
  | cons child rest inductionHypothesis =>
    rw [pushChildren] at pushed
    split at pushed
    · cases pushed
      exact kept
    · rename_i entry found
      split at pushed
      · exact nomatch pushed
      · rename_i once
        cases pushed
        exact one rfl well found kept once
      · rename_i between once
        refine inductionHypothesis (seen ++ [child]) ?_
          (pushedWell_concat well ⟨entry, events, between, found, once⟩)
          (one rfl well found kept once) pushed
        rw [List.append_assoc]
        exact one

/-- The loop ends if the push of every child that it comes to does. -/
theorem pushChildren_ends (seen children : List BlobDescriptor)
    (one : ∀ {before child rest entry} events, seen ++ children = before ++ child :: rest →
      (∀ earlier ∈ before, repository.PushedWell push earlier) →
      repository.getManifest child.digest = some entry →
      ∃ outcome, push child.digest entry events = some outcome)
    (well : ∀ earlier ∈ seen, repository.PushedWell push earlier) (events : List PushEvent) :
    ∃ outcome, repository.pushChildren push children events = some outcome := by
  induction children generalizing seen events with
  | nil => exact ⟨_, rfl⟩
  | cons child rest inductionHypothesis =>
    rw [pushChildren]
    cases found : repository.getManifest child.digest with
    | none => exact ⟨_, rfl⟩
    | some entry =>
      obtain ⟨⟨outcome, between⟩, once⟩ := one events rfl well found
      cases outcome with
      | error error =>
        simp only [once]
        exact ⟨_, rfl⟩
      | ok =>
        simp only [once]
        refine inductionHypothesis (seen ++ [child]) ?_
          (pushedWell_concat well ⟨entry, events, between, found, once⟩) between
        rw [List.append_assoc]
        exact one

/-- A loop that ends has come to a child if none of the children before it was an error. -/
theorem pushChildren_reaches {before rest : List BlobDescriptor} {child : BlobDescriptor}
    (extends_events : ∀ {digest entry events result after},
      push digest entry events = some (result, after) → events <:+ after)
    (well : ∀ earlier ∈ before, ∀ {entry events result after},
      repository.getManifest earlier.digest = some entry →
        push earlier.digest entry events = some (result, after) → result = .ok ())
    (there : ∀ earlier ∈ before, ∃ entry, repository.getManifest earlier.digest = some entry)
    {entry : ManifestEntry} (found : repository.getManifest child.digest = some entry)
    (pushed : repository.pushChildren push (before ++ child :: rest) events =
      some (result, after)) :
    ∃ start outcome between, push child.digest entry start = some (outcome, between) ∧
      between <:+ after := by
  induction before generalizing events with
  | nil =>
    rw [List.nil_append, pushChildren, found] at pushed
    simp only at pushed
    split at pushed
    · exact nomatch pushed
    · rename_i once
      cases pushed
      exact ⟨events, _, _, once, List.suffix_rfl⟩
    · rename_i between once
      refine ⟨events, _, between, once, ?_⟩
      exact pushChildren_keeps (fun events => between <:+ events) [] rest
        (fun _ _ _ kept step => kept.trans (extends_events step)) nofun List.suffix_rfl pushed
  | cons earlier others inductionHypothesis =>
    obtain ⟨first, isThere⟩ := there earlier List.mem_cons_self
    rw [List.cons_append, pushChildren, isThere] at pushed
    simp only at pushed
    split at pushed
    · exact nomatch pushed
    · rename_i error between once
      exact nomatch well earlier List.mem_cons_self isThere once
    · exact inductionHypothesis
        (fun other member => well other (List.mem_cons_of_mem earlier member))
        (fun other member => there other (List.mem_cons_of_mem earlier member)) pushed

end LocalRepository


/-! ### The recursion -/

namespace LocalRepository

variable {repository : LocalRepository} {answers : PushAnswers} {depth : Nat}
  {above : List String} {reference : String} {entry : ManifestEntry}
  {result : Except LayerhouseError Unit} {events after : List PushEvent}

/-- The parts of a call that ends: its body cannot be read, what it refers to fails, or the
manifest is pushed. -/
theorem pushManifestRecursive_succ
    (pushed : repository.pushManifestRecursive answers (depth + 1) above reference entry events =
      some (result, after)) :
    (repository.externals.fromSlice entry.body = none ∧ result ≠ .ok () ∧
        after = .call (reference :: above) :: events) ∨
      ∃ parsed outcome between, repository.externals.fromSlice entry.body = some parsed ∧
        repository.pushReferenced answers
          (repository.pushManifestRecursive answers depth (reference :: above)) entry parsed
          (.call (reference :: above) :: events) = some (outcome, between) ∧
        (outcome ≠ .ok () ∧ result = outcome ∧ after = between ∨
          outcome = .ok () ∧ after = .manifest reference entry :: between ∧
            result = answers after) := by
  rw [pushManifestRecursive] at pushed
  cases read : repository.externals.fromSlice entry.body with
  | none =>
    simp only [read] at pushed
    cases pushed
    exact Or.inl ⟨rfl, nofun, rfl⟩
  | some parsed =>
    simp only [read] at pushed
    split at pushed
    · exact nomatch pushed
    · rename_i error between referenced
      cases pushed
      exact Or.inr ⟨parsed, _, _, rfl, referenced, Or.inl ⟨nofun, rfl, rfl⟩⟩
    · rename_i between referenced
      cases pushed
      exact Or.inr ⟨parsed, _, _, rfl, referenced, Or.inr ⟨rfl, rfl, rfl⟩⟩

/-- A call is recorded, and what was recorded before stays. -/
theorem pushManifestRecursive_suffix
    (pushed : repository.pushManifestRecursive answers depth above reference entry events =
      some (result, after)) :
    .call (reference :: above) :: events <:+ after := by
  induction depth generalizing above reference entry events result after with
  | zero => exact nomatch pushed
  | succ depth inductionHypothesis =>
    rcases pushManifestRecursive_succ pushed with
      ⟨_, _, rfl⟩ | ⟨parsed, outcome, between, _, referenced, ended⟩
    · exact List.suffix_rfl
    · have grown : .call (reference :: above) :: events <:+ between := by
        rw [pushReferenced] at referenced
        split at referenced
        · refine pushChildren_keeps
            (fun events' => .call (reference :: above) :: events <:+ events') [] _
            (fun _ _ _ kept once => ?_) nofun List.suffix_rfl referenced
          exact kept.trans ((List.suffix_cons _ _).trans (inductionHypothesis once))
        · cases referenced
          exact List.suffix_cons _ _
      rcases ended with ⟨_, _, rfl⟩ | ⟨_, rfl, _⟩
      · exact grown
      · exact grown.trans (List.suffix_cons _ _)

/-- A push without an error found all that is below the manifest. -/
theorem pushable_of_ok (found : repository.getManifest reference = some entry)
    (pushed : repository.pushManifestRecursive answers depth above reference entry events =
      some (.ok (), after)) : repository.Pushable reference := by
  induction depth generalizing above reference entry events after with
  | zero => exact nomatch pushed
  | succ depth inductionHypothesis =>
    rcases pushManifestRecursive_succ pushed with
      ⟨_, failed, _⟩ | ⟨parsed, outcome, between, read, referenced, ended⟩
    · exact absurd rfl failed
    · rcases ended with ⟨failed, same, _⟩ | ⟨rfl, _, _⟩
      · exact absurd same.symm failed
      · rw [pushReferenced] at referenced
        split at referenced
        · rename_i isIndex
          refine .index found read isIndex fun child member => ?_
          obtain ⟨_, _, _, there, once⟩ := pushChildren_ok referenced child member
          exact inductionHypothesis there once
        · rename_i isImage
          exact .image found read (Bool.eq_false_iff.mpr isImage)

/-- The call for a child is a visit. -/
theorem visits_of_push {parsed : Value} {before rest : List BlobDescriptor}
    {child : BlobDescriptor} {childEntry : ManifestEntry}
    (found : repository.getManifest reference = some entry)
    (isIndex : isIndexManifest entry.contentType = true)
    (read : repository.externals.fromSlice entry.body = some parsed)
    (children : extractChildManifests parsed = before ++ child :: rest)
    (well : ∀ earlier ∈ before, repository.PushedWell
      (repository.pushManifestRecursive answers depth above) earlier)
    (there : repository.getManifest child.digest = some childEntry) :
    repository.Visits reference child.digest where
  found := by
    refine ⟨entry, found, isIndex, parsed, read, before, child, rest, children, rfl,
      fun earlier member => ?_⟩
    obtain ⟨_, _, _, present, once⟩ := well earlier member
    exact pushable_of_ok present once
  present := ⟨childEntry, there⟩

/-- The calls come through visits. -/
theorem calls_descend (found : repository.getManifest reference = some entry)
    (pushed : repository.pushManifestRecursive answers depth above reference entry events =
      some (result, after)) (path : List String) (called : .call path ∈ after) :
    .call path ∈ events ∨ Descent repository.Visits (reference :: above) path := by
  induction depth generalizing above reference entry events result after with
  | zero => exact nomatch pushed
  | succ depth inductionHypothesis =>
    rcases pushManifestRecursive_succ pushed with
      ⟨_, _, rfl⟩ | ⟨parsed, outcome, between, read, referenced, ended⟩
    · rcases List.mem_cons.mp called with same | earlier
      · cases same
        exact Or.inr .here
      · exact Or.inl earlier
    · have known : .call path ∈ between →
          .call path ∈ events ∨ Descent repository.Visits (reference :: above) path := by
        rw [pushReferenced] at referenced
        split at referenced
        · rename_i isIndex
          refine pushChildren_keeps (fun events' => .call path ∈ events' →
            .call path ∈ events ∨ Descent repository.Visits (reference :: above) path) [] _
            (fun split well there kept once member => ?_) nofun ?_ referenced
          · rcases inductionHypothesis there once member with earlier | below
            · exact kept earlier
            · exact Or.inr (.down (visits_of_push found isIndex read split well there) below)
          · intro member
            rcases List.mem_cons.mp member with same | earlier
            · cases same
              exact Or.inr .here
            · exact Or.inl earlier
        · cases referenced
          intro member
          rcases List.mem_cons.mp member with same | member
          · exact nomatch same
          · rcases List.mem_cons.mp member with same | earlier
            · cases same
              exact Or.inr .here
            · exact Or.inl earlier
      rcases ended with ⟨_, _, rfl⟩ | ⟨_, rfl, _⟩
      · exact known called
      · exact known ((List.mem_cons.mp called).resolve_left nofun)

end LocalRepository


/-! ### The end of a push -/

namespace LocalRepository

variable {repository : LocalRepository} {depth : Nat} {above : List String}
  {root reference : String} {entry : ManifestEntry} {result : Except LayerhouseError Unit}
  {events after : List PushEvent}

/-- Where no cycle is reached, as many levels suffice as there are references. -/
theorem pushManifestRecursive_ends (answers : PushAnswers) {nodes : List String}
    (all : ∀ reference entry, repository.getManifest reference = some entry → reference ∈ nodes)
    (acyclic : AcyclicFrom repository.Visits root)
    (leads : Leads repository.Visits root (reference :: above))
    (among : ∀ node ∈ above, node ∈ nodes)
    (found : repository.getManifest reference = some entry)
    (enough : nodes.length < depth + (above.length + 1)) (events : List PushEvent) :
    ∃ outcome, repository.pushManifestRecursive answers depth above reference entry events =
      some outcome := by
  have amongAll : ∀ node ∈ reference :: above, node ∈ nodes := by
    rintro node (_ | ⟨_, member⟩)
    · exact all reference entry found
    · exact among node member
  induction depth generalizing above reference entry events with
  | zero =>
    have short := leads.length_le acyclic amongAll
    rw [List.length_cons] at short
    omega
  | succ depth inductionHypothesis =>
    rw [pushManifestRecursive]
    cases read : repository.externals.fromSlice entry.body with
    | none => exact ⟨_, rfl⟩
    | some parsed =>
      obtain ⟨⟨outcome, between⟩, referenced⟩ : ∃ outcome, repository.pushReferenced answers
          (repository.pushManifestRecursive answers depth (reference :: above)) entry parsed
          (.call (reference :: above) :: events) = some outcome := by
        rw [pushReferenced]
        split
        · rename_i isIndex
          refine pushChildren_ends [] _ (fun events split well there => ?_) nofun _
          have visits := visits_of_push found isIndex read split well there
          refine inductionHypothesis (leads.down visits) amongAll there ?_ events ?_
          · rw [List.length_cons]
            omega
          · rintro node (_ | ⟨_, member⟩)
            · exact all _ _ there
            · exact amongAll node member
        · exact ⟨_, rfl⟩
      simp only [referenced]
      cases outcome with
      | error error => exact ⟨_, rfl⟩
      | ok => exact ⟨_, rfl⟩

/-- The answers of a blob store and an upstream that accept everything. -/
def acceptingAnswers : PushAnswers := fun _ => .ok ()

theorem Pushable.found (pushable : repository.Pushable reference) :
    ∃ entry, repository.getManifest reference = some entry := by
  cases pushable with
  | image found => exact ⟨_, found⟩
  | index found => exact ⟨_, found⟩

/-- A manifest below which nothing is missing is pushed without an error. -/
theorem Pushable.ok (pushable : repository.Pushable reference)
    (found : repository.getManifest reference = some entry)
    (pushed : repository.pushManifestRecursive acceptingAnswers depth above reference entry
      events = some (result, after)) : result = .ok () := by
  induction pushable generalizing depth above entry events result after with
  | @image _ other parsed foundOther read isImage =>
    cases depth with
    | zero => exact nomatch pushed
    | succ depth =>
      obtain rfl := Option.some.inj (found.symm.trans foundOther)
      rcases pushManifestRecursive_succ pushed with
        ⟨unread, _⟩ | ⟨_, outcome, between, _, referenced, ended⟩
      · exact nomatch unread.symm.trans read
      · rw [pushReferenced, isImage] at referenced
        cases referenced
        rcases ended with ⟨failed, _⟩ | ⟨_, _, same⟩
        · exact absurd rfl failed
        · exact same
  | @index _ other parsed foundOther read isIndex children inductionHypothesis =>
    cases depth with
    | zero => exact nomatch pushed
    | succ depth =>
      obtain rfl := Option.some.inj (found.symm.trans foundOther)
      rcases pushManifestRecursive_succ pushed with
        ⟨unread, _⟩ | ⟨again, outcome, between, readAgain, referenced, ended⟩
      · exact nomatch unread.symm.trans read
      · obtain rfl := Option.some.inj (read.symm.trans readAgain)
        rcases ended with ⟨failed, _⟩ | ⟨_, _, same⟩
        · rw [pushReferenced, if_pos isIndex] at referenced
          cases outcome with
          | ok => exact absurd rfl failed
          | error error =>
            obtain ⟨child, member, missing | ⟨_, _, _, there, once⟩⟩ :=
              pushChildren_error referenced
            · obtain ⟨_, present⟩ := (children child member).found
              exact nomatch missing.symm.trans present
            · exact nomatch inductionHypothesis child member there once
        · exact same

end LocalRepository


namespace LocalRepository

variable {repository : LocalRepository}

/-- Where everything is accepted, every path that can be visited is called. -/
theorem called_of_descent {depth : Nat} {above path : List String} {reference : String}
    {entry : ManifestEntry} {result : Except LayerhouseError Unit}
    {events after : List PushEvent} (found : repository.getManifest reference = some entry)
    (pushed : repository.pushManifestRecursive acceptingAnswers depth above reference entry
      events = some (result, after))
    (descent : Descent repository.Visits (reference :: above) path) : .call path ∈ after := by
  induction depth generalizing above reference entry events result after with
  | zero => exact nomatch pushed
  | succ depth inductionHypothesis =>
    cases descent with
    | here => exact (pushManifestRecursive_suffix pushed).subset List.mem_cons_self
    | @down _ next _ _ visits rest =>
      obtain ⟨⟨other, foundOther, isIndex, parsed, read, before, child, later, split, rfl,
        well⟩, childEntry, there⟩ := visits
      obtain rfl := Option.some.inj (found.symm.trans foundOther)
      rcases pushManifestRecursive_succ pushed with
        ⟨unread, _⟩ | ⟨again, outcome, between, readAgain, referenced, ended⟩
      · exact nomatch unread.symm.trans read
      · obtain rfl := Option.some.inj (read.symm.trans readAgain)
        rw [pushReferenced, if_pos isIndex, split] at referenced
        obtain ⟨_, _, _, once, grown⟩ := pushChildren_reaches
          (fun once => (List.suffix_cons _ _).trans (pushManifestRecursive_suffix once))
          (fun earlier member _ _ _ _ present once => (well earlier member).ok present once)
          (fun earlier member => (well earlier member).found) there referenced
        have called := grown.subset (inductionHypothesis there once rest)
        rcases ended with ⟨_, _, rfl⟩ | ⟨_, rfl, _⟩
        · exact called
        · exact List.mem_cons_of_mem _ called

end LocalRepository


/-! ### The exact condition -/

theorem exists_inner_keys {Inner : Type} (map : BTreeMap String (BTreeMap String Inner))
    (outer : String) : ∃ keys : List String, ∀ inner value,
      BTreeMap.entry? map outer inner = some value → inner ∈ keys := by
  cases found : map[outer]? with
  | none =>
    refine ⟨[], fun inner value lookup => ?_⟩
    rw [ BTreeMap.entry?, found] at lookup
    cases lookup
  | some inners =>
    refine ⟨inners.keys, fun inner value lookup => ?_⟩
    rw [BTreeMap.entry?_of_getElem? found] at lookup
    exact Std.ExtTreeMap.mem_keys.mpr ((BTreeMap.mem_iff _ _).mpr ⟨value, lookup⟩)

/-- A repository resolves finitely many references. -/
theorem exists_references (repository : LocalRepository) : ∃ nodes : List String,
    ∀ reference entry, repository.getManifest reference = some entry → reference ∈ nodes := by
  obtain ⟨digests, ofDigests⟩ :=
    exists_inner_keys repository.data.manifests repository.repoName
  obtain ⟨tags, ofTags⟩ := exists_inner_keys repository.data.tags repository.repoName
  refine ⟨digests ++ tags, fun reference entry found => ?_⟩
  rw [LocalRepository.getManifest, getManifest_eq_resolve, Content.resolve] at found
  split at found
  · exact List.mem_append_left tags (ofDigests reference entry found)
  · obtain ⟨digest, tagged, _⟩ := Option.bind_eq_some_iff.mp found
    exact List.mem_append_right digests (ofTags reference digest tagged)

namespace LocalRepository

variable {repository : LocalRepository} {reference : String} {entry : ManifestEntry}

/-- A push ends, whatever is answered, exactly if it reaches no cycle of visits. -/
theorem pushEnds_iff (found : repository.getManifest reference = some entry) :
    repository.PushEnds reference entry ↔ AcyclicFrom repository.Visits reference := by
  constructor
  · intro ends
    obtain ⟨depth, result, events, pushed, nodup⟩ := ends acceptingAnswers
    exact acyclicFrom_iff_nodup.mpr fun path descent =>
      nodup path (called_of_descent found pushed descent)
  · intro acyclic answers
    obtain ⟨nodes, all⟩ := exists_references repository
    obtain ⟨⟨result, events⟩, pushed⟩ := pushManifestRecursive_ends answers all acyclic
      leads_root nofun found (Nat.lt_succ_self _) []
    refine ⟨_, result, events, pushed, fun path called => ?_⟩
    exact acyclicFrom_iff_nodup.mp acyclic path
      ((calls_descend found pushed path called).resolve_left List.not_mem_nil)

/-- Visits of digests alone come back to no reference: a manifest would name its own digest. -/
theorem no_cycle_of_digests (consistent : repository.data.content.Consistent
      repository.externals.sha256) (acyclic : HashAcyclic repository.externals)
    (reference : String) :
    ¬ TransGen (fun index digest => repository.Visits index digest ∧
      ¬ ¬ Content.IsDigestReference digest) reference reference := by
  intro cycle
  let body (reference : String) : List UInt8 :=
    ((repository.getManifest reference).map (·.body)).getD []
  refine acyclic (body reference) (TransGen.lift body ?_ reference reference cycle)
  rintro index digest ⟨⟨⟨other, found, _, parsed, read, before, child, after, split, same, _⟩,
    entry, present⟩, isDigest⟩
  have named : digest = (Digest.sha256 repository.externals.sha256 entry.body).toStr :=
    consistent.resolve_digest (not_not.mp isDigest)
      ((getManifest_eq_resolve _ _ _).symm.trans present)
  show ∃ parsed, repository.externals.fromSlice (body index) = some parsed ∧
    (Digest.sha256 repository.externals.sha256 (body digest)).toStr ∈ _
  simp only [body, found, present, Option.map_some, Option.getD_some]
  refine ⟨parsed, read, List.mem_map.mpr ⟨child, ?_, same.trans named⟩⟩
  rw [split]
  exact List.mem_append_right before List.mem_cons_self

end LocalRepository

/-- In every state that requests reach whose pushes carry the digest of their body, the push of a
manifest to an upstream ends, and comes to no reference twice on its way down, exactly if no index
that it visits names a child by a tag that leads back to the index. -/
theorem upstream_push_ends_iff {externals : Externals} (acyclic : HashAcyclic externals)
    {labels : List (Nat × Request)} {data : StateMachineData}
    (reached : run (requestStep externals) StateMachineData.empty labels = some data)
    (addressed : ∀ label ∈ labels, label.2.Addressed externals.sha256)
    {repoName reference : String} {entry : ManifestEntry}
    (found : data.getManifest repoName reference = some entry) :
    (⟨externals, data, repoName⟩ : LocalRepository).PushEnds reference entry ↔
      (⟨externals, data, repoName⟩ : LocalRepository).TagsLeadOn reference := by
  let repository : LocalRepository := ⟨externals, data, repoName⟩
  have consistent := content_consistent reached addressed
  have plain := @LocalRepository.no_cycle_of_digests repository consistent acyclic
  have ends : repository.PushEnds reference entry ↔ AcyclicFrom repository.Visits reference :=
    LocalRepository.pushEnds_iff found
  exact ends.trans (acyclicFrom_iff_special plain)


/-! ### Indexes of tags -/

/-- An index that names its child by a tag, as bytes and as a value. -/
def tagIndexBody (child : String) : List UInt8 :=
  Text.utf8 ("\x7b\"manifests\":[\x7b\"digest\":\"" ++ child ++ "\",\"size\":2\x7d]\x7d").toList

def tagIndexValue (child : String) : Value :=
  .object [("manifests", .array [.object [("digest", .string child),
    ("size", .number (.unsigned 2))]])]

/-- Functions of other packages for runs that push such an index and the empty object. -/
def tagIndexExternals (child : String) : Externals :=
  { emptyObjectExternals with
    fromSlice := fun body =>
      if body = tagIndexBody child then some (tagIndexValue child)
      else emptyObjectExternals.fromSlice body
    sha256 := fun body =>
      if body = tagIndexBody "leaf" then
        #v[0xe6, 0x54, 0xd2, 0x30, 0x1d, 0x46, 0x01, 0xa6, 0xd0, 0x46, 0x23, 0xf6, 0x65, 0x5f, 0x69,
          0x65, 0x19, 0xae, 0xc1, 0x42, 0x3d, 0x53, 0x13, 0x6d, 0x87, 0x7c, 0xe3, 0xf3, 0x5f, 0x58,
          0xa3, 0x93]
      else if body = tagIndexBody "latest" then
        #v[0xda, 0x16, 0x82, 0xb2, 0x18, 0x34, 0xd9, 0xf1, 0xfc, 0x77, 0xf7, 0xa4, 0x68, 0x92, 0xca,
          0xab, 0x47, 0x0d, 0xa7, 0xb7, 0xbf, 0xcb, 0xde, 0x42, 0xa2, 0x23, 0x9b, 0x22, 0xd3, 0xb5,
          0xe0, 0xe2]
      else emptyObjectExternals.sha256 body }

def tagIndexCall (child reference : String) : PushCall where
  name := "alice/app"
  reference := reference
  contentType := "application/vnd.oci.image.index.v1+json"
  body := tagIndexBody child
  parsed := tagIndexValue child

def leafCall : PushCall where
  name := "alice/app"
  reference := "leaf"
  contentType := "application/vnd.oci.image.manifest.v1+json"
  body := [0x7b, 0x7d]
  parsed := .object []

/-- The requests of some pushes, after the claim of their namespace. -/
def sampleTagPushes (child : String) (calls : List PushCall) : List (Nat × Request) :=
  (1, sampleClaim "alice" "first" false) :: calls.map fun call =>
    (2, .manifest (.putManifest
      (call.putManifest (tagIndexExternals child) 2 (some ⟨"alice", 1⟩) false)))

theorem sampleTagPushes_addressed (child : String) (calls : List PushCall) :
    ∀ label ∈ sampleTagPushes child calls, label.2.Addressed (tagIndexExternals child).sha256 := by
  intro label member put same
  rcases List.mem_cons.mp member with rfl | pushed
  · exact nomatch same
  · obtain ⟨call, _, rfl⟩ := List.mem_map.mp pushed
    cases same
    rfl

theorem extractChildManifests_tagIndexValue (child : String) :
    extractChildManifests (tagIndexValue child) = [⟨child, 2⟩] := rfl

/-- A child that an index of the samples names is the tag. -/
theorem tagIndex_children {child : String} {body : List UInt8} {parsed : Value}
    (read : (tagIndexExternals child).fromSlice body = some parsed) :
    ∀ named ∈ extractChildManifests parsed, named.digest = child := by
  intro named member
  simp only [tagIndexExternals] at read
  split at read
  · cases read
    rw [extractChildManifests_tagIndexValue] at member
    rw [List.mem_singleton.mp member]
  · cases read
    exact nomatch member

theorem hashAcyclic_tagIndexExternals {child : String}
    (tag : ¬ Content.IsDigestReference child) : HashAcyclic (tagIndexExternals child) := by
  intro body cycle
  obtain ⟨_, ⟨parsed, read, named⟩, _⟩ := TransGen.head'_iff.mp cycle
  obtain ⟨descriptor, member, same⟩ := List.mem_map.mp named
  rw [tagIndex_children read descriptor member] at same
  rw [same] at tag
  exact tag (Content.isDigestReference_sha256 _ _)

/-- An index whose tag leads to an image. -/
theorem upstream_push_ends_iff_sample :
    ∃ data entry, run (requestStep (tagIndexExternals "leaf")) StateMachineData.empty
        (sampleTagPushes "leaf" [leafCall, tagIndexCall "leaf" "v1"]) = some data ∧
      data.getManifest "alice/app" "v1" = some entry ∧
      isIndexManifest entry.contentType = true ∧
      (⟨tagIndexExternals "leaf", data, "alice/app"⟩ : LocalRepository).PushEnds "v1" entry := by
  have ends : (run (requestStep (tagIndexExternals "leaf")) StateMachineData.empty
      (sampleTagPushes "leaf" [leafCall, tagIndexCall "leaf" "v1"])).any (fun data =>
        (data.getManifest "alice/app" "v1").any (fun entry => isIndexManifest entry.contentType) ∧
        (data.getManifest "alice/app" "leaf").any
          (fun entry => isIndexManifest entry.contentType = false)) = true := by
    decide +kernel
  obtain ⟨data, reached, checked⟩ := (Option.any_eq_true ..).mp ends
  obtain ⟨ofIndex, ofLeaf⟩ := of_decide_eq_true checked
  obtain ⟨entry, found, isIndex⟩ := (Option.any_eq_true ..).mp ofIndex
  obtain ⟨leaf, foundLeaf, isImage⟩ := (Option.any_eq_true ..).mp ofLeaf
  have notDigest : ¬ Content.IsDigestReference "leaf" := by decide
  refine ⟨data, entry, reached, found, isIndex, (upstream_push_ends_iff
    (hashAcyclic_tagIndexExternals notDigest) reached (sampleTagPushes_addressed _ _) found).mpr ?_⟩
  have endsThere : ∀ next : String, ¬ LocalRepository.Visits
      ⟨tagIndexExternals "leaf", data, "alice/app"⟩ "leaf" next := by
    rintro next ⟨⟨other, foundOther, isOther, _⟩, _⟩
    obtain rfl := Option.some.inj (foundLeaf.symm.trans foundOther)
    exact nomatch isOther.symm.trans (of_decide_eq_true isImage)
  rintro index digest _ visits _ back
  obtain ⟨⟨_, _, _, parsed, read, before, child, after, split, rfl, _⟩, _⟩ := id visits
  have named : child.digest = "leaf" := by
    refine tagIndex_children read child ?_
    rw [split]
    exact List.mem_append_right before List.mem_cons_self
  rw [named] at back
  rcases ReflTransGen.cases_head back with same | ⟨next, step, _⟩
  · rw [← same] at visits
    exact endsThere _ visits
  · exact endsThere next step

/-- An index that names its own tag is accepted as it is, and its push never ends: it calls itself
before anything is asked of the upstream. -/
theorem self_naming_index_never_ends :
    PushCall.receive (tagIndexExternals "latest") "alice/app" "latest"
        "application/vnd.oci.image.index.v1+json" (tagIndexBody "latest") =
      .ok (tagIndexCall "latest" "latest") ∧
    (tagIndexCall "latest" "latest").digests = [] ∧
    ∃ data entry, run (requestStep (tagIndexExternals "latest")) StateMachineData.empty
        (sampleTagPushes "latest" [tagIndexCall "latest" "latest"]) = some data ∧
      data.getManifest "alice/app" "latest" = some entry ∧
      ∀ answers depth above events,
        (⟨tagIndexExternals "latest", data, "alice/app"⟩ : LocalRepository).pushManifestRecursive
          answers depth above "latest" entry events = none := by
  have ends : (run (requestStep (tagIndexExternals "latest")) StateMachineData.empty
      (sampleTagPushes "latest" [tagIndexCall "latest" "latest"])).any (fun data =>
        (data.getManifest "alice/app" "latest").any (fun entry =>
          isIndexManifest entry.contentType ∧ entry.body = tagIndexBody "latest")) = true := by
    decide +kernel
  obtain ⟨data, reached, checked⟩ := (Option.any_eq_true ..).mp ends
  obtain ⟨entry, found, checked⟩ := (Option.any_eq_true ..).mp checked
  obtain ⟨isIndex, body⟩ := of_decide_eq_true checked
  refine ⟨rfl, rfl, data, entry, reached, found, fun answers depth => ?_⟩
  induction depth with
  | zero => exact fun _ _ => rfl
  | succ depth inductionHypothesis =>
    intro above events
    have read : (tagIndexExternals "latest").fromSlice entry.body =
        some (tagIndexValue "latest") := by
      simp only [body, tagIndexExternals, if_true]
    have here : LocalRepository.getManifest ⟨tagIndexExternals "latest", data, "alice/app"⟩
        "latest" = some entry := found
    rw [LocalRepository.pushManifestRecursive]
    simp only [read, LocalRepository.pushReferenced, isIndex, if_true,
      extractChildManifests_tagIndexValue, LocalRepository.pushChildren, here,
      inductionHypothesis]

end Layerhouse
