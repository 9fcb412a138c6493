/-
This file is about the Cedar ids of repositories. A repository that is resolved under a live
namespace has the id `handle#generation/path`; the id of an unresolved one is the repository
as the client wrote it. Both are ids of the same entity type.

The parts of a resolved id can be read off, since a valid handle has no `#` and a generation no
slash. Only a client that writes such an id for a repository meets the other kind: its
request is then one for a repository under that generation, as far as policies can tell.
-/

import Layerhouse.Auth.PolicyText

namespace Layerhouse

def RepositoryResource.entityId (resource : RepositoryResource) : String :=
  resource.namespaceResource.epoch.entityId ++ "/" ++ resource.relativePath

namespace AuthzRequest

/-- The repository of the request is unresolved, or resolved under a live namespace. -/
def Resolves (request : AuthzRequest) : Prop :=
  ∀ resource ∈ request.resource, ∃ live, validateHandle live.handle = .ok () ∧
    RepositoryResource.fromRepository request.repository live = .ok resource

/-- The namespace epoch that the repository is resolved under, if any. -/
def epoch? (request : AuthzRequest) : Option NamespaceEpoch :=
  request.resource.map (·.namespaceResource.epoch)

/-- An unresolved request whose repository is written as the id of the other's resource. -/
def Imitates (request other : AuthzRequest) : Prop :=
  request.resource = none ∧ ∃ resource ∈ other.resource, request.repository = resource.entityId

end AuthzRequest

/-! ### Resolved ids -/

theorem hash_notMem_of_validateHandle {handle : String} (valid : validateHandle handle = .ok ()) :
    '#' ∉ handle.toList := by
  intro hash
  have member : (35 : UInt8) ∈ asBytes handle := List.mem_flatMap.mpr ⟨'#', hash, by decide⟩
  have legal := legal_of_validateHandle valid member
  revert legal
  decide

theorem slash_notMem_toString (number : Nat) : '/' ∉ (toString number).toList :=
  fun member => absurd (Text.isDigit_of_mem_toString member) (by decide)

theorem entityId_eq (resource : RepositoryResource) :
    resource.entityId = resource.namespaceResource.epoch.handle ++ String.singleton '#' ++
      (toString resource.namespaceResource.epoch.generation ++ String.singleton '/' ++
        resource.relativePath) := by
  rw [RepositoryResource.entityId, NamespaceEpoch.entityId]
  simp only [String.append_assoc]
  rfl

/-- A resolved id says the handle, the generation and the path. -/
theorem entityId_inj {first second : RepositoryResource}
    (ofFirst : '#' ∉ first.namespaceResource.epoch.handle.toList)
    (ofSecond : '#' ∉ second.namespaceResource.epoch.handle.toList) :
    first.entityId = second.entityId ↔ first = second := by
  obtain ⟨⟨⟨handle, generation⟩⟩, path⟩ := first
  obtain ⟨⟨⟨otherHandle, otherGeneration⟩⟩, otherPath⟩ := second
  rw [entityId_eq, entityId_eq, Text.firstSeparator_inj ofFirst ofSecond,
    Text.firstSeparator_inj (slash_notMem_toString _) (slash_notMem_toString _)]
  constructor
  · rintro ⟨rfl, numbers, rfl⟩
    obtain rfl : generation = otherGeneration := Text.toString_inj numbers
    rfl
  · rintro same
    cases same
    exact ⟨rfl, rfl, rfl⟩

/-- A resource is that of one repository. -/
theorem repository_of_fromRepository {repository : String} {live : Namespace}
    {resource : RepositoryResource}
    (resolved : RepositoryResource.fromRepository repository live = .ok resource) :
    resource.namespaceResource.epoch.handle = live.handle ∧
      repository = live.handle ++ "/" ++ resource.relativePath := by
  rw [RepositoryResource.fromRepository] at resolved
  split at resolved
  · cases resolved
  · rename_i handle _
    split at resolved
    · cases resolved
    · rename_i same
      split at resolved
      · cases resolved
      · rename_i path stripped
        cases resolved
        rw [not_not] at same
        refine ⟨rfl, ?_⟩
        rw [← String.toList_inj, Text.stripPrefix_eq_some.mp stripped, same]
        simp only [String.toList_append, String.toList_ofList]

/-! ### Ids of requests -/

namespace AuthzRequest

theorem Resolves.hashless {request : AuthzRequest} (resolves : request.Resolves)
    {resource : RepositoryResource} (member : resource ∈ request.resource) :
    '#' ∉ resource.namespaceResource.epoch.handle.toList := by
  obtain ⟨live, valid, resolved⟩ := resolves resource member
  rw [(repository_of_fromRepository resolved).1]
  exact hash_notMem_of_validateHandle valid

/-- What stands for the repository in Cedar. -/
def entity (request : AuthzRequest) : CedarEntityId :=
  (CedarResource.fromRequest request).entity

theorem entity_resolved {request : AuthzRequest} {resource : RepositoryResource}
    (resolved : request.resource = some resource) :
    request.entity = ⟨.repository, resource.entityId⟩ := by
  rw [entity, CedarResource.fromRequest, resolved, if_neg fun both => nomatch both.2]
  rfl

theorem entity_unresolved {request : AuthzRequest} (unresolved : request.resource = none) :
    request.entity = if request.repository = "*" then ⟨.registry, "root"⟩
      else ⟨.repository, request.repository⟩ := by
  rw [entity, CedarResource.fromRequest, unresolved]
  by_cases star : request.repository = "*"
  · rw [if_pos star, if_pos ⟨star, rfl⟩]
    rfl
  · rw [if_neg star, if_neg fun both => star both.1]
    rfl

theorem entityId_ne_star (resource : RepositoryResource) : resource.entityId ≠ "*" := by
  intro same
  have hash : '#' ∈ resource.entityId.toList := by
    rw [entityId_eq, Text.toList_separated]
    exact List.mem_append_right _ List.mem_cons_self
  rw [same] at hash
  revert hash
  decide

/-- The request for the id of a resource has the entity of the resource. -/
theorem Imitates.entity_eq {request other : AuthzRequest} (imitates : request.Imitates other) :
    request.entity = other.entity := by
  obtain ⟨unresolved, resource, resolved, written⟩ := imitates
  rw [entity_unresolved unresolved, entity_resolved resolved, written,
    if_neg (entityId_ne_star resource)]

theorem Imitates.epoch_ne {request other : AuthzRequest} (imitates : request.Imitates other) :
    request.epoch? ≠ other.epoch? := by
  obtain ⟨unresolved, resource, resolved, _⟩ := imitates
  rw [epoch?, epoch?, unresolved, resolved]
  exact nofun

/-- A request that has the entity of a resource is written as its id or has the resource. -/
theorem imitates_of_entity_eq {request other : AuthzRequest} {resource : RepositoryResource}
    (unresolved : request.resource = none) (resolved : other.resource = some resource)
    (same : request.entity = other.entity) : request.Imitates other := by
  rw [entity_unresolved unresolved, entity_resolved resolved] at same
  split at same
  · cases same
  · exact ⟨unresolved, resource, resolved, congrArg CedarEntityId.id same⟩

theorem repository_eq_of_unresolved {first second : AuthzRequest}
    (ofFirst : first.resource = none) (ofSecond : second.resource = none)
    (same : first.entity = second.entity) : first.repository = second.repository := by
  rw [entity_unresolved ofFirst, entity_unresolved ofSecond] at same
  by_cases star : first.repository = "*"
  · by_cases otherStar : second.repository = "*"
    · rw [star, otherStar]
    · rw [if_pos star, if_neg otherStar] at same
      cases same
  · by_cases otherStar : second.repository = "*"
    · rw [if_neg star, if_pos otherStar] at same
      cases same
    · rw [if_neg star, if_neg otherStar] at same
      exact congrArg CedarEntityId.id same

/-- Resolved requests with one entity are for one repository under one epoch. -/
theorem eq_of_resolved {first second : AuthzRequest} {resource other : RepositoryResource}
    (ofFirst : first.Resolves) (ofSecond : second.Resolves)
    (resolved : first.resource = some resource) (otherResolved : second.resource = some other)
    (same : first.entity = second.entity) :
    first.repository = second.repository ∧ resource = other := by
  rw [entity_resolved resolved, entity_resolved otherResolved, CedarEntityId.mk.injEq,
    entityId_inj (ofFirst.hashless resolved) (ofSecond.hashless otherResolved)] at same
  obtain ⟨_, rfl⟩ := same
  obtain ⟨live, _, built⟩ := ofFirst resource resolved
  obtain ⟨otherLive, _, otherBuilt⟩ := ofSecond resource otherResolved
  obtain ⟨handle, written⟩ := repository_of_fromRepository built
  obtain ⟨otherHandle, otherWritten⟩ := repository_of_fromRepository otherBuilt
  rw [written, otherWritten, ← handle, ← otherHandle]
  exact ⟨rfl, rfl⟩

end AuthzRequest

/-- Requests with one entity are for one repository, unresolved or under one epoch, exactly if
none of them is unresolved and written as the id of the other's resource. -/
theorem cedar_entities_separate_iff {first second : AuthzRequest} (ofFirst : first.Resolves)
    (ofSecond : second.Resolves) :
    (first.entity = second.entity →
        first.repository = second.repository ∧ first.epoch? = second.epoch?) ↔
      ¬ first.Imitates second ∧ ¬ second.Imitates first := by
  constructor
  · intro separates
    constructor
    · intro imitates
      exact imitates.epoch_ne (separates imitates.entity_eq).2
    · intro imitates
      exact imitates.epoch_ne (separates imitates.entity_eq.symm).2.symm
  · rintro ⟨notFirst, notSecond⟩ same
    cases resolved : first.resource with
    | none =>
      cases otherResolved : second.resource with
      | none =>
        refine ⟨AuthzRequest.repository_eq_of_unresolved resolved otherResolved same, ?_⟩
        rw [AuthzRequest.epoch?, AuthzRequest.epoch?, resolved, otherResolved]
      | some resource =>
        exact absurd (AuthzRequest.imitates_of_entity_eq resolved otherResolved same) notFirst
    | some resource =>
      cases otherResolved : second.resource with
      | none =>
        exact absurd (AuthzRequest.imitates_of_entity_eq otherResolved resolved same.symm) notSecond
      | some other =>
        obtain ⟨repository, rfl⟩ :=
          AuthzRequest.eq_of_resolved ofFirst ofSecond resolved otherResolved same
        refine ⟨repository, ?_⟩
        rw [AuthzRequest.epoch?, AuthzRequest.epoch?, resolved, otherResolved]

/-- A pull of `alice/app` under a generation of its namespace. -/
def samplePull (generation : Nat) : AuthzRequest :=
  (sampleSession "caller").request "alice/app" (some ⟨⟨⟨"alice", generation⟩⟩, "app"⟩) .pull

theorem samplePull_resolves (generation : Nat) : (samplePull generation).Resolves := by
  intro resource resolved
  obtain rfl := Option.some.inj resolved
  have valid : validateHandle "alice" = .ok () := by decide
  have handle : handleOf "alice/app" = .ok "alice" := by decide
  refine ⟨⟨"alice", generation, .user "owner", "owner", 1⟩, valid, ?_⟩
  have stripped : Text.stripPrefix ("alice" ++ "/").toList "alice/app".toList =
      some "app".toList := by decide
  rw [RepositoryResource.fromRepository, samplePull, AuthIdentity.request, handle]
  dsimp only
  rw [if_neg (not_not_intro rfl), stripped]
  rfl

/-- The generations of one handle have different entities. -/
theorem cedar_entities_separate_iff_generations :
    ((samplePull 1).Resolves ∧ (samplePull 2).Resolves) ∧
      ((samplePull 1).entity = (samplePull 2).entity →
        (samplePull 1).repository = (samplePull 2).repository ∧
          (samplePull 1).epoch? = (samplePull 2).epoch?) :=
  ⟨⟨samplePull_resolves 1, samplePull_resolves 2⟩,
    (cedar_entities_separate_iff (samplePull_resolves 1) (samplePull_resolves 2)).mpr
      ⟨fun imitates => Option.some_ne_none _ imitates.1,
        fun imitates => Option.some_ne_none _ imitates.1⟩⟩

/-- The pull of `alice#1/app` is a request of its own, and has the entity of `alice/app`. -/
theorem unresolved_repository_imitates :
    repositoryResourceContext (claimedNamespace "alice/app") "alice/app" .pull =
        .ok (some ⟨"alice", 1⟩, some ⟨⟨⟨"alice", 1⟩⟩, "app"⟩) ∧
      repositoryResourceContext (claimedNamespace "alice/app") "alice#1/app" .pull =
        .ok (none, none) ∧
      (samplePull 1).Resolves ∧
      ((sampleSession "caller").request "alice#1/app" none .pull).Resolves ∧
      ((sampleSession "caller").request "alice#1/app" none .pull).entity = (samplePull 1).entity ∧
      (samplePull 1).repository ≠ "alice#1/app" :=
  ⟨rfl, rfl, samplePull_resolves 1, nofun, by decide, by decide⟩

end Layerhouse
