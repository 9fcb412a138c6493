/-
This file is about the spelling of groups. A group of a token authorizes by its UUID, and
`stable_group_ids` keeps the groups that parse as one. What it makes an id of is the text,
though, not the UUID that was parsed: a UUID in capitals or in braces is another group than
the same UUID in small letters.

The parser of UUIDs is another package and is a parameter here. The empty text is no UUID.
-/

import Layerhouse.Auth.PrincipalIds

namespace Layerhouse

/-- `group.trim()` -/
def groupText (group : String) : String :=
  String.ofList (Text.trim group.toList)

section

variable {Uuid : Type} (parseUuid : String → Option Uuid)

/-- The two lists name the same UUIDs. -/
def SameUuids (groups others : List String) : Prop :=
  ∀ uuid, (∃ group ∈ groups, parseUuid (groupText group) = some uuid) ↔
    ∃ group ∈ others, parseUuid (groupText group) = some uuid

/-- The list has the text, which is a UUID. -/
def SpellsUuid (groups : List String) (text : String) : Prop :=
  (∃ group ∈ groups, groupText group = text) ∧ (parseUuid text).isSome = true

/-- The ids of the groups, by the parser of UUIDs. -/
def groupIdsOf (provider : String) (groups : List String) : List ProviderQualifiedId :=
  stableGroupIds (fun text => (parseUuid text).isSome) provider groups

variable {parseUuid} {provider : String} {groups others : List String}

theorem mem_groupIdsOf {id : ProviderQualifiedId} :
    id ∈ groupIdsOf parseUuid provider groups ↔
      ∃ text, SpellsUuid parseUuid groups text ∧
        ProviderQualifiedId.new provider .group text = .ok id := by
  rw [groupIdsOf, stableGroupIds, List.mem_dedup, List.mem_mergeSort, List.mem_filterMap]
  have built : ∀ group : String, (if (parseUuid (groupText group)).isSome = true then
      (ProviderQualifiedId.new provider .group (groupText group)).toOption else none) = some id ↔
        (parseUuid (groupText group)).isSome = true ∧
          ProviderQualifiedId.new provider .group (groupText group) = .ok id := by
    intro group
    rw [Option.ite_none_right_eq_some]
    refine and_congr_right fun _ => ?_
    cases ProviderQualifiedId.new provider .group (groupText group) with
    | error error => exact iff_of_false nofun nofun
    | ok other => exact ⟨fun same => congrArg Except.ok (Option.some.inj same),
        fun same => congrArg some (Except.ok.inj same)⟩
  constructor
  · rintro ⟨group, member, found⟩
    obtain ⟨isUuid, new⟩ := (built group).mp found
    exact ⟨groupText group, ⟨⟨group, member, rfl⟩, isUuid⟩, new⟩
  · rintro ⟨_, ⟨⟨group, member, rfl⟩, isUuid⟩, new⟩
    exact ⟨group, member, (built group).mpr ⟨isUuid, new⟩⟩

/-- Ids are listed once and in order, so two lists are equal if they have the same ids. -/
theorem groupIdsOf_eq_iff :
    groupIdsOf parseUuid provider groups = groupIdsOf parseUuid provider others ↔
      ∀ id, id ∈ groupIdsOf parseUuid provider groups ↔
        id ∈ groupIdsOf parseUuid provider others := by
  have ordered : ∀ listed : List String, (groupIdsOf parseUuid provider listed).Pairwise
      fun first second => first.text ≤ second.text := by
    intro listed
    rw [groupIdsOf, stableGroupIds]
    refine List.Pairwise.sublist (List.dedup_sublist _) ?_
    refine (List.pairwise_mergeSort ?_ ?_ _).imp of_decide_eq_true
    · intro first second third below above
      exact decide_eq_true ((of_decide_eq_true below).trans (of_decide_eq_true above))
    · intro first second
      rw [Bool.or_eq_true, decide_eq_true_eq, decide_eq_true_eq]
      exact String.le_total first.text second.text
  constructor
  · intro same id
    rw [same]
  · intro same
    refine List.Perm.eq_of_pairwise (fun first second _ _ below above => ?_) (ordered groups)
      (ordered others) ?_
    · exact congrArg ProviderQualifiedId.mk (String.le_antisymm below above)
    · exact (List.perm_ext_iff_of_nodup (List.nodup_dedup _) (List.nodup_dedup _)).mpr same

/-- The ids are equal if the provider has none or the lists spell the same UUIDs alike. -/
theorem groupIdsOf_eq_iff_spelled (blank : parseUuid "" = none) :
    groupIdsOf parseUuid provider groups = groupIdsOf parseUuid provider others ↔
      (∀ name, ProviderId.new provider ≠ .ok name) ∨
        ∀ text, SpellsUuid parseUuid groups text ↔ SpellsUuid parseUuid others text := by
  rw [groupIdsOf_eq_iff]
  constructor
  · intro same
    rw [or_iff_not_imp_left]
    intro known text
    obtain ⟨name, accepted⟩ := not_forall_not.mp known
    have idOf : ∀ listed, (.spelled name .group text) ∈ groupIdsOf parseUuid provider listed ↔
        SpellsUuid parseUuid listed text := by
      intro listed
      rw [mem_groupIdsOf]
      constructor
      · rintro ⟨other, spells, built⟩
        obtain ⟨same, found, _, spelled⟩ := ProviderQualifiedId.new_eq_ok.mp built
        rw [accepted] at found
        cases found
        have canonical := ProviderId.new_idem accepted
        rw [(ProviderQualifiedId.spelled_inj canonical canonical spelled).2.2]
        exact spells
      · intro spells
        refine ⟨text, spells, ProviderQualifiedId.new_eq_ok.mpr ⟨name, accepted, ?_, rfl⟩⟩
        rintro rfl
        have isUuid := spells.2
        rw [blank] at isUuid
        cases isUuid
    rw [← idOf, ← idOf]
    exact same _
  · rintro (unknown | spelled) id
    · refine iff_of_false ?_ ?_
      all_goals
        rw [mem_groupIdsOf]
        rintro ⟨_, _, built⟩
        obtain ⟨name, accepted, _⟩ := ProviderQualifiedId.new_eq_ok.mp built
        exact unknown name accepted
    · rw [mem_groupIdsOf, mem_groupIdsOf]
      exact exists_congr fun text => and_congr_left fun _ => spelled text

/-- Lists that name the same UUIDs have the same ids exactly if the provider has no ids or every
text that spells a UUID in one of the lists is a text of the other. -/
theorem same_uuids_same_ids_iff (blank : parseUuid "" = none) :
    (SameUuids parseUuid groups others →
        groupIdsOf parseUuid provider groups = groupIdsOf parseUuid provider others) ↔
      (SameUuids parseUuid groups others →
        (∀ name, ProviderId.new provider ≠ .ok name) ∨
          ∀ text, SpellsUuid parseUuid groups text ↔ SpellsUuid parseUuid others text) :=
  forall_congr' fun _ => groupIdsOf_eq_iff_spelled blank

end

/-! ### The spellings of a UUID -/

/-- The number that hexadecimal digits spell. -/
def hexNumber (digits : List Char) : Option Nat :=
  ((Text.utf8 digits).mapM hexValue).map fun values =>
    values.foldl (fun number value => 16 * number + value.toNat) 0

/-- `Uuid::parse_str`: 32 digits, or groups of them with hyphens, bare, in braces or behind the
name of the URN. -/
def parseUuidStr (text : String) : Option Nat :=
  let hyphenated := fun body : List Char =>
    if (body.splitOn '-').map List.length = [8, 4, 4, 4, 12] then
      hexNumber (body.filter (· ≠ '-'))
    else none
  match Text.stripPrefix "urn:uuid:".toList text.toList with
  | some body => hyphenated body
  | none =>
    match (Text.stripPrefix ['\x7b'] text.toList).bind (Text.stripSuffix ['\x7d']) with
    | some body => hyphenated body
    | none =>
      if text.toList.length = 32 then hexNumber text.toList else hyphenated text.toList

/-- White space and a name beside the UUID make no difference. -/
theorem same_uuids_same_ids_iff_spaced :
    groupIdsOf parseUuidStr "kanidm" ["550e8400-e29b-41d4-a716-446655440000", "admins"] =
      groupIdsOf parseUuidStr "kanidm" [" 550e8400-e29b-41d4-a716-446655440000 "] := by
  have trimmed : groupText " 550e8400-e29b-41d4-a716-446655440000 " =
      groupText "550e8400-e29b-41d4-a716-446655440000" := by decide +kernel
  have noUuid : parseUuidStr (groupText "admins") = none := by decide +kernel
  refine (same_uuids_same_ids_iff (by decide)).mpr (fun _ => Or.inr fun text => ?_) fun uuid => ?_
  · simp only [SpellsUuid, List.mem_cons, List.not_mem_nil, or_false, exists_eq_or_imp,
      exists_eq_left, trimmed]
    refine and_congr_left fun isUuid => or_iff_left fun same => ?_
    rw [← same, noUuid] at isUuid
    cases isUuid
  · simp only [List.mem_cons, List.not_mem_nil, or_false, exists_eq_or_imp, exists_eq_left,
      trimmed, noUuid, reduceCtorEq]

/-- A UUID in capitals is another group than in small letters. -/
theorem uuid_spellings_differ :
    SameUuids parseUuidStr ["550e8400-e29b-41d4-a716-446655440000"]
      ["550E8400-E29B-41D4-A716-446655440000"] ∧
    groupIdsOf parseUuidStr "kanidm" ["550e8400-e29b-41d4-a716-446655440000"] ≠
      groupIdsOf parseUuidStr "kanidm" ["550E8400-E29B-41D4-A716-446655440000"] := by
  constructor
  · have parsed : parseUuidStr (groupText "550e8400-e29b-41d4-a716-446655440000") =
        parseUuidStr (groupText "550E8400-E29B-41D4-A716-446655440000") := by decide +kernel
    intro uuid
    simp only [List.mem_singleton, exists_eq_left, parsed]
  · intro same
    rcases (groupIdsOf_eq_iff_spelled (by decide)).mp same with unknown | spelled
    · exact unknown "kanidm" (by decide)
    · obtain ⟨⟨group, member, same⟩, _⟩ := (spelled "550e8400-e29b-41d4-a716-446655440000").mp
        ⟨⟨_, List.mem_cons_self, by decide +kernel⟩, by decide +kernel⟩
      rw [List.mem_singleton.mp member] at same
      exact absurd same (by decide +kernel)

end Layerhouse
