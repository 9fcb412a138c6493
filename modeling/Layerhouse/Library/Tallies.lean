/-
This file is about tables of the largest weight of each key. A table is filled item by item:
an item whose key is there raises the weight to its own, if that is larger, and another adds
its key. Whatever the order of the items, the table then holds each key of theirs with the
largest weight of the items that have it, and its total is the sum of these.
-/

import Layerhouse.Library.BTreeMap

namespace Layerhouse

namespace Tally

open BTreeMap

variable {Item Key : Type} [DecidableEq Key]

/-- The largest weight of the items with this key; zero without one. -/
def largest (key : Item → Key) (weight : Item → Nat) (items : List Item) (wanted : Key) : Nat :=
  (items.filter (key · = wanted)).foldr (fun item => max (weight item)) 0

/-- The sum of the largest weights of all keys. -/
def sumLargest (key : Item → Key) (weight : Item → Nat) (items : List Item) : Nat :=
  ∑ wanted ∈ (items.map key).toFinset, largest key weight items wanted

variable {key : Item → Key} {weight : Item → Nat} {items : List Item}

theorem largest_cons (item : Item) (wanted : Key) :
    largest key weight (item :: items) wanted =
      max (if key item = wanted then weight item else 0) (largest key weight items wanted) := by
  by_cases same : key item = wanted
  · rw [if_pos same, largest, List.filter_cons_of_pos (by exact decide_eq_true same)]
    rfl
  · rw [if_neg same, largest, List.filter_cons_of_neg (by rwa [decide_eq_true_eq]), Nat.zero_max]
    rfl

theorem weight_le_largest {item : Item} (member : item ∈ items) :
    weight item ≤ largest key weight items (key item) := by
  induction items with
  | nil => cases member
  | cons first rest inductionHypothesis =>
    rw [largest_cons]
    rcases List.mem_cons.mp member with rfl | later
    · rw [if_pos rfl]
      exact Nat.le_max_left _ _
    · exact (inductionHypothesis later).trans (Nat.le_max_right _ _)

theorem largest_le_iff {wanted : Key} {bound : Nat} :
    largest key weight items wanted ≤ bound ↔
      ∀ item ∈ items, key item = wanted → weight item ≤ bound := by
  induction items with
  | nil => exact iff_of_true (Nat.zero_le _) nofun
  | cons first rest inductionHypothesis =>
    rw [largest_cons, Nat.max_le, inductionHypothesis, List.forall_mem_cons]
    refine and_congr_left fun _ => ?_
    by_cases same : key first = wanted
    · rw [if_pos same]
      exact ⟨fun bounded _ => bounded, fun bounded => bounded same⟩
    · rw [if_neg same]
      exact iff_of_true (Nat.zero_le _) fun other => absurd other same

/-- More items have no smaller sum. -/
theorem sumLargest_mono {others : List Item} (subset : items ⊆ others) :
    sumLargest key weight items ≤ sumLargest key weight others := by
  refine (Finset.sum_le_sum fun wanted _ => ?_).trans (Finset.sum_le_sum_of_subset ?_)
  · exact largest_le_iff.mpr fun item member same =>
      same ▸ weight_le_largest (subset member)
  · intro wanted member
    rw [List.mem_toFinset, List.mem_map] at member ⊢
    obtain ⟨item, inItems, same⟩ := member
    exact ⟨item, subset inItems, same⟩

/-- Keys that are renamed apart have the same sum. -/
theorem sumLargest_rename {Name : Type} [DecidableEq Name] {name : Key → Name}
    (apart : ∀ first ∈ items, ∀ second ∈ items,
      name (key first) = name (key second) → key first = key second) :
    sumLargest (fun item => name (key item)) weight items = sumLargest key weight items := by
  have names : (items.map fun item => name (key item)).toFinset =
      (items.map key).toFinset.image name := by
    ext wanted
    simp only [List.mem_toFinset, List.mem_map, Finset.mem_image, exists_exists_and_eq_and]
  have injective : Set.InjOn name ((items.map key).toFinset : Set Key) := by
    intro first inFirst second inSecond same
    rw [List.coe_toFinset, Set.mem_ofPred_eq, List.mem_map] at inFirst inSecond
    obtain ⟨item, member, rfl⟩ := inFirst
    obtain ⟨other, otherMember, rfl⟩ := inSecond
    exact apart item member other otherMember same
  rw [sumLargest, names, Finset.sum_image injective]
  refine Finset.sum_congr rfl fun wanted member => ?_
  rw [List.mem_toFinset, List.mem_map] at member
  obtain ⟨other, otherMember, rfl⟩ := member
  refine congrArg (List.foldr _ 0) (List.filter_congr fun item inItems => ?_)
  exact decide_eq_decide.mpr
    ⟨apart item inItems other otherMember, fun same => congrArg name same⟩

/-! ### Tables -/

variable [Ord Key] [Std.TransOrd Key] [Std.LawfulEqOrd Key]

/-- Fill in an item. -/
def record (key : Item → Key) (weight : Item → Nat) (table : BTreeMap Key Nat) (item : Item) :
    BTreeMap Key Nat :=
  match table[key item]? with
  | some size => table.insert (key item) (max size (weight item))
  | none => table.insert (key item) (weight item)

theorem count_record (table : BTreeMap Key Nat) (item : Item) (wanted : Key) :
    count (record key weight table item) wanted =
      max (count table wanted) (if key item = wanted then weight item else 0) := by
  rw [record]
  split
  · rename_i size found
    rw [count_insert]
    by_cases same : key item = wanted
    · rw [if_pos same, if_pos same, ← same, count, found]
      rfl
    · rw [if_neg same, if_neg same, Nat.max_zero]
  · rename_i missing
    rw [count_insert]
    by_cases same : key item = wanted
    · rw [if_pos same, if_pos same, ← same, count, missing]
      exact (Nat.zero_max _).symm
    · rw [if_neg same, if_neg same, Nat.max_zero]

theorem count_foldl_record (table : BTreeMap Key Nat) (wanted : Key) :
    count (items.foldl (record key weight) table) wanted =
      max (count table wanted) (largest key weight items wanted) := by
  induction items generalizing table with
  | nil => exact (Nat.max_zero _).symm
  | cons item items inductionHypothesis =>
    rw [List.foldl_cons, inductionHypothesis, count_record, largest_cons, Nat.max_assoc]

theorem mem_record {table : BTreeMap Key Nat} {item : Item} {wanted : Key} :
    wanted ∈ record key weight table item ↔ key item = wanted ∨ wanted ∈ table := by
  rw [mem_iff, mem_iff, record]
  split
  all_goals
    simp only [getElem?_insert]
    by_cases same : key item = wanted
    · simp [same]
    · simp [same]

theorem mem_foldl_record {table : BTreeMap Key Nat} {wanted : Key} :
    wanted ∈ items.foldl (record key weight) table ↔ wanted ∈ items.map key ∨ wanted ∈ table := by
  induction items generalizing table with
  | nil => exact (or_iff_right List.not_mem_nil).symm
  | cons item items inductionHypothesis =>
    rw [List.foldl_cons, inductionHypothesis, mem_record, List.map_cons, List.mem_cons,
      or_left_comm, eq_comm, or_assoc]

/-- The total of a table of counts is the sum over any keys that cover it. -/
theorem total_eq_sum {table : BTreeMap Key Nat} {keys : Finset Key}
    (covers : ∀ wanted ∈ table, wanted ∈ keys) :
    total id table = ∑ wanted ∈ keys, count table wanted := by
  have listed : total id table = (table.keys.map (count table)).sum := by
    rw [total, ← Std.ExtTreeMap.map_fst_toList_eq_keys, List.map_map]
    refine congrArg List.sum (List.map_congr_left fun entry member => ?_)
    have found : table[entry.1]? = some entry.2 := (mem_toList table entry.1 entry.2).mp member
    rw [Function.comp_apply, count, found]
    rfl
  rw [listed, ← List.sum_toFinset (count table) Std.ExtTreeMap.nodup_keys]
  refine Finset.sum_subset (fun wanted member => ?_) fun wanted _ absent => ?_
  · rw [List.mem_toFinset] at member
    exact covers wanted (Std.ExtTreeMap.mem_keys.mp member)
  · rw [List.mem_toFinset, mem_keys, not_exists] at absent
    rw [count, Option.eq_none_iff_forall_ne_some.mpr absent]
    rfl

theorem total_foldl_record (items : List Item) :
    total id (items.foldl (record key weight) ∅) = sumLargest key weight items := by
  rw [@total_eq_sum _ _ _ _ _ _ (items.map key).toFinset]
  · refine Finset.sum_congr rfl fun wanted _ => ?_
    rw [count_foldl_record, count, getElem?_empty]
    exact Nat.zero_max _
  · intro wanted member
    rw [mem_foldl_record] at member
    exact List.mem_toFinset.mpr (member.resolve_right Std.ExtTreeMap.not_mem_empty)

end Tally

end Layerhouse
