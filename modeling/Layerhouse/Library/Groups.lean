/-
This file is about items that are gathered by a key and handed out again, one group for each key.
The items are gathered one by one at the ends of the lists of a table, and a group is taken out of
the table when its key comes up. If each key comes up at most once, it gets all items with this key
in their order; if the key of each item comes up, no item is lost, and the sizes of the groups add
up to the number of items.
-/

import Layerhouse.Library.BTreeMap

namespace Layerhouse

namespace Groups

variable {Item Key Value Result : Type} [DecidableEq Key]

/-- The items with a key, in their order. -/
def group (key : Item → Key) (value : Item → Value) (items : List Item) (wanted : Key) :
    List Value :=
  (items.filter (key · = wanted)).map value

variable {key : Item → Key} {value : Item → Value} {items : List Item}

theorem group_cons (item : Item) (wanted : Key) :
    group key value (item :: items) wanted =
      (if key item = wanted then [value item] else []) ++ group key value items wanted := by
  by_cases same : key item = wanted
  · rw [if_pos same, group, List.filter_cons_of_pos (by exact decide_eq_true same)]
    rfl
  · rw [if_neg same, group, List.filter_cons_of_neg (by rwa [decide_eq_true_eq])]
    rfl

theorem mem_group {wanted : Key} {found : Value} :
    found ∈ group key value items wanted ↔
      ∃ item ∈ items, key item = wanted ∧ value item = found := by
  simp only [group, List.mem_map, List.mem_filter, decide_eq_true_eq, and_assoc]

theorem group_sublist (wanted : Key) :
    (group key value items wanted).Sublist (items.map value) :=
  List.filter_sublist.map value

/-- The groups of distinct keys that cover the items have as many elements as there are items. -/
theorem sum_length_group {keys : List Key} (distinct : keys.Nodup)
    (covered : ∀ item ∈ items, key item ∈ keys) :
    (keys.map fun wanted => (group key value items wanted).length).sum = items.length := by
  have counts : ∀ wanted, (group key value items wanted).length =
      Multiset.count wanted (items.map key : Multiset Key) := by
    intro wanted
    rw [group, List.length_map, Multiset.coe_count, List.count, List.countP_map,
      List.countP_eq_length_filter]
    refine congrArg List.length (List.filter_congr fun item _ => ?_)
    rw [Function.comp_apply, beq_eq_decide]
  simp only [counts]
  rw [← List.sum_toFinset _ distinct, Multiset.sum_count_eq_card, Multiset.coe_card,
    List.length_map]
  intro wanted member
  obtain ⟨item, listed, rfl⟩ := List.mem_map.mp (Multiset.mem_coe.mp member)
  exact List.mem_toFinset.mpr (covered item listed)

/-! ### Tables of groups -/

section Tables

variable [Ord Key] [Std.TransOrd Key]

/-- Put an item at the end of the group of its key. -/
def gather (key : Item → Key) (value : Item → Value) (table : BTreeMap Key (List Value))
    (item : Item) : BTreeMap Key (List Value) :=
  table.insert (key item) (table[key item]?.getD [] ++ [value item])

variable [Std.LawfulEqOrd Key]

theorem getD_foldl_gather (table : BTreeMap Key (List Value)) (wanted : Key) :
    (items.foldl (gather key value) table)[wanted]?.getD [] =
      table[wanted]?.getD [] ++ group key value items wanted := by
  induction items generalizing table with
  | nil => exact (List.append_nil _).symm
  | cons item items inductionHypothesis =>
    rw [List.foldl_cons, inductionHypothesis, group_cons, ← List.append_assoc]
    refine congrArg (· ++ _) ?_
    rw [gather, BTreeMap.getElem?_insert]
    by_cases same : key item = wanted
    · rw [if_pos same, if_pos same, Option.getD_some, same]
    · rw [if_neg same, if_neg same, List.append_nil]

/-- A table that the items are gathered in holds the groups. -/
theorem getD_gathered (wanted : Key) :
    (items.foldl (gather key value) ∅)[wanted]?.getD [] = group key value items wanted := by
  rw [getD_foldl_gather, BTreeMap.getElem?_empty]
  rfl

/-- Take the group of each entry out of the table. -/
def handOut {Entry : Type} (make : Key × Entry → List Value → Result) :
    BTreeMap Key (List Value) → List (Key × Entry) → List Result
  | _, [] => []
  | table, entry :: rest =>
    make entry (table[entry.1]?.getD []) :: handOut make (table.erase entry.1) rest

/-- If no key comes up twice, each entry gets the group that the table held at the start. -/
theorem handOut_eq_map {Entry : Type} (make : Key × Entry → List Value → Result)
    {entries : List (Key × Entry)} (distinct : (entries.map (·.1)).Nodup)
    (table : BTreeMap Key (List Value)) :
    handOut make table entries =
      entries.map fun entry => make entry (table[entry.1]?.getD []) := by
  induction entries generalizing table with
  | nil => rfl
  | cons entry rest inductionHypothesis =>
    obtain ⟨fresh, distinct⟩ := List.nodup_cons.mp distinct
    rw [handOut, inductionHypothesis distinct, List.map_cons]
    refine congrArg (_ :: ·) (List.map_congr_left fun other member => ?_)
    have different : entry.1 ≠ other.1 := fun same =>
      fresh (List.mem_map.mpr ⟨other, member, same.symm⟩)
    rw [BTreeMap.getElem?_erase, if_neg different]

end Tables

end Groups

end Layerhouse
