/-
This file is what removals from ordered maps have in common: references are released,
keys erased and nested entries erased in any order. An inner table that nothing is left
of is dropped at whichever erasure that happens, so the order shows nowhere.
-/

import Layerhouse.Library.BTreeMap

namespace Layerhouse.BTreeMap

/-- A table that is dropped when it is empty. -/
def dropEmpty {Key Value : Type} [Ord Key] (table : BTreeMap Key Value) :
    Option (BTreeMap Key Value) :=
  if table.isEmpty then none else some table

/-- Whatever is erased first, a table is dropped exactly when nothing is left in the end. -/
theorem dropEmpty_bind {Key Value : Type} [Ord Key]
    {erase : BTreeMap Key Value → BTreeMap Key Value}
    (stays : ∀ table, table.isEmpty = true → (erase table).isEmpty = true)
    (table : BTreeMap Key Value) :
    ((dropEmpty table).bind fun table => dropEmpty (erase table)) = dropEmpty (erase table) := by
  rw [dropEmpty, dropEmpty]
  by_cases empty : table.isEmpty = true
  · rw [if_pos empty, if_pos (stays table empty), Option.bind_none]
  · rw [if_neg empty, Option.bind_some, dropEmpty]

variable {Key Value : Type} [Ord Key] [Std.TransOrd Key]

/-! ### Sizes and selections -/

theorem size_eq_total (map : BTreeMap Key Value) : map.size = total (fun _ => 1) map := by
  rw [total, List.map_const', List.sum_replicate, Std.ExtTreeMap.length_toList,
    Nat.smul_one_eq_cast, Nat.cast_id]

variable [Std.LawfulEqOrd Key]

theorem size_retain_le (keep : Key → Value → Bool) (map : BTreeMap Key Value) :
    (retain keep map).size ≤ map.size := by
  rw [← Std.ExtTreeMap.length_toList, ← Std.ExtTreeMap.length_toList]
  refine (List.subperm_of_subset (nodup_toList _) fun entry member => ?_).length_le
  obtain ⟨key, value⟩ := entry
  rw [mem_toList, getElem?_retain, Option.filter_eq_some_iff] at member
  exact (mem_toList _ _ _).mpr member.1

/-- One selection after another is one selection. -/
theorem filterMap_filterMap {Middle Result : Type} (first : Key → Value → Option Middle)
    (second : Key → Middle → Option Result) (map : BTreeMap Key Value) :
    filterMap second (filterMap first map) =
      filterMap (fun key value => (first key value).bind (second key)) map := by
  refine ext_getElem? fun key => ?_
  rw [getElem?_filterMap, getElem?_filterMap, getElem?_filterMap, Option.bind_assoc]

variable [DecidableEq Key]

/-! ### Counters -/

theorem getElem?_decrement (counts : BTreeMap Key Nat) (key other : Key) :
    (decrement counts key)[other]? =
      if key = other then counts[other]?.bind fun found =>
        if found - 1 = 0 then none else some (found - 1)
      else counts[other]? := by
  unfold decrement
  cases found : counts[key]? with
  | none =>
    dsimp only
    split
    · rename_i same
      rw [← same, found]
      rfl
    · rfl
  | some count =>
    by_cases same : key = other
    · subst same
      rw [if_pos rfl, found, Option.bind_some]
      dsimp only
      split
      · rw [getElem?_erase, if_pos rfl]
      · rw [getElem?_insert, if_pos rfl]
    · rw [if_neg same]
      dsimp only
      split
      · rw [getElem?_erase, if_neg same]
      · rw [getElem?_insert, if_neg same]

theorem decrement_comm (counts : BTreeMap Key Nat) (first second : Key) :
    decrement (decrement counts first) second = decrement (decrement counts second) first := by
  refine ext_getElem? fun key => ?_
  simp only [getElem?_decrement]
  by_cases isFirst : first = key
  · by_cases isSecond : second = key
    · simp only [isFirst, isSecond]
    · simp only [isFirst, isSecond, if_false, if_true]
  · simp only [isFirst, if_false]

/-- The order in which references are released does not matter. -/
theorem foldl_decrement_perm {first second : List Key} (same : first.Perm second)
    (counts : BTreeMap Key Nat) :
    first.foldl decrement counts = second.foldl decrement counts :=
  same.foldl_eq' (fun first _ second _ counts => decrement_comm counts first second) counts

/-! ### Erasures -/

theorem erase_comm (table : BTreeMap Key Value) (first second : Key) :
    (table.erase first).erase second = (table.erase second).erase first := by
  refine ext_getElem? fun key => ?_
  simp only [getElem?_erase]
  by_cases isFirst : first = key
  · simp only [isFirst, if_true, ite_self]
  · simp only [isFirst, if_false]

theorem isEmpty_erase {table : BTreeMap Key Value} (empty : table.isEmpty = true) (key : Key) :
    (table.erase key).isEmpty = true := by
  rw [Std.ExtTreeMap.isEmpty_iff] at empty ⊢
  rw [empty]
  exact erase_of_absent (getElem?_empty key)

/-- A nested table without one entry; an inner table that is left empty is dropped. -/
@[irreducible]
def eraseInner (outer inner : Key) (nested : BTreeMap Key (BTreeMap Key Value)) :
    BTreeMap Key (BTreeMap Key Value) :=
  match nested[outer]? with
  | none => nested
  | some table =>
    if (table.erase inner).isEmpty then nested.erase outer
    else nested.insert outer (table.erase inner)

variable (outer inner : Key)

theorem getElem?_eraseInner (nested : BTreeMap Key (BTreeMap Key Value)) (other : Key) :
    (eraseInner outer inner nested)[other]? =
      if outer = other then nested[other]?.bind fun table => dropEmpty (table.erase inner)
      else nested[other]? := by
  unfold eraseInner
  cases found : nested[outer]? with
  | none =>
    dsimp only
    split
    · rename_i same
      rw [← same, found]
      rfl
    · rfl
  | some table =>
    dsimp only
    by_cases same : outer = other
    · subst same
      rw [if_pos rfl, found, Option.bind_some, dropEmpty]
      split
      · rw [getElem?_erase, if_pos rfl]
      · rw [getElem?_insert, if_pos rfl]
    · rw [if_neg same]
      split
      · rw [getElem?_erase, if_neg same]
      · rw [getElem?_insert, if_neg same]

omit [Std.LawfulEqOrd Key] [DecidableEq Key] in
theorem isEmpty_eraseInner (nested : BTreeMap Key (BTreeMap Key Value))
    (empty : nested.isEmpty = true) : (eraseInner outer inner nested).isEmpty = true := by
  have absent : nested[outer]? = none := by
    rw [Std.ExtTreeMap.isEmpty_iff.mp empty]
    exact getElem?_empty outer
  unfold eraseInner
  rw [absent]
  exact empty

theorem eraseInner_comm (other : Key) (nested : BTreeMap Key (BTreeMap Key Value)) :
    eraseInner outer other (eraseInner outer inner nested) =
      eraseInner outer inner (eraseInner outer other nested) := by
  have both : ∀ (first second : Key) (table : BTreeMap Key Value),
      ((dropEmpty (table.erase first)).bind fun table => dropEmpty (table.erase second)) =
        dropEmpty ((table.erase first).erase second) := fun first second table =>
    dropEmpty_bind (fun _ empty => isEmpty_erase empty second) (table.erase first)
  refine ext_getElem? fun name => ?_
  rw [getElem?_eraseInner, getElem?_eraseInner, getElem?_eraseInner, getElem?_eraseInner]
  split
  · cases nested[name]? with
    | none => rfl
    | some table =>
      rw [Option.bind_some, Option.bind_some, both, both, erase_comm]
  · rfl

end Layerhouse.BTreeMap
