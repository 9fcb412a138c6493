/-
This file fixes the ordered maps of the development and the few facts about
them that the standard library does not state.

A `BTreeMap` is the standard library's extensional tree map: two maps with the
same lookups are equal, so a theorem that two replicas hold equal maps means
what it says. On top of the library's lookups the file adds the in-place
`retain` loop of an ordered map, the sum of a weight over the values of a map,
and the counter maps (a key is present exactly when its count is positive) that
reference counting is written with.
-/

import Mathlib

namespace Layerhouse

/-- An ordered map, equal to every map with the same lookups. -/
abbrev BTreeMap (Key Value : Type) [Ord Key] := Std.ExtTreeMap Key Value compare

namespace BTreeMap

variable {Key Value Result : Type} [Ord Key] [Std.TransOrd Key]

/-- The sum of `weight` over the values of a map. -/
def total (weight : Value → Nat) (map : BTreeMap Key Value) : Nat :=
  (map.toList.map fun entry => weight entry.2).sum

@[simp] theorem total_empty (weight : Value → Nat) :
    total weight (∅ : BTreeMap Key Value) = 0 := by
  rw [total, Std.ExtTreeMap.toList_eq_nil_iff.mpr rfl]
  rfl

/-! ### Lookups -/

@[simp] theorem getElem?_empty (key : Key) : (∅ : BTreeMap Key Value)[key]? = none := by
  simp

theorem mem_iff (map : BTreeMap Key Value) (key : Key) :
    key ∈ map ↔ ∃ value, map[key]? = some value := by
  rw [Std.ExtTreeMap.mem_iff_isSome_getElem?, Option.isSome_iff_exists]

variable [Std.LawfulEqOrd Key]

theorem ext_getElem? {first second : BTreeMap Key Value}
    (same : ∀ key : Key, first[key]? = second[key]?) : first = second :=
  Std.ExtTreeMap.ext_getElem? same

theorem getElem?_insert [DecidableEq Key] (map : BTreeMap Key Value) (key other : Key)
    (value : Value) :
    (map.insert key value)[other]? = if key = other then some value else map[other]? := by
  rw [Std.ExtTreeMap.getElem?_insert]
  simp only [Std.LawfulEqCmp.compare_eq_iff_eq]

theorem getElem?_erase [DecidableEq Key] (map : BTreeMap Key Value) (key other : Key) :
    (map.erase key)[other]? = if key = other then none else map[other]? := by
  rw [Std.ExtTreeMap.getElem?_erase]
  simp only [Std.LawfulEqCmp.compare_eq_iff_eq]

/-- Erasing a key that is not there changes nothing. -/
theorem erase_of_absent [DecidableEq Key] {map : BTreeMap Key Value} {key : Key}
    (absent : map[key]? = none) : map.erase key = map := by
  refine ext_getElem? fun other => ?_
  rw [getElem?_erase]
  by_cases same : key = other
  · rw [if_pos same, ← same, absent]
  · rw [if_neg same]

/-- Storing the value a key already has changes nothing. -/
theorem insert_of_found [DecidableEq Key] {map : BTreeMap Key Value} {key : Key} {value : Value}
    (found : map[key]? = some value) : map.insert key value = map := by
  refine ext_getElem? fun other => ?_
  rw [getElem?_insert]
  by_cases same : key = other
  · rw [if_pos same, ← same, found]
  · rw [if_neg same]

theorem mem_toList (map : BTreeMap Key Value) (key : Key) (value : Value) :
    (key, value) ∈ map.toList ↔ map[key]? = some value :=
  Std.ExtTreeMap.mem_toList_iff_getElem?_eq_some

theorem mem_keys (map : BTreeMap Key Value) (key : Key) :
    key ∈ map.keys ↔ ∃ value, map[key]? = some value := by
  rw [Std.ExtTreeMap.mem_keys, mem_iff]

theorem nodup_toList (map : BTreeMap Key Value) : map.toList.Nodup := by
  refine List.Pairwise.imp ?_ Std.ExtTreeMap.distinct_keys_toList
  intro first second different same
  exact different (by rw [same]; exact Std.ReflCmp.compare_self)

omit [Std.LawfulEqOrd Key] in
theorem nodup_keys_toList (map : BTreeMap Key Value) : (map.toList.map (·.1)).Nodup := by
  have keys : map.toList.map (·.1) = map.keys := Std.ExtTreeMap.map_fst_toList_eq_keys
  rw [keys]
  exact Std.ExtTreeMap.nodup_keys

/-! ### Maps all of whose values meet a condition -/

section All

/-- All values of the map meet the condition. -/
def All (meets : Value → Prop) (map : BTreeMap Key Value) : Prop :=
  ∀ (key : Key) (value : Value), map[key]? = some value → meets value

variable {meets : Value → Prop} {map : BTreeMap Key Value} {key : Key} {value : Value}

omit [Std.LawfulEqOrd Key] in
theorem all_empty : All meets (∅ : BTreeMap Key Value) := by
  intro key value found
  rw [getElem?_empty] at found
  cases found

theorem All.insert [DecidableEq Key] (all : All meets map) (met : meets value) :
    All meets (map.insert key value) := by
  intro other found stored
  rw [getElem?_insert] at stored
  split at stored
  · exact Option.some.inj stored ▸ met
  · exact all other found stored

theorem All.erase [DecidableEq Key] (all : All meets map) : All meets (map.erase key) := by
  intro other found stored
  rw [getElem?_erase] at stored
  exact all other found (Option.ite_none_left_eq_some.mp stored).2

theorem All.of_mem (all : All meets map) (member : value ∈ map.toList.map (·.2)) :
    meets value := by
  obtain ⟨entry, listed, rfl⟩ := List.mem_map.mp member
  exact all entry.1 entry.2 ((mem_toList map entry.1 entry.2).mp listed)

end All

/-! ### The retain loop -/

/-- Keep the entries `select` answers for, each with the value it answers: an ordered map's
`retain`, whose closure may also change the value it keeps. -/
def filterMap (select : Key → Value → Option Result) (map : BTreeMap Key Value) :
    BTreeMap Key Result :=
  .ofList (map.toList.filterMap fun entry => (select entry.1 entry.2).map (entry.1, ·)) compare

theorem getElem?_filterMap (select : Key → Value → Option Result) (map : BTreeMap Key Value)
    (key : Key) : (filterMap select map)[key]? = map[key]?.bind (select key) := by
  have distinct : (map.toList.filterMap fun entry =>
      (select entry.1 entry.2).map (entry.1, ·)).Pairwise
        fun first second => ¬ compare first.1 second.1 = .eq := by
    refine List.Pairwise.filterMap _ ?_ Std.ExtTreeMap.distinct_keys_toList
    intro first second different firstEntry firstSelected secondEntry secondSelected
    obtain ⟨_, _, rfl⟩ := Option.map_eq_some_iff.mp firstSelected
    obtain ⟨_, _, rfl⟩ := Option.map_eq_some_iff.mp secondSelected
    exact different
  cases found : map[key]?.bind (select key) with
  | none =>
    classical
    refine Std.ExtTreeMap.getElem?_ofList_of_contains_eq_false ?_
    rw [Bool.eq_false_iff]
    intro contained
    obtain ⟨entry, member, same⟩ := List.mem_map.mp (List.contains_iff_mem.mp contained)
    obtain ⟨source, sourceMember, selected⟩ := List.mem_filterMap.mp member
    obtain ⟨result, chosen, rfl⟩ := Option.map_eq_some_iff.mp selected
    have lookup := (mem_toList map source.1 source.2).mp sourceMember
    simp only at same
    rw [same] at lookup chosen
    rw [lookup, Option.bind_some, chosen] at found
    exact absurd found (Option.some_ne_none _)
  | some result =>
    obtain ⟨value, lookup, chosen⟩ := Option.bind_eq_some_iff.mp found
    refine Std.ExtTreeMap.getElem?_ofList_of_mem (k := key) Std.ReflCmp.compare_self distinct ?_
    exact List.mem_filterMap.mpr
      ⟨(key, value), (mem_toList map key value).mpr lookup, by rw [chosen]; rfl⟩

/-- Keep the entries that satisfy `keep`. -/
def retain (keep : Key → Value → Bool) (map : BTreeMap Key Value) : BTreeMap Key Value :=
  filterMap (fun key value => if keep key value then some value else none) map

theorem getElem?_retain (keep : Key → Value → Bool) (map : BTreeMap Key Value) (key : Key) :
    (retain keep map)[key]? = map[key]?.filter (keep key) := by
  rw [retain, getElem?_filterMap]
  cases map[key]? with
  | none => rfl
  | some value => rfl

/-- A loop that keeps entries by their key. -/
theorem getElem?_retain_keys (keep : Key → Prop) [DecidablePred keep] (map : BTreeMap Key Value)
    (key : Key) :
    (retain (fun other _ => decide (keep other)) map)[key]? =
      if keep key then map[key]? else none := by
  rw [getElem?_retain]
  cases map[key]? with
  | none => rw [ite_self]; rfl
  | some value => simp only [Option.filter_some, decide_eq_true_eq]

/-! ### The sum of a weight over the values -/

theorem toList_perm_erase [DecidableEq Key] {map : BTreeMap Key Value} {key : Key} {value : Value}
    (found : map[key]? = some value) :
    map.toList.Perm ((key, value) :: (map.erase key).toList) := by
  have fresh : (key, value) ∉ (map.erase key).toList := by
    rw [mem_toList, getElem?_erase, if_pos rfl]
    exact fun impossible => by cases impossible
  refine (List.perm_ext_iff_of_nodup (nodup_toList map)
    (List.nodup_cons.mpr ⟨fresh, nodup_toList _⟩)).mpr ?_
  rintro ⟨other, otherValue⟩
  rw [List.mem_cons, mem_toList, mem_toList, getElem?_erase, Prod.mk.injEq]
  by_cases same : key = other
  · subst same
    rw [found, if_pos rfl, Option.some.injEq]
    constructor
    · rintro rfl
      exact Or.inl ⟨rfl, rfl⟩
    · rintro (⟨_, rfl⟩ | impossible)
      · rfl
      · cases impossible
  · rw [if_neg same]
    constructor
    · exact Or.inr
    · rintro (⟨rfl, _⟩ | lookup)
      · exact absurd rfl same
      · exact lookup

/-- When the total is zero, so is the weight of each value. -/
theorem weight_eq_zero {weight : Value → Nat} {map : BTreeMap Key Value}
    (zero : total weight map = 0) {key : Key} {value : Value} (found : map[key]? = some value) :
    weight value = 0 := by
  rw [total, List.sum_eq_zero_iff] at zero
  exact zero _ (List.mem_map.mpr ⟨(key, value), (mem_toList map key value).mpr found, rfl⟩)

theorem total_eq_zero_iff {weight : Value → Nat} {map : BTreeMap Key Value} :
    total weight map = 0 ↔ ∀ (key : Key) (value : Value), map[key]? = some value →
      weight value = 0 := by
  refine ⟨fun zero key value => weight_eq_zero zero, fun zero => ?_⟩
  rw [total, List.sum_eq_zero_iff]
  intro weighed member
  obtain ⟨⟨key, value⟩, listed, rfl⟩ := List.mem_map.mp member
  exact zero key value ((mem_toList map key value).mp listed)

theorem total_erase [DecidableEq Key] (weight : Value → Nat) (map : BTreeMap Key Value)
    (key : Key) :
    total weight (map.erase key) + map[key]?.elim 0 weight = total weight map := by
  cases found : map[key]? with
  | none =>
    rw [erase_of_absent found]
    rfl
  | some value =>
    rw [total, total, ((toList_perm_erase found).map _).sum_eq, List.map_cons, List.sum_cons,
      Option.elim_some, Nat.add_comm]

theorem total_insert [DecidableEq Key] (weight : Value → Nat) (map : BTreeMap Key Value)
    (key : Key) (value : Value) :
    total weight (map.insert key value) + map[key]?.elim 0 weight =
      total weight map + weight value := by
  have stored : (map.insert key value)[key]? = some value := by
    rw [getElem?_insert, if_pos rfl]
  have erased : (map.insert key value).erase key = map.erase key := by
    refine ext_getElem? fun other => ?_
    rw [getElem?_erase, getElem?_erase, getElem?_insert]
    split <;> rfl
  have inserted := total_erase weight (map.insert key value) key
  have original := total_erase weight map key
  rw [stored, erased, Option.elim_some] at inserted
  omega

/-! ### Maps of maps -/

section MapsOfMaps

variable {Outer Inner : Type} [Ord Outer] [Std.TransOrd Outer] [Std.LawfulEqOrd Outer]
  [DecidableEq Outer] [Ord Inner] [Std.TransOrd Inner] [Std.LawfulEqOrd Inner] [DecidableEq Inner]

/-- The value a map of maps holds for a pair of keys. -/
def entry? (map : BTreeMap Outer (BTreeMap Inner Value)) (outer : Outer) (inner : Inner) :
    Option Value :=
  map[outer]?.bind (·[inner]?)

omit [DecidableEq Outer] [Std.LawfulEqOrd Outer] [DecidableEq Inner] [Std.LawfulEqOrd Inner] in
@[simp] theorem entry?_empty (outer : Outer) (inner : Inner) :
    entry? (∅ : BTreeMap Outer (BTreeMap Inner Value)) outer inner = none := by
  rw [ entry?, getElem?_empty]
  rfl

omit [DecidableEq Outer] [Std.LawfulEqOrd Outer] [DecidableEq Inner] [Std.LawfulEqOrd Inner] in
theorem entry?_of_getElem? {map : BTreeMap Outer (BTreeMap Inner Value)} {outer : Outer}
    {inners : BTreeMap Inner Value} (found : map[outer]? = some inners) (inner : Inner) :
    entry? map outer inner = inners[inner]? := by
  rw [ entry?, found]
  rfl

omit [Std.LawfulEqOrd Inner] [DecidableEq Inner] in
theorem entry?_insert (map : BTreeMap Outer (BTreeMap Inner Value)) (outer other : Outer)
    (inners : BTreeMap Inner Value) (inner : Inner) :
    entry? (map.insert outer inners) other inner =
      if outer = other then inners[inner]? else entry? map other inner := by
  rw [ entry?, getElem?_insert]
  split <;> rfl

omit [Std.LawfulEqOrd Inner] [DecidableEq Inner] in
theorem entry?_erase (map : BTreeMap Outer (BTreeMap Inner Value)) (outer other : Outer)
    (inner : Inner) :
    entry? (map.erase outer) other inner =
      if outer = other then none else entry? map other inner := by
  rw [ entry?, getElem?_erase]
  split <;> rfl

omit [Std.LawfulEqOrd Outer] [DecidableEq Outer] [DecidableEq Inner] [Std.LawfulEqOrd Inner] in
theorem getElem?_getD_empty (map : BTreeMap Outer (BTreeMap Inner Value)) (outer : Outer)
    (inner : Inner) : (map[outer]?.getD ∅)[inner]? = entry? map outer inner := by
  rw [ entry?]
  cases map[outer]? with
  | none => exact getElem?_empty inner
  | some inners => rfl

/-- Storing a value in the inner map of a key, which is made when it is not there. -/
theorem entry?_put (map : BTreeMap Outer (BTreeMap Inner Value)) (outer otherOuter : Outer)
    (inner otherInner : Inner) (value : Value) :
    entry? (map.insert outer ((map[outer]?.getD ∅).insert inner value)) otherOuter otherInner =
      if outer = otherOuter ∧ inner = otherInner then some value
      else entry? map otherOuter otherInner := by
  rw [ entry?_insert, getElem?_insert, getElem?_getD_empty]
  by_cases sameOuter : outer = otherOuter
  · subst sameOuter
    by_cases sameInner : inner = otherInner
    · rw [if_pos rfl, if_pos sameInner, if_pos ⟨rfl, sameInner⟩]
    · rw [if_pos rfl, if_neg sameInner, if_neg fun same => sameInner same.2]
  · rw [if_neg sameOuter, if_neg fun same => sameOuter same.1]

end MapsOfMaps

/-! ### Counter maps -/

/-- The count a counter map holds for a key: zero when the key is absent. -/
def count (counts : BTreeMap Key Nat) (key : Key) : Nat :=
  counts[key]?.getD 0

/-- A counter map that stores no zero: a key is present exactly when its count is positive. -/
def Positive (counts : BTreeMap Key Nat) : Prop :=
  ∀ key : Key, counts[key]? ≠ some 0

/-- Add one to the count of a key. -/
def increment (counts : BTreeMap Key Nat) (key : Key) : BTreeMap Key Nat :=
  counts.insert key (count counts key + 1)

/-- Take one from the count of a key, removing the key when its count reaches zero. -/
def decrement (counts : BTreeMap Key Nat) (key : Key) : BTreeMap Key Nat :=
  match counts[key]? with
  | none => counts
  | some found => if found - 1 = 0 then counts.erase key else counts.insert key (found - 1)

omit [Std.LawfulEqOrd Key] in
theorem getElem?_of_positive {counts : BTreeMap Key Nat} (positive : Positive counts)
    (key : Key) :
    counts[key]? = if count counts key = 0 then none else some (count counts key) := by
  have nonzero := positive key
  unfold count
  cases found : counts[key]? with
  | none => rfl
  | some value =>
    have valueNonzero : value ≠ 0 := fun zero => nonzero (by rw [found, zero])
    rw [Option.getD_some, if_neg valueNonzero]

/-- Two counter maps that store no zero and count alike are equal. -/
theorem eq_of_count_eq {first second : BTreeMap Key Nat} (firstPositive : Positive first)
    (secondPositive : Positive second) (same : ∀ key, count first key = count second key) :
    first = second := by
  refine ext_getElem? fun key => ?_
  rw [getElem?_of_positive firstPositive, getElem?_of_positive secondPositive, same]

omit [Std.LawfulEqOrd Key] in
theorem positive_empty : Positive (∅ : BTreeMap Key Nat) := by
  intro key
  rw [getElem?_empty]
  exact fun impossible => by cases impossible

variable [DecidableEq Key]

theorem count_insert (counts : BTreeMap Key Nat) (key other : Key) (value : Nat) :
    count (counts.insert key value) other = if key = other then value else count counts other := by
  rw [count, getElem?_insert]
  split <;> rfl

theorem count_erase (counts : BTreeMap Key Nat) (key other : Key) :
    count (counts.erase key) other = if key = other then 0 else count counts other := by
  rw [count, getElem?_erase]
  split <;> rfl

theorem count_increment (counts : BTreeMap Key Nat) (key other : Key) :
    count (increment counts key) other = count counts other + if key = other then 1 else 0 := by
  rw [increment, count_insert]
  by_cases same : key = other
  · rw [if_pos same, if_pos same, same]
  · rw [if_neg same, if_neg same, Nat.add_zero]

theorem count_decrement (counts : BTreeMap Key Nat) (key other : Key) :
    count (decrement counts key) other = count counts other - if key = other then 1 else 0 := by
  unfold decrement
  cases found : counts[key]? with
  | none =>
    by_cases same : key = other
    · rw [if_pos same, ← same, count, found]
      rfl
    · rw [if_neg same, Nat.sub_zero]
  | some value =>
    simp only
    by_cases same : key = other
    · have stored : count counts other = value := by rw [count, ← same, found, Option.getD_some]
      rw [if_pos same]
      split
      · rename_i last
        rw [count_erase, if_pos same, stored, last]
      · rw [count_insert, if_pos same, stored]
    · rw [if_neg same]
      split
      · rw [count_erase, if_neg same, Nat.sub_zero]
      · rw [count_insert, if_neg same, Nat.sub_zero]

theorem positive_insert {counts : BTreeMap Key Nat} (positive : Positive counts) (key : Key)
    {value : Nat} (nonzero : value ≠ 0) : Positive (counts.insert key value) := by
  intro other
  rw [getElem?_insert]
  split
  · exact fun zero => nonzero (Option.some.inj zero)
  · exact positive other

theorem positive_increment {counts : BTreeMap Key Nat} (positive : Positive counts) (key : Key) :
    Positive (increment counts key) :=
  positive_insert positive key (Nat.succ_ne_zero _)

theorem positive_decrement {counts : BTreeMap Key Nat} (positive : Positive counts) (key : Key) :
    Positive (decrement counts key) := by
  unfold decrement
  cases counts[key]? with
  | none => exact positive
  | some value =>
    simp only
    split
    · intro other
      rw [getElem?_erase]
      split
      · exact fun impossible => by cases impossible
      · exact positive other
    · rename_i nonzero
      exact positive_insert positive key nonzero

/-- Incrementing every key of a list adds each key's number of occurrences. -/
theorem count_foldl_increment (keys : List Key) (counts : BTreeMap Key Nat) (key : Key) :
    count (keys.foldl increment counts) key = count counts key + keys.count key := by
  induction keys generalizing counts with
  | nil => rfl
  | cons head rest inductionHypothesis =>
    rw [List.foldl_cons, inductionHypothesis, count_increment, List.count_cons]
    by_cases same : head = key
    · rw [if_pos same, if_pos (beq_iff_eq.mpr same)]
      omega
    · rw [if_neg same, if_neg (fun equal => same (beq_iff_eq.mp equal))]
      omega

/-- Decrementing every key of a list takes each key's number of occurrences, down to zero. -/
theorem count_foldl_decrement (keys : List Key) (counts : BTreeMap Key Nat) (key : Key) :
    count (keys.foldl decrement counts) key = count counts key - keys.count key := by
  induction keys generalizing counts with
  | nil => rfl
  | cons head rest inductionHypothesis =>
    rw [List.foldl_cons, inductionHypothesis, count_decrement, List.count_cons]
    by_cases same : head = key
    · rw [if_pos same, if_pos (beq_iff_eq.mpr same)]
      omega
    · rw [if_neg same, if_neg (fun equal => same (beq_iff_eq.mp equal))]
      omega

omit [Std.LawfulEqOrd Key] [DecidableEq Key] in
theorem positive_foldl {change : BTreeMap Key Nat → Key → BTreeMap Key Nat}
    (preserved : ∀ counts key, Positive counts → Positive (change counts key))
    (keys : List Key) {counts : BTreeMap Key Nat} (positive : Positive counts) :
    Positive (keys.foldl change counts) := by
  induction keys generalizing counts with
  | nil => exact positive
  | cons head rest inductionHypothesis =>
    exact inductionHypothesis (preserved counts head positive)

end BTreeMap

end Layerhouse
