/-
This file is about histories: lists that keep the newest items up to a limit. An item is added at
the end, and the oldest ones leave at the front. Whatever is added to a history, it holds the newest
of all items that were ever added, in their order.

In a history with keys an item replaces the one with its key where it stands, and is added at the
end if there is none. So no two items ever have the same key.
-/

import Mathlib.Data.List.Nodup

namespace Layerhouse

namespace Histories

variable {Item Key : Type} {limit : Nat} {items : List Item}

/-- The newest items, as many as the limit allows. -/
def newest (limit : Nat) (items : List Item) : List Item :=
  items.drop (items.length - limit)

@[simp] theorem length_newest : (newest limit items).length = min limit items.length := by
  rw [newest, List.length_drop]
  omega

theorem newest_of_length_le (fits : items.length ≤ limit) : newest limit items = items := by
  rw [newest, Nat.sub_eq_zero_of_le fits, List.drop_zero]

theorem newest_suffix : newest limit items <:+ items :=
  List.drop_suffix _ _

/-- What has left a history makes no difference later. -/
theorem newest_newest_append (added : List Item) :
    newest limit (newest limit items ++ added) = newest limit (items ++ added) := by
  have front : items ++ added =
      items.take (items.length - limit) ++ (newest limit items ++ added) := by
    rw [newest, ← List.append_assoc, List.take_append_drop]
  have gone : (items ++ added).length - limit =
      (items.take (items.length - limit)).length +
        ((newest limit items ++ added).length - limit) := by
    rw [List.length_take, List.length_append, List.length_append, length_newest]
    omega
  calc newest limit (newest limit items ++ added)
      = (items.take (items.length - limit) ++ (newest limit items ++ added)).drop
          ((items.take (items.length - limit)).length +
            ((newest limit items ++ added).length - limit)) := by
        rw [List.drop_append, List.drop_of_length_le (Nat.le_add_right _ _), List.nil_append,
          Nat.add_sub_cancel_left, newest]
    _ = newest limit (items ++ added) := by rw [← gone, ← front, newest]

/-- Add an item. -/
def push (limit : Nat) (items : List Item) (item : Item) : List Item :=
  newest limit (items ++ [item])

/-- A history that is filled item by item holds the newest of them. -/
theorem foldl_push (added : List Item) :
    added.foldl (push limit) (newest limit items) = newest limit (items ++ added) := by
  induction added generalizing items with
  | nil => rw [List.foldl_nil, List.append_nil]
  | cons item added inductionHypothesis =>
    rw [List.foldl_cons, push, newest_newest_append, inductionHypothesis, List.append_assoc,
      List.singleton_append]

theorem foldl_push_nil (added : List Item) :
    added.foldl (push limit) [] = newest limit added := by
  have empty : newest limit ([] : List Item) = [] := newest_of_length_le (Nat.zero_le limit)
  rw [← empty, foldl_push, List.nil_append]

/-- In a full history the oldest item makes room, and nothing else leaves. -/
theorem push_eq {item : Item} (fits : items.length ≤ limit) (room : 0 < limit) :
    push limit items item = if items.length < limit then items ++ [item]
      else items.tail ++ [item] := by
  rw [push, newest, List.length_append, List.length_singleton]
  split
  · rename_i free
    rw [Nat.sub_eq_zero_of_le free, List.drop_zero]
  · have one : items.length + 1 - limit = 1 := by omega
    have nonempty : 1 ≤ items.length := by omega
    rw [one, List.drop_append_of_le_length nonempty, List.drop_one]

/-! ### Histories with keys -/

section Keys

variable [DecidableEq Key] {key : Item → Key} {item : Item}

/-- Put an item in place of the one with its key, or add it. -/
def put (limit : Nat) (key : Item → Key) (items : List Item) (item : Item) : List Item :=
  match items.findIdx? (key · = key item) with
  | some position => items.set position item
  | none => push limit items item

theorem put_of_known {before after : List Item} {known : Item}
    (distinct : ((before ++ known :: after).map key).Nodup) (same : key known = key item) :
    put limit key (before ++ known :: after) item = before ++ item :: after := by
  have earlier : ∀ other ∈ before, key other ≠ key item := by
    intro other member equal
    rw [List.map_append, List.map_cons] at distinct
    refine List.disjoint_of_nodup_append distinct (List.mem_map_of_mem member) ?_
    rw [equal, ← same]
    exact List.mem_cons_self
  have position : (before ++ known :: after).findIdx? (key · = key item) =
      some before.length := by
    have passed : before.findIdx? (key · = key item) = none :=
      List.findIdx?_eq_none_iff.mpr fun other member => decide_eq_false (earlier other member)
    rw [List.findIdx?_append, passed, List.findIdx?_cons, if_pos (decide_eq_true same)]
    simp
  rw [put, position]
  simp

theorem put_of_new (fresh : ∀ known ∈ items, key known ≠ key item) :
    put limit key items item = push limit items item := by
  have missing : items.findIdx? (key · = key item) = none :=
    List.findIdx?_eq_none_iff.mpr fun known member => decide_eq_false (fresh known member)
  rw [put, missing]

/-- A history with keys stays within its limit, and its keys stay distinct. -/
structure Kept (limit : Nat) (key : Item → Key) (items : List Item) : Prop where
  length_le : items.length ≤ limit
  distinct : (items.map key).Nodup

omit [DecidableEq Key] in
theorem kept_nil : Kept limit key [] :=
  ⟨Nat.zero_le limit, List.nodup_nil⟩

theorem Kept.put (kept : Kept limit key items) (item : Item) :
    Kept limit key (put limit key items item) := by
  by_cases known : ∃ found ∈ items, key found = key item
  · obtain ⟨found, member, same⟩ := known
    obtain ⟨before, after, rfl⟩ := List.append_of_mem member
    have keys : (before ++ item :: after).map key = (before ++ found :: after).map key := by
      rw [List.map_append, List.map_append, List.map_cons, List.map_cons, same]
    rw [put_of_known kept.distinct same]
    refine ⟨?_, keys ▸ kept.distinct⟩
    have fits := kept.length_le
    simpa only [List.length_append, List.length_cons] using fits
  · have fresh : ∀ found ∈ items, key found ≠ key item :=
      fun found member same => known ⟨found, member, same⟩
    rw [put_of_new fresh, push]
    refine ⟨length_newest ▸ Nat.min_le_left _ _, ?_⟩
    have distinct : ((items ++ [item]).map key).Nodup := by
      rw [List.map_append, List.map_singleton, List.nodup_append]
      refine ⟨kept.distinct, List.nodup_singleton _, ?_⟩
      intro found member added single
      obtain ⟨other, listed, rfl⟩ := List.mem_map.mp member
      rw [List.mem_singleton.mp single]
      exact fresh other listed
    exact distinct.sublist (newest_suffix.sublist.map key)

end Keys

end Histories

end Layerhouse
