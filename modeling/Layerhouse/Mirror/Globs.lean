/-
This file compares the two `glob_matches`, of `mirror/mod.rs` and of `routes/dashboard_api.rs`,
with the patterns they are for. Both cut the pattern at its stars, drop the empty pieces, look
for the others from the left, and compare the ends of the value with the outer pieces where
the pattern has no star there. They accept the values that come from replacing every star.

`str::find` counts bytes and is modelled on characters: the encoding of a text has that of
another at the places where the text has the other, and nowhere else.
-/

import Layerhouse.Library.Globs

namespace Layerhouse

open Glob

/-- `pattern.split('*').filter(|p| !p.is_empty())` -/
def globParts (pattern : String) : List (List Char) :=
  (pattern.toList.splitOn '*').filter (· ≠ [])

/-- `glob_matches` of `mirror/mod.rs`. -/
def MirrorManager.globMatches (pattern value : String) : Bool :=
  if pattern = "*" then true
  else if '*' ∉ pattern.toList then pattern = value
  else
    match globParts pattern with
    | [] => true
    | first :: parts =>
      if pattern.toList.head? ≠ some '*' ∧ ¬ first.isPrefixOf value.toList then false
      else
        match findAll (first :: parts) value.toList with
        | none => false
        | some _ =>
          if pattern.toList.getLast? ≠ some '*' then
            (first :: parts).getLast?.all (·.isSuffixOf value.toList)
          else true

/-- `glob_matches` of `routes/dashboard_api.rs`. -/
def globMatches (pattern value : String) : Bool :=
  if pattern = "*" then true
  else if '*' ∉ pattern.toList then pattern = value
  else
    let anchoredStart := pattern.toList.head? ≠ some '*'
    let anchoredEnd := pattern.toList.getLast? ≠ some '*'
    match globParts pattern with
    | [] => true
    | first :: parts =>
      if anchoredStart ∧ ¬ first.isPrefixOf value.toList then false
      else
        match findAll (first :: parts) value.toList with
        | none => false
        | some _ =>
          if anchoredEnd then (first :: parts).getLast?.all (·.isSuffixOf value.toList) else true

/-! ### The ends of a pattern -/

variable {first last : List Char} {middle : List (List Char)}

theorem starts_iff (free : '*' ∉ first) :
    (first ++ ((middle.map ('*' :: ·)).flatten ++ '*' :: last)).head? = some '*' ↔ first = [] := by
  cases first with
  | nil => exact iff_of_true (by cases middle <;> rfl) rfl
  | cons char first =>
    refine iff_of_false (fun starts => free ?_) (List.cons_ne_nil char first)
    rw [← Option.some.inj starts]
    exact List.mem_cons_self

theorem ends_iff (free : '*' ∉ last) :
    (first ++ ((middle.map ('*' :: ·)).flatten ++ '*' :: last)).getLast? = some '*' ↔
      last = [] := by
  rw [← List.append_assoc]
  rcases List.eq_nil_or_concat' last with rfl | ⟨front, char, rfl⟩
  · exact iff_of_true List.getLast?_concat rfl
  · refine iff_of_false (fun ends => free ?_) (List.concat_ne_nil char front)
    rw [← List.cons_append, ← List.append_assoc, List.getLast?_concat, Option.some.injEq] at ends
    rw [ends]
    exact List.mem_append_right front List.mem_cons_self

variable {pieces rest front : List (List Char)} {pattern value piece : List Char}

/-- The test of the beginning, where the pattern has a star there exactly if its first piece is
empty. -/
theorem not_anchored_start_iff (star : pattern.head? = some '*' ↔ first = [])
    (split : (first :: rest).filter (· ≠ []) = piece :: pieces) :
    (pattern.head? ≠ some '*' ∧ ¬ piece.isPrefixOf value = true) ↔ ¬ first <+: value := by
  rw [Ne, star, List.isPrefixOf_iff_prefix]
  by_cases empty : first = []
  · refine iff_of_false (fun starts => starts.1 empty) (not_not.mpr ?_)
    rw [empty]
    exact List.nil_prefix
  · rw [List.filter_cons_of_pos (by exact decide_eq_true empty), List.cons.injEq] at split
    rw [← split.1]
    exact and_iff_right empty

/-- The test of the end. -/
theorem anchored_end_iff (star : pattern.getLast? = some '*' ↔ last = [])
    (split : (front ++ [last]).filter (· ≠ []) = pieces) :
    (pattern.getLast? ≠ some '*' → pieces.getLast?.all (·.isSuffixOf value) = true) ↔
      last <:+ value := by
  rw [Ne, star]
  by_cases empty : last = []
  · refine iff_of_true (fun ends => absurd empty ends) ?_
    rw [empty]
    exact List.nil_suffix
  · have kept : [last].filter (· ≠ []) = [last] :=
      List.filter_cons_of_pos (by exact decide_eq_true empty)
    rw [← split, List.filter_append, kept, List.getLast?_concat, Option.all_some,
      List.isSuffixOf_iff_suffix]
    exact forall_prop_of_true empty

/-- The tests of a pattern with pieces ask for its ends and for the pieces one after another. -/
theorem pieces_test_iff {pieces : List (List Char)}
    (begins : (pattern.head? ≠ some '*' ∧ ¬ piece.isPrefixOf value = true) ↔ ¬ first <+: value)
    (finishes : (pattern.getLast? ≠ some '*' →
      pieces.getLast?.all (·.isSuffixOf value) = true) ↔ last <:+ value) :
    (if pattern.head? ≠ some '*' ∧ ¬ piece.isPrefixOf value then false
      else
        match findAll pieces value with
        | none => false
        | some _ =>
          if pattern.getLast? ≠ some '*' then pieces.getLast?.all (·.isSuffixOf value)
          else true) = true ↔
      first <+: value ∧ last <:+ value ∧ (findAll pieces value).isSome = true := by
  split
  · rename_i fails
    exact iff_of_false nofun fun known => begins.mp fails known.1
  · rename_i holds
    rw [begins, not_not] at holds
    cases findAll pieces value with
    | none => exact iff_of_false nofun fun known => nomatch known.2.2
    | some rest =>
      rw [← finishes]
      by_cases anchored : pattern.getLast? ≠ some '*'
      · rw [if_pos anchored]
        exact ⟨fun ends => ⟨holds, fun _ => ends, rfl⟩, fun known => known.2.1 anchored⟩
      · rw [if_neg anchored]
        exact iff_of_true rfl ⟨holds, fun other => absurd other anchored, rfl⟩

/-- Both matchers accept the values that come from replacing every star of the pattern. -/
theorem glob_matches_iff (pattern value : String) :
    (MirrorManager.globMatches pattern value = true ↔
        Expands '*' pattern.toList value.toList) ∧
      globMatches pattern value = MirrorManager.globMatches pattern value := by
  refine ⟨?_, rfl⟩
  rw [MirrorManager.globMatches]
  split
  · rename_i star
    rw [star]
    exact iff_of_true rfl (expands_wildcard.mpr ⟨value.toList, [], (List.append_nil _).symm, .nil⟩)
  · split
    · rename_i free
      rw [expands_plain free, decide_eq_true_eq, String.toList_inj]
      exact eq_comm
    · rename_i present
      obtain ⟨first, middle, last, split, joined, ofFirst, ofMiddle, ofLast⟩ :=
        exists_pieces (not_not.mp present)
      have start := @starts_iff first last middle ofFirst
      have ending := @ends_iff first last middle ofLast
      rw [← joined] at start ending
      have expands := @expands_iff_findAll _ '*' value.toList _ _ _ _ ofFirst ofMiddle ofLast
      rw [← joined] at expands
      rw [expands, globParts, split]
      cases pieces : (first :: (middle ++ [last])).filter (· ≠ []) with
      | nil =>
        have empty := List.filter_eq_nil_iff.mp pieces
        have noPiece : ∀ piece ∈ first :: (middle ++ [last]), piece = [] := fun piece member =>
          not_not.mp fun present => empty piece member (decide_eq_true present)
        refine iff_of_true rfl ⟨?_, ?_, rfl⟩
        · rw [noPiece first List.mem_cons_self]
          exact List.nil_prefix
        · rw [noPiece last (List.mem_cons_of_mem _ (List.mem_append_right _ List.mem_cons_self))]
          exact List.nil_suffix
      | cons piece others =>
        exact pieces_test_iff (not_anchored_start_iff start pieces)
          (@anchored_end_iff last (piece :: others) (first :: middle) _ _ ending pieces)

end Layerhouse
