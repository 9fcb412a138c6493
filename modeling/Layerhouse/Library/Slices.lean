/-
This file is about texts that are cut at byte offsets, as Rust cuts a `str`: an offset counts the
bytes that the characters before it take in UTF-8, and there is nothing to cut at an offset that is
inside a character or past the end. A search returns the offset of the first match, so what it finds
can be cut at. A text is shortened to a number of bytes at the last offset that can be cut at.
-/

import Layerhouse.Library.Text

namespace Layerhouse.Slices

variable {needle text before after : List Char} {char : Char} {offset limit : Nat}

/-- `str::len`. -/
def byteLength (text : List Char) : Nat :=
  (text.map Char.utf8Size).sum

/-- The text before and after an offset; none where it is not between two characters. -/
def splitAtByte : Nat → List Char → Option (List Char × List Char)
  | 0, text => some ([], text)
  | _ + 1, [] => none
  | offset + 1, char :: text =>
    if char.utf8Size ≤ offset + 1 then
      (splitAtByte (offset + 1 - char.utf8Size) text).map fun halves => (char :: halves.1, halves.2)
    else none

/-- `str::find`: the offset of the first match. -/
def find (needle : List Char) : List Char → Option Nat
  | [] => if needle = [] then some 0 else none
  | char :: text =>
    if (Text.stripPrefix needle (char :: text)).isSome then some 0
    else (find needle text).map (char.utf8Size + ·)

/-- `str::rfind` of a character: the offset of the last one. -/
def rfind (wanted : Char) : List Char → Option Nat
  | [] => none
  | char :: text =>
    match rfind wanted text with
    | some offset => some (char.utf8Size + offset)
    | none => if char = wanted then some 0 else none

/-! ### Lengths in bytes -/

@[simp] theorem byteLength_nil : byteLength [] = 0 := rfl

@[simp] theorem byteLength_cons (char : Char) (text : List Char) :
    byteLength (char :: text) = char.utf8Size + byteLength text := rfl

@[simp] theorem byteLength_append (before after : List Char) :
    byteLength (before ++ after) = byteLength before + byteLength after := by
  rw [byteLength, List.map_append, List.sum_append]
  rfl

theorem byteLength_eq_zero : byteLength text = 0 ↔ text = [] := by
  cases text with
  | nil => simp
  | cons char text => simp [char.utf8Size_pos.ne']

/-! ### Cutting -/

theorem splitAtByte_zero_eq_some :
    splitAtByte 0 text = some (before, after) ↔ text = before ++ after ∧ before = [] := by
  rw [splitAtByte, Option.some.injEq, Prod.mk.injEq]
  constructor
  · rintro ⟨rfl, rfl⟩
    exact ⟨rfl, rfl⟩
  · rintro ⟨rfl, rfl⟩
    exact ⟨rfl, rfl⟩

/-- An offset can be cut at exactly if that many bytes stand before a character or the end. -/
theorem splitAtByte_eq_some :
    splitAtByte offset text = some (before, after) ↔
      text = before ++ after ∧ byteLength before = offset := by
  induction text generalizing offset before with
  | nil =>
    cases offset with
    | zero => rw [splitAtByte_zero_eq_some, byteLength_eq_zero]
    | succ offset =>
      constructor
      · intro cut
        cases cut
      · rintro ⟨nothing, length⟩
        rw [(List.append_eq_nil_iff.mp nothing.symm).1] at length
        cases length
  | cons char text inductionHypothesis =>
    cases offset with
    | zero => rw [splitAtByte_zero_eq_some, byteLength_eq_zero]
    | succ offset =>
      rw [splitAtByte]
      cases before with
      | nil =>
        refine ⟨fun cut => ?_, fun cut => nomatch cut.2⟩
        split_ifs at cut
        obtain ⟨halves, _, impossible⟩ := Option.map_eq_some_iff.mp cut
        cases impossible
      | cons other before =>
        rw [List.cons_append, List.cons.injEq, byteLength_cons]
        constructor
        · intro cut
          split_ifs at cut with fits
          obtain ⟨⟨front, back⟩, cutRest, halvesEq⟩ := Option.map_eq_some_iff.mp cut
          cases halvesEq
          obtain ⟨rfl, length⟩ := inductionHypothesis.mp cutRest
          exact ⟨⟨rfl, rfl⟩, by rw [length]; omega⟩
        · rintro ⟨⟨rfl, rfl⟩, length⟩
          have cutRest : splitAtByte (offset + 1 - char.utf8Size) (before ++ after) =
              some (before, after) := inductionHypothesis.mpr ⟨rfl, by omega⟩
          rw [if_pos (by omega), cutRest]
          rfl

/-- `&text[..offset]`; none where Rust panics. -/
def sliceTo (offset : Nat) (text : List Char) : Option (List Char) :=
  (splitAtByte offset text).map Prod.fst

/-- `text.get(offset..)`, and `&text[offset..]` where none is a panic. -/
def sliceFrom (offset : Nat) (text : List Char) : Option (List Char) :=
  (splitAtByte offset text).map Prod.snd

theorem sliceTo_append (before after : List Char) :
    sliceTo (byteLength before) (before ++ after) = some before := by
  rw [sliceTo, splitAtByte_eq_some.mpr ⟨rfl, rfl⟩, Option.map_some]

theorem sliceFrom_append (before after : List Char) :
    sliceFrom (byteLength before) (before ++ after) = some after := by
  rw [sliceFrom, splitAtByte_eq_some.mpr ⟨rfl, rfl⟩, Option.map_some]

/-- Behind a character of one byte. -/
theorem sliceFrom_behind (single : char.utf8Size = 1) (before after : List Char) :
    sliceFrom (byteLength before + 1) (before ++ char :: after) = some after := by
  have cut := sliceFrom_append (before ++ [char]) after
  rwa [byteLength_append, byteLength_cons, single, byteLength_nil, List.append_assoc] at cut

theorem sliceTo_byteLength (text : List Char) : sliceTo (byteLength text) text = some text := by
  have cut := sliceTo_append text []
  rwa [List.append_nil] at cut

/-- Behind the end there is nothing to cut at. -/
theorem sliceFrom_of_lt (past : byteLength text < offset) : sliceFrom offset text = none := by
  rw [sliceFrom, Option.map_eq_none_iff]
  cases cut : splitAtByte offset text with
  | none => rfl
  | some halves =>
    obtain ⟨split, length⟩ := splitAtByte_eq_some.mp cut
    rw [split, byteLength_append] at past
    omega

/-! ### Searching -/

theorem find_eq_none : find needle text = none ↔ ¬ needle <:+: text := by
  induction text with
  | nil => simp [find]
  | cons char text inductionHypothesis =>
    have starts : (Text.stripPrefix needle (char :: text)).isSome ↔ needle <+: char :: text := by
      rw [Option.isSome_iff_exists]
      exact exists_congr fun rest => Text.stripPrefix_eq_some.trans eq_comm
    rw [find, List.infix_cons_iff, not_or, ← starts]
    split_ifs with first
    · simp [first]
    · rw [Option.map_eq_none_iff, inductionHypothesis]
      exact ⟨fun absent => ⟨first, absent⟩, fun absent => absent.2⟩

/-- The offset is that of a match, and no match starts before it. -/
theorem find_eq_some :
    find needle text = some offset ↔
      ∃ before after, text = before ++ needle ++ after ∧ byteLength before = offset ∧
        ∀ earlier later, text = earlier ++ needle ++ later → before.length ≤ earlier.length := by
  induction text generalizing offset with
  | nil =>
    rw [find]
    constructor
    · intro found
      split_ifs at found with nothing
      refine ⟨[], [], by rw [nothing]; rfl, Option.some.inj found, fun _ _ _ => Nat.zero_le _⟩
    · rintro ⟨before, after, split, rfl, _⟩
      obtain ⟨rfl, rfl, _⟩ : before = [] ∧ needle = [] ∧ after = [] := by
        simpa using split.symm
      rfl
  | cons char text inductionHypothesis =>
    rw [find]
    by_cases first : (Text.stripPrefix needle (char :: text)).isSome
    · rw [if_pos first, Option.some.injEq]
      obtain ⟨rest, starts⟩ := Option.isSome_iff_exists.mp first
      have split := Text.stripPrefix_eq_some.mp starts
      constructor
      · rintro rfl
        exact ⟨[], rest, split, rfl, fun _ _ _ => Nat.zero_le _⟩
      · rintro ⟨before, after, _, rfl, least⟩
        rw [List.eq_nil_of_length_eq_zero (Nat.le_zero.mp (least [] rest split))]
        rfl
    · rw [if_neg first, Option.map_eq_some_iff]
      constructor
      · rintro ⟨offset, found, rfl⟩
        obtain ⟨before, after, split, length, least⟩ := inductionHypothesis.mp found
        refine ⟨char :: before, after, by rw [split]; rfl, by rw [byteLength_cons, length], ?_⟩
        rintro (_ | ⟨other, earlier⟩) later splitEarlier
        · exact absurd (Option.isSome_iff_exists.mpr
            ⟨later, Text.stripPrefix_eq_some.mpr splitEarlier⟩) first
        · exact Nat.succ_le_succ (least earlier later (List.cons.inj splitEarlier).2)
      · rintro ⟨_ | ⟨other, before⟩, after, split, rfl, least⟩
        · exact absurd (Option.isSome_iff_exists.mpr
            ⟨after, Text.stripPrefix_eq_some.mpr split⟩) first
        · obtain ⟨rfl, splitRest⟩ := List.cons.inj split
          refine ⟨byteLength before, inductionHypothesis.mpr
            ⟨before, after, splitRest, rfl, fun earlier later splitEarlier => ?_⟩, rfl⟩
          exact Nat.le_of_succ_le_succ
            (least (char :: earlier) later (by rw [splitEarlier]; rfl))

/-- A needle whose first character does not stand before it is found where it is. -/
theorem find_of_head_notMem {rest : List Char} (absent : char ∉ before) :
    find (char :: rest) (before ++ (char :: rest) ++ after) = some (byteLength before) := by
  refine find_eq_some.mpr ⟨before, after, rfl, rfl, fun earlier later split => ?_⟩
  by_contra shorter
  refine absent ?_
  have inFront : (before ++ (char :: rest) ++ after)[earlier.length]? = some char := by
    rw [split, List.append_assoc, List.getElem?_append_right le_rfl, Nat.sub_self]
    rfl
  rw [List.append_assoc, List.getElem?_append_left (Nat.lt_of_not_le shorter)] at inFront
  exact List.mem_of_getElem? inFront

theorem find_char (absent : char ∉ before) :
    find [char] (before ++ char :: after) = some (byteLength before) := by
  rw [List.append_cons]
  exact find_of_head_notMem absent

theorem find_char_eq_none : find [char] text = none ↔ char ∉ text := by
  rw [find_eq_none, List.singleton_infix_iff]

theorem rfind_eq_none : rfind char text = none ↔ char ∉ text := by
  induction text with
  | nil => exact iff_of_true rfl List.not_mem_nil
  | cons other text inductionHypothesis =>
    rw [rfind, List.mem_cons, not_or, ← inductionHypothesis]
    cases rfind char text with
    | some offset => exact iff_of_false nofun fun both => nomatch both.2
    | none =>
      by_cases same : other = char
      · rw [if_pos same]
        exact iff_of_false nofun fun both => both.1 same.symm
      · rw [if_neg same]
        exact iff_of_true rfl ⟨fun equal => same equal.symm, rfl⟩

/-- The last one of a character that comes up. -/
theorem exists_last_of_mem (member : char ∈ text) :
    ∃ before after, text = before ++ char :: after ∧ char ∉ after := by
  induction text with
  | nil => cases member
  | cons other text inductionHypothesis =>
    by_cases later : char ∈ text
    · obtain ⟨before, after, rfl, last⟩ := inductionHypothesis later
      exact ⟨other :: before, after, rfl, last⟩
    · cases (List.mem_cons.mp member).resolve_right later
      exact ⟨[], text, rfl, later⟩

/-- A character that does not come up later is found where it is. -/
theorem rfind_char (before : List Char) (absent : char ∉ after) :
    rfind char (before ++ char :: after) = some (byteLength before) := by
  induction before with
  | nil =>
    rw [List.nil_append, rfind, rfind_eq_none.mpr absent]
    exact if_pos rfl
  | cons other before inductionHypothesis =>
    rw [List.cons_append, rfind, inductionHypothesis, byteLength_cons]

/-! ### Beginnings of a limited length -/

/-- The longest beginning of at most this many bytes. -/
def fit : Nat → List Char → List Char
  | _, [] => []
  | limit, char :: text =>
    if char.utf8Size ≤ limit then char :: fit (limit - char.utf8Size) text else []

/-- `floor_char_boundary`, by looking at one offset after the other from the limit down. -/
def floorBoundary (text : List Char) : Nat → Nat
  | 0 => 0
  | offset + 1 =>
    if (splitAtByte (offset + 1) text).isSome then offset + 1 else floorBoundary text offset

theorem byteLength_fit_le (limit : Nat) (text : List Char) :
    byteLength (fit limit text) ≤ limit := by
  induction text generalizing limit with
  | nil => exact Nat.zero_le _
  | cons char text inductionHypothesis =>
    rw [fit]
    split_ifs with fits
    · have rest := inductionHypothesis (limit - char.utf8Size)
      rw [byteLength_cons]
      omega
    · exact Nat.zero_le _

theorem prefixOf_fit (limit : Nat) (text : List Char) : fit limit text <+: text := by
  induction text generalizing limit with
  | nil => exact List.nil_prefix
  | cons char text inductionHypothesis =>
    rw [fit]
    split_ifs
    · exact (List.cons_prefix_cons).mpr ⟨rfl, inductionHypothesis _⟩
    · exact List.nil_prefix

theorem fit_of_le (fits : byteLength text ≤ limit) : fit limit text = text := by
  induction text generalizing limit with
  | nil => rfl
  | cons char text inductionHypothesis =>
    rw [byteLength_cons] at fits
    rw [fit, if_pos (by omega), inductionHypothesis (by omega)]

/-- Of a text that goes on behind a part that fits, the part is kept. -/
theorem fit_append (fits : byteLength before ≤ limit) (after : List Char) :
    fit limit (before ++ after) = before ++ fit (limit - byteLength before) after := by
  induction before generalizing limit with
  | nil => rfl
  | cons char before inductionHypothesis =>
    rw [byteLength_cons] at fits
    rw [List.cons_append, fit, if_pos (by omega), inductionHypothesis (by omega), byteLength_cons,
      Nat.sub_add_eq]
    rfl

/-- What stands behind the limit does not matter. -/
theorem fit_append_of_le (long : limit ≤ byteLength before) (after : List Char) :
    fit limit (before ++ after) = fit limit before := by
  induction before generalizing limit with
  | nil =>
    cases after with
    | nil => rfl
    | cons char after =>
      rw [byteLength_nil, Nat.le_zero] at long
      have size := char.utf8Size_pos
      have nothing : fit limit (char :: after) = [] := by
        rw [fit, if_neg (by omega)]
      exact nothing
  | cons char before inductionHypothesis =>
    rw [byteLength_cons] at long
    rw [List.cons_append, fit, fit]
    split_ifs with fits
    · rw [inductionHypothesis (by omega)]
    · rfl

theorem fit_ne_nil (present : text ≠ []) (room : 4 ≤ limit) : fit limit text ≠ [] := by
  cases text with
  | nil => exact absurd rfl present
  | cons char text =>
    rw [fit, if_pos (char.utf8Size_le_four.trans room)]
    exact List.cons_ne_nil _ _

/-- At most the three bytes are left over that the next character does not fit into. -/
theorem lt_byteLength_fit (long : limit < byteLength text) :
    limit < byteLength (fit limit text) + 4 := by
  induction text generalizing limit with
  | nil => exact absurd long (Nat.not_lt_zero _)
  | cons char text inductionHypothesis =>
    have size := char.utf8Size_le_four
    rw [byteLength_cons] at long
    rw [fit]
    split_ifs with fits
    · have rest := @inductionHypothesis (limit - char.utf8Size) (by omega)
      rw [byteLength_cons]
      omega
    · rw [byteLength_nil]
      omega

theorem fit_eq_nil_of_lt {smaller : Nat} (less : smaller ≤ limit) (nothing : fit limit text = []) :
    fit smaller text = [] := by
  cases text with
  | nil => rfl
  | cons char text =>
    rw [fit] at nothing ⊢
    split_ifs at nothing with fits
    rw [if_neg (by omega)]

/-- The last offset up to a limit that can be cut at is behind the longest beginning that fits. -/
theorem floorBoundary_eq (text : List Char) (limit : Nat) :
    floorBoundary text limit = byteLength (fit limit text) := by
  induction limit with
  | zero => exact (Nat.le_zero.mp (byteLength_fit_le 0 text)).symm
  | succ limit inductionHypothesis =>
    rw [floorBoundary]
    split_ifs with boundary
    · obtain ⟨⟨before, after⟩, cut⟩ := Option.isSome_iff_exists.mp boundary
      obtain ⟨rfl, length⟩ := splitAtByte_eq_some.mp cut
      rw [fit_append_of_le length.ge, fit_of_le length.le, length]
    · obtain ⟨rest, split⟩ := prefixOf_fit (limit + 1) text
      have within : byteLength (fit (limit + 1) text) ≤ limit := by
        have bound := byteLength_fit_le (limit + 1) text
        refine Nat.le_of_lt_succ (lt_of_le_of_ne bound fun length => boundary ?_)
        exact Option.isSome_iff_exists.mpr ⟨_, splitAtByte_eq_some.mpr ⟨split.symm, length⟩⟩
      have nothing : fit (limit + 1 - byteLength (fit (limit + 1) text)) rest = [] := by
        have whole := fit_append (within.trans (Nat.le_succ limit)) rest
        rw [split] at whole
        exact List.self_eq_append_right.mp whole
      have same : fit limit text = fit (limit + 1) text := by
        conv_lhs => rw [← split]
        rw [fit_append within, fit_eq_nil_of_lt (by omega) nothing, List.append_nil]
      rw [inductionHypothesis, same]

theorem sliceTo_floorBoundary (text : List Char) (limit : Nat) :
    sliceTo (floorBoundary text limit) text = some (fit limit text) := by
  obtain ⟨rest, split⟩ := prefixOf_fit limit text
  have cut := sliceTo_append (fit limit text) rest
  rwa [split, ← floorBoundary_eq] at cut

end Layerhouse.Slices
