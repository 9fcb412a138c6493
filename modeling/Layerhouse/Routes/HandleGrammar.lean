/-
This file compares the validators of `store/metadata/handle.rs` with the grammars of handles and of
repository paths. A handle is `[a-z0-9]+(-[a-z0-9]+)*` of three to thirty-nine bytes, a path is a
handle followed by one or more groups of a slash and a non-empty text over `[a-z0-9._-]`.

The validator of handles is a walk over the bytes that remembers whether the last one was a dash.
What it accepts is said of the words between the dashes: all consist of letters and digits, and none
is empty but the first one, if a letter or digit went before.
-/

import Layerhouse.Routes.RepositoryGrammar

namespace Layerhouse

open Grammar

/-! ### The grammars -/

/-- `[a-z0-9]+(-[a-z0-9]+)*` -/
def handleForm : RegularExpression Char :=
  separated '-' nameWord

def pathChars : List Char :=
  nameAlnums ++ ['.', '_', '-']

/-- `(/[a-z0-9._-]+)+` -/
def pathGroups : RegularExpression Char :=
  oneOrMore (.char '/' * oneOrMore (anyOf pathChars))

/-- A text of the grammar, with the length of a handle. -/
def IsHandle (handle : String) : Prop :=
  3 ≤ handle.utf8ByteSize ∧ handle.utf8ByteSize ≤ 39 ∧ handle.toList ∈ handleForm.matches'

/-! ### The walk over a handle -/

/-- The words between the dashes are made of letters and digits, and none is empty but possibly
the first one. -/
def WordsFrom (fresh : Prop) (words : List (List Char)) : Prop :=
  ∃ first rest, words = first :: rest ∧ (∀ char ∈ first, char ∈ nameAlnums) ∧
    (fresh → first ≠ []) ∧ ∀ word ∈ rest, word ∈ nameWord.matches'

theorem mem_handleForm {text : List Char} :
    text ∈ handleForm.matches' ↔ WordsFrom True (text.splitOn '-') := by
  have free : ∀ word ∈ nameWord.matches', '-' ∉ word := by
    intro word inWord dash
    have alnum := (mem_oneOrMore_anyOf.mp inWord).2 '-' dash
    revert alnum
    decide
  obtain ⟨first, rest, split⟩ := List.exists_cons_of_ne_nil (List.splitOn_ne_nil '-' text)
  rw [handleForm, mem_separated free, split, List.forall_mem_cons, nameWord, mem_oneOrMore_anyOf]
  constructor
  · rintro ⟨⟨present, alnums⟩, words⟩
    exact ⟨first, rest, rfl, alnums, fun _ => present, words⟩
  · rintro ⟨_, _, ⟨⟩, alnums, present, words⟩
    exact ⟨⟨present trivial, alnums⟩, words⟩

theorem wordsFrom_alnum {fresh : Prop} {char : Char} {text : List Char}
    (alnum : char ∈ nameAlnums) :
    WordsFrom fresh ((char :: text).splitOn '-') ↔ WordsFrom False (text.splitOn '-') := by
  have plain : (char == '-') = false := by
    rw [beq_eq_false_iff_ne]
    rintro rfl
    exact absurd alnum (by decide)
  obtain ⟨first, rest, split⟩ := List.exists_cons_of_ne_nil (List.splitOn_ne_nil '-' text)
  rw [List.splitOn_cons_eq_if_modifyHead, plain, if_neg Bool.false_ne_true, split,
    List.modifyHead_cons]
  constructor
  · rintro ⟨_, _, ⟨⟩, alnums, _, words⟩
    exact ⟨first, rest, rfl, (List.forall_mem_cons.mp alnums).2, False.elim, words⟩
  · rintro ⟨_, _, ⟨⟩, alnums, _, words⟩
    refine ⟨char :: first, rest, rfl, List.forall_mem_cons.mpr ⟨alnum, alnums⟩, fun _ => ?_, words⟩
    exact List.cons_ne_nil char first

theorem wordsFrom_dash {fresh : Prop} {text : List Char} :
    WordsFrom fresh (('-' :: text).splitOn '-') ↔ ¬ fresh ∧ WordsFrom True (text.splitOn '-') := by
  obtain ⟨first, rest, split⟩ := List.exists_cons_of_ne_nil (List.splitOn_ne_nil '-' text)
  rw [List.splitOn_cons_eq_if_modifyHead, beq_self_eq_true, if_pos rfl, split]
  constructor
  · rintro ⟨_, _, ⟨⟩, _, present, words⟩
    obtain ⟨inWord, words⟩ := List.forall_mem_cons.mp words
    obtain ⟨nonempty, alnums⟩ := mem_oneOrMore_anyOf.mp inWord
    exact ⟨fun isFresh => present isFresh rfl, first, rest, rfl, alnums, fun _ => nonempty, words⟩
  · rintro ⟨behind, _, _, ⟨⟩, alnums, present, words⟩
    refine ⟨[], first :: rest, rfl, List.forall_mem_nil _, fun isFresh => absurd isFresh behind, ?_⟩
    exact List.forall_mem_cons.mpr ⟨mem_oneOrMore_anyOf.mpr ⟨present trivial, alnums⟩, words⟩

theorem not_wordsFrom_other {fresh : Prop} {char : Char} {text : List Char}
    (other : char ∉ nameAlnums) (different : char ≠ '-') :
    ¬ WordsFrom fresh ((char :: text).splitOn '-') := by
  obtain ⟨first, rest, split⟩ := List.exists_cons_of_ne_nil (List.splitOn_ne_nil '-' text)
  rw [List.splitOn_cons_eq_if_modifyHead, beq_eq_false_iff_ne.mpr different,
    if_neg Bool.false_ne_true, split, List.modifyHead_cons]
  rintro ⟨_, _, ⟨⟩, alnums, _⟩
  exact other (alnums char List.mem_cons_self)

variable {handle : String} {last index : Nat} {prevDash : Bool}

theorem validateHandleBytes_alnum {byte : UInt8} {bytes : List UInt8}
    (alnum : isNameAlnum byte = true) :
    validateHandleBytes handle last index prevDash (byte :: bytes) =
      validateHandleBytes handle last (index + 1) false bytes := by
  have different : byte ≠ '-'.toUInt8 := by
    rintro rfl
    exact absurd alnum (by decide)
  have legal : isAsciiLowercase byte = true ∨ isAsciiDigit byte = true :=
    Bool.or_eq_true_iff.mp alnum
  rw [validateHandleBytes]
  simp [legal, different]

theorem validateHandleBytes_dash {bytes : List UInt8} :
    validateHandleBytes handle last index prevDash ('-'.toUInt8 :: bytes) = .ok () ↔
      ¬ (index = 0 ∨ prevDash = true) ∧ index ≠ last ∧
        validateHandleBytes handle last (index + 1) true bytes = .ok () := by
  rw [validateHandleBytes, if_neg fun illegal => illegal.2 rfl]
  by_cases start : index = 0
  · rw [if_pos ⟨start, rfl⟩]
    exact iff_of_false (by rintro ⟨⟩) fun known => known.1 (Or.inl start)
  · rw [if_neg fun both => start both.1]
    by_cases ending : index = last
    · rw [if_pos ⟨ending, rfl⟩]
      exact iff_of_false (by rintro ⟨⟩) fun known => known.2.1 ending
    · rw [if_neg fun both => ending both.1]
      by_cases doubled : prevDash = true
      · rw [if_pos ⟨rfl, doubled⟩]
        exact iff_of_false (by rintro ⟨⟩) fun known => known.1 (Or.inr doubled)
      · rw [if_neg fun both => doubled both.2, decide_eq_true rfl]
        exact (and_iff_right (not_or.mpr ⟨start, doubled⟩)).trans (and_iff_right ending) |>.symm

theorem validateHandleBytes_other {byte : UInt8} {bytes : List UInt8}
    (illegal : isNameAlnum byte = false) (different : byte ≠ '-'.toUInt8) :
    validateHandleBytes handle last index prevDash (byte :: bytes) ≠ .ok () := by
  have unlisted : ¬ (isAsciiLowercase byte = true ∨ isAsciiDigit byte = true) := fun legal =>
    Bool.eq_false_iff.mp illegal (Bool.or_eq_true_iff.mpr legal)
  rw [validateHandleBytes, if_pos ⟨unlisted, different⟩]
  rintro ⟨⟩

/-- The first byte of another character is not a dash. -/
theorem ne_dash_of_mem {char : Char} (different : char ≠ '-') {byte : UInt8}
    (member : byte ∈ String.utf8EncodeChar char) : byte ≠ '-'.toUInt8 := by
  rintro rfl
  rcases Text.utf8EncodeChar_cases char with ⟨single, ascii, encoded⟩ | large
  · rw [encoded, List.mem_singleton] at member
    rw [Text.eq_of_utf8EncodeChar ascii encoded, ← member] at different
    exact different (by decide)
  · exact absurd (by decide) (large _ member)

/-- The walk accepts what can follow in a handle. -/
theorem validateHandleBytes_iff {text : List Char}
    (length : last + 1 = index + (Text.utf8 text).length)
    (within : text = [] → ¬ (index = 0 ∨ prevDash = true)) :
    validateHandleBytes handle last index prevDash (Text.utf8 text) = .ok () ↔
      WordsFrom (index = 0 ∨ prevDash = true) (text.splitOn '-') := by
  induction text generalizing index prevDash with
  | nil =>
    refine iff_of_true rfl ⟨[], [], rfl, List.forall_mem_nil _, ?_, List.forall_mem_nil _⟩
    exact fun fresh => absurd fresh (within rfl)
  | cons char rest inductionHypothesis =>
    by_cases alnum : char ∈ nameAlnums
    · obtain ⟨byte, known, encoded⟩ := alnum_byte alnum
      have later : ¬ (index + 1 = 0 ∨ false = true) := by simp
      rw [Text.utf8_cons, encoded, List.singleton_append] at length ⊢
      rw [validateHandleBytes_alnum known, wordsFrom_alnum alnum,
        inductionHypothesis (by rw [length, List.length_cons]; omega) fun _ => later,
        eq_false later]
    · by_cases dash : char = '-'
      · subst dash
        have encoded : String.utf8EncodeChar '-' = ['-'.toUInt8] :=
          Text.utf8EncodeChar_ascii (by decide : (0x2D : UInt8) < 0x80)
        rw [Text.utf8_cons, encoded, List.singleton_append] at length ⊢
        rw [validateHandleBytes_dash, wordsFrom_dash]
        refine and_congr_right fun behind => ?_
        by_cases ending : rest = []
        · subst ending
          have isLast : index = last := by
            rw [List.length_cons] at length
            exact (Nat.succ.inj length).symm
          refine iff_of_false (fun known => known.1 isLast) ?_
          rintro ⟨_, _, ⟨⟩, _, present, _⟩
          exact present trivial rfl
        · have more : index ≠ last := by
            have present : Text.utf8 rest ≠ [] := fun empty => ending (Text.utf8_inj empty)
            have nonempty := List.length_pos_iff.mpr present
            rw [List.length_cons] at length
            omega
          rw [and_iff_right more, inductionHypothesis (by rw [length, List.length_cons]; omega)
            fun empty => absurd empty ending, eq_true (Or.inr rfl : index + 1 = 0 ∨ true = true)]
      · obtain ⟨byte, others, encoded⟩ :=
          List.exists_cons_of_ne_nil (@String.utf8EncodeChar_ne_nil char)
        have member : byte ∈ String.utf8EncodeChar char := encoded ▸ List.mem_cons_self
        rw [Text.utf8_cons, encoded, List.cons_append]
        exact iff_of_false
          (validateHandleBytes_other (separator_bytes alnum member) (ne_dash_of_mem dash member))
          (not_wordsFrom_other alnum dash)

/-- The validator of handles accepts their grammar. -/
theorem validateHandle_iff (handle : String) :
    validateHandle handle = .ok () ↔ IsHandle handle := by
  rw [validateHandle, IsHandle, handleMinLen, handleMaxLen]
  by_cases sized : handle.utf8ByteSize < 3 ∨ 39 < handle.utf8ByteSize
  · rw [if_pos sized]
    exact iff_of_false (by rintro ⟨⟩) fun known => by omega
  · obtain ⟨long, short⟩ := not_or.mp sized
    have present : handle.toList ≠ [] := by
      intro empty
      rw [String.toList_eq_nil_iff.mp empty] at long
      exact long (by decide)
    have bytes : 0 < (Text.utf8 handle.toList).length :=
      List.length_pos_iff.mpr fun empty => present (Text.utf8_inj empty)
    have walked : validateHandleBytes handle ((asBytes handle).length - 1) 0 false
        (Text.utf8 handle.toList) = .ok () ↔
          WordsFrom (0 = 0 ∨ false = true) (handle.toList.splitOn '-') :=
      validateHandleBytes_iff ((Nat.sub_add_cancel bytes).trans (Nat.zero_add _).symm)
        fun empty => absurd empty present
    rw [eq_true (Or.inl rfl : 0 = 0 ∨ false = true), ← mem_handleForm] at walked
    rw [if_neg sized]
    refine walked.trans ?_
    rw [and_iff_right (Nat.not_lt.mp long), and_iff_right (Nat.not_lt.mp short)]

/-! ### Paths -/

theorem isPathByte_iff (byte : UInt8) :
    isPathByte byte = true ↔ byte < 0x80 ∧ Char.ofNat byte.toNat ∈ pathChars := by
  have table : ∀ number ∈ List.range 256, isPathByte (UInt8.ofNat number) = true ↔
      UInt8.ofNat number < 0x80 ∧ Char.ofNat number ∈ pathChars := by
    decide +kernel
  have known := table byte.toNat (List.mem_range.mpr byte.toNat_lt)
  rwa [UInt8.ofNat_toNat] at known

/-- A character of a path is one byte that is allowed, and no other character is made of such. -/
theorem all_isPathByte_iff (char : Char) :
    (∀ byte ∈ String.utf8EncodeChar char, isPathByte byte = true) ↔ char ∈ pathChars := by
  rcases Text.utf8EncodeChar_cases char with ⟨byte, ascii, encoded⟩ | large
  · rw [encoded, List.forall_mem_singleton, isPathByte_iff, and_iff_right ascii,
      Text.eq_of_utf8EncodeChar ascii encoded]
  · have table : pathChars.all (·.toNat < 128) = true := by decide
    refine iff_of_false (fun all => ?_) fun listed => ?_
    · obtain ⟨byte, member⟩ := List.exists_mem_of_ne_nil _ (@String.utf8EncodeChar_ne_nil char)
      exact large byte member ((isPathByte_iff byte).mp (all byte member)).1
    · obtain ⟨byte, ascii, rfl⟩ :=
        exists_byte_of_small (of_decide_eq_true (List.all_eq_true.mp table char listed))
      exact large byte (Text.utf8EncodeChar_ascii ascii ▸ List.mem_cons_self) ascii

theorem validatePathSegment_iff (segment : List Char) :
    validatePathSegment (String.ofList segment) = .ok () ↔
      segment ∈ (oneOrMore (anyOf pathChars)).matches' := by
  have bytes : (∀ byte ∈ asBytes (String.ofList segment), isPathByte byte = true) ↔
      ∀ char ∈ segment, char ∈ pathChars := by
    rw [asBytes, String.toList_ofList]
    simp only [List.forall_mem_flatMap, all_isPathByte_iff]
  rw [validatePathSegment, mem_oneOrMore_anyOf, ← bytes]
  by_cases empty : segment = []
  · rw [empty]
    exact iff_of_false (by rintro ⟨⟩) fun known => known.1 rfl
  · have present : String.ofList segment ≠ "" := fun none =>
      empty (String.ofList_inj.mp none)
    rw [if_neg present, and_iff_right empty]
    cases found : (asBytes (String.ofList segment)).find? (¬ isPathByte ·) with
    | none =>
      rw [List.find?_eq_none] at found
      simpa using found
    | some byte =>
      have illegal := List.find?_some found
      refine iff_of_false nofun fun all => ?_
      simp [all byte (List.mem_of_find?_eq_some found)] at illegal

/-- The parts of a text are not empty only if its separators are neither at an end nor doubled. -/
theorem separators_apart {text : List Char} (present : ∀ part ∈ text.splitOn '/', part ≠ []) :
    text ≠ [] ∧ text.head? ≠ some '/' ∧ text.getLast? ≠ some '/' ∧ ¬ ['/', '/'] <:+: text := by
  refine ⟨?_, ?_, ?_, ?_⟩
  · rintro rfl
    exact present [] List.mem_cons_self rfl
  · intro leading
    obtain ⟨rest, rfl⟩ := List.head?_eq_some_iff.mp leading
    refine present [] ?_ rfl
    rw [← List.nil_append ('/' :: rest), List.splitOn_append_cons_self]
    exact List.mem_append_left _ List.mem_cons_self
  · intro trailing
    obtain ⟨front, rfl⟩ := List.getLast?_eq_some_iff.mp trailing
    refine present [] ?_ rfl
    rw [List.splitOn_append_cons_self]
    exact List.mem_append_right _ List.mem_cons_self
  · rintro ⟨front, rest, rfl⟩
    refine present [] ?_ rfl
    have doubled : front ++ ['/', '/'] ++ rest = front ++ '/' :: ([] ++ '/' :: rest) := by
      rw [List.append_assoc]
      rfl
    rw [doubled, List.splitOn_append_cons_self, List.splitOn_append_cons_self]
    exact List.mem_append_right _ (List.mem_append_left _ List.mem_cons_self)

/-- The loop over the segments passes if each of them does. -/
theorem forM_validatePathSegment_iff (segments : List (List Char)) :
    (segments.forM fun segment => validatePathSegment (String.ofList segment)) = .ok () ↔
      ∀ segment ∈ segments, segment ∈ (oneOrMore (anyOf pathChars)).matches' := by
  induction segments with
  | nil => exact iff_of_true rfl (List.forall_mem_nil _)
  | cons segment segments inductionHypothesis =>
    rw [List.forall_mem_cons, ← inductionHypothesis, ← validatePathSegment_iff, List.forM]
    cases validatePathSegment (String.ofList segment) with
    | error error => exact iff_of_false (by rintro ⟨⟩) fun both => nomatch both.1
    | ok done => exact (and_iff_right rfl).symm

/-- The first checks of a path refuse nothing that the later ones would accept. -/
theorem validateRepositoryPath_iff {path : String} {first : List Char}
    {segments : List (List Char)} (split : path.toList.splitOn '/' = first :: segments) :
    validateRepositoryPath path = .ok () ↔
      IsHandle (String.ofList first) ∧
        (∀ segment ∈ segments, segment ∈ (oneOrMore (anyOf pathChars)).matches') ∧
        segments ≠ [] := by
  have spaced : IsHandle (String.ofList first) ∧
      (∀ segment ∈ segments, segment ∈ (oneOrMore (anyOf pathChars)).matches') ∧ segments ≠ [] →
        path.toList ≠ [] ∧ path.toList.head? ≠ some '/' ∧ path.toList.getLast? ≠ some '/' ∧
          ¬ ['/', '/'] <:+: path.toList := by
    rintro ⟨isHandle, all, _⟩
    refine separators_apart (split ▸ List.forall_mem_cons.mpr ⟨?_, fun segment member => ?_⟩)
    · rintro rfl
      exact absurd isHandle.1 (by decide)
    · exact (mem_oneOrMore_anyOf.mp (all segment member)).1
  rw [validateRepositoryPath]
  by_cases empty : path = ""
  · rw [if_pos empty]
    refine iff_of_false (by rintro ⟨⟩) fun known => ?_
    exact (spaced known).1 (String.toList_eq_nil_iff.mpr empty)
  rw [if_neg empty]
  by_cases ends : path.toList.head? = some '/' ∨ path.toList.getLast? = some '/'
  · rw [if_pos ends]
    refine iff_of_false nofun fun known => ?_
    obtain ⟨_, leading, trailing, _⟩ := spaced known
    exact ends.elim leading trailing
  rw [if_neg ends]
  by_cases doubled : ['/', '/'] <:+: path.toList
  · rw [if_pos doubled]
    exact iff_of_false (by rintro ⟨⟩) fun known => (spaced known).2.2.2 doubled
  rw [if_neg doubled, ← validateHandle_iff, ← forM_validatePathSegment_iff]
  simp only [split, List.head_cons, List.tail_cons]
  cases validateHandle (String.ofList first) with
  | error error => exact iff_of_false (by rintro ⟨⟩) fun known => nomatch known.1
  | ok done =>
    cases segments.forM fun segment => validatePathSegment (String.ofList segment) with
    | error error => exact iff_of_false (by rintro ⟨⟩) fun known => nomatch known.2.1
    | ok done =>
      by_cases bare : segments = []
      · exact iff_of_false (by rw [if_pos bare]; nofun) fun known => known.2.2 bare
      · exact iff_of_true (if_neg bare) ⟨rfl, rfl, bare⟩

theorem slash_notMem_handle {handle : String} (isHandle : IsHandle handle) :
    '/' ∉ handle.toList :=
  slash_not_mem_of_validateHandle ((validateHandle_iff handle).mpr isHandle)

theorem slash_notMem_segment {segment : List Char}
    (inForm : segment ∈ (oneOrMore (anyOf pathChars)).matches') : '/' ∉ segment := by
  have absent : '/' ∉ pathChars := by decide
  exact fun member => absent ((mem_oneOrMore_anyOf.mp inForm).2 '/' member)

/-- The paths of the grammar are those whose segments are. -/
theorem path_segments_iff {path : String} :
    (∃ handle rest : String, path = handle ++ rest ∧ IsHandle handle ∧
      rest.toList ∈ pathGroups.matches') ↔
    ∃ first segments, path.toList.splitOn '/' = first :: segments ∧
      IsHandle (String.ofList first) ∧
        (∀ segment ∈ segments, segment ∈ (oneOrMore (anyOf pathChars)).matches') ∧
        segments ≠ [] := by
  constructor
  · rintro ⟨handle, rest, rfl, isHandle, groups⟩
    obtain ⟨segments, present, all, spelled⟩ := mem_oneOrMore_behind.mp groups
    refine ⟨handle.toList, segments, ?_, ?_, all, present⟩
    · rw [String.toList_append, spelled]
      refine splitOn_words (List.forall_mem_cons.mpr ⟨slash_notMem_handle isHandle, ?_⟩)
      exact fun segment member => slash_notMem_segment (all segment member)
    · rwa [String.ofList_toList]
  · rintro ⟨first, segments, split, isHandle, all, present⟩
    refine ⟨String.ofList first, String.ofList (segments.map ('/' :: ·)).flatten, ?_, isHandle, ?_⟩
    · rw [← String.toList_inj, String.toList_append, String.toList_ofList, String.toList_ofList,
        ← intercalate_cons, ← split, List.intercalate_splitOn]
    · rw [String.toList_ofList]
      exact mem_oneOrMore_behind.mpr ⟨segments, present, all, rfl⟩

theorem handleOf_append {handle rest : String} (isHandle : IsHandle handle)
    (groups : rest.toList ∈ pathGroups.matches') : handleOf (handle ++ rest) = .ok handle := by
  obtain ⟨segments, present, all, spelled⟩ := mem_oneOrMore_behind.mp groups
  obtain ⟨segment, segments, rfl⟩ := List.exists_cons_of_ne_nil present
  obtain ⟨nonempty, _⟩ := mem_oneOrMore_anyOf.mp (all segment List.mem_cons_self)
  obtain ⟨behind, spells⟩ : ∃ behind : String,
      behind.toList = segment ++ (segments.map ('/' :: ·)).flatten :=
    ⟨_, String.toList_ofList⟩
  refine handleOf_eq_ok.mpr ⟨behind, fun empty => ?_, ?_, slash_notMem_handle isHandle⟩
  · rw [String.toList_eq_nil_iff.mpr empty] at spells
    exact nonempty (List.append_eq_nil_iff.mp spells.symm).1
  · have led : rest = "/" ++ behind := by
      rw [← String.toList_inj, spelled, String.toList_append, spells]
      rfl
    rw [led, String.append_assoc]

/-- The validators accept their grammars, and the handle of an accepted path is the one that the
grammar finds at its start. -/
theorem handles_and_paths_iff (text : String) :
    (validateHandle text = .ok () ↔ IsHandle text) ∧
    (validateRepositoryPath text = .ok () ↔ ∃ handle rest : String,
      text = handle ++ rest ∧ IsHandle handle ∧ rest.toList ∈ pathGroups.matches') ∧
    ∀ handle rest : String, text = handle ++ rest → IsHandle handle →
      rest.toList ∈ pathGroups.matches' → handleOf text = .ok handle := by
  refine ⟨validateHandle_iff text, ?_, ?_⟩
  · obtain ⟨first, segments, split⟩ :=
      List.exists_cons_of_ne_nil (List.splitOn_ne_nil '/' text.toList)
    rw [validateRepositoryPath_iff split, path_segments_iff, split]
    constructor
    · exact fun known => ⟨first, segments, rfl, known⟩
    · rintro ⟨_, _, ⟨⟩, known⟩
      exact known
  · rintro handle rest rfl isHandle groups
    exact handleOf_append isHandle groups

end Layerhouse
