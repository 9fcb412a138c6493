/-
This file holds the string searches of the development, over lists of any
symbols: stripping a given beginning or end, splitting at the first occurrence
of a separator, and splitting at the last occurrence of a needle. Each is given
by a structural recursion and by one theorem that says which splits it returns,
and callers cite the theorem. Numbers are read as Rust prints them, in decimal digits.

The two renderings at the end are Rust's: a string in double quotes and a
character in single quotes, as `{:?}` writes them. Characters beyond Latin-1 are
kept as they are; Rust escapes those of them that its Unicode tables call
unprintable.
-/

import Mathlib

namespace Layerhouse

namespace Text

variable {Symbol : Type} [DecidableEq Symbol]

/-! ### Stripping a beginning or an end -/

/-- What follows `lead` in a text that starts with it. -/
def stripPrefix : List Symbol → List Symbol → Option (List Symbol)
  | [], text => some text
  | _ :: _, [] => none
  | expected :: lead, first :: text => if expected = first then stripPrefix lead text else none

/-- What precedes `trail` in a text that ends with it. -/
def stripSuffix (trail text : List Symbol) : Option (List Symbol) :=
  (stripPrefix trail.reverse text.reverse).map List.reverse

theorem stripPrefix_eq_some {lead text rest : List Symbol} :
    stripPrefix lead text = some rest ↔ text = lead ++ rest := by
  induction lead generalizing text with
  | nil => exact ⟨fun found => Option.some.inj found, fun same => congrArg some same⟩
  | cons expected lead inductionHypothesis =>
    cases text with
    | nil => simp [stripPrefix]
    | cons first text =>
      rw [stripPrefix, List.cons_append, List.cons.injEq]
      by_cases same : expected = first
      · rw [if_pos same, inductionHypothesis]
        exact ⟨fun found => ⟨same.symm, found⟩, fun found => found.2⟩
      · rw [if_neg same]
        exact ⟨fun found => (Option.some_ne_none _ found.symm).elim,
          fun found => absurd found.1.symm same⟩

theorem stripSuffix_eq_some {trail text rest : List Symbol} :
    stripSuffix trail text = some rest ↔ text = rest ++ trail := by
  rw [stripSuffix, Option.map_eq_some_iff]
  constructor
  · rintro ⟨reversed, found, rfl⟩
    have reverseEq := congrArg List.reverse (stripPrefix_eq_some.mp found)
    rwa [List.reverse_reverse, List.reverse_append, List.reverse_reverse] at reverseEq
  · rintro rfl
    refine ⟨rest.reverse, stripPrefix_eq_some.mpr ?_, List.reverse_reverse rest⟩
    rw [List.reverse_append]

/-! ### Splitting at the first separator -/

/-- The text before and after the first occurrence of a separator. -/
def splitOnce (separator : Symbol) : List Symbol → Option (List Symbol × List Symbol)
  | [] => none
  | first :: text =>
    if first = separator then some ([], text)
    else (splitOnce separator text).map fun halves => (first :: halves.1, halves.2)

theorem splitOnce_eq_some {separator : Symbol} {text head rest : List Symbol} :
    splitOnce separator text = some (head, rest) ↔
      text = head ++ separator :: rest ∧ separator ∉ head := by
  induction text generalizing head with
  | nil => simp [splitOnce]
  | cons first text inductionHypothesis =>
    rw [splitOnce]
    by_cases same : first = separator
    · subst same
      rw [if_pos rfl, Option.some.injEq, Prod.mk.injEq]
      cases head with
      | nil => simp
      | cons other head =>
        rw [List.cons_append, List.cons.injEq]
        constructor
        · rintro ⟨impossible, _⟩
          cases impossible
        · rintro ⟨⟨rfl, _⟩, absent⟩
          exact absurd List.mem_cons_self absent
    · rw [if_neg same, Option.map_eq_some_iff]
      cases head with
      | nil =>
        rw [List.nil_append, List.cons.injEq]
        constructor
        · rintro ⟨halves, _, impossible⟩
          cases impossible
        · rintro ⟨⟨equal, _⟩, _⟩
          exact absurd equal same
      | cons other head =>
        rw [List.cons_append, List.cons.injEq]
        constructor
        · rintro ⟨⟨halfHead, halfRest⟩, found, halvesEq⟩
          cases halvesEq
          obtain ⟨textEq, absent⟩ := inductionHypothesis.mp found
          refine ⟨⟨rfl, textEq⟩, fun member => ?_⟩
          rcases List.mem_cons.mp member with equal | member
          · exact same equal.symm
          · exact absent member
        · rintro ⟨⟨rfl, textEq⟩, absent⟩
          exact ⟨(head, rest), inductionHypothesis.mpr
            ⟨textEq, fun member => absent (List.mem_cons_of_mem _ member)⟩, rfl⟩

/-! ### Splitting at the last occurrence of a needle -/

/-- The text before and after the last occurrence of a needle. -/
def rsplitOnce (needle : List Symbol) : List Symbol → Option (List Symbol × List Symbol)
  | [] => (stripPrefix needle []).map ([], ·)
  | first :: text =>
    match rsplitOnce needle text with
    | some (before, after) => some (first :: before, after)
    | none => (stripPrefix needle (first :: text)).map ([], ·)

theorem rsplitOnce_eq_none {needle text : List Symbol} :
    rsplitOnce needle text = none ↔ ∀ before after, text ≠ before ++ needle ++ after := by
  induction text with
  | nil =>
    rw [rsplitOnce, Option.map_eq_none_iff, Option.eq_none_iff_forall_ne_some]
    constructor
    · intro absent before after found
      have emptyBefore : before = [] := by
        cases before with
        | nil => rfl
        | cons first before => cases found
      subst emptyBefore
      exact absent after (stripPrefix_eq_some.mpr found)
    · intro absent after found
      exact absent [] after (stripPrefix_eq_some.mp found)
  | cons first text inductionHypothesis =>
    rw [rsplitOnce]
    constructor
    · intro split before after found
      cases later : rsplitOnce needle text with
      | some halves =>
        rw [later] at split
        cases split
      | none =>
        rw [later] at split
        cases before with
        | nil =>
          have here : stripPrefix needle (first :: text) = some after :=
            stripPrefix_eq_some.mpr found
          simp [here] at split
        | cons head before =>
          rw [List.cons_append, List.cons_append, List.cons.injEq] at found
          exact inductionHypothesis.mp later before after found.2
    · intro absent
      have later : rsplitOnce needle text = none := by
        refine inductionHypothesis.mpr fun before after found => ?_
        exact absent (first :: before) after (by rw [found]; rfl)
      have nowhere : stripPrefix needle (first :: text) = none :=
        Option.eq_none_iff_forall_ne_some.mpr fun after found =>
          absent [] after (stripPrefix_eq_some.mp found)
      simp [later, nowhere]

/-- The split `rsplitOnce` returns, and that no occurrence starts later. -/
theorem rsplitOnce_eq_some {needle text before after : List Symbol} :
    rsplitOnce needle text = some (before, after) ↔
      text = before ++ needle ++ after ∧
        ∀ otherBefore otherAfter, text = otherBefore ++ needle ++ otherAfter →
          otherBefore.length ≤ before.length := by
  induction text generalizing before after with
  | nil =>
    rw [rsplitOnce, Option.map_eq_some_iff]
    constructor
    · rintro ⟨rest, found, halvesEq⟩
      cases halvesEq
      refine ⟨stripPrefix_eq_some.mp found, fun otherBefore otherAfter other => ?_⟩
      have lengths := congrArg List.length other
      simp only [List.length_nil, List.length_append] at lengths
      omega
    · rintro ⟨found, _⟩
      have emptyBefore : before = [] := by
        cases before with
        | nil => rfl
        | cons first before => cases found
      subst emptyBefore
      exact ⟨after, stripPrefix_eq_some.mpr found, rfl⟩
  | cons first text inductionHypothesis =>
    rw [rsplitOnce]
    cases later : rsplitOnce needle text with
    | some halves =>
      obtain ⟨laterBefore, laterAfter⟩ := halves
      obtain ⟨laterEq, laterLast⟩ := inductionHypothesis.mp later
      simp only [Option.some.injEq, Prod.mk.injEq]
      constructor
      · rintro ⟨rfl, rfl⟩
        refine ⟨by rw [laterEq]; rfl, fun otherBefore otherAfter other => ?_⟩
        cases otherBefore with
        | nil => exact Nat.zero_le _
        | cons head otherBefore =>
          rw [List.cons_append, List.cons_append, List.cons.injEq] at other
          exact Nat.succ_le_succ (laterLast otherBefore otherAfter other.2)
      · rintro ⟨found, last⟩
        cases before with
        | nil =>
          have bound := last (first :: laterBefore) laterAfter (by rw [laterEq]; rfl)
          exact absurd bound (Nat.not_succ_le_zero _)
        | cons head before =>
          rw [List.cons_append, List.cons_append, List.cons.injEq] at found
          have upper := last (first :: laterBefore) laterAfter (by rw [laterEq]; rfl)
          have lower := laterLast before after found.2
          have sameLength : laterBefore.length = before.length := by
            simp only [List.length_cons] at upper
            omega
          have splitEq := laterEq.symm.trans found.2
          rw [List.append_assoc, List.append_assoc] at splitEq
          obtain ⟨beforeEq, restEq⟩ := List.append_inj splitEq sameLength
          exact ⟨by rw [found.1, beforeEq], List.append_cancel_left restEq⟩
    | none =>
      have absent := rsplitOnce_eq_none.mp later
      simp only [Option.map_eq_some_iff]
      constructor
      · rintro ⟨rest, found, halvesEq⟩
        cases halvesEq
        refine ⟨stripPrefix_eq_some.mp found, fun otherBefore otherAfter other => ?_⟩
        cases otherBefore with
        | nil => exact Nat.le_refl _
        | cons head otherBefore =>
          rw [List.cons_append, List.cons_append, List.cons.injEq] at other
          exact absurd other.2 (absent otherBefore otherAfter)
      · rintro ⟨found, _⟩
        cases before with
        | nil => exact ⟨after, stripPrefix_eq_some.mpr found, rfl⟩
        | cons head before =>
          rw [List.cons_append, List.cons_append, List.cons.injEq] at found
          exact absurd found.2 (absent before after)

/-- The last occurrence of a single symbol is the one that none follows. -/
theorem rsplitOnce_singleton {symbol : Symbol} {text before tail : List Symbol} :
    rsplitOnce [symbol] text = some (before, tail) ↔
      text = before ++ symbol :: tail ∧ symbol ∉ tail := by
  rw [rsplitOnce_eq_some]
  constructor
  · rintro ⟨textEq, last⟩
    refine ⟨by rw [textEq]; simp, fun member => ?_⟩
    obtain ⟨front, back, tailEq⟩ := List.append_of_mem member
    have longer := last (before ++ symbol :: front) back (by rw [textEq, tailEq]; simp)
    simp at longer
  · rintro ⟨textEq, absent⟩
    refine ⟨by rw [textEq]; simp, fun front back other => ?_⟩
    by_contra longer
    rw [textEq, List.append_assoc, List.append_eq_append_iff] at other
    rcases other with ⟨middle, frontEq, tailEq⟩ | ⟨middle, beforeEq, _⟩
    · cases middle with
      | nil =>
        rw [frontEq, List.append_nil] at longer
        exact longer (Nat.le_refl _)
      | cons head middle =>
        rw [List.cons_append, List.cons.injEq] at tailEq
        refine absent ?_
        rw [tailEq.2]
        simp
    · rw [beforeEq, List.length_append] at longer
      omega

theorem toList_separated (before after : String) (separator : Char) :
    (before ++ String.singleton separator ++ after).toList =
      before.toList ++ separator :: after.toList := by
  rw [String.toList_append, String.toList_append, List.append_assoc, String.toList_singleton]
  rfl

/-- The first separator parts a text in one way. -/
theorem firstSeparator_inj {before other after rest : String} {separator : Char}
    (ofBefore : separator ∉ before.toList) (ofOther : separator ∉ other.toList) :
    before ++ String.singleton separator ++ after = other ++ String.singleton separator ++ rest ↔
      before = other ∧ after = rest := by
  constructor
  · intro same
    have lists := congrArg String.toList same
    rw [toList_separated, toList_separated] at lists
    have split := splitOnce_eq_some.mpr ⟨lists, ofOther⟩
    rw [splitOnce_eq_some.mpr ⟨rfl, ofBefore⟩, Option.some.injEq, Prod.mk.injEq] at split
    exact ⟨String.toList_inj.mp split.1, String.toList_inj.mp split.2⟩
  · rintro ⟨rfl, rfl⟩
    rfl

/-- The last separator parts a text in one way. -/
theorem lastSeparator_inj {before other after rest : String} {separator : Char}
    (ofAfter : separator ∉ after.toList) (ofRest : separator ∉ rest.toList) :
    before ++ String.singleton separator ++ after = other ++ String.singleton separator ++ rest ↔
      before = other ∧ after = rest := by
  constructor
  · intro same
    have lists := congrArg String.toList same
    rw [toList_separated, toList_separated] at lists
    have split := rsplitOnce_singleton.mpr ⟨lists, ofRest⟩
    rw [rsplitOnce_singleton.mpr ⟨rfl, ofAfter⟩, Option.some.injEq, Prod.mk.injEq] at split
    exact ⟨String.toList_inj.mp split.1, String.toList_inj.mp split.2⟩
  · rintro ⟨rfl, rfl⟩
    rfl

/-- The text cut at its first separators, into at most the given number of pieces. -/
def splitn (separator : Symbol) : Nat → List Symbol → List (List Symbol)
  | 0, _ => []
  | 1, text => [text]
  | pieces + 2, text =>
    match splitOnce separator text with
    | none => [text]
    | some (head, rest) => head :: splitn separator (pieces + 1) rest

variable {separator : Symbol} {count : Nat}

theorem notMem_of_splitOnce {text : List Symbol} (split : splitOnce separator text = none) :
    separator ∉ text := by
  intro member
  obtain ⟨head, rest, rfl, absent⟩ := List.eq_append_cons_of_mem member
  rw [splitOnce_eq_some.mpr ⟨rfl, absent⟩] at split
  cases split

theorem splitn_cons_of_notMem {head rest : List Symbol} (absent : separator ∉ head) :
    splitn separator (count + 2) (head ++ separator :: rest) =
      head :: splitn separator (count + 1) rest := by
  have split : splitOnce separator (head ++ separator :: rest) = some (head, rest) :=
    splitOnce_eq_some.mpr ⟨rfl, absent⟩
  rw [splitn, split]

theorem splitn_of_notMem {text : List Symbol} (absent : separator ∉ text) :
    splitn separator (count + 1) text = [text] := by
  cases count with
  | zero => rfl
  | succ count =>
    cases split : splitOnce separator text with
    | none => rw [splitn, split]
    | some halves =>
      obtain ⟨same, _⟩ := splitOnce_eq_some.mp split
      rw [same] at absent
      exact absurd (List.mem_append_right _ List.mem_cons_self) absent

/-- The first piece of several is followed by a separator and by what the others are cut from. -/
theorem splitn_eq_cons_cons {text first second : List Symbol} {pieces : List (List Symbol)} :
    splitn separator (count + 1) text = first :: second :: pieces ↔
      ∃ rest, text = first ++ separator :: rest ∧ separator ∉ first ∧
        splitn separator count rest = second :: pieces := by
  cases count with
  | zero => simp [splitn]
  | succ count =>
    rw [splitn]
    constructor
    · intro split
      cases halves : splitOnce separator text with
      | none =>
        rw [halves] at split
        cases split
      | some found =>
        obtain ⟨head, rest⟩ := found
        rw [halves, List.cons.injEq] at split
        obtain ⟨rfl, others⟩ := split
        obtain ⟨textEq, absent⟩ := splitOnce_eq_some.mp halves
        exact ⟨rest, textEq, absent, others⟩
    · rintro ⟨rest, rfl, absent, others⟩
      rw [splitOnce_eq_some.mpr ⟨rfl, absent⟩, ← others]

/-- All pieces but the last hold no separator. -/
theorem notMem_of_splitn {text last : List Symbol} {pieces : List (List Symbol)}
    (split : splitn separator count text = pieces ++ [last]) :
    ∀ piece ∈ pieces, separator ∉ piece := by
  induction pieces generalizing count text with
  | nil => exact List.forall_mem_nil _
  | cons first pieces inductionHypothesis =>
    match count with
    | 0 => cases split
    | 1 =>
      rw [splitn, List.cons_append, List.cons.injEq] at split
      exact absurd split.2.symm (List.concat_ne_nil last pieces)
    | count + 2 =>
      rw [splitn] at split
      cases halves : splitOnce separator text with
      | none =>
        rw [halves, List.cons_append, List.cons.injEq] at split
        exact absurd split.2.symm (List.concat_ne_nil last pieces)
      | some found =>
        obtain ⟨head, rest⟩ := found
        rw [halves, List.cons_append, List.cons.injEq] at split
        obtain ⟨_, absent⟩ := splitOnce_eq_some.mp halves
        exact List.forall_mem_cons.mpr ⟨split.1 ▸ absent, inductionHypothesis split.2⟩

/-! ### Trimming -/

/-- Unicode's `White_Space` property. -/
def isWhitespace (char : Char) : Bool :=
  (9 ≤ char.toNat ∧ char.toNat ≤ 13) ∨ char.toNat = 0x20 ∨ char.toNat = 0x85 ∨
    char.toNat = 0xA0 ∨ char.toNat = 0x1680 ∨ (0x2000 ≤ char.toNat ∧ char.toNat ≤ 0x200A) ∨
    char.toNat = 0x2028 ∨ char.toNat = 0x2029 ∨ char.toNat = 0x202F ∨ char.toNat = 0x205F ∨
    char.toNat = 0x3000

/-- The text without the white space at its two ends. -/
def trim (text : List Char) : List Char :=
  (text.dropWhile isWhitespace).rdropWhile isWhitespace

/-- The runs of characters between white space. -/
def splitWhitespace (text : List Char) : List (List Char) :=
  (text.splitOnP isWhitespace).filter (· ≠ [])

/-- The pieces of a split hold none of the separators. -/
theorem not_separator_of_mem_splitOnP {Symbol : Type} {separates : Symbol → Bool}
    {text piece : List Symbol} (member : piece ∈ text.splitOnP separates) {symbol : Symbol}
    (inPiece : symbol ∈ piece) : separates symbol = false := by
  induction text generalizing piece with
  | nil =>
    rw [List.splitOnP_nil, List.mem_singleton] at member
    rw [member] at inPiece
    cases inPiece
  | cons first rest inductionHypothesis =>
    rw [List.splitOnP_cons_eq_if_modifyHead] at member
    split at member
    · rcases List.mem_cons.mp member with rfl | later
      · cases inPiece
      · exact inductionHypothesis later inPiece
    · rename_i kept
      obtain ⟨head, others, split⟩ :=
        List.exists_cons_of_ne_nil (List.splitOnP_ne_nil separates rest)
      rw [split] at member inductionHypothesis
      rcases List.mem_cons.mp member with rfl | later
      · rcases List.mem_cons.mp inPiece with rfl | inHead
        · exact Bool.eq_false_iff.mpr kept
        · exact inductionHypothesis List.mem_cons_self inHead
      · exact inductionHypothesis (List.mem_cons_of_mem head later) inPiece

theorem not_isWhitespace_of_mem_splitWhitespace {text piece : List Char}
    (member : piece ∈ splitWhitespace text) {char : Char} (inPiece : char ∈ piece) :
    isWhitespace char = false :=
  not_separator_of_mem_splitOnP (List.mem_filter.mp member).1 inPiece

/-- A trimmed text has nothing left to trim. -/
theorem trim_trim (text : List Char) : trim (trim text) = trim text := by
  have noLead : (trim text).dropWhile isWhitespace = trim text := by
    rw [List.dropWhile_eq_self_iff]
    intro nonempty
    have lead := List.rdropWhile_prefix isWhitespace (l := text.dropWhile isWhitespace)
    have longer := Nat.lt_of_lt_of_le nonempty lead.length_le
    have sameFirst : (trim text)[0] = (text.dropWhile isWhitespace)[0] := lead.getElem nonempty
    rw [sameFirst]
    exact List.dropWhile_get_zero_not isWhitespace text longer
  conv_lhs => rw [trim, noLead, trim]
  rw [List.rdropWhile_idempotent]
  rfl

/-- A text without white space has nothing to trim. -/
theorem trim_eq_self {text : List Char} (plain : ∀ char ∈ text, isWhitespace char = false) :
    trim text = text := by
  have noLead : text.dropWhile isWhitespace = text := by
    rw [List.dropWhile_eq_self_iff]
    intro nonempty
    rw [plain _ (List.getElem_mem nonempty)]
    exact Bool.false_ne_true
  rw [trim, noLead, List.rdropWhile_eq_self_iff]
  intro nonempty
  rw [plain _ (List.getLast_mem nonempty)]
  exact Bool.false_ne_true

/-- White space between two texts splits them. -/
theorem splitWhitespace_append_cons (before after : List Char) {space : Char}
    (white : isWhitespace space = true) :
    splitWhitespace (before ++ space :: after) =
      splitWhitespace before ++ splitWhitespace after := by
  rw [splitWhitespace, List.splitOnP_append_cons before after white, List.filter_append]
  rfl

theorem splitWhitespace_dropWhile (text : List Char) :
    splitWhitespace (text.dropWhile isWhitespace) = splitWhitespace text := by
  induction text with
  | nil => rfl
  | cons char rest inductionHypothesis =>
    by_cases white : isWhitespace char = true
    · rw [List.dropWhile_cons_of_pos white, inductionHypothesis]
      exact (splitWhitespace_append_cons [] rest white).symm
    · rw [List.dropWhile_cons_of_neg white]

theorem splitWhitespace_rdropWhile (text : List Char) :
    splitWhitespace (text.rdropWhile isWhitespace) = splitWhitespace text := by
  induction text using List.reverseRecOn with
  | nil => rfl
  | append_singleton rest char inductionHypothesis =>
    by_cases white : isWhitespace char = true
    · rw [List.rdropWhile_concat_pos _ _ _ white, inductionHypothesis,
        splitWhitespace_append_cons rest [] white]
      exact (List.append_nil _).symm
    · rw [List.rdropWhile_concat_neg _ _ _ white]

theorem splitWhitespace_trim (text : List Char) :
    splitWhitespace (trim text) = splitWhitespace text := by
  rw [trim, splitWhitespace_rdropWhile, splitWhitespace_dropWhile]

/-- The bytes of a text in UTF-8. -/
def utf8 (text : List Char) : List UInt8 :=
  text.flatMap String.utf8EncodeChar

/-- The text that bytes spell in UTF-8; `none` when they are not valid UTF-8. Bytes below 128
stand for themselves, so that closed texts can be evaluated without the general decoder. -/
def fromUtf8 (bytes : List UInt8) : Option (List Char) :=
  if bytes.all (· < 0x80) then some (bytes.map fun byte => Char.ofNat byte.toNat)
  else bytes.toByteArray.utf8Decode?.map Array.toList

theorem utf8_eq_of_decoded {bytes : List UInt8} {text : List Char}
    (decoded : bytes.toByteArray.utf8Decode?.map Array.toList = some text) :
    bytes = utf8 text := by
  obtain ⟨chars, found, rfl⟩ := Option.map_eq_some_iff.mp decoded
  have encoded := ByteArray.utf8Encode_get_utf8Decode? (b := bytes.toByteArray)
    (h := by rw [found]; rfl)
  simp only [found, Option.get_some] at encoded
  have lists := congrArg (fun array : ByteArray => array.data.toList) encoded
  simpa [utf8, List.utf8Encode] using lists.symm

theorem decode_utf8 (text : List Char) :
    (utf8 text).toByteArray.utf8Decode?.map Array.toList = some text := by
  have decoded : (utf8 text).toByteArray.utf8Decode? = some text.toArray :=
    List.utf8Decode?_utf8Encode
  rw [decoded]
  rfl

theorem utf8EncodeChar_ascii {byte : UInt8} (ascii : byte < 0x80) :
    String.utf8EncodeChar (Char.ofNat byte.toNat) = [byte] := by
  have small : byte.toNat < 128 := ascii
  have scalar : (Char.ofNat byte.toNat).val.toNat = byte.toNat := by
    rw [Char.toNat_val, Char.toNat_ofNat, if_pos (Or.inl (by omega))]
  have size : (Char.ofNat byte.toNat).utf8Size = 1 := by
    rw [Char.utf8Size_eq_one_iff, UInt32.le_iff_toNat_le, scalar]
    exact Nat.le_of_lt_succ small
  rw [String.utf8EncodeChar_eq_singleton size, List.cons.injEq, ← UInt8.toNat_inj,
    UInt32.toNat_toUInt8, scalar]
  exact ⟨Nat.mod_eq_of_lt (by omega), rfl⟩

theorem utf8_ascii {bytes : List UInt8} (ascii : bytes.all (· < 0x80) = true) :
    utf8 (bytes.map fun byte => Char.ofNat byte.toNat) = bytes := by
  induction bytes with
  | nil => rfl
  | cons byte rest inductionHypothesis =>
    rw [List.all_cons, Bool.and_eq_true, decide_eq_true_eq] at ascii
    have head := utf8EncodeChar_ascii ascii.1
    have tail := inductionHypothesis ascii.2
    rw [utf8] at tail ⊢
    rw [List.map_cons, List.flatMap_cons, head, tail]
    rfl

/-- Decoding is the inverse of encoding. -/
theorem fromUtf8_eq_some {bytes : List UInt8} {text : List Char} :
    fromUtf8 bytes = some text ↔ bytes = utf8 text := by
  rw [fromUtf8]
  split
  · rename_i ascii
    constructor
    · intro decoded
      cases decoded
      exact (utf8_ascii ascii).symm
    · intro encoded
      have decoded := decode_utf8 (bytes.map fun byte => Char.ofNat byte.toNat)
      rw [utf8_ascii ascii, encoded, decode_utf8] at decoded
      rw [encoded]
      exact decoded.symm
  · constructor
    · exact utf8_eq_of_decoded
    · rintro rfl
      exact decode_utf8 text

/-! ### Bytes below 128 -/

theorem utf8_append (first second : List Char) :
    utf8 (first ++ second) = utf8 first ++ utf8 second :=
  List.flatMap_append

theorem utf8_cons (char : Char) (text : List Char) :
    utf8 (char :: text) = String.utf8EncodeChar char ++ utf8 text :=
  List.flatMap_cons

theorem utf8_inj {first second : List Char} (same : utf8 first = utf8 second) :
    first = second := by
  have decoded := fromUtf8_eq_some.mpr same
  rwa [fromUtf8_eq_some.mpr rfl, Option.some.injEq] at decoded

theorem utf8_concat (text : List Char) (char : Char) :
    utf8 (text ++ [char]) = utf8 text ++ String.utf8EncodeChar char := by
  rw [utf8_append, utf8_cons]
  exact congrArg (utf8 text ++ ·) (List.append_nil _)

theorem eq_of_utf8EncodeChar {char : Char} {byte : UInt8} (ascii : byte < 0x80)
    (encoded : String.utf8EncodeChar char = [byte]) : char = Char.ofNat byte.toNat := by
  have same : utf8 [char] = utf8 [Char.ofNat byte.toNat] := by
    rw [utf8_cons, utf8_cons, encoded, utf8EncodeChar_ascii ascii]
  exact List.head_eq_of_cons_eq (utf8_inj same)

theorem le_or_of_le {bound low : UInt8} (fits : bound ≤ low) (high : UInt8) :
    bound ≤ high ||| low := by
  rw [UInt8.le_iff_toNat_le] at fits ⊢
  rw [UInt8.toNat_or]
  exact fits.trans Nat.right_le_or

/-- A character is encoded as one byte below 128 or as bytes that are not. -/
theorem utf8EncodeChar_cases (char : Char) :
    (∃ byte, byte < 0x80 ∧ String.utf8EncodeChar char = [byte]) ∨
      ∀ byte ∈ String.utf8EncodeChar char, ¬ byte < 0x80 := by
  have continuation : ∀ high : UInt8, ¬ high ||| 0x80 < 0x80 := fun high =>
    UInt8.not_lt.mpr (le_or_of_le (UInt8.le_refl 0x80) high)
  rw [String.utf8EncodeChar_eq_utf8EncodeCharFast, String.utf8EncodeCharFast]
  split
  · rename_i small
    refine Or.inl ⟨_, ?_, rfl⟩
    rw [UInt32.le_iff_toNat_le] at small
    rw [UInt8.lt_iff_toNat_lt, UInt32.toNat_toUInt8]
    exact (Nat.mod_le _ _).trans_lt (Nat.lt_succ_of_le small)
  · refine Or.inr ?_
    split
    · refine List.forall_mem_cons.mpr ⟨?_, List.forall_mem_singleton.mpr (continuation _)⟩
      exact UInt8.not_lt.mpr (le_or_of_le (by decide) _)
    · split
      · refine List.forall_mem_cons.mpr ⟨?_, List.forall_mem_cons.mpr ⟨continuation _,
          List.forall_mem_singleton.mpr (continuation _)⟩⟩
        exact UInt8.not_lt.mpr (le_or_of_le (by decide) _)
      · refine List.forall_mem_cons.mpr ⟨?_, List.forall_mem_cons.mpr ⟨continuation _,
          List.forall_mem_cons.mpr ⟨continuation _,
            List.forall_mem_singleton.mpr (continuation _)⟩⟩⟩
        exact UInt8.not_lt.mpr (le_or_of_le (by decide) _)

/-- A valid text stays valid on both sides of a byte below 128. -/
theorem utf8_split {text : List Char} {before after : List UInt8} {byte : UInt8}
    (ascii : byte < 0x80) (split : utf8 text = before ++ byte :: after) :
    ∃ first second, before = utf8 first ∧ after = utf8 second := by
  induction text generalizing before with
  | nil => exact absurd split.symm (List.append_ne_nil_of_right_ne_nil _ (List.cons_ne_nil _ _))
  | cons char rest inductionHypothesis =>
    rw [utf8_cons, List.append_eq_append_iff] at split
    obtain ⟨middle, beforeEq, restEq⟩ | ⟨middle, charEq, restEq⟩ := split
    · obtain ⟨first, second, rfl, rfl⟩ := inductionHypothesis restEq
      exact ⟨char :: first, second, by rw [beforeEq, utf8_cons], rfl⟩
    · obtain _ | ⟨head, tail⟩ := middle
      · have rest : utf8 rest = [] ++ byte :: after := restEq.symm
        obtain ⟨_, second, _, rfl⟩ := inductionHypothesis rest
        refine ⟨[char], second, ?_, rfl⟩
        rw [utf8_cons, charEq, List.append_nil]
        exact (List.append_nil before).symm
      · obtain ⟨rfl, afterEq⟩ := List.cons.inj restEq
        obtain ⟨single, _, encoded⟩ | large := utf8EncodeChar_cases char
        · -- the byte is the whole character
          rw [encoded] at charEq
          obtain ⟨rfl, tailEq⟩ | ⟨_, impossible⟩ := List.append_eq_singleton_iff.mp charEq.symm
          · refine ⟨[], rest, rfl, ?_⟩
            rw [afterEq, (List.cons.inj tailEq).2]
            rfl
          · exact nomatch impossible
        · exact absurd ascii (large byte (charEq ▸ List.mem_append_right _ List.mem_cons_self))

/-- A byte below 128 may stand anywhere between valid texts. -/
theorem utf8_join {byte : UInt8} (ascii : byte < 0x80) (first second : List Char) :
    utf8 first ++ byte :: utf8 second =
      utf8 (first ++ Char.ofNat byte.toNat :: second) := by
  rw [utf8_append, utf8_cons, utf8EncodeChar_ascii ascii]
  rfl

/-- Around a byte below 128 both sides are valid, each for itself. -/
theorem valid_around_iff {byte : UInt8} (ascii : byte < 0x80) {before after : List UInt8} :
    (∃ text, before ++ byte :: after = utf8 text) ↔
      (∃ first, before = utf8 first) ∧ ∃ second, after = utf8 second := by
  constructor
  · rintro ⟨text, valid⟩
    obtain ⟨first, second, beforeEq, afterEq⟩ := utf8_split ascii valid.symm
    exact ⟨⟨first, beforeEq⟩, second, afterEq⟩
  · rintro ⟨⟨first, rfl⟩, second, rfl⟩
    exact ⟨_, utf8_join ascii first second⟩

theorem valid_cons_iff {byte : UInt8} (ascii : byte < 0x80) {after : List UInt8} :
    (∃ text, byte :: after = utf8 text) ↔ ∃ second, after = utf8 second := by
  rw [← List.nil_append (byte :: after), valid_around_iff ascii]
  exact and_iff_right ⟨[], rfl⟩

theorem valid_append_iff {ascii : List UInt8} (small : ∀ byte ∈ ascii, byte < 0x80)
    {after : List UInt8} :
    (∃ text, ascii ++ after = utf8 text) ↔ ∃ second, after = utf8 second := by
  induction ascii with
  | nil => rfl
  | cons byte rest inductionHypothesis =>
    obtain ⟨ofByte, ofRest⟩ := List.forall_mem_cons.mp small
    rw [List.cons_append, valid_cons_iff ofByte, inductionHypothesis ofRest]

/-- Around bytes below 128 a text is cut between characters. -/
theorem utf8_split_ascii {text : List Char} {before ascii after : List UInt8}
    (small : ∀ byte ∈ ascii, byte < 0x80) (nonempty : ascii ≠ [])
    (split : utf8 text = before ++ ascii ++ after) :
    ∃ first second third, text = first ++ second ++ third ∧ before = utf8 first ∧
      ascii = utf8 second ∧ after = utf8 third := by
  obtain ⟨byte, rest, rfl⟩ := List.exists_cons_of_ne_nil nonempty
  obtain ⟨ofByte, ofRest⟩ := List.forall_mem_cons.mp small
  rw [List.append_assoc, List.cons_append] at split
  obtain ⟨first, behind, rfl, behindEq⟩ := utf8_split ofByte split
  obtain ⟨third, rfl⟩ := (valid_append_iff ofRest).mp ⟨behind, behindEq⟩
  have encoded : utf8 ((byte :: rest).map fun byte => Char.ofNat byte.toNat) = byte :: rest :=
    utf8_ascii (List.all_eq_true.mpr fun other member => decide_eq_true (small other member))
  refine ⟨first, _, third, utf8_inj ?_, rfl, encoded.symm, rfl⟩
  rw [split, utf8_append, utf8_append, encoded, List.append_assoc, List.cons_append]

/-- The bytes are all the one of this character exactly if the characters are. -/
theorem forall_mem_utf8_iff {char : Char} {byte : UInt8} (ascii : byte < 0x80)
    (encoded : String.utf8EncodeChar char = [byte]) (text : List Char) :
    (∀ other ∈ utf8 text, other = byte) ↔ ∀ other ∈ text, other = char := by
  induction text with
  | nil => exact iff_of_true nofun nofun
  | cons first rest inductionHypothesis =>
    rw [utf8_cons, List.forall_mem_append, List.forall_mem_cons, inductionHypothesis]
    refine and_congr_left fun _ => ⟨fun same => ?_, ?_⟩
    · obtain ⟨single, _, firstEq⟩ | large := utf8EncodeChar_cases first
      · rw [firstEq] at same
        rw [eq_of_utf8EncodeChar ascii encoded, eq_of_utf8EncodeChar ascii
          (firstEq.trans (by rw [same single List.mem_cons_self]))]
      · obtain ⟨head, tail, headEq⟩ := List.exists_cons_of_ne_nil
          (l := String.utf8EncodeChar first) (by simp)
        have member : head ∈ String.utf8EncodeChar first := by
          rw [headEq]
          exact List.mem_cons_self
        exact absurd (same head member ▸ ascii) (large head member)
    · rintro rfl other member
      rw [encoded] at member
      exact List.mem_singleton.mp member

/-! ### The order of bytes -/

/-- The first bytes in which the lists differ are in this order. -/
def Diverges : List UInt8 → List UInt8 → Prop
  | first :: rest, second :: others => first < second ∨ first = second ∧ Diverges rest others
  | _, _ => False

theorem Diverges.append_lt {first second : List UInt8} (diverges : Diverges first second)
    (rest others : List UInt8) : first ++ rest < second ++ others := by
  induction first generalizing second with
  | nil => exact diverges.elim
  | cons byte first inductionHypothesis =>
    cases second with
    | nil => exact diverges.elim
    | cons other second =>
      rw [List.cons_append, List.cons_append, List.cons_lt_cons_iff]
      rcases diverges with below | ⟨rfl, later⟩
      · exact Or.inl below
      · exact Or.inr ⟨rfl, inductionHypothesis later⟩

theorem diverges_encoded {first second : Char} (below : first < second) :
    Diverges (String.utf8EncodeChar first) (String.utf8EncodeChar second) := by
  have less : first.val.toNat < second.val.toNat := below
  have limit : second.val.toNat < 0x110000 := by
    rcases second.valid with small | ⟨_, small⟩
    · exact small.trans (by decide)
    · exact small
  rw [String.utf8EncodeChar, String.utf8EncodeChar]
  generalize first.val.toNat = low at less
  generalize second.val.toNat = high at less limit
  split_ifs <;>
    simp only [Diverges, UInt8.lt_iff_toNat_lt, ← UInt8.toNat_inj, UInt8.toNat_ofNat', or_false,
      and_false] <;>
    simp (disch := omega) only [Nat.mod_eq_of_lt] <;>
    omega

theorem append_lt_append_left_iff (lead first second : List UInt8) :
    lead ++ first < lead ++ second ↔ first < second := by
  induction lead with
  | nil => rfl
  | cons byte lead inductionHypothesis =>
    rw [List.cons_append, List.cons_append, List.cons_lt_cons_iff, inductionHypothesis]
    exact ⟨fun below => (below.resolve_left (UInt8.lt_irrefl _)).2,
      fun below => Or.inr ⟨rfl, below⟩⟩

/-- Texts are in the order of their characters as their bytes are. -/
theorem utf8_lt_utf8 {first second : List Char} : utf8 first < utf8 second ↔ first < second := by
  have rises {first second : List Char} (below : first < second) : utf8 first < utf8 second := by
    induction first generalizing second with
    | nil =>
      cases second with
      | nil => exact absurd below (lt_irrefl _)
      | cons char second =>
        rw [utf8_cons]
        cases encoded : String.utf8EncodeChar char with
        | nil => exact absurd encoded String.utf8EncodeChar_ne_nil
        | cons byte bytes => exact List.nil_lt_cons _ _
    | cons char first inductionHypothesis =>
      cases second with
      | nil => exact absurd below (List.not_lt_nil _)
      | cons other second =>
        rw [utf8_cons, utf8_cons]
        rcases List.cons_lt_cons_iff.mp below with less | ⟨rfl, later⟩
        · exact (diverges_encoded less).append_lt _ _
        · exact (append_lt_append_left_iff _ _ _).mpr (inductionHypothesis later)
  refine ⟨fun below => ?_, rises⟩
  rcases lt_trichotomy first second with less | rfl | greater
  · exact less
  · exact absurd below (List.lt_irrefl _)
  · exact absurd below (List.lt_asymm (rises greater))

/-! ### Letter case -/

/-- `to_ascii_lowercase`: the capital letters of ASCII become small, the rest stays. -/
def toAsciiLowercase (text : List Char) : List Char :=
  text.map Char.toLower

/-- `eq_ignore_ascii_case`. -/
def EqIgnoreAsciiCase (first second : List Char) : Prop :=
  toAsciiLowercase first = toAsciiLowercase second

instance (first second : List Char) : Decidable (EqIgnoreAsciiCase first second) :=
  inferInstanceAs (Decidable (_ = _))

theorem visible_of_isAlphanum {char : Char} (alphanum : char.isAlphanum = true) :
    33 ≤ char.toNat ∧ char.toNat ≤ 126 := by
  simp only [Char.isAlphanum, Char.isAlpha, Char.isUpper, Char.isLower, Char.isDigit,
    Bool.or_eq_true, Bool.and_eq_true, decide_eq_true_eq, ge_iff_le, UInt32.le_iff_toNat_le,
    Char.toNat_val] at alphanum
  simp at alphanum
  omega

/-! ### Decimal numbers -/

theorem toList_toString (number : Nat) : (toString number).toList = Nat.toDigits 10 number := by
  rw [Nat.toString_eq_repr, Nat.toList_repr]

theorem isDigit_of_mem_toString {number : Nat} {char : Char}
    (member : char ∈ (toString number).toList) : char.isDigit = true := by
  rw [toList_toString] at member
  exact Nat.isDigit_of_mem_toDigits (by decide) (by decide) member

theorem dash_notMem_toString (number : Nat) : '-' ∉ (toString number).toList :=
  fun member => absurd (isDigit_of_mem_toString member) (by decide)

theorem toString_inj {first second : Nat} (same : toString first = toString second) :
    first = second := by
  have digits := congrArg String.toList same
  rw [toList_toString, toList_toString] at digits
  rw [← @Nat.ofDigitChars_ten_toDigits first, digits, Nat.ofDigitChars_ten_toDigits]

/-! ### Debug renderings -/

/-- One character of a `{:?}` rendering enclosed in the quote character `quote`. -/
def escapeDebug (quote char : Char) : List Char :=
  if char = '\x00' then "\\0".toList
  else if char = '\t' then "\\t".toList
  else if char = '\r' then "\\r".toList
  else if char = '\n' then "\\n".toList
  else if char = quote ∨ char = '\\' then ['\\', char]
  else if char.toNat < 32 ∨ (127 ≤ char.toNat ∧ char.toNat < 160) ∨ char.toNat = 173 then
    "\\u\x7b".toList ++ Nat.toDigits 16 char.toNat ++ "\x7d".toList
  else [char]

/-- A string as `{:?}` renders it. -/
def debugStr (text : String) : String :=
  "\"" ++ String.ofList (text.toList.flatMap (escapeDebug '"')) ++ "\""

/-- A character as `{:?}` renders it. -/
def debugChar (char : Char) : String :=
  "'" ++ String.ofList (escapeDebug '\'' char) ++ "'"

example : debugStr "a\"b\n" = "\"a\\\"b\\n\"" := by decide

end Text

end Layerhouse
