/-
This file is about texts with escapes: a mark and two symbols that a table reads
stand for one symbol, and everything else stands for itself. A mark whose next two
symbols the table does not read is left as it is.

The table is a parameter, so that decoders that differ only in what they accept
after the mark share their lemmas: decoding changes a text exactly when it holds
an escape, and it can be done piecewise around a symbol that no escape holds. Of
two tables of which one reads more than the other, the results part at the first
escape that only the wider table reads.
-/

import Mathlib

namespace Layerhouse

namespace Escapes

/-! ### A table that reads more -/

section Tables

variable {Symbol : Type}

/-- One table reads all that another does, and stands for no mark where the other reads
nothing. -/
structure Widens (mark : Symbol) (read wide : Symbol → Symbol → Option Symbol) : Prop where
  keeps : ∀ {second third symbol}, read second third = some symbol →
    wide second third = some symbol
  unmarked : ∀ {second third symbol}, wide second third = some symbol →
    second ≠ mark ∧ third ≠ mark
  visible : ∀ {second third symbol}, wide second third = some symbol →
    read second third = none → symbol ≠ mark

/-- The text holds an escape that only the wider table reads. -/
def Widened (mark : Symbol) (read wide : Symbol → Symbol → Option Symbol) (text : List Symbol) :
    Prop :=
  ∃ before second third after symbol,
    text = before ++ mark :: second :: third :: after ∧ wide second third = some symbol ∧
      read second third = none

variable {mark : Symbol} {read wide : Symbol → Symbol → Option Symbol}

theorem not_widened_of_short {text : List Symbol} (short : text.length < 3) :
    ¬ Widened mark read wide text := by
  rintro ⟨before, second, third, after, symbol, rfl, _⟩
  simp only [List.length_append, List.length_cons] at short
  omega

theorem Widened.cons {text : List Symbol} (widened : Widened mark read wide text)
    (first : Symbol) : Widened mark read wide (first :: text) := by
  obtain ⟨before, second, third, after, symbol, rfl, found⟩ := widened
  exact ⟨first :: before, second, third, after, symbol, rfl, found⟩

/-- An escape that only the wider table reads stands at the front or behind it. -/
theorem Widened.cases {first second third : Symbol} {rest : List Symbol}
    (widened : Widened mark read wide (first :: second :: third :: rest)) :
    (first = mark ∧ (∃ symbol, wide second third = some symbol) ∧ read second third = none) ∨
      Widened mark read wide (second :: third :: rest) := by
  obtain ⟨before, high, low, after, symbol, textEq, found, unread⟩ := widened
  obtain _ | ⟨head, before⟩ := before
  · simp only [List.nil_append, List.cons.injEq] at textEq
    obtain ⟨rfl, rfl, rfl, rfl⟩ := textEq
    exact Or.inl ⟨rfl, ⟨symbol, found⟩, unread⟩
  · exact Or.inr ⟨before, high, low, after, symbol, (List.cons.inj textEq).2, found, unread⟩

/-- Two symbols that are no mark start no escape. -/
theorem Widened.tail {second third : Symbol} {rest : List Symbol} (plainSecond : second ≠ mark)
    (plainThird : third ≠ mark) (widened : Widened mark read wide (second :: third :: rest)) :
    Widened mark read wide rest := by
  obtain ⟨before, high, low, after, symbol, textEq, found⟩ := widened
  obtain _ | ⟨head, _ | ⟨other, before⟩⟩ := before
  · exact absurd (List.cons.inj textEq).1 plainSecond
  · exact absurd (List.cons.inj (List.cons.inj textEq).2).1 plainThird
  · exact ⟨before, high, low, after, symbol,
      (List.cons.inj (List.cons.inj textEq).2).2, found⟩

theorem Widens.unread {second third : Symbol} (widens : Widens mark read wide)
    (unread : wide second third = none) :
    read second third = none := by
  refine Option.eq_none_iff_forall_ne_some.mpr fun symbol found => ?_
  exact absurd (unread.symm.trans (widens.keeps found)) nofun

end Tables

/-! ### Decoding -/

variable {Symbol : Type} [DecidableEq Symbol]

/-- Replace every escape by the symbol it stands for, from left to right. -/
def decode (mark : Symbol) (read : Symbol → Symbol → Option Symbol) : List Symbol → List Symbol
  | [] => []
  | [first] => [first]
  | [first, second] => [first, second]
  | first :: second :: third :: rest =>
    match if first = mark then read second third else none with
    | some symbol => symbol :: decode mark read rest
    | none => first :: decode mark read (second :: third :: rest)

variable {mark : Symbol} {read : Symbol → Symbol → Option Symbol}

/-- The text holds an escape. -/
def Escaped (mark : Symbol) (read : Symbol → Symbol → Option Symbol) (text : List Symbol) : Prop :=
  ∃ before second third after symbol,
    text = before ++ mark :: second :: third :: after ∧ read second third = some symbol

theorem decode_escape {second third symbol : Symbol} (found : read second third = some symbol)
    (rest : List Symbol) :
    decode mark read (mark :: second :: third :: rest) = symbol :: decode mark read rest := by
  rw [decode, if_pos rfl, found]

theorem decode_cons_of_ne {first : Symbol} (plain : first ≠ mark) (rest : List Symbol) :
    decode mark read (first :: rest) = first :: decode mark read rest := by
  match rest with
  | [] => rfl
  | [second] => rfl
  | second :: third :: rest => rw [decode, if_neg plain]

/-- A mark that starts no escape stands for itself. -/
theorem decode_mark {second third : Symbol} (unread : read second third = none)
    (rest : List Symbol) :
    decode mark read (mark :: second :: third :: rest) =
      mark :: decode mark read (second :: third :: rest) := by
  rw [decode, if_pos rfl, unread]

theorem length_decode_le (text : List Symbol) :
    (decode mark read text).length ≤ text.length := by
  fun_induction decode mark read text with
  | case1 => exact Nat.le_refl _
  | case2 first => exact Nat.le_refl _
  | case3 first second => exact Nat.le_refl _
  | case4 first second third rest symbol found inductionHypothesis =>
    simp only [List.length_cons]
    omega
  | case5 first second third rest unread inductionHypothesis =>
    simp only [List.length_cons] at inductionHypothesis ⊢
    omega

/-- Decoding a text that holds an escape makes it shorter. -/
theorem length_decode_lt {text : List Symbol} (escaped : Escaped mark read text) :
    (decode mark read text).length < text.length := by
  fun_induction decode mark read text with
  | case1 =>
    obtain ⟨before, second, third, after, symbol, textEq, _⟩ := escaped
    simp at textEq
  | case2 first =>
    obtain ⟨before, second, third, after, symbol, textEq, _⟩ := escaped
    have lengths := congrArg List.length textEq
    simp at lengths
    omega
  | case3 first other =>
    obtain ⟨before, second, third, after, symbol, textEq, _⟩ := escaped
    have lengths := congrArg List.length textEq
    simp at lengths
    omega
  | case4 first second third rest symbol found inductionHypothesis =>
    have shorter : (decode mark read rest).length ≤ rest.length := length_decode_le rest
    simp only [List.length_cons]
    omega
  | case5 first second third rest unread inductionHypothesis =>
    obtain ⟨before, high, low, after, symbol, textEq, found⟩ := escaped
    cases before with
    | nil =>
      simp only [List.nil_append, List.cons.injEq] at textEq
      obtain ⟨rfl, rfl, rfl, rfl⟩ := textEq
      rw [if_pos rfl, found] at unread
      cases unread
    | cons head before =>
      have inner : Escaped mark read (second :: third :: rest) :=
        ⟨before, high, low, after, symbol, (List.cons.inj textEq).2, found⟩
      have shorter := inductionHypothesis inner
      simp only [List.length_cons] at shorter ⊢
      omega

/-- Decoding leaves a text as it is exactly when the text holds no escape. -/
theorem decode_eq_self_iff {text : List Symbol} :
    decode mark read text = text ↔ ¬ Escaped mark read text := by
  constructor
  · intro same escaped
    have shorter := length_decode_lt escaped
    rw [same] at shorter
    exact Nat.lt_irrefl _ shorter
  · intro plain
    fun_induction decode mark read text with
    | case1 => rfl
    | case2 first => rfl
    | case3 first second => rfl
    | case4 first second third rest symbol found inductionHypothesis =>
      obtain ⟨marked, found⟩ := Option.ite_none_right_eq_some.mp found
      exact absurd ⟨[], second, third, rest, symbol, by rw [marked]; rfl, found⟩ plain
    | case5 first second third rest unread inductionHypothesis =>
      rw [inductionHypothesis]
      rintro ⟨before, high, low, after, symbol, textEq, found⟩
      exact plain ⟨first :: before, high, low, after, symbol, by rw [textEq]; rfl, found⟩

/-! ### Decoding as a relation -/

/-- The second text is the first one with its escapes replaced from left to right. -/
inductive Decoded (mark : Symbol) (read : Symbol → Symbol → Option Symbol) :
    List Symbol → List Symbol → Prop
  | nil : Decoded mark read [] []
  | escape {second third symbol : Symbol} {rest decoded : List Symbol}
      (found : read second third = some symbol) (behind : Decoded mark read rest decoded) :
      Decoded mark read (mark :: second :: third :: rest) (symbol :: decoded)
  | keep {first : Symbol} {rest decoded : List Symbol}
      (plain : ∀ second third after, first :: rest = mark :: second :: third :: after →
        read second third = none) (behind : Decoded mark read rest decoded) :
      Decoded mark read (first :: rest) (first :: decoded)

theorem decode_cons_of_plain {first : Symbol} {rest : List Symbol}
    (plain : ∀ second third after, first :: rest = mark :: second :: third :: after →
      read second third = none) :
    decode mark read (first :: rest) = first :: decode mark read rest := by
  match rest with
  | [] => rfl
  | [second] => rfl
  | second :: third :: rest =>
    by_cases marked : first = mark
    · subst marked
      exact decode_mark (plain second third rest rfl) rest
    · exact decode_cons_of_ne marked _

theorem decoded_decode (text : List Symbol) : Decoded mark read text (decode mark read text) := by
  have short {first : Symbol} {rest : List Symbol} (few : rest.length < 2) :
      ∀ second third after, first :: rest = mark :: second :: third :: after →
        read second third = none := by
    intro second third after same
    rw [(List.cons.inj same).2, List.length_cons, List.length_cons] at few
    omega
  fun_induction decode mark read text with
  | case1 => exact .nil
  | case2 first => exact .keep (short Nat.zero_lt_two) .nil
  | case3 first second =>
    exact .keep (short Nat.one_lt_two) (.keep (short Nat.zero_lt_two) .nil)
  | case4 first second third rest symbol found inductionHypothesis =>
    obtain ⟨rfl, known⟩ := Option.ite_none_right_eq_some.mp found
    exact .escape known inductionHypothesis
  | case5 first second third rest unread inductionHypothesis =>
    refine .keep (fun high low after same => ?_) inductionHypothesis
    obtain ⟨rfl, rfl, rfl, rfl⟩ : first = mark ∧ second = high ∧ third = low ∧ rest = after := by
      simpa using same
    rwa [if_pos rfl] at unread

/-- The decoder computes the relation. -/
theorem decoded_iff {text decoded : List Symbol} :
    Decoded mark read text decoded ↔ decode mark read text = decoded := by
  constructor
  · intro holds
    induction holds with
    | nil => rfl
    | escape found _ inductionHypothesis => rw [decode_escape found, inductionHypothesis]
    | keep plain _ inductionHypothesis =>
      rw [decode_cons_of_plain plain, inductionHypothesis]
  · rintro rfl
    exact decoded_decode text

/-! ### Cutting a text -/

theorem decode_cons_of_unread {first head : Symbol} (unread : ∀ symbol, read head symbol = none)
    (rest : List Symbol) :
    decode mark read (first :: head :: rest) = first :: decode mark read (head :: rest) := by
  by_cases marked : first = mark
  · subst marked
    match rest with
    | [] => rfl
    | symbol :: rest => exact decode_mark (unread symbol) rest
  · exact decode_cons_of_ne marked (head :: rest)

/-- A text can be decoded piecewise in front of a symbol that no escape holds. -/
theorem decode_append {head : Symbol} (first : ∀ symbol, read head symbol = none)
    (second : ∀ symbol, read symbol head = none) (text rest : List Symbol) :
    decode mark read (text ++ head :: rest) =
      decode mark read text ++ decode mark read (head :: rest) := by
  fun_induction decode mark read text with
  | case1 => rfl
  | case2 symbol => exact decode_cons_of_unread first rest
  | case3 symbol other =>
    show decode mark read (symbol :: other :: head :: rest) = _
    rw [decode, second other, ite_self, decode_cons_of_unread first]
    rfl
  | case4 symbol high low text value found inductionHypothesis =>
    rw [List.cons_append, List.cons_append, List.cons_append, decode, found, inductionHypothesis]
    rfl
  | case5 symbol high low text unread inductionHypothesis =>
    rw [List.cons_append, List.cons_append, List.cons_append, decode, unread]
    exact congrArg _ inductionHypothesis

/-- Whatever the text is made into in two parts, it is made of two parts. -/
theorem decode_split {text before after : List Symbol}
    (split : decode mark read text = before ++ after) :
    ∃ first second, text = first ++ second ∧ decode mark read first = before ∧
      decode mark read second = after := by
  generalize decodedEq : before ++ after = decoded at split
  have decodes := decoded_iff.mpr split
  induction decodes generalizing before with
  | nil =>
    obtain ⟨rfl, rfl⟩ := List.append_eq_nil_iff.mp decodedEq
    exact ⟨[], [], rfl, rfl, rfl⟩
  | @escape second third symbol rest decoded found behind inductionHypothesis =>
    cases before with
    | nil => exact ⟨[], _, rfl, rfl, split.trans decodedEq.symm⟩
    | cons head before =>
      obtain ⟨rfl, restEq⟩ := List.cons.inj decodedEq
      obtain ⟨lead, trail, rfl, ofLead, ofTrail⟩ :=
        inductionHypothesis restEq (decoded_iff.mp behind)
      exact ⟨mark :: second :: third :: lead, trail, rfl, by rw [decode_escape found, ofLead],
        ofTrail⟩
  | @keep symbol rest decoded plain behind inductionHypothesis =>
    cases before with
    | nil => exact ⟨[], _, rfl, rfl, split.trans decodedEq.symm⟩
    | cons head before =>
      obtain ⟨rfl, restEq⟩ := List.cons.inj decodedEq
      obtain ⟨lead, trail, rfl, ofLead, ofTrail⟩ :=
        inductionHypothesis restEq (decoded_iff.mp behind)
      refine ⟨head :: lead, trail, rfl, ?_, ofTrail⟩
      rw [decode_cons_of_plain, ofLead]
      intro second third after same
      exact plain second third (after ++ trail) (by rw [← List.cons_append, same]; rfl)

/-- A text whose decoded form holds no mark can be decoded on its own. -/
theorem decode_append_of_unmarked {text : List Symbol}
    (unmarked : mark ∉ decode mark read text) (rest : List Symbol) :
    decode mark read (text ++ rest) = decode mark read text ++ decode mark read rest := by
  generalize decodedEq : decode mark read text = decoded at unmarked ⊢
  have decodes := decoded_iff.mpr decodedEq
  clear decodedEq
  induction decodes with
  | nil => rfl
  | escape found _ inductionHypothesis =>
    rw [List.mem_cons, not_or] at unmarked
    rw [List.cons_append, List.cons_append, List.cons_append, decode_escape found,
      inductionHypothesis unmarked.2]
    rfl
  | keep _ _ inductionHypothesis =>
    rw [List.mem_cons, not_or] at unmarked
    rw [List.cons_append, decode_cons_of_ne (Ne.symm unmarked.1),
      inductionHypothesis unmarked.2]
    rfl

/-- What holds of the mark, of the symbols in escapes and of the decoded text holds of the text. -/
theorem forall_mem_of_decode {holds : Symbol → Prop} (ofMark : holds mark)
    (ofEscape : ∀ second third symbol, read second third = some symbol →
      holds second ∧ holds third) {text : List Symbol}
    (decodedHolds : ∀ symbol ∈ decode mark read text, holds symbol) :
    ∀ symbol ∈ text, holds symbol := by
  generalize decodedEq : decode mark read text = decoded at decodedHolds
  have decodes := decoded_iff.mpr decodedEq
  clear decodedEq
  induction decodes with
  | nil => exact fun _ member => absurd member List.not_mem_nil
  | escape found _ inductionHypothesis =>
    obtain ⟨_, behind⟩ := List.forall_mem_cons.mp decodedHolds
    obtain ⟨ofSecond, ofThird⟩ := ofEscape _ _ _ found
    simp only [List.forall_mem_cons]
    exact ⟨ofMark, ofSecond, ofThird, inductionHypothesis behind⟩
  | keep _ _ inductionHypothesis =>
    obtain ⟨ofFirst, behind⟩ := List.forall_mem_cons.mp decodedHolds
    exact List.forall_mem_cons.mpr ⟨ofFirst, inductionHypothesis behind⟩

/-- A text that decodes to one with another head than the mark starts with this head or with the
mark. -/
theorem head_of_decode {text rest : List Symbol} {head : Symbol}
    (split : decode mark read text = head :: rest) :
    ∃ first behind, text = first :: behind ∧ (first = head ∨ first = mark) := by
  have decodes := decoded_iff.mpr split
  cases decodes with
  | escape found behind => exact ⟨_, _, rfl, Or.inr rfl⟩
  | keep plain behind => exact ⟨_, _, rfl, Or.inl rfl⟩

theorem decode_ne_nil {first : Symbol} {rest : List Symbol} :
    decode mark read (first :: rest) ≠ [] := by
  intro empty
  cases decoded_iff.mpr empty

/-! ### Two tables -/

variable {wide : Symbol → Symbol → Option Symbol} (widens : Widens mark read wide)

include widens

/-- What the wider table leaves, the other one leaves. -/
theorem Widens.decode_unread {first second third : Symbol}
    (unread : (if first = mark then wide second third else none) = none) (rest : List Symbol) :
    decode mark read (first :: second :: third :: rest) =
      first :: decode mark read (second :: third :: rest) := by
  by_cases marked : first = mark
  · subst marked
    rw [if_pos rfl] at unread
    exact decode_mark (widens.unread unread) rest
  · exact decode_cons_of_ne marked _

/-- The tables decode alike where no escape is read by the wider one only. -/
theorem Widens.decode_eq {text : List Symbol} (plain : ¬ Widened mark read wide text) :
    decode mark wide text = decode mark read text := by
  fun_induction decode mark wide text with
  | case1 => rfl
  | case2 first => rfl
  | case3 first second => rfl
  | case4 first second third rest symbol found inductionHypothesis =>
    obtain ⟨rfl, widely⟩ := Option.ite_none_right_eq_some.mp found
    obtain unread | ⟨other, alsoFound⟩ := Option.eq_none_or_eq_some (read second third)
    · exact absurd ⟨[], second, third, rest, symbol, rfl, widely, unread⟩ plain
    · obtain rfl := Option.some.inj ((widens.keeps alsoFound).symm.trans widely)
      rw [decode_escape alsoFound, inductionHypothesis fun widened =>
        plain (((widened.cons third).cons second).cons first)]
  | case5 first second third rest unread inductionHypothesis =>
    rw [widens.decode_unread unread, inductionHypothesis fun widened =>
      plain (widened.cons first)]

/-- What the wider table makes of a text leads what the other one makes of it, with something
behind, only if no escape is read by the wider table only. -/
theorem Widens.not_widened {text tail : List Symbol}
    (leads : decode mark wide text <+: decode mark read text ++ tail) :
    ¬ Widened mark read wide text := by
  fun_induction decode mark wide text with
  | case1 => exact not_widened_of_short (Nat.lt_of_sub_eq_succ rfl)
  | case2 first => exact not_widened_of_short (Nat.lt_of_sub_eq_succ rfl)
  | case3 first second => exact not_widened_of_short (Nat.lt_of_sub_eq_succ rfl)
  | case4 first second third rest symbol found inductionHypothesis =>
    obtain ⟨rfl, widely⟩ := Option.ite_none_right_eq_some.mp found
    obtain unread | ⟨other, alsoFound⟩ := Option.eq_none_or_eq_some (read second third)
    · rw [decode_mark unread, List.cons_append, List.cons_prefix_cons] at leads
      exact absurd leads.1 (widens.visible widely unread)
    · obtain rfl := Option.some.inj ((widens.keeps alsoFound).symm.trans widely)
      rw [decode_escape alsoFound, List.cons_append, List.cons_prefix_cons] at leads
      intro widened
      obtain ⟨_, _, unread⟩ | behind := widened.cases
      · exact absurd (unread.symm.trans alsoFound) nofun
      · obtain ⟨plainSecond, plainThird⟩ := widens.unmarked widely
        exact inductionHypothesis leads.2 (behind.tail plainSecond plainThird)
  | case5 first second third rest unread inductionHypothesis =>
    rw [widens.decode_unread unread, List.cons_append, List.cons_prefix_cons] at leads
    intro widened
    obtain ⟨rfl, ⟨symbol, found⟩, _⟩ | behind := widened.cases
    · rw [if_pos rfl] at unread
      exact absurd (unread.symm.trans found) nofun
    · exact inductionHypothesis leads.2 behind

end Escapes

end Layerhouse
