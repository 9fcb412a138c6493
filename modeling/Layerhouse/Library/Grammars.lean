/-
This file adds the common forms of grammars to regular expressions: one of some symbols, one
or more of a form, and forms with a separator between them. Each comes with what its words
are. The words of a separated form are those whose parts between the separators are words of
the form, so a validator that splits its text is compared with the grammar part by part.
-/

import Mathlib.Computability.RegularExpressions

namespace Layerhouse

namespace Grammar

variable {Symbol : Type} {text : List Symbol}

def anyOf (symbols : List Symbol) : RegularExpression Symbol :=
  (symbols.map RegularExpression.char).foldr (· + ·) 0

def oneOrMore (form : RegularExpression Symbol) : RegularExpression Symbol :=
  form * form.star

def separated (separator : Symbol) (form : RegularExpression Symbol) : RegularExpression Symbol :=
  form * (.char separator * form).star

theorem mem_anyOf {symbols : List Symbol} :
    text ∈ (anyOf symbols).matches' ↔ ∃ symbol ∈ symbols, text = [symbol] := by
  induction symbols with
  | nil => exact iff_of_false id nofun
  | cons first rest inductionHypothesis =>
    rw [List.exists_mem_cons_iff, ← inductionHypothesis]
    exact Iff.rfl

/-- The symbols that a form names. -/
def symbols : RegularExpression Symbol → List Symbol
  | .zero => []
  | .epsilon => []
  | .char symbol => [symbol]
  | .plus first second => symbols first ++ symbols second
  | .comp first second => symbols first ++ symbols second
  | .star form => symbols form

/-- The words of a form are made of the symbols it names. -/
theorem mem_symbols {form : RegularExpression Symbol} (inForm : text ∈ form.matches')
    {symbol : Symbol} (member : symbol ∈ text) : symbol ∈ symbols form := by
  induction form generalizing text with
  | zero => exact absurd inForm (Set.notMem_empty text)
  | epsilon =>
    rw [Set.mem_singleton_iff.mp inForm] at member
    exact absurd member List.not_mem_nil
  | char known =>
    rwa [Set.mem_singleton_iff.mp inForm] at member
  | plus first second ofFirst ofSecond =>
    rcases inForm with inFirst | inSecond
    · exact List.mem_append_left _ (ofFirst inFirst member)
    · exact List.mem_append_right _ (ofSecond inSecond member)
  | comp first second ofFirst ofSecond =>
    obtain ⟨front, inFirst, back, inSecond, rfl⟩ := Language.mem_mul.mp inForm
    rcases List.mem_append.mp member with inFront | inBack
    · exact List.mem_append_left _ (ofFirst inFirst inFront)
    · exact List.mem_append_right _ (ofSecond inSecond inBack)
  | star form inductionHypothesis =>
    obtain ⟨pieces, rfl, all⟩ := Language.mem_kstar.mp inForm
    obtain ⟨piece, inPieces, inPiece⟩ := List.mem_flatten.mp member
    exact inductionHypothesis (all piece inPieces) inPiece

theorem append_mem_kstar {language : Language Symbol} {piece : List Symbol}
    (inLanguage : piece ∈ language) (repeated : text ∈ KStar.kstar language) :
    piece ++ text ∈ KStar.kstar language :=
  (mul_kstar_le_kstar : language * KStar.kstar language ≤ KStar.kstar language)
    (Language.append_mem_mul inLanguage repeated)

theorem mem_char {symbol : Symbol} :
    text ∈ (RegularExpression.char symbol).matches' ↔ text = [symbol] :=
  Iff.rfl

/-- The words of repeated symbols. -/
theorem mem_star_anyOf {symbols : List Symbol} :
    text ∈ (anyOf symbols).star.matches' ↔ ∀ symbol ∈ text, symbol ∈ symbols := by
  rw [RegularExpression.matches'_star, Language.mem_kstar]
  constructor
  · rintro ⟨pieces, rfl, all⟩ symbol member
    obtain ⟨piece, inPieces, inPiece⟩ := List.mem_flatten.mp member
    obtain ⟨known, isKnown, rfl⟩ := mem_anyOf.mp (all piece inPieces)
    rwa [List.mem_singleton.mp inPiece]
  · intro all
    refine ⟨text.map fun symbol => [symbol], ?_, ?_⟩
    · rw [← List.flatMap_def, List.flatMap_singleton']
    · intro piece member
      obtain ⟨symbol, inText, rfl⟩ := List.mem_map.mp member
      exact mem_anyOf.mpr ⟨symbol, all symbol inText, rfl⟩

theorem mem_oneOrMore_anyOf {symbols : List Symbol} :
    text ∈ (oneOrMore (anyOf symbols)).matches' ↔
      text ≠ [] ∧ ∀ symbol ∈ text, symbol ∈ symbols := by
  rw [oneOrMore, RegularExpression.matches'_mul, Language.mem_mul]
  constructor
  · rintro ⟨head, inHead, rest, inRest, rfl⟩
    obtain ⟨symbol, known, rfl⟩ := mem_anyOf.mp inHead
    exact ⟨List.cons_ne_nil symbol rest, List.forall_mem_cons.mpr ⟨known, mem_star_anyOf.mp inRest⟩⟩
  · rintro ⟨present, all⟩
    obtain ⟨symbol, rest, rfl⟩ := List.exists_cons_of_ne_nil present
    obtain ⟨known, others⟩ := List.forall_mem_cons.mp all
    exact ⟨[symbol], mem_anyOf.mpr ⟨symbol, known, rfl⟩, rest, mem_star_anyOf.mpr others, rfl⟩

theorem intercalate_cons (separator : Symbol) (first : List Symbol) (rest : List (List Symbol)) :
    [separator].intercalate (first :: rest) = first ++ (rest.map (separator :: ·)).flatten := by
  induction rest generalizing first with
  | nil => rw [List.intercalate_singleton, List.map_nil, List.flatten_nil, List.append_nil]
  | cons second rest inductionHypothesis =>
    rw [List.intercalate_cons_cons, inductionHypothesis, List.append_assoc]
    rfl

/-- The words of a repeated form with a symbol before each repetition. -/
theorem mem_star_behind {separator : Symbol} {form : RegularExpression Symbol} :
    text ∈ (.char separator * form).star.matches' ↔
      ∃ words : List (List Symbol), (∀ word ∈ words, word ∈ form.matches') ∧
        text = (words.map (separator :: ·)).flatten := by
  rw [RegularExpression.matches'_star, Language.mem_kstar]
  constructor
  · rintro ⟨pieces, rfl, all⟩
    have ranged : pieces ∈ Set.range
        (List.map fun word : {word // word ∈ form.matches'} => separator :: word.val) := by
      rw [Set.range_list_map]
      intro piece member
      obtain ⟨lead, inLead, word, inForm, rfl⟩ := Language.mem_mul.mp (all piece member)
      rw [mem_char.mp inLead]
      exact ⟨⟨word, inForm⟩, rfl⟩
    obtain ⟨words, rfl⟩ := ranged
    refine ⟨words.map (·.val), fun word member => ?_, by rw [List.map_map]; rfl⟩
    obtain ⟨known, _, rfl⟩ := List.mem_map.mp member
    exact known.property
  · rintro ⟨words, all, rfl⟩
    refine ⟨words.map (separator :: ·), rfl, fun piece member => ?_⟩
    obtain ⟨word, inWords, rfl⟩ := List.mem_map.mp member
    exact Language.append_mem_mul (mem_char.mpr rfl) (all word inWords)

theorem mem_oneOrMore_behind {separator : Symbol} {form : RegularExpression Symbol} :
    text ∈ (oneOrMore (.char separator * form)).matches' ↔
      ∃ words : List (List Symbol), words ≠ [] ∧ (∀ word ∈ words, word ∈ form.matches') ∧
        text = (words.map (separator :: ·)).flatten := by
  rw [oneOrMore, RegularExpression.matches'_mul, Language.mem_mul]
  constructor
  · rintro ⟨piece, inPiece, others, inOthers, rfl⟩
    obtain ⟨lead, inLead, word, inForm, rfl⟩ := Language.mem_mul.mp inPiece
    obtain ⟨words, all, rfl⟩ := mem_star_behind.mp inOthers
    rw [mem_char.mp inLead]
    exact ⟨word :: words, List.cons_ne_nil _ _, List.forall_mem_cons.mpr ⟨inForm, all⟩, rfl⟩
  · rintro ⟨words, present, all, rfl⟩
    obtain ⟨word, words, rfl⟩ := List.exists_cons_of_ne_nil present
    obtain ⟨inForm, all⟩ := List.forall_mem_cons.mp all
    exact ⟨separator :: word, Language.append_mem_mul (mem_char.mpr rfl) inForm, _,
      mem_star_behind.mpr ⟨words, all, rfl⟩, rfl⟩

theorem splitOn_words [DecidableEq Symbol] {separator : Symbol} {first : List Symbol}
    {words : List (List Symbol)} (free : ∀ word ∈ first :: words, separator ∉ word) :
    (first ++ (words.map (separator :: ·)).flatten).splitOn separator = first :: words := by
  rw [← intercalate_cons]
  exact List.splitOn_intercalate separator free (List.cons_ne_nil first words)

/-- If no word of the form holds the separator, then the parts between the separators are the words
of the form. -/
theorem mem_separated [DecidableEq Symbol] {separator : Symbol} {form : RegularExpression Symbol}
    (free : ∀ word ∈ form.matches', separator ∉ word) :
    text ∈ (separated separator form).matches' ↔
      ∀ part ∈ text.splitOn separator, part ∈ form.matches' := by
  rw [separated, RegularExpression.matches'_mul, Language.mem_mul]
  constructor
  · rintro ⟨first, inFirst, others, inOthers, rfl⟩
    obtain ⟨words, all, rfl⟩ := mem_star_behind.mp inOthers
    have every := List.forall_mem_cons.mpr ⟨inFirst, all⟩
    rwa [splitOn_words fun word member => free word (every word member)]
  · intro all
    obtain ⟨first, rest, split⟩ := List.exists_cons_of_ne_nil (List.splitOn_ne_nil separator text)
    rw [split] at all
    obtain ⟨inFirst, inForm⟩ := List.forall_mem_cons.mp all
    refine ⟨first, inFirst, _, mem_star_behind.mpr ⟨rest, inForm, rfl⟩, ?_⟩
    rw [← intercalate_cons, ← split, List.intercalate_splitOn]

end Grammar

end Layerhouse
