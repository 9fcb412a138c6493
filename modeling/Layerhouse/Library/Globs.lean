/-
This file is about patterns with a wildcard, over any symbols. A text expands a pattern if it
comes from replacing every wildcard by some text. The pieces between the wildcards then stand
in the text in their order, the first of them at its beginning and the last at its end.

A search that always takes the leftmost occurrence of a piece needs no second try. What it
leaves behind an occurrence holds whatever any other occurrence leaves, so it finds all pieces
if they stand in the text in any way. The last piece may end the text at another place than
the search found; as both are behind the other pieces, its place can be moved to the end.
-/

import Layerhouse.Library.Grammars
import Layerhouse.Library.Text

namespace Layerhouse

namespace Glob

variable {Symbol : Type}

/-! ### Patterns -/

/-- The text is the pattern with every wildcard replaced by some text. -/
inductive Expands (wildcard : Symbol) : (pattern text : List Symbol) → Prop
  | nil : Expands wildcard [] []
  | keep {symbol : Symbol} {pattern text : List Symbol} (plain : symbol ≠ wildcard)
      (rest : Expands wildcard pattern text) : Expands wildcard (symbol :: pattern) (symbol :: text)
  | replace {pattern text : List Symbol} (filling : List Symbol)
      (rest : Expands wildcard pattern text) :
      Expands wildcard (wildcard :: pattern) (filling ++ text)

/-- The pieces stand in the text one behind the other. -/
def InOrder : (pieces : List (List Symbol)) → (text : List Symbol) → Prop
  | [], _ => True
  | piece :: pieces, text => ∃ gap tail, text = gap ++ (piece ++ tail) ∧ InOrder pieces tail

variable {wildcard : Symbol} {pattern text : List Symbol}

theorem expands_wildcard :
    Expands wildcard (wildcard :: pattern) text ↔
      ∃ filling tail, text = filling ++ tail ∧ Expands wildcard pattern tail := by
  constructor
  · rintro (_ | ⟨plain, _⟩ | ⟨filling, rest⟩)
    · exact absurd rfl plain
    · exact ⟨filling, _, rfl, rest⟩
  · rintro ⟨filling, tail, rfl, rest⟩
    exact .replace filling rest

theorem expands_piece {piece : List Symbol} (free : wildcard ∉ piece) :
    Expands wildcard (piece ++ pattern) text ↔
      ∃ tail, text = piece ++ tail ∧ Expands wildcard pattern tail := by
  induction piece generalizing text with
  | nil => exact ⟨fun expands => ⟨text, rfl, expands⟩, fun ⟨_, same, expands⟩ => same ▸ expands⟩
  | cons symbol piece inductionHypothesis =>
    rw [List.mem_cons, not_or] at free
    constructor
    · rintro (_ | ⟨_, rest⟩ | ⟨_, _⟩)
      · obtain ⟨tail, rfl, expands⟩ := (inductionHypothesis free.2).mp rest
        exact ⟨tail, rfl, expands⟩
      · exact absurd rfl free.1
    · rintro ⟨tail, rfl, expands⟩
      exact .keep (Ne.symm free.1) ((inductionHypothesis free.2).mpr ⟨tail, rfl, expands⟩)

/-- A pattern without a wildcard stands for itself. -/
theorem expands_plain (free : wildcard ∉ pattern) :
    Expands wildcard pattern text ↔ text = pattern := by
  have split := @expands_piece Symbol wildcard [] text pattern free
  rw [List.append_nil] at split
  rw [split]
  constructor
  · rintro ⟨_, rfl, _ | _⟩
    exact List.append_nil pattern
  · rintro rfl
    exact ⟨[], (List.append_nil text).symm, .nil⟩

/-- The pieces of a pattern with wildcards stand in a text that expands it, the first and the
last at its ends. -/
theorem expands_pieces {first last : List Symbol} {middle : List (List Symbol)}
    (ofFirst : wildcard ∉ first) (ofMiddle : ∀ piece ∈ middle, wildcard ∉ piece)
    (ofLast : wildcard ∉ last) :
    Expands wildcard (first ++ ((middle.map (wildcard :: ·)).flatten ++ wildcard :: last)) text ↔
      ∃ body, text = first ++ (body ++ last) ∧ InOrder middle body := by
  have behind : ∀ tail, Expands wildcard
      ((middle.map (wildcard :: ·)).flatten ++ wildcard :: last) tail ↔
        ∃ body, tail = body ++ last ∧ InOrder middle body := by
    induction middle with
    | nil =>
      intro tail
      rw [List.map_nil, List.flatten_nil, List.nil_append, expands_wildcard]
      refine exists_congr fun body => ?_
      constructor
      · rintro ⟨rest, rfl, expands⟩
        exact ⟨congrArg (body ++ ·) ((expands_plain ofLast).mp expands), trivial⟩
      · rintro ⟨rfl, _⟩
        exact ⟨last, rfl, (expands_plain ofLast).mpr rfl⟩
    | cons piece middle inductionHypothesis =>
      intro tail
      obtain ⟨ofPiece, ofOthers⟩ := List.forall_mem_cons.mp ofMiddle
      rw [List.map_cons, List.flatten_cons, List.cons_append, List.cons_append, List.append_assoc,
        expands_wildcard]
      constructor
      · rintro ⟨gap, rest, rfl, expands⟩
        obtain ⟨after, rfl, later⟩ := (expands_piece ofPiece).mp expands
        obtain ⟨body, rfl, ordered⟩ := (inductionHypothesis ofOthers after).mp later
        refine ⟨gap ++ (piece ++ body), ?_, gap, body, rfl, ordered⟩
        rw [List.append_assoc, List.append_assoc]
      · rintro ⟨_, rfl, gap, body, rfl, ordered⟩
        have expands := (inductionHypothesis ofOthers (body ++ last)).mpr ⟨body, rfl, ordered⟩
        refine ⟨gap, piece ++ (body ++ last), ?_, (expands_piece ofPiece).mpr ⟨_, rfl, expands⟩⟩
        rw [List.append_assoc, List.append_assoc]
  rw [expands_piece ofFirst]
  constructor
  · rintro ⟨tail, rfl, expands⟩
    obtain ⟨body, rfl, ordered⟩ := (behind tail).mp expands
    exact ⟨body, rfl, ordered⟩
  · rintro ⟨body, rfl, ordered⟩
    exact ⟨body ++ last, rfl, (behind _).mpr ⟨body, rfl, ordered⟩⟩

/-! ### Pieces in order -/

theorem InOrder.behind {pieces : List (List Symbol)} (lead : List Symbol)
    (ordered : InOrder pieces text) : InOrder pieces (lead ++ text) := by
  cases pieces with
  | nil => trivial
  | cons piece pieces =>
    obtain ⟨gap, tail, rfl, later⟩ := ordered
    exact ⟨lead ++ gap, tail, (List.append_assoc lead gap _).symm, later⟩

/-- An empty piece stands anywhere. -/
theorem inOrder_filter [DecidableEq Symbol] {pieces : List (List Symbol)} :
    InOrder (pieces.filter (· ≠ [])) text ↔ InOrder pieces text := by
  induction pieces generalizing text with
  | nil => exact Iff.rfl
  | cons piece pieces inductionHypothesis =>
    by_cases empty : piece = []
    · subst empty
      rw [List.filter_cons_of_neg (by rw [decide_eq_true_eq]; exact fun absurdity => absurdity rfl),
        inductionHypothesis]
      constructor
      · intro ordered
        exact ⟨[], text, rfl, ordered⟩
      · rintro ⟨gap, tail, rfl, ordered⟩
        exact ordered.behind gap
    · rw [List.filter_cons_of_pos (by exact decide_eq_true empty), InOrder, InOrder]
      exact exists₂_congr fun gap tail => and_congr_right fun _ => inductionHypothesis

/-- The first piece may be taken at the beginning. -/
theorem inOrder_prefix {first : List Symbol} {pieces : List (List Symbol)} :
    first <+: text ∧ InOrder (first :: pieces) text ↔
      ∃ tail, text = first ++ tail ∧ InOrder pieces tail := by
  constructor
  · rintro ⟨⟨tail, rfl⟩, gap, rest, same, ordered⟩
    refine ⟨tail, rfl, ?_⟩
    have shorter : rest <:+ tail := by
      refine List.suffix_of_suffix_length_le ?_ (List.suffix_append first tail) ?_
      · rw [same]
        exact (List.suffix_append first rest).trans (List.suffix_append gap _)
      · have lengths := congrArg List.length same
        rw [List.length_append, List.length_append, List.length_append] at lengths
        omega
    obtain ⟨lead, rfl⟩ := shorter
    exact ordered.behind lead
  · rintro ⟨tail, rfl, ordered⟩
    exact ⟨List.prefix_append first tail, [], tail, rfl, ordered⟩

/-- The last piece may be taken at the end. -/
theorem inOrder_suffix {lead last : List Symbol} {pieces : List (List Symbol)} :
    last <:+ lead ++ text ∧ InOrder (pieces ++ [last]) text ↔
      ∃ body, text = body ++ last ∧ InOrder pieces body := by
  induction pieces generalizing lead text with
  | nil =>
    constructor
    · rintro ⟨ends, gap, tail, same, _⟩
      have shorter : last <:+ text := by
        refine List.suffix_of_suffix_length_le ends (List.suffix_append lead text) ?_
        rw [same, List.length_append, List.length_append]
        omega
      obtain ⟨body, rfl⟩ := shorter
      exact ⟨body, rfl, trivial⟩
    · rintro ⟨body, rfl, _⟩
      refine ⟨?_, body, [], by rw [List.append_nil], trivial⟩
      exact (List.suffix_append body last).trans (List.suffix_append lead _)
  | cons piece pieces inductionHypothesis =>
    constructor
    · rintro ⟨ends, gap, tail, rfl, ordered⟩
      rw [← List.append_assoc gap, ← List.append_assoc] at ends
      obtain ⟨body, rfl, later⟩ := inductionHypothesis.mp ⟨ends, ordered⟩
      refine ⟨gap ++ (piece ++ body), ?_, gap, body, rfl, later⟩
      rw [List.append_assoc, List.append_assoc]
    · rintro ⟨_, rfl, gap, body, rfl, later⟩
      obtain ⟨_, ordered⟩ := (@inductionHypothesis (body ++ last) lead).mpr ⟨body, rfl, later⟩
      refine ⟨?_, gap, body ++ last, ?_, ordered⟩
      · exact (List.suffix_append _ last).trans (List.suffix_append lead _)
      · rw [List.append_assoc, List.append_assoc]

/-! ### The search -/

variable [DecidableEq Symbol]

/-- Where the first occurrence of a text starts. -/
def find (needle text : List Symbol) : Option Nat :=
  if needle.isPrefixOf text then some 0
  else
    match text with
    | [] => none
    | _ :: rest => (find needle rest).map (· + 1)

/-- What is left behind the pieces, each at its first occurrence behind the one before. -/
def findAll : (pieces : List (List Symbol)) → (text : List Symbol) → Option (List Symbol)
  | [], text => some text
  | piece :: pieces, text =>
    (find piece text).bind fun index => findAll pieces (text.drop (index + piece.length))

theorem find_eq_some {needle : List Symbol} {index : Nat} (found : find needle text = some index) :
    ∃ gap, text = gap ++ (needle ++ text.drop (index + needle.length)) := by
  induction text generalizing index with
  | nil =>
    rw [find] at found
    split at found
    · rename_i starts
      rw [List.prefix_nil.mp (List.isPrefixOf_iff_prefix.mp starts)]
      exact ⟨[], List.drop_nil.symm⟩
    · cases found
  | cons symbol text inductionHypothesis =>
    rw [find] at found
    split at found
    · rename_i starts
      obtain ⟨tail, same⟩ := List.isPrefixOf_iff_prefix.mp starts
      cases found
      refine ⟨[], ?_⟩
      rw [← same, Nat.zero_add, List.drop_left]
      rfl
    · obtain ⟨later, foundLater, rfl⟩ := Option.map_eq_some_iff.mp found
      obtain ⟨gap, same⟩ := inductionHypothesis foundLater
      refine ⟨symbol :: gap, ?_⟩
      rw [Nat.add_right_comm, List.drop_succ_cons, List.cons_append, ← same]

/-- No occurrence starts before the one that is found. -/
theorem find_le {needle gap tail : List Symbol} (same : text = gap ++ (needle ++ tail)) :
    ∃ index ≤ gap.length, find needle text = some index := by
  induction gap generalizing text with
  | nil =>
    refine ⟨0, Nat.le_refl 0, ?_⟩
    rw [find.eq_def, if_pos]
    exact List.isPrefixOf_iff_prefix.mpr ⟨tail, same.symm⟩
  | cons symbol gap inductionHypothesis =>
    rw [same, List.cons_append, find]
    split
    · exact ⟨0, Nat.zero_le _, rfl⟩
    · obtain ⟨index, before, found⟩ := inductionHypothesis rfl
      exact ⟨index + 1, Nat.succ_le_succ before, by rw [found]; rfl⟩

/-- The search finds the pieces if they stand in the text in their order. -/
theorem findAll_isSome {pieces : List (List Symbol)} :
    (findAll pieces text).isSome = true ↔ InOrder pieces text := by
  induction pieces generalizing text with
  | nil => exact iff_of_true rfl trivial
  | cons piece pieces inductionHypothesis =>
    rw [findAll]
    constructor
    · intro isSome
      obtain ⟨rest, all⟩ := Option.isSome_iff_exists.mp isSome
      obtain ⟨index, found, later⟩ := Option.bind_eq_some_iff.mp all
      obtain ⟨gap, same⟩ := find_eq_some found
      exact ⟨gap, _, same, inductionHypothesis.mp (Option.isSome_of_eq_some later)⟩
    · rintro ⟨gap, tail, same, ordered⟩
      obtain ⟨index, before, found⟩ := find_le same
      have left : tail <:+ text.drop (index + piece.length) := by
        rw [same, ← List.append_assoc, List.drop_append_of_le_length]
        · exact List.suffix_append _ tail
        · rw [List.length_append]
          exact Nat.add_le_add_right before _
      obtain ⟨lead, rest⟩ := left
      rw [found, Option.bind_some, inductionHypothesis, ← rest]
      exact ordered.behind lead

/-! ### Patterns and the search -/

/-- The pieces of a pattern that has wildcards. -/
theorem exists_pieces (member : wildcard ∈ pattern) :
    ∃ first middle last, pattern.splitOn wildcard = first :: (middle ++ [last]) ∧
      pattern = first ++ ((middle.map (wildcard :: ·)).flatten ++ wildcard :: last) ∧
      wildcard ∉ first ∧ (∀ piece ∈ middle, wildcard ∉ piece) ∧ wildcard ∉ last := by
  have free : ∀ piece ∈ pattern.splitOn wildcard, wildcard ∉ piece := by
    intro piece inSplit inPiece
    rw [List.splitOn_eq_splitOnP] at inSplit
    have other := Text.not_separator_of_mem_splitOnP inSplit inPiece
    exact absurd rfl (beq_eq_false_iff_ne.mp other)
  have joined : [wildcard].intercalate (pattern.splitOn wildcard) = pattern :=
    List.intercalate_splitOn wildcard
  obtain ⟨first, rest, split⟩ :=
    List.exists_cons_of_ne_nil (List.splitOn_ne_nil wildcard pattern)
  rw [split] at free joined ⊢
  rw [Grammar.intercalate_cons] at joined
  obtain ⟨ofFirst, ofRest⟩ := List.forall_mem_cons.mp free
  rcases List.eq_nil_or_concat' rest with rfl | ⟨middle, last, rfl⟩
  · rw [List.map_nil, List.flatten_nil, List.append_nil] at joined
    exact absurd (joined ▸ member) ofFirst
  · rw [List.forall_mem_append, List.forall_mem_singleton] at ofRest
    rw [List.map_append, List.flatten_append, List.map_singleton, List.flatten_singleton] at joined
    exact ⟨first, middle, last, rfl, joined.symm, ofFirst, ofRest⟩

/-- A text expands a pattern with wildcards if it starts and ends as the pattern does and the
search finds the pieces that are not empty. -/
theorem expands_iff_findAll {first last : List Symbol} {middle : List (List Symbol)}
    (ofFirst : wildcard ∉ first) (ofMiddle : ∀ piece ∈ middle, wildcard ∉ piece)
    (ofLast : wildcard ∉ last) :
    Expands wildcard (first ++ ((middle.map (wildcard :: ·)).flatten ++ wildcard :: last)) text ↔
      first <+: text ∧ last <:+ text ∧
        (findAll ((first :: (middle ++ [last])).filter (· ≠ [])) text).isSome = true := by
  rw [expands_pieces ofFirst ofMiddle ofLast, findAll_isSome, inOrder_filter]
  constructor
  · rintro ⟨body, rfl, ordered⟩
    obtain ⟨ends, later⟩ := (@inOrder_suffix _ _ first).mpr ⟨body, rfl, ordered⟩
    obtain ⟨starts, all⟩ := inOrder_prefix.mpr ⟨body ++ last, rfl, later⟩
    exact ⟨starts, ends, all⟩
  · rintro ⟨starts, ends, all⟩
    obtain ⟨tail, rfl, later⟩ := inOrder_prefix.mp ⟨starts, all⟩
    obtain ⟨body, rfl, ordered⟩ := inOrder_suffix.mp ⟨ends, later⟩
    exact ⟨body, rfl, ordered⟩

end Glob

end Layerhouse
