/-
This file is about the words of a text, the runs of characters between white space, and about one
place in a text: the words that are complete before the place, the beginning of the word that the
place is in, and what follows. Whatever is put at the place, if it has no white space of its own,
changes that one word only.
-/

import Layerhouse.Library.Text

namespace Layerhouse.Words

open Text

variable {text before inside after word : List Char} {words : List (List Char)}

/-- The text has no white space in it. -/
def Plain (text : List Char) : Prop :=
  ∀ char ∈ text, isWhitespace char = false

/-- The words with single spaces between them. -/
def joined : List (List Char) → List Char
  | [] => []
  | word :: words => word ++ words.flatMap (' ' :: ·)

/-- The words that are complete before the end of the text. -/
def closedWords (text : List Char) : List (List Char) :=
  splitWhitespace (text.rdropWhile (!isWhitespace ·))

/-- The beginning of a word that the text ends with. -/
def openWord (text : List Char) : List Char :=
  text.rtakeWhile (!isWhitespace ·)

/-- The rest of a word that the text starts with. -/
def firstPart (text : List Char) : List Char :=
  text.takeWhile (!isWhitespace ·)

/-- The words behind that rest. -/
def laterWords (text : List Char) : List (List Char) :=
  splitWhitespace (text.dropWhile (!isWhitespace ·))

/-! ### The words of a text -/

theorem splitWhitespace_plain (plain : Plain text) (present : text ≠ []) :
    splitWhitespace text = [text] := by
  rw [splitWhitespace, List.splitOnP_eq_singleton plain,
    List.filter_cons_of_pos (by simpa using present), List.filter_nil]

/-- The words of a text are those that are written into it one after the other. -/
theorem splitWhitespace_joined (plain : ∀ word ∈ words, Plain word ∧ word ≠ []) :
    splitWhitespace (joined words) = words := by
  induction words with
  | nil => rfl
  | cons word words inductionHypothesis =>
    obtain ⟨⟨plainWord, present⟩, plainWords⟩ := List.forall_mem_cons.mp plain
    cases words with
    | nil =>
      rw [joined, List.flatMap_nil, List.append_nil]
      exact splitWhitespace_plain plainWord present
    | cons next words =>
      change splitWhitespace (word ++ ' ' :: joined (next :: words)) = _
      rw [splitWhitespace_append_cons word _ (by decide), splitWhitespace_plain plainWord present,
        inductionHypothesis plainWords]
      rfl

theorem plain_openWord (text : List Char) : Plain (openWord text) := fun char member => by
  simpa using List.mem_rtakeWhile_imp member

theorem plain_firstPart (text : List Char) : Plain (firstPart text) := fun char member => by
  simpa using List.mem_takeWhile_imp member

theorem Plain.append (first : Plain before) (second : Plain after) : Plain (before ++ after) :=
  fun char member => (List.mem_append.mp member).elim (first char) (second char)

/-- Plain text goes on with the word that the text before ends with. -/
theorem openWord_append (before : List Char) (plain : Plain after) :
    openWord (before ++ after) = openWord before ++ after := by
  rw [openWord, List.rtakeWhile, List.reverse_append, List.takeWhile_append_of_pos,
    List.reverse_append, List.reverse_reverse]
  · rfl
  · intro char member
    rw [plain char (List.mem_reverse.mp member)]
    rfl

/-- Words that are complete stay what they are, whatever plain text follows. -/
theorem splitWhitespace_append_right (before after : List Char) :
    splitWhitespace (before ++ after) =
      closedWords before ++ splitWhitespace (openWord before ++ after) := by
  have split : before = before.rdropWhile (!isWhitespace ·) ++ openWord before :=
    List.rdropWhile_append_rtakeWhile.symm
  conv_lhs => rw [split]
  rw [closedWords, List.append_assoc]
  generalize openWord before ++ after = later
  cases ended : before.rdropWhile (!isWhitespace ·) using List.reverseRecOn with
  | nil => rfl
  | append_singleton closed space =>
    have white : isWhitespace space = true := by
      have last := List.rdropWhile_last_not (!isWhitespace ·) before
        (by rw [ended]; exact List.concat_ne_nil _ _)
      simp only [ended, List.getLast_concat] at last
      simpa using last
    rw [List.append_assoc, List.singleton_append, splitWhitespace_append_cons closed later white,
      splitWhitespace_append_cons closed [] white]
    exact congrArg (· ++ _) (List.append_nil _).symm

/-- What is put at a place of a text becomes part of the word there, and no other word changes. -/
theorem splitWhitespace_around (plain : Plain inside)
    (present : openWord before ++ inside ++ firstPart after ≠ []) :
    splitWhitespace (before ++ inside ++ after) =
      closedWords before ++ (openWord before ++ inside ++ firstPart after) :: laterWords after := by
  rw [List.append_assoc, splitWhitespace_append_right]
  congr 1
  have plainWord : Plain (openWord before ++ inside ++ firstPart after) :=
    ((plain_openWord before).append plain).append (plain_firstPart after)
  have split : openWord before ++ (inside ++ after) =
      (openWord before ++ inside ++ firstPart after) ++ after.dropWhile (!isWhitespace ·) := by
    rw [firstPart, List.append_assoc, List.takeWhile_append_dropWhile, List.append_assoc]
  rw [split, laterWords]
  cases ended : after.dropWhile (!isWhitespace ·) with
  | nil =>
    rw [List.append_nil]
    exact splitWhitespace_plain plainWord present
  | cons space later =>
    have white : isWhitespace space = true := by
      have first := List.head_dropWhile_not (!isWhitespace ·)
        (by rw [ended]; exact List.cons_ne_nil _ _ : after.dropWhile (!isWhitespace ·) ≠ [])
      simp only [ended, List.head_cons] at first
      simpa using first
    rw [splitWhitespace_append_cons _ later white, splitWhitespace_plain plainWord present]
    exact congrArg _ (splitWhitespace_append_cons [] later white).symm

/-- The pieces of a split hold characters of the text only. -/
theorem subset_of_mem_splitOnP {separates : Char → Bool} {piece : List Char}
    (member : piece ∈ text.splitOnP separates) : piece ⊆ text := by
  induction text generalizing piece with
  | nil =>
    rw [List.splitOnP_nil, List.mem_singleton] at member
    rw [member]
    exact List.Subset.refl []
  | cons first rest inductionHypothesis =>
    rw [List.splitOnP_cons_eq_if_modifyHead] at member
    split at member
    · rcases List.mem_cons.mp member with rfl | later
      · exact List.nil_subset _
      · exact List.subset_cons_of_subset first (inductionHypothesis later)
    · obtain ⟨head, others, split⟩ :=
        List.exists_cons_of_ne_nil (List.splitOnP_ne_nil separates rest)
      rw [split] at member inductionHypothesis
      rcases List.mem_cons.mp member with rfl | later
      · exact List.cons_subset_cons first (inductionHypothesis List.mem_cons_self)
      · exact List.subset_cons_of_subset first
          (inductionHypothesis (List.mem_cons_of_mem head later))

theorem mem_of_mem_splitWhitespace {char : Char} (member : word ∈ splitWhitespace text)
    (inWord : char ∈ word) : char ∈ text :=
  subset_of_mem_splitOnP (List.mem_filter.mp member).1 inWord

/-- A character that is not white space is in a word. -/
theorem exists_word_of_mem {char : Char} (member : char ∈ text)
    (visible : isWhitespace char = false) : ∃ word ∈ splitWhitespace text, char ∈ word := by
  obtain ⟨front, back, rfl⟩ := List.append_of_mem member
  have inWord : char ∈ openWord front ++ [char] ++ firstPart back := by simp
  have plain : Plain [char] := fun other single => List.mem_singleton.mp single ▸ visible
  have split := splitWhitespace_around plain (List.ne_nil_of_mem inWord)
  rw [List.append_assoc, List.singleton_append] at split
  rw [split]
  exact ⟨_, List.mem_append_right _ List.mem_cons_self, inWord⟩

/-! ### Joined words -/

theorem joined_append (front : List (List Char)) (word : List Char) (back : List (List Char)) :
    joined (front ++ word :: back) = front.flatMap (· ++ [' ']) ++ joined (word :: back) := by
  induction front with
  | nil => rfl
  | cons first front inductionHypothesis =>
    have next : joined (first :: (front ++ word :: back)) =
        first ++ ' ' :: joined (front ++ word :: back) := by
      cases front with
      | nil => rfl
      | cons second front => rfl
    rw [List.cons_append, next, inductionHypothesis, List.flatMap_cons, List.append_assoc,
      List.append_assoc]
    rfl

theorem mem_joined {char : Char} (member : word ∈ words) (inWord : char ∈ word) :
    char ∈ joined words := by
  obtain ⟨front, back, rfl⟩ := List.append_of_mem member
  rw [joined_append]
  exact List.mem_append_right _ (List.mem_append_left _ inWord)

theorem eq_space_or_mem_of_joined {char : Char} (member : char ∈ joined words) :
    char = ' ' ∨ ∃ word ∈ words, char ∈ word := by
  cases words with
  | nil => cases member
  | cons word words =>
    rcases List.mem_append.mp member with first | later
    · exact Or.inr ⟨word, List.mem_cons_self, first⟩
    · obtain ⟨other, listed, inOther⟩ := List.mem_flatMap.mp later
      rcases List.mem_cons.mp inOther with space | inWord
      · exact Or.inl space
      · exact Or.inr ⟨other, List.mem_cons_of_mem _ listed, inWord⟩

end Layerhouse.Words
