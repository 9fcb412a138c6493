/-
This file is `sanitize_connector_error_message` of `directory/mod.rs`: what is shown of an error
message that a directory connector returns. Bearer tokens and the queries of URLs are taken out, a
message with other signs of secrets is replaced as a whole, and the rest is cut to 512 bytes.

The messages are compared two by two. A place for a secret is a point of a text in the token behind
the word bearer or in the query of a URL, with the secrets that can stand there; it hides them if
the sanitized message is the same for all of them. The sanitizer goes by whole words, so an opening
quote or parenthesis before the URL, or a word bearer that has been taken for a token itself, leaves
the secret where it is. And a secret may hold the signs that the whole message is searched for.
-/

import Layerhouse.Error
import Layerhouse.Library.Slices
import Layerhouse.Library.Words

namespace Layerhouse

open Text Words Slices

def errorMessageLimitBytes : Nat := 512

/-! ### The sanitizer -/

/-- `char::is_control`. -/
def isControl (char : Char) : Bool :=
  char.toNat < 32 ∨ 127 ≤ char.toNat ∧ char.toNat < 160

def blanked (text : List Char) : List Char :=
  text.map fun char => if isControl char then ' ' else char

def normalized (raw : List Char) : List Char :=
  blanked (trim raw)

def sensitiveNeedles : List String :=
  ["authorization:", "cookie:", "set-cookie:", "request body:", "response body:", "debug dump"]

def containsSensitiveContext (message : List Char) : Bool :=
  sensitiveNeedles.any fun needle => (find needle.toList (toAsciiLowercase message)).isSome

def isBearer (word : List Char) : Bool :=
  EqIgnoreAsciiCase word "bearer".toList

/-- The words of a message, with the one behind each word bearer taken out. -/
def redactBearerWords : List (List Char) → List (List Char)
  | [] => []
  | [word] => [word]
  | word :: next :: words =>
    if isBearer word then word :: "[redacted]".toList :: redactBearerWords words
    else word :: redactBearerWords (next :: words)

def redactBearerTokens (message : List Char) : List Char :=
  joined (redactBearerWords (splitWhitespace message))

def startsWithUrl (word : List Char) : Bool :=
  "https://".toList <+: word ∨ "http://".toList <+: word

def redactUrlWord (word : List Char) : List Char :=
  if startsWithUrl word ∧ '?' ∈ word then
    match splitOnce '?' word with
    | some (base, _) => base ++ "?[redacted]".toList
    | none => word ++ "?[redacted]".toList
  else word

def redactUrlQueries (message : List Char) : List Char :=
  joined ((splitWhitespace message).map redactUrlWord)

/-- `truncate_at_utf8_boundary`; cutting anywhere else would be a panic. -/
def truncateAtUtf8Boundary (value : List Char) (limit : Nat) : Except Panic (List Char) :=
  if byteLength value ≤ limit then .ok value
  else sliced (sliceTo (floorBoundary value limit) value)

def sensitiveMessage : String := "connector error contained redacted sensitive context"

def sanitizeConnectorErrorMessage (raw : String) : Except Panic String := do
  let message := normalized raw.toList
  let sanitized := if containsSensitiveContext message then sensitiveMessage.toList
    else redactUrlQueries (redactBearerTokens message)
  let shown ← truncateAtUtf8Boundary sanitized errorMessageLimitBytes
  return if shown = [] then "connector error" else String.ofList shown

/-! ### What is shown -/

theorem truncateAtUtf8Boundary_eq (value : List Char) (limit : Nat) :
    truncateAtUtf8Boundary value limit = .ok (fit limit value) := by
  rw [truncateAtUtf8Boundary]
  split_ifs with fits
  · rw [fit_of_le fits]
  · rw [sliceTo_floorBoundary]
    rfl

/-- The words that are shown of the words of a message, before it is cut. -/
def shownWords (words : List (List Char)) : List (List Char) :=
  (redactBearerWords words).map redactUrlWord

/-- Each word stands as it is, or is taken out. -/
theorem mem_redactBearerWords {word : List Char} {words : List (List Char)} :
    (word ∈ redactBearerWords words → word ∈ words ∨ word = "[redacted]".toList) ∧
      (word ∈ words →
        word ∈ redactBearerWords words ∨ "[redacted]".toList ∈ redactBearerWords words) := by
  fun_induction redactBearerWords words with
  | case1 => exact ⟨Or.inl, Or.inl⟩
  | case2 => exact ⟨Or.inl, Or.inl⟩
  | case3 first next words _ inductionHypothesis =>
    simp only [List.mem_cons]
    tauto
  | case4 first next words _ inductionHypothesis =>
    simp only [List.mem_cons] at inductionHypothesis ⊢
    tauto

theorem blanked_append (before after : List Char) :
    blanked (before ++ after) = blanked before ++ blanked after :=
  List.map_append

theorem isWhitespace_blanked {char : Char} (white : isWhitespace char = true) :
    isWhitespace (if isControl char then ' ' else char) = true := by
  split_ifs
  · rfl
  · exact white

/-- Trimming leaves the words as they are. -/
theorem splitWhitespace_normalized (raw : List Char) :
    splitWhitespace (normalized raw) = splitWhitespace (blanked raw) := by
  have front (text : List Char) : splitWhitespace (blanked (text.dropWhile isWhitespace)) =
      splitWhitespace (blanked text) := by
    induction text with
    | nil => rfl
    | cons char rest inductionHypothesis =>
      by_cases white : isWhitespace char = true
      · rw [List.dropWhile_cons_of_pos white, inductionHypothesis]
        exact (splitWhitespace_append_cons [] _ (isWhitespace_blanked white)).symm
      · rw [List.dropWhile_cons_of_neg white]
  have back (text : List Char) : splitWhitespace (blanked (text.rdropWhile isWhitespace)) =
      splitWhitespace (blanked text) := by
    induction text using List.reverseRecOn with
    | nil => rfl
    | append_singleton rest char inductionHypothesis =>
      by_cases white : isWhitespace char = true
      · have ended : splitWhitespace (blanked rest ++ [if isControl char then ' ' else char]) =
            splitWhitespace (blanked rest) ++ splitWhitespace [] :=
          splitWhitespace_append_cons _ [] (isWhitespace_blanked white)
        rw [List.rdropWhile_concat_pos _ _ _ white, inductionHypothesis, blanked_append]
        exact ((List.append_nil _).symm.trans ended.symm)
      · rw [List.rdropWhile_concat_neg _ _ _ white]
  rw [normalized, trim, back, front]

theorem plain_of_mem_splitWhitespace {text word : List Char}
    (member : word ∈ splitWhitespace text) : Plain word ∧ word ≠ [] :=
  ⟨fun _ inWord => not_isWhitespace_of_mem_splitWhitespace member inWord,
    of_decide_eq_true (List.mem_filter.mp member).2⟩

/-- The two passes over the words are one pass over each word after the other. -/
theorem redact_eq (message : List Char) :
    redactUrlQueries (redactBearerTokens message) =
      joined (shownWords (splitWhitespace message)) := by
  rw [redactUrlQueries, redactBearerTokens, splitWhitespace_joined]
  · rfl
  · intro word member
    rcases mem_redactBearerWords.1 member with given | rfl
    · exact plain_of_mem_splitWhitespace given
    · exact ⟨by simp [Plain, isWhitespace], by decide⟩

/-- What is shown of a message, before it is cut. -/
def sanitizedText (raw : List Char) : List Char :=
  if containsSensitiveContext (normalized raw) then sensitiveMessage.toList
  else joined (shownWords (splitWhitespace (blanked raw)))

theorem sanitizeConnectorErrorMessage_eq (raw : String) :
    sanitizeConnectorErrorMessage raw =
      .ok (if fit errorMessageLimitBytes (sanitizedText raw.toList) = [] then "connector error"
        else String.ofList (fit errorMessageLimitBytes (sanitizedText raw.toList))) := by
  rw [sanitizeConnectorErrorMessage, redact_eq, splitWhitespace_normalized]
  change (truncateAtUtf8Boundary (sanitizedText raw.toList) _ >>= fun shown => _) = _
  rw [truncateAtUtf8Boundary_eq]
  rfl

/-! ### Messages without control characters -/

theorem not_isControl_blanked {char : Char} {text : List Char} (member : char ∈ blanked text) :
    isControl char = false := by
  obtain ⟨source, _, rfl⟩ := List.mem_map.mp member
  split_ifs with control
  · rfl
  · exact Bool.eq_false_iff.mpr control

theorem mem_of_mem_redactUrlWord {char : Char} {word : List Char}
    (member : char ∈ redactUrlWord word) : char ∈ word ∨ char ∈ "?[redacted]".toList := by
  rw [redactUrlWord] at member
  split_ifs at member
  · split at member
    · rename_i base tail split
      rw [(splitOnce_eq_some.mp split).1]
      rcases List.mem_append.mp member with inBase | added
      · exact Or.inl (List.mem_append_left _ inBase)
      · exact Or.inr added
    · exact List.mem_append.mp member
  · exact Or.inl member

theorem not_isControl_sanitizedText {char : Char} {raw : List Char}
    (member : char ∈ sanitizedText raw) : isControl char = false := by
  rw [sanitizedText] at member
  split_ifs at member
  · have plain : sensitiveMessage.toList.all (isControl · = false) = true := by decide
    exact of_decide_eq_true (List.all_eq_true.mp plain char member)
  · rcases eq_space_or_mem_of_joined member with rfl | ⟨shown, listed, inShown⟩
    · rfl
    · obtain ⟨word, kept, rfl⟩ := List.mem_map.mp listed
      have redacted : ∀ char ∈ "?[redacted]".toList, isControl char = false := by
        simp [isControl]
      rcases mem_of_mem_redactUrlWord inShown with inWord | added
      · rcases mem_redactBearerWords.1 kept with given | rfl
        · exact not_isControl_blanked (mem_of_mem_splitWhitespace given inWord)
        · exact redacted char (List.mem_cons_of_mem _ inWord)
      · exact redacted char added

/-- What is shown is a text of 1 to 512 bytes without control characters. -/
theorem sanitizeConnectorErrorMessage_ok (raw : String) :
    ∃ shown, sanitizeConnectorErrorMessage raw = .ok shown ∧ shown ≠ "" ∧
      byteLength shown.toList ≤ errorMessageLimitBytes ∧
      ∀ char ∈ shown.toList, isControl char = false := by
  refine ⟨_, sanitizeConnectorErrorMessage_eq raw, ?_⟩
  split_ifs with empty
  · exact ⟨by decide, by decide, by simp [isControl]⟩
  · rw [String.toList_ofList]
    refine ⟨fun nothing => empty ?_, byteLength_fit_le _ _, fun char member => ?_⟩
    · rw [← String.toList_ofList (l := fit errorMessageLimitBytes (sanitizedText raw.toList)),
        nothing]
      rfl
    · exact not_isControl_sanitizedText ((prefixOf_fit _ _).subset member)

/-! ### Places for secrets -/

def isBlank (char : Char) : Bool :=
  isWhitespace char || isControl char

def isEnclosure (char : Char) : Bool :=
  "\"'`()[]<>\x7b\x7d".toList.contains char

/-- What follows can be the beginning of a word or of a URL. -/
def EndsInBoundary (before : List Char) : Prop :=
  ∀ char ∈ before.getLast?, isBlank char = true ∨ isEnclosure char = true

/-- The text ends within, or right before, the token behind a word bearer, which may be in any
letter case and enclosed. -/
def EndsInToken (lead : List Char) : Prop :=
  ∃ before bearer closing gap part, lead = before ++ bearer ++ closing ++ gap ++ part ∧
    EndsInBoundary before ∧ EqIgnoreAsciiCase bearer "bearer".toList ∧
    (∀ char ∈ closing, isEnclosure char = true) ∧ gap ≠ [] ∧ (∀ char ∈ gap, isBlank char = true) ∧
    ∀ char ∈ part, isBlank char = false

/-- The text ends within the query of an http or https URL, which may be enclosed. -/
def EndsInQuery (lead : List Char) : Prop :=
  ∃ before scheme address query,
    lead = before ++ scheme ++ "://".toList ++ address ++ '?' :: query ∧ EndsInBoundary before ∧
    (EqIgnoreAsciiCase scheme "http".toList ∨ EqIgnoreAsciiCase scheme "https".toList) ∧
    (∀ char ∈ address, isBlank char = false ∧ char ≠ '?' ∧ char ≠ '#') ∧
    ∀ char ∈ query, isBlank char = false ∧ char ≠ '#'

/-- A place in a token or in a query, and the texts that can stand there, two letters among them. -/
structure SecretPlace where
  lead : List Char
  trail : List Char
  secrets : Set (List Char)
  one : ['a'] ∈ secrets
  other : ['b'] ∈ secrets
  plain : ∀ secret ∈ secrets, ∀ char ∈ secret, isBlank char = false
  place : EndsInToken lead ∧ [] ∉ secrets ∨ EndsInQuery lead

/-- A word bearer at the end of the words is one that the next word is taken out behind. -/
def endsPending : List (List Char) → Bool
  | [] => false
  | [word] => isBearer word
  | word :: next :: words =>
    if isBearer word then endsPending words else endsPending (next :: words)

namespace SecretPlace

def message (place : SecretPlace) (secret : List Char) : String :=
  String.ofList (place.lead ++ secret ++ place.trail)

/-- The same is shown for all secrets. -/
def Hidden (place : SecretPlace) : Prop :=
  ∀ first ∈ place.secrets, ∀ second ∈ place.secrets,
    sanitizeConnectorErrorMessage (place.message first) =
      sanitizeConnectorErrorMessage (place.message second)

def IsSensitive (place : SecretPlace) (secret : List Char) : Prop :=
  containsSensitiveContext (normalized (place.message secret).toList) = true

/-- No secret decides whether the message is replaced as a whole. -/
def Undecided (place : SecretPlace) : Prop :=
  ∀ first ∈ place.secrets, ∀ second ∈ place.secrets,
    (place.IsSensitive first ↔ place.IsSensitive second)

/-- The words before the place, and the beginning of the word that the place is in. -/
def wordsBefore (place : SecretPlace) : List (List Char) :=
  closedWords (blanked place.lead)

def wordBefore (place : SecretPlace) : List Char :=
  openWord (blanked place.lead)

/-- The word that the place is in is taken out as a token, or is cut at a `?` before the place. -/
def Covered (place : SecretPlace) : Prop :=
  endsPending place.wordsBefore = true ∨
    startsWithUrl place.wordBefore = true ∧ '?' ∈ place.wordBefore

/-- What is shown before the place. -/
def shownBefore (place : SecretPlace) : List Char :=
  (shownWords place.wordsBefore).flatMap (· ++ [' ']) ++ place.wordBefore

/-- The place is behind the end of what is shown. -/
def CutOff (place : SecretPlace) : Prop :=
  errorMessageLimitBytes ≤ byteLength place.shownBefore

end SecretPlace

/-! ### Words that are taken out -/

theorem redactBearerWords_append (front : List (List Char)) (word : List Char)
    (back : List (List Char)) : redactBearerWords (front ++ word :: back) =
      redactBearerWords front ++
        if endsPending front then "[redacted]".toList :: redactBearerWords back
        else redactBearerWords (word :: back) := by
  fun_induction endsPending front with
  | case1 => rfl
  | case2 first =>
    rw [List.cons_append, List.nil_append, redactBearerWords, redactBearerWords]
    split_ifs <;> rfl
  | case3 first next words isWord inductionHypothesis =>
    rw [List.cons_append, List.cons_append, redactBearerWords, redactBearerWords, if_pos isWord,
      if_pos isWord, inductionHypothesis]
    rfl
  | case4 first next words isWord inductionHypothesis =>
    rw [List.cons_append, List.cons_append, redactBearerWords, redactBearerWords, if_neg isWord,
      if_neg isWord, ← List.cons_append, inductionHypothesis]
    rfl

theorem redactBearerWords_cons (word : List Char) (words : List (List Char)) :
    ∃ later, redactBearerWords (word :: words) = word :: later := by
  cases words with
  | nil => exact ⟨[], rfl⟩
  | cons next words =>
    rw [redactBearerWords]
    split_ifs
    · exact ⟨_, rfl⟩
    · exact ⟨_, rfl⟩

theorem redactBearerWords_cons_of_not {word : List Char} (plain : isBearer word = false)
    (words : List (List Char)) :
    redactBearerWords (word :: words) = word :: redactBearerWords words := by
  cases words with
  | nil => rfl
  | cons next words => rw [redactBearerWords, plain, if_neg Bool.false_ne_true]

theorem not_isBearer_of_query {word : List Char} (query : '?' ∈ word) :
    isBearer word = false := by
  rw [isBearer, decide_eq_false_iff_not]
  intro same
  have lowered : '?' ∈ toAsciiLowercase word := List.mem_map.mpr ⟨'?', query, by decide⟩
  rw [same] at lowered
  revert lowered
  decide

/-- A URL that has its question mark is shown up to there. -/
theorem redactUrlWord_append {word : List Char} (url : startsWithUrl word = true)
    (query : '?' ∈ word) (rest : List Char) :
    redactUrlWord (word ++ rest) = redactUrlWord word := by
  have urlAppend : startsWithUrl (word ++ rest) = true := by
    rw [startsWithUrl, decide_eq_true_iff] at url ⊢
    exact url.imp (·.trans (List.prefix_append _ _)) (·.trans (List.prefix_append _ _))
  obtain ⟨base, tail, rfl, absent⟩ := List.eq_append_cons_of_mem query
  have split : splitOnce '?' (base ++ '?' :: tail) = some (base, tail) :=
    splitOnce_eq_some.mpr ⟨rfl, absent⟩
  have splitAppend : splitOnce '?' (base ++ '?' :: tail ++ rest) = some (base, tail ++ rest) :=
    splitOnce_eq_some.mpr ⟨by rw [List.append_assoc]; rfl, absent⟩
  rw [redactUrlWord, redactUrlWord, if_pos ⟨urlAppend, List.mem_append_left _ query⟩,
    if_pos ⟨url, query⟩, split, splitAppend]

theorem startsWithUrl_of_query {word rest : List Char} (query : '?' ∈ word)
    (url : startsWithUrl (word ++ rest) = true) : startsWithUrl word = true := by
  have within {scheme : List Char} (noQuery : '?' ∉ scheme) (starts : scheme <+: word ++ rest) :
      scheme <+: word :=
    (List.prefix_or_prefix_of_prefix starts (List.prefix_append word rest)).resolve_right
      fun shorter => noQuery (shorter.subset query)
  rw [startsWithUrl, decide_eq_true_iff] at url ⊢
  exact url.imp (within (by decide)) (within (by decide))

/-- Any other beginning of a word is shown. -/
theorem prefix_redactUrlWord {word : List Char}
    (shown : ¬ (startsWithUrl word = true ∧ '?' ∈ word)) (rest : List Char) :
    word <+: redactUrlWord (word ++ rest) := by
  rw [redactUrlWord]
  split_ifs with redacted
  · have noQuery : '?' ∉ word := fun query =>
      shown ⟨startsWithUrl_of_query query redacted.1, query⟩
    obtain ⟨base, tail, rfl, absent⟩ := List.eq_append_cons_of_mem
      ((List.mem_append.mp redacted.2).resolve_left noQuery)
    have split : splitOnce '?' (word ++ (base ++ '?' :: tail)) = some (word ++ base, tail) :=
      splitOnce_eq_some.mpr ⟨(List.append_assoc ..).symm,
        fun member => (List.mem_append.mp member).elim noQuery absent⟩
    rw [split]
    exact ⟨base ++ "?[redacted]".toList, (List.append_assoc ..).symm⟩
  · exact List.prefix_append _ _

/-! ### What is shown around a place -/

namespace SecretPlace

variable {place : SecretPlace} {secret : List Char}

theorem blanked_plain {text : List Char} (plain : ∀ char ∈ text, isBlank char = false) :
    blanked text = text := by
  refine (List.map_congr_left fun char member => ?_).trans (List.map_id _)
  have visible := plain char member
  rw [isBlank, Bool.or_eq_false_iff] at visible
  rw [visible.2]
  rfl

theorem isWhitespace_of_isBlank {char : Char} (visible : isBlank char = false) :
    isWhitespace char = false :=
  (Bool.or_eq_false_iff.mp visible).1

theorem query_mem_wordBefore (query : EndsInQuery place.lead) : '?' ∈ place.wordBefore := by
  obtain ⟨before, scheme, address, query, leadEq, _, _, _, plain⟩ := query
  have visible : ∀ char ∈ '?' :: query, isBlank char = false := by
    rw [List.forall_mem_cons]
    exact ⟨by decide, fun char member => (plain char member).1⟩
  rw [wordBefore, leadEq, blanked_append, blanked_plain visible, openWord_append]
  · exact List.mem_append_right _ List.mem_cons_self
  · exact fun char member => isWhitespace_of_isBlank (visible char member)

/-- The word that the place is in is there: in a query because of its question mark, and behind a
word bearer because of the secret. -/
theorem word_ne_nil (member : secret ∈ place.secrets) :
    place.wordBefore ++ secret ++ firstPart (blanked place.trail) ≠ [] := by
  rcases place.place with ⟨_, present⟩ | query
  · have something : secret ≠ [] := fun empty => present (empty ▸ member)
    simp [something]
  · exact List.ne_nil_of_mem (List.mem_append_left _
      (List.mem_append_left _ (query_mem_wordBefore query)))

/-- What is shown of the message with the secret unless the message is replaced, before it is
cut. -/
def shownText (place : SecretPlace) (secret : List Char) : List Char :=
  joined (shownWords (splitWhitespace (blanked (place.message secret).toList)))

/-- The secret is in one word, between the words before and behind the place. -/
theorem words_message (member : secret ∈ place.secrets) :
    splitWhitespace (blanked (place.message secret).toList) =
      place.wordsBefore ++ (place.wordBefore ++ secret ++ firstPart (blanked place.trail)) ::
        laterWords (blanked place.trail) := by
  have plain := place.plain secret member
  rw [message, String.toList_ofList, blanked_append, blanked_append, blanked_plain plain]
  exact splitWhitespace_around
    (fun char inSecret => isWhitespace_of_isBlank (plain char inSecret)) (word_ne_nil member)

/-- The text that is shown at a covered place is that of no secret. -/
theorem shownText_of_covered (covered : place.Covered) :
    ∃ text, ∀ secret ∈ place.secrets, place.shownText secret = text := by
  by_cases pending : endsPending place.wordsBefore = true
  · refine ⟨joined ((redactBearerWords place.wordsBefore ++ "[redacted]".toList ::
      redactBearerWords (laterWords (blanked place.trail))).map redactUrlWord),
      fun secret member => ?_⟩
    rw [shownText, words_message member, shownWords, redactBearerWords_append, if_pos pending]
  · obtain ⟨url, query⟩ := covered.resolve_left pending
    refine ⟨joined ((redactBearerWords place.wordsBefore).map redactUrlWord ++
      redactUrlWord place.wordBefore ::
        (redactBearerWords (laterWords (blanked place.trail))).map redactUrlWord),
      fun secret member => ?_⟩
    have notBearer : isBearer (place.wordBefore ++ secret ++ firstPart (blanked place.trail)) =
        false :=
      not_isBearer_of_query (List.mem_append_left _ (List.mem_append_left _ query))
    rw [shownText, words_message member, shownWords, redactBearerWords_append, if_neg pending,
      redactBearerWords_cons_of_not notBearer, List.map_append, List.map_cons, List.append_assoc,
      redactUrlWord_append url query]

/-- At another place what stands before it is shown, and the beginning of the secret too, as long
as that does not add a question mark to a URL. -/
theorem prefix_shownText (part rest : List Char) (member : part ++ rest ∈ place.secrets)
    (pending : endsPending place.wordsBefore = false)
    (shown : ¬ (startsWithUrl (place.wordBefore ++ part) = true ∧
      '?' ∈ place.wordBefore ++ part)) :
    place.shownBefore ++ part <+: place.shownText (part ++ rest) := by
  obtain ⟨later, redacted⟩ := redactBearerWords_cons
    (place.wordBefore ++ (part ++ rest) ++ firstPart (blanked place.trail))
    (laterWords (blanked place.trail))
  obtain ⟨tail, word⟩ := prefix_redactUrlWord shown (rest ++ firstPart (blanked place.trail))
  have split : place.wordBefore ++ (part ++ rest) ++ firstPart (blanked place.trail) =
      place.wordBefore ++ part ++ (rest ++ firstPart (blanked place.trail)) := by
    simp only [List.append_assoc]
  rw [shownText, words_message member, shownWords, redactBearerWords_append, pending,
    if_neg Bool.false_ne_true, redacted, List.map_append, List.map_cons, joined_append, split,
    ← word, shownBefore, shownWords, joined]
  refine ⟨tail ++ (later.map redactUrlWord).flatMap (' ' :: ·), ?_⟩
  simp only [List.append_assoc]

/-! ### When secrets are hidden -/

theorem isBlank_of_isAlpha {char : Char} (alpha : char.isAlpha = true) : isBlank char = false := by
  have alphanum : char.isAlphanum = true := by rw [Char.isAlphanum, alpha, Bool.true_or]
  have visible := Text.visible_of_isAlphanum alphanum
  rw [isBlank, Bool.or_eq_false_iff, isWhitespace, isControl, decide_eq_false_iff_not,
    decide_eq_false_iff_not]
  omega

/-- A letter before the place that the replacing message does not have. -/
theorem exists_letter (place : SecretPlace) :
    ∃ char ∈ place.lead, char.toLower = 'b' ∨ char.toLower = 'h' := by
  have first {word : List Char} {letter : Char} {rest : List Char}
      (same : toAsciiLowercase word = letter :: rest) : ∃ char ∈ word, char.toLower = letter := by
    cases word with
    | nil => cases same
    | cons char word => exact ⟨char, List.mem_cons_self, (List.cons.inj same).1⟩
  rcases place.place with ⟨⟨before, bearer, closing, gap, part, leadEq, _, isBearer, _⟩, _⟩ |
    ⟨before, scheme, address, query, leadEq, _, isScheme, _⟩
  · obtain ⟨char, member, letter⟩ := first isBearer
    exact ⟨char, by rw [leadEq]; simp [member], Or.inl letter⟩
  · obtain ⟨char, member, letter⟩ : ∃ char ∈ scheme, char.toLower = 'h' :=
      isScheme.elim (fun http => first http) fun https => first https
    exact ⟨char, by rw [leadEq]; simp [member], Or.inr letter⟩

theorem mem_redactUrlWord {char : Char} {word : List Char} (member : char ∈ word) :
    char ∈ redactUrlWord word ∨ '[' ∈ redactUrlWord word := by
  rw [redactUrlWord]
  split_ifs
  · right
    split <;> simp
  · exact Or.inl member

/-- A character of a word is shown unless something is taken out. -/
theorem mem_shownWords {char : Char} {word : List Char} {words : List (List Char)}
    (listed : word ∈ words) (member : char ∈ word) :
    char ∈ joined (shownWords words) ∨ '[' ∈ joined (shownWords words) := by
  rcases mem_redactBearerWords.2 listed with kept | redacted
  · exact (mem_redactUrlWord member).imp (mem_joined (List.mem_map_of_mem kept))
      (mem_joined (List.mem_map_of_mem kept))
  · have bracket : '[' ∈ redactUrlWord "[redacted]".toList := by decide
    exact Or.inr (mem_joined (List.mem_map_of_mem redacted) bracket)

/-- Of every message with a place for a secret something is shown that the replacing message does
not have. -/
theorem exists_shown (place : SecretPlace) (secret : List Char) :
    ∃ char ∈ place.shownText secret, char.toLower = 'b' ∨ char.toLower = 'h' ∨ char = '[' := by
  obtain ⟨char, member, letter⟩ := place.exists_letter
  have alpha : char.isAlpha = true := by
    rw [← Char.isAlpha_toLower_eq_isAlpha]
    rcases letter with isB | isH
    · rw [isB]
      rfl
    · rw [isH]
      rfl
  have visible := isBlank_of_isAlpha alpha
  have inBlanked : char ∈ blanked (place.message secret).toList := by
    rw [message, String.toList_ofList, blanked_append, blanked_append]
    refine List.mem_append_left _ (List.mem_append_left _ (List.mem_map.mpr ⟨char, member, ?_⟩))
    rw [(Bool.or_eq_false_iff.mp visible).2]
    rfl
  obtain ⟨word, listed, inWord⟩ := exists_word_of_mem inBlanked (isWhitespace_of_isBlank visible)
  rcases mem_shownWords listed inWord with shown | bracket
  · exact ⟨char, shown, letter.imp id Or.inl⟩
  · exact ⟨'[', bracket, Or.inr (Or.inr rfl)⟩

theorem fit_sensitiveMessage :
    fit errorMessageLimitBytes sensitiveMessage.toList = sensitiveMessage.toList :=
  fit_of_le (by decide)

theorem fit_shownText_ne (place : SecretPlace) (secret : List Char) :
    fit errorMessageLimitBytes (place.shownText secret) ≠ sensitiveMessage.toList := by
  intro same
  have short : byteLength sensitiveMessage.toList = 52 := by decide
  have whole : place.shownText secret = sensitiveMessage.toList := by
    rw [← same]
    refine (fit_of_le ?_).symm
    by_contra long
    have cut := lt_byteLength_fit (Nat.lt_of_not_le long)
    rw [same, short] at cut
    exact absurd cut (by decide)
  have letters : sensitiveMessage.toList.all (fun char =>
      ¬ (char.toLower = 'b' ∨ char.toLower = 'h' ∨ char = '[')) = true := by decide
  obtain ⟨char, member, letter⟩ := place.exists_shown secret
  exact of_decide_eq_true (List.all_eq_true.mp letters char (whole ▸ member)) letter

theorem sanitizedText_of_sensitive (sensitive : place.IsSensitive secret) :
    sanitizedText (place.message secret).toList = sensitiveMessage.toList :=
  if_pos sensitive

theorem sanitizedText_of_not_sensitive (notSensitive : ¬ place.IsSensitive secret) :
    sanitizedText (place.message secret).toList = place.shownText secret :=
  if_neg notSensitive

theorem fit_sanitizedText_ne_nil (place : SecretPlace) (secret : List Char) :
    fit errorMessageLimitBytes (sanitizedText (place.message secret).toList) ≠ [] := by
  refine fit_ne_nil ?_ (by decide)
  by_cases sensitive : place.IsSensitive secret
  · rw [sanitizedText_of_sensitive sensitive]
    decide
  · obtain ⟨char, member, _⟩ := place.exists_shown secret
    rw [sanitizedText_of_not_sensitive sensitive]
    exact List.ne_nil_of_mem member

theorem sanitize_eq_iff (place : SecretPlace) (first second : List Char) :
    sanitizeConnectorErrorMessage (place.message first) =
        sanitizeConnectorErrorMessage (place.message second) ↔
      fit errorMessageLimitBytes (sanitizedText (place.message first).toList) =
        fit errorMessageLimitBytes (sanitizedText (place.message second).toList) := by
  rw [sanitizeConnectorErrorMessage_eq, sanitizeConnectorErrorMessage_eq,
    if_neg (place.fit_sanitizedText_ne_nil first), if_neg (place.fit_sanitizedText_ne_nil second),
    Except.ok.injEq, String.ofList_inj]

theorem undecided_of_hidden (hidden : place.Hidden) : place.Undecided := by
  have carries : ∀ first ∈ place.secrets, ∀ second ∈ place.secrets,
      place.IsSensitive first → place.IsSensitive second := by
    intro first memberFirst second memberSecond sensitive
    by_contra notSensitive
    have same := (place.sanitize_eq_iff first second).mp
      (hidden first memberFirst second memberSecond)
    rw [sanitizedText_of_sensitive sensitive, sanitizedText_of_not_sensitive notSensitive,
      fit_sensitiveMessage] at same
    exact place.fit_shownText_ne second same.symm
  exact fun first memberFirst second memberSecond =>
    ⟨carries first memberFirst second memberSecond, carries second memberSecond first memberFirst⟩

/-- At a place that is neither covered nor cut off a letter is shown as it is. -/
theorem letter_shown {letter : Char} (member : [letter] ∈ place.secrets) (noQuery : letter ≠ '?')
    (ascii : letter.utf8Size = 1) (uncovered : ¬ place.Covered) (inside : ¬ place.CutOff) :
    ∃ tail, fit errorMessageLimitBytes (place.shownText [letter]) =
      place.shownBefore ++ letter :: tail := by
  rw [Covered, not_or, Bool.not_eq_true] at uncovered
  have shown : ¬ (startsWithUrl (place.wordBefore ++ [letter]) = true ∧
      '?' ∈ place.wordBefore ++ [letter]) := by
    rintro ⟨url, query⟩
    have inWord : '?' ∈ place.wordBefore := (List.mem_append.mp query).resolve_right
      fun isLetter => noQuery (List.mem_singleton.mp isLetter).symm
    exact uncovered.2 ⟨startsWithUrl_of_query inWord url, inWord⟩
  obtain ⟨tail, split⟩ := prefix_shownText [letter] [] member uncovered.1 shown
  have room : byteLength (place.shownBefore ++ [letter]) ≤ errorMessageLimitBytes := by
    rw [byteLength_append, byteLength_cons, byteLength_nil, ascii]
    exact Nat.lt_of_not_le inside
  rw [List.append_nil] at split
  rw [← split, fit_append room, List.append_assoc]
  exact ⟨_, rfl⟩

/-- What is shown is cut before the secret. -/
theorem fit_shownText_of_cutOff (uncovered : ¬ place.Covered) (cutOff : place.CutOff)
    (member : secret ∈ place.secrets) :
    fit errorMessageLimitBytes (place.shownText secret) =
      fit errorMessageLimitBytes place.shownBefore := by
  rw [Covered, not_or, Bool.not_eq_true] at uncovered
  have shown : ¬ (startsWithUrl (place.wordBefore ++ []) = true ∧
      '?' ∈ place.wordBefore ++ []) := by
    rw [List.append_nil]
    exact uncovered.2
  obtain ⟨tail, split⟩ := prefix_shownText [] secret member uncovered.1 shown
  rw [List.append_nil, List.nil_append] at split
  rw [← split, fit_append_of_le cutOff]

theorem hidden_iff (place : SecretPlace) :
    place.Hidden ↔ place.Undecided ∧
      (place.Covered ∨ (∀ secret ∈ place.secrets, place.IsSensitive secret) ∨ place.CutOff) := by
  constructor
  · intro hidden
    have undecided := undecided_of_hidden hidden
    refine ⟨undecided, ?_⟩
    by_contra uncovered
    rw [not_or, not_or] at uncovered
    obtain ⟨uncovered, sometimes, inside⟩ := uncovered
    have never (secret : List Char) (member : secret ∈ place.secrets) :
        ¬ place.IsSensitive secret := fun sensitive =>
      sometimes fun other memberOther => (undecided secret member other memberOther).mp sensitive
    obtain ⟨tailOne, one⟩ := letter_shown place.one (by decide) (by decide) uncovered inside
    obtain ⟨tailOther, other⟩ := letter_shown place.other (by decide) (by decide) uncovered inside
    have same := (place.sanitize_eq_iff _ _).mp (hidden _ place.one _ place.other)
    rw [sanitizedText_of_not_sensitive (never _ place.one),
      sanitizedText_of_not_sensitive (never _ place.other), one, other,
      List.append_right_inj] at same
    exact absurd (List.cons.inj same).1 (by decide)
  · rintro ⟨undecided, settled⟩ first memberFirst second memberSecond
    rw [sanitize_eq_iff]
    by_cases sensitive : place.IsSensitive first
    · rw [sanitizedText_of_sensitive sensitive, sanitizedText_of_sensitive
        ((undecided first memberFirst second memberSecond).mp sensitive)]
    · rw [sanitizedText_of_not_sensitive sensitive, sanitizedText_of_not_sensitive
        fun other => sensitive ((undecided first memberFirst second memberSecond).mpr other)]
      by_cases covered : place.Covered
      · obtain ⟨text, shown⟩ := shownText_of_covered covered
        rw [shown first memberFirst, shown second memberSecond]
      · have cutOff : place.CutOff :=
          (settled.resolve_left covered).resolve_left fun always =>
            sensitive (always first memberFirst)
        rw [fit_shownText_of_cutOff covered cutOff memberFirst,
          fit_shownText_of_cutOff covered cutOff memberSecond]

end SecretPlace

/-- Secrets at a place are hidden exactly if none of them decides whether the message is replaced,
and the place is taken out, or the message always replaced, or cut before the place; and what is
shown of any message is a text of 1 to 512 bytes without control characters. -/
theorem secrets_hidden_iff (place : SecretPlace) (raw : String) :
    (place.Hidden ↔ place.Undecided ∧
      (place.Covered ∨ (∀ secret ∈ place.secrets, place.IsSensitive secret) ∨ place.CutOff)) ∧
    ∃ shown, sanitizeConnectorErrorMessage raw = .ok shown ∧ shown ≠ "" ∧
      byteLength shown.toList ≤ errorMessageLimitBytes ∧
      ∀ char ∈ shown.toList, isControl char = false :=
  ⟨place.hidden_iff, sanitizeConnectorErrorMessage_ok raw⟩

/-- The query of a URL in quotes. -/
def quotedQuery : SecretPlace where
  lead := "GET \"https://idp.test/me?key=".toList
  trail := "\" failed".toList
  secrets := {secret | ∀ char ∈ secret, isBlank char = false}
  one := by simp [isBlank, isWhitespace, isControl]
  other := by simp [isBlank, isWhitespace, isControl]
  plain := fun _ member => member
  place := Or.inr ⟨"GET \"".toList, "https".toList, "idp.test/me".toList, "key=".toList, by decide,
    by simp [EndsInBoundary, isEnclosure], Or.inr rfl,
    by simp [isBlank, isWhitespace, isControl], by simp [isBlank, isWhitespace, isControl]⟩

theorem quoted_query_is_shown :
    sanitizeConnectorErrorMessage (quotedQuery.message ['a']) =
        .ok "GET \"https://idp.test/me?key=a\" failed" ∧
      sanitizeConnectorErrorMessage (quotedQuery.message ['b']) =
        .ok "GET \"https://idp.test/me?key=b\" failed" ∧
      ¬ quotedQuery.Hidden := by
  have one : sanitizeConnectorErrorMessage (quotedQuery.message ['a']) =
      .ok "GET \"https://idp.test/me?key=a\" failed" := by
    decide +kernel
  have other : sanitizeConnectorErrorMessage (quotedQuery.message ['b']) =
      .ok "GET \"https://idp.test/me?key=b\" failed" := by
    decide +kernel
  refine ⟨one, other, fun hidden => ?_⟩
  have same := hidden _ quotedQuery.one _ quotedQuery.other
  rw [one, other] at same
  revert same
  decide

end Layerhouse
