/-
This file compares `validate_repository_name` of `routes/dashboard_api.rs` with the grammar
of repository names: components separated by slashes, each of them
`[a-z0-9]+(?:(?:[._]|__|[-]*)[a-z0-9]+)*`.

The validator walks the bytes of a component and checks the run of other bytes that it has
collected whenever it comes to a letter or a digit. A character that is neither is encoded in
bytes that are neither, so the walk can be followed character by character. What it accepts
behind a letter or a digit is then the rest of a word, followed by separators with a word
behind each.
-/

import Layerhouse.Library.Grammars
import Layerhouse.Routes.RepositoryEdits

namespace Layerhouse

open Grammar

/-! ### The grammar -/

def nameAlnums : List Char := "abcdefghijklmnopqrstuvwxyz0123456789".toList

/-- `[a-z0-9]+` -/
def nameWord : RegularExpression Char :=
  oneOrMore (anyOf nameAlnums)

/-- `(?:[._]|__|[-]*)` -/
def nameSeparator : RegularExpression Char :=
  anyOf ['.', '_'] + .char '_' * .char '_' + (anyOf ['-']).star

def nameComponent : RegularExpression Char :=
  nameWord * (nameSeparator * nameWord).star

def repositoryName : RegularExpression Char :=
  separated '/' nameComponent

/-! ### Characters and their bytes -/

/-- The letters and digits among the characters of one byte. -/
theorem mem_nameAlnums_iff {byte : UInt8} (ascii : byte < 0x80) :
    Char.ofNat byte.toNat ∈ nameAlnums ↔ isNameAlnum byte = true := by
  have table : ∀ number ∈ List.range 128,
      Char.ofNat number ∈ nameAlnums ↔ isNameAlnum (UInt8.ofNat number) = true := by
    decide +kernel
  have known := table byte.toNat (List.mem_range.mpr ascii)
  rwa [UInt8.ofNat_toNat] at known

theorem isNameAlnum_ascii {byte : UInt8} (alnum : isNameAlnum byte = true) : byte < 0x80 := by
  rw [isNameAlnum, Bool.or_eq_true, isAsciiLowercase, isAsciiDigit, decide_eq_true_eq,
    decide_eq_true_eq] at alnum
  rcases alnum with ⟨_, small⟩ | ⟨_, small⟩
  · exact UInt8.lt_of_le_of_lt small (by decide)
  · exact UInt8.lt_of_le_of_lt small (by decide)

/-- A character below 128 stands for a byte. -/
theorem exists_byte_of_small {char : Char} (small : char.toNat < 128) :
    ∃ byte : UInt8, byte < 0x80 ∧ char = Char.ofNat byte.toNat := by
  have same : (UInt8.ofNat char.toNat).toNat = char.toNat :=
    UInt8.toNat_ofNat_of_lt (small.trans (by decide))
  refine ⟨UInt8.ofNat char.toNat, ?_, ?_⟩
  · rw [UInt8.lt_iff_toNat_lt, same]
    exact small
  · rw [same, Char.ofNat_toNat]

/-- A letter or digit is one byte, which is one. -/
theorem alnum_byte {char : Char} (alnum : char ∈ nameAlnums) :
    ∃ byte, isNameAlnum byte = true ∧ String.utf8EncodeChar char = [byte] := by
  have table : nameAlnums.all (·.toNat < 128) = true := by decide
  have small : char.toNat < 128 := of_decide_eq_true (List.all_eq_true.mp table char alnum)
  obtain ⟨byte, ascii, rfl⟩ := exists_byte_of_small small
  exact ⟨byte, (mem_nameAlnums_iff ascii).mp alnum, Text.utf8EncodeChar_ascii ascii⟩

/-- No byte of any other character is a letter or digit. -/
theorem separator_bytes {char : Char} (separator : char ∉ nameAlnums) {byte : UInt8}
    (member : byte ∈ String.utf8EncodeChar char) : isNameAlnum byte = false := by
  rw [Bool.eq_false_iff]
  intro alnum
  rcases Text.utf8EncodeChar_cases char with ⟨single, ascii, encoded⟩ | large
  · rw [encoded, List.mem_singleton] at member
    rw [Text.eq_of_utf8EncodeChar ascii encoded, ← member] at separator
    exact separator ((mem_nameAlnums_iff (isNameAlnum_ascii alnum)).mpr alnum)
  · exact large byte member (isNameAlnum_ascii alnum)

theorem any_head_utf8 (char : Char) (text : List Char) :
    (Text.utf8 (char :: text)).head?.any isNameAlnum = true ↔ char ∈ nameAlnums := by
  obtain ⟨first, others, encoded⟩ :=
    List.exists_cons_of_ne_nil (@String.utf8EncodeChar_ne_nil char)
  rw [Text.utf8_cons, encoded, List.cons_append, List.head?_cons, Option.any_some]
  by_cases alnum : char ∈ nameAlnums
  · obtain ⟨byte, known, single⟩ := alnum_byte alnum
    rw [encoded, List.cons.injEq] at single
    rw [single.1]
    exact iff_of_true known alnum
  · have kept := separator_bytes alnum (encoded ▸ List.mem_cons_self)
    exact iff_of_false (Bool.eq_false_iff.mp kept) alnum

theorem any_last_utf8 (text : List Char) (char : Char) :
    (Text.utf8 (text ++ [char])).getLast?.any isNameAlnum = true ↔ char ∈ nameAlnums := by
  have present := @String.utf8EncodeChar_ne_nil char
  rw [Text.utf8_concat, List.getLast?_append_of_ne_nil _ present,
    List.getLast?_eq_some_getLast present, Option.any_some]
  by_cases alnum : char ∈ nameAlnums
  · obtain ⟨byte, known, single⟩ := alnum_byte alnum
    simp only [single, List.getLast_singleton]
    exact iff_of_true known alnum
  · have kept := separator_bytes alnum (List.getLast_mem present)
    exact iff_of_false (Bool.eq_false_iff.mp kept) alnum

/-! ### Separators -/

theorem mem_nameSeparator {text : List Char} :
    text ∈ nameSeparator.matches' ↔
      text = ['.'] ∨ text = ['_'] ∨ text = ['_', '_'] ∨ ∀ char ∈ text, char = '-' := by
  have doubled : text ∈ (RegularExpression.char '_' * RegularExpression.char '_').matches' ↔
      text = ['_', '_'] := by
    rw [RegularExpression.matches'_mul, Language.mem_mul]
    constructor
    · rintro ⟨first, inFirst, second, inSecond, rfl⟩
      rw [mem_char.mp inFirst, mem_char.mp inSecond]
      rfl
    · rintro rfl
      exact ⟨['_'], mem_char.mpr rfl, ['_'], mem_char.mpr rfl, rfl⟩
  rw [nameSeparator, RegularExpression.matches'_add, RegularExpression.matches'_add,
    Language.mem_add, Language.mem_add, mem_anyOf, mem_star_anyOf, doubled,
    List.exists_mem_cons_iff, List.exists_mem_cons_iff, or_assoc, or_assoc, or_assoc]
  simp only [List.not_mem_nil, false_and, exists_false, false_or, List.mem_singleton]

theorem all_dashes (char : Char) :
    (String.utf8EncodeChar char).all (· = 0x2D) = true ↔ char = '-' := by
  rw [List.all_eq_true]
  constructor
  · intro all
    rcases Text.utf8EncodeChar_cases char with ⟨byte, ascii, encoded⟩ | large
    · rw [encoded, List.forall_mem_singleton, decide_eq_true_eq] at all
      rw [Text.eq_of_utf8EncodeChar ascii encoded, all]
      rfl
    · obtain ⟨byte, member⟩ :=
        List.exists_mem_of_ne_nil _ (@String.utf8EncodeChar_ne_nil char)
      have dash := of_decide_eq_true (all byte member)
      exact absurd (by rw [dash]; decide) (large byte member)
  · rintro rfl
    have encoded : String.utf8EncodeChar '-' = [0x2D] :=
      Text.utf8EncodeChar_ascii (by decide : (0x2D : UInt8) < 0x80)
    rw [encoded, List.forall_mem_singleton]
    exact decide_eq_true rfl

theorem isSeparatorRun_iff {separators : List Char} :
    isSeparatorRun (Text.utf8 separators) = true ↔ separators ∈ nameSeparator.matches' := by
  have spells : ∀ {known : List Char} {bytes : List UInt8}, Text.utf8 known = bytes →
      (Text.utf8 separators = bytes ↔ separators = known) := by
    rintro known bytes rfl
    exact ⟨Text.utf8_inj, congrArg Text.utf8⟩
  rw [mem_nameSeparator, isSeparatorRun, Bool.or_eq_true, Bool.or_eq_true, Bool.or_eq_true,
    decide_eq_true_eq, decide_eq_true_eq, decide_eq_true_eq, or_assoc, or_assoc]
  refine or_congr (spells (by decide)) (or_congr (spells (by decide))
    (or_congr (spells (by decide)) ?_))
  rw [Text.utf8, List.all_flatMap, List.all_eq_true]
  exact forall₂_congr fun char _ => all_dashes char

/-! ### The walk over a component -/

/-- The walk collects the bytes of a separator. -/
theorem separatorRunsValid_separators {collected : List UInt8} {bytes rest : List UInt8}
    (separators : ∀ byte ∈ bytes, isNameAlnum byte = false) :
    separatorRunsValid collected (bytes ++ rest) =
      separatorRunsValid (collected ++ bytes) rest := by
  induction bytes generalizing collected with
  | nil => rw [List.nil_append, List.append_nil]
  | cons byte others inductionHypothesis =>
    obtain ⟨first, later⟩ := List.forall_mem_cons.mp separators
    rw [List.cons_append, separatorRunsValid, if_neg (Bool.eq_false_iff.mp first),
      inductionHypothesis later, List.append_assoc]
    rfl

theorem separatorRunsValid_alnum {collected : List UInt8} {char : Char} {rest : List Char}
    (alnum : char ∈ nameAlnums) :
    separatorRunsValid collected (Text.utf8 (char :: rest)) =
      (isSeparatorRun collected && separatorRunsValid [] (Text.utf8 rest)) := by
  obtain ⟨byte, known, encoded⟩ := alnum_byte alnum
  rw [Text.utf8_cons, encoded, List.singleton_append, separatorRunsValid, if_pos known]

/-- What may follow a letter or digit. -/
def nameTail : RegularExpression Char :=
  (nameSeparator * nameWord).star

def EndsPlain (text : List Char) : Prop :=
  ∀ char ∈ text.getLast?, char ∈ nameAlnums

theorem EndsPlain.append {first second : List Char} (ofFirst : EndsPlain first)
    (ofSecond : EndsPlain second) : EndsPlain (first ++ second) := by
  intro char last
  rw [Option.mem_def, List.getLast?_append, Option.or_eq_some_iff] at last
  rcases last with inSecond | ⟨_, inFirst⟩
  · exact ofSecond char inSecond
  · exact ofFirst char inFirst

theorem EndsPlain.behind {first second : List Char} (present : second ≠ [])
    (ofSecond : EndsPlain second) : EndsPlain (first ++ second) := by
  rwa [EndsPlain, List.getLast?_append_of_ne_nil _ present]

theorem EndsPlain.of_append {first second : List Char} (ends : EndsPlain (first ++ second)) :
    EndsPlain second := by
  intro char last
  exact ends char (List.mem_getLast?_append_of_mem_getLast? last)

theorem nameTail_of_valid {collected text : List Char} (ends : EndsPlain (collected ++ text))
    (separators : ∀ char ∈ collected, char ∉ nameAlnums)
    (valid : separatorRunsValid (Text.utf8 collected) (Text.utf8 text) = true) :
    collected ++ text ∈ nameTail.matches' := by
  induction text generalizing collected with
  | nil =>
    rw [List.append_nil] at ends ⊢
    rcases List.eq_nil_or_concat' collected with rfl | ⟨front, last, rfl⟩
    · exact Language.nil_mem_kstar _
    · have plain := ends last List.getLast?_concat
      exact absurd plain (separators last (List.mem_append_right front List.mem_cons_self))
  | cons char rest inductionHypothesis =>
    by_cases alnum : char ∈ nameAlnums
    · rw [separatorRunsValid_alnum alnum, Bool.and_eq_true, isSeparatorRun_iff] at valid
      have word : [char] ∈ nameWord.matches' :=
        mem_oneOrMore_anyOf.mpr ⟨List.cons_ne_nil _ _, List.forall_mem_singleton.mpr alnum⟩
      rw [List.append_cons] at ends ⊢
      have later : rest ∈ nameTail.matches' :=
        @inductionHypothesis [] ends.of_append (List.forall_mem_nil _) valid.2
      exact append_mem_kstar (Language.append_mem_mul valid.1 word) later
    · rw [Text.utf8_cons, separatorRunsValid_separators fun byte => separator_bytes alnum,
        ← Text.utf8_concat] at valid
      rw [List.append_cons] at ends ⊢
      refine inductionHypothesis ends (fun other member => ?_) valid
      rcases List.mem_append.mp member with inCollected | isChar
      · exact separators other inCollected
      · rwa [List.mem_singleton.mp isChar]

/-- The walk passes over a word. -/
theorem separatorRunsValid_word {word rest : List Char}
    (alnums : ∀ char ∈ word, char ∈ nameAlnums) :
    separatorRunsValid [] (Text.utf8 (word ++ rest)) = separatorRunsValid [] (Text.utf8 rest) := by
  induction word with
  | nil => rfl
  | cons char word inductionHypothesis =>
    obtain ⟨first, later⟩ := List.forall_mem_cons.mp alnums
    rw [List.cons_append, separatorRunsValid_alnum first, inductionHypothesis later]
    rfl

theorem separator_of_mem {separators : List Char} (separator : separators ∈ nameSeparator.matches')
    {char : Char} (member : char ∈ separators) : char ∉ nameAlnums := by
  have table : ['.', '_', '_', '_', '-'].all (fun known => known ∉ nameAlnums) = true := by decide
  exact of_decide_eq_true (List.all_eq_true.mp table char (mem_symbols separator member))

/-- The walk passes over a separator and the word behind it. -/
theorem separatorRunsValid_piece {piece rest : List Char}
    (inForm : piece ∈ (nameSeparator * nameWord).matches') :
    separatorRunsValid [] (Text.utf8 (piece ++ rest)) = separatorRunsValid [] (Text.utf8 rest) := by
  obtain ⟨separators, separator, word, inWord, rfl⟩ := Language.mem_mul.mp inForm
  obtain ⟨present, alnums⟩ := mem_oneOrMore_anyOf.mp inWord
  obtain ⟨char, word, rfl⟩ := List.exists_cons_of_ne_nil present
  obtain ⟨first, later⟩ := List.forall_mem_cons.mp alnums
  have collects : ∀ byte ∈ Text.utf8 separators, isNameAlnum byte = false := by
    intro byte member
    obtain ⟨known, inSeparators, inChar⟩ := List.mem_flatMap.mp member
    exact separator_bytes (separator_of_mem separator inSeparators) inChar
  rw [List.append_assoc, Text.utf8_append, separatorRunsValid_separators collects, List.nil_append,
    List.cons_append, separatorRunsValid_alnum first, isSeparatorRun_iff.mpr separator,
    separatorRunsValid_word later]
  rfl

theorem endsPlain_of_nameWord {word : List Char} (inWord : word ∈ nameWord.matches') :
    EndsPlain word :=
  fun char last => (mem_oneOrMore_anyOf.mp inWord).2 char (List.mem_of_mem_getLast? last)

theorem valid_of_nameTail {text : List Char} (inTail : text ∈ nameTail.matches') :
    separatorRunsValid [] (Text.utf8 text) = true ∧ EndsPlain text := by
  obtain ⟨pieces, rfl, all⟩ := Language.mem_kstar.mp inTail
  induction pieces with
  | nil => exact ⟨rfl, nofun⟩
  | cons piece pieces inductionHypothesis =>
    obtain ⟨first, later⟩ := List.forall_mem_cons.mp all
    obtain ⟨valid, ends⟩ :=
      inductionHypothesis later (Language.join_mem_kstar later)
    rw [List.flatten_cons, separatorRunsValid_piece first]
    refine ⟨valid, EndsPlain.append ?_ ends⟩
    obtain ⟨separators, _, word, inWord, rfl⟩ := Language.mem_mul.mp first
    exact EndsPlain.behind (mem_oneOrMore_anyOf.mp inWord).1 (endsPlain_of_nameWord inWord)

/-! ### Components -/

theorem any_last_iff {text : List Char} (present : text ≠ []) :
    (Text.utf8 text).getLast?.any isNameAlnum = true ↔ EndsPlain text := by
  obtain ⟨front, last, rfl⟩ := List.eq_nil_or_concat' text |>.resolve_left present
  rw [any_last_utf8, EndsPlain, List.getLast?_concat]
  exact ⟨fun alnum char same => Option.some.inj same ▸ alnum, fun ends => ends last rfl⟩

theorem isValidNameComponent_iff {component : String} :
    isValidNameComponent component = true ↔ component.toList ∈ nameComponent.matches' := by
  rw [isValidNameComponent, Bool.and_eq_true, Bool.and_eq_true, nameComponent,
    RegularExpression.matches'_mul, Language.mem_mul]
  constructor
  · rintro ⟨⟨starts, ends⟩, valid⟩
    cases text : component.toList with
    | nil => exact nomatch text ▸ starts
    | cons char rest =>
      rw [text] at starts ends valid
      have alnum := (any_head_utf8 char rest).mp starts
      rw [any_last_iff (List.cons_ne_nil char rest)] at ends
      rw [separatorRunsValid_alnum alnum, Bool.and_eq_true] at valid
      have tail : [] ++ rest ∈ nameTail.matches' :=
        nameTail_of_valid (@EndsPlain.of_append [char] rest ends) (List.forall_mem_nil _) valid.2
      exact ⟨[char], mem_oneOrMore_anyOf.mpr ⟨List.cons_ne_nil _ _,
        List.forall_mem_singleton.mpr alnum⟩, rest, tail, rfl⟩
  · rintro ⟨word, inWord, rest, inTail, spelled⟩
    obtain ⟨present, alnums⟩ := mem_oneOrMore_anyOf.mp inWord
    obtain ⟨valid, ends⟩ := valid_of_nameTail inTail
    rw [← spelled, separatorRunsValid_word alnums,
      any_last_iff (List.append_ne_nil_of_left_ne_nil present rest)]
    refine ⟨⟨?_, (endsPlain_of_nameWord inWord).append ends⟩, valid⟩
    obtain ⟨char, others, rfl⟩ := List.exists_cons_of_ne_nil present
    exact (any_head_utf8 char _).mpr (alnums char List.mem_cons_self)

theorem slash_notMem_component {word : List Char} (inForm : word ∈ nameComponent.matches') :
    '/' ∉ word := by
  have absent : '/' ∉ symbols nameComponent := by decide
  exact fun member => absent (mem_symbols inForm member)

/-- Name validation accepts the grammar of names, up to 255 bytes. -/
theorem repository_name_valid_iff (name : String) :
    validateRepositoryName name = .ok () ↔
      (Text.utf8 name.toList).length ≤ 255 ∧ name.toList ∈ repositoryName.matches' := by
  have parts : (∀ part ∈ name.toList.splitOn '/', part ∈ nameComponent.matches') ↔
      (pathSegments name).find? (fun component => !isValidNameComponent component) = none := by
    rw [List.find?_eq_none, pathSegments, List.forall_mem_map]
    refine forall₂_congr fun part _ => ?_
    rw [Bool.not_eq_true', Bool.not_eq_false, isValidNameComponent_iff, String.toList_ofList]
  rw [repositoryName, mem_separated fun word => slash_notMem_component, parts,
    validateRepositoryName]
  split
  · rename_i empty
    have refused : ¬ isValidNameComponent "" = true := by decide
    rw [String.isEmpty_iff.mp empty]
    exact iff_of_false nofun fun known => by
      rw [List.find?_eq_none] at known
      exact refused (by simpa using known.2 "" List.mem_cons_self)
  · split
    · rename_i long
      exact iff_of_false nofun fun fits => Nat.not_le.mpr long fits.1
    · rename_i fits
      cases (pathSegments name).find? fun component => !isValidNameComponent component with
      | none => exact iff_of_true rfl ⟨Nat.not_lt.mp fits, rfl⟩
      | some component => exact iff_of_false nofun fun known => nomatch known.2

end Layerhouse
