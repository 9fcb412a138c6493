/-
This file compares the repository that a request is authorized for with the one it
is dispatched to. Both are what stands in front of the deciding marker of the tail:
six markers are tried in the same order, each from the right. But the middleware
cuts the tail as it was sent and decodes the name, and the dispatcher cuts the tail
after decoding, without its trailing slashes.

The middleware's name is the one of the dispatcher only if the text in front of the
cut decodes to it and holds no escape that only the server's own decoder reads. That
this decoder does not fall back to the undecoded text takes an argument: what it
reads in addition stands for bytes below 128, which do not change what is valid.
-/

import Layerhouse.Routes.Paths

namespace Layerhouse

/-! ### The deciding marker -/

/-- The part of a tail in front of the marker that decides its route. -/
def repositoryPart (tail : String) : Option String :=
  ((splitAtLast tail "/blobs/uploads/").map (·.1)).or <|
  (stripSuffix tail "/blobs/uploads").or <|
  ((splitAtLast tail "/manifests/").map (·.1)).or <|
  (stripSuffix tail "/tags/list").or <|
  ((splitAtLast tail "/referrers/").map (·.1)).or <|
  (splitAtLast tail "/blobs/").map (·.1)

theorem dispatch_name (path : String) :
    (dispatch path).map Route.name = repositoryPart (trimEndSlashes path) := by
  simp only [dispatch, repositoryPart, Option.map_or, Option.map_map, Function.comp_def,
    Route.name, Option.map_id']

theorem extractRepositoryFromPath_eq (rest : String) :
    extractRepositoryFromPath ("/v2/" ++ rest) =
      percentDecode ((repositoryPart rest).getD "") := by
  have stripped : Text.stripPrefix "/v2/".toList ("/v2/" ++ rest).toList = some rest.toList :=
    Text.stripPrefix_eq_some.mpr String.toList_append
  have filtered : ∀ part : Option String,
      (part.filter fun name => name ≠ "").getD "" = part.getD "" := by
    rintro (_ | name)
    · rfl
    · by_cases empty : name = ""
      · subst empty
        rfl
      · rw [Option.filter_some, if_pos (by simpa using empty)]
  rw [extractRepositoryFromPath, stripped]
  simp only [Option.map_some, Option.bind_some, String.ofList_toList]
  exact congrArg percentDecode (filtered (repositoryPart rest))

theorem splitAtLast_leads {tail needle name : String} {more : List Char}
    (slash : needle.toList = '/' :: more)
    (found : (splitAtLast tail needle).map (·.1) = some name) :
    ∃ after, tail.toList = name.toList ++ '/' :: after := by
  rw [splitAtLast, Option.map_map, Option.map_eq_some_iff] at found
  obtain ⟨halves, split, rfl⟩ := found
  obtain ⟨textEq, _⟩ := Text.rsplitOnce_eq_some.mp split
  refine ⟨more ++ halves.2, ?_⟩
  rw [textEq, slash]
  simp

theorem stripSuffix_leads {tail trail name : String} {more : List Char}
    (slash : trail.toList = '/' :: more) (found : stripSuffix tail trail = some name) :
    ∃ after, tail.toList = name.toList ++ '/' :: after := by
  rw [stripSuffix, Option.map_eq_some_iff] at found
  obtain ⟨part, stripped, rfl⟩ := found
  refine ⟨more, ?_⟩
  rw [Text.stripSuffix_eq_some.mp stripped, slash]
  simp

/-- The deciding marker starts with a slash. -/
theorem repositoryPart_leads {tail name : String} (found : repositoryPart tail = some name) :
    ∃ after, tail.toList = name.toList ++ '/' :: after := by
  simp only [repositoryPart, Option.or_eq_some_iff] at found
  obtain found | ⟨_, found | ⟨_, found | ⟨_, found | ⟨_, found | ⟨_, found⟩⟩⟩⟩⟩ := found
  · exact splitAtLast_leads rfl found
  · exact stripSuffix_leads rfl found
  · exact splitAtLast_leads rfl found
  · exact stripSuffix_leads rfl found
  · exact splitAtLast_leads rfl found
  · exact splitAtLast_leads rfl found

/-! ### The two decoders -/

/-- The name in front of the deciding marker of the tail as it was sent. -/
def rawName (rest : String) : String :=
  (repositoryPart rest).getD ""

/-- A byte that is read as a digit is below 128, and so is the digit. -/
theorem hexValue_lt {byte digit : UInt8} (read : hexValue byte = some digit) :
    byte < 0x80 ∧ digit < 16 := by
  have small : ∀ byte, (hexValue byte).all (fun digit => byte < 0x80 ∧ digit < 16) = true := by
    decide +kernel
  have both := small byte
  rw [read, Option.all_some, decide_eq_true_eq] at both
  exact both

theorem hexValue_percent : hexValue 0x25 = none := by decide

theorem hexValue_plus : hexValue 0x2B = none := by decide

theorem hexValue_slash : hexValue 0x2F = none := by decide

theorem ne_of_hexValue {byte digit other : UInt8} (unread : hexValue other = none)
    (read : hexValue byte = some digit) : byte ≠ other := by
  rintro rfl
  exact absurd (unread.symm.trans read) nofun

theorem hexPair_eq_some {high low byte : UInt8} (read : hexPair high low = some byte) :
    (∃ digit, hexValue high = some digit) ∧ ∃ digit, hexValue low = some digit := by
  rw [hexPair] at read
  split at read
  · rename_i highDigit lowDigit highRead lowRead
    exact ⟨⟨highDigit, highRead⟩, lowDigit, lowRead⟩
  · exact nomatch read

theorem fromStrRadix_of_ne {high : UInt8} (other : high ≠ 0x2B) (low : UInt8) :
    fromStrRadix high low = hexPair high low :=
  if_neg other

theorem hexPair_slash_left (low : UInt8) : hexPair 0x2F low = none := by
  rw [hexPair, hexValue_slash]

theorem hexPair_slash_right (high : UInt8) : hexPair high 0x2F = none := by
  rw [hexPair, hexValue_slash]
  cases hexValue high <;> rfl

/-- Only a plus sign in place of the first digit is read in addition. -/
theorem eq_plus_of_fromStrRadix {high low byte : UInt8} (read : fromStrRadix high low = some byte)
    (unread : hexPair high low = none) : high = 0x2B ∧ hexValue low = some byte := by
  by_cases plus : high = 0x2B
  · rw [fromStrRadix, if_pos plus] at read
    exact ⟨plus, read⟩
  · rw [fromStrRadix_of_ne plus, unread] at read
    exact nomatch read

/-- The server's decoder reads all that axum's does. -/
theorem widens_fromStrRadix : Escapes.Widens 0x25 hexPair fromStrRadix where
  keeps := by
    intro second third symbol read
    obtain ⟨⟨digit, digitRead⟩, _⟩ := hexPair_eq_some read
    rw [fromStrRadix_of_ne (ne_of_hexValue hexValue_plus digitRead), read]
  unmarked := by
    intro second third symbol read
    by_cases plus : second = 0x2B
    · rw [fromStrRadix, if_pos plus] at read
      exact ⟨by rw [plus]; decide, ne_of_hexValue hexValue_percent read⟩
    · rw [fromStrRadix_of_ne plus] at read
      obtain ⟨⟨_, high⟩, _, low⟩ := hexPair_eq_some read
      exact ⟨ne_of_hexValue hexValue_percent high, ne_of_hexValue hexValue_percent low⟩
  visible := by
    intro second third symbol read unread
    rintro rfl
    exact absurd (hexValue_lt (eq_plus_of_fromStrRadix read unread).2).2 (by decide)

/-- The name holds a percent sign, a plus sign and a hexadecimal digit. -/
def PlusEscaped (name : String) : Prop :=
  ∃ before digit after, Text.utf8 name.toList = before ++ 0x25 :: 0x2B :: digit :: after ∧
    (hexValue digit).isSome

theorem widened_iff_plusEscaped (name : String) :
    Escapes.Widened 0x25 hexPair fromStrRadix (Text.utf8 name.toList) ↔ PlusEscaped name := by
  constructor
  · rintro ⟨before, second, third, after, symbol, textEq, read, unread⟩
    obtain ⟨rfl, digit⟩ := eq_plus_of_fromStrRadix read unread
    exact ⟨before, third, after, textEq, Option.isSome_of_eq_some digit⟩
  · rintro ⟨before, digit, after, textEq, isDigit⟩
    obtain ⟨value, read⟩ := Option.isSome_iff_exists.mp isDigit
    exact ⟨before, 0x2B, digit, after, value, textEq, read, rfl⟩

/-- The decoders agree on a name exactly if it holds no such escape. -/
theorem not_plusEscaped_iff (name : String) :
    ¬ PlusEscaped name ↔ unescape fromStrRadix name = unescape hexPair name := by
  rw [← widened_iff_plusEscaped]
  constructor
  · exact widens_fromStrRadix.decode_eq
  · intro same
    have leads : unescape fromStrRadix name <+: unescape hexPair name ++ [] := by
      rw [same]
      exact List.prefix_append _ []
    exact widens_fromStrRadix.not_widened leads

instance (name : String) : Decidable (PlusEscaped name) :=
  decidable_of_iff (¬ unescape fromStrRadix name = unescape hexPair name)
    (by rw [← not_plusEscaped_iff, not_not])

/-- What the server's decoder makes of bytes is valid UTF-8 exactly if what axum's makes of them
is. -/
theorem valid_fromStrRadix_iff (text before : List UInt8) :
    (∃ chars, before ++ Escapes.decode 0x25 fromStrRadix text = Text.utf8 chars) ↔
      ∃ chars, before ++ Escapes.decode 0x25 hexPair text = Text.utf8 chars := by
  fun_induction Escapes.decode 0x25 fromStrRadix text generalizing before with
  | case1 => rfl
  | case2 first => rfl
  | case3 first second => rfl
  | case4 first second third rest symbol found inductionHypothesis =>
    obtain ⟨rfl, widely⟩ := Option.ite_none_right_eq_some.mp found
    obtain unread | ⟨other, alsoFound⟩ := Option.eq_none_or_eq_some (hexPair second third)
    · obtain ⟨plainSecond, plainThird⟩ := widens_fromStrRadix.unmarked widely
      obtain ⟨plus, digit⟩ := eq_plus_of_fromStrRadix widely unread
      have plusSmall : second < 0x80 := by
        rw [plus]
        decide
      have symbolSmall : symbol < 0x80 := UInt8.lt_trans (hexValue_lt digit).2 (by decide)
      rw [Escapes.decode_mark unread, Escapes.decode_cons_of_ne plainSecond,
        Escapes.decode_cons_of_ne plainThird, Text.valid_around_iff symbolSmall,
        Text.valid_around_iff (by decide), Text.valid_cons_iff plusSmall,
        Text.valid_cons_iff (hexValue_lt digit).1]
      exact and_congr_right fun _ => inductionHypothesis []
    · obtain rfl := Option.some.inj ((widens_fromStrRadix.keeps alsoFound).symm.trans widely)
      rw [Escapes.decode_escape alsoFound,
        List.append_cons before other (Escapes.decode 0x25 fromStrRadix rest),
        List.append_cons before other (Escapes.decode 0x25 hexPair rest)]
      exact inductionHypothesis _
  | case5 first second third rest unread inductionHypothesis =>
    rw [widens_fromStrRadix.decode_unread unread,
      List.append_cons before first (Escapes.decode 0x25 fromStrRadix _),
      List.append_cons before first (Escapes.decode 0x25 hexPair _)]
    exact inductionHypothesis _

/-- axum hands over the text whose bytes are the decoded ones. -/
theorem axumPath_eq_some {tail decoded : String} :
    axumPath tail = some decoded ↔ unescape hexPair tail = Text.utf8 decoded.toList := by
  rw [axumPath, Option.map_eq_some_iff]
  constructor
  · rintro ⟨chars, found, rfl⟩
    rw [String.toList_ofList]
    exact Text.fromUtf8_eq_some.mp found
  · intro valid
    exact ⟨decoded.toList, Text.fromUtf8_eq_some.mpr valid, String.ofList_toList⟩

/-- Decoding the raw name gives a leading part of the decoded tail. -/
theorem unescape_rawName_leads (rest : String) :
    unescape hexPair (rawName rest) <+: unescape hexPair rest ∧
      ∀ chars, unescape hexPair rest = Text.utf8 chars →
        ∃ name, unescape hexPair (rawName rest) = Text.utf8 name := by
  obtain absent | ⟨name, found⟩ := Option.eq_none_or_eq_some (repositoryPart rest)
  · rw [rawName, absent]
    exact ⟨List.nil_prefix, fun _ _ => ⟨[], rfl⟩⟩
  · obtain ⟨after, restEq⟩ := repositoryPart_leads found
    have slash : String.utf8EncodeChar '/' = [0x2F] := by decide
    have decoded : unescape hexPair rest = unescape hexPair (rawName rest) ++
        0x2F :: Escapes.decode 0x25 hexPair (Text.utf8 after) := by
      rw [rawName, found, Option.getD_some, unescape, restEq, Text.utf8_append, Text.utf8_cons,
        slash, List.singleton_append, Escapes.decode_append hexPair_slash_left
          hexPair_slash_right, Escapes.decode_cons_of_ne (by decide)]
      rfl
    rw [decoded]
    refine ⟨List.prefix_append _ _, fun chars valid => ?_⟩
    obtain ⟨name, _, nameEq, _⟩ := Text.utf8_split (by decide) valid.symm
    exact ⟨name, nameEq⟩

/-! ### The two names -/

/-- The name in front of the deciding marker of the trimmed tail leads the tail. -/
theorem utf8_repositoryPart_leads {decoded name : String}
    (part : repositoryPart (trimEndSlashes decoded) = some name) :
    Text.utf8 name.toList <+: Text.utf8 decoded.toList := by
  obtain ⟨after, trimmedEq⟩ := repositoryPart_leads part
  have trimmed : (trimEndSlashes decoded).toList <+: decoded.toList := by
    rw [trimEndSlashes, String.toList_ofList]
    exact List.rdropWhile_prefix _ _
  rw [trimmedEq] at trimmed
  obtain ⟨rest, decodedEq⟩ := (List.prefix_append _ _).trans trimmed
  exact ⟨Text.utf8 rest, by rw [← decodedEq, Text.utf8_append]⟩

/-- The name that is authorized is a leading part of the decoded tail if the name in front of the
marker decodes to it without an escape that holds a plus sign. -/
theorem authorized_iff {rest decoded name : String} (received : axumPath rest = some decoded)
    (leads : Text.utf8 name.toList <+: Text.utf8 decoded.toList) :
    extractRepositoryFromPath ("/v2/" ++ rest) = name ↔
      ¬ PlusEscaped (rawName rest) ∧ unescape hexPair (rawName rest) = Text.utf8 name.toList := by
  have decodedEq : unescape hexPair rest = Text.utf8 decoded.toList :=
    axumPath_eq_some.mp received
  rw [← decodedEq] at leads
  obtain ⟨rawLeads, validName⟩ := unescape_rawName_leads rest
  obtain ⟨chars, valid⟩ := (valid_fromStrRadix_iff (Text.utf8 (rawName rest).toList) []).mpr
    (validName decoded.toList decodedEq)
  have authorized : extractRepositoryFromPath ("/v2/" ++ rest) = name ↔
      unescape fromStrRadix (rawName rest) = Text.utf8 name.toList := by
    have decodes := Text.fromUtf8_eq_some.mpr valid
    rw [extractRepositoryFromPath_eq, ← rawName, percentDecode, unescape, ← List.nil_append
      (Escapes.decode 0x25 fromStrRadix (Text.utf8 (rawName rest).toList)), decodes,
      string_eq_iff_utf8, String.toList_ofList, valid]
  rw [authorized]
  constructor
  · intro same
    have plain : ¬ PlusEscaped (rawName rest) := by
      obtain ⟨tail, restEq⟩ := rawLeads
      rw [← same, ← restEq] at leads
      rw [← widened_iff_plusEscaped]
      exact widens_fromStrRadix.not_widened leads
    exact ⟨plain, ((not_plusEscaped_iff _).mp plain).symm.trans same⟩
  · rintro ⟨plain, same⟩
    exact ((not_plusEscaped_iff _).mp plain).trans same

end Layerhouse
