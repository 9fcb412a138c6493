/-
This file compares the server's own `percent_decode` of `routes/mod.rs` with the decoding that a URL
standard prescribes: each percent sign with two hexadecimal digits behind it stands for a byte, and
everything else for itself. What is not UTF-8 after decoding is left as it was sent.

The server reads the two digits with `u8::from_str_radix`, which takes a plus sign in place of the
first one. So the two agree on a text exactly if it holds no percent sign with a plus sign and a
digit behind it, or does not decode to UTF-8 in the first place.
-/

import Layerhouse.Routes.Names

namespace Layerhouse

/-- The result is the text with its escapes replaced, or the text itself if that is not UTF-8. -/
def DecodedByStandard (text result : String) : Prop :=
  ∃ bytes, Escapes.Decoded 0x25 hexPair (Text.utf8 text.toList) bytes ∧
    (Text.utf8 result.toList = bytes ∨
      result = text ∧ ∀ other : List Char, Text.utf8 other ≠ bytes)

theorem percentDecode_of_valid {text : String} {chars : List Char}
    (valid : unescape fromStrRadix text = Text.utf8 chars) :
    percentDecode text = String.ofList chars := by
  rw [percentDecode, Text.fromUtf8_eq_some.mpr valid]

theorem percentDecode_of_invalid {text : String}
    (invalid : ∀ chars, unescape fromStrRadix text ≠ Text.utf8 chars) :
    percentDecode text = text := by
  have undecoded : Text.fromUtf8 (unescape fromStrRadix text) = none :=
    Option.eq_none_iff_forall_ne_some.mpr fun chars decoded =>
      invalid chars (Text.fromUtf8_eq_some.mp decoded)
  rw [percentDecode, undecoded]

/-- The server's decoder finds UTF-8 exactly where the standard does. -/
theorem unescape_valid_iff (text : String) :
    (∃ chars, unescape fromStrRadix text = Text.utf8 chars) ↔
      ∃ decoded, axumPath text = some decoded := by
  have same := valid_fromStrRadix_iff (Text.utf8 text.toList) []
  rw [List.nil_append, List.nil_append] at same
  rw [unescape, same]
  constructor
  · rintro ⟨chars, valid⟩
    refine ⟨String.ofList chars, axumPath_eq_some.mpr ?_⟩
    rw [String.toList_ofList]
    exact valid
  · rintro ⟨decoded, received⟩
    exact ⟨decoded.toList, axumPath_eq_some.mp received⟩

/-- A text that does not decode to UTF-8 is left as it is, whatever escapes it holds. -/
theorem percentDecode_of_rejected {text : String} (rejected : axumPath text = none) :
    percentDecode text = text :=
  percentDecode_of_invalid fun chars valid => by
    obtain ⟨decoded, received⟩ := (unescape_valid_iff text).mp ⟨chars, valid⟩
    exact absurd (rejected.symm.trans received) nofun

/-- Of a text that decodes to UTF-8 the server makes what axum makes of it exactly if the text
holds no escape with a plus sign. -/
theorem percentDecode_eq_axumPath_iff {text decoded : String}
    (received : axumPath text = some decoded) :
    percentDecode text = decoded ↔ ¬ PlusEscaped text := by
  obtain ⟨chars, valid⟩ := (unescape_valid_iff text).mpr ⟨decoded, received⟩
  rw [percentDecode_of_valid valid, not_plusEscaped_iff, valid, axumPath_eq_some.mp received]
  constructor
  · rintro rfl
    rw [String.toList_ofList]
  · intro same
    rw [Text.utf8_inj same, String.ofList_toList]

/-- The server's decoder does what the standard's and axum's do exactly if the text holds no
percent sign with a plus sign and a hexadecimal digit behind it, or does not decode to UTF-8. -/
theorem percent_decode_standard_iff (text : String) :
    (DecodedByStandard text (percentDecode text) ∧
      ∀ decoded, axumPath text = some decoded → percentDecode text = decoded) ↔
    (PlusEscaped text → axumPath text = none) := by
  constructor
  · rintro ⟨_, agrees⟩ plus
    refine Option.eq_none_iff_forall_ne_some.mpr fun decoded received => ?_
    exact (percentDecode_eq_axumPath_iff received).mp (agrees decoded received) plus
  · intro plain
    cases received : axumPath text with
    | none =>
      refine ⟨⟨unescape hexPair text, Escapes.decoded_decode _, Or.inr ?_⟩, nofun⟩
      refine ⟨percentDecode_of_rejected received, fun other valid => ?_⟩
      have decoded : axumPath text = some (String.ofList other) := by
        rw [axumPath_eq_some, String.toList_ofList]
        exact valid.symm
      exact absurd (received.symm.trans decoded) nofun
    | some decoded =>
      have same : percentDecode text = decoded :=
        (percentDecode_eq_axumPath_iff received).mpr fun plus =>
          absurd (received.symm.trans (plain plus)) nofun
      refine ⟨⟨unescape hexPair text, Escapes.decoded_decode _, Or.inl ?_⟩, ?_⟩
      · rw [same]
        exact (axumPath_eq_some.mp received).symm
      · rintro _ ⟨⟩
        exact same

/-- A plus sign is read as a digit. -/
theorem plus_sign_is_read_as_digit :
    percentDecode "a%+41" = "a\x041" ∧ axumPath "a%+41" = some "a%+41" ∧
      ¬ DecodedByStandard "a%+41" (percentDecode "a%+41") := by
  have decoded : percentDecode "a%+41" = "a\x041" := by decide +kernel
  refine ⟨decoded, by decide +kernel, ?_⟩
  rintro ⟨bytes, standard, valid | ⟨same, _⟩⟩
  · rw [Escapes.decoded_iff] at standard
    rw [← standard] at valid
    revert valid
    decide +kernel
  · rw [decoded] at same
    revert same
    decide

end Layerhouse
