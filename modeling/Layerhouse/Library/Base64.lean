/-
This file is base64 over any alphabet of 64 characters, in the two forms that
the registry writes: with the padding that fills the last group of four, and
without. Bytes are first cut into groups of six bits (sextets), and a sextet is
then spelled by a character.

The decoders are the strict ones: they accept exactly the texts that the
encoders write, so a decoded text is the only spelling of its bytes.
-/

import Mathlib

namespace Layerhouse.Base64

/-! ### Sextets -/

/-- The groups of six bits of the bytes, the last one filled with zeros. -/
def toSextets : List UInt8 → List Nat
  | [] => []
  | [first] => [first.toNat / 4, first.toNat % 4 * 16]
  | [first, second] =>
    [first.toNat / 4, first.toNat % 4 * 16 + second.toNat / 16, second.toNat % 16 * 4]
  | first :: second :: third :: rest =>
    first.toNat / 4 :: (first.toNat % 4 * 16 + second.toNat / 16) ::
      (second.toNat % 16 * 4 + third.toNat / 64) :: third.toNat % 64 :: toSextets rest

/-- The bytes that the sextets spell; the bits that fill the last sextet have to be zero. -/
def fromSextets : List Nat → Option (List UInt8)
  | [] => some []
  | [_] => none
  | [first, second] =>
    if second % 16 = 0 then some [UInt8.ofNat (first * 4 + second / 16)] else none
  | [first, second, third] =>
    if third % 4 = 0 then
      some [UInt8.ofNat (first * 4 + second / 16),
        UInt8.ofNat (second % 16 * 16 + third / 4)]
    else none
  | first :: second :: third :: fourth :: rest =>
    (fromSextets rest).map fun bytes =>
      UInt8.ofNat (first * 4 + second / 16) :: UInt8.ofNat (second % 16 * 16 + third / 4) ::
        UInt8.ofNat (third % 4 * 64 + fourth) :: bytes

theorem lt_of_mem_toSextets {bytes : List UInt8} {sextet : Nat}
    (member : sextet ∈ toSextets bytes) : sextet < 64 := by
  induction bytes using toSextets.induct with
  | case1 => cases member
  | case2 first =>
    have bound := first.toNat_lt
    simp only [toSextets, List.mem_cons, List.not_mem_nil, or_false] at member
    omega
  | case3 first second =>
    have firstBound := first.toNat_lt
    have secondBound := second.toNat_lt
    simp only [toSextets, List.mem_cons, List.not_mem_nil, or_false] at member
    omega
  | case4 first second third rest inductionHypothesis =>
    have firstBound := first.toNat_lt
    have secondBound := second.toNat_lt
    have thirdBound := third.toNat_lt
    simp only [toSextets, List.mem_cons] at member
    rcases member with same | same | same | same | later
    · omega
    · omega
    · omega
    · omega
    · exact inductionHypothesis later

/-- A byte is what its number spells. -/
theorem ofNat_eq {byte : UInt8} {number : Nat} (same : number = byte.toNat) :
    UInt8.ofNat number = byte := by
  rw [same, UInt8.ofNat_toNat]

theorem fromSextets_toSextets (bytes : List UInt8) :
    fromSextets (toSextets bytes) = some bytes := by
  induction bytes using toSextets.induct with
  | case1 => rfl
  | case2 first =>
    have bound := first.toNat_lt
    rw [toSextets, fromSextets, if_pos (by omega), @ofNat_eq first _ (by omega)]
  | case3 first second =>
    have firstBound := first.toNat_lt
    have secondBound := second.toNat_lt
    rw [toSextets, fromSextets, if_pos (by omega), @ofNat_eq first _ (by omega),
      @ofNat_eq second _ (by omega)]
  | case4 first second third rest inductionHypothesis =>
    have firstBound := first.toNat_lt
    have secondBound := second.toNat_lt
    have thirdBound := third.toNat_lt
    rw [toSextets, fromSextets, inductionHypothesis, Option.map_some,
      @ofNat_eq first _ (by omega), @ofNat_eq second _ (by omega),
      @ofNat_eq third _ (by omega)]

theorem toSextets_of_fromSextets {sextets : List Nat} {bytes : List UInt8}
    (bounded : ∀ sextet ∈ sextets, sextet < 64) (spelled : fromSextets sextets = some bytes) :
    toSextets bytes = sextets := by
  induction sextets using fromSextets.induct generalizing bytes with
  | case1 =>
    obtain rfl := Option.some.inj spelled
    rfl
  | case2 => cases spelled
  | case3 first second filled =>
    have firstBound := bounded first (by simp)
    have secondBound := bounded second (by simp)
    rw [fromSextets, if_pos filled] at spelled
    obtain rfl := Option.some.inj spelled
    rw [toSextets, UInt8.toNat_ofNat_of_lt' (by simp only [UInt8.size]; omega)]
    congr 1
    · omega
    · congr 1
      omega
  | case4 first second unfilled =>
    rw [fromSextets, if_neg unfilled] at spelled
    cases spelled
  | case5 first second third filled =>
    have firstBound := bounded first (by simp)
    have secondBound := bounded second (by simp)
    have thirdBound := bounded third (by simp)
    rw [fromSextets, if_pos filled] at spelled
    obtain rfl := Option.some.inj spelled
    rw [toSextets, UInt8.toNat_ofNat_of_lt' (by simp only [UInt8.size]; omega),
      UInt8.toNat_ofNat_of_lt' (by simp only [UInt8.size]; omega)]
    congr 1
    · omega
    · congr 1
      · omega
      · congr 1
        omega
  | case6 first second third unfilled =>
    rw [fromSextets, if_neg unfilled] at spelled
    cases spelled
  | case7 first second third fourth rest inductionHypothesis =>
    have firstBound := bounded first (by simp)
    have secondBound := bounded second (by simp)
    have thirdBound := bounded third (by simp)
    have fourthBound := bounded fourth (by simp)
    rw [fromSextets] at spelled
    obtain ⟨later, spelledLater, rfl⟩ := Option.map_eq_some_iff.mp spelled
    have boundedLater : ∀ sextet ∈ rest, sextet < 64 := fun sextet member =>
      bounded sextet (by simp [member])
    rw [toSextets, inductionHypothesis boundedLater spelledLater,
      UInt8.toNat_ofNat_of_lt' (by simp only [UInt8.size]; omega),
      UInt8.toNat_ofNat_of_lt' (by simp only [UInt8.size]; omega),
      UInt8.toNat_ofNat_of_lt' (by simp only [UInt8.size]; omega)]
    congr 1
    · omega
    · congr 1
      · omega
      · congr 1
        · omega
        · congr 1
          omega

/-- The number of sextets of a number of bytes. -/
theorem length_toSextets (bytes : List UInt8) :
    (toSextets bytes).length = (bytes.length * 4 + 2) / 3 := by
  induction bytes using toSextets.induct with
  | case1 => rfl
  | case2 first => simp [toSextets]
  | case3 first second => simp [toSextets]
  | case4 first second third rest inductionHypothesis =>
    simp only [toSextets, List.length_cons, inductionHypothesis]
    omega

/-! ### Alphabets -/

/-- The characters that spell the sextets, in order. The character of the padding is none of
them. -/
structure Alphabet where
  symbols : List Char
  complete : symbols.length = 64
  distinct : symbols.Nodup
  unpadded : '=' ∉ symbols

namespace Alphabet

variable (alphabet : Alphabet)

def symbol (sextet : Nat) : Char :=
  alphabet.symbols.getD sextet '='

def sextet (char : Char) : Option Nat :=
  alphabet.symbols.idxOf? char

def encode (bytes : List UInt8) : List Char :=
  (toSextets bytes).map alphabet.symbol

def decode (text : List Char) : Option (List UInt8) :=
  (text.mapM alphabet.sextet).bind fromSextets

variable {alphabet}

theorem symbol_mem {sextet : Nat} (bounded : sextet < 64) :
    alphabet.symbol sextet ∈ alphabet.symbols := by
  rw [symbol, List.getD_eq_getElem _ _ (by rw [alphabet.complete]; exact bounded)]
  exact List.getElem_mem _

theorem sextet_eq_some {char : Char} {sextet : Nat} :
    alphabet.sextet char = some sextet ↔ sextet < 64 ∧ alphabet.symbol sextet = char := by
  rw [Alphabet.sextet, List.idxOf?, List.findIdx?_eq_some_iff_getElem]
  constructor
  · rintro ⟨bounded, found, _⟩
    refine ⟨alphabet.complete ▸ bounded, ?_⟩
    rw [symbol, List.getD_eq_getElem _ _ bounded]
    exact beq_iff_eq.mp found
  · rintro ⟨bounded, rfl⟩
    have inside : sextet < alphabet.symbols.length := by rwa [alphabet.complete]
    rw [symbol, List.getD_eq_getElem _ _ inside]
    refine ⟨inside, beq_self_eq_true _, fun earlier before => ?_⟩
    simp only [beq_iff_eq]
    intro same
    have equal := (alphabet.distinct.getElem_inj_iff).mp same
    omega

theorem mapM_sextet_eq_some {text : List Char} {sextets : List Nat} :
    text.mapM alphabet.sextet = some sextets ↔
      (∀ sextet ∈ sextets, sextet < 64) ∧ sextets.map alphabet.symbol = text := by
  induction text generalizing sextets with
  | nil =>
    rw [List.mapM_nil, Option.pure_def, Option.some.injEq, List.map_eq_nil_iff]
    constructor
    · rintro rfl
      exact ⟨fun sextet member => absurd member List.not_mem_nil, rfl⟩
    · rintro ⟨_, rfl⟩
      rfl
  | cons char text inductionHypothesis =>
    simp only [List.mapM_cons, Option.bind_eq_bind, Option.pure_def, Option.bind_eq_some_iff,
      Option.some.injEq, sextet_eq_some, inductionHypothesis]
    constructor
    · rintro ⟨sextet, ⟨bounded, spelled⟩, rest, ⟨boundedRest, rfl⟩, rfl⟩
      exact ⟨List.forall_mem_cons.mpr ⟨bounded, boundedRest⟩, by rw [List.map_cons, spelled]⟩
    · intro known
      obtain ⟨sextet, rest, rfl, rfl, rfl⟩ := List.map_eq_cons_iff.mp known.2
      have bounded := List.forall_mem_cons.mp known.1
      exact ⟨sextet, ⟨bounded.1, rfl⟩, rest, ⟨bounded.2, rfl⟩, rfl⟩

/-- The decoder accepts exactly what the encoder writes. -/
theorem decode_eq_some {text : List Char} {bytes : List UInt8} :
    alphabet.decode text = some bytes ↔ text = alphabet.encode bytes := by
  rw [decode, Option.bind_eq_some_iff]
  constructor
  · rintro ⟨sextets, read, spelled⟩
    obtain ⟨bounded, rfl⟩ := mapM_sextet_eq_some.mp read
    rw [encode, toSextets_of_fromSextets bounded spelled]
  · rintro rfl
    exact ⟨toSextets bytes, mapM_sextet_eq_some.mpr ⟨fun _ => lt_of_mem_toSextets, rfl⟩,
      fromSextets_toSextets bytes⟩

theorem decode_encode (bytes : List UInt8) : alphabet.decode (alphabet.encode bytes) = some bytes :=
  decode_eq_some.mpr rfl

/-- An encoded text is written in the alphabet. -/
theorem mem_of_mem_encode {bytes : List UInt8} {char : Char}
    (member : char ∈ alphabet.encode bytes) : char ∈ alphabet.symbols := by
  obtain ⟨sextet, listed, rfl⟩ := List.mem_map.mp member
  exact symbol_mem (lt_of_mem_toSextets listed)

/-! ### Padding -/

variable (alphabet) in
def encodePadded (bytes : List UInt8) : List Char :=
  alphabet.encode bytes ++ List.replicate ((3 - bytes.length % 3) % 3) '='

variable (alphabet) in
def decodePadded (text : List Char) : Option (List UInt8) :=
  let body := text.rdropWhile (· = '=')
  if text.length = body.length + (4 - body.length % 4) % 4 then alphabet.decode body else none

theorem rdropWhile_padding (bytes : List UInt8) (count : Nat) :
    (alphabet.encode bytes ++ List.replicate count '=').rdropWhile (· = '=') =
      alphabet.encode bytes := by
  have unpadded : '=' ∉ alphabet.encode bytes := fun member =>
    alphabet.unpadded (mem_of_mem_encode member)
  induction count with
  | zero =>
    rw [List.replicate_zero, List.append_nil, List.rdropWhile_eq_self_iff]
    intro present padded
    exact unpadded (of_decide_eq_true padded ▸ List.getLast_mem present)
  | succ count inductionHypothesis =>
    rw [List.replicate_succ', ← List.append_assoc, List.rdropWhile_concat_pos _ _ _ (by decide),
      inductionHypothesis]

theorem length_encode (bytes : List UInt8) :
    (alphabet.encode bytes).length = (bytes.length * 4 + 2) / 3 := by
  rw [encode, List.length_map, length_toSextets]

/-- The padding fills the last group of four characters. -/
theorem length_padding (bytes : List UInt8) :
    (4 - (alphabet.encode bytes).length % 4) % 4 = (3 - bytes.length % 3) % 3 := by
  rw [length_encode]
  have parts := Nat.div_add_mod bytes.length 3
  have remainder := Nat.mod_lt bytes.length (Nat.zero_lt_succ 2)
  generalize bytes.length % 3 = left at parts remainder ⊢
  generalize bytes.length / 3 = groups at parts
  interval_cases left <;> omega

theorem decodePadded_eq_some {text : List Char} {bytes : List UInt8} :
    alphabet.decodePadded text = some bytes ↔ text = alphabet.encodePadded bytes := by
  rw [decodePadded]
  constructor
  · intro decoded
    obtain ⟨lengths, decodedBody⟩ := Option.ite_none_right_eq_some.mp decoded
    have body := decode_eq_some.mp decodedBody
    have padding : text.rtakeWhile (· = '=') =
        List.replicate ((3 - bytes.length % 3) % 3) '=' := by
      refine List.eq_replicate_iff.mpr ⟨?_, fun char member => ?_⟩
      · have parts := congrArg List.length
          (List.rdropWhile_append_rtakeWhile (p := (· = '=')) (l := text))
        rw [List.length_append] at parts
        rw [← @length_padding alphabet bytes, ← body]
        omega
      · simpa using List.mem_rtakeWhile_imp member
    calc text = text.rdropWhile (· = '=') ++ text.rtakeWhile (· = '=') :=
          (List.rdropWhile_append_rtakeWhile (p := (· = '=')) (l := text)).symm
      _ = alphabet.encodePadded bytes := by rw [body, padding, encodePadded]
  · rintro rfl
    rw [encodePadded, rdropWhile_padding]
    refine Option.ite_none_right_eq_some.mpr ⟨?_, decode_encode bytes⟩
    rw [List.length_append, List.length_replicate, length_padding]

theorem decodePadded_encodePadded (bytes : List UInt8) :
    alphabet.decodePadded (alphabet.encodePadded bytes) = some bytes :=
  decodePadded_eq_some.mpr rfl

theorem mem_of_mem_encodePadded {bytes : List UInt8} {char : Char}
    (member : char ∈ alphabet.encodePadded bytes) : char ∈ alphabet.symbols ∨ char = '=' := by
  rcases List.mem_append.mp member with encoded | padded
  · exact Or.inl (mem_of_mem_encode encoded)
  · exact Or.inr (List.eq_of_mem_replicate padded)

end Alphabet

/-! ### The two alphabets -/

/-- The standard alphabet. -/
def standard : Alphabet where
  symbols := "ABCDEFGHIJKLMNOPQRSTUVWXYZabcdefghijklmnopqrstuvwxyz0123456789+/".toList
  complete := by decide
  distinct := by decide
  unpadded := by decide

/-- The alphabet for URLs and file names. -/
def urlSafe : Alphabet where
  symbols := "ABCDEFGHIJKLMNOPQRSTUVWXYZabcdefghijklmnopqrstuvwxyz0123456789-_".toList
  complete := by decide
  distinct := by decide
  unpadded := by decide

end Layerhouse.Base64
