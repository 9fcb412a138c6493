/-
This file compares `parse_range` of `routes/blobs.rs` with the intervals that the semantics of
HTTP assign to a single range of bytes: `bytes=a-b`, `bytes=a-` and `bytes=-k` with decimal
numbers. An interval is cut at the last byte, a suffix longer than the blob is the whole
blob, and a range is unsatisfiable that begins behind the end, ends before it begins or is an
empty suffix. A blob without bytes has no interval.

The numbers are read by the integer parser, which takes a plus sign in front and stops at
`2^64`. A header spells a range with plus signs or without; what is read are the satisfiable
ranges whose numbers fit into 64 bits, whatever their signs.
-/

import Layerhouse.Routes.Blobs

namespace Layerhouse

/-! ### Numbers -/

/-- The text is this decimal number, with a plus sign in front or without one. -/
def SpellsNumber (signed : Bool) (text : List Char) (number : Nat) : Prop :=
  ∃ digits : List Char, digits ≠ [] ∧ digits.all Char.isDigit = true ∧
    number = Nat.ofDigitChars 10 digits 0 ∧ text = if signed then '+' :: digits else digits

theorem stripPlus_digits {digits : List Char} (decimal : digits.all Char.isDigit = true) :
    Text.stripPrefix ['+'] digits = none := by
  rw [Option.eq_none_iff_forall_ne_some]
  rintro rest stripped
  rw [Text.stripPrefix_eq_some.mp stripped] at decimal
  exact absurd (List.all_eq_true.mp decimal '+' List.mem_cons_self) (by decide)

theorem SpellsNumber.unsigned {signed : Bool} {text : List Char} {number : Nat}
    (spells : SpellsNumber signed text number) :
    ∃ digits : List Char, (Text.stripPrefix ['+'] text).getD text = digits ∧ digits ≠ [] ∧
      digits.all Char.isDigit = true ∧ number = Nat.ofDigitChars 10 digits 0 := by
  obtain ⟨digits, present, decimal, value, rfl⟩ := spells
  refine ⟨digits, ?_, present, decimal, value⟩
  cases signed with
  | false =>
    rw [if_neg Bool.false_ne_true, stripPlus_digits decimal]
    rfl
  | true => rfl

theorem digitValue_eq (digits : List Char) :
    digits.foldl (fun value digit => value * 10 + (digit.toNat - 48)) 0 =
      Nat.ofDigitChars 10 digits 0 := by
  rw [Nat.ofDigitChars_eq_foldl]
  congr 1
  funext value digit
  rw [Nat.mul_comm]
  rfl

/-- The integer parser reads the numbers below `2^64`. -/
theorem parseU64_eq_some {text : List Char} {number : Nat} :
    parseU64 text = some number ↔ number < 2 ^ 64 ∧ ∃ signed, SpellsNumber signed text number := by
  rw [parseU64]
  constructor
  · intro parsed
    obtain ⟨decimal, parsed⟩ := Option.ite_none_left_eq_some.mp parsed
    obtain ⟨small, value⟩ := Option.ite_none_right_eq_some.mp parsed
    rw [not_or, not_not] at decimal
    rw [digitValue_eq, Option.some.injEq] at value
    rw [digitValue_eq, value] at small
    refine ⟨small, ?_⟩
    cases plus : Text.stripPrefix ['+'] text with
    | none =>
      rw [plus] at decimal value
      exact ⟨false, text, decimal.1, decimal.2, value.symm, rfl⟩
    | some rest =>
      rw [plus] at decimal value
      exact ⟨true, rest, decimal.1, decimal.2, value.symm, Text.stripPrefix_eq_some.mp plus⟩
  · rintro ⟨small, signed, spells⟩
    obtain ⟨digits, unsigned, present, decimal, rfl⟩ := spells.unsigned
    simp only [unsigned]
    rw [if_neg (by simp [present, decimal]), digitValue_eq, if_pos small]

theorem SpellsNumber.unique {first second : Bool} {text : List Char} {number other : Nat}
    (spells : SpellsNumber first text number) (again : SpellsNumber second text other) :
    first = second ∧ number = other := by
  have sameNumber : number = other := by
    obtain ⟨digits, unsigned, _, _, rfl⟩ := spells.unsigned
    obtain ⟨_, rfl, _, _, rfl⟩ := again.unsigned
    rw [unsigned]
  refine ⟨?_, sameNumber⟩
  obtain ⟨digits, _, decimal, _, rfl⟩ := spells
  obtain ⟨others, _, othersDecimal, _, same⟩ := again
  have plus : ∀ rest : List Char, ('+' :: rest).all Char.isDigit = false := fun _ => rfl
  cases first <;> cases second
  · rfl
  · rw [if_neg Bool.false_ne_true, if_pos rfl] at same
    rw [same, plus] at decimal
    cases decimal
  · rw [if_neg Bool.false_ne_true, if_pos rfl] at same
    rw [← same, plus] at othersDecimal
    cases othersDecimal
  · rfl

theorem SpellsNumber.plain {signed : Bool} {text : List Char} {number : Nat}
    (spells : SpellsNumber signed text number) : text ≠ [] ∧ '-' ∉ text := by
  obtain ⟨digits, present, decimal, _, rfl⟩ := spells
  have noDash : '-' ∉ digits := fun dash =>
    absurd (List.all_eq_true.mp decimal '-' dash) (by decide)
  cases signed with
  | false => exact ⟨present, noDash⟩
  | true =>
    exact ⟨List.cons_ne_nil _ _, fun dash => (List.mem_cons.mp dash).elim (by decide) noDash⟩

/-! ### Ranges -/

/-- A single range of bytes: from a first one to a last one or the end, or the last so many. -/
inductive ByteRange where
  | int (first : Nat) (last : Option Nat)
  | suffix (length : Nat)

namespace ByteRange

/-- The first and last byte of the range in a blob of this size; `none` if it is unsatisfiable. -/
def interval (size : Nat) : ByteRange → Option (Nat × Nat)
  | .int first last =>
    if first < size ∧ last.all (first ≤ ·) then
      some (first, min (last.getD (size - 1)) (size - 1))
    else none
  | .suffix length => if length = 0 ∨ size = 0 then none else some (size - length, size - 1)

/-- The numbers of the range are numbers of 64 bits. -/
def Fits : ByteRange → Prop
  | .int first last => first < 2 ^ 64 ∧ ∀ number ∈ last, number < 2 ^ 64
  | .suffix length => length < 2 ^ 64

end ByteRange

/-- The header is this range, with plus signs before its numbers or without any. -/
inductive SpellsRange : Bool → String → ByteRange → Prop
  | closed {header : String} {first last : List Char} {signedFirst signedLast : Bool}
      {firstNumber lastNumber : Nat} (ofFirst : SpellsNumber signedFirst first firstNumber)
      (ofLast : SpellsNumber signedLast last lastNumber)
      (spelled : header.toList = "bytes=".toList ++ (first ++ '-' :: last)) :
      SpellsRange (signedFirst || signedLast) header (.int firstNumber (some lastNumber))
  | opened {header : String} {first : List Char} {signed : Bool} {number : Nat}
      (ofFirst : SpellsNumber signed first number)
      (spelled : header.toList = "bytes=".toList ++ (first ++ '-' :: [])) :
      SpellsRange signed header (.int number none)
  | suffix {header : String} {last : List Char} {signed : Bool} {number : Nat}
      (ofLast : SpellsNumber signed last number)
      (spelled : header.toList = "bytes=".toList ++ ([] ++ '-' :: last)) :
      SpellsRange signed header (.suffix number)

theorem parseRange_suffix {header : String} {last : List Char}
    (spelled : header.toList = "bytes=".toList ++ ([] ++ '-' :: last)) (size : Nat) :
    parseRange header size = (parseU64 last).bind fun number =>
      (ByteRange.suffix number).interval size := by
  rw [parseRange]
  split
  · rename_i empty
    cases parseU64 last with
    | none => rfl
    | some number => rw [Option.bind_some, ByteRange.interval, if_pos (Or.inr empty)]
  · rename_i present
    rw [Text.stripPrefix_eq_some.mpr spelled]
    dsimp only
    rw [Text.splitOnce_eq_some.mpr ⟨rfl, List.not_mem_nil⟩]
    dsimp only
    cases parseU64 last with
    | none => rfl
    | some number =>
      rw [Option.bind_some, ByteRange.interval]
      simp only [or_iff_left present]

theorem parseRange_int {header : String} {first last : List Char}
    (spelled : header.toList = "bytes=".toList ++ (first ++ '-' :: last)) (present : first ≠ [])
    (plain : '-' ∉ first) (size : Nat) :
    parseRange header size = (parseU64 first).bind fun number =>
      (if last = [] then some none else (parseU64 last).map some).bind fun other =>
        (ByteRange.int number other).interval size := by
  rw [parseRange]
  split
  · rename_i empty
    cases parseU64 first with
    | none => rfl
    | some number =>
      cases (if last = [] then some none else (parseU64 last).map some) with
      | none => rfl
      | some other =>
        rw [Option.bind_some, Option.bind_some, ByteRange.interval, if_neg fun within =>
          Nat.not_lt_zero _ (empty ▸ within.1)]
  · rename_i filled
    rw [Text.stripPrefix_eq_some.mpr spelled]
    dsimp only
    rw [Text.splitOnce_eq_some.mpr ⟨rfl, plain⟩]
    obtain ⟨char, rest, rfl⟩ := List.exists_cons_of_ne_nil present
    dsimp only
    cases parseU64 (char :: rest) with
    | none => rfl
    | some number =>
      rw [Option.bind_some]
      by_cases toEnd : last = []
      · rw [if_pos toEnd, if_pos toEnd, Option.bind_some]
        have bounds : ¬ (size - 1 < number ∨ size ≤ number) ↔ number < size := by omega
        dsimp only
        rw [← ite_not]
        simp only [ByteRange.interval, Option.all_none, and_true, Option.getD_none, bounds]
      · rw [if_neg toEnd, if_neg toEnd]
        cases parseU64 last with
        | none => rfl
        | some other =>
          rw [Option.map_some, Option.bind_some]
          have bounds : ¬ (other < number ∨ size ≤ number) ↔ number < size ∧ number ≤ other := by
            omega
          dsimp only
          rw [← ite_not]
          simp only [ByteRange.interval, Option.all_some, decide_eq_true_eq, Option.getD_some,
            bounds]

theorem exists_halves_of_parseRange {header : String} {size : Nat} {interval : Nat × Nat}
    (parsed : parseRange header size = some interval) :
    ∃ first last, header.toList = "bytes=".toList ++ (first ++ '-' :: last) ∧ '-' ∉ first := by
  rw [parseRange] at parsed
  obtain ⟨_, parsed⟩ := Option.ite_none_left_eq_some.mp parsed
  cases stripped : Text.stripPrefix "bytes=".toList header.toList with
  | none =>
    rw [stripped] at parsed
    cases parsed
  | some value =>
    rw [stripped] at parsed
    dsimp only at parsed
    cases halves : Text.splitOnce '-' value with
    | none =>
      rw [halves] at parsed
      cases parsed
    | some both =>
      obtain ⟨split, plain⟩ := Text.splitOnce_eq_some.mp halves
      exact ⟨both.1, both.2, split ▸ Text.stripPrefix_eq_some.mp stripped, plain⟩

/-- What is read of a header, whatever its size: the ranges that it spells with numbers of 64
bits, with plus signs or without. -/
theorem parseRange_eq_some {header : String} {size : Nat} {interval : Nat × Nat} :
    parseRange header size = some interval ↔
      ∃ signed range, SpellsRange signed header range ∧ range.Fits ∧
        range.interval size = some interval := by
  constructor
  · intro parsed
    obtain ⟨first, last, spelled, plain⟩ := exists_halves_of_parseRange parsed
    by_cases present : first = []
    · subst present
      rw [parseRange_suffix spelled] at parsed
      obtain ⟨number, read, inside⟩ := Option.bind_eq_some_iff.mp parsed
      obtain ⟨small, signed, spells⟩ := parseU64_eq_some.mp read
      exact ⟨signed, .suffix number, .suffix spells spelled, small, inside⟩
    · rw [parseRange_int spelled present plain] at parsed
      obtain ⟨number, read, parsed⟩ := Option.bind_eq_some_iff.mp parsed
      obtain ⟨other, readLast, inside⟩ := Option.bind_eq_some_iff.mp parsed
      obtain ⟨small, signed, spells⟩ := parseU64_eq_some.mp read
      by_cases toEnd : last = []
      · rw [if_pos toEnd, Option.some.injEq] at readLast
        subst toEnd readLast
        exact ⟨signed, .int number none, .opened spells spelled, ⟨small, nofun⟩, inside⟩
      · rw [if_neg toEnd] at readLast
        obtain ⟨lastNumber, readNumber, rfl⟩ := Option.map_eq_some_iff.mp readLast
        obtain ⟨smallLast, signedLast, spellsLast⟩ := parseU64_eq_some.mp readNumber
        refine ⟨signed || signedLast, .int number (some lastNumber),
          .closed spells spellsLast spelled, ⟨small, ?_⟩, inside⟩
        rintro _ ⟨⟩
        exact smallLast
  · rintro ⟨signed, range, spells, fits, inside⟩
    cases spells with
    | closed ofFirst ofLast spelled =>
      rw [parseRange_int spelled ofFirst.plain.1 ofFirst.plain.2,
        parseU64_eq_some.mpr ⟨fits.1, _, ofFirst⟩, if_neg ofLast.plain.1,
        parseU64_eq_some.mpr ⟨fits.2 _ rfl, _, ofLast⟩]
      exact inside
    | opened ofFirst spelled =>
      rw [parseRange_int spelled ofFirst.plain.1 ofFirst.plain.2,
        parseU64_eq_some.mpr ⟨fits.1, _, ofFirst⟩, if_pos rfl]
      exact inside
    | suffix ofLast spelled =>
      rw [parseRange_suffix spelled, parseU64_eq_some.mpr ⟨fits, _, ofLast⟩]
      exact inside

/-- A header has one pair of halves, since the first one holds no dash. -/
theorem halves_unique {header : String} {before rest otherBefore otherRest : List Char}
    (spelled : header.toList = "bytes=".toList ++ (before ++ '-' :: rest)) (plain : '-' ∉ before)
    (again : header.toList = "bytes=".toList ++ (otherBefore ++ '-' :: otherRest))
    (plainAgain : '-' ∉ otherBefore) : before = otherBefore ∧ rest = otherRest := by
  have same := List.append_cancel_left (spelled.symm.trans again)
  have split := Text.splitOnce_eq_some.mpr ⟨same, plainAgain⟩
  rw [Text.splitOnce_eq_some.mpr ⟨rfl, plain⟩, Option.some.injEq, Prod.mk.injEq] at split
  exact split

/-- A header spells one range, in one way. -/
theorem SpellsRange.unique {first second : Bool} {header : String} {range other : ByteRange}
    (spells : SpellsRange first header range) (again : SpellsRange second header other) :
    first = second ∧ range = other := by
  cases spells with
  | closed ofFirst ofLast spelled =>
    cases again with
    | closed ofFirst' ofLast' spelled' =>
      obtain ⟨rfl, rfl⟩ := halves_unique spelled ofFirst.plain.2 spelled' ofFirst'.plain.2
      obtain ⟨rfl, rfl⟩ := ofFirst.unique ofFirst'
      obtain ⟨rfl, rfl⟩ := ofLast.unique ofLast'
      exact ⟨rfl, rfl⟩
    | opened ofFirst' spelled' =>
      exact absurd (halves_unique spelled ofFirst.plain.2 spelled' ofFirst'.plain.2).2
        ofLast.plain.1
    | suffix ofLast' spelled' =>
      exact absurd (halves_unique spelled ofFirst.plain.2 spelled' List.not_mem_nil).1
        ofFirst.plain.1
  | opened ofFirst spelled =>
    cases again with
    | closed ofFirst' ofLast' spelled' =>
      exact absurd (halves_unique spelled ofFirst.plain.2 spelled' ofFirst'.plain.2).2.symm
        ofLast'.plain.1
    | opened ofFirst' spelled' =>
      obtain ⟨rfl, _⟩ := halves_unique spelled ofFirst.plain.2 spelled' ofFirst'.plain.2
      obtain ⟨rfl, rfl⟩ := ofFirst.unique ofFirst'
      exact ⟨rfl, rfl⟩
    | suffix ofLast' spelled' =>
      exact absurd (halves_unique spelled ofFirst.plain.2 spelled' List.not_mem_nil).1
        ofFirst.plain.1
  | suffix ofLast spelled =>
    cases again with
    | closed ofFirst' ofLast' spelled' =>
      exact absurd (halves_unique spelled List.not_mem_nil spelled' ofFirst'.plain.2).1.symm
        ofFirst'.plain.1
    | opened ofFirst' spelled' =>
      exact absurd (halves_unique spelled List.not_mem_nil spelled' ofFirst'.plain.2).1.symm
        ofFirst'.plain.1
    | suffix ofLast' spelled' =>
      obtain ⟨_, rfl⟩ := halves_unique spelled List.not_mem_nil spelled' List.not_mem_nil
      obtain ⟨rfl, rfl⟩ := ofLast.unique ofLast'
      exact ⟨rfl, rfl⟩

theorem ByteRange.interval_bounds {range : ByteRange} {size first last : Nat}
    (inside : range.interval size = some (first, last)) : first ≤ last ∧ last < size := by
  cases range with
  | int start finish =>
    obtain ⟨⟨within, ordered⟩, same⟩ := Option.ite_none_right_eq_some.mp inside
    cases same
    cases finish with
    | none =>
      rw [Option.getD_none]
      omega
    | some finish =>
      rw [Option.all_some, decide_eq_true_eq] at ordered
      rw [Option.getD_some]
      omega
  | suffix length =>
    obtain ⟨filled, same⟩ := Option.ite_none_left_eq_some.mp inside
    cases same
    omega

/-! ### The exact answers -/

/-- The header is answered with the interval of the range that it is, if it is a single range of
decimal numbers, and with nothing otherwise. -/
def RangeExact (header : String) (size : Nat) : Prop :=
  (∀ range, SpellsRange false header range → parseRange header size = range.interval size) ∧
    ((∀ range, ¬ SpellsRange false header range) → parseRange header size = none)

/-- Where the header is a satisfiable range, with plus signs or without, its numbers are of 64
bits exactly if it has no plus sign. -/
def ReadAsWritten (header : String) (size : Nat) : Prop :=
  ∀ signed range, SpellsRange signed header range → (range.interval size).isSome = true →
    (range.Fits ↔ signed = false)

theorem rangeExact_iff {header : String} {size : Nat} :
    RangeExact header size ↔ ReadAsWritten header size := by
  constructor
  · rintro ⟨exact, malformed⟩ signed range spells satisfiable
    obtain ⟨interval, inside⟩ := Option.isSome_iff_exists.mp satisfiable
    constructor
    · intro fits
      by_contra plus
      rw [Bool.not_eq_false] at plus
      subst plus
      have nothing := malformed fun other again => nomatch (spells.unique again).1
      rw [parseRange_eq_some.mpr ⟨true, range, spells, fits, inside⟩] at nothing
      cases nothing
    · rintro rfl
      have read := (exact range spells).trans inside
      obtain ⟨signed, other, again, fits, _⟩ := parseRange_eq_some.mp read
      rw [(spells.unique again).2]
      exact fits
  · intro written
    constructor
    · intro range spells
      cases inside : range.interval size with
      | none =>
        rw [Option.eq_none_iff_forall_ne_some]
        intro interval parsed
        obtain ⟨signed, other, again, _, satisfied⟩ := parseRange_eq_some.mp parsed
        rw [← (spells.unique again).2, inside] at satisfied
        cases satisfied
      | some interval =>
        have fits := (written false range spells (inside ▸ rfl)).mpr rfl
        exact parseRange_eq_some.mpr ⟨false, range, spells, fits, inside⟩
    · intro malformed
      rw [Option.eq_none_iff_forall_ne_some]
      intro interval parsed
      obtain ⟨signed, range, spells, fits, inside⟩ := parseRange_eq_some.mp parsed
      obtain rfl := (written signed range spells (inside ▸ rfl)).mp fits
      exact malformed range spells

/-- A size that is found is that of the stored blob. -/
theorem length_of_statOrPull {node : BlobNode} {registry : LocalRegistry} {digest : Digest}
    {text : String} {size : Nat} (found : statOrPull node registry digest text = .ok size)
    {bytes : List UInt8} (read : readBlob node registry digest = some bytes) :
    bytes.length = size := by
  rw [statOrPull_eq] at found
  split at found
  · cases found
  · obtain ⟨_, stored⟩ := Option.ite_none_left_eq_some.mp read
    cases failed : node.headError digest with
    | some error =>
      simp only [statBlob, failed] at found
      cases found
    | none =>
      simp only [statBlob, failed, stored] at found
      exact Except.ok.inj found

/-- A part of a blob brings as many bytes as it announces. -/
theorem contentLength_of_getBlobRange {node : BlobNode} {registry : LocalRegistry}
    {digest : Digest} {header : String} {response : BlobResponse}
    (served : getBlobRange node registry digest header = .ok response) :
    ("Content-Length", toString response.body.length) ∈ response.headers := by
  obtain ⟨size, found, served⟩ := exceptBind_eq_ok.mp served
  cases parsed : parseRange header size with
  | none =>
    rw [parsed] at served
    cases served
  | some interval =>
    obtain ⟨first, last⟩ := interval
    obtain ⟨_, _, _, _, inside⟩ := parseRange_eq_some.mp parsed
    have bounds := ByteRange.interval_bounds inside
    rw [parsed] at served
    dsimp only at served
    cases read : readBlob node registry digest with
    | none =>
      rw [read] at served
      cases served
    | some bytes =>
      have whole := length_of_statOrPull found read
      rw [read] at served
      cases served
      have brought : ((bytes.drop first).take (last - first + 1)).length = last - first + 1 := by
        rw [List.length_take, List.length_drop]
        omega
      rw [brought]
      exact List.mem_cons_of_mem _ (List.mem_cons_of_mem _ List.mem_cons_self)

/-- A header gets the interval that its range has exactly where it is read as written. The interval
lies in the blob, and a response announces as many bytes as it brings. -/
theorem ranges_exact_iff (header : String) (size : Nat) :
    (RangeExact header size ↔ ReadAsWritten header size) ∧
      (∀ first last, parseRange header size = some (first, last) → first ≤ last ∧ last < size) ∧
      ∀ node registry digest response, getBlobRange node registry digest header = .ok response →
        ("Content-Length", toString response.body.length) ∈ response.headers := by
  refine ⟨rangeExact_iff, fun first last parsed => ?_,
    fun node registry digest response => contentLength_of_getBlobRange⟩
  obtain ⟨_, _, _, _, inside⟩ := parseRange_eq_some.mp parsed
  exact ByteRange.interval_bounds inside

/-- The number of the last byte asked for has more than 64 bits. -/
theorem long_range_is_refused : ¬ RangeExact "bytes=0-18446744073709551616" 10 := by
  intro exact
  have first : SpellsNumber false "0".toList 0 := ⟨"0".toList, by decide, by decide, rfl, rfl⟩
  have last : SpellsNumber false "18446744073709551616".toList (2 ^ 64) :=
    ⟨"18446744073709551616".toList, by decide, by decide, by decide, rfl⟩
  have answered := exact.1 (.int 0 (some (2 ^ 64))) (.closed first last (by decide))
  exact absurd answered (by decide)

end Layerhouse
