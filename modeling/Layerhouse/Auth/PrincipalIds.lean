/-
This file proves that provider-qualified ids are canonical. Policies and grants compare their
strings, so an id must be the only string of its provider, kind and local id, and must say
which these are.

The local id is escaped byte by byte into letters, digits and six signs, none of them a colon
or white space. The decoder reads more than the encoder writes, such as lower-case digits, but
whatever it reads is encoded again before it is an id.
-/

import Layerhouse.Auth.PolicyText

namespace Layerhouse

/-- `local_id`; its `expect` panics on an escape that cannot be read. -/
def ProviderQualifiedId.localId (id : ProviderQualifiedId) : Except Panic String :=
  match unescapeLocalId ((id.text.toList.splitOn ':').getD 2 []) with
  | .ok text => .ok text
  | .error _ => .error ⟨"ProviderQualifiedId is constructed canonically"⟩

/-! ### Escaped bytes -/

/-- The characters of an id besides its colons. -/
def isIdChar (char : Char) : Bool :=
  char.isAlphanum ∨ char ∈ ['.', '_', '-', '~', '%']

/-- The byte of a digit that `escape_local_id` writes. -/
def hexDigitByte (value : Nat) : UInt8 :=
  UInt8.ofNat ("0123456789ABCDEF".toList.getD value '0').toNat

/-- The bytes that a byte is escaped into. -/
def escapedBytes (byte : UInt8) : List UInt8 :=
  if isIdChar (Char.ofNat byte.toNat) ∧ byte ≠ 0x25 then [byte]
  else [0x25, hexDigitByte (byte.toNat / 16), hexDigitByte (byte.toNat % 16)]

theorem escapeByte_table : ∀ number ∈ List.range 256,
    escapeByte (UInt8.ofNat number) =
        (escapedBytes (UInt8.ofNat number)).map (fun byte => Char.ofNat byte.toNat) ∧
      (escapedBytes (UInt8.ofNat number)).all (· < 0x80) = true ∧
      (escapeByte (UInt8.ofNat number)).all isIdChar = true ∧
      ((hexValue (hexDigitByte (number / 16))).bind fun high =>
        (hexValue (hexDigitByte (number % 16))).map fun low => (high <<< 4) ||| low) =
          some (UInt8.ofNat number) := by
  decide +kernel

theorem escapeByte_spec (byte : UInt8) :
    escapeByte byte = (escapedBytes byte).map (fun byte => Char.ofNat byte.toNat) ∧
      (escapedBytes byte).all (· < 0x80) = true ∧ (escapeByte byte).all isIdChar = true ∧
      ((hexValue (hexDigitByte (byte.toNat / 16))).bind fun high =>
        (hexValue (hexDigitByte (byte.toNat % 16))).map fun low => (high <<< 4) ||| low) =
          some byte := by
  have row := escapeByte_table byte.toNat (List.mem_range.mpr byte.toNat_lt)
  rwa [UInt8.ofNat_toNat] at row

theorem utf8_escapeByte (byte : UInt8) : Text.utf8 (escapeByte byte) = escapedBytes byte := by
  obtain ⟨spelled, ascii, _⟩ := escapeByte_spec byte
  rw [spelled, Text.utf8_ascii ascii]

/-- The decoder reads an escaped byte. -/
theorem unescapeBytes_escaped {shown : String} {byte : UInt8} {rest decoded : List UInt8}
    (later : unescapeBytes shown rest = .ok decoded) :
    unescapeBytes shown (escapedBytes byte ++ rest) = .ok (byte :: decoded) := by
  rw [escapedBytes]
  split
  · rename_i plain
    rw [List.singleton_append, unescapeBytes, if_neg plain.2, later]
    exact fun _ _ _ mark => absurd mark plain.2
  · obtain ⟨_, _, _, read⟩ := escapeByte_spec byte
    obtain ⟨high, ofHigh, ofLow⟩ := Option.bind_eq_some_iff.mp read
    obtain ⟨low, ofLow, same⟩ := Option.map_eq_some_iff.mp ofLow
    rw [List.cons_append, List.cons_append, List.singleton_append, unescapeBytes, ofHigh, ofLow,
      later]
    exact congrArg (fun first => Except.ok (first :: decoded)) same

theorem unescapeBytes_escape (shown : String) (bytes : List UInt8) :
    unescapeBytes shown (Text.utf8 (bytes.flatMap escapeByte)) = .ok bytes := by
  induction bytes with
  | nil => rfl
  | cons byte bytes inductionHypothesis =>
    rw [List.flatMap_cons, Text.utf8_append, utf8_escapeByte]
    exact unescapeBytes_escaped inductionHypothesis

/-- What a local id is escaped into is read as the local id. -/
theorem unescapeLocalId_escape (id : String) :
    unescapeLocalId (escapeLocalId id).toList = .ok id := by
  have decoded : Text.fromUtf8 (Text.utf8 id.toList) = some id.toList :=
    Text.fromUtf8_eq_some.mpr rfl
  rw [unescapeLocalId, escapeLocalId, String.toList_ofList, unescapeBytes_escape]
  simp only [decoded, String.ofList_toList]

/-! ### Characters of an id -/

/-- No character of an id is a colon or white space. -/
theorem isIdChar_plain {char : Char} (idChar : isIdChar char = true) :
    char ≠ ':' ∧ Text.isWhitespace char = false := by
  have small : char.toNat < 128 := by
    rw [isIdChar, decide_eq_true_eq] at idChar
    rcases idChar with alphanum | sign
    · exact (Text.visible_of_isAlphanum alphanum).2.trans_lt (by decide)
    · have signs : ['.', '_', '-', '~', '%'].all (·.toNat < 128) = true := by decide
      exact of_decide_eq_true (List.all_eq_true.mp signs char sign)
  have table : ∀ number ∈ List.range 128, isIdChar (Char.ofNat number) = true →
      Char.ofNat number ≠ ':' ∧ Text.isWhitespace (Char.ofNat number) = false := by
    decide +kernel
  have known := table char.toNat (List.mem_range.mpr small)
  rw [Char.ofNat_toNat] at known
  exact known idChar

theorem colon_notMem {text : List Char} (idChars : text.all isIdChar = true) : ':' ∉ text :=
  fun member => (isIdChar_plain (List.all_eq_true.mp idChars ':' member)).1 rfl

theorem trim_idChars {text : List Char}
    (idChars : ∀ char ∈ text, isIdChar char = true ∨ char = ':') :
    Text.trim text = text := by
  have plain : ∀ char ∈ text, Text.isWhitespace char = false := by
    intro char member
    rcases idChars char member with idChar | rfl
    · exact (isIdChar_plain idChar).2
    · decide
  exact Text.trim_eq_self plain

theorem escapeLocalId_idChars (id : String) : (escapeLocalId id).toList.all isIdChar = true := by
  rw [escapeLocalId, String.toList_ofList, List.all_flatMap, List.all_eq_true]
  exact fun byte _ => (escapeByte_spec byte).2.2.1

theorem kind_idChars (kind : PrincipalKind) : kind.asStr.toList.all isIdChar = true := by
  cases kind <;> decide

/-- The grammar of provider names. -/
def IsProviderName (name : List Char) : Prop :=
  ∃ first rest, name = first :: rest ∧ (Text.utf8 name).length ≤ 64 ∧ first.isLower = true ∧
    ∀ char ∈ rest, char.isLower ∨ char.isDigit ∨ char = '_' ∨ char = '-'

theorem ProviderId.new_eq_ok {value name : String} :
    ProviderId.new value = .ok name ↔
      IsProviderName (Text.trim value.toList) ∧ name = String.ofList (Text.trim value.toList) := by
  rw [ProviderId.new]
  cases Text.trim value.toList with
  | nil => exact iff_of_false nofun fun known => nomatch known.1
  | cons first rest =>
    dsimp only
    constructor
    · intro accepted
      split at accepted
      · cases accepted
      · rename_i short
        split at accepted
        · cases accepted
        · rename_i lower
          split at accepted
          · cases accepted
          · rename_i others
            rw [not_not, List.all_eq_true] at others
            exact ⟨⟨first, rest, rfl, Nat.not_lt.mp short, not_not.mp lower,
              fun char member => of_decide_eq_true (others char member)⟩,
              (Except.ok.inj accepted).symm⟩
    · rintro ⟨⟨_, _, same, short, lower, others⟩, rfl⟩
      cases same
      have all : rest.all (fun char =>
          char.isLower ∨ char.isDigit ∨ char = '_' ∨ char = '-') = true :=
        List.all_eq_true.mpr fun char member => decide_eq_true (others char member)
      rw [if_neg (Nat.not_lt.mpr short), if_neg (not_not.mpr lower), if_neg (not_not.mpr all)]

theorem IsProviderName.idChars {name : List Char} (valid : IsProviderName name) :
    name.all isIdChar = true := by
  obtain ⟨first, rest, rfl, _, lower, others⟩ := valid
  have letter : ∀ {char : Char}, char.isLower = true → isIdChar char = true := by
    intro char lower
    refine decide_eq_true (Or.inl ?_)
    rw [Char.isAlphanum, Char.isAlpha, lower, Bool.or_true, Bool.true_or]
  refine List.all_eq_true.mpr (List.forall_mem_cons.mpr ⟨letter lower, fun char member => ?_⟩)
  rcases others char member with lower | digit | rfl | rfl
  · exact letter lower
  · refine decide_eq_true (Or.inl ?_)
    rw [Char.isAlphanum, digit, Bool.or_true]
  · decide
  · decide

/-- The name of an accepted provider is accepted as it is. -/
theorem ProviderId.new_idem {value name : String} (accepted : ProviderId.new value = .ok name) :
    ProviderId.new name = .ok name := by
  obtain ⟨valid, rfl⟩ := ProviderId.new_eq_ok.mp accepted
  rw [ProviderId.new_eq_ok, String.toList_ofList, Text.trim_trim]
  exact ⟨valid, rfl⟩

/-! ### Canonical ids -/

namespace ProviderQualifiedId

/-- The id of a provider name, a kind and a local id. -/
def spelled (provider : String) (kind : PrincipalKind) (id : String) : ProviderQualifiedId :=
  ⟨provider ++ ":" ++ kind.asStr ++ ":" ++ escapeLocalId id⟩

variable {provider id : String} {kind : PrincipalKind}

theorem new_eq_ok {value : String} {qualified : ProviderQualifiedId} :
    new value kind id = .ok qualified ↔
      ∃ provider, ProviderId.new value = .ok provider ∧ id ≠ "" ∧
        qualified = spelled provider kind id := by
  rw [new]
  cases ProviderId.new value with
  | error error => exact iff_of_false nofun fun ⟨_, impossible, _⟩ => nomatch impossible
  | ok provider =>
    dsimp only
    rw [PrincipalLocalId.new]
    by_cases empty : id = ""
    · rw [if_pos empty]
      exact iff_of_false nofun fun ⟨_, _, present, _⟩ => present empty
    · rw [if_neg empty]
      constructor
      · intro built
        exact ⟨provider, rfl, empty, (Except.ok.inj built).symm⟩
      · rintro ⟨_, same, _, rfl⟩
        cases same
        rfl

theorem provider_idChars (accepted : ProviderId.new provider = .ok provider) :
    provider.toList.all isIdChar = true := by
  obtain ⟨valid, trimmed⟩ := ProviderId.new_eq_ok.mp accepted
  rw [trimmed, String.toList_ofList]
  exact valid.idChars

theorem toList_spelled :
    (spelled provider kind id).text.toList =
      provider.toList ++ ':' :: (kind.asStr.toList ++ ':' :: (escapeLocalId id).toList) := by
  have colon : ":".toList = [':'] := rfl
  rw [spelled, String.toList_append, String.toList_append, String.toList_append,
    String.toList_append, colon, List.append_assoc, List.append_assoc, List.append_assoc]
  rfl

/-- An id is split at its two colons. -/
theorem splitOn_spelled (accepted : ProviderId.new provider = .ok provider) :
    (spelled provider kind id).text.toList.splitOn ':' =
      [provider.toList, kind.asStr.toList, (escapeLocalId id).toList] := by
  rw [toList_spelled,
    List.splitOn_append_cons_self_of_not_mem (colon_notMem (provider_idChars accepted)),
    List.splitOn_append_cons_self_of_not_mem (colon_notMem (kind_idChars kind)),
    List.splitOn_eq_singleton (colon_notMem (escapeLocalId_idChars id))]

theorem provider_spelled (accepted : ProviderId.new provider = .ok provider) :
    (spelled provider kind id).provider = provider := by
  rw [ProviderQualifiedId.provider, splitOn_spelled accepted]
  exact String.ofList_toList

theorem fromStr_asStr (kind : PrincipalKind) : PrincipalKind.fromStr kind.asStr = .ok kind := by
  cases kind <;> rfl

theorem kind_spelled (accepted : ProviderId.new provider = .ok provider) :
    (spelled provider kind id).kind = .ok kind := by
  rw [ProviderQualifiedId.kind, splitOn_spelled accepted, List.getD_cons_succ, List.getD_cons_zero,
    String.ofList_toList, fromStr_asStr]

theorem localId_spelled (accepted : ProviderId.new provider = .ok provider) :
    (spelled provider kind id).localId = .ok id := by
  rw [ProviderQualifiedId.localId, splitOn_spelled accepted, List.getD_cons_succ,
    List.getD_cons_succ, List.getD_cons_zero, unescapeLocalId_escape]

theorem trim_spelled (accepted : ProviderId.new provider = .ok provider) :
    Text.trim (spelled provider kind id).text.toList = (spelled provider kind id).text.toList := by
  rw [toList_spelled]
  refine trim_idChars fun char member => ?_
  rcases List.mem_append.mp member with inProvider | member
  · exact Or.inl (List.all_eq_true.mp (provider_idChars accepted) char inProvider)
  · rcases List.mem_cons.mp member with isColon | member
    · exact Or.inr isColon
    · rcases List.mem_append.mp member with inKind | member
      · exact Or.inl (List.all_eq_true.mp (kind_idChars kind) char inKind)
      · rcases List.mem_cons.mp member with isColon | inId
        · exact Or.inr isColon
        · exact Or.inl (List.all_eq_true.mp (escapeLocalId_idChars id) char inId)

/-- The parser reads an id as it is. -/
theorem parse_spelled (accepted : ProviderId.new provider = .ok provider) (present : id ≠ "") :
    parse (spelled provider kind id).text = .ok (spelled provider kind id) := by
  rw [parse, trim_spelled accepted, splitOn_spelled accepted]
  dsimp only
  rw [String.ofList_toList, fromStr_asStr]
  dsimp only
  rw [unescapeLocalId_escape]
  dsimp only
  rw [PrincipalLocalId.new, if_neg present, String.ofList_toList]
  exact new_eq_ok.mpr ⟨provider, accepted, present, rfl⟩

/-- An id that is parsed is one that is spelled out. -/
theorem parse_eq_ok {value : String} {qualified : ProviderQualifiedId}
    (parsed : parse value = .ok qualified) :
    ∃ provider kind id, ProviderId.new provider = .ok provider ∧ id ≠ "" ∧
      qualified = spelled provider kind id := by
  rw [parse] at parsed
  split at parsed
  · split at parsed
    · cases parsed
    · split at parsed
      · cases parsed
      · split at parsed
        · cases parsed
        · obtain ⟨provider, accepted, present, rfl⟩ := new_eq_ok.mp parsed
          exact ⟨provider, _, _, ProviderId.new_idem accepted, present, rfl⟩
  · cases parsed

/-- The id of an accepted provider name. -/
theorem new_spelled {qualified : ProviderQualifiedId}
    (accepted : ProviderId.new provider = .ok provider)
    (built : new provider kind id = .ok qualified) : qualified = spelled provider kind id := by
  obtain ⟨_, same, _, rfl⟩ := new_eq_ok.mp built
  rw [accepted] at same
  cases same
  rfl

theorem spelled_inj {other otherId : String} {otherKind : PrincipalKind}
    (accepted : ProviderId.new provider = .ok provider)
    (otherAccepted : ProviderId.new other = .ok other)
    (same : spelled provider kind id = spelled other otherKind otherId) :
    provider = other ∧ kind = otherKind ∧ id = otherId := by
  have ofProvider := congrArg ProviderQualifiedId.provider same
  have ofKind := congrArg ProviderQualifiedId.kind same
  have ofId := congrArg localId same
  rw [provider_spelled accepted, provider_spelled otherAccepted] at ofProvider
  rw [kind_spelled accepted, kind_spelled otherAccepted] at ofKind
  rw [localId_spelled accepted, localId_spelled otherAccepted] at ofId
  exact ⟨ofProvider, Except.ok.inj ofKind, Except.ok.inj ofId⟩

end ProviderQualifiedId

/-- An id says its provider, kind and local id and is the only string of the three; and what the
parser makes of a string, it leaves as it is. -/
theorem provider_qualified_ids_canonical :
    (∀ provider kind id, ProviderId.new provider = .ok provider → id ≠ "" →
      ∃ qualified, ProviderQualifiedId.new provider kind id = .ok qualified ∧
        qualified.provider = provider ∧ qualified.kind = .ok kind ∧ qualified.localId = .ok id ∧
        ProviderQualifiedId.parse qualified.text = .ok qualified) ∧
    (∀ provider kind id other otherKind otherId qualified otherQualified,
      ProviderId.new provider = .ok provider → ProviderId.new other = .ok other →
      ProviderQualifiedId.new provider kind id = .ok qualified →
      ProviderQualifiedId.new other otherKind otherId = .ok otherQualified →
      qualified.text = otherQualified.text →
        provider = other ∧ kind = otherKind ∧ id = otherId) ∧
    ∀ value qualified, ProviderQualifiedId.parse value = .ok qualified →
      ProviderQualifiedId.parse qualified.text = .ok qualified := by
  refine ⟨?_, ?_, ?_⟩
  · intro provider kind id accepted present
    exact ⟨.spelled provider kind id,
      ProviderQualifiedId.new_eq_ok.mpr ⟨provider, accepted, present, rfl⟩,
      ProviderQualifiedId.provider_spelled accepted, ProviderQualifiedId.kind_spelled accepted,
      ProviderQualifiedId.localId_spelled accepted,
      ProviderQualifiedId.parse_spelled accepted present⟩
  · intro provider kind id other otherKind otherId qualified otherQualified accepted otherAccepted
      built otherBuilt same
    have spelled : qualified = otherQualified := congrArg ProviderQualifiedId.mk same
    rw [ProviderQualifiedId.new_spelled accepted built,
      ProviderQualifiedId.new_spelled otherAccepted otherBuilt] at spelled
    exact ProviderQualifiedId.spelled_inj accepted otherAccepted spelled
  · intro value qualified parsed
    obtain ⟨provider, kind, id, accepted, present, rfl⟩ := ProviderQualifiedId.parse_eq_ok parsed
    exact ProviderQualifiedId.parse_spelled accepted present

/-- A local id with a colon, and a spelling of it with a lower-case escape. -/
theorem provider_qualified_ids_canonical_kanidm :
    (∃ qualified, ProviderQualifiedId.new "kanidm" .user "user:1" = .ok qualified ∧
      qualified.provider = "kanidm" ∧ qualified.kind = .ok .user ∧
      qualified.localId = .ok "user:1" ∧
      ProviderQualifiedId.parse qualified.text = .ok qualified) ∧
    ("kanidm" = "kanidm" ∧ PrincipalKind.user = .user ∧ "user:1" = "user:1") ∧
    ProviderQualifiedId.parse "kanidm:user:user%3A1" = .ok ⟨"kanidm:user:user%3A1"⟩ :=
  ⟨provider_qualified_ids_canonical.1 "kanidm" .user "user:1" (by decide) (by decide),
    provider_qualified_ids_canonical.2.1 "kanidm" .user "user:1" "kanidm" .user "user:1"
      ⟨"kanidm:user:user%3A1"⟩ ⟨"kanidm:user:user%3A1"⟩ (by decide) (by decide)
      (by decide +kernel) (by decide +kernel) rfl,
    provider_qualified_ids_canonical.2.2 "kanidm:user:user%3a1" ⟨"kanidm:user:user%3A1"⟩
      (by decide +kernel)⟩

end Layerhouse
