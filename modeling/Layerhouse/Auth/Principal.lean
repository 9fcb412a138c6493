/-
This file is the part of `auth/principal.rs` that the replicated state and the
credentials depend on: provider-qualified ids and their kind. An id is a string of
the shape `provider:kind:local`; nothing stops a decoded request from holding
another string, and reading the kind of such an id panics.
-/

import Layerhouse.Error

namespace Layerhouse

/-- The immutable identity-provider subject of a principal. -/
abbrev Subject := String

inductive PrincipalKind where
  | user
  | group
deriving DecidableEq

def PrincipalKind.asStr : PrincipalKind → String
  | .user => "user"
  | .group => "group"

def PrincipalKind.fromStr (value : String) : Except LayerhouseError PrincipalKind :=
  if value = "user" then .ok .user
  else if value = "group" then .ok .group
  else .error (.nameInvalid ("invalid principal kind " ++ Text.debugStr value))

structure ProviderQualifiedId where
  text : String
deriving DecidableEq

/-- The checked name of an identity provider. -/
def ProviderId.new (value : String) : Except LayerhouseError String :=
  let trimmed := Text.trim value.toList
  let shown := Text.debugStr (String.ofList trimmed)
  match trimmed with
  | [] => .error (.nameInvalid "principal provider must not be empty")
  | first :: rest =>
    if 64 < (Text.utf8 trimmed).length then
      .error (.nameInvalid ("principal provider must be at most 64 characters: " ++ shown))
    else if ¬ first.isLower then
      .error (.nameInvalid
        ("principal provider must start with a lowercase ASCII letter: " ++ shown))
    else if ¬ rest.all fun char => char.isLower ∨ char.isDigit ∨ char = '_' ∨ char = '-' then
      .error (.nameInvalid ("principal provider contains invalid characters: " ++ shown))
    else .ok (String.ofList trimmed)

def PrincipalLocalId.new (value : String) : Except LayerhouseError String :=
  if value = "" then .error (.nameInvalid "principal id must not be empty") else .ok value

/-- One byte of a local id: unreserved characters stand for themselves, all others are escaped
with two upper-case hexadecimal digits. -/
def escapeByte (byte : UInt8) : List Char :=
  let char := Char.ofNat byte.toNat
  let digit := fun value => "0123456789ABCDEF".toList.getD value '0'
  if char.isAlphanum ∨ char ∈ ['.', '_', '-', '~'] then [char]
  else ['%', digit (byte.toNat / 16), digit (byte.toNat % 16)]

def escapeLocalId (value : String) : String :=
  String.ofList ((Text.utf8 value.toList).flatMap escapeByte)

def ProviderQualifiedId.new (provider : String) (kind : PrincipalKind) (id : String) :
    Except LayerhouseError ProviderQualifiedId :=
  match ProviderId.new provider with
  | .error error => .error error
  | .ok provider =>
    match PrincipalLocalId.new id with
    | .error error => .error error
    | .ok id => .ok ⟨provider ++ ":" ++ kind.asStr ++ ":" ++ escapeLocalId id⟩

def hexValue (byte : UInt8) : Option UInt8 :=
  if 0x30 ≤ byte ∧ byte ≤ 0x39 then some (byte - 0x30)
  else if 0x61 ≤ byte ∧ byte ≤ 0x66 then some (byte - 0x61 + 10)
  else if 0x41 ≤ byte ∧ byte ≤ 0x46 then some (byte - 0x41 + 10)
  else none

/-- The loop of `unescape_local_id` over the bytes that are left; `shown` is the whole text as
its errors print it. -/
def unescapeBytes (shown : String) : List UInt8 → Except LayerhouseError (List UInt8)
  | [] => .ok []
  | 0x25 :: high :: low :: rest =>
    match hexValue high, hexValue low with
    | some high, some low =>
      match unescapeBytes shown rest with
      | .error error => .error error
      | .ok decoded => .ok (((high <<< 4) ||| low) :: decoded)
    | _, _ => .error (.nameInvalid ("principal id contains invalid escape: " ++ shown))
  | byte :: rest =>
    if byte = 0x25 then
      .error (.nameInvalid ("principal id contains truncated escape: " ++ shown))
    else
      match unescapeBytes shown rest with
      | .error error => .error error
      | .ok decoded => .ok (byte :: decoded)

/-- The text a local id was escaped from. The decoder's own message is not modelled. -/
def unescapeLocalId (value : List Char) : Except LayerhouseError String :=
  match unescapeBytes (Text.debugStr (String.ofList value)) (Text.utf8 value) with
  | .error error => .error error
  | .ok decoded =>
    match Text.fromUtf8 decoded with
    | some text => .ok (String.ofList text)
    | none => .error (.nameInvalid "principal id is not valid UTF-8")

def ProviderQualifiedId.parse (value : String) : Except LayerhouseError ProviderQualifiedId :=
  let trimmed := Text.trim value.toList
  match trimmed.splitOn ':' with
  | [provider, kind, id] =>
    match PrincipalKind.fromStr (String.ofList kind) with
    | .error error => .error error
    | .ok kind =>
      match unescapeLocalId id with
      | .error error => .error error
      | .ok text =>
        match PrincipalLocalId.new text with
        | .error error => .error error
        | .ok id => ProviderQualifiedId.new (String.ofList provider) kind id
  | _ => .error (.nameInvalid ("principal id must have provider:kind:id shape: " ++
      Text.debugStr (String.ofList trimmed)))

/-- The ids of the groups whose name is a UUID, in order and without repetitions. -/
def stableGroupIds (isUuid : String → Bool) (provider : String) (groups : List String) :
    List ProviderQualifiedId :=
  let ids := groups.filterMap fun group =>
    let trimmed := String.ofList (Text.trim group.toList)
    if isUuid trimmed then (ProviderQualifiedId.new provider .group trimmed).toOption else none
  (ids.mergeSort (fun first second => first.text ≤ second.text)).dedup

/-- The kind named by the second segment of an id; any other second segment panics. -/
def ProviderQualifiedId.kind (id : ProviderQualifiedId) : Except Panic PrincipalKind :=
  match PrincipalKind.fromStr (String.ofList ((id.text.toList.splitOn ':').getD 1 [])) with
  | .ok kind => .ok kind
  | .error _ => .error ⟨"ProviderQualifiedId is constructed canonically"⟩

def ensureKind (id : ProviderQualifiedId) (kind : PrincipalKind) :
    Except Panic (Except LayerhouseError Unit) :=
  match id.kind with
  | .error panic => .error panic
  | .ok found =>
    if found ≠ kind then
      .ok (.error (.nameInvalid ("principal id " ++ id.text ++ " is not a " ++ kind.asStr)))
    else .ok (.ok ())

end Layerhouse
