/-
This file is the handle grammar of `store/metadata/handle.rs`: the validators of
claimed handles and of repository paths, the reserved handles, and the handle of a
repository, the text before its first slash. The validators walk the bytes of the
text, so an illegal character is reported by its first byte.
-/

import Layerhouse.Error

namespace Layerhouse

def handleMinLen : Nat := 3

def handleMaxLen : Nat := 39

def reservedHandles : List String := ["users"]

def isHandleReserved (handle : String) : Bool :=
  reservedHandles.contains handle

/-- The bytes of a string. -/
def asBytes (text : String) : List UInt8 :=
  text.toList.flatMap String.utf8EncodeChar

def isAsciiLowercase (byte : UInt8) : Bool := 'a'.toUInt8 ≤ byte ∧ byte ≤ 'z'.toUInt8

def isAsciiDigit (byte : UInt8) : Bool := '0'.toUInt8 ≤ byte ∧ byte ≤ '9'.toUInt8

/-- The loop of the validator over the bytes from an index on; `last` is the last index. -/
def validateHandleBytes (handle : String) (last : Nat) :
    Nat → Bool → List UInt8 → Except LayerhouseError Unit
  | _, _, [] => .ok ()
  | index, prevDash, byte :: rest =>
    let isAlnum := isAsciiLowercase byte ∨ isAsciiDigit byte
    let isDash := byte = '-'.toUInt8
    if ¬ isAlnum ∧ ¬ isDash then
      .error (.nameInvalid ("handle " ++ Text.debugStr handle ++ " contains illegal character " ++
        Text.debugChar (Char.ofNat byte.toNat)))
    else if index = 0 ∧ isDash then
      .error (.nameInvalid ("handle " ++ Text.debugStr handle ++ " cannot start with a dash"))
    else if index = last ∧ isDash then
      .error (.nameInvalid ("handle " ++ Text.debugStr handle ++ " cannot end with a dash"))
    else if isDash ∧ prevDash then
      .error (.nameInvalid ("handle " ++ Text.debugStr handle ++
        " cannot contain consecutive dashes"))
    else validateHandleBytes handle last (index + 1) isDash rest

def validateHandle (handle : String) : Except LayerhouseError Unit :=
  if handle.utf8ByteSize < handleMinLen ∨ handleMaxLen < handle.utf8ByteSize then
    .error (.nameInvalid ("handle " ++ Text.debugStr handle ++ " has invalid length: must be " ++
      toString handleMinLen ++ "..=" ++ toString handleMaxLen ++ " chars"))
  else validateHandleBytes handle ((asBytes handle).length - 1) 0 false (asBytes handle)

def isPathByte (byte : UInt8) : Bool :=
  isAsciiLowercase byte ∨ isAsciiDigit byte ∨ byte = '-'.toUInt8 ∨ byte = '_'.toUInt8 ∨
    byte = '.'.toUInt8

def validatePathSegment (segment : String) : Except LayerhouseError Unit :=
  if segment = "" then .error (.nameInvalid "repository path contains an empty segment")
  else
    match (asBytes segment).find? (¬ isPathByte ·) with
    | some byte =>
      .error (.nameInvalid ("repository path segment " ++ Text.debugStr segment ++
        " contains illegal character " ++ Text.debugChar (Char.ofNat byte.toNat)))
    | none => .ok ()

def validateRepositoryPath (path : String) : Except LayerhouseError Unit :=
  if path = "" then .error (.nameInvalid "repository path is empty")
  else if path.toList.head? = some '/' ∨ path.toList.getLast? = some '/' then
    .error (.nameInvalid ("repository path " ++ Text.debugStr path ++
      " cannot start or end with '/'"))
  else if ['/', '/'] <:+: path.toList then
    .error (.nameInvalid ("repository path " ++ Text.debugStr path ++
      " contains an empty segment"))
  else
    let segments := path.toList.splitOn '/'
    -- A split text has a first segment, so the source's `expect` cannot fail.
    let first := segments.head (List.splitOn_ne_nil '/' path.toList)
    match validateHandle (String.ofList first) with
    | .error error => .error error
    | .ok () =>
      match segments.tail.forM fun segment => validatePathSegment (String.ofList segment) with
      | .error error => .error error
      | .ok () =>
        if segments.tail = [] then
          .error (.nameInvalid ("repository path " ++ Text.debugStr path ++
            " requires at least two segments (<handle>/<name>)"))
        else .ok ()

def handleOf (repository : String) : Except LayerhouseError String :=
  match Text.splitOnce '/' repository.toList with
  | none =>
    .error (.nameInvalid ("repository " ++ Text.debugStr repository ++
      " is missing a namespace handle prefix"))
  | some (head, rest) =>
    if rest = [] then
      .error (.nameInvalid ("repository " ++ Text.debugStr repository ++
        " is missing the name segment after the handle"))
    else .ok (String.ofList head)

/-! ### What the grammar admits -/

theorem validateHandleBytes_ok {handle : String} {last index : Nat} {prevDash : Bool}
    {bytes : List UInt8} (valid : validateHandleBytes handle last index prevDash bytes = .ok ())
    {byte : UInt8} (member : byte ∈ bytes) :
    isAsciiLowercase byte ∨ isAsciiDigit byte ∨ byte = '-'.toUInt8 := by
  induction bytes generalizing index prevDash with
  | nil => cases member
  | cons head rest inductionHypothesis =>
    rw [validateHandleBytes] at valid
    split at valid
    · cases valid
    · rename_i legal
      split at valid
      · cases valid
      · split at valid
        · cases valid
        · split at valid
          · cases valid
          · rcases List.mem_cons.mp member with rfl | later
            · tauto
            · exact inductionHypothesis valid later

/-- The bytes of a valid handle are lowercase letters, digits and dashes. -/
theorem legal_of_validateHandle {handle : String} (valid : validateHandle handle = .ok ())
    {byte : UInt8} (member : byte ∈ asBytes handle) :
    isAsciiLowercase byte ∨ isAsciiDigit byte ∨ byte = '-'.toUInt8 := by
  rw [validateHandle] at valid
  split at valid
  · cases valid
  · exact validateHandleBytes_ok valid member

/-- A valid handle holds no slash. -/
theorem slash_not_mem_of_validateHandle {handle : String} (valid : validateHandle handle = .ok ()) :
    '/' ∉ handle.toList := by
  intro slash
  have member : (47 : UInt8) ∈ asBytes handle := List.mem_flatMap.mpr ⟨'/', slash, by decide⟩
  have legal := legal_of_validateHandle valid member
  revert legal
  decide

/-- A repository with a handle is that handle, a slash and a non-empty rest, and the handle
holds no slash. -/
theorem handleOf_eq_ok {repository handle : String} :
    handleOf repository = .ok handle ↔
      ∃ rest : String, rest ≠ "" ∧ repository = handle ++ "/" ++ rest ∧ '/' ∉ handle.toList := by
  rw [handleOf]
  constructor
  · intro found
    cases split : Text.splitOnce '/' repository.toList with
    | none =>
      rw [split] at found
      cases found
    | some halves =>
      obtain ⟨head, rest⟩ := halves
      rw [split] at found
      simp only at found
      split at found
      · cases found
      · rename_i nonempty
        cases found
        obtain ⟨textEq, absent⟩ := Text.splitOnce_eq_some.mp split
        refine ⟨String.ofList rest, fun empty => nonempty ?_, ?_, ?_⟩
        · have := congrArg String.toList empty
          simpa using this
        · rw [← String.toList_inj, textEq]
          simp
        · simpa using absent
  · rintro ⟨rest, nonempty, rfl, absent⟩
    have split : Text.splitOnce '/' (handle ++ "/" ++ rest).toList =
        some (handle.toList, rest.toList) := by
      refine Text.splitOnce_eq_some.mpr ⟨?_, absent⟩
      simp
    have restNonempty : rest.toList ≠ [] := fun empty => nonempty (by
      rw [← String.toList_inj, empty]
      rfl)
    rw [split]
    simp only [if_neg restNonempty, String.ofList_toList]

end Layerhouse
