/-
This file is the registry's content digests: `oci/digest.rs`. A digest is an
algorithm name and a hexadecimal text; the checked parser accepts the two
algorithms the registry knows with the right number of hexadecimal digits. The
SHA-256 function itself is a parameter, a function to 32 bytes, so that the
digest of a body is well formed by its type.
-/

import Layerhouse.Error

namespace Layerhouse

structure Digest where
  algorithm : String
  hex : String
deriving DecidableEq

namespace Digest

/-- `char::is_ascii_hexdigit`. -/
def isAsciiHexdigit (char : Char) : Bool :=
  ('0' ≤ char ∧ char ≤ '9') ∨ ('a' ≤ char ∧ char ≤ 'f') ∨ ('A' ≤ char ∧ char ≤ 'F')

def fromStrChecked (text : String) : Option Digest :=
  match Text.splitOnce ':' text.toList with
  | none => none
  | some (algo, hex) =>
    if String.ofList algo ≠ "sha256" ∧ String.ofList algo ≠ "sha512" then none
    else if (String.ofList hex).utf8ByteSize ≠
        (if String.ofList algo = "sha256" then 64 else 128) then none
    else if ¬ hex.all isAsciiHexdigit then none
    else some ⟨String.ofList algo, String.ofList hex⟩

/-- The digest as it is printed, stored and compared. -/
def toStr (digest : Digest) : String :=
  digest.algorithm ++ ":" ++ digest.hex

/-- The digest is one that the checked parser returns. -/
def Checked (digest : Digest) : Prop :=
  fromStrChecked digest.toStr = some digest

/-- A parsed text is the printed form of its digest, and neither part of it holds a slash. -/
theorem fromStrChecked_eq_some {text : String} {digest : Digest}
    (parsed : fromStrChecked text = some digest) :
    text = digest.toStr ∧ '/' ∉ digest.algorithm.toList ∧ '/' ∉ digest.hex.toList := by
  rw [fromStrChecked] at parsed
  cases split : Text.splitOnce ':' text.toList with
  | none =>
    rw [split] at parsed
    cases parsed
  | some halves =>
    obtain ⟨algo, hex⟩ := halves
    obtain ⟨textEq, _⟩ := Text.splitOnce_eq_some.mp split
    simp only [split, Option.ite_none_left_eq_some, Option.some.injEq, not_not] at parsed
    obtain ⟨known, _, hexadecimal, rfl⟩ := parsed
    refine ⟨?_, fun slash => known ?_, fun slash => ?_⟩
    · rw [← String.toList_inj, textEq]
      simp [toStr]
    · constructor
      · intro named
        simp [named] at slash
      · intro named
        simp [named] at slash
    · have digit := List.all_eq_true.mp hexadecimal '/' (by simpa using slash)
      simp [isAsciiHexdigit] at digit

theorem checked_of_fromStrChecked {text : String} {digest : Digest}
    (parsed : fromStrChecked text = some digest) : digest.Checked := by
  rw [Checked, ← (fromStrChecked_eq_some parsed).1]
  exact parsed

/-- `hex::encode`: two lowercase digits a byte. -/
def hexEncode (bytes : List UInt8) : List Char :=
  bytes.flatMap fun byte => [Nat.digitChar (byte.toNat / 16), Nat.digitChar (byte.toNat % 16)]

/-- The digest of a body under the hash function `hash`. -/
def sha256 (hash : List UInt8 → Vector UInt8 32) (body : List UInt8) : Digest :=
  ⟨"sha256", String.ofList (hexEncode (hash body).toList)⟩

/-- The hash of the empty text. -/
def emptyTextHash : Vector UInt8 32 :=
  #v[0xe3, 0xb0, 0xc4, 0x42, 0x98, 0xfc, 0x1c, 0x14, 0x9a, 0xfb, 0xf4, 0xc8, 0x99, 0x6f, 0xb9,
    0x24, 0x27, 0xae, 0x41, 0xe4, 0x64, 0x9b, 0x93, 0x4c, 0xa4, 0x95, 0x99, 0x1b, 0x78, 0x52,
    0xb8, 0x55]

/-- The hash of the empty object of JSON. -/
def emptyObjectHash : Vector UInt8 32 :=
  #v[0x44, 0x13, 0x6f, 0xa3, 0x55, 0xb3, 0x67, 0x8a, 0x11, 0x46, 0xad, 0x16, 0xf7, 0xe8, 0x64,
    0x9e, 0x94, 0xfb, 0x4f, 0xc2, 0x1f, 0xe7, 0x7e, 0x83, 0x10, 0xc0, 0x60, 0xf6, 0x1c, 0xaa,
    0xff, 0x8a]

/-- Parsing the printed digest of a body gives that digest or nothing. -/
theorem eq_sha256_of_fromStrChecked {hash : List UInt8 → Vector UInt8 32} {body : List UInt8}
    {digest : Digest} (parsed : fromStrChecked (sha256 hash body).toStr = some digest) :
    digest = sha256 hash body := by
  have split : Text.splitOnce ':' (sha256 hash body).toStr.toList =
      some ("sha256".toList, hexEncode (hash body).toList) := by
    refine Text.splitOnce_eq_some.mpr ⟨?_, by decide⟩
    simp [toStr, sha256]
  rw [fromStrChecked, split] at parsed
  simp only [Option.ite_none_left_eq_some, Option.some.injEq] at parsed
  exact parsed.2.2.2.symm

/-- The object-store key of the blob with this digest; slicing the first two characters off a
shorter hexadecimal text would panic, and checked digests never do. -/
def s3Key (digest : Digest) : String :=
  "blobs/" ++ digest.algorithm ++ "/" ++ String.ofList (digest.hex.toList.take 2) ++ "/" ++
    digest.hex

end Digest

end Layerhouse
