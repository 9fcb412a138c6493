/-
This file is the paths of the registry's routes: `percent_decode` and the
dispatcher of `routes/mod.rs`, and what `auth/middleware.rs` reads from a path.

The dispatcher works on the wildcard tail of the path as axum hands it over,
percent-decoded once; the middleware works on the path as it was sent. The two
decoders differ: axum's reads a percent sign and two hexadecimal digits, the
server's own one also reads a plus sign in place of the first digit, because
`u8::from_str_radix` does.
-/

import Layerhouse.Auth.Permissions
import Layerhouse.Auth.Principal
import Layerhouse.Library.Escapes

namespace Layerhouse

/-! ### Percent-decoding -/

/-- The byte that two hexadecimal digits spell. -/
def hexPair (high low : UInt8) : Option UInt8 :=
  match hexValue high, hexValue low with
  | some high, some low => some ((high <<< 4) ||| low)
  | _, _ => none

/-- `u8::from_str_radix` on a text of two bytes, which may start with a plus sign. -/
def fromStrRadix (high low : UInt8) : Option UInt8 :=
  if high = 0x2B then hexValue low else hexPair high low

/-- The bytes of a text with the escapes that `read` accepts replaced. -/
def unescape (read : UInt8 → UInt8 → Option UInt8) (text : String) : List UInt8 :=
  Escapes.decode 0x25 read (Text.utf8 text.toList)

/-- The server's own decoder; a text whose bytes do not decode to UTF-8 is left as it is. -/
def percentDecode (text : String) : String :=
  match Text.fromUtf8 (unescape fromStrRadix text) with
  | some decoded => String.ofList decoded
  | none => text

/-- axum's `Path<String>` of a wildcard tail: decoded once, rejected unless it is UTF-8. -/
def axumPath (tail : String) : Option String :=
  (Text.fromUtf8 (unescape hexPair tail)).map String.ofList

/-! ### Dispatch -/

/-- The handlers that the dispatcher of `/v2/` routes to, with what it passes to them. -/
inductive Route where
  | uploadSession (name sessionId : String)
  | uploadStart (name : String)
  | manifests (name reference : String)
  | tagsList (name : String)
  | referrers (name digest : String)
  | blobs (name digest : String)
deriving DecidableEq

def Route.name : Route → String
  | .uploadSession name _ | .uploadStart name | .manifests name _ | .tagsList name
  | .referrers name _ | .blobs name _ => name

def trimEndSlashes (path : String) : String :=
  String.ofList (path.toList.rdropWhile (· = '/'))

/-- `split_at` with the segments put together: the text around the last needle. -/
def splitAtLast (path needle : String) : Option (String × String) :=
  (Text.rsplitOnce needle.toList path.toList).map fun halves =>
    (String.ofList halves.1, String.ofList halves.2)

def stripSuffix (path trail : String) : Option String :=
  (Text.stripSuffix trail.toList path.toList).map String.ofList

def dispatch (path : String) : Option Route :=
  let path := trimEndSlashes path
  ((splitAtLast path "/blobs/uploads/").map fun halves => .uploadSession halves.1 halves.2).or <|
  ((stripSuffix path "/blobs/uploads").map .uploadStart).or <|
  ((splitAtLast path "/manifests/").map fun halves => .manifests halves.1 halves.2).or <|
  ((stripSuffix path "/tags/list").map .tagsList).or <|
  ((splitAtLast path "/referrers/").map fun halves => .referrers halves.1 halves.2).or <|
  (splitAtLast path "/blobs/").map fun halves => .blobs halves.1 halves.2

/-! ### What the middleware reads from a path -/

def extractRepositoryFromPath (path : String) : String :=
  let raw := ((Text.stripPrefix "/v2/".toList path.toList).map String.ofList).bind fun rest =>
    (((splitAtLast rest "/blobs/uploads/").map (·.1)).or <|
      (stripSuffix rest "/blobs/uploads").or <|
      ((splitAtLast rest "/manifests/").map (·.1)).or <|
      (stripSuffix rest "/tags/list").or <|
      ((splitAtLast rest "/referrers/").map (·.1)).or <|
      (splitAtLast rest "/blobs/").map (·.1)).filter (· ≠ "")
  percentDecode (raw.getD "")

def manifestPutTarget (path : String) : Option (String × String) :=
  (Text.stripPrefix "/v2/".toList path.toList).bind fun rest =>
    match splitAtLast (String.ofList rest) "/manifests/" with
    | none => none
    | some (name, reference) =>
      if name = "" ∨ reference = "" ∨ '/' ∈ reference.toList then none
      else some (name, reference)

inductive Method where
  | get
  | head
  | put
  | post
  | patch
  | delete
deriving DecidableEq

def OciAction.fromMethod : Method → OciAction
  | .get | .head => .pull
  | .delete => .delete
  | _ => .create

/-! ### Texts that decoding leaves as they are -/

theorem string_eq_iff_utf8 {first second : String} :
    first = second ↔ Text.utf8 first.toList = Text.utf8 second.toList := by
  constructor
  · rintro rfl
    rfl
  · intro same
    have decoded := Text.fromUtf8_eq_some.mpr (rfl : Text.utf8 first.toList = _)
    rw [same, Text.fromUtf8_eq_some.mpr rfl] at decoded
    exact String.toList_inj.mp (Option.some.inj decoded).symm

/-- The server's decoder changes a text exactly when the text holds an escape and its bytes
decode to UTF-8. -/
theorem percentDecode_eq_self_iff (text : String) :
    percentDecode text = text ↔
      (Escapes.Escaped 0x25 fromStrRadix (Text.utf8 text.toList) →
        Text.fromUtf8 (unescape fromStrRadix text) = none) := by
  rw [percentDecode]
  cases decoded : Text.fromUtf8 (unescape fromStrRadix text) with
  | none => simp
  | some chars =>
    have bytes := Text.fromUtf8_eq_some.mp decoded
    simp only [reduceCtorEq, imp_false, string_eq_iff_utf8, String.toList_ofList, ← bytes]
    exact Escapes.decode_eq_self_iff

end Layerhouse
