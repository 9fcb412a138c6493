/-
This file is the error type every fallible operation of the registry answers
with. The variants are those of `error.rs`; `io` carries the message its wrapped
error prints. A panic is kept apart from an error: it is what a failed `expect`
or slice ends a call with.
-/

import Layerhouse.Library.Text

namespace Layerhouse

/-- The registry's errors, each with the message it is raised with. -/
inductive LayerhouseError where
  | blobUnknown (message : String)
  | blobUploadInvalid (message : String)
  | blobUploadUnknown (message : String)
  | digestInvalid (message : String)
  | manifestBlobUnknown (message : String)
  | manifestInvalid (message : String)
  | manifestUnknown (message : String)
  | nameInvalid (message : String)
  | nameUnknown (message : String)
  | sizeInvalid (message : String)
  | unauthorized (message : String) (realm service scope : Option String)
  | denied (message : String)
  | unsupported (message : String)
  | tooManyRequests (message : String)
  | conflict (message : String)
  | s3 (message : String)
  | io (message : String)
  | serialization (message : String)
  | upstream (message : String)
  | notLeader (message : String)
  | consensus (message : String)
  | internal (message : String)
deriving DecidableEq

/-- The text an error is printed as. -/
def LayerhouseError.display : LayerhouseError → String
  | .blobUnknown message => "BLOB_UNKNOWN: " ++ message
  | .blobUploadInvalid message => "BLOB_UPLOAD_INVALID: " ++ message
  | .blobUploadUnknown message => "BLOB_UPLOAD_UNKNOWN: " ++ message
  | .digestInvalid message => "DIGEST_INVALID: " ++ message
  | .manifestBlobUnknown message => "MANIFEST_BLOB_UNKNOWN: " ++ message
  | .manifestInvalid message => "MANIFEST_INVALID: " ++ message
  | .manifestUnknown message => "MANIFEST_UNKNOWN: " ++ message
  | .nameInvalid message => "NAME_INVALID: " ++ message
  | .nameUnknown message => "NAME_UNKNOWN: " ++ message
  | .sizeInvalid message => "SIZE_INVALID: " ++ message
  | .unauthorized message _ _ _ => "UNAUTHORIZED: " ++ message
  | .denied message => "DENIED: " ++ message
  | .unsupported message => "UNSUPPORTED: " ++ message
  | .tooManyRequests message => "TOOMANYREQUESTS: " ++ message
  | .conflict message => "CONFLICT: " ++ message
  | .s3 message => "S3 error: " ++ message
  | .io message => "IO error: " ++ message
  | .serialization message => "serialization error: " ++ message
  | .upstream message => "upstream error: " ++ message
  | .notLeader message => "not leader, redirect to: " ++ message
  | .consensus message => "consensus error: " ++ message
  | .internal message => "internal error: " ++ message

/-- A panic, with the text of what failed. -/
structure Panic where
  message : String
deriving DecidableEq

/-- A slice of a text, or the panic at an offset that is inside a character or past the end. -/
def sliced (piece : Option (List Char)) : Except Panic (List Char) :=
  match piece with
  | some piece => .ok piece
  | none => .error ⟨"byte index is not a char boundary"⟩

theorem exceptMap_eq_ok {Failure Value Result : Type} {f : Value → Result}
    {outcome : Except Failure Value} {result : Result} :
    outcome.map f = .ok result ↔ ∃ value, outcome = .ok value ∧ f value = result := by
  cases outcome with
  | error failure => simp [Except.map]
  | ok value => simp [Except.map]

theorem exceptBind_eq_ok {Failure Value Result : Type} {f : Value → Except Failure Result}
    {outcome : Except Failure Value} {result : Result} :
    outcome >>= f = .ok result ↔ ∃ value, outcome = .ok value ∧ f value = .ok result := by
  cases outcome with
  | error failure => simp [bind, Except.bind]
  | ok value => simp [bind, Except.bind]

theorem exceptToOption_eq_some {Failure Value : Type} {outcome : Except Failure Value}
    {value : Value} : outcome.toOption = some value ↔ outcome = .ok value := by
  cases outcome with
  | error failure => simp [Except.toOption]
  | ok value => simp [Except.toOption]

end Layerhouse
