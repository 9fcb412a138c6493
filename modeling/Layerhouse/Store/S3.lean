/-
This file is the part of `store/s3.rs` that commits blobs: `complete_upload`, which
puts the staged parts of an upload together, and `put_streaming`, which stores a
stream. Both hash all bytes, cut them into parts of the smallest size that S3
allows, and compare the digest before they write under the blob's key.

S3 is a parameter: the calls of its client, and what is visible of the bucket.
What the code relies on is stated as the laws of `S3Client.Lawful`. A call may fail
at any time, also after it has had its effect. The hasher is the list of the bytes
it has taken in; its result is the hash of that list.
-/

import Layerhouse.Library.Effects
import Layerhouse.Oci.Digest

namespace Layerhouse

/-! ### The S3 client -/

/-- The errors of the SDK, which print without the text of the service. -/
inductive SdkError where
  | constructionFailure
  | timeoutError
  | dispatchFailure
  | responseError
  | serviceError
deriving DecidableEq

def SdkError.toStr : SdkError → String
  | .constructionFailure => "failed to construct request"
  | .timeoutError => "request has timed out"
  | .dispatchFailure => "dispatch failure"
  | .responseError => "response error"
  | .serviceError => "service error"

structure CompletedPart where
  partNumber : Nat
  eTag : Option String

/-- The calls the store makes. A read answers with the collected body, or with nothing when there
is no such key; the texts of its failures are not limited. -/
structure S3Client (Bucket : Type) where
  getObject : String → EStateM String Bucket (Option (List UInt8))
  putObject : String → List UInt8 → EStateM SdkError Bucket Unit
  deleteObject : String → EStateM SdkError Bucket Unit
  createMultipartUpload : String → EStateM SdkError Bucket (Option String)
  uploadPart : String → String → Nat → List UInt8 → EStateM SdkError Bucket (Option String)
  completeMultipartUpload : String → String → List CompletedPart → EStateM SdkError Bucket Unit
  abortMultipartUpload : String → String → EStateM SdkError Bucket Unit

/-- An object as it was written: as a whole, or in parts that were put together. -/
inductive StoredObject where
  | whole (content : List UInt8)
  | multipart (parts : List (List UInt8))
deriving DecidableEq

def StoredObject.bytes : StoredObject → List UInt8
  | whole content => content
  | multipart parts => parts.flatten

/-- What is visible of a bucket: the object under a key, and the uploaded part with a number of
an upload that is not completed. -/
structure S3View (Bucket : Type) where
  object : Bucket → String → Option StoredObject
  part : Bucket → String → Nat → Option (List UInt8)

/-- What S3 documents of the calls. Whatever a call answers, it changes at most what it names. -/
structure S3Client.Lawful {Bucket : Type} (client : S3Client Bucket) (view : S3View Bucket) :
    Prop where
  getObject : ∀ key bucket, Ends (client.getObject key) bucket
    (fun body final => (view.object final = view.object bucket ∧
      view.part final = view.part bucket) ∧
      ∀ bytes, body = some bytes → (view.object bucket key).map StoredObject.bytes = some bytes)
    (fun _ final => view.object final = view.object bucket)
  putObject : ∀ key content bucket, Ends (client.putObject key content) bucket
    (fun _ final => view.object final key = some (.whole content)) (fun _ _ => True)
  deleteObject : ∀ key bucket, Ends (client.deleteObject key) bucket
    (fun _ final => ∀ other, other ≠ key → view.object final other = view.object bucket other)
    (fun _ _ => True)
  createMultipartUpload : ∀ key bucket, Ends (client.createMultipartUpload key) bucket
    (fun _ final => view.object final = view.object bucket)
    (fun _ final => view.object final = view.object bucket)
  uploadPart : ∀ key id number content bucket,
    Ends (client.uploadPart key id number content) bucket
      (fun _ final => view.object final = view.object bucket ∧
        view.part final id number = some content ∧
        ∀ other, other ≠ number → view.part final id other = view.part bucket id other)
      (fun _ final => view.object final = view.object bucket)
  completeMultipartUpload : ∀ key id (listed : List CompletedPart) parts bucket,
    (listed.map (·.partNumber)).Pairwise (· < ·) →
    List.Forall₂ (fun completed content =>
      view.part bucket id completed.partNumber = some content) listed parts →
    Ends (client.completeMultipartUpload key id listed) bucket
      (fun _ final => view.object final key = some (.multipart parts)) (fun _ _ => True)
  abortMultipartUpload : ∀ key id bucket, Ends (client.abortMultipartUpload key id) bucket
    (fun _ final => view.object final = view.object bucket)
    (fun _ final => view.object final = view.object bucket)

/-! ### Staged uploads -/

/-- The smallest part of a multipart upload other than its last. -/
def minPartSize : Nat := 5 * 1024 * 1024

structure StagedUploadPart where
  number : Nat
  key : String
  size : Nat
deriving DecidableEq

structure StagedUploadState where
  parts : List StagedUploadPart
  nextPartNumber : Nat
  totalBytes : Nat
deriving DecidableEq

def uploadStateKey (sessionId : String) : String :=
  "uploads/" ++ sessionId ++ "/blob-state.json"

/-- The number with leading zeros, twenty digits at least. -/
def zeroPadded (number : Nat) : String :=
  String.ofList (List.replicate (20 - (toString number).length) '0') ++ toString number

def uploadPartKey (sessionId : String) (partNumber : Nat) : String :=
  "uploads/" ++ sessionId ++ "/parts/" ++ zeroPadded partNumber

theorem ofDigitChars_zeroPadded (number : Nat) :
    Nat.ofDigitChars 10 (zeroPadded number).toList 0 = number := by
  have digits : (toString number).toList = Nat.toDigits 10 number := by
    rw [Nat.toString_eq_repr, Nat.toList_repr]
  rw [zeroPadded, String.toList_append, String.toList_ofList, Nat.ofDigitChars_append,
    Nat.ofDigitChars_replicate_zero, digits, Nat.mul_zero, Nat.ofDigitChars_ten_toDigits]

/-- Two parts of one upload with the same key have the same number. -/
theorem uploadPartKey_inj {sessionId : String} {first second : Nat}
    (same : uploadPartKey sessionId first = uploadPartKey sessionId second) : first = second := by
  have lists := congrArg String.toList same
  simp only [uploadPartKey, String.toList_append] at lists
  rw [← ofDigitChars_zeroPadded first, List.append_cancel_left lists, ofDigitChars_zeroPadded]

/-- The store with what it uses of other packages: the S3 client, SHA-256 and the JSON coding of
the staged state. -/
structure S3BlobStore (Bucket : Type) where
  client : S3Client Bucket
  sha256 : List UInt8 → Vector UInt8 32
  decodeState : List UInt8 → Except String StagedUploadState

/-! ### Putting parts together -/

/-- What the loops over the bytes carry: the bytes hashed so far, those not yet uploaded, and the
multipart upload. -/
structure Assembly where
  hashed : List UInt8
  buffer : List UInt8
  uploadId : Option String
  uploadedParts : List CompletedPart
  partNumber : Nat

/-- The assembly when nothing is read yet. -/
def Assembly.empty (uploadId : Option String) : Assembly where
  hashed := []
  buffer := []
  uploadId := uploadId
  uploadedParts := []
  partNumber := 0

/-- One more part with the next number. -/
def Assembly.addPart (assembly : Assembly) (uploadId : String) (eTag : Option String) :
    Assembly :=
  { assembly with
    uploadId := some uploadId
    uploadedParts := assembly.uploadedParts ++ [⟨assembly.partNumber + 1, eTag⟩]
    partNumber := assembly.partNumber + 1 }

section Loops

variable {Bucket : Type}

/-- The loop that uploads full parts while the buffer holds one; `upload` is what it does with a
part. Each turn shortens the buffer, so as many turns as it has bytes are enough. -/
def uploadFullParts
    (upload : Assembly → List UInt8 → EStateM LayerhouseError Bucket Assembly) :
    Nat → Assembly → EStateM LayerhouseError Bucket Assembly
  | 0, assembly => pure assembly
  | turns + 1, assembly =>
    if assembly.buffer.length < minPartSize then pure assembly
    else do
      let part := assembly.buffer.take minPartSize
      let assembly ← upload { assembly with buffer := assembly.buffer.drop minPartSize } part
      uploadFullParts upload turns assembly

/-- Hash a chunk, put it into the buffer and upload the full parts. -/
def absorbChunk (upload : Assembly → List UInt8 → EStateM LayerhouseError Bucket Assembly)
    (assembly : Assembly) (chunk : List UInt8) : EStateM LayerhouseError Bucket Assembly :=
  let filled :=
    { assembly with hashed := assembly.hashed ++ chunk, buffer := assembly.buffer ++ chunk }
  uploadFullParts upload filled.buffer.length filled

end Loops

namespace S3BlobStore

variable {Bucket : Type} (store : S3BlobStore Bucket)

/-- A call of the client whose error is reported as an S3 error. -/
def call {Value : Type} (program : EStateM SdkError Bucket Value) :
    EStateM LayerhouseError Bucket Value :=
  EStateM.adaptExcept (fun error => LayerhouseError.s3 error.toStr) program

def getObject (key : String) : EStateM LayerhouseError Bucket (Option (List UInt8)) :=
  EStateM.adaptExcept LayerhouseError.s3 (store.client.getObject key)

def readUploadState (sessionId : String) :
    EStateM LayerhouseError Bucket (Option StagedUploadState) := do
  match ← store.getObject (uploadStateKey sessionId) with
  | none => pure none
  | some bytes =>
    match store.decodeState bytes with
    | .error error => throw (.s3 ("decode upload state: " ++ error))
    | .ok state => pure (some state)

def deleteStagedUpload : List StagedUploadPart → EStateM LayerhouseError Bucket Unit
  | [] => pure ()
  | part :: rest => do
    call (store.client.deleteObject part.key)
    deleteStagedUpload rest

/-- The multipart upload, which is created when there is none yet. -/
def openUpload (key : String) : Option String → EStateM LayerhouseError Bucket String
  | some uploadId => pure uploadId
  | none => do
    match ← call (store.client.createMultipartUpload key) with
    | some uploadId => pure uploadId
    | none => throw (.s3 "no upload_id returned")

def uploadFinalPart (key : String) (assembly : Assembly) (part : List UInt8) :
    EStateM LayerhouseError Bucket Assembly := do
  let uploadId ← store.openUpload key assembly.uploadId
  let eTag ← call (store.client.uploadPart key uploadId (assembly.partNumber + 1) part)
  pure (assembly.addPart uploadId eTag)

/-- Read the staged parts in order, check their sizes and upload what they fill. -/
def assembleParts (key : String) :
    List StagedUploadPart → Assembly → EStateM LayerhouseError Bucket Assembly
  | [], assembly => pure assembly
  | part :: rest, assembly => do
    match ← store.getObject part.key with
    | none => throw (.s3 "service error")
    | some bytes =>
      if bytes.length ≠ part.size then
        throw (.s3 ("staged upload part size changed: " ++ part.key))
      else do
        let assembly ← absorbChunk (store.uploadFinalPart key) assembly bytes
        assembleParts key rest assembly

/-- The error of a blob whose bytes have another digest. -/
def digestMismatch (expected actual : String) : LayerhouseError :=
  .s3 ("digest mismatch: expected " ++ expected ++ ", got " ++ actual)

/-- Write the assembled bytes under the key: complete the multipart upload if there is one, with
the rest of the buffer as its last part, or put the buffer as a whole. -/
def commitAssembly (key : String) (assembly : Assembly) : EStateM LayerhouseError Bucket Unit :=
  match assembly.uploadId with
  | some uploadId => do
    let assembly ←
      if assembly.buffer.isEmpty then pure assembly
      else store.uploadFinalPart key { assembly with buffer := [] } assembly.buffer
    call (store.client.completeMultipartUpload key uploadId assembly.uploadedParts)
  | none => call (store.client.putObject key assembly.buffer)

def completeUpload (sessionId : String) (expectedDigest : Digest) :
    EStateM LayerhouseError Bucket Unit := do
  match ← store.readUploadState sessionId with
  | none => throw (.s3 ("no upload session: " ++ sessionId))
  | some state =>
    let parts := state.parts.insertionSort fun first second => first.number ≤ second.number
    let finalKey := expectedDigest.s3Key
    let assembly ← store.assembleParts finalKey parts (.empty none)
    let actualDigest := Digest.sha256 store.sha256 assembly.hashed
    if actualDigest.toStr ≠ expectedDigest.toStr then do
      match assembly.uploadId with
      | some uploadId => ignore (store.client.abortMultipartUpload finalKey uploadId)
      | none => pure ()
      throw (digestMismatch expectedDigest.toStr actualDigest.toStr)
    else do
      store.commitAssembly finalKey assembly
      call (store.client.deleteObject (uploadStateKey sessionId))
      store.deleteStagedUpload parts

/-! ### Streams -/

/-- Abort the multipart upload, whether that works or not, and answer with the error. -/
def abortWith {Value : Type} (key uploadId : String) (error : LayerhouseError) :
    EStateM LayerhouseError Bucket Value := do
  ignore (store.client.abortMultipartUpload key uploadId)
  throw error

/-- The upload of a part of a stream; a failure aborts the multipart upload. -/
def uploadStreamPart (key uploadId : String) (assembly : Assembly) (part : List UInt8) :
    EStateM LayerhouseError Bucket Assembly := fun bucket =>
  match store.client.uploadPart key uploadId (assembly.partNumber + 1) part bucket with
  | .ok eTag uploaded => .ok (assembly.addPart uploadId eTag) uploaded
  | .error error failed => store.abortWith key uploadId (.s3 error.toStr) failed

def absorbStream (key uploadId : String) :
    List (Except String (List UInt8)) → Assembly → EStateM LayerhouseError Bucket Assembly
  | [], assembly => pure assembly
  | .error error :: _, _ => store.abortWith key uploadId (.s3 error)
  | .ok chunk :: rest, assembly => do
    let assembly ← absorbChunk (store.uploadStreamPart key uploadId) assembly chunk
    absorbStream key uploadId rest assembly

/-- Complete the multipart upload of a stream; a failure aborts it. -/
def completeStream (key uploadId : String) (parts : List CompletedPart) :
    EStateM LayerhouseError Bucket Unit := fun bucket =>
  match store.client.completeMultipartUpload key uploadId parts bucket with
  | .ok () completed => .ok () completed
  | .error error failed => store.abortWith key uploadId (.s3 error.toStr) failed

def putStreaming (digest : Digest) (stream : List (Except String (List UInt8))) :
    EStateM LayerhouseError Bucket Unit := do
  let key := digest.s3Key
  let uploadId ← store.openUpload key none
  let assembly ← store.absorbStream key uploadId stream (.empty (some uploadId))
  let actualDigest := Digest.sha256 store.sha256 assembly.hashed
  if actualDigest.toStr ≠ digest.toStr then
    store.abortWith key uploadId (digestMismatch digest.toStr actualDigest.toStr)
  else do
    let assembly ←
      if ¬ assembly.buffer.isEmpty ∨ assembly.uploadedParts.isEmpty then
        store.uploadStreamPart key uploadId { assembly with buffer := [] } assembly.buffer
      else pure assembly
    store.completeStream key uploadId assembly.uploadedParts

end S3BlobStore

end Layerhouse
