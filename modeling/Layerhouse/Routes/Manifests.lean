/-
This file is the push of a manifest: `put_manifest` of `routes/manifests.rs` with
the write it ends in, `put_manifest_with_expected_namespace` of `raft/router.rs`.
The handler parses the body, asks the blob store for every blob the manifest
refers to, and commits the entry afterwards. Between the two it looks at the
permissions of the caller again; what that look settles (the epoch the write is
bound to, and whether the reference must be absent) are parameters of the commit.
-/

import Layerhouse.Raft.Apply

namespace Layerhouse

/-- A push whose body was parsed: the blobs it refers to are still to be asked for. -/
structure PushCall where
  name : String
  reference : String
  contentType : String
  body : List UInt8
  parsed : Value

/-- The first part of the handler, up to the blob checks. -/
def PushCall.receive (externals : Externals) (name reference contentType : String)
    (body : List UInt8) : Except LayerhouseError PushCall :=
  if ¬ isManifestMediaType contentType then
    .error (.manifestInvalid ("unsupported media type: " ++ contentType))
  else
    match externals.fromSlice body with
    | none => .error (.manifestInvalid "invalid JSON")
    | some parsed => .ok ⟨name, reference, contentType, body, parsed⟩

namespace PushCall

/-- The blobs the handler asks the store for, repetitions included. -/
def digests (call : PushCall) : List Digest :=
  extractReferencedDigests call.parsed

/-- The digests without those whose printed form came before. -/
def distinctDigests : List String → List Digest → List Digest
  | _, [] => []
  | seen, digest :: rest =>
    if digest.toStr ∈ seen then distinctDigests seen rest
    else digest :: distinctDigests (digest.toStr :: seen) rest

/-- The write that ends the push. -/
def putManifest (externals : Externals) (now : Nat) (call : PushCall)
    (expectedNamespace : Option NamespaceEpoch) (requireReferenceAbsent : Bool) : PutManifest :=
  let entry := ManifestEntry.fromParsedJson externals.sha256 now call.parsed call.contentType
    call.body (distinctDigests [] call.digests)
  { name := call.name
    expectedNamespace := expectedNamespace
    reference := call.reference
    requireReferenceAbsent := requireReferenceAbsent
    digest := entry.digest.toStr
    contentType := entry.contentType
    body := entry.body
    subject := entry.subject.map Digest.toStr
    artifactType := entry.artifactType
    annotations := entry.annotations
    storedSizeBytes := entry.storedSizeBytes
    manifestSizeBytes := entry.manifestSizeBytes
    createdAt := entry.createdAt
    lastModified := entry.lastModified
    configSummary := entry.configSummary
    referencedBlobs := entry.referencedBlobs.map Digest.toStr }

end PushCall

end Layerhouse
