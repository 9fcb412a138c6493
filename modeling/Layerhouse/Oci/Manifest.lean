/-
This file is what the registry reads out of a manifest body: `oci/manifest.rs`.
A parsed body is a JSON value. The digests a manifest refers to are those of its
config, its layers and its artifact blobs, in that order; child manifests of an
index are not among them.
-/

import Layerhouse.Library.BTreeMap
import Layerhouse.Oci.Digest

namespace Layerhouse

/-- A JSON number: an unsigned or a negative integer of 64 bits, or a float given by its
bits. -/
inductive Number where
  | unsigned (value : UInt64)
  | negative (value : Int64)
  | float (bits : UInt64)
deriving DecidableEq

/-- A JSON value; the keys of an object are distinct. -/
inductive Value where
  | null
  | bool (value : Bool)
  | number (value : Number)
  | string (value : String)
  | array (items : List Value)
  | object (fields : List (String × Value))

namespace Value

/-- `Value::get` with a string index. -/
def get : Value → String → Option Value
  | object fields, key => (fields.find? (·.1 = key)).map (·.2)
  | _, _ => none

def asStr : Value → Option String
  | string text => some text
  | _ => none

def asU64 : Value → Option Nat
  | number (.unsigned value) => some value.toNat
  | _ => none

def asArray : Value → Option (List Value)
  | array items => some items
  | _ => none

def asObject : Value → Option Value
  | object fields => some (object fields)
  | _ => none

end Value

def isManifestMediaType (mediaType : String) : Bool :=
  mediaType ∈ ["application/vnd.oci.image.manifest.v1+json",
    "application/vnd.oci.image.index.v1+json", "application/vnd.oci.artifact.manifest.v1+json",
    "application/vnd.docker.distribution.manifest.v2+json",
    "application/vnd.docker.distribution.manifest.list.v2+json"]

structure SizedDescriptor where
  digest : Digest
  size : Nat
deriving DecidableEq

def descriptorDigest (value : Value) : Option Digest := do
  let digest ← (← value.get "digest").asStr
  Digest.fromStrChecked digest

def sizedDescriptor (value : Value) : Option SizedDescriptor := do
  let digest ← descriptorDigest value
  let size ← (← value.get "size").asU64
  return { digest, size }

/-- What `read` finds in the config, the layers and the artifact blobs of a manifest. The two
extractions below are the same walk with another reader. -/
def extractDescriptors {Result : Type} (read : Value → Option Result) (value : Value) :
    List Result :=
  ((value.get "config").bind read).toList ++
    (((value.get "layers").bind Value.asArray).getD []).filterMap read ++
    (((value.get "blobs").bind Value.asArray).getD []).filterMap read

def extractReferencedDigests (value : Value) : List Digest :=
  extractDescriptors descriptorDigest value

theorem mem_extractDescriptors {Result : Type} {read : Value → Option Result} {value : Value}
    {result : Result} :
    result ∈ extractDescriptors read value ↔
      ∃ descriptor ∈ extractDescriptors some value, read descriptor = some result := by
  simp only [extractDescriptors, List.mem_append, Option.mem_toList,
    Option.bind_eq_some_iff, List.mem_filterMap, Option.some.injEq, exists_eq_right]
  constructor
  · rintro ((⟨descriptor, found, read⟩ | ⟨descriptor, found, read⟩) | ⟨descriptor, found, read⟩)
    · exact ⟨descriptor, Or.inl (Or.inl found), read⟩
    · exact ⟨descriptor, Or.inl (Or.inr found), read⟩
    · exact ⟨descriptor, Or.inr found, read⟩
  · rintro ⟨descriptor, (config | layer) | blob, read⟩
    · exact Or.inl (Or.inl ⟨descriptor, config, read⟩)
    · exact Or.inl (Or.inr ⟨descriptor, layer, read⟩)
    · exact Or.inr ⟨descriptor, blob, read⟩

theorem checked_of_mem_extractReferencedDigests {value : Value} {digest : Digest}
    (member : digest ∈ extractReferencedDigests value) : digest.Checked := by
  obtain ⟨descriptor, _, read⟩ := mem_extractDescriptors.mp member
  rw [descriptorDigest] at read
  obtain ⟨field, _, read⟩ := Option.bind_eq_some_iff.mp read
  obtain ⟨text, _, parsed⟩ := Option.bind_eq_some_iff.mp read
  exact Digest.checked_of_fromStrChecked parsed

def extractSizedReferencedDescriptors (value : Value) : List SizedDescriptor :=
  extractDescriptors sizedDescriptor value

/-- A descriptor with a size is counted among the references as well. -/
theorem mem_extractReferencedDigests_of_sized {value : Value} {sized : SizedDescriptor}
    (member : sized ∈ extractSizedReferencedDescriptors value) :
    sized.digest ∈ extractReferencedDigests value := by
  obtain ⟨descriptor, found, read⟩ := mem_extractDescriptors.mp member
  refine mem_extractDescriptors.mpr ⟨descriptor, found, ?_⟩
  rw [sizedDescriptor] at read
  obtain ⟨digest, named, read⟩ := Option.bind_eq_some_iff.mp read
  obtain ⟨field, _, read⟩ := Option.bind_eq_some_iff.mp read
  obtain ⟨size, _, read⟩ := Option.bind_eq_some_iff.mp read
  cases read
  exact named

/-- The largest size stated for each digest, summed in 64 bits. -/
def storedSizeFromDescriptors (descriptors : List SizedDescriptor) : Nat :=
  let byDigest := descriptors.foldl (fun (sizes : BTreeMap String Nat) descriptor =>
    let key := descriptor.digest.toStr
    match sizes[key]? with
    | some size => sizes.insert key (max size descriptor.size)
    | none => sizes.insert key descriptor.size) ∅
  (byDigest.toList.map (·.2)).sum % 2 ^ 64

def storedSizeBytes (value : Value) : Nat :=
  storedSizeFromDescriptors (extractSizedReferencedDescriptors value)

def extractSubjectDigest (value : Value) : Option Digest := do
  let digest ← (← (← value.get "subject").get "digest").asStr
  Digest.fromStrChecked digest

def extractArtifactType (value : Value) : Option String :=
  match (value.get "artifactType").bind Value.asStr with
  | some artifactType => some artifactType
  | none => do
    let mediaType ← (← (← value.get "config").get "mediaType").asStr
    if mediaType ≠ "application/vnd.oci.empty.v1+json" then some mediaType else none

def extractAnnotations (value : Value) : Option Value :=
  value.get "annotations"

/-- A number of the summary below. -/
def summaryNumber (value : Nat) : Value :=
  .number (.unsigned (UInt64.ofNat value))

/-- The length of a list of descriptors and the sum of the sizes stated in it, in 64 bits. -/
def summaryList (countKey sizeKey : String) (items : List Value) : List (String × Value) :=
  [(countKey, summaryNumber items.length),
    (sizeKey, summaryNumber (items.filterMap fun item => (item.get "size").bind Value.asU64).sum)]

def extractConfigSummary (manifest : Value) : Option Value :=
  let config := (manifest.get "config").bind Value.asObject
  let ofConfig (key : String) : Option Value := config.bind (·.get key)
  let list (key : String) : Option (List Value) := (manifest.get key).bind Value.asArray
  let fields :=
    (((ofConfig "mediaType").bind Value.asStr).map (("mediaType", Value.string ·))).toList ++
    (((ofConfig "digest").bind Value.asStr).map (("config_digest", Value.string ·))).toList ++
    (((ofConfig "size").bind Value.asU64).map (("config_size", summaryNumber ·))).toList ++
    ((list "layers").map (summaryList "layer_count" "layer_size_bytes")).getD [] ++
    ((list "blobs").map (summaryList "blob_count" "blob_size_bytes")).getD [] ++
    ((list "manifests").map fun manifests =>
      let platforms := manifests.filterMap (·.get "platform")
      ("manifest_count", summaryNumber manifests.length) ::
        (if platforms.isEmpty then [] else [("platforms", Value.array platforms)])).getD [] ++
    (((manifest.get "artifactType").bind Value.asStr).map
      (("artifactType", Value.string ·))).toList
  if fields.isEmpty then none else some (.object fields)

end Layerhouse
