/-
This file is the manifest domain of `raft/state_machine.rs`: pushing, tagging and
deleting manifests, and the reference counts each of these moves. The steps that
several requests share (storing an entry, removing entries, dropping the tags of
removed entries) are functions of their own, in the order the source performs
them.
-/

import Layerhouse.Raft.StateMachine

namespace Layerhouse

/-- The entry a `PutManifest` stores. -/
def PutManifest.entry (externals : Externals) (put : PutManifest) : ManifestEntry where
  digest := (Digest.fromStrChecked put.digest).getD (Digest.sha256 externals.sha256 put.body)
  contentType := put.contentType
  body := put.body
  referencedBlobs :=
    let checked := put.referencedBlobs.filterMap Digest.fromStrChecked
    let refs :=
      if checked.isEmpty then
        match externals.fromSlice put.body with
        | some value => extractReferencedDigests value
        | none => checked
      else checked
    sortDedupDigests refs
  subject := put.subject.bind Digest.fromStrChecked
  artifactType := put.artifactType
  annotations := put.annotations
  storedSizeBytes := put.storedSizeBytes
  manifestSizeBytes := put.manifestSizeBytes
  createdAt := put.createdAt
  lastModified := put.lastModified
  configSummary := put.configSummary

namespace StateMachineData

/-- Insert an entry under its digest and move the reference counts from the entry it replaces
to it. -/
def storeEntry (data : StateMachineData) (name : String) (entry : ManifestEntry) :
    StateMachineData :=
  let repo := data.manifests[name]?.getD ∅
  let stored :=
    { data with manifests := data.manifests.insert name (repo.insert entry.digest.toStr entry) }
  let released :=
    match repo[entry.digest.toStr]? with
    | none => stored
    | some previous => stored.decrementBlobRefs previous
  released.incrementBlobRefs entry

/-- Point a tag at a digest; the tag's cached validations no longer hold. -/
def setTag (data : StateMachineData) (name reference digest : String) : StateMachineData :=
  { data with
    proxyCacheTagValidations :=
      clearProxyCacheTagValidationsForTag data.proxyCacheTagValidations name reference
    tags := data.tags.insert name ((data.tags[name]?.getD ∅).insert reference digest) }

/-- Remove one entry of a repository, if it is there. -/
def removeEntry (data : StateMachineData) (name digest : String) : StateMachineData :=
  match data.manifests[name]? with
  | none => data
  | some repo =>
    let removed := { data with manifests := data.manifests.insert name (repo.erase digest) }
    match repo[digest]? with
    | none => removed
    | some entry => removed.decrementBlobRefs entry

/-- The tags of a repository that point at a digest `hit` answers for. -/
def tagsAt (data : StateMachineData) (name : String) (hit : String → Bool) : List String :=
  match data.tags[name]? with
  | none => []
  | some repoTags => (repoTags.toList.filter fun entry => hit entry.2).map (·.1)

/-- The `retain` that drops the tags of a repository that point at such a digest, and then the
cached validations of each dropped tag. -/
def dropTags (data : StateMachineData) (name : String) (hit : String → Bool) :
    StateMachineData :=
  match data.tags[name]? with
  | none => data
  | some repoTags =>
    { data with
      tags := data.tags.insert name (BTreeMap.retain (fun _ digest => !hit digest) repoTags)
      proxyCacheTagValidations := (data.tagsAt name hit).foldl
        (fun validations tag => clearProxyCacheTagValidationsForTag validations name tag)
        data.proxyCacheTagValidations }

/-- Remove a repository's manifest map, releasing the references of each entry. -/
def removeManifests (data : StateMachineData) (name : String) : StateMachineData :=
  match data.manifests[name]? with
  | none => data
  | some repo =>
    (repo.toList.map (·.2)).foldl decrementBlobRefs
      { data with manifests := data.manifests.erase name }

end StateMachineData

/-- The loop that removes the digests of a set from a repository and collects what it
removed. -/
def removeAll (digests : List String) (repo : BTreeMap String ManifestEntry) :
    BTreeMap String ManifestEntry × List ManifestEntry :=
  digests.foldl (fun state digest =>
    match state.1[digest]? with
    | none => state
    | some entry => (state.1.erase digest, state.2 ++ [entry])) (repo, [])

namespace StateMachineData

/-- Remove several entries of a repository, and release the references of each afterwards. -/
def removeEntries (data : StateMachineData) (name : String) (digests : List String) :
    StateMachineData :=
  match data.manifests[name]? with
  | none => data
  | some repo =>
    (removeAll digests repo).2.foldl decrementBlobRefs
      { data with manifests := data.manifests.insert name (removeAll digests repo).1 }

/-- The number of entries the removal above removes. -/
def removedCount (data : StateMachineData) (name : String) (digests : List String) : Nat :=
  match data.manifests[name]? with
  | none => 0
  | some repo => (removeAll digests repo).2.length

end StateMachineData

def applyManifest (externals : Externals) (data : StateMachineData) :
    ManifestRequest → StateMachineData × Except LayerhouseError ManifestResponse
  | .putManifest put =>
    afterCheck data (requireExpectedNamespace data put.name put.expectedNamespace) <|
      if put.requireReferenceAbsent ∧ ':' ∉ put.reference.toList ∧
          (data.getManifest put.name put.reference).isSome then
        (data, .error (.conflict ("manifest reference " ++ Text.debugStr put.reference ++
          " in repository " ++ Text.debugStr put.name ++ " was created before commit")))
      else
        let entry := put.entry externals
        let stored := data.storeEntry put.name entry
        if ':' ∈ put.reference.toList then (stored, .ok .ok)
        else (stored.setTag put.name put.reference entry.digest.toStr, .ok .ok)
  | .deleteManifest name expected digest =>
    afterCheck data (requireExpectedNamespace data name expected)
      ((data.removeEntry name digest).dropTags name (· = digest), .ok .ok)
  | .deleteTag name expected digest tag =>
    afterCheck data (requireExpectedNamespace data name expected) <|
      match data.tags[name]? with
      | none => (data, .ok (.bool false))
      | some repoTags =>
        if repoTags[tag]? = some digest then
          ({ data with
            tags := data.tags.insert name (repoTags.erase tag)
            proxyCacheTagValidations :=
              clearProxyCacheTagValidationsForTag data.proxyCacheTagValidations name tag },
            .ok (.bool true))
        else (data, .ok (.bool false))
  | .deleteRepository name expected =>
    afterCheck data (requireExpectedNamespace data name expected)
      (let removed := data.removeManifests name
       ({ removed with
          tags := removed.tags.erase name
          proxyCacheTagValidations := clearProxyCacheTagValidationsForRepository
            removed.proxyCacheTagValidations name },
        .ok (.deleteCounts
          ⟨data.manifests[name]?.elim 0 (·.size), data.tags[name]?.elim 0 (·.size)⟩)))
  | .deleteManifests name expected digests =>
    afterCheck data (requireExpectedNamespace data name expected)
      (let digestSet : BTreeMap String Unit :=
         digests.foldl (fun set digest => set.insert digest ()) ∅
       let removed := data.removeEntries name digestSet.keys
       let dropped := removed.dropTags name (digestSet.contains ·)
       (dropped, .ok (.deleteCounts
          ⟨data.removedCount name digestSet.keys,
            (data.tags[name]?.elim 0 (·.size)) - (dropped.tags[name]?.elim 0 (·.size))⟩)))
  | .mountBlob _ destRepo expected _ =>
    afterCheck data (requireExpectedNamespace data destRepo expected) (data, .ok .ok)
  | .recordBlobDelete digest requestedAt =>
    let refCount := data.blobRefCountStr digest
    ({ data with blobDeleteRequests := data.blobDeleteRequests.insert digest requestedAt },
      .ok (.blobDeleteStatus ⟨digest, 0 < refCount, refCount⟩))
  | .clearBlobDelete digest =>
    ({ data with blobDeleteRequests := data.blobDeleteRequests.erase digest }, .ok .ok)

end Layerhouse
