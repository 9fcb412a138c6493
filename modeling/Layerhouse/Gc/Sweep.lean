/-
This file is the garbage collector of `gc.rs` and the system it runs in. A sweep
lists the blob objects page by page, reads the reference counts, keeps the old
unreferenced objects, reads the counts again, and deletes what is left in batches
of a thousand. Meanwhile manifests are pushed (the blobs are asked for one by one,
then the entry is committed), uploads complete, and requests of every other kind
are committed. A push may end with an error at any time.

The blob store is a map from keys to the time of the last write, and each access
to it is one step. The steps of a sweep that the environment decides (which keys a
page holds, whether the node still leads, which deletions fail) are in the labels.
-/

import Layerhouse.Library.Runs
import Layerhouse.Routes.Manifests

namespace Layerhouse

structure GcConfig where
  gracePeriodSecs : Nat
  dryRun : Bool

structure GcBlobObject where
  key : String
  digest : String
  lastModified : Option Nat
deriving DecidableEq

/-- `blobs/sha256/ab/abcdef0123...` is the key of `sha256:abcdef0123...`. -/
def s3KeyToDigest (key : String) : Option String :=
  match Text.splitn '/' 4 key.toList with
  | [kind, algorithm, shard, hex] =>
    if String.ofList kind = "blobs" ∧ (Text.stripPrefix shard hex).isSome then
      some (String.ofList (algorithm ++ ':' :: hex))
    else none
  | _ => none

/-- The objects of one page of a listing. -/
def listPage (objects : BTreeMap String Nat) (keys : List String) : List GcBlobObject :=
  keys.filterMap fun key => do
    let lastModified ← objects[key]?
    let digest ← s3KeyToDigest key
    return ⟨key, digest, some lastModified⟩

def oldEnough (now gracePeriod : Nat) (object : GcBlobObject) : Bool :=
  object.lastModified.any fun modified => modified ≤ now ∧ gracePeriod ≤ now - modified

/-- The objects that the first read of the counts leaves for deletion. -/
def selectCandidates (config : GcConfig) (now : Nat) (refCounts : BTreeMap String Nat)
    (objects : List GcBlobObject) : List GcBlobObject :=
  objects.filter fun object =>
    BTreeMap.count refCounts object.digest = 0 ∧ oldEnough now config.gracePeriodSecs object

/-- Those that the second read of the counts leaves. -/
def finalCheck (freshRefCounts : BTreeMap String Nat) (candidates : List GcBlobObject) :
    List GcBlobObject :=
  candidates.filter fun object => BTreeMap.count freshRefCounts object.digest = 0

def deleteBatchSize : Nat := 1000

/-- Where a sweep stands: before or after its run, listing since a time, between the two reads of
the counts, or deleting. -/
inductive Sweep where
  | idle
  | listing (startedAt : Nat) (objects : List GcBlobObject)
  | selected (candidates : List GcBlobObject)
  | deleting (toDelete : List GcBlobObject)

/-- A push in flight, with the blobs that it has found in the store so far. -/
structure Push where
  call : PushCall
  found : List Digest

structure World where
  data : StateMachineData
  objects : BTreeMap String Nat
  now : Nat
  pushes : List Push
  sweep : Sweep

def World.empty : World where
  data := StateMachineData.empty
  objects := ∅
  now := 0
  pushes := []
  sweep := .idle

inductive GcLabel where
  | tick (seconds : Nat)
  | completeUpload (digest : String)
  | receivePush (name reference contentType : String) (body : List UInt8)
  | statBlob (push position : Nat)
  | commitPush (push : Nat) (expectedNamespace : Option NamespaceEpoch)
      (requireReferenceAbsent : Bool)
  | dropPush (push : Nat)
  | commitOther (request : Request)
  | startSweep
  | listObjects (keys : List String)
  | readRefCounts
  | readFreshRefCounts
  | deleteBatch (stillLeader : Bool) (failed : List String)
  | endSweep

/-- The request is a push; pushes of this system go through the handler. -/
def Request.isPush : Request → Bool
  | .manifest (.putManifest _) => true
  | _ => false

/-- The keys that a batch removes from the store. -/
def batchKeys (toDelete : List GcBlobObject) (failed : List String) : List String :=
  ((toDelete.take deleteBatchSize).map (·.key)).filter (· ∉ failed)

def gcStep (externals : Externals) (config : GcConfig) (world : World) :
    GcLabel → Option World
  | .tick seconds => some { world with now := world.now + seconds }
  | .completeUpload digest =>
    match Digest.fromStrChecked digest with
    | none => none
    | some digest =>
      some { world with objects := world.objects.insert digest.s3Key world.now }
  | .receivePush name reference contentType body =>
    match PushCall.receive externals name reference contentType body with
    | .error _ => none
    | .ok call => some { world with pushes := ⟨call, []⟩ :: world.pushes }
  | .statBlob index position =>
    match world.pushes[index]? with
    | none => none
    | some push =>
      match push.call.digests[position]? with
      | none => none
      | some digest =>
        if digest.s3Key ∈ world.objects then
          some { world with
            pushes := world.pushes.set index { push with found := digest :: push.found } }
        else some { world with pushes := world.pushes.eraseIdx index }
  | .commitPush index expectedNamespace requireReferenceAbsent =>
    match world.pushes[index]? with
    | none => none
    | some push =>
      if push.call.digests.all (· ∈ push.found) then
        match applyRequest externals world.now world.data (.manifest (.putManifest
            (push.call.putManifest externals world.now expectedNamespace
              requireReferenceAbsent))) with
        | .error _ => none
        | .ok (next, _) =>
          some { world with
            data := next
            pushes := world.pushes.eraseIdx index }
      else none
  | .dropPush index => some { world with pushes := world.pushes.eraseIdx index }
  | .commitOther request =>
    if request.isPush then none
    else
      match applyRequest externals world.now world.data request with
      | .error _ => none
      | .ok (next, _) => some { world with data := next }
  | .startSweep =>
    match world.sweep with
    | .idle => some { world with sweep := .listing world.now [] }
    | _ => none
  | .listObjects keys =>
    match world.sweep with
    | .listing startedAt objects =>
      some { world with sweep := .listing startedAt (objects ++ listPage world.objects keys) }
    | _ => none
  | .readRefCounts =>
    match world.sweep with
    | .listing startedAt objects =>
      some { world with
        sweep := .selected (selectCandidates config startedAt world.data.blobRefCounts objects) }
    | _ => none
  | .readFreshRefCounts =>
    match world.sweep with
    | .selected candidates =>
      let toDelete := finalCheck world.data.blobRefCounts candidates
      some { world with sweep := if config.dryRun then .idle else .deleting toDelete }
    | _ => none
  | .deleteBatch stillLeader failed =>
    match world.sweep with
    | .deleting toDelete =>
      if stillLeader then
        some { world with
          objects := (batchKeys toDelete failed).foldl (fun objects key => objects.erase key)
            world.objects
          sweep := .deleting (toDelete.drop deleteBatchSize) }
      else some { world with sweep := .idle }
    | _ => none
  | .endSweep =>
    match world.sweep with
    | .idle => none
    | _ => some { world with sweep := .idle }

end Layerhouse
