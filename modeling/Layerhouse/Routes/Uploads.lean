/-
This file is the upload sessions of `routes/uploads.rs` with what they use of
`store/upload.rs` and `store/s3.rs`. A session is kept in S3 as two objects and
some more: the tracker's record with the offset, the staged state with the list
of parts, and one object for each part. A request is a sequence of accesses to
these objects, and the accesses of several requests interleave in any way.

A request that fails or is dropped ends before its next access. An access that
had its effect and is reported as failed is a request that ends before the access
after it. The accesses that put the blob together touch no object of the session,
other than to read the parts. A POST that carries the whole blob or mounts one
makes no session.
-/

import Layerhouse.Library.BTreeMap
import Layerhouse.Library.Runs
import Layerhouse.Raft.Membership
import Layerhouse.Store.S3

namespace Layerhouse

/-! ### The objects of a session -/

structure UploadSession where
  repo : String
  offset : Nat
deriving DecidableEq

def UploadSession.belongsTo (session : UploadSession) (repo : String) : Bool :=
  session.repo = repo

/-- What S3 holds of one session; a part is found under its key. -/
structure UploadObjects where
  session : Option UploadSession
  staged : Option StagedUploadState
  parts : BTreeMap String (List UInt8)

/-- The staged state that `start_upload` writes. -/
def StagedUploadState.started : StagedUploadState where
  parts := []
  nextPartNumber := 1
  totalBytes := 0

/-- One more part, with the next number. -/
def StagedUploadState.push (state : StagedUploadState) (sessionId : String)
    (data : List UInt8) : StagedUploadState where
  parts := state.parts ++
    [⟨state.nextPartNumber, uploadPartKey sessionId state.nextPartNumber, data.length⟩]
  nextPartNumber := state.nextPartNumber + 1
  totalBytes := state.totalBytes + data.length

/-! ### Requests -/

inductive UploadRequest where
  | start (name : String)
  | patch (name : String) (contentRange : Option String) (body : List UInt8)
  | put (name : String) (digest : Option String) (body : List UInt8)
  | status (name : String)
  | cancel (name : String)
deriving DecidableEq

namespace UploadRequest

/-- The repository of the request's path. -/
def name : UploadRequest → String
  | start name | patch name _ _ | put name _ _ | status name | cancel name => name

def body : UploadRequest → List UInt8
  | patch _ _ body | put _ _ body => body
  | _ => []

/-- The request that makes the session; the others come with the session's id. -/
def starts : UploadRequest → Bool
  | start _ => true
  | _ => false

end UploadRequest

/-- The chunk that a request has staged: its part number and its bytes. -/
abbrev StagedChunk := Nat × List UInt8

/-- The access that a request makes next, with what it carries. -/
inductive UploadStage where
  /-- Writes the empty staged state. -/
  | startState
  /-- Writes the new session. -/
  | startSession
  | lookUp
  | pushRead
  | pushPart (state : StagedUploadState)
  | pushState (state : StagedUploadState)
  | offsetRead (newOffset : Nat) (chunk : Option StagedChunk)
  | offsetWrite (newOffset : Nat) (chunk : Option StagedChunk) (session : UploadSession)
  /-- Reads the staged state; `pushed` is the total when the request has staged its own body. -/
  | completeRead (pushed : Option Nat)
  | assemble (pushed : Option Nat) (parts remaining : List StagedUploadPart)
      (hashed : List UInt8)
  | completeState (pushed : Option Nat) (parts : List StagedUploadPart)
  | deleteParts (remaining : List StagedUploadPart)
  | clearDeleteRequest
  | removeSession
  | cancelRead
  /-- Deletes the parts; `begun` when one may be deleted already. -/
  | cancelParts (begun : Bool) (remaining : List StagedUploadPart)
  | cancelState (begun : Bool)
  /-- Sends the response; `chunk` is what it acknowledges. -/
  | respond (chunk : Option StagedChunk)
deriving DecidableEq

/-- What an access leads to: the request goes on or ends. -/
inductive UploadProgress where
  | continues (stage : UploadStage)
  | ends
deriving DecidableEq

/-- The largest body that is read. -/
def bodyLimit : Nat := 1024 * 1024 * 1024

def parseContentRangeStart (range : String) : Option Nat :=
  let range := (Text.stripPrefix "bytes ".toList range.toList).getD range.toList
  match Text.splitOnce '-' range with
  | none => none
  | some (start, _) => parseU64 start

/-- The header, if there is one and it can be read, asks for another offset. -/
def outOfRange (contentRange : Option String) (session : UploadSession) : Bool :=
  match contentRange.bind parseContentRangeStart with
  | none => false
  | some start => start ≠ session.offset

/-- What a request does when it has found its session. -/
def UploadRequest.begin (session : UploadSession) : UploadRequest → UploadProgress
  | start _ => .ends
  | patch _ contentRange body =>
    if outOfRange contentRange session then .continues (.respond none)
    else if bodyLimit < body.length then .ends
    else .continues .pushRead
  | put _ digest body =>
    match digest.bind Digest.fromStrChecked with
    | none => .ends
    | some _ =>
      if bodyLimit < body.length then .ends
      else if body.isEmpty then .continues (.completeRead none)
      else .continues .pushRead
  | status _ => .continues (.respond none)
  | cancel _ => .continues .cancelRead

/-- What a request does when `push_chunk` has returned the new total. -/
def UploadRequest.afterPush (total : Nat) (chunk : Option StagedChunk) :
    UploadRequest → UploadProgress
  | put _ _ _ => .continues (.completeRead (some total))
  | _ => .continues (.offsetRead total chunk)

/-- The digest a request asks for is that of the bytes. -/
def UploadRequest.accepts (sha256 : List UInt8 → Vector UInt8 32) (hashed : List UInt8) :
    UploadRequest → Bool
  | put _ digest _ =>
    (digest.bind Digest.fromStrChecked).any fun expected =>
      (Digest.sha256 sha256 hashed).toStr = expected.toStr
  | _ => false

section Access

variable (sessionId : String) (sha256 : List UInt8 → Vector UInt8 32)

/-- One access of a request: what the objects are after it and what the request does next. -/
def UploadObjects.access (objects : UploadObjects) (request : UploadRequest) :
    UploadStage → UploadObjects × UploadProgress
  | .startState => ({ objects with staged := some .started }, .continues .startSession)
  | .startSession =>
    ({ objects with session := some ⟨request.name, 0⟩ }, .continues (.respond none))
  | .lookUp =>
    match objects.session with
    | none => (objects, .ends)
    | some session =>
      if session.belongsTo request.name then (objects, request.begin session)
      else (objects, .ends)
  | .pushRead =>
    match objects.staged with
    | none => (objects, .ends)
    | some state =>
      if request.body.isEmpty then (objects, request.afterPush state.totalBytes none)
      else (objects, .continues (.pushPart state))
  | .pushPart state =>
    ({ objects with
        parts := objects.parts.insert (uploadPartKey sessionId state.nextPartNumber)
          request.body },
      .continues (.pushState state))
  | .pushState state =>
    ({ objects with staged := some (state.push sessionId request.body) },
      request.afterPush (state.push sessionId request.body).totalBytes
        (some (state.nextPartNumber, request.body)))
  | .offsetRead newOffset chunk =>
    match objects.session with
    | none => (objects, .continues (.respond chunk))
    | some session => (objects, .continues (.offsetWrite newOffset chunk session))
  | .offsetWrite newOffset chunk session =>
    ({ objects with session := some { session with offset := newOffset } },
      .continues (.respond chunk))
  | .completeRead pushed =>
    match objects.staged with
    | none => (objects, .ends)
    | some state =>
      let parts := state.parts.insertionSort fun first second => first.number ≤ second.number
      (objects, .continues (.assemble pushed parts parts []))
  | .assemble pushed parts (part :: rest) hashed =>
    match objects.parts[part.key]? with
    | none => (objects, .ends)
    | some bytes =>
      if bytes.length ≠ part.size then (objects, .ends)
      else (objects, .continues (.assemble pushed parts rest (hashed ++ bytes)))
  | .assemble pushed parts [] hashed =>
    if request.accepts sha256 hashed then
      (objects, .continues (.completeState pushed parts))
    else (objects, .ends)
  | .completeState _ parts =>
    ({ objects with staged := none }, .continues (.deleteParts parts))
  | .deleteParts (part :: rest) =>
    ({ objects with parts := objects.parts.erase part.key }, .continues (.deleteParts rest))
  | .deleteParts [] => (objects, .continues .clearDeleteRequest)
  | .clearDeleteRequest => (objects, .continues .removeSession)
  | .removeSession => ({ objects with session := none }, .continues (.respond none))
  | .cancelRead =>
    match objects.staged with
    | none => (objects, .continues (.cancelState false))
    | some state => (objects, .continues (.cancelParts false state.parts))
  | .cancelParts _ (part :: rest) =>
    ({ objects with parts := objects.parts.erase part.key }, .continues (.cancelParts true rest))
  | .cancelParts begun [] => (objects, .continues (.cancelState begun))
  | .cancelState _ => ({ objects with staged := none }, .continues .removeSession)
  | .respond _ => (objects, .ends)

end Access

/-! ### Runs -/

/-- The session with the requests that are under way, and the chunks whose PATCH has been
acknowledged. -/
structure UploadSystem where
  objects : UploadObjects
  requests : BTreeMap Nat (UploadRequest × UploadStage)
  acknowledged : List StagedChunk

inductive UploadLabel where
  | arrive (id : Nat) (request : UploadRequest)
  /-- The request makes its next access. -/
  | advance (id : Nat)
  /-- The request fails or is dropped before its next access. -/
  | fail (id : Nat)
deriving DecidableEq

namespace UploadSystem

/-- The request that makes the session is the first; no other knows the session's id. -/
def initial (name : String) : UploadSystem where
  objects := ⟨none, none, ∅⟩
  requests := (∅ : BTreeMap Nat (UploadRequest × UploadStage)).insert 0 (.start name, .startState)
  acknowledged := []

/-- The chunk that a response acknowledges, if the request is at its response. -/
def acknowledges : UploadStage → List StagedChunk
  | .respond (some chunk) => [chunk]
  | _ => []

end UploadSystem

def uploadStep (sessionId : String) (sha256 : List UInt8 → Vector UInt8 32)
    (system : UploadSystem) : UploadLabel → Option UploadSystem
  | .arrive id request =>
    if request.starts then none
    else
      match system.requests[id]? with
      | none => some { system with requests := system.requests.insert id (request, .lookUp) }
      | some _ => none
  | .advance id =>
    match system.requests[id]? with
    | none => none
    | some (request, stage) =>
      match system.objects.access sessionId sha256 request stage with
      | (objects, .continues next) =>
        some { system with
          objects := objects
          requests := system.requests.insert id (request, next) }
      | (objects, .ends) =>
        some {
          objects := objects
          requests := system.requests.erase id
          acknowledged := UploadSystem.acknowledges stage ++ system.acknowledged }
  | .fail id =>
    match system.requests[id]? with
    | none => none
    | some _ => some { system with requests := system.requests.erase id }

end Layerhouse
