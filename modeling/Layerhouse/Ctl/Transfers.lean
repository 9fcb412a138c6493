/-
This file is the blob transfer of `layerhouse-ctl`: `transfer_single_blob` of `mirror.rs`
with `patch_chunk` of `registry.rs`, and the part of `patch_upload` that answers it. A blob
is read from the source as a stream and sent on in chunks. When the stream fails, what is
buffered is sent, and the source is asked again from there on.

What is staged at the destination and what is buffered are at every moment the first bytes
of the blob, so the positions of the stream, of the buffer and of the destination never
part. A stream that fails has brought a byte or uses up one of five retries, which is why
the loop ends.
-/

import Layerhouse.Routes.Offsets

namespace Layerhouse

inductive RegistryError where
  | http (message : String)
  | protocol (message : String)
  | withContext (context : String) (source : RegistryError)
deriving DecidableEq

def chunkSize : Nat := 5 * 1024 * 1024

def maxSourceRetries : Nat := 5

/-! ### Both ends of a transfer -/

/-- The response to a request for a blob: the chunks of its stream, and the error after them when
it fails. -/
structure BlobStream where
  chunks : List (List UInt8)
  failure : Option String
deriving DecidableEq

structure Opening where
  offset : Nat
  stream : BlobStream

/-- How far into the blob a stream goes. -/
def Opening.reaches (opening : Opening) : Nat :=
  opening.offset + opening.stream.chunks.flatten.length

/-- What a source answers when a blob is asked for from an offset on, after the streams it has
opened before, the last one first. -/
abbrev BlobSource := List Opening → Nat → Except RegistryError BlobStream

/-- `patch_upload` of a session that has staged some bytes: what is staged then and the `Range` of
the response, or none if the response is `416`. -/
def patchUpload (staged : List UInt8) (contentRange : String) (body : List UInt8) :
    Option (List UInt8 × String) :=
  if (parseContentRangeStart contentRange).any (· ≠ staged.length) then none
  else
    let newOffset := (staged ++ body).length
    some (staged ++ body, "0-" ++ toString (newOffset - 1))

def patchChunk (staged chunk : List UInt8) (offset : Nat) :
    Except RegistryError (List UInt8 × Nat) :=
  let rangeHeader := toString offset ++ "-" ++ toString (offset + chunk.length - 1)
  match patchUpload staged rangeHeader chunk with
  | none =>
    .error (.http ("PATCH chunk failed at offset " ++ toString offset ++
      ": 416 Range Not Satisfiable "))
  | some (staged, range) =>
    let answered := (Text.stripPrefix "0-".toList range.toList).bind parseU64
    .ok (staged, (answered.map (· + 1)).getD (offset + chunk.length))

/-! ### The loops -/

/-- The variables of the transfer, with what the destination has staged and the streams that were
opened, the last one first. -/
structure Transfer where
  staged : List UInt8
  bytesSent : Nat
  sourceRetries : Nat
  opened : List Opening

namespace Transfer

def new : Transfer where
  staged := []
  bytesSent := 0
  sourceRetries := 0
  opened := []

def send (transfer : Transfer) (toSend : List UInt8) : Except RegistryError Transfer := do
  let (staged, newOffset) ← patchChunk transfer.staged toSend transfer.bytesSent
  return { transfer with staged := staged, bytesSent := newOffset }

/-- The loop over a buffer that has at least a chunk, and what is left in the buffer. -/
def sendChunks (transfer : Transfer) (buffer : List UInt8) :
    Except RegistryError (Transfer × List UInt8) :=
  if chunkSize ≤ buffer.length then do
    let next ← transfer.send (buffer.take chunkSize)
    next.sendChunks (buffer.drop chunkSize)
  else .ok (transfer, buffer)
termination_by buffer.length
decreasing_by
  simp only [List.length_drop, chunkSize] at *
  omega

def receive (transfer : Transfer) (buffer : List UInt8) :
    List (List UInt8) → Except RegistryError (Transfer × List UInt8)
  | [] => .ok (transfer, buffer)
  | chunk :: rest => do
    let (next, left) ← sendChunks { transfer with sourceRetries := 0 } (buffer ++ chunk)
    next.receive left rest

def flush (transfer : Transfer) (buffer : List UInt8) : Except RegistryError Transfer :=
  if buffer.isEmpty then .ok transfer else transfer.send buffer

/-- The inner loop on one stream. The source is asked again if the stream has failed, and the loops
are left if it has ended. -/
def readStream (transfer : Transfer) (stream : BlobStream) :
    Except RegistryError (Transfer × Bool) := do
  let (received, buffer) ← transfer.receive [] stream.chunks
  match stream.failure with
  | some error =>
    let sourceRetries := received.sourceRetries + 1
    if maxSourceRetries < sourceRetries then
      .error (.http ("source stream failed after " ++ toString maxSourceRetries ++ " retries: " ++
        error))
    else
      let flushed ← flush { received with sourceRetries := sourceRetries } buffer
      return (flushed, true)
  | none =>
    let flushed ← received.flush buffer
    return (flushed, false)

end Transfer

/-- The outer loop, for a number of rounds; `none` when they do not suffice. The upload is completed
with what is staged at its end. -/
def transferLoop (source : BlobSource) (size : Nat) :
    Nat → Transfer → Option (Except RegistryError Transfer)
  | 0, _ => none
  | rounds + 1, transfer =>
    if transfer.bytesSent < size then
      match source transfer.opened transfer.bytesSent with
      | .error error => some (.error error)
      | .ok stream =>
        let opened := ⟨transfer.bytesSent, stream⟩ :: transfer.opened
        match Transfer.readStream { transfer with opened := opened } stream with
        | .error error => some (.error error)
        | .ok (next, true) => transferLoop source size rounds next
        | .ok (next, false) => some (.ok next)
    else some (.ok transfer)

/-! ### A chunk that arrives -/

theorem parseU64_toString (number : Nat) :
    parseU64 (toString number).toList = if number < 2 ^ 64 then some number else none := by
  have digit : ∀ char ∈ Nat.toDigits 10 number, char.isDigit = true := by
    rw [← Text.toList_toString]
    exact fun char member => Text.isDigit_of_mem_toString member
  have unsigned : Text.stripPrefix ['+'] (Nat.toDigits 10 number) = none := by
    cases found : Text.stripPrefix ['+'] (Nat.toDigits 10 number) with
    | none => rfl
    | some rest =>
      have member : '+' ∈ Nat.toDigits 10 number := by
        rw [Text.stripPrefix_eq_some.mp found]
        exact List.mem_cons_self
      exact absurd (digit '+' member) (by decide)
  have value : (Nat.toDigits 10 number).foldl
      (fun value digit => value * 10 + (digit.toNat - 48)) 0 = number := by
    refine Eq.trans ?_ (@Nat.ofDigitChars_ten_toDigits number)
    rw [Nat.ofDigitChars_eq_foldl]
    exact congrArg (fun step => List.foldl step 0 _)
      (funext fun value => funext fun digit => congrArg (· + _) (Nat.mul_comm value 10))
  have readable : ¬ (Nat.toDigits 10 number = [] ∨
      ¬ (Nat.toDigits 10 number).all Char.isDigit = true) := by
    rw [not_or, not_not]
    exact ⟨Nat.toDigits_ne_nil, List.all_eq_true.mpr digit⟩
  simp only [parseU64, Text.toList_toString, unsigned, Option.getD_none, if_neg readable, value]

/-- The start of a range that was written is read back, if it is one of 64 bits. -/
theorem parseContentRangeStart_written (start stop : Nat) :
    parseContentRangeStart (toString start ++ "-" ++ toString stop) =
      if start < 2 ^ 64 then some start else none := by
  have text : (toString start ++ "-" ++ toString stop).toList =
      (toString start).toList ++ '-' :: (toString stop).toList := by
    rw [String.toList_append, String.toList_append, List.append_assoc]
    rfl
  have unitless : Text.stripPrefix "bytes ".toList
      ((toString start).toList ++ '-' :: (toString stop).toList) = none := by
    cases found : Text.stripPrefix "bytes ".toList
      ((toString start).toList ++ '-' :: (toString stop).toList) with
    | none => rfl
    | some rest =>
      have same := Text.stripPrefix_eq_some.mp found
      cases digits : (toString start).toList with
      | nil =>
        rw [Text.toList_toString] at digits
        exact absurd digits Nat.toDigits_ne_nil
      | cons first others =>
        rw [digits] at same
        have letter : first = 'b' := (List.cons.inj same).1
        have member : first ∈ (toString start).toList := digits ▸ List.mem_cons_self
        exact absurd (letter ▸ Text.isDigit_of_mem_toString member) (by decide)
  have splits : Text.splitOnce '-' ((toString start).toList ++ '-' :: (toString stop).toList) =
      some ((toString start).toList, (toString stop).toList) :=
    Text.splitOnce_eq_some.mpr ⟨rfl, Text.dash_notMem_toString start⟩
  simp only [parseContentRangeStart, text, unitless, Option.getD_none, splits,
    parseU64_toString]

/-- A chunk that is sent for the end of what is staged is appended, and the position that is read
out of the response is the new end. -/
theorem patchChunk_at_end (staged : List UInt8) {chunk : List UInt8} (some_byte : chunk ≠ []) :
    patchChunk staged chunk staged.length =
      .ok (staged ++ chunk, staged.length + chunk.length) := by
  have positive : 0 < chunk.length := List.length_pos_of_ne_nil some_byte
  have inRange : ∀ stop : Nat, ¬ (parseContentRangeStart
      (toString staged.length ++ "-" ++ toString stop)).any (· ≠ staged.length) = true := by
    intro stop
    rw [parseContentRangeStart_written]
    split
    · simp
    · simp
  have patched : ∀ stop : Nat,
      patchUpload staged (toString staged.length ++ "-" ++ toString stop) chunk =
        some (staged ++ chunk, "0-" ++ toString (staged.length + chunk.length - 1)) := by
    intro stop
    rw [patchUpload, if_neg (inRange stop), List.length_append]
  have stripped : Text.stripPrefix "0-".toList
      ("0-" ++ toString (staged.length + chunk.length - 1)).toList =
        some (toString (staged.length + chunk.length - 1)).toList :=
    Text.stripPrefix_eq_some.mpr String.toList_append
  simp only [patchChunk, patched, stripped, Option.bind_some, parseU64_toString]
  split
  · rw [Option.map_some, Option.getD_some, Nat.sub_add_cancel (by omega)]
  · rfl

/-! ### The session of the destination -/

namespace UploadObjects

/-- A number of accesses of a request, when no other request comes between them. -/
def serve (sessionId : String) (sha256 : List UInt8 → Vector UInt8 32)
    (request : UploadRequest) : Nat → UploadObjects → UploadStage → UploadObjects × UploadProgress
  | 0, objects, stage => (objects, .continues stage)
  | accesses + 1, objects, stage =>
    match objects.access sessionId sha256 request stage with
    | (after, .continues next) => serve sessionId sha256 request accesses after next
    | (after, .ends) => (after, .ends)

/-- The session has staged the bytes, and counts them. -/
structure HoldsBytes (objects : UploadObjects) (sessionId name : String) (staged : List UInt8) :
    Prop where
  session : objects.session = some ⟨name, staged.length⟩
  state : ∃ state, objects.staged = some state ∧ state.Counted sessionId ∧
    state.totalBytes = staged.length ∧ ((state.chunks objects.parts).map (·.2)).flatten = staged

/-- A PATCH does to the session what `patchUpload` says. -/
theorem HoldsBytes.patch {objects : UploadObjects} {sessionId name : String}
    {staged body after : List UInt8} (holds : objects.HoldsBytes sessionId name staged)
    (sha256 : List UInt8 → Vector UInt8 32) {contentRange range : String} (some_byte : body ≠ [])
    (readable : body.length ≤ bodyLimit)
    (patched : patchUpload staged contentRange body = some (after, range)) :
    ∃ next chunk, serve sessionId sha256 (.patch name (some contentRange) body) 6 objects .lookUp =
        (next, .continues (.respond (some chunk))) ∧
      next.HoldsBytes sessionId name after := by
  obtain ⟨session, state, stagedState, counted, total, chunks⟩ := holds
  rw [patchUpload] at patched
  split at patched
  · exact nomatch patched
  · rename_i inRange
    cases patched
    have asked : outOfRange (some contentRange) ⟨name, staged.length⟩ = false := by
      rw [outOfRange, Option.bind_some]
      split
      · rfl
      · rename_i start read
        rw [read, Option.any_some] at inRange
        exact Bool.eq_false_iff.mpr inRange
    have bytes : body.isEmpty = false :=
      Bool.eq_false_iff.mpr fun empty => some_byte (List.isEmpty_iff.mp empty)
    let parts := objects.parts.insert (uploadPartKey sessionId state.nextPartNumber) body
    refine ⟨⟨some ⟨name, (state.push sessionId body).totalBytes⟩,
      some (state.push sessionId body), parts⟩, (state.nextPartNumber, body), ?_, ?_⟩
    · have belongs : (⟨name, staged.length⟩ : UploadSession).belongsTo name = true :=
        decide_eq_true rfl
      simp only [serve, access, session, belongs, UploadRequest.name, if_true,
        UploadRequest.begin, asked, Bool.false_eq_true, if_false, if_neg (not_lt.mpr readable),
        stagedState, UploadRequest.body, bytes, UploadRequest.afterPush]
      rfl
    · have grown : (state.push sessionId body).totalBytes = (staged ++ body).length := by
        rw [StagedUploadState.push, total, List.length_append]
      refine ⟨by rw [grown], _, rfl, counted.push body, grown, ?_⟩
      have written : parts[uploadPartKey sessionId state.nextPartNumber]? = some body := by
        rw [BTreeMap.getElem?_insert, if_pos rfl]
      rw [StagedUploadState.chunks_push written, counted.chunks_insert, List.map_append,
        List.flatten_append, chunks]
      exact congrArg (staged ++ ·) (List.append_nil body)

end UploadObjects

/-! ### The positions -/

/-- A stream that continues the blob from its offset on, split into chunks that are not empty. -/
structure Opening.Continues (opening : Opening) (blob : List UInt8) : Prop where
  nonempty : ∀ chunk ∈ opening.stream.chunks, chunk ≠ []
  follows : opening.stream.chunks.flatten <+: blob.drop opening.offset

/-- Every stream that the source opens continues the blob from where it was asked to. -/
def Serves (source : BlobSource) (blob : List UInt8) : Prop :=
  ∀ opened offset stream, source opened offset = .ok stream →
    Opening.Continues ⟨offset, stream⟩ blob

/-- How much of the blob was delivered. -/
def delivered (opened : List Opening) : Nat :=
  (opened.map Opening.reaches).foldr max 0

/-- A transfer fails because of its source: a request to it fails, or a stream of it does once too
often. -/
inductive SourceError (source : BlobSource) : RegistryError → Prop where
  | request {opened : List Opening} {offset : Nat} {error : RegistryError}
      (failed : source opened offset = .error error) : SourceError source error
  | stream (error : String) : SourceError source (.http ("source stream failed after " ++
      toString maxSourceRetries ++ " retries: " ++ error))

namespace Transfer

variable {transfer : Transfer}

/-- The same bytes, of which more are staged. -/
structure Advances (transfer : Transfer) (buffer : List UInt8) (next : Transfer)
    (left : List UInt8) : Prop where
  bytes : next.staged ++ left = transfer.staged ++ buffer
  retries : next.sourceRetries = transfer.sourceRetries
  opened : next.opened = transfer.opened

theorem send_ok (sent : transfer.bytesSent = transfer.staged.length) {toSend : List UInt8}
    (some_byte : toSend ≠ []) :
    transfer.send toSend = .ok { transfer with
      staged := transfer.staged ++ toSend
      bytesSent := transfer.staged.length + toSend.length } := by
  rw [send, sent, patchChunk_at_end transfer.staged some_byte]
  rfl

theorem sendChunks_ok (sent : transfer.bytesSent = transfer.staged.length)
    (buffer : List UInt8) :
    ∃ next left, transfer.sendChunks buffer = .ok (next, left) ∧
      transfer.Advances buffer next left ∧ next.bytesSent = next.staged.length := by
  fun_induction sendChunks transfer buffer with
  | case1 transfer buffer enough inductionHypothesis =>
    have some_byte : buffer.take chunkSize ≠ [] := by
      refine List.ne_nil_of_length_pos ?_
      rw [List.length_take, Nat.min_eq_left enough]
      decide
    rw [send_ok sent some_byte]
    obtain ⟨next, left, loop, advances, kept⟩ := inductionHypothesis
      { transfer with
        staged := transfer.staged ++ buffer.take chunkSize
        bytesSent := transfer.staged.length + (buffer.take chunkSize).length }
      List.length_append.symm
    refine ⟨next, left, loop, ⟨?_, advances.retries, advances.opened⟩, kept⟩
    rw [advances.bytes, List.append_assoc, List.take_append_drop]
  | case2 transfer buffer few => exact ⟨transfer, buffer, rfl, ⟨rfl, rfl, rfl⟩, sent⟩

theorem flush_ok (sent : transfer.bytesSent = transfer.staged.length) (buffer : List UInt8) :
    ∃ next, transfer.flush buffer = .ok next ∧ transfer.Advances buffer next [] ∧
      next.bytesSent = next.staged.length := by
  rw [flush]
  split
  · rename_i empty
    rw [List.isEmpty_iff.mp empty]
    exact ⟨transfer, rfl, ⟨rfl, rfl, rfl⟩, sent⟩
  · rename_i bytes
    rw [send_ok sent fun empty => bytes (List.isEmpty_iff.mpr empty)]
    refine ⟨_, rfl, ⟨List.append_nil _, rfl, rfl⟩, List.length_append.symm⟩

/-- All that is received follows what was there; it is counted as progress if it is a byte. -/
theorem receive_ok (sent : transfer.bytesSent = transfer.staged.length)
    (chunks : List (List UInt8)) (buffer : List UInt8) :
    ∃ next left, transfer.receive buffer chunks = .ok (next, left) ∧
      next.bytesSent = next.staged.length ∧
      next.staged ++ left = transfer.staged ++ buffer ++ chunks.flatten ∧
      next.opened = transfer.opened ∧
      next.sourceRetries = if chunks = [] then transfer.sourceRetries else 0 := by
  induction chunks generalizing transfer buffer with
  | nil => exact ⟨transfer, buffer, rfl, sent, (List.append_nil _).symm, rfl, rfl⟩
  | cons chunk rest inductionHypothesis =>
    obtain ⟨between, kept, loop, advances, sentBetween⟩ :=
      @sendChunks_ok { transfer with sourceRetries := 0 } sent (buffer ++ chunk)
    obtain ⟨next, left, others, sentNext, bytes, opened, retries⟩ :=
      inductionHypothesis sentBetween kept
    refine ⟨next, left, ?_, sentNext, ?_, opened.trans advances.opened, ?_⟩
    · rw [receive, loop]
      exact others
    · rw [bytes, advances.bytes, List.flatten_cons, List.append_assoc, List.append_assoc,
        List.append_assoc]
    · rw [retries, advances.retries, ite_self, if_neg (List.cons_ne_nil chunk rest)]

/-- A stream is sent on whole. It is the last one unless it fails, and then it has brought a byte
or uses up a retry. -/
theorem readStream_ok (sent : transfer.bytesSent = transfer.staged.length) (stream : BlobStream) :
    (∃ error, transfer.readStream stream = .error (.http ("source stream failed after " ++
      toString maxSourceRetries ++ " retries: " ++ error))) ∨
    ∃ next again, transfer.readStream stream = .ok (next, again) ∧
      next.bytesSent = next.staged.length ∧
      next.staged = transfer.staged ++ stream.chunks.flatten ∧ next.opened = transfer.opened ∧
      (again = true → next.sourceRetries ≤ maxSourceRetries ∧ next.sourceRetries =
        (if stream.chunks = [] then transfer.sourceRetries else 0) + 1) := by
  obtain ⟨received, left, loop, sentAll, bytes, opened, retries⟩ :=
    receive_ok sent stream.chunks []
  rw [List.append_nil] at bytes
  rw [readStream, loop]
  cases failed : stream.failure with
  | none =>
    obtain ⟨next, flushed, advances, kept⟩ := flush_ok sentAll left
    refine Or.inr ⟨next, false, ?_, kept, ?_, advances.opened.trans opened, nofun⟩
    · show (do let flushed ← received.flush left; return (flushed, false)) = _
      rw [flushed]
      rfl
    · rw [← List.append_nil next.staged, advances.bytes, bytes]
  | some error =>
    show (∃ text, (if maxSourceRetries < received.sourceRetries + 1 then _ else _) = _) ∨ _
    by_cases tooOften : maxSourceRetries < received.sourceRetries + 1
    · exact Or.inl ⟨error, if_pos tooOften⟩
    · obtain ⟨next, flushed, advances, kept⟩ := @flush_ok
        { received with sourceRetries := received.sourceRetries + 1 } sentAll left
      refine Or.inr ⟨next, true, ?_, kept, ?_, advances.opened.trans opened, fun _ => ?_⟩
      · show (if maxSourceRetries < received.sourceRetries + 1 then _ else _) = _
        rw [if_neg tooOften, flushed]
        rfl
      · rw [← List.append_nil next.staged, advances.bytes, bytes]
      · rw [advances.retries, retries]
        exact ⟨retries ▸ not_lt.mp tooOften, rfl⟩

end Transfer

/-! ### The whole transfer -/

/-- What holds whenever the source is asked: all that was delivered is staged. -/
structure Transfer.Settled (blob : List UInt8) (transfer : Transfer) : Prop where
  sent : transfer.bytesSent = transfer.staged.length
  follows : transfer.staged <+: blob
  reached : delivered transfer.opened = transfer.staged.length
  retries : transfer.sourceRetries ≤ maxSourceRetries

/-- A bound on the streams that are still opened: what is missing counts for as many as may fail
without a byte, and one more. -/
def Transfer.remaining (blob : List UInt8) (transfer : Transfer) : Nat :=
  (blob.length - transfer.bytesSent) * (maxSourceRetries + 1) +
    (maxSourceRetries - transfer.sourceRetries)

variable {blob : List UInt8} {source : BlobSource} {transfer : Transfer}

theorem Transfer.settled_new : Transfer.Settled blob .new where
  sent := rfl
  follows := List.nil_prefix
  reached := rfl
  retries := Nat.zero_le _

theorem length_flatten_pos {chunks : List (List UInt8)} (nonempty : ∀ chunk ∈ chunks, chunk ≠ [])
    (some_chunk : chunks ≠ []) : 0 < chunks.flatten.length := by
  cases chunks with
  | nil => exact absurd rfl some_chunk
  | cons chunk rest =>
    rw [List.flatten_cons, List.length_append]
    have positive := List.length_pos_of_ne_nil (nonempty chunk List.mem_cons_self)
    omega

theorem append_prefix_of_drop {staged chunk : List UInt8} (before : staged <+: blob)
    (after : chunk <+: blob.drop staged.length) : staged ++ chunk <+: blob := by
  obtain ⟨rest, rfl⟩ := before
  rw [List.drop_left] at after
  exact List.prefix_append_right_inj staged |>.mpr after

/-- One round: the stream that is opened is staged whole, and if the source is to be asked again
fewer streams remain. -/
theorem Transfer.Settled.readStream (settled : transfer.Settled blob)
    {stream : BlobStream} (continues : Opening.Continues ⟨transfer.bytesSent, stream⟩ blob)
    {next : Transfer} {again : Bool}
    (read : Transfer.readStream { transfer with
      opened := ⟨transfer.bytesSent, stream⟩ :: transfer.opened } stream = .ok (next, again)) :
    next.bytesSent = next.staged.length ∧ next.staged <+: blob ∧
      delivered next.opened = next.staged.length ∧
      (again = true → next.Settled blob ∧ next.remaining blob < transfer.remaining blob) := by
  rcases @Transfer.readStream_ok { transfer with
      opened := ⟨transfer.bytesSent, stream⟩ :: transfer.opened } settled.sent stream with
    ⟨_, failed⟩ | ⟨after, goesOn, ok, sent, staged, opened, retried⟩
  · exact nomatch failed.symm.trans read
  · cases ok.symm.trans read
    have follows : next.staged <+: blob := by
      rw [staged]
      exact append_prefix_of_drop settled.follows (settled.sent ▸ continues.follows)
    have reaches : delivered next.opened = next.staged.length := by
      have before := settled.reached
      rw [opened, staged, List.length_append, ← settled.sent]
      rw [← settled.sent] at before
      show max (transfer.bytesSent + _) (delivered transfer.opened) = _
      rw [before]
      exact Nat.max_eq_left (Nat.le_add_right _ _)
    refine ⟨sent, follows, reaches, fun more => ?_⟩
    obtain ⟨allowed, used⟩ := retried more
    refine ⟨⟨sent, follows, reaches, allowed⟩, ?_⟩
    have within := follows.length_le
    rw [Transfer.remaining, Transfer.remaining, sent, settled.sent]
    have longer : next.staged.length =
        transfer.staged.length + stream.chunks.flatten.length := by
      rw [staged, List.length_append]
    have bound := settled.retries
    by_cases silent : stream.chunks = []
    · rw [if_pos silent] at used
      rw [silent, List.flatten_nil, List.length_nil, Nat.add_zero] at longer
      rw [longer]
      simp only at used
      omega
    · have progress : 0 < stream.chunks.flatten.length :=
        length_flatten_pos continues.nonempty silent
      simp only [maxSourceRetries] at allowed bound ⊢
      omega

theorem transferLoop_ends (serves : Serves source blob) {rounds : Nat}
    (settled : transfer.Settled blob) (enough : transfer.remaining blob < rounds) :
    ∃ result, transferLoop source blob.length rounds transfer = some result ∧
      (∀ done, result = .ok done → done.staged <+: blob ∧
        delivered done.opened = done.staged.length) ∧
      ∀ error, result = .error error → SourceError source error := by
  induction rounds generalizing transfer with
  | zero => exact absurd enough (Nat.not_lt_zero _)
  | succ rounds inductionHypothesis =>
    rw [transferLoop]
    split
    · cases request : source transfer.opened transfer.bytesSent with
      | error error =>
        refine ⟨_, rfl, nofun, fun other same => ?_⟩
        cases same
        exact .request request
      | ok stream =>
        have continues := serves _ _ _ request
        simp only
        split
        · rename_i error failed
          refine ⟨_, rfl, nofun, fun other same => ?_⟩
          cases same
          rcases @Transfer.readStream_ok { transfer with
              opened := ⟨transfer.bytesSent, stream⟩ :: transfer.opened } settled.sent stream with
            ⟨text, once⟩ | ⟨_, _, ok, _⟩
          · cases once.symm.trans failed
            exact .stream text
          · exact nomatch ok.symm.trans failed
        · rename_i next read
          obtain ⟨_, _, _, more⟩ := settled.readStream continues read
          obtain ⟨settledNext, fewer⟩ := more rfl
          exact inductionHypothesis settledNext
            (Nat.lt_of_lt_of_le fewer (Nat.le_of_lt_succ enough))
        · rename_i next read
          obtain ⟨_, follows, reaches, _⟩ := settled.readStream continues read
          refine ⟨_, rfl, fun done same => ?_, nofun⟩
          cases same
          exact ⟨follows, reaches⟩
    · refine ⟨_, rfl, fun done same => ?_, nofun⟩
      cases same
      exact ⟨settled.follows, settled.reached⟩

theorem transferLoop_mono {size rounds more : Nat}
    {result : Except RegistryError Transfer} (further : rounds ≤ more)
    (ended : transferLoop source size rounds transfer = some result) :
    transferLoop source size more transfer = some result := by
  induction rounds generalizing transfer more with
  | zero => exact nomatch ended
  | succ rounds inductionHypothesis =>
    obtain ⟨more, rfl⟩ := Nat.exists_eq_add_of_le' (Nat.lt_of_lt_of_le rounds.succ_pos further)
    rw [transferLoop] at ended ⊢
    split at ended
    · rename_i missing
      rw [if_pos missing]
      split at ended
      · exact ended
      · simp only at ended ⊢
        split at ended
        · exact ended
        · exact inductionHypothesis (Nat.le_of_succ_le_succ further) ended
        · exact ended
    · rename_i complete
      rw [if_neg complete]
      exact ended

/-- A transfer of a blob ends, and only its source can make it fail. What the upload is completed
with are the bytes that were delivered, each of them once: the whole blob if all of it was. -/
theorem transfer_is_exact_and_ends {blob : List UInt8} {source : BlobSource}
    (serves : Serves source blob) :
    ∃ result enough, (∀ rounds, enough ≤ rounds →
        transferLoop source blob.length rounds .new = some result) ∧
      (∀ done, result = .ok done → done.staged = blob.take (delivered done.opened) ∧
        (delivered done.opened = blob.length → done.staged = blob)) ∧
      ∀ error, result = .error error → SourceError source error := by
  obtain ⟨result, ended, exact, fails⟩ :=
    transferLoop_ends serves Transfer.settled_new (Nat.lt_succ_self _)
  refine ⟨result, _, fun rounds enough => transferLoop_mono enough ended, fun done same => ?_,
    fails⟩
  obtain ⟨follows, reaches⟩ := exact done same
  rw [reaches]
  exact ⟨List.prefix_iff_eq_take.mp follows, follows.eq_of_length⟩

/-- A source whose first stream fails after two of three bytes. -/
def sampleBlobSource : BlobSource := fun opened offset =>
  if opened.isEmpty ∧ offset = 0 then .ok ⟨[[1], [2]], some "connection reset"⟩
  else .ok ⟨([1, 2, 3].drop offset).map fun byte => [byte], none⟩

theorem serves_sampleBlobSource : Serves sampleBlobSource [1, 2, 3] := by
  intro opened offset stream answered
  rw [sampleBlobSource] at answered
  split at answered
  · rename_i first
    cases answered
    rw [first.2]
    exact ⟨by decide, by decide⟩
  · cases answered
    refine ⟨fun chunk member => ?_, ?_⟩
    · obtain ⟨byte, _, rfl⟩ := List.mem_map.mp member
      exact List.cons_ne_nil byte []
    · show (List.map (fun byte => [byte]) _).flatten <+: _
      rw [← List.flatMap_def, List.flatMap_singleton']

theorem transfer_is_exact_and_ends_sample :
    ∃ done enough, (∀ rounds, enough ≤ rounds →
        transferLoop sampleBlobSource 3 rounds .new = some (.ok done)) ∧
      done.staged = [1, 2, 3] := by
  obtain ⟨result, enough, ends, exact, _⟩ := transfer_is_exact_and_ends serves_sampleBlobSource
  have twoStreams : (transferLoop sampleBlobSource 3 2 .new).any (fun result =>
      result.toOption.any fun done => delivered done.opened = 3) = true := by
    decide +kernel
  obtain ⟨other, ended, whole⟩ := (Option.any_eq_true ..).mp twoStreams
  have same : result = other := Option.some.inj <|
    (ends (enough + 2) (Nat.le_add_right _ _)).symm.trans
      (transferLoop_mono (Nat.le_add_left _ _) ended)
  obtain ⟨done, rfl⟩ : ∃ done, result = .ok done := by
    cases result with
    | ok done => exact ⟨done, rfl⟩
    | error error =>
      rw [← same] at whole
      exact nomatch whole
  rw [← same] at whole
  exact ⟨done, enough, ends, (exact done rfl).2 (of_decide_eq_true whole)⟩

end Layerhouse
