/-
This file is about the multipart uploads that a failed commit of a blob leaves behind. The S3 client
keeps a log of its answers; what is created in it has to be completed, or an abort for it has
to be sent, before the store reports an error.

`put_streaming` aborts on every failure. `complete_upload` aborts when the digest is not the
expected one, and leaves the upload open when anything else fails after it was created: a later
staged part that cannot be read or has another size, a part that cannot be uploaded, or the
completion itself.
-/

import Layerhouse.Store.S3

namespace Layerhouse

/-! ### Answers of S3 -/

/-- The answers that matter: the size of what was read, the multipart upload that was created, and
whether a part was taken or an upload completed. An abort is noted when it is sent. -/
inductive S3Answer where
  | read (size : Option Nat)
  | created (key : String) (uploadId : Option String)
  | uploaded (taken : Bool)
  | completed (key uploadId : String) (done : Bool)
  | aborted (key uploadId : String)
deriving DecidableEq

/-- The client with a log of its answers. -/
def S3Client.noted {Bucket : Type} (client : S3Client Bucket) :
    S3Client (Bucket × List S3Answer) where
  getObject key := Layerhouse.noted
    (fun answer => [.read (answer.toOption.join.map List.length)]) (client.getObject key)
  putObject key content := Layerhouse.noted (fun _ => []) (client.putObject key content)
  deleteObject key := Layerhouse.noted (fun _ => []) (client.deleteObject key)
  createMultipartUpload key := Layerhouse.noted
    (fun answer => (answer.toOption.map (.created key)).toList) (client.createMultipartUpload key)
  uploadPart key uploadId number content := Layerhouse.noted
    (fun answer => [.uploaded answer.isOk]) (client.uploadPart key uploadId number content)
  completeMultipartUpload key uploadId parts := Layerhouse.noted
    (fun answer => [.completed key uploadId answer.isOk])
    (client.completeMultipartUpload key uploadId parts)
  abortMultipartUpload key uploadId := Layerhouse.noted
    (fun _ => [.aborted key uploadId]) (client.abortMultipartUpload key uploadId)

/-- The store over the client with the log. -/
def S3BlobStore.noted {Bucket : Type} (store : S3BlobStore Bucket) :
    S3BlobStore (Bucket × List S3Answer) where
  client := store.client.noted
  sha256 := store.sha256
  decodeState := store.decodeState

/-! ### Logs -/

variable {log : List S3Answer} {sizes : List Nat} {answer : S3Answer} {key uploadId : String}

/-- A multipart upload was created. -/
def Opens (log : List S3Answer) : Prop :=
  ∃ key uploadId, S3Answer.created key uploadId ∈ log

/-- Every multipart upload that was created was completed, or an abort for it was sent. -/
def Settled (log : List S3Answer) : Prop :=
  ∀ key uploadId, S3Answer.created key uploadId ∈ log → ∃ known, uploadId = some known ∧
    (S3Answer.completed key known true ∈ log ∨ S3Answer.aborted key known ∈ log)

/-- Every multipart upload that was created has an id. -/
def Named (log : List S3Answer) : Prop :=
  ∀ key, S3Answer.created key none ∉ log

/-- The number of reads. The first one is that of the staged state. -/
def reads (log : List S3Answer) : Nat :=
  log.countP fun answer => answer matches .read _

/-- The answer lets the store go on; `expected` is the staged size of the part that is read. -/
def S3Answer.Works (expected : Option Nat) : S3Answer → Prop
  | .read size => size = expected
  | .created _ uploadId => uploadId.isSome
  | .uploaded taken => taken
  | .completed _ _ done => done
  | .aborted _ _ => True

/-- Since a multipart upload was created, all answers let the store go on: the upload has an id, the
staged parts have these sizes, the parts are taken, and the upload is completed. -/
def Undisturbed (sizes : List Nat) : List S3Answer → Prop
  | [] => True
  | answer :: earlier =>
    (Opens (answer :: earlier) → answer.Works sizes[reads earlier - 1]?) ∧
      Undisturbed sizes earlier

theorem not_opens_nil : ¬ Opens [] := by
  rintro ⟨key, uploadId, created⟩
  cases created

theorem settled_of_not_opens (closed : ¬ Opens log) : Settled log :=
  fun key uploadId created => absurd ⟨key, uploadId, created⟩ closed

theorem Opens.cons (opens : Opens log) (answer : S3Answer) : Opens (answer :: log) := by
  obtain ⟨key, uploadId, created⟩ := opens
  exact ⟨key, uploadId, List.mem_cons_of_mem answer created⟩

theorem undisturbed_of_not_opens (closed : ¬ Opens log) : Undisturbed sizes log := by
  induction log with
  | nil => trivial
  | cons answer earlier inductionHypothesis =>
    exact ⟨fun opens => absurd opens closed,
      inductionHypothesis fun opens => closed (opens.cons answer)⟩

/-- An answer that neither creates nor settles a multipart upload. -/
def S3Answer.Plain : S3Answer → Prop
  | .read _ | .uploaded _ | .completed _ _ false => True
  | .created _ _ | .completed _ _ true | .aborted _ _ => False

theorem opens_cons_iff (plain : answer.Plain) : Opens (answer :: log) ↔ Opens log := by
  refine ⟨?_, fun opens => opens.cons answer⟩
  rintro ⟨key, uploadId, created⟩
  rcases List.mem_cons.mp created with rfl | earlier
  · cases plain
  · exact ⟨key, uploadId, earlier⟩

/-- The only multipart upload of the log is this one, and it is not settled. Without an id there is
none. -/
structure Pending (sizes : List Nat) (key : String) (uploadId : Option String)
    (log : List S3Answer) : Prop where
  undisturbed : Undisturbed sizes log
  closed : uploadId = none → ¬ Opens log
  opened : ∀ id, uploadId = some id → S3Answer.created key (some id) ∈ log
  only : ∀ other id, S3Answer.created other id ∈ log → other = key ∧ id = uploadId
  unsettled : ∀ id, S3Answer.completed key id true ∉ log ∧ S3Answer.aborted key id ∉ log

namespace Pending

variable {opened : Option String} {id : String}

theorem nil : Pending sizes key none [] :=
  ⟨trivial, fun _ => not_opens_nil, nofun, fun _ _ created => absurd created List.not_mem_nil,
    fun _ => ⟨List.not_mem_nil, List.not_mem_nil⟩⟩

theorem next (pending : Pending sizes key opened log) (plain : answer.Plain)
    (works : Opens log → answer.Works sizes[reads log - 1]?) :
    Pending sizes key opened (answer :: log) := by
  have earlier : ∀ other, ¬ other.Plain → other ∈ answer :: log → other ∈ log :=
    fun other special member =>
      (List.mem_cons.mp member).resolve_left fun same => special (same ▸ plain)
  refine ⟨⟨fun opens => works ((opens_cons_iff plain).mp opens), pending.undisturbed⟩,
    fun absent opens => pending.closed absent ((opens_cons_iff plain).mp opens),
    fun id known => List.mem_cons_of_mem answer (pending.opened id known),
    fun other id created => pending.only other id (earlier _ (fun plain => plain) created),
    fun id => ⟨?_, ?_⟩⟩
  · exact fun completed => (pending.unsettled id).1 (earlier _ (fun plain => plain) completed)
  · exact fun aborted => (pending.unsettled id).2 (earlier _ (fun plain => plain) aborted)

/-- An answer that does not let the store go on leaves the upload open, if there is one. -/
theorem stop (pending : Pending sizes key opened log) (plain : answer.Plain)
    (broken : ¬ answer.Works sizes[reads log - 1]?) :
    Settled (answer :: log) ↔ Undisturbed sizes (answer :: log) := by
  cases opened with
  | none =>
    have closed : ¬ Opens (answer :: log) := fun opens =>
      pending.closed rfl ((opens_cons_iff plain).mp opens)
    exact iff_of_true (settled_of_not_opens closed) (undisturbed_of_not_opens closed)
  | some id =>
    have created : S3Answer.created key (some id) ∈ answer :: log :=
      List.mem_cons_of_mem answer (pending.opened id rfl)
    refine iff_of_false (fun settled => ?_) fun undisturbed =>
      broken (undisturbed.1 ⟨key, some id, created⟩)
    obtain ⟨known, same, ends⟩ := settled key (some id) created
    obtain rfl := Option.some.inj same
    rcases ends with completed | aborted
    · rcases List.mem_cons.mp completed with rfl | earlier
      · cases plain
      · exact (pending.unsettled id).1 earlier
    · rcases List.mem_cons.mp aborted with rfl | earlier
      · cases plain
      · exact (pending.unsettled id).2 earlier

/-- The multipart upload is created. -/
theorem create (pending : Pending sizes key none log) (id : String) :
    Pending sizes key (some id) (.created key (some id) :: log) := by
  have closed := pending.closed rfl
  refine ⟨⟨fun _ => rfl, pending.undisturbed⟩, nofun, fun known same => ?_,
    fun other known created => ?_, fun known => ⟨?_, ?_⟩⟩
  · rw [Option.some.inj same]
    exact List.mem_cons_self
  · rcases List.mem_cons.mp created with same | earlier
    · exact S3Answer.created.inj same
    · exact absurd ⟨other, known, earlier⟩ closed
  · exact fun completed =>
      (pending.unsettled known).1 ((List.mem_cons.mp completed).resolve_left nofun)
  · exact fun aborted =>
      (pending.unsettled known).2 ((List.mem_cons.mp aborted).resolve_left nofun)

/-- An upload without an id cannot be settled. -/
theorem create_none :
    Settled (.created key none :: log) ↔ Undisturbed sizes (.created key none :: log) := by
  refine iff_of_false (fun settled => ?_) fun undisturbed => ?_
  · obtain ⟨known, same, _⟩ := settled key none List.mem_cons_self
    cases same
  · exact absurd (undisturbed.1 ⟨key, none, List.mem_cons_self⟩) Bool.false_ne_true

/-- Completing or aborting the upload settles the log. -/
theorem settle (pending : Pending sizes key (some id) log)
    (ends : answer = .completed key id true ∨ answer = .aborted key id) :
    Settled (answer :: log) ∧ Undisturbed sizes (answer :: log) := by
  have created : ∀ other known, S3Answer.created other known ∈ answer :: log →
      other = key ∧ known = some id := by
    intro other known member
    rcases List.mem_cons.mp member with same | earlier
    · rcases ends with rfl | rfl
      · cases same
      · cases same
    · exact pending.only other known earlier
  constructor
  · intro other known member
    obtain ⟨rfl, rfl⟩ := created other known member
    refine ⟨id, rfl, ?_⟩
    rcases ends with rfl | rfl
    · exact Or.inl List.mem_cons_self
    · exact Or.inr List.mem_cons_self
  · refine ⟨fun _ => ?_, pending.undisturbed⟩
    rcases ends with rfl | rfl
    · exact rfl
    · trivial

end Pending

/-! ### The calls -/

namespace S3BlobStore

variable {Bucket Value : Type} {store : S3BlobStore Bucket} {bucket : Bucket}

section Calls

variable {failed : SdkError → Bucket × List S3Answer → Prop}

theorem ends_getObject {done : Option (List UInt8) → Bucket × List S3Answer → Prop}
    {unread : String → Bucket × List S3Answer → Prop}
    (returns : ∀ body final, store.client.getObject key bucket = .ok body final →
      done body (final, .read (body.map List.length) :: log))
    (stops : ∀ error final, store.client.getObject key bucket = .error error final →
      unread error (final, .read none :: log)) :
    Ends (store.noted.client.getObject key) (bucket, log) done unread := by
  dsimp only [noted, S3Client.noted]
  exact ends_noted returns stops

theorem ends_putObject {done : Unit → Bucket × List S3Answer → Prop} {content : List UInt8}
    (returns : ∀ final, done () (final, log)) (stops : ∀ error final, failed error (final, log)) :
    Ends (store.noted.client.putObject key content) (bucket, log) done failed := by
  dsimp only [noted, S3Client.noted]
  refine ends_noted ?_ ?_
  · exact fun _ final _ => returns final
  · exact fun error final _ => stops error final

theorem ends_deleteObject {done : Unit → Bucket × List S3Answer → Prop}
    (returns : ∀ final, done () (final, log)) (stops : ∀ error final, failed error (final, log)) :
    Ends (store.noted.client.deleteObject key) (bucket, log) done failed := by
  dsimp only [noted, S3Client.noted]
  refine ends_noted ?_ ?_
  · exact fun _ final _ => returns final
  · exact fun error final _ => stops error final

theorem ends_createMultipartUpload {done : Option String → Bucket × List S3Answer → Prop}
    (returns : ∀ uploadId final, done uploadId (final, .created key uploadId :: log))
    (stops : ∀ error final, failed error (final, log)) :
    Ends (store.noted.client.createMultipartUpload key) (bucket, log) done failed := by
  dsimp only [noted, S3Client.noted]
  refine ends_noted ?_ ?_
  · exact fun uploadId final _ => returns uploadId final
  · exact fun error final _ => stops error final

theorem ends_uploadPart {done : Option String → Bucket × List S3Answer → Prop} {number : Nat}
    {content : List UInt8} (returns : ∀ eTag final, done eTag (final, .uploaded true :: log))
    (stops : ∀ error final, failed error (final, .uploaded false :: log)) :
    Ends (store.noted.client.uploadPart key uploadId number content) (bucket, log) done failed := by
  dsimp only [noted, S3Client.noted]
  refine ends_noted ?_ ?_
  · exact fun eTag final _ => returns eTag final
  · exact fun error final _ => stops error final

theorem ends_completeMultipartUpload {done : Unit → Bucket × List S3Answer → Prop}
    {parts : List CompletedPart}
    (returns : ∀ final, done () (final, .completed key uploadId true :: log))
    (stops : ∀ error final, failed error (final, .completed key uploadId false :: log)) :
    Ends (store.noted.client.completeMultipartUpload key uploadId parts) (bucket, log) done
      failed := by
  dsimp only [noted, S3Client.noted]
  refine ends_noted ?_ ?_
  · exact fun _ final _ => returns final
  · exact fun error final _ => stops error final

theorem ends_abortMultipartUpload {reached : Bucket × List S3Answer → Prop}
    (sent : ∀ final, reached (final, .aborted key uploadId :: log)) :
    Ends (store.noted.client.abortMultipartUpload key uploadId) (bucket, log) (fun _ => reached)
      fun _ => reached := by
  dsimp only [noted, S3Client.noted]
  refine ends_noted ?_ ?_
  · exact fun _ final _ => sent final
  · exact fun _ final _ => sent final

end Calls

/-- What the upload of a part keeps of the upload id and of the log, the loop over the parts
keeps. -/
theorem uploadFullParts_keeps (invariant : Option String → List S3Answer → Prop)
    {upload : Assembly → List UInt8 →
      EStateM LayerhouseError (Bucket × List S3Answer) Assembly}
    {failed : LayerhouseError → Bucket × List S3Answer → Prop}
    (keeps : ∀ (assembly : Assembly) (part : List UInt8) (bucket : Bucket) (log : List S3Answer),
      invariant assembly.uploadId log → Ends (upload assembly part) (bucket, log)
        (fun uploaded state => invariant uploaded.uploadId state.2) failed)
    (turns : Nat) (assembly : Assembly) (holds : invariant assembly.uploadId log) :
    Ends (uploadFullParts upload turns assembly) (bucket, log)
      (fun uploaded state => invariant uploaded.uploadId state.2) failed := by
  induction turns generalizing assembly bucket log with
  | zero => exact ends_pure.mpr holds
  | succ turns inductionHypothesis =>
    rw [uploadFullParts]
    split
    · exact ends_pure.mpr holds
    · refine Ends.bind ((keeps { assembly with buffer := assembly.buffer.drop minPartSize } _ bucket
        log holds).imp ?_ fun _ _ failed => failed)
      rintro uploaded ⟨_, later⟩ holds
      exact inductionHypothesis uploaded holds

theorem absorbChunk_keeps (invariant : Option String → List S3Answer → Prop)
    {upload : Assembly → List UInt8 →
      EStateM LayerhouseError (Bucket × List S3Answer) Assembly}
    {failed : LayerhouseError → Bucket × List S3Answer → Prop}
    (keeps : ∀ (assembly : Assembly) (part : List UInt8) (bucket : Bucket) (log : List S3Answer),
      invariant assembly.uploadId log → Ends (upload assembly part) (bucket, log)
        (fun uploaded state => invariant uploaded.uploadId state.2) failed)
    (assembly : Assembly) (chunk : List UInt8) (holds : invariant assembly.uploadId log) :
    Ends (absorbChunk upload assembly chunk) (bucket, log)
      (fun uploaded state => invariant uploaded.uploadId state.2) failed :=
  uploadFullParts_keeps invariant keeps _
    { assembly with hashed := assembly.hashed ++ chunk, buffer := assembly.buffer ++ chunk } holds

/-! ### The commit of staged parts -/

/-- What has to hold of the log of an error. -/
def Exactly (sizes : List Nat) (_ : LayerhouseError) (state : Bucket × List S3Answer) : Prop :=
  Settled state.2 ↔ Undisturbed sizes state.2

theorem openUpload_logged {opened : Option String} (pending : Pending sizes key opened log) :
    Ends (store.noted.openUpload key opened) (bucket, log)
      (fun uploadId state => Pending sizes key (some uploadId) state.2 ∧
        reads state.2 = reads log ∧ ∀ known, opened = some known → uploadId = known)
      (Exactly sizes) := by
  cases opened with
  | some uploadId => exact ends_pure.mpr ⟨pending, rfl, fun _ same => Option.some.inj same⟩
  | none =>
    refine Ends.bind (Ends.adaptExcept (ends_createMultipartUpload (fun created final => ?_)
      fun error final => ?_))
    · cases created with
      | none => exact ends_throw.mpr Pending.create_none
      | some uploadId => exact ends_pure.mpr ⟨pending.create uploadId, rfl, nofun⟩
    · exact iff_of_true (settled_of_not_opens (pending.closed rfl)) pending.undisturbed

theorem uploadFinalPart_logged (assembly : Assembly) (part : List UInt8)
    (pending : Pending sizes key assembly.uploadId log) :
    Ends (store.noted.uploadFinalPart key assembly part) (bucket, log)
      (fun uploaded state => (Pending sizes key uploaded.uploadId state.2 ∧
        reads state.2 = reads log) ∧
        ∀ known, assembly.uploadId = some known → uploaded.uploadId = some known)
      (Exactly sizes) := by
  refine Ends.bind ((openUpload_logged pending).imp ?_ fun _ _ exactly => exactly)
  rintro uploadId ⟨_, later⟩ ⟨pending, sameReads, kept⟩
  refine Ends.bind (Ends.adaptExcept (ends_uploadPart (fun eTag final => ?_)
    fun error final => ?_))
  · refine ends_pure.mpr ⟨⟨pending.next trivial fun _ => rfl, sameReads⟩, fun known same => ?_⟩
    exact congrArg some (kept known same)
  · exact pending.stop trivial Bool.false_ne_true

theorem absorbChunk_logged (assembly : Assembly) (chunk : List UInt8)
    (pending : Pending sizes key assembly.uploadId log) :
    Ends (absorbChunk (store.noted.uploadFinalPart key) assembly chunk) (bucket, log)
      (fun absorbed state => Pending sizes key absorbed.uploadId state.2 ∧
        reads state.2 = reads log) (Exactly sizes) := by
  refine absorbChunk_keeps
    (fun opened later => Pending sizes key opened later ∧ reads later = reads log)
    (fun assembly part bucket later goesOn => ?_) assembly chunk ⟨pending, rfl⟩
  refine (uploadFinalPart_logged assembly part goesOn.1).imp ?_ fun _ _ exactly => exactly
  rintro uploaded ⟨_, last⟩ ⟨⟨pending, sameReads⟩, _⟩
  exact ⟨pending, sameReads.trans goesOn.2⟩

/-- The sizes that are left are those of the parts that are left. -/
theorem assembleParts_logged (parts : List StagedUploadPart) (assembly : Assembly)
    (pending : Pending sizes key assembly.uploadId log) (begun : 0 < reads log)
    (left : sizes.drop (reads log - 1) = parts.map (·.size)) :
    Ends (store.noted.assembleParts key parts assembly) (bucket, log)
      (fun assembled state => Pending sizes key assembled.uploadId state.2) (Exactly sizes) := by
  induction parts generalizing assembly bucket log with
  | nil => exact ends_pure.mpr pending
  | cons part rest inductionHypothesis =>
    have expected : sizes[reads log - 1]? = some part.size := by
      have first := congrArg (·[0]?) left
      rwa [List.getElem?_drop, Nat.add_zero] at first
    refine Ends.bind (Ends.adaptExcept (ends_getObject (fun body final _ => ?_)
      fun error final _ => ?_))
    · cases body with
      | none =>
        refine ends_throw.mpr (pending.stop trivial ?_)
        rw [expected]
        exact nofun
      | some bytes =>
        show Ends (if bytes.length ≠ part.size then _ else _) _ _ _
        split
        · rename_i changed
          refine ends_throw.mpr (pending.stop trivial ?_)
          rw [expected]
          exact fun same => changed (Option.some.inj same)
        · rename_i unchanged
          have read : Pending sizes key assembly.uploadId (.read (some bytes.length) :: log) :=
            pending.next trivial fun _ => by
              rw [expected, not_not.mp unchanged]
              rfl
          refine Ends.bind ((absorbChunk_logged assembly bytes read).imp ?_
            fun _ _ exactly => exactly)
          rintro absorbed ⟨_, later⟩ ⟨pending, sameReads⟩
          have oneMore : reads later = reads log + 1 :=
            sameReads.trans (List.countP_cons_of_pos rfl)
          refine inductionHypothesis absorbed pending (oneMore ▸ Nat.succ_pos _) ?_
          rw [oneMore, Nat.add_sub_cancel]
          have others := congrArg (List.drop 1) left
          rwa [List.drop_drop, Nat.sub_add_cancel begun, List.map_cons, List.drop_succ_cons,
            List.drop_zero] at others
    · refine pending.stop trivial ?_
      rw [expected]
      exact nofun

/-- The log after the last call on the multipart upload. -/
def Committed (sizes : List Nat) (state : Bucket × List S3Answer) : Prop :=
  Settled state.2 ∧ Undisturbed sizes state.2

theorem commitAssembly_logged (assembly : Assembly)
    (pending : Pending sizes key assembly.uploadId log) :
    Ends (store.noted.commitAssembly key assembly) (bucket, log) (fun _ => Committed sizes)
      (Exactly sizes) := by
  rw [commitAssembly]
  cases opened : assembly.uploadId with
  | none =>
    rw [opened] at pending
    have committed : Settled log ∧ Undisturbed sizes log :=
      ⟨settled_of_not_opens (pending.closed rfl), pending.undisturbed⟩
    exact Ends.adaptExcept (ends_putObject (fun _ => committed) fun _ _ =>
      iff_of_true committed.1 committed.2)
  | some uploadId =>
    have completes : ∀ (last : Assembly) (bucket : Bucket) {log : List S3Answer},
        Pending sizes key (some uploadId) log →
        Ends (call (store.noted.client.completeMultipartUpload key uploadId last.uploadedParts))
          (bucket, log) (fun _ => Committed sizes) (Exactly sizes) := by
      intro last bucket log pending
      refine Ends.adaptExcept (ends_completeMultipartUpload (fun final => ?_) fun error final => ?_)
      · exact pending.settle (Or.inl rfl)
      · exact pending.stop trivial Bool.false_ne_true
    dsimp only
    split
    · exact Ends.bind (ends_pure.mpr (completes assembly bucket (opened ▸ pending)))
    · refine Ends.bind ((uploadFinalPart_logged
        { assembly with buffer := [], uploadId := some uploadId } _ (opened ▸ pending)).imp ?_
          fun _ _ exactly => exactly)
      rintro uploaded ⟨final, later⟩ ⟨⟨pending, _⟩, kept⟩
      rw [kept uploadId rfl] at pending
      exact completes uploaded final pending

theorem deleteStagedUpload_logged (parts : List StagedUploadPart)
    (committed : Settled log ∧ Undisturbed sizes log) :
    Ends (store.noted.deleteStagedUpload parts) (bucket, log) (fun _ => Committed sizes)
      (Exactly sizes) := by
  induction parts generalizing bucket with
  | nil => exact ends_pure.mpr committed
  | cons part rest inductionHypothesis =>
    exact Ends.bind (Ends.adaptExcept (ends_deleteObject (fun _ => inductionHypothesis)
      fun _ _ => iff_of_true committed.1 committed.2))

/-- The sizes of the staged parts, in the order in which they are read. -/
def stagedSizes (store : S3BlobStore Bucket) (sessionId : String) (bucket : Bucket) : List Nat :=
  match store.readUploadState sessionId bucket with
  | .ok (some state) _ =>
    (state.parts.insertionSort fun first second => first.number ≤ second.number).map (·.size)
  | _ => []

/-- The staged state is read without a multipart upload. -/
theorem readUploadState_logged (sessionId key : String) :
    Ends (store.noted.readUploadState sessionId) (bucket, [])
      (fun found state => Pending sizes key none state.2 ∧ reads state.2 = 1 ∧
        ∃ final, store.readUploadState sessionId bucket = .ok found final)
      (Exactly sizes) := by
  have quiet : ∀ size, Pending sizes key none [.read size] := fun size =>
    Pending.nil.next trivial fun opens => absurd opens not_opens_nil
  have exactly : ∀ size, Settled [.read size] ↔ Undisturbed sizes [.read size] := fun size =>
    iff_of_true (settled_of_not_opens ((quiet size).closed rfl)) (quiet size).undisturbed
  refine Ends.bind (Ends.adaptExcept (ends_getObject (fun body final read => ?_)
    fun _ _ _ => exactly none))
  have found : store.getObject (uploadStateKey sessionId) bucket = .ok body final := by
    rw [getObject, EStateM.adaptExcept, read]
  cases body with
  | none =>
    refine ends_pure.mpr ⟨quiet none, rfl, final, ?_⟩
    show EStateM.bind (store.getObject (uploadStateKey sessionId)) _ bucket = _
    rw [EStateM.bind, found]
    rfl
  | some bytes =>
    have plain : store.noted.decodeState bytes = store.decodeState bytes := rfl
    cases decoded : store.decodeState bytes with
    | error error =>
      simp only [plain, decoded]
      exact ends_throw.mpr (exactly _)
    | ok state =>
      simp only [plain, decoded]
      refine ends_pure.mpr ⟨quiet _, rfl, final, ?_⟩
      show EStateM.bind (store.getObject (uploadStateKey sessionId)) _ bucket = _
      rw [EStateM.bind, found]
      dsimp only
      rw [decoded]
      rfl

theorem completeUpload_logged (sessionId : String) (expectedDigest : Digest) :
    Ends (store.noted.completeUpload sessionId expectedDigest) (bucket, [])
      (fun _ state => Undisturbed (store.stagedSizes sessionId bucket) state.2)
      (Exactly (store.stagedSizes sessionId bucket)) := by
  refine Ends.bind ((readUploadState_logged sessionId expectedDigest.s3Key).imp ?_
    fun _ _ exactly => exactly)
  rintro found ⟨middle, log⟩ ⟨pending, begun, final, read⟩
  have quiet := pending.closed rfl
  cases found with
  | none => exact ends_throw.mpr (iff_of_true (settled_of_not_opens quiet) pending.undisturbed)
  | some state =>
    have sizes : store.stagedSizes sessionId bucket =
        (state.parts.insertionSort fun first second => first.number ≤ second.number).map
          (·.size) := by
      rw [stagedSizes, read]
    refine Ends.bind ((assembleParts_logged _ (.empty none) pending (begun ▸ Nat.one_pos) ?_).imp ?_
      fun _ _ exactly => exactly)
    · rw [begun, sizes]
      rfl
    · rintro assembled ⟨after, log⟩ pending
      dsimp only
      split
      · cases opened : assembled.uploadId with
        | none =>
          rw [opened] at pending
          exact ends_throw.mpr
            (iff_of_true (settled_of_not_opens (pending.closed rfl)) pending.undisturbed)
        | some uploadId =>
          rw [opened] at pending
          refine Ends.bind (Ends.ignore (ends_abortMultipartUpload fun final => ?_))
          have committed := pending.settle (Or.inr rfl)
          exact ends_throw.mpr (iff_of_true committed.1 committed.2)
      · refine Ends.bind ((commitAssembly_logged assembled pending).imp ?_
          fun _ _ exactly => exactly)
        rintro _ ⟨written, log⟩ committed
        refine Ends.bind (Ends.adaptExcept (ends_deleteObject (fun final => ?_)
          fun _ _ => iff_of_true committed.1 committed.2))
        exact (deleteStagedUpload_logged _ committed).imp (fun _ _ committed => committed.2)
          fun _ _ exactly => exactly

/-! ### The commit of a stream -/

/-- The only multipart upload of the log is this one. -/
def Owns (key uploadId : String) (log : List S3Answer) : Prop :=
  ∀ other id, S3Answer.created other id ∈ log → other = key ∧ id = some uploadId

theorem Owns.named (owns : Owns key uploadId log) : Named log := fun other created =>
  nomatch (owns other none created).2

theorem Owns.next (owns : Owns key uploadId log)
    (other : ∀ name id, S3Answer.created name id ≠ answer) : Owns key uploadId (answer :: log) :=
  fun name id created =>
    owns name id ((List.mem_cons.mp created).resolve_left (other name id))

theorem Owns.settled (owns : Owns key uploadId log)
    (ends : S3Answer.completed key uploadId true ∈ log ∨ S3Answer.aborted key uploadId ∈ log) :
    Settled log := by
  intro other id created
  obtain ⟨rfl, rfl⟩ := owns other id created
  exact ⟨uploadId, rfl, ends⟩

/-- The log of an error of a stream. -/
def SettledIfNamed (_ : LayerhouseError) (state : Bucket × List S3Answer) : Prop :=
  Settled state.2 ↔ Named state.2

/-- An abort settles the log, whatever comes of it. -/
theorem abortWith_logged (error : LayerhouseError) (owns : Owns key uploadId log)
    {done : Value → Bucket × List S3Answer → Prop} :
    Ends (store.noted.abortWith key uploadId error) (bucket, log) done SettledIfNamed := by
  refine Ends.bind (Ends.ignore (ends_abortMultipartUpload fun final => ?_))
  have later : Owns key uploadId (.aborted key uploadId :: log) := owns.next nofun
  exact ends_throw.mpr (iff_of_true (later.settled (Or.inr List.mem_cons_self)) later.named)

theorem uploadStreamPart_logged (assembly : Assembly) (part : List UInt8)
    (owns : Owns key uploadId log) :
    Ends (store.noted.uploadStreamPart key uploadId assembly part) (bucket, log)
      (fun _ state => Owns key uploadId state.2) SettledIfNamed := by
  have call : Ends
      (store.noted.client.uploadPart key uploadId (assembly.partNumber + 1) part) (bucket, log)
      (fun _ state => Owns key uploadId state.2) fun _ state => Owns key uploadId state.2 :=
    ends_uploadPart (fun _ _ => owns.next nofun) fun _ _ => owns.next nofun
  rw [Ends, uploadStreamPart]
  cases outcome : store.noted.client.uploadPart key uploadId (assembly.partNumber + 1) part
    (bucket, log) with
  | ok eTag final => exact call.of_ok outcome
  | error error middle => exact abortWith_logged _ (call.of_error outcome)

theorem absorbStream_logged (stream : List (Except String (List UInt8))) (assembly : Assembly)
    (owns : Owns key uploadId log) :
    Ends (store.noted.absorbStream key uploadId stream assembly) (bucket, log)
      (fun _ state => Owns key uploadId state.2) SettledIfNamed := by
  induction stream generalizing assembly bucket log with
  | nil => exact ends_pure.mpr owns
  | cons read rest inductionHypothesis =>
    cases read with
    | error error => exact abortWith_logged _ owns
    | ok chunk =>
      refine Ends.bind ((absorbChunk_keeps (fun _ later => Owns key uploadId later)
        (fun assembly part _ _ owns => uploadStreamPart_logged assembly part owns) assembly chunk
          owns).imp ?_ fun _ _ settled => settled)
      rintro absorbed ⟨_, later⟩ owns
      exact inductionHypothesis absorbed owns

theorem completeStream_logged (parts : List CompletedPart) (owns : Owns key uploadId log) :
    Ends (store.noted.completeStream key uploadId parts) (bucket, log)
      (fun _ state => Named state.2) SettledIfNamed := by
  have call : Ends (store.noted.client.completeMultipartUpload key uploadId parts) (bucket, log)
      (fun _ state => Owns key uploadId state.2) fun _ state => Owns key uploadId state.2 :=
    ends_completeMultipartUpload (fun _ => owns.next nofun) fun _ _ => owns.next nofun
  rw [Ends, completeStream]
  cases outcome : store.noted.client.completeMultipartUpload key uploadId parts (bucket, log) with
  | ok done final => exact (call.of_ok outcome).named
  | error error middle => exact abortWith_logged _ (call.of_error outcome)

theorem putStreaming_logged (digest : Digest) (stream : List (Except String (List UInt8))) :
    Ends (store.noted.putStreaming digest stream) (bucket, []) (fun _ state => Named state.2)
      SettledIfNamed := by
  refine Ends.bind (Ends.bind (Ends.adaptExcept (ends_createMultipartUpload
    (fun created final => ?_) fun error final => ?_)))
  · cases created with
    | none =>
      refine ends_throw.mpr (iff_of_false (fun settled => ?_) fun named => ?_)
      · obtain ⟨known, same, _⟩ := settled digest.s3Key none List.mem_cons_self
        cases same
      · exact named digest.s3Key List.mem_cons_self
    | some uploadId =>
      have owns : Owns digest.s3Key uploadId [.created digest.s3Key (some uploadId)] := by
        intro other id created
        exact S3Answer.created.inj (List.mem_singleton.mp created)
      refine ends_pure.mpr (Ends.bind ((absorbStream_logged stream (.empty (some uploadId))
        owns).imp ?_ fun _ _ settled => settled))
      rintro absorbed ⟨middle, log⟩ owns
      dsimp only
      split
      · exact abortWith_logged _ owns
      · split
        · refine Ends.bind ((uploadStreamPart_logged _ _ owns).imp ?_ fun _ _ settled => settled)
          rintro uploaded ⟨_, later⟩ owns
          exact completeStream_logged _ owns
        · exact Ends.bind (ends_pure.mpr (completeStream_logged _ owns))
  · exact iff_of_true (settled_of_not_opens not_opens_nil) fun _ => List.not_mem_nil

/-! ### Without the log -/

theorem createMultipartUpload_forgets (key : String) :
    Forgets (store.noted.client.createMultipartUpload key)
      (store.client.createMultipartUpload key) := by
  dsimp only [noted, S3Client.noted]
  exact forgets_noted _

theorem getObject_forgets (key : String) :
    Forgets (store.noted.getObject key) (store.getObject key) := by
  refine Forgets.adaptExcept ?_ LayerhouseError.s3
  dsimp only [noted, S3Client.noted]
  exact forgets_noted _

theorem readUploadState_forgets (sessionId : String) :
    Forgets (store.noted.readUploadState sessionId) (store.readUploadState sessionId) := by
  refine Forgets.bind (getObject_forgets _) fun body => ?_
  cases body with
  | none => exact forgets_pure none
  | some bytes =>
    have plain : store.noted.decodeState bytes = store.decodeState bytes := rfl
    simp only [plain]
    cases store.decodeState bytes with
    | error error => exact forgets_throw _
    | ok state => exact forgets_pure _

theorem openUpload_forgets (key : String) (opened : Option String) :
    Forgets (store.noted.openUpload key opened) (store.openUpload key opened) := by
  cases opened with
  | some uploadId => exact forgets_pure uploadId
  | none =>
    refine Forgets.bind ((createMultipartUpload_forgets key).adaptExcept _) fun created => ?_
    cases created with
    | none => exact forgets_throw _
    | some uploadId => exact forgets_pure uploadId

theorem uploadPart_forgets (key uploadId : String) (number : Nat) (part : List UInt8) :
    Forgets (store.noted.client.uploadPart key uploadId number part)
      (store.client.uploadPart key uploadId number part) := by
  dsimp only [noted, S3Client.noted]
  exact forgets_noted _

theorem uploadFinalPart_forgets (key : String) (assembly : Assembly) (part : List UInt8) :
    Forgets (store.noted.uploadFinalPart key assembly part)
      (store.uploadFinalPart key assembly part) :=
  (openUpload_forgets key assembly.uploadId).bind fun uploadId =>
    ((uploadPart_forgets key uploadId _ part).adaptExcept _).bind fun eTag =>
      forgets_pure (assembly.addPart uploadId eTag)

theorem uploadFullParts_forgets
    {upload : Assembly → List UInt8 →
      EStateM LayerhouseError (Bucket × List S3Answer) Assembly}
    {plain : Assembly → List UInt8 → EStateM LayerhouseError Bucket Assembly}
    (forgets : ∀ assembly part, Forgets (upload assembly part) (plain assembly part))
    (turns : Nat) (assembly : Assembly) :
    Forgets (uploadFullParts upload turns assembly) (uploadFullParts plain turns assembly) := by
  induction turns generalizing assembly with
  | zero => exact forgets_pure assembly
  | succ turns inductionHypothesis =>
    rw [uploadFullParts, uploadFullParts]
    exact (forgets_pure assembly).ite ((forgets _ _).bind inductionHypothesis)

theorem assembleParts_forgets (key : String) (parts : List StagedUploadPart)
    (assembly : Assembly) :
    Forgets (store.noted.assembleParts key parts assembly)
      (store.assembleParts key parts assembly) := by
  induction parts generalizing assembly with
  | nil => exact forgets_pure assembly
  | cons part rest inductionHypothesis =>
    refine (getObject_forgets part.key).bind fun body => ?_
    cases body with
    | none => exact forgets_throw _
    | some bytes =>
      exact (forgets_throw _).ite
        ((uploadFullParts_forgets (uploadFinalPart_forgets key) _ _).bind inductionHypothesis)

theorem completeMultipartUpload_forgets (key uploadId : String) (parts : List CompletedPart) :
    Forgets (store.noted.client.completeMultipartUpload key uploadId parts)
      (store.client.completeMultipartUpload key uploadId parts) := by
  dsimp only [noted, S3Client.noted]
  exact forgets_noted _

theorem deleteObject_forgets (key : String) :
    Forgets (store.noted.client.deleteObject key) (store.client.deleteObject key) := by
  dsimp only [noted, S3Client.noted]
  exact forgets_noted _

theorem commitAssembly_forgets (key : String) (assembly : Assembly) :
    Forgets (store.noted.commitAssembly key assembly) (store.commitAssembly key assembly) := by
  rw [commitAssembly, commitAssembly]
  cases assembly.uploadId with
  | none =>
    refine Forgets.adaptExcept ?_ _
    dsimp only [noted, S3Client.noted]
    exact forgets_noted _
  | some uploadId =>
    have completes : ∀ last : Assembly,
        Forgets (call (store.noted.client.completeMultipartUpload key uploadId last.uploadedParts))
          (call (store.client.completeMultipartUpload key uploadId last.uploadedParts)) :=
      fun last => (completeMultipartUpload_forgets key uploadId _).adaptExcept _
    exact Forgets.ite ((forgets_pure assembly).bind completes)
      ((uploadFinalPart_forgets key _ _).bind completes)

theorem deleteStagedUpload_forgets (parts : List StagedUploadPart) :
    Forgets (store.noted.deleteStagedUpload parts) (store.deleteStagedUpload parts) := by
  induction parts with
  | nil => exact forgets_pure ()
  | cons part rest inductionHypothesis =>
    exact ((deleteObject_forgets part.key).adaptExcept _).bind fun _ => inductionHypothesis

theorem abortWith_forgets (key uploadId : String) (error : LayerhouseError) :
    Forgets (store.noted.abortWith key uploadId error : EStateM _ _ Value)
      (store.abortWith key uploadId error) := by
  refine Forgets.bind (Forgets.ignore ?_) fun _ => forgets_throw error
  dsimp only [noted, S3Client.noted]
  exact forgets_noted _

/-- The store with the log commits staged parts as the store does. -/
theorem completeUpload_forgets (sessionId : String) (expectedDigest : Digest) :
    Forgets (store.noted.completeUpload sessionId expectedDigest)
      (store.completeUpload sessionId expectedDigest) := by
  refine (readUploadState_forgets sessionId).bind fun found => ?_
  cases found with
  | none => exact forgets_throw _
  | some state =>
    refine (assembleParts_forgets _ _ _).bind fun assembled => ?_
    refine Forgets.ite ?_ ((commitAssembly_forgets _ assembled).bind fun _ =>
      ((deleteObject_forgets _).adaptExcept _).bind fun _ => deleteStagedUpload_forgets _)
    cases assembled.uploadId with
    | none => exact forgets_throw _
    | some uploadId => exact abortWith_forgets _ uploadId _

theorem uploadStreamPart_forgets (key uploadId : String) (assembly : Assembly)
    (part : List UInt8) :
    Forgets (store.noted.uploadStreamPart key uploadId assembly part)
      (store.uploadStreamPart key uploadId assembly part) := by
  intro start log
  have call := @uploadPart_forgets _ store key uploadId (assembly.partNumber + 1) part start log
  rw [uploadStreamPart, uploadStreamPart, ← call]
  cases store.noted.client.uploadPart key uploadId (assembly.partNumber + 1) part (start, log) with
  | ok eTag final => rfl
  | error error middle => exact abortWith_forgets key uploadId _ middle.1 middle.2

theorem absorbStream_forgets (key uploadId : String)
    (stream : List (Except String (List UInt8))) (assembly : Assembly) :
    Forgets (store.noted.absorbStream key uploadId stream assembly)
      (store.absorbStream key uploadId stream assembly) := by
  induction stream generalizing assembly with
  | nil => exact forgets_pure assembly
  | cons read rest inductionHypothesis =>
    cases read with
    | error error => exact abortWith_forgets key uploadId _
    | ok chunk =>
      exact (uploadFullParts_forgets (uploadStreamPart_forgets key uploadId) _ _).bind
        inductionHypothesis

theorem completeStream_forgets (key uploadId : String) (parts : List CompletedPart) :
    Forgets (store.noted.completeStream key uploadId parts)
      (store.completeStream key uploadId parts) := by
  intro start log
  have call := @completeMultipartUpload_forgets _ store key uploadId parts start log
  rw [completeStream, completeStream, ← call]
  cases store.noted.client.completeMultipartUpload key uploadId parts (start, log) with
  | ok done final => rfl
  | error error middle => exact abortWith_forgets key uploadId _ middle.1 middle.2

/-- The store with the log commits streams as the store does. -/
theorem putStreaming_forgets (digest : Digest) (stream : List (Except String (List UInt8))) :
    Forgets (store.noted.putStreaming digest stream) (store.putStreaming digest stream) := by
  refine (openUpload_forgets _ none).bind fun uploadId => ?_
  refine (absorbStream_forgets _ uploadId stream _).bind fun absorbed => ?_
  refine Forgets.ite (abortWith_forgets _ uploadId _) ?_
  have completes : ∀ last : Assembly,
      Forgets (store.noted.completeStream digest.s3Key uploadId last.uploadedParts)
        (store.completeStream digest.s3Key uploadId last.uploadedParts) :=
    fun last => completeStream_forgets _ uploadId _
  exact Forgets.ite ((uploadStreamPart_forgets _ uploadId _ _).bind completes)
    ((forgets_pure absorbed).bind completes)

end S3BlobStore

/-! ### Open uploads -/

/-- The log of the answers in a run, the latest first. -/
def logOf {Bucket : Type} :
    EStateM.Result LayerhouseError (Bucket × List S3Answer) Unit → List S3Answer
  | .ok _ final | .error _ final => final.2

/-- An error leaves no multipart upload open. -/
def SettlesErrors {Bucket : Type}
    (outcome : EStateM.Result LayerhouseError (Bucket × List S3Answer) Unit) : Prop :=
  ∀ error final, outcome = .error error final → Settled final.2

theorem settlesErrors_iff {Bucket : Type} {start : Bucket × List S3Answer}
    {program : EStateM LayerhouseError (Bucket × List S3Answer) Unit}
    {meets : List S3Answer → Prop}
    (ends : Ends program start (fun _ state => meets state.2)
      fun _ state => Settled state.2 ↔ meets state.2) :
    SettlesErrors (program start) ↔ meets (logOf (program start)) := by
  cases outcome : program start with
  | ok done final => exact iff_of_true nofun (ends.of_ok outcome)
  | error error final =>
    have settled := ends.of_error outcome
    refine ⟨fun settles => settled.mp (settles error final rfl), fun met failure reached same => ?_⟩
    obtain ⟨rfl, rfl⟩ := EStateM.Result.error.inj same
    exact settled.mpr met

/-- A failed `complete_upload` leaves no multipart upload open if and only if all answers of S3 let
it go on once an upload was created; a failed `put_streaming` leaves none open if and
only if S3 gives an id to every upload that is created. -/
theorem failed_commits_settle_iff {Bucket : Type} (store : S3BlobStore Bucket) (bucket : Bucket) :
    (∀ sessionId expectedDigest,
      SettlesErrors (store.noted.completeUpload sessionId expectedDigest (bucket, [])) ↔
        Undisturbed (store.stagedSizes sessionId bucket)
          (logOf (store.noted.completeUpload sessionId expectedDigest (bucket, [])))) ∧
    ∀ digest stream,
      SettlesErrors (store.noted.putStreaming digest stream (bucket, [])) ↔
        Named (logOf (store.noted.putStreaming digest stream (bucket, []))) :=
  ⟨fun sessionId expectedDigest =>
    settlesErrors_iff (S3BlobStore.completeUpload_logged sessionId expectedDigest),
    fun digest stream => settlesErrors_iff (S3BlobStore.putStreaming_logged digest stream)⟩

/-- The state of an upload with one part of the smallest size, as it is staged. -/
def refusedUploadText : List UInt8 :=
  Text.utf8 ("\x7b\"parts\":[\x7b\"number\":1,\"key\":\"" ++ uploadPartKey "session" 1 ++
    "\",\"size\":5242880\x7d],\"next_part_number\":2,\"total_bytes\":5242880\x7d").toList

def refusedUpload : StagedUploadState where
  parts := [⟨1, uploadPartKey "session" 1, minPartSize⟩]
  nextPartNumber := 2
  totalBytes := minPartSize

/-- A bucket with the staged upload, which takes no part of a multipart upload. -/
def refusingClient (bytes : List UInt8) : S3Client Unit where
  getObject key := pure (
    if key = uploadStateKey "session" then some refusedUploadText
    else if key = uploadPartKey "session" 1 then some bytes
    else none)
  putObject _ _ := pure ()
  deleteObject _ := pure ()
  createMultipartUpload _ := pure (some "upload")
  uploadPart _ _ _ _ := throw .timeoutError
  completeMultipartUpload _ _ _ := pure ()
  abortMultipartUpload _ _ := pure ()

/-- The store over the bucket, with the hash of a part of zeros. -/
def refusingStore (bytes : List UInt8) : S3BlobStore Unit where
  client := refusingClient bytes
  sha256 := fun _ =>
    #v[0xc0, 0x36, 0xcb, 0xb7, 0x55, 0x3a, 0x90, 0x9f, 0x8b, 0x88, 0x77, 0xd4, 0x46, 0x19, 0x24,
      0x30, 0x7f, 0x27, 0xec, 0xb6, 0x6c, 0xff, 0x92, 0x8e, 0xee, 0xaf, 0xd5, 0x69, 0xc3, 0x88,
      0x7e, 0x29]
  decodeState := fun bytes =>
    if bytes = refusedUploadText then .ok refusedUpload
    else .error "expected value at line 1 column 1"

/-- The upload is created for the first part, and S3 does not take the part. -/
theorem refused_part (bytes : List UInt8) (full : bytes.length = minPartSize) (digest : Digest) :
    (refusingStore bytes).noted.completeUpload "session" digest ((), []) =
      .error (.s3 "request has timed out") ((),
        [.uploaded false, .created digest.s3Key (some "upload"), .read (some bytes.length),
          .read (some refusedUploadText.length)]) := by
  have absorbed : absorbChunk ((refusingStore bytes).noted.uploadFinalPart digest.s3Key)
      (.empty none) bytes
        ((), [.read (some bytes.length), .read (some refusedUploadText.length)]) =
        .error (.s3 "request has timed out") ((),
        [.uploaded false, .created digest.s3Key (some "upload"), .read (some bytes.length),
          .read (some refusedUploadText.length)]) := by
    have buffered : ([] ++ bytes).length = minPartSize - 1 + 1 := full
    rw [absorbChunk]
    dsimp only [Assembly.empty]
    rw [buffered, uploadFullParts, if_neg (by rw [buffered]; exact Nat.lt_irrefl _)]
    exact bind_eq_of_error rfl
  have assembled : (refusingStore bytes).noted.assembleParts digest.s3Key
      [⟨1, uploadPartKey "session" 1, minPartSize⟩] (.empty none)
        ((), [.read (some refusedUploadText.length)]) =
        .error (.s3 "request has timed out") ((),
        [.uploaded false, .created digest.s3Key (some "upload"), .read (some bytes.length),
          .read (some refusedUploadText.length)]) := by
    have held : (refusingClient bytes).getObject (uploadPartKey "session" 1) =
        pure (some bytes) := by
      have different : uploadPartKey "session" 1 ≠ uploadStateKey "session" := by decide +kernel
      rw [refusingClient]
      dsimp only
      rw [if_neg different, if_pos rfl]
    have read : (refusingStore bytes).noted.getObject (uploadPartKey "session" 1)
        ((), [.read (some refusedUploadText.length)]) =
          .ok (some bytes) ((),
            [.read (some bytes.length), .read (some refusedUploadText.length)]) := by
      rw [S3BlobStore.getObject]
      dsimp only [S3BlobStore.noted, S3Client.noted, refusingStore]
      rw [held]
      rfl
    refine (bind_eq_of_ok read).trans ?_
    show (if bytes.length ≠ minPartSize then _ else _ :
      EStateM LayerhouseError (Unit × List S3Answer) Assembly) _ = _
    rw [if_neg (not_not_intro full)]
    exact bind_eq_of_error absorbed
  have staged : (refusingStore bytes).noted.readUploadState "session" ((), []) =
      .ok (some refusedUpload) ((), [.read (some refusedUploadText.length)]) := by
    have held : (refusingClient bytes).getObject (uploadStateKey "session") =
        pure (some refusedUploadText) := by
      rw [refusingClient]
      dsimp only
      rw [if_pos rfl]
    have read : (refusingStore bytes).noted.getObject (uploadStateKey "session") ((), []) =
        .ok (some refusedUploadText) ((), [.read (some refusedUploadText.length)]) := by
      rw [S3BlobStore.getObject]
      dsimp only [S3BlobStore.noted, S3Client.noted, refusingStore]
      rw [held]
      rfl
    have decoded : (refusingStore bytes).noted.decodeState refusedUploadText =
        .ok refusedUpload := by
      simp only [S3BlobStore.noted, refusingStore, if_true]
    refine (bind_eq_of_ok read).trans ?_
    dsimp only
    rw [decoded]
    rfl
  exact (bind_eq_of_ok staged).trans (bind_eq_of_error assembled)

/-- The upload of the refused part stays open. -/
theorem refused_part_leaves_upload_open :
    ∃ (store : S3BlobStore Unit) (sessionId : String) (digest : Digest),
      ¬ SettlesErrors (store.noted.completeUpload sessionId digest ((), [])) := by
  refine ⟨refusingStore (List.replicate minPartSize 0), "session",
    ⟨"sha256", "c036cbb7553a909f8b8877d4461924307f27ecb66cff928eeeafd569c3887e29"⟩,
    fun settles => ?_⟩
  have settled := settles _ _ (refused_part _ List.length_replicate _)
  obtain ⟨known, same, ends⟩ := settled _ _ (List.mem_cons_of_mem _ List.mem_cons_self)
  rcases ends with completed | aborted
  · simp only [List.mem_cons, List.not_mem_nil, reduceCtorEq, or_self] at completed
  · simp only [List.mem_cons, List.not_mem_nil, reduceCtorEq, or_self] at aborted

end Layerhouse
