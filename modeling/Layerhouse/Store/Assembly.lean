/-
This file proves that committed blobs are addressed by their content. The loops of
`complete_upload` and of `put_streaming` keep one invariant: the parts uploaded so
far, each of the smallest size S3 allows, and the buffer behind them are together
the bytes that were hashed. So what is written in the end has the digest that was
compared, and before that comparison nothing is written under the blob's key.

The two differ in one case: a stream without any bytes is stored as a multipart
upload with one empty part, since S3 completes no upload without parts.
-/

import Layerhouse.Store.S3

namespace Layerhouse

/-! ### Digests -/

theorem Digest.colon_notMem_hexEncode (bytes : List UInt8) : ':' ∉ hexEncode bytes := by
  intro member
  obtain ⟨byte, _, digit⟩ := List.mem_flatMap.mp member
  have small : ∀ value < 16, Nat.digitChar value ≠ ':' := by decide
  have bound := byte.toNat_lt
  rcases List.mem_pair.mp digit with first | second
  · exact small _ (by omega) first.symm
  · exact small _ (Nat.mod_lt _ (by decide)) second.symm

/-- A digest that prints like the hash of some bytes is that hash. -/
theorem Digest.eq_sha256_of_toStr {hash : List UInt8 → Vector UInt8 32} {bytes : List UInt8}
    {digest : Digest} (printed : (sha256 hash bytes).toStr = digest.toStr) :
    sha256 hash bytes = digest := by
  obtain ⟨algorithm, hex⟩ := digest
  have lists := congrArg String.toList printed
  simp only [toStr, sha256, String.toList_append, List.append_assoc, String.toList_ofList] at lists
  obtain ⟨sameAlgorithm, _, sameHex⟩ := (List.append_cons_inj_of_notMem (by decide)
    (colon_notMem_hexEncode (hash bytes).toList)).mp lists
  rw [sha256, Digest.mk.injEq, ← String.toList_inj, ← String.toList_inj]
  exact ⟨sameAlgorithm, by rw [String.toList_ofList]; exact sameHex⟩

/-! ### The parts uploaded so far -/

section Loops

variable {Bucket : Type} (view : S3View Bucket) (opened : Option String)

/-- The uploaded parts are stored under increasing numbers. The multipart upload is `opened` when
the loop starts and does not change after its first part. -/
structure Assembly.Uploaded (bucket : Bucket) (assembly : Assembly)
    (parts : List (List UInt8)) : Prop where
  created : parts = [] → assembly.uploadId = opened
  kept : ∀ id, opened = some id → assembly.uploadId = some id
  numbered : ∀ completed ∈ assembly.uploadedParts, completed.partNumber ≤ assembly.partNumber
  increasing : (assembly.uploadedParts.map (·.partNumber)).Pairwise (· < ·)
  stored : List.Forall₂ (fun completed content => ∃ id, assembly.uploadId = some id ∧
    view.part bucket id completed.partNumber = some content) assembly.uploadedParts parts

/-- The hashed bytes are the uploaded parts, all of the smallest size, and less than one more in
the buffer. -/
structure Assembly.Sound (bucket : Bucket) (assembly : Assembly)
    (parts : List (List UInt8)) : Prop where
  uploaded : assembly.Uploaded view opened bucket parts
  hashed : assembly.hashed = parts.flatten ++ assembly.buffer
  full : ∀ part ∈ parts, part.length = minPartSize
  short : assembly.buffer.length < minPartSize

theorem Assembly.sound_empty (bucket : Bucket) :
    (Assembly.empty opened).Sound view opened bucket [] where
  uploaded := ⟨fun _ => rfl, fun _ same => same, nofun, .nil, .nil⟩
  hashed := rfl
  full := nofun
  short := Nat.zero_lt_of_lt (show 0 < minPartSize by decide)

variable {view opened} {bucket after : Bucket} {assembly : Assembly}
  {parts : List (List UInt8)}

/-- Only the parts of the bucket and the multipart upload of the assembly matter. -/
theorem Assembly.Uploaded.congr (uploaded : assembly.Uploaded view opened bucket parts)
    (same : view.part after = view.part bucket) :
    assembly.Uploaded view opened after parts where
  created := uploaded.created
  kept := uploaded.kept
  numbered := uploaded.numbered
  increasing := uploaded.increasing
  stored := by
    rw [same]
    exact uploaded.stored

/-- Without a multipart upload there are no parts yet. -/
theorem Assembly.Uploaded.eq_nil_of_none (uploaded : assembly.Uploaded view opened bucket parts)
    (missing : assembly.uploadId = none) : parts = [] := by
  have stored := uploaded.stored
  obtain _ | ⟨first, rest⟩ := parts
  · rfl
  · obtain ⟨_, _, ⟨_, current, _⟩, _⟩ := List.forall₂_cons_right_iff.mp stored
    exact nomatch missing.symm.trans current

theorem Assembly.Uploaded.congr_of_none (uploaded : assembly.Uploaded view opened bucket parts)
    (missing : assembly.uploadId = none) : assembly.Uploaded view opened after parts where
  created := uploaded.created
  kept := uploaded.kept
  numbered := uploaded.numbered
  increasing := uploaded.increasing
  stored := uploaded.stored.imp fun _ _ ⟨_, current, _⟩ => nomatch missing.symm.trans current

theorem Assembly.Uploaded.setBytes (uploaded : assembly.Uploaded view opened bucket parts)
    (hashed buffer : List UInt8) :
    { assembly with hashed := hashed, buffer := buffer }.Uploaded view opened bucket parts :=
  ⟨uploaded.created, uploaded.kept, uploaded.numbered, uploaded.increasing, uploaded.stored⟩

/-- A part is added to the multipart upload of the assembly, or to a new one when it has none. -/
theorem Assembly.Uploaded.addPart (uploaded : assembly.Uploaded view opened bucket parts)
    {id : String} (current : assembly.uploadId = some id ∨ assembly.uploadId = none)
    {part : List UInt8} (placed : view.part after id (assembly.partNumber + 1) = some part)
    (others : ∀ number, number ≠ assembly.partNumber + 1 →
      view.part after id number = view.part bucket id number) (eTag : Option String) :
    (assembly.addPart id eTag).Uploaded view opened after (parts ++ [part]) where
  created := fun empty => absurd empty (List.append_ne_nil_of_right_ne_nil parts nofun)
  kept := by
    intro other same
    rcases current with current | missing
    · exact current.symm.trans (uploaded.kept other same)
    · exact nomatch missing.symm.trans (uploaded.kept other same)
  numbered := by
    intro completed member
    rcases List.mem_append.mp member with earlier | last
    · exact (uploaded.numbered completed earlier).trans (Nat.le_succ _)
    · rw [List.mem_singleton.mp last]
      exact Nat.le_refl _
  increasing := by
    rw [Assembly.addPart, List.map_append, List.pairwise_append]
    refine ⟨uploaded.increasing, List.pairwise_singleton _ _, fun first member last same => ?_⟩
    obtain ⟨completed, earlier, rfl⟩ := List.mem_map.mp member
    obtain rfl := List.mem_singleton.mp same
    exact Nat.lt_succ_of_le (uploaded.numbered completed earlier)
  stored := by
    have below := (List.forall₂_and_left _ _).mpr ⟨uploaded.numbered, uploaded.stored⟩
    refine List.rel_append (below.imp ?_) (.cons ⟨id, rfl, placed⟩ .nil)
    rintro completed content ⟨earlier, other, stands, found⟩
    obtain rfl : other = id := by
      rcases current with current | missing
      · exact Option.some.inj (stands.symm.trans current)
      · exact nomatch missing.symm.trans stands
    exact ⟨other, rfl, (others _ (Nat.ne_of_lt (Nat.lt_succ_of_le earlier))).trans found⟩

/-! ### The loops -/

/-- What the loops need of an upload: a part that is uploaded is added to the others, and no
object changes whether it is uploaded or not. -/
def UploadsParts (view : S3View Bucket) (opened : Option String)
    (upload : Assembly → List UInt8 → EStateM LayerhouseError Bucket Assembly) : Prop :=
  ∀ assembly part bucket parts, assembly.Uploaded view opened bucket parts →
    Ends (upload assembly part) bucket
      (fun next final => view.object final = view.object bucket ∧
        next.hashed = assembly.hashed ∧ next.buffer = assembly.buffer ∧
        (∀ id, assembly.uploadId = some id → next.uploadId = some id) ∧
        next.Uploaded view opened final (parts ++ [part]))
      (fun _ final => view.object final = view.object bucket)

/-- The loop over full parts leaves less than one in the buffer. -/
theorem uploadFullParts_sound
    {upload : Assembly → List UInt8 → EStateM LayerhouseError Bucket Assembly}
    (uploads : UploadsParts view opened upload) (turns : Nat)
    (uploaded : assembly.Uploaded view opened bucket parts)
    (hashed : assembly.hashed = parts.flatten ++ assembly.buffer)
    (full : ∀ part ∈ parts, part.length = minPartSize)
    (enough : assembly.buffer.length ≤ turns) :
    Ends (uploadFullParts upload turns assembly) bucket
      (fun next final => view.object final = view.object bucket ∧
        next.hashed = assembly.hashed ∧ ∃ all, next.Sound view opened final all)
      (fun _ final => view.object final = view.object bucket) := by
  induction turns generalizing assembly bucket parts with
  | zero =>
    refine ends_pure.mpr ⟨rfl, rfl, parts, uploaded, hashed, full, ?_⟩
    exact enough.trans_lt (show 0 < minPartSize by decide)
  | succ turns inductionHypothesis =>
    rw [uploadFullParts]
    split
    · rename_i short
      exact ends_pure.mpr ⟨rfl, rfl, parts, uploaded, hashed, full, short⟩
    · rename_i long
      have positive : 0 < minPartSize := by decide
      refine Ends.bind ((uploads _ _ _ _ (uploaded.setBytes _ _)).imp ?_ fun _ _ same => same)
      rintro next middle ⟨sameObjects, sameHashed, sameBuffer, _, nextUploaded⟩
      have continued := inductionHypothesis nextUploaded ?_ ?_ ?_
      · refine continued.imp ?_ fun _ _ same => same.trans sameObjects
        rintro last final ⟨objects, lastHashed, sound⟩
        exact ⟨objects.trans sameObjects, lastHashed.trans sameHashed, sound⟩
      · rw [sameHashed, sameBuffer, List.flatten_append, List.flatten_singleton,
          List.append_assoc, List.take_append_drop]
        exact hashed
      · intro part member
        rcases List.mem_append.mp member with earlier | last
        · exact full part earlier
        · rw [List.mem_singleton.mp last, List.length_take]
          omega
      · rw [sameBuffer, List.length_drop]
        omega

theorem absorbChunk_sound
    {upload : Assembly → List UInt8 → EStateM LayerhouseError Bucket Assembly}
    (uploads : UploadsParts view opened upload)
    (sound : assembly.Sound view opened bucket parts) (chunk : List UInt8) :
    Ends (absorbChunk upload assembly chunk) bucket
      (fun next final => view.object final = view.object bucket ∧
        next.hashed = assembly.hashed ++ chunk ∧ ∃ all, next.Sound view opened final all)
      (fun _ final => view.object final = view.object bucket) := by
  refine uploadFullParts_sound uploads _ (sound.uploaded.setBytes _ _) ?_ sound.full (Nat.le_refl _)
  rw [sound.hashed, List.append_assoc]

end Loops

/-! ### Calls of the store -/

namespace S3BlobStore

variable {Bucket : Type} {store : S3BlobStore Bucket} {view : S3View Bucket}

/-- The object under every key is as it was. -/
def SameObjects (view : S3View Bucket) (bucket final : Bucket) : Prop :=
  view.object final = view.object bucket

theorem openUpload_sound (lawful : store.client.Lawful view) (key : String)
    (current : Option String) (bucket : Bucket) :
    Ends (store.openUpload key current) bucket
      (fun id final => SameObjects view bucket final ∧
        (current = some id ∧ final = bucket ∨ current = none))
      (fun _ final => SameObjects view bucket final) := by
  cases current with
  | some id => exact ends_pure.mpr ⟨rfl, Or.inl ⟨rfl, rfl⟩⟩
  | none =>
    refine Ends.bind (Ends.adaptExcept ((lawful.createMultipartUpload key bucket).imp ?_
      fun _ _ same => same))
    intro answer middle same
    cases answer with
    | some id => exact ends_pure.mpr ⟨same, Or.inr rfl⟩
    | none => exact ends_throw.mpr same

/-- The number of the next part is free, so its upload leaves the others. -/
theorem uploadFinalPart_sound (lawful : store.client.Lawful view) (key : String) :
    UploadsParts view none (store.uploadFinalPart key) := by
  intro assembly part bucket parts uploaded
  refine Ends.bind ((openUpload_sound lawful key assembly.uploadId bucket).imp ?_
    fun _ _ same => same)
  rintro id middle ⟨same, current⟩
  have carried : (assembly.uploadId = some id ∨ assembly.uploadId = none) ∧
      assembly.Uploaded view none middle parts := by
    rcases current with ⟨current, rfl⟩ | missing
    · exact ⟨Or.inl current, uploaded⟩
    · refine ⟨Or.inr missing, uploaded.congr_of_none missing⟩
  refine Ends.bind (Ends.adaptExcept ((lawful.uploadPart key id _ part middle).imp ?_
    fun _ _ unchanged => unchanged.trans same))
  rintro eTag final ⟨unchanged, placed, others⟩
  refine ends_pure.mpr ⟨unchanged.trans same, rfl, rfl, fun other stands => ?_,
    carried.2.addPart carried.1 placed others eTag⟩
  rcases carried.1 with current | missing
  · exact current.symm.trans stands
  · exact nomatch missing.symm.trans stands

/-- An abort changes no object. -/
theorem abortWith_sound {Value : Type} (lawful : store.client.Lawful view) (key id : String)
    (error : LayerhouseError) (bucket : Bucket) (done : Value → Bucket → Prop) :
    Ends (store.abortWith key id error) bucket done
      (fun failure final => SameObjects view bucket final ∧ failure = error) := by
  refine Ends.bind (Ends.imp (Ends.ignore (lawful.abortMultipartUpload key id bucket)) ?_
    fun _ _ impossible => impossible)
  exact fun _ final same => ends_throw.mpr ⟨same, rfl⟩

theorem uploadStreamPart_sound (lawful : store.client.Lawful view) (key id : String) :
    UploadsParts view (some id) (store.uploadStreamPart key id) := by
  intro assembly part bucket parts uploaded
  have law := lawful.uploadPart key id (assembly.partNumber + 1) part bucket
  rw [Ends, uploadStreamPart]
  cases outcome : store.client.uploadPart key id (assembly.partNumber + 1) part bucket with
  | ok eTag final =>
    obtain ⟨same, placed, others⟩ := law.of_ok outcome
    have current := uploaded.kept id rfl
    exact ⟨same, rfl, rfl, fun _ stands => current.symm.trans stands,
      uploaded.addPart (Or.inl current) placed others eTag⟩
  | error error middle =>
    have same := law.of_error outcome
    exact (abortWith_sound lawful key id _ middle _).imp (fun _ _ done => done)
      fun _ _ aborted => aborted.1.trans same

/-- The bytes that the staged parts of a list hold. -/
def PartBytes (view : S3View Bucket) (bucket : Bucket) (parts : List StagedUploadPart)
    (chunks : List (List UInt8)) : Prop :=
  List.Forall₂ (fun part chunk =>
    (view.object bucket part.key).map StoredObject.bytes = some chunk) parts chunks

theorem PartBytes.congr {bucket after : Bucket} {parts : List StagedUploadPart}
    {chunks : List (List UInt8)} (holds : PartBytes view after parts chunks)
    (same : SameObjects view bucket after) : PartBytes view bucket parts chunks := by
  rw [PartBytes, ← show view.object after = view.object bucket from same]
  exact holds

theorem assembleParts_sound (lawful : store.client.Lawful view) (key : String)
    (staged : List StagedUploadPart) {assembly : Assembly} {bucket : Bucket}
    {parts : List (List UInt8)} (sound : assembly.Sound view none bucket parts) :
    Ends (store.assembleParts key staged assembly) bucket
      (fun next final => SameObjects view bucket final ∧
        (∃ all, next.Sound view none final all) ∧
        ∃ chunks, PartBytes view bucket staged chunks ∧
          next.hashed = assembly.hashed ++ chunks.flatten)
      (fun _ final => SameObjects view bucket final) := by
  induction staged generalizing assembly bucket parts with
  | nil =>
    exact ends_pure.mpr ⟨rfl, ⟨parts, sound⟩, [], .nil, (List.append_nil _).symm⟩
  | cons part rest inductionHypothesis =>
    refine Ends.bind (Ends.adaptExcept ((lawful.getObject part.key bucket).imp ?_
      fun _ _ same => same))
    rintro body middle ⟨⟨sameObjects, sameParts⟩, read⟩
    cases body with
    | none => exact ends_throw.mpr sameObjects
    | some bytes =>
      simp only
      split
      · exact ends_throw.mpr sameObjects
      · have carried : assembly.Sound view none middle parts :=
          ⟨sound.uploaded.congr sameParts, sound.hashed, sound.full, sound.short⟩
        refine Ends.bind ((absorbChunk_sound (uploadFinalPart_sound lawful key) carried bytes).imp
          ?_ fun _ _ same => same.trans sameObjects)
        rintro next later ⟨absorbed, hashed, all, nextSound⟩
        have same : SameObjects view bucket later := absorbed.trans sameObjects
        refine (inductionHypothesis nextSound).imp ?_ fun _ _ unchanged => unchanged.trans same
        rintro last final ⟨unchanged, lastSound, chunks, held, lastHashed⟩
        refine ⟨unchanged.trans same, lastSound, bytes :: chunks,
          .cons (read bytes rfl) (held.congr same), ?_⟩
        rw [lastHashed, hashed, List.append_assoc, List.flatten_cons]

theorem absorbStream_sound (lawful : store.client.Lawful view) (key id : String)
    (stream : List (Except String (List UInt8))) {assembly : Assembly} {bucket : Bucket}
    {parts : List (List UInt8)} (sound : assembly.Sound view (some id) bucket parts) :
    Ends (store.absorbStream key id stream assembly) bucket
      (fun next final => SameObjects view bucket final ∧
        (∃ all, next.Sound view (some id) final all) ∧
        ∃ chunks : List (List UInt8), stream = chunks.map .ok ∧
          next.hashed = assembly.hashed ++ chunks.flatten)
      (fun _ final => SameObjects view bucket final) := by
  induction stream generalizing assembly bucket parts with
  | nil =>
    exact ends_pure.mpr ⟨rfl, ⟨parts, sound⟩, [], rfl, (List.append_nil _).symm⟩
  | cons read rest inductionHypothesis =>
    cases read with
    | error error =>
      exact (abortWith_sound lawful key id _ bucket _).imp (fun _ _ done => done)
        fun _ _ aborted => aborted.1
    | ok chunk =>
      refine Ends.bind ((absorbChunk_sound (uploadStreamPart_sound lawful key id) sound chunk).imp
        ?_ fun _ _ same => same)
      rintro next middle ⟨same, hashed, all, nextSound⟩
      refine (inductionHypothesis nextSound).imp ?_ fun _ _ unchanged => unchanged.trans same
      rintro last final ⟨unchanged, lastSound, chunks, rfl, lastHashed⟩
      refine ⟨unchanged.trans same, lastSound, chunk :: chunks, rfl, ?_⟩
      rw [lastHashed, hashed, List.append_assoc, List.flatten_cons]

end S3BlobStore

/-! ### Commits -/

/-- Every part but the last has the smallest size that S3 allows, and the last is not empty. -/
def CutEvenly (parts : List (List UInt8)) : Prop :=
  ∃ full last, parts = full ++ [last] ∧ (∀ part ∈ full, part.length = minPartSize) ∧ last ≠ []

def StoredObject.CutEvenly : StoredObject → Prop
  | .whole _ => True
  | .multipart parts => Layerhouse.CutEvenly parts

namespace S3BlobStore

variable {Bucket : Type} {store : S3BlobStore Bucket} {view : S3View Bucket}

/-- Full parts with a rest that is not empty, or some full parts alone, are cut evenly. -/
theorem cutEvenly_of_full {parts : List (List UInt8)}
    (full : ∀ part ∈ parts, part.length = minPartSize) (some : parts ≠ []) :
    CutEvenly parts := by
  refine ⟨parts.dropLast, parts.getLast some, (List.dropLast_append_getLast some).symm,
    fun part member => full part (List.mem_of_mem_dropLast member), fun empty => ?_⟩
  have size := full _ (List.getLast_mem some)
  rw [empty] at size
  exact absurd size (by decide)

/-- The parts of an upload that was completed are those of the assembly. -/
theorem completeMultipartUpload_sound (lawful : store.client.Lawful view) (key id : String)
    {assembly : Assembly} {opened : Option String} {bucket : Bucket} {parts : List (List UInt8)}
    (uploaded : assembly.Uploaded view opened bucket parts)
    (current : assembly.uploadId = some id) :
    Ends (store.client.completeMultipartUpload key id assembly.uploadedParts) bucket
      (fun _ final => view.object final key = some (.multipart parts)) (fun _ _ => True) := by
  refine lawful.completeMultipartUpload key id _ parts bucket uploaded.increasing
    (uploaded.stored.imp ?_)
  rintro completed content ⟨other, stands, found⟩
  obtain rfl := Option.some.inj (current.symm.trans stands)
  exact found

/-- A failure of the SDK, as the store reports it. -/
def Reported (error : LayerhouseError) : Prop :=
  ∃ cause : SdkError, error = .s3 cause.toStr

theorem commitAssembly_sound (lawful : store.client.Lawful view) (key : String)
    {assembly : Assembly} {bucket : Bucket} {parts : List (List UInt8)}
    (sound : assembly.Sound view none bucket parts) :
    Ends (store.commitAssembly key assembly) bucket
      (fun _ final => ∃ written, view.object final key = some written ∧
        written.bytes = assembly.hashed ∧ written.CutEvenly)
      (fun error final => SameObjects view bucket final ∨ Reported error) := by
  rw [commitAssembly]
  split
  · rename_i id current
    have started : parts ≠ [] := fun empty =>
      nomatch current.symm.trans (sound.uploaded.created empty)
    by_cases rest : assembly.buffer = []
    · simp only [rest, List.isEmpty_nil, if_true]
      refine Ends.bind (ends_pure.mpr (Ends.adaptExcept
        ((completeMultipartUpload_sound lawful key id sound.uploaded current).imp ?_
          fun cause _ _ => Or.inr ⟨cause, rfl⟩)))
      intro _ final written
      refine ⟨_, written, ?_, cutEvenly_of_full sound.full started⟩
      rw [sound.hashed, rest, List.append_nil]
      rfl
    · simp only [List.isEmpty_iff, rest, if_false]
      refine Ends.bind ((uploadFinalPart_sound lawful key _ _ _ _
        (sound.uploaded.setBytes assembly.hashed [])).imp ?_ fun _ _ same => Or.inl same)
      rintro next middle ⟨_, _, _, keeps, uploaded⟩
      refine Ends.adaptExcept ((completeMultipartUpload_sound lawful key id uploaded
        (keeps id current)).imp ?_ fun cause _ _ => Or.inr ⟨cause, rfl⟩)
      intro _ final written
      refine ⟨_, written, ?_, parts, assembly.buffer, rfl, sound.full, rest⟩
      rw [sound.hashed]
      exact List.flatten_append.trans (congrArg _ List.flatten_singleton)
  · rename_i missing
    refine Ends.adaptExcept ((lawful.putObject key assembly.buffer bucket).imp ?_
      fun cause _ _ => Or.inr ⟨cause, rfl⟩)
    intro _ final written
    refine ⟨_, written, ?_, trivial⟩
    rw [sound.hashed, sound.uploaded.eq_nil_of_none missing]
    rfl

/-- The SDK reports no digest mismatch. -/
theorem not_reported_digestMismatch (expected actual : String) :
    ¬ Reported (digestMismatch expected actual) := by
  rintro ⟨cause, same⟩
  have starts := congrArg (fun text : String => text.toList.take 3) (LayerhouseError.s3.inj same)
  simp only [String.toList_append, List.append_assoc] at starts
  cases cause <;> exact absurd starts (by simp [SdkError.toStr])

theorem s3Key_ne_uploads (digest : Digest) (rest : String) :
    "uploads/" ++ rest ≠ digest.s3Key := by
  intro same
  have starts := congrArg (fun text : String => text.toList.head?) same
  simp [Digest.s3Key] at starts

theorem deleteStagedUpload_sound (lawful : store.client.Lawful view) {key : String}
    {parts : List StagedUploadPart} (others : ∀ part ∈ parts, part.key ≠ key) (bucket : Bucket) :
    Ends (store.deleteStagedUpload parts) bucket
      (fun _ final => view.object final key = view.object bucket key)
      (fun error _ => Reported error) := by
  induction parts generalizing bucket with
  | nil => exact ends_pure.mpr rfl
  | cons part rest inductionHypothesis =>
    refine Ends.bind (Ends.adaptExcept ((lawful.deleteObject part.key bucket).imp ?_
      fun cause _ _ => ⟨cause, rfl⟩))
    intro _ middle unchanged
    have same := unchanged key (others part List.mem_cons_self).symm
    exact (inductionHypothesis (fun other member => others other (.tail _ member)) middle).imp
      (fun _ _ later => later.trans same) fun _ _ reported => reported

/-- Reading the staged state gives what is decoded from its object. -/
theorem readUploadState_sound (lawful : store.client.Lawful view) {sessionId : String}
    {bucket : Bucket} {object : StoredObject} {state : StagedUploadState}
    (found : view.object bucket (uploadStateKey sessionId) = some object)
    (decoded : store.decodeState object.bytes = .ok state) :
    Ends (store.readUploadState sessionId) bucket
      (fun answer final => SameObjects view bucket final ∧
        ∀ other, answer = some other → other = state)
      (fun _ final => SameObjects view bucket final) := by
  refine Ends.bind (Ends.adaptExcept ((lawful.getObject _ bucket).imp ?_ fun _ _ same => same))
  rintro body middle ⟨⟨same, _⟩, read⟩
  cases body with
  | none => exact ends_pure.mpr ⟨same, nofun⟩
  | some bytes =>
    have content := read bytes rfl
    rw [found, Option.map_some, Option.some.injEq] at content
    simp only [← content, decoded]
    exact ends_pure.mpr ⟨same, fun other answered => (Option.some.inj answered).symm⟩

/-- The staged parts in the order of their numbers. -/
def StagedUploadState.inOrder (state : StagedUploadState) : List StagedUploadPart :=
  state.parts.insertionSort fun first second => first.number ≤ second.number

theorem completeUpload_sound (lawful : store.client.Lawful view) {sessionId : String}
    {bucket : Bucket} {object : StoredObject} {state : StagedUploadState}
    (found : view.object bucket (uploadStateKey sessionId) = some object)
    (decoded : store.decodeState object.bytes = .ok state)
    (staged : ∀ part ∈ state.parts, part.key = uploadPartKey sessionId part.number)
    (expected : Digest) :
    Ends (store.completeUpload sessionId expected) bucket
      (fun _ final => ∃ chunks written,
        PartBytes view bucket (StagedUploadState.inOrder state) chunks ∧
        view.object final expected.s3Key = some written ∧ written.bytes = chunks.flatten ∧
        Digest.sha256 store.sha256 chunks.flatten = expected ∧ written.CutEvenly)
      (fun error final => SameObjects view bucket final ∨ Reported error) := by
  refine Ends.bind ((readUploadState_sound lawful found decoded).imp ?_
    fun _ _ same => Or.inl same)
  rintro answer first ⟨readSame, read⟩
  cases answer with
  | none => exact ends_throw.mpr (Or.inl readSame)
  | some other =>
    obtain rfl := read other rfl
    refine Ends.bind ((assembleParts_sound lawful expected.s3Key _
      (Assembly.sound_empty view none first)).imp ?_ fun _ _ same => Or.inl (same.trans readSame))
    rintro assembly second ⟨assembleSame, ⟨parts, sound⟩, chunks, held, hashed⟩
    have same : SameObjects view bucket second := assembleSame.trans readSame
    have bytes : assembly.hashed = chunks.flatten := hashed
    simp only
    split
    · split
      · rename_i id _
        exact (abortWith_sound lawful expected.s3Key id _ second _).imp (fun _ _ done => done)
          fun _ _ aborted => Or.inl (aborted.1.trans same)
      · exact ends_throw.mpr (Or.inl same)
    · rename_i agree
      have digest := Digest.eq_sha256_of_toStr (not_not.mp agree)
      refine Ends.bind ((commitAssembly_sound lawful expected.s3Key sound).imp ?_
        fun _ _ failed => failed.imp_left fun unwritten => unwritten.trans same)
      rintro _ third ⟨written, stored, content, cut⟩
      refine Ends.bind (Ends.adaptExcept ((lawful.deleteObject _ third).imp ?_
        fun cause _ _ => Or.inr ⟨cause, rfl⟩))
      intro _ fourth unchanged
      have others : ∀ part ∈ StagedUploadState.inOrder other, part.key ≠ expected.s3Key := by
        intro part member
        rw [staged part ((List.mem_insertionSort _).mp member), uploadPartKey,
          String.append_assoc, String.append_assoc]
        exact s3Key_ne_uploads expected _
      refine (deleteStagedUpload_sound lawful others fourth).imp ?_ fun _ _ failed => Or.inr failed
      intro _ final kept
      refine ⟨chunks, written, held.congr readSame, ?_, content.trans bytes, ?_, cut⟩
      · rw [kept, unchanged, stored]
        rw [uploadStateKey, String.append_assoc]
        exact (s3Key_ne_uploads expected _).symm
      · rw [← bytes]
        exact digest

theorem completeStream_sound (lawful : store.client.Lawful view) (key id : String)
    {assembly : Assembly} {opened : Option String} {bucket : Bucket} {parts : List (List UInt8)}
    (uploaded : assembly.Uploaded view opened bucket parts)
    (current : assembly.uploadId = some id) :
    Ends (store.completeStream key id assembly.uploadedParts) bucket
      (fun _ final => view.object final key = some (.multipart parts))
      (fun error _ => Reported error) := by
  have law := completeMultipartUpload_sound lawful key id uploaded current
  rw [Ends, completeStream]
  cases outcome : store.client.completeMultipartUpload key id assembly.uploadedParts bucket with
  | ok done final => exact law.of_ok outcome
  | error cause middle =>
    exact (abortWith_sound lawful key id _ middle _).imp (fun _ _ done => done)
      fun _ _ aborted => ⟨cause, aborted.2⟩

theorem putStreaming_sound (lawful : store.client.Lawful view) (digest : Digest)
    (stream : List (Except String (List UInt8))) (bucket : Bucket) :
    Ends (store.putStreaming digest stream) bucket
      (fun _ final => ∃ (chunks : List (List UInt8)) (written : StoredObject),
        stream = chunks.map .ok ∧ view.object final digest.s3Key = some written ∧
        written.bytes = chunks.flatten ∧ Digest.sha256 store.sha256 chunks.flatten = digest ∧
        (written.CutEvenly ∨ chunks.flatten = [] ∧ written = .multipart [[]]))
      (fun error final => SameObjects view bucket final ∨ Reported error) := by
  refine Ends.bind ((openUpload_sound lawful digest.s3Key none bucket).imp ?_
    fun _ _ same => Or.inl same)
  rintro id first ⟨openSame, _⟩
  refine Ends.bind ((absorbStream_sound lawful digest.s3Key id stream
    (Assembly.sound_empty view (some id) first)).imp ?_
      fun _ _ same => Or.inl (same.trans openSame))
  rintro assembly second ⟨absorbSame, ⟨parts, sound⟩, chunks, read, hashed⟩
  have same : SameObjects view bucket second := absorbSame.trans openSame
  have bytes : assembly.hashed = chunks.flatten := hashed
  have current := sound.uploaded.kept id rfl
  simp only
  split
  · exact (abortWith_sound lawful digest.s3Key id _ second _).imp (fun _ _ done => done)
      fun _ _ aborted => Or.inl (aborted.1.trans same)
  · rename_i agree
    have content := Digest.eq_sha256_of_toStr (not_not.mp agree)
    rw [bytes] at content
    split
    · rename_i flush
      refine Ends.bind ((uploadStreamPart_sound lawful digest.s3Key id _ _ _ _
        (sound.uploaded.setBytes assembly.hashed [])).imp ?_
        fun _ _ unwritten => Or.inl (unwritten.trans same))
      rintro next third ⟨_, _, _, keeps, uploaded⟩
      refine (completeStream_sound lawful digest.s3Key id uploaded (keeps id current)).imp ?_
        fun _ _ reported => Or.inr reported
      intro _ final written
      refine ⟨chunks, _, read, written, ?_, content, ?_⟩
      · rw [← bytes, sound.hashed]
        exact List.flatten_append.trans (congrArg _ List.flatten_singleton)
      · by_cases rest : assembly.buffer = []
        · have none : parts = [] := by
            rw [rest] at flush
            have unnumbered := List.isEmpty_iff.mp (flush.resolve_left (by decide))
            exact List.forall₂_nil_left_iff.mp (unnumbered ▸ sound.uploaded.stored)
          refine Or.inr ⟨?_, by rw [none, rest]; rfl⟩
          rw [← bytes, sound.hashed, none, rest]
          rfl
        · exact Or.inl ⟨parts, assembly.buffer, rfl, sound.full, rest⟩
    · rename_i complete
      obtain ⟨emptied, numbered⟩ := not_or.mp complete
      have rest : assembly.buffer = [] := List.isEmpty_iff.mp (not_not.mp emptied)
      have started : parts ≠ [] := by
        rintro rfl
        exact numbered (List.isEmpty_iff.mpr (List.forall₂_nil_right_iff.mp sound.uploaded.stored))
      refine Ends.bind (ends_pure.mpr ((completeStream_sound lawful digest.s3Key id sound.uploaded
        current).imp ?_ fun _ _ reported => Or.inr reported))
      intro _ final written
      refine ⟨chunks, _, read, written, ?_, content, Or.inl (cutEvenly_of_full sound.full started)⟩
      rw [← bytes, sound.hashed, rest, List.append_nil]
      rfl

/-- What `complete_upload` and `put_streaming` write is addressed by its content. For every staged
upload and every expected digest, a completed upload stores the bytes of the parts in the order of
their numbers, their digest is the expected one, and of a multipart upload every part but the last
has the smallest size S3 allows and the last is not empty; after a digest mismatch the object under
the key is the one before. The same holds of every stream, except that a stream without bytes is
stored as one empty part. So both store the same bytes under the same key. -/
theorem committed_blobs_are_content_addressed (store : S3BlobStore Bucket) (view : S3View Bucket)
    (lawful : store.client.Lawful view) (sessionId : String) (expected : Digest)
    {bucket : Bucket} {object : StoredObject} {state : StagedUploadState}
    (found : view.object bucket (uploadStateKey sessionId) = some object)
    (decoded : store.decodeState object.bytes = .ok state)
    (staged : ∀ part ∈ state.parts, part.key = uploadPartKey sessionId part.number)
    (other : Bucket) (stream : List (Except String (List UInt8))) :
    (∀ final, store.completeUpload sessionId expected bucket = .ok () final →
      ∃ chunks written, PartBytes view bucket (StagedUploadState.inOrder state) chunks ∧
        view.object final expected.s3Key = some written ∧ written.bytes = chunks.flatten ∧
        Digest.sha256 store.sha256 chunks.flatten = expected ∧ written.CutEvenly) ∧
    (∀ actual final, store.completeUpload sessionId expected bucket =
        .error (digestMismatch expected.toStr actual) final →
      view.object final expected.s3Key = view.object bucket expected.s3Key) ∧
    (∀ final, store.putStreaming expected stream other = .ok () final →
      ∃ (chunks : List (List UInt8)) (written : StoredObject), stream = chunks.map .ok ∧
        view.object final expected.s3Key = some written ∧ written.bytes = chunks.flatten ∧
        Digest.sha256 store.sha256 chunks.flatten = expected ∧
        (written.CutEvenly ∨ chunks.flatten = [] ∧ written = .multipart [[]])) ∧
    (∀ actual final, store.putStreaming expected stream other =
        .error (digestMismatch expected.toStr actual) final →
      view.object final expected.s3Key = view.object other expected.s3Key) ∧
    ∀ (chunks pieces : List (List UInt8)) completed streamed,
      PartBytes view bucket (StagedUploadState.inOrder state) chunks →
      stream = pieces.map .ok → pieces.flatten = chunks.flatten →
      store.completeUpload sessionId expected bucket = .ok () completed →
      store.putStreaming expected stream other = .ok () streamed →
      (view.object completed expected.s3Key).map StoredObject.bytes =
        (view.object streamed expected.s3Key).map StoredObject.bytes := by
  have completes := completeUpload_sound lawful found decoded staged expected
  have streams := putStreaming_sound lawful expected stream other
  refine ⟨fun final done => completes.of_ok done, fun actual final mismatch => ?_,
    fun final done => streams.of_ok done, fun actual final mismatch => ?_, ?_⟩
  · have unchanged := (completes.of_error mismatch).resolve_right
      (not_reported_digestMismatch _ _)
    exact congrFun unchanged _
  · have unchanged := (streams.of_error mismatch).resolve_right (not_reported_digestMismatch _ _)
    exact congrFun unchanged _
  · intro chunks pieces completed streamed held read sameBytes done stored
    obtain ⟨found, written, holds, placed, content, _⟩ := completes.of_ok done
    obtain ⟨given, copied, readAgain, copiedTo, copiedContent, _⟩ := streams.of_ok stored
    obtain rfl : found = chunks := List.right_unique_forall₂' (fun _ _ _ first second =>
      Option.some.inj (first.symm.trans second)) holds held
    obtain rfl : given = pieces :=
      List.map_injective_iff.mpr (fun _ _ => Except.ok.inj) (readAgain.symm.trans read)
    rw [placed, copiedTo, Option.map_some, Option.map_some, content, copiedContent, sameBytes]

end S3BlobStore

/-! ### A bucket in memory -/

structure MemoryBucket where
  objects : String → Option StoredObject
  parts : String → Nat → Option (List UInt8)
  created : Nat

/-- The parts with the listed numbers, if all of them are there. -/
def listedParts (parts : Nat → Option (List UInt8)) :
    List CompletedPart → Option (List (List UInt8))
  | [] => some []
  | completed :: rest => do
    let content ← parts completed.partNumber
    let contents ← listedParts parts rest
    return content :: contents

/-- S3 as it behaves when every call reaches it. -/
def memoryClient : S3Client MemoryBucket where
  getObject := fun key bucket => .ok ((bucket.objects key).map StoredObject.bytes) bucket
  putObject := fun key content bucket =>
    .ok () { bucket with objects := Function.update bucket.objects key (some (.whole content)) }
  deleteObject := fun key bucket =>
    .ok () { bucket with objects := Function.update bucket.objects key none }
  createMultipartUpload := fun _ bucket =>
    .ok (some (toString bucket.created)) { bucket with created := bucket.created + 1 }
  uploadPart := fun _ id number content bucket =>
    .ok none { bucket with
      parts := Function.update bucket.parts id
        (Function.update (bucket.parts id) number (some content)) }
  completeMultipartUpload := fun key id listed bucket =>
    match listed, listedParts (bucket.parts id) listed with
    | _ :: _, some parts =>
      .ok () { bucket with objects := Function.update bucket.objects key (some (.multipart parts)) }
    | _, _ => .error .serviceError bucket
  abortMultipartUpload := fun _ id bucket =>
    .ok () { bucket with parts := Function.update bucket.parts id fun _ => none }

def memoryView : S3View MemoryBucket where
  object := MemoryBucket.objects
  part := MemoryBucket.parts

theorem listedParts_of_forall₂ {parts : Nat → Option (List UInt8)} {listed : List CompletedPart}
    {contents : List (List UInt8)}
    (stored : List.Forall₂ (fun completed content => parts completed.partNumber = some content)
      listed contents) : listedParts parts listed = some contents := by
  induction stored with
  | nil => rfl
  | cons found _ inductionHypothesis =>
    rw [listedParts, found, inductionHypothesis]
    rfl

theorem memoryClient_lawful : memoryClient.Lawful memoryView where
  getObject := fun key bucket => ⟨⟨rfl, rfl⟩, fun _ same => same⟩
  putObject := fun key content bucket => Function.update_self key _ bucket.objects
  deleteObject := fun key bucket other different =>
    Function.update_of_ne different _ bucket.objects
  createMultipartUpload := fun _ _ => rfl
  uploadPart := fun key id number content bucket => by
    refine ⟨rfl, ?_, fun other different => ?_⟩
    · simp only [memoryView, Function.update_self]
    · simp only [memoryView, Function.update_self, Function.update_of_ne different]
  completeMultipartUpload := by
    intro key id listed parts bucket _ stored
    have found := listedParts_of_forall₂ stored
    refine Ends.of_outcomes (fun _ final returned => ?_) fun _ _ _ => trivial
    simp only [memoryClient] at returned
    split at returned
    · rename_i contents again
      obtain ⟨_, rfl⟩ := EStateM.Result.ok.inj returned
      obtain rfl := Option.some.inj (found.symm.trans again)
      exact Function.update_self key _ bucket.objects
    · exact nomatch returned
  abortMultipartUpload := fun _ _ _ => rfl

/-- What is checked of a concrete computation that should return. -/
def returnsWith {Failure State Value : Type} (outcome : EStateM.Result Failure State Value)
    (holds : State → Bool) : Bool :=
  match outcome with
  | .ok _ final => holds final
  | .error _ _ => false

theorem returnsWith_eq_true {Failure State : Type} {outcome : EStateM.Result Failure State Unit}
    {holds : State → Bool} :
    returnsWith outcome holds = true ↔
      ∃ final, outcome = .ok () final ∧ holds final = true := by
  obtain ⟨_, final⟩ | ⟨failure, final⟩ := outcome
  · simp [returnsWith]
  · simp [returnsWith]

/-- The digest of the empty text. -/
def emptyTextDigest : Digest :=
  ⟨"sha256", "e3b0c44298fc1c149afbf4c8996fb92427ae41e4649b934ca495991b7852b855"⟩

/-- A store in memory for streams without bytes, which stages nothing. -/
def emptyTextStore : S3BlobStore MemoryBucket where
  client := memoryClient
  sha256 := fun _ => Digest.emptyTextHash
  decodeState := fun _ => .error "expected value at line 1 column 1"

/-- A stream without bytes is stored as one part, and that part is empty. -/
theorem empty_stream_is_one_empty_part :
    ∃ final, emptyTextStore.putStreaming emptyTextDigest [] ⟨fun _ => none, fun _ _ => none, 0⟩ =
        .ok () final ∧
      memoryView.object final emptyTextDigest.s3Key = some (.multipart [[]]) ∧
      ¬ (StoredObject.multipart [[]]).CutEvenly := by
  have stored : returnsWith (emptyTextStore.putStreaming emptyTextDigest []
      ⟨fun _ => none, fun _ _ => none, 0⟩) (fun final =>
        final.objects emptyTextDigest.s3Key = some (.multipart [[]])) = true := by decide +kernel
  obtain ⟨final, returned, placed⟩ := returnsWith_eq_true.mp stored
  refine ⟨final, returned, of_decide_eq_true placed, ?_⟩
  rintro ⟨full, last, same, _, nonempty⟩
  have lasts := congrArg List.getLast? same
  rw [List.getLast?_concat] at lasts
  exact nonempty (Option.some.inj lasts).symm

/-- An upload whose two parts are listed in the wrong order. -/
def sampleUpload : StagedUploadState where
  parts := [⟨2, uploadPartKey "session" 2, 1⟩, ⟨1, uploadPartKey "session" 1, 1⟩]
  nextPartNumber := 3
  totalBytes := 2

/-- The upload as it is staged. -/
def sampleUploadText : List UInt8 :=
  Text.utf8 ("\x7b\"parts\":[\x7b\"number\":2,\"key\":\"" ++ uploadPartKey "session" 2 ++
    "\",\"size\":1\x7d,\x7b\"number\":1,\"key\":\"" ++ uploadPartKey "session" 1 ++
    "\",\"size\":1\x7d],\"next_part_number\":3,\"total_bytes\":2\x7d").toList

/-- A store in memory for the empty text and the empty object, which reads the upload above. -/
def emptyObjectStore : S3BlobStore MemoryBucket where
  client := memoryClient
  sha256 := fun bytes => if bytes = [] then Digest.emptyTextHash else Digest.emptyObjectHash
  decodeState := fun bytes =>
    if bytes = sampleUploadText then .ok sampleUpload
    else .error "expected value at line 1 column 1"

def emptyObjectDigest : Digest :=
  ⟨"sha256", "44136fa355b3678a1146ad16f7e8649e94fb4fc21fe77e8310c060f61caaff8a"⟩

def sampleBucket : MemoryBucket where
  objects := fun key =>
    if key = uploadStateKey "session" then some (.whole sampleUploadText)
    else if key = uploadPartKey "session" 1 then some (.whole [0x7b])
    else if key = uploadPartKey "session" 2 then some (.whole [0x7d])
    else none
  parts := fun _ _ => none
  created := 0

/-- The two parts are put together in the order of their numbers. -/
theorem committed_blobs_are_content_addressed_sample :
    ∃ final written, emptyObjectStore.completeUpload "session" emptyObjectDigest sampleBucket =
        .ok () final ∧
      memoryView.object final emptyObjectDigest.s3Key = some written ∧
      written.bytes = [0x7b, 0x7d] ∧
      Digest.sha256 emptyObjectStore.sha256 written.bytes = emptyObjectDigest := by
  have stored : returnsWith (emptyObjectStore.completeUpload "session" emptyObjectDigest
      sampleBucket) (fun _ => true) = true := by decide +kernel
  obtain ⟨final, returned, _⟩ := returnsWith_eq_true.mp stored
  have found : memoryView.object sampleBucket (uploadStateKey "session") =
      some (.whole sampleUploadText) := by
    simp only [memoryView, sampleBucket, if_true]
  have decoded : emptyObjectStore.decodeState (StoredObject.whole sampleUploadText).bytes =
      .ok sampleUpload := by
    simp only [StoredObject.bytes, emptyObjectStore, if_true]
  obtain ⟨chunks, written, held, placed, content, digest, _⟩ :=
    (S3BlobStore.committed_blobs_are_content_addressed emptyObjectStore memoryView
      memoryClient_lawful "session" emptyObjectDigest found decoded (by decide +kernel)
      sampleBucket []).1 final returned
  have bytes : chunks = [[0x7b], [0x7d]] := by
    refine List.right_unique_forall₂' (fun _ _ _ first second =>
      Option.some.inj (first.symm.trans second)) held ?_
    exact .cons (by decide +kernel) (.cons (by decide +kernel) .nil)
  rw [bytes] at content digest
  exact ⟨final, written, returned, placed, content, by rw [content]; exact digest⟩

end Layerhouse
