/-
This file settles when a pushed manifest can be read back under the reference it
was pushed to. It is the whole of `put_manifest` of `routes/manifests.rs`, with
both of its writes and the response.

Writer and reader classify references in different ways. The writer takes every
reference with a colon for a digest and sets no tag for it; the reader takes for
a digest only what starts with `sha256:` or `sha512:` and looks everything else up
as a tag. And the writer never compares a digest it is given with the one of the
body. So a push is read back exactly when its reference holds no colon or is the
digest of its body.
-/

import Layerhouse.Routes.Pushes

namespace Layerhouse

/-! ### The handler -/

structure PutManifestRequest where
  identity : Option AuthIdentity
  access : Option AuthorizedRepositoryAccess
  contentType : Option String
  body : List UInt8

/-- What the handler uses of the node that serves it: the authorization service, if there is one,
the blob store's answers, and which texts the HTTP library takes as the value of a header. -/
structure ManifestNode where
  auth : Option AuthService
  stat : Digest → Bool
  headerValue : String → Bool

/-- The headers of the response to an accepted push. -/
structure ManifestCreated where
  location : String
  dockerContentDigest : String
  ociSubject : Option String
deriving DecidableEq

/-- The epoch that a write without authorization is bound to. -/
def expectedNamespaceForRepository (data : StateMachineData) (repository : String) :
    Option NamespaceEpoch :=
  match handleOf repository with
  | .error _ => none
  | .ok handle =>
    if isHandleReserved handle then none
    else data.namespaces[handle]?.map NamespaceEpoch.fromNamespace

/-- The epoch of the write and whether the reference must be absent: the second look at the
permissions when there is an authorization service. -/
def recheckManifest (node : ManifestNode) (data : StateMachineData) (name reference : String)
    (request : PutManifestRequest) : Except LayerhouseError (Option NamespaceEpoch × Bool) :=
  match node.auth with
  | none => .ok (expectedNamespaceForRepository data name, false)
  | some service =>
    let expected := request.access.bind (·.expectedNamespace)
    if (data.getManifest name reference).isSome then
      match request.identity with
      | none => .error (.unauthorized "authentication required" none none none)
      | some identity =>
        (checkPermission service data identity name .update).map fun update =>
          (expected.or update.expectedNamespace, false)
    else .ok (expected, request.access.all (·.action = .create))

/-- A write through the consensus layer: errors come back as responses. -/
def writeManifest (externals : Externals) (data : StateMachineData) (request : ManifestRequest) :
    StateMachineData × Except LayerhouseError ManifestResponse :=
  let (next, answer) := applyManifest externals data request
  (next, match toResponse .manifest answer with
    | .nameUnknown message => .error (.nameUnknown message)
    | .denied message => .error (.denied message)
    | .conflict message => .error (.conflict message)
    | .nameInvalid message => .error (.nameInvalid message)
    | .internalError message => .error (.internal message)
    | .manifest response => .ok response
    | _ => .error (.internal "unexpected manifest response"))

/-- The response to a written push. The write is not undone when a header cannot be set. -/
def manifestCreated (node : ManifestNode) (name : String) (digest : Digest)
    (subject : Option Digest) : Except LayerhouseError ManifestCreated :=
  let location := "/v2/" ++ name ++ "/manifests/" ++ digest.toStr
  if ¬ node.headerValue location then .error (.serialization "failed to parse header value")
  else if ¬ node.headerValue digest.toStr then
    .error (.serialization "failed to parse header value")
  else if subject.any fun subject => ¬ node.headerValue subject.toStr then
    .error (.serialization "failed to parse header value")
  else .ok ⟨location, digest.toStr, subject.map Digest.toStr⟩

def putManifest (externals : Externals) (node : ManifestNode) (now : Nat)
    (data : StateMachineData) (name reference : String) (request : PutManifestRequest) :
    StateMachineData × Except LayerhouseError ManifestCreated :=
  if 10 * 1024 * 1024 < request.body.length then
    (data, .error (.manifestInvalid "length limit exceeded"))
  else
    let contentType := request.contentType.getD "application/vnd.oci.image.manifest.v1+json"
    match PushCall.receive externals name reference contentType request.body with
    | .error error => (data, .error error)
    | .ok call =>
      match call.digests.find? fun digest => ¬ node.stat digest with
      | some missing => (data, .error (.manifestBlobUnknown missing.toStr))
      | none =>
        match recheckManifest node data name reference request with
        | .error error => (data, .error error)
        | .ok (expected, absent) =>
          match writeManifest externals data
              (.putManifest (call.putManifest externals now expected absent)) with
          | (next, .error error) => (next, .error error)
          | (next, .ok _) =>
            (next, manifestCreated node name (Digest.sha256 externals.sha256 request.body)
              (extractSubjectDigest call.parsed))

/-! ### What an accepted push stores -/

theorem writeManifest_eq_ok {externals : Externals} {data next : StateMachineData}
    {request : ManifestRequest} {response : ManifestResponse}
    (written : writeManifest externals data request = (next, .ok response)) :
    applyManifest externals data request = (next, .ok response) := by
  rw [writeManifest] at written
  generalize applyManifest externals data request = applied at written
  obtain ⟨after, answer⟩ := applied
  obtain ⟨rfl, answered⟩ := Prod.mk.inj written
  obtain error | accepted := answer
  · cases error <;> exact nomatch answered
  · exact Prod.ext rfl answered

/-- An accepted push stores its entry. -/
theorem applyManifest_putManifest_ok {externals : Externals} {data next : StateMachineData}
    {put : PutManifest} {response : ManifestResponse}
    (applied : applyManifest externals data (.putManifest put) = (next, .ok response)) :
    next.content = data.content.push put.name (put.entry externals) put.tag := by
  simp only [applyManifest, afterCheck] at applied
  split at applied
  · cases applied
  · split at applied
    · cases applied
    · rw [PutManifest.tag]
      split at applied
      · rename_i byDigest
        rw [← (Prod.mk.inj applied).1, storeEntry_content, if_pos byDigest]
      · rename_i byTag
        rw [← (Prod.mk.inj applied).1, setTag_content, if_neg byTag]

/-- The entry that the write of a push stores has the body of the push and its digest. -/
theorem PushCall.putManifest_entry (externals : Externals) (now : Nat) (call : PushCall)
    (expected : Option NamespaceEpoch) (absent : Bool) :
    ((call.putManifest externals now expected absent).entry externals).body = call.body ∧
      ((call.putManifest externals now expected absent).entry externals).digest =
        Digest.sha256 externals.sha256 call.body := by
  refine ⟨rfl, ?_⟩
  change (Digest.fromStrChecked (Digest.sha256 externals.sha256 call.body).toStr).getD
    (Digest.sha256 externals.sha256 call.body) = Digest.sha256 externals.sha256 call.body
  obtain unparsed | ⟨digest, parsed⟩ := Option.eq_none_or_eq_some
    (Digest.fromStrChecked (Digest.sha256 externals.sha256 call.body).toStr)
  · rw [unparsed, Option.getD_none]
  · rw [parsed, Option.getD_some, Digest.eq_sha256_of_fromStrChecked parsed]

/-- What an accepted push does: it stores an entry with the pushed body under the digest of the
body, points the reference at it if that holds no colon, and answers with the digest. -/
theorem putManifest_eq_ok {externals : Externals} {node : ManifestNode} {now : Nat}
    {data next : StateMachineData} {name reference : String} {request : PutManifestRequest}
    {created : ManifestCreated}
    (accepted : putManifest externals node now data name reference request =
      (next, .ok created)) :
    created.dockerContentDigest = (Digest.sha256 externals.sha256 request.body).toStr ∧
      ∃ entry : ManifestEntry, entry.body = request.body ∧
        entry.digest = Digest.sha256 externals.sha256 request.body ∧
        next.content = data.content.push name entry
          (if ':' ∈ reference.toList then none else some reference) := by
  rw [putManifest] at accepted
  split at accepted
  · cases accepted
  · simp only at accepted
    split at accepted
    · cases accepted
    · rename_i call received
      obtain ⟨sameName, sameReference, sameBody⟩ : call.name = name ∧
          call.reference = reference ∧ call.body = request.body := by
        rw [PushCall.receive] at received
        split at received
        · cases received
        · split at received
          · cases received
          · rw [← Except.ok.inj received]
            exact ⟨rfl, rfl, rfl⟩
      split at accepted
      · cases accepted
      · split at accepted
        · cases accepted
        · rename_i expected absent _
          split at accepted
          · cases accepted
          · rename_i after response written
            obtain ⟨rfl, answered⟩ := Prod.mk.inj accepted
            have pushed := applyManifest_putManifest_ok (writeManifest_eq_ok written)
            obtain ⟨body, digest⟩ := call.putManifest_entry externals now expected absent
            rw [sameBody] at body digest
            refine ⟨?_, _, body, digest, ?_⟩
            · rw [manifestCreated] at answered
              split at answered
              · cases answered
              · split at answered
                · cases answered
                · split at answered
                  · cases answered
                  · rw [← Except.ok.inj answered]
            · rw [← sameName, ← sameReference]
              exact pushed

/-! ### Reading back -/

/-- Every entry is stored under its digest, and no tag holds a colon. -/
structure Content.Filed (content : Content) : Prop where
  keyed : content.Keyed
  plain : ∀ name tag digest, content.tag? name tag = some digest → ':' ∉ tag.toList

/-- Requests of every kind keep entries under their digests and tags without colons. -/
theorem Content.Filed.applyRequest {externals : Externals} {now : Nat}
    {data next : StateMachineData} {request : Request} {response : Response}
    (holds : data.content.Filed)
    (applied : Layerhouse.applyRequest externals now data request = .ok (next, response)) :
    next.content.Filed := by
  refine ⟨holds.keyed.applyRequest applied, ?_⟩
  rcases applyRequest_content applied with same | ⟨inner, _, moved⟩
  · rw [same]
    exact holds.plain
  · generalize next.content = content at moved ⊢
    cases moved with
    | kept => exact holds.plain
    | @pushed put checked absent =>
      intro name tag digest found
      simp only [Content.push] at found
      split at found
      · rename_i same
        have tagged := same.2
        rw [PutManifest.tag] at tagged
        obtain ⟨colonFree, named⟩ := Option.ite_none_left_eq_some.mp tagged
        obtain rfl := Option.some.inj named
        exact colonFree
      · exact holds.plain name tag digest found
    | removed => exact fun name tag digest found =>
        holds.plain name tag digest (Option.filter_eq_some_iff.mp found).1
    | untagged => exact fun name tag digest found =>
        holds.plain name tag digest (Option.ite_none_left_eq_some.mp found).2

theorem content_filed {externals : Externals} {labels : List (Nat × Request)}
    {data : StateMachineData}
    (reached : run (requestStep externals) StateMachineData.empty labels = some data) :
    data.content.Filed := by
  have empty := content_consistent_empty externals.sha256
  refine run_invariant (fun data : StateMachineData => data.content.Filed) ?_ reached
    ⟨empty.keyed, empty.plain⟩
  intro state label next stepped holds
  obtain ⟨response, applied⟩ := requestStep_eq_some.mp stepped
  exact holds.applyRequest applied

/-- The entry that was stored last is resolved by its digest and by a tag without a colon, and by
no other reference. -/
theorem Content.resolve_push_iff {content : Content} (filed : content.Filed) (name : String)
    (entry : ManifestEntry) (known : IsDigestReference entry.digest.toStr) (reference : String) :
    (∃ found, (content.push name entry
        (if ':' ∈ reference.toList then none else some reference)).resolve name reference =
          some found ∧ found.body = entry.body ∧ found.digest.toStr = entry.digest.toStr) ↔
      ':' ∉ reference.toList ∨ reference = entry.digest.toStr := by
  constructor
  · rintro ⟨found, resolved, _, sameDigest⟩
    by_contra neither
    obtain ⟨colon, different⟩ := not_or.mp neither
    rw [if_pos (not_not.mp colon), Content.resolve] at resolved
    split at resolved
    · have stored := (filed.keyed.push name entry none) name reference found resolved
      exact different (stored.trans sameDigest)
    · obtain ⟨digest, tagged, _⟩ := Option.bind_eq_some_iff.mp resolved
      simp only [Content.push, reduceCtorEq, and_false, if_false] at tagged
      exact filed.plain name reference digest tagged (not_not.mp colon)
  · rintro (plain | rfl)
    · refine ⟨entry, ?_, rfl, rfl⟩
      rw [Content.resolve, if_neg fun read => plain read.colon, if_neg plain]
      simp only [Content.push, and_self, if_true, Option.bind_some]
    · refine ⟨entry, ?_, rfl, rfl⟩
      rw [Content.resolve, if_pos known]
      simp only [Content.push, and_self, if_true]

/-- In every reached state, an accepted push can be read back under its reference, with its body
and under the digest of the response, and its reference is not the digest of something else,
exactly if the reference holds no colon or is the digest of the body. -/
theorem put_manifest_reads_back_iff (externals : Externals) (node : ManifestNode)
    {labels : List (Nat × Request)} {data : StateMachineData}
    (reached : run (requestStep externals) StateMachineData.empty labels = some data) (now : Nat)
    (name reference : String) (request : PutManifestRequest) {next : StateMachineData}
    {created : ManifestCreated}
    (accepted : putManifest externals node now data name reference request =
      (next, .ok created)) :
    ((∃ entry, next.getManifest name reference = some entry ∧ entry.body = request.body ∧
        entry.digest.toStr = created.dockerContentDigest) ∧
      ∀ digest, Digest.fromStrChecked reference = some digest →
        digest = Digest.sha256 externals.sha256 request.body) ↔
      ':' ∉ reference.toList ∨
        reference = (Digest.sha256 externals.sha256 request.body).toStr := by
  obtain ⟨answered, entry, sameBody, sameDigest, pushed⟩ := putManifest_eq_ok accepted
  have known : Content.IsDigestReference entry.digest.toStr := by
    rw [sameDigest]
    exact Content.isDigestReference_sha256 externals.sha256 request.body
  have readBack := Content.resolve_push_iff (content_filed reached) name entry known reference
  rw [← pushed, sameBody, sameDigest, ← getManifest_eq_resolve] at readBack
  rw [answered, readBack, and_iff_left_iff_imp]
  rintro (plain | rfl) digest parsed
  · obtain ⟨rfl, _⟩ := Digest.fromStrChecked_eq_some parsed
    refine absurd ?_ plain
    simp [Digest.toStr]
  · exact Digest.eq_sha256_of_fromStrChecked parsed

/-- A node without authorization that holds every blob. -/
def sampleManifestNode : ManifestNode where
  auth := none
  stat := fun _ => true
  headerValue := fun text => text.toList.all fun char => 32 ≤ char.toNat ∧ char.toNat < 127

/-- The empty object as a manifest. -/
def sampleManifestRequest : PutManifestRequest where
  identity := none
  access := none
  contentType := none
  body := [0x7b, 0x7d]

/-- What is checked of a concrete push that should be accepted. -/
def pushAccepted (outcome : StateMachineData × Except LayerhouseError ManifestCreated)
    (holds : StateMachineData → ManifestCreated → Bool) : Bool :=
  match outcome with
  | (next, .ok created) => holds next created
  | (_, .error _) => false

theorem pushAccepted_eq_true
    {outcome : StateMachineData × Except LayerhouseError ManifestCreated}
    {holds : StateMachineData → ManifestCreated → Bool} :
    pushAccepted outcome holds = true ↔
      ∃ next created, outcome = (next, .ok created) ∧ holds next created = true := by
  obtain ⟨after, error | answer⟩ := outcome
  · simp [pushAccepted]
  · simp [pushAccepted]

/-- The empty object is accepted under the digest of something else and is not found there. -/
theorem mismatched_push_is_accepted :
    ∃ data next created, run (requestStep emptyObjectExternals) StateMachineData.empty
        [(1, sampleClaim "alice" "first" false)] = some data ∧
      putManifest emptyObjectExternals sampleManifestNode 2 data "alice/app" (sampleDigest 'a')
        sampleManifestRequest = (next, .ok created) ∧
      (Digest.fromStrChecked (sampleDigest 'a')).isSome = true ∧
      sampleDigest 'a' ≠ created.dockerContentDigest ∧
      (next.getManifest "alice/app" (sampleDigest 'a')).isSome = false := by
  have reached : (run (requestStep emptyObjectExternals) StateMachineData.empty
      [(1, sampleClaim "alice" "first" false)]).any (fun data =>
        pushAccepted (putManifest emptyObjectExternals sampleManifestNode 2 data "alice/app"
          (sampleDigest 'a') sampleManifestRequest) fun next created =>
            sampleDigest 'a' ≠ created.dockerContentDigest ∧
              (next.getManifest "alice/app" (sampleDigest 'a')).isSome = false) = true := by
    decide +kernel
  obtain ⟨data, reached, pushed⟩ := (Option.any_eq_true ..).mp reached
  obtain ⟨next, created, accepted, checked⟩ := pushAccepted_eq_true.mp pushed
  obtain ⟨different, missing⟩ := of_decide_eq_true checked
  exact ⟨data, next, created, reached, accepted, by decide +kernel, different, missing⟩

theorem put_manifest_reads_back_sample :
    ∃ next created entry, putManifest emptyObjectExternals sampleManifestNode 2
        StateMachineData.empty "users/alice/app" "v1" sampleManifestRequest =
          (next, .ok created) ∧
      next.getManifest "users/alice/app" "v1" = some entry ∧
      entry.body = sampleManifestRequest.body ∧
      entry.digest.toStr = created.dockerContentDigest := by
  have pushed : pushAccepted (putManifest emptyObjectExternals sampleManifestNode 2
      StateMachineData.empty "users/alice/app" "v1" sampleManifestRequest) (fun _ _ => true) =
        true := by decide +kernel
  obtain ⟨next, created, accepted, _⟩ := pushAccepted_eq_true.mp pushed
  have start : run (requestStep emptyObjectExternals) StateMachineData.empty [] =
      some StateMachineData.empty := rfl
  obtain ⟨⟨entry, found, sameBody, sameDigest⟩, _⟩ :=
    (put_manifest_reads_back_iff emptyObjectExternals sampleManifestNode start 2 _ _ _ accepted).mpr
      (Or.inl (by decide))
  exact ⟨next, created, entry, accepted, found, sameBody, sameDigest⟩

end Layerhouse
