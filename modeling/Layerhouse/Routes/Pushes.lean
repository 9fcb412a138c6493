/-
This file is the pushes of manifests among the commits of everybody else: what
`auth/middleware.rs` decides for a push from its path, the second look that
`put_manifest` of `routes/manifests.rs` takes before it writes, and the commit.

A caller who may create but not update should change no reference that resolves.
The commit refuses a create whose tag appeared in the meantime, and the file
proves that this protects every reference, with two exceptions. A push also
replaces the entry that is stored under its digest, whatever tag it names, so the
content type of a manifest that is there changes when the same bytes are pushed
with another one. And the check of the commit is asked for only when the push was
authorized as a create, which is decided for the repository the middleware reads
from the path.
-/

import Layerhouse.Auth.Authorization
import Layerhouse.Raft.References
import Layerhouse.Routes.Calls
import Layerhouse.Routes.Manifests
import Layerhouse.Routes.Paths

namespace Layerhouse

/-! ### The middleware -/

structure PushRequest where
  identity : AuthIdentity
  path : String
  contentType : String
  body : List UInt8
deriving DecidableEq

/-- A write to a manifest that is there is an update; any other one is a create. -/
def resolveOciAction (data : StateMachineData) (path : String) (method : Method) : OciAction :=
  if OciAction.fromMethod method ≠ .create then OciAction.fromMethod method
  else
    match manifestPutTarget path with
    | none => .create
    | some (name, reference) =>
      if (data.getManifest name reference).isSome then .update else .create

/-- The access the middleware attaches to a push. The action and the permission are two reads of
the metadata. -/
def authorizePush (service : AuthService) (resolved permitted : StateMachineData)
    (request : PushRequest) : Except LayerhouseError AuthorizedRepositoryAccess :=
  checkPermission service permitted request.identity (extractRepositoryFromPath request.path)
    (resolveOciAction resolved request.path .put)

/-! ### The handler -/

/-- The repository and the reference that the dispatcher passes to the manifest handler. -/
def manifestRoute (path : String) : Option (String × String) :=
  match ((Text.stripPrefix "/v2/".toList path.toList).map String.ofList).bind axumPath with
  | none => none
  | some tail =>
    match dispatch tail with
    | some (.manifests name reference) => some (name, reference)
    | _ => none

/-- The write-time look at the reference: an overwrite needs the update permission, and only a
create asks the commit to check that the reference is still absent. -/
def recheckPush (service : AuthService) (looked permitted : StateMachineData)
    (identity : AuthIdentity) (access : AuthorizedRepositoryAccess) (name reference : String) :
    Except LayerhouseError (Option NamespaceEpoch × Bool) :=
  if (looked.getManifest name reference).isSome then
    (checkPermission service permitted identity name .update).map fun update =>
      (access.expectedNamespace.or update.expectedNamespace, false)
  else .ok (access.expectedNamespace, access.action = .create)

/-- The write that ends a push whose blobs are all there. -/
def preparePush (externals : Externals) (service : AuthService)
    (looked permitted : StateMachineData) (now : Nat) (request : PushRequest)
    (access : AuthorizedRepositoryAccess) : Except LayerhouseError PutManifest :=
  match manifestRoute request.path with
  | none => .error (.nameUnknown request.path)
  | some (name, reference) =>
    match PushCall.receive externals name reference request.contentType request.body with
    | .error error => .error error
    | .ok call =>
      (recheckPush service looked permitted request.identity access name reference).map
        fun checked => call.putManifest externals now checked.1 checked.2

/-! ### Pushes among commits -/

inductive PushStage where
  | received
  | authorized (access : AuthorizedRepositoryAccess)
  | ready (put : PutManifest)

abbrev PushSystem := CallSystem PushRequest PushStage

/-- The steps of the pushes, and the commits of all other requests. A read names the number of
committed requests that the serving node has yet to apply. A push may also be given up: its body
cannot be read or a blob is missing. -/
inductive PushLabel where
  | commit (now : Nat) (request : Request)
  | receive (id : Nat) (request : PushRequest)
  | authorize (id actionLag permissionLag : Nat)
  | recheck (id lookupLag permissionLag now : Nat)
  | giveUp (id : Nat)
  | write (id now : Nat)

def pushStep (externals : Externals) (service : AuthService) (system : PushSystem) :
    PushLabel → Option PushSystem
  | .commit now request => (requestStep externals system.data (now, request)).map system.commit
  | .receive id request =>
    match system.calls id with
    | none => some (system.setCall id (some (request, .received)))
    | some _ => none
  | .authorize id actionLag permissionLag =>
    match system.calls id, system.history[actionLag]?, system.history[permissionLag]? with
    | some (request, .received), some resolved, some permitted =>
      some (system.continueWith id request
        ((authorizePush service resolved permitted request).map .authorized))
    | _, _, _ => none
  | .recheck id lookupLag permissionLag now =>
    match system.calls id, system.history[lookupLag]?, system.history[permissionLag]? with
    | some (request, .authorized access), some looked, some permitted =>
      some (system.continueWith id request
        ((preparePush externals service looked permitted now request access).map .ready))
    | _, _, _ => none
  | .giveUp id =>
    match system.calls id with
    | some _ => some (system.setCall id none)
    | none => none
  | .write id now =>
    match system.calls id with
    | some (_, .ready put) =>
      (requestStep externals system.data (now, .manifest (.putManifest put))).map fun next =>
        (system.commit next).setCall id none
    | _ => none

/-! ### What a create-only caller may not change -/

/-- The caller was allowed to update the repository in some state of the history. -/
def UpdateAllowed (service : AuthService) (history : List StateMachineData)
    (identity : AuthIdentity) (repository : String) : Prop :=
  ∃ past ∈ history, ∃ access, checkPermission service past identity repository .update = .ok access

/-- What a reader of an entry gets: the digest, the bytes and the content type. -/
def ManifestEntry.served (entry : ManifestEntry) : String × List UInt8 × String :=
  (entry.digest.toStr, entry.body, entry.contentType)

def servedManifest (data : StateMachineData) (name reference : String) :
    Option (String × List UInt8 × String) :=
  (data.getManifest name reference).map ManifestEntry.served

structure CommittedPush where
  request : PushRequest
  put : PutManifest
  now : Nat

/-- The push that a step commits. -/
def PushSystem.committed (system : PushSystem) : PushLabel → Option CommittedPush
  | .write id now =>
    match system.calls id with
    | some (request, .ready put) => some ⟨request, put, now⟩
    | _ => none
  | _ => none

/-- The commit of a push by a caller who was never allowed to update a repository leaves what the
reference of that repository resolves to. -/
def PushSystem.KeepsReference (externals : Externals) (service : AuthService)
    (repository reference : String) (system : PushSystem) (label : PushLabel) : Prop :=
  ∀ push ∈ system.committed label,
    ¬ UpdateAllowed service system.history push.request.identity repository →
      ∀ next ∈ requestStep externals system.data (push.now, .manifest (.putManifest push.put)),
        ∀ served ∈ servedManifest system.data repository reference,
          servedManifest next repository reference = some served

def PushSystem.KeepsReferences (externals : Externals) (service : AuthService)
    (system : PushSystem) (label : PushLabel) : Prop :=
  ∀ repository reference, system.KeepsReference externals service repository reference label

/-- For a caller who was never allowed to update: the pushed bytes, when they are stored already,
are stored with the pushed content type; and a push to a tag that resolves was authorized for the
repository it writes to. -/
def PushSystem.PushesAnew (externals : Externals) (service : AuthService) (system : PushSystem)
    (label : PushLabel) : Prop :=
  ∀ push ∈ system.committed label,
    ¬ UpdateAllowed service system.history push.request.identity push.put.name →
      (∀ stored ∈ system.data.content.entry? push.put.name
          (push.put.entry externals).digest.toStr,
        stored.body = push.put.body ∧ stored.contentType = push.put.contentType) ∧
      (':' ∉ push.put.reference.toList →
        system.data.getManifest push.put.name push.put.reference ≠ none →
          extractRepositoryFromPath push.request.path = push.put.name)

instance (service : AuthService) (history : List StateMachineData) (identity : AuthIdentity)
    (repository : String) : Decidable (UpdateAllowed service history identity repository) :=
  decidable_of_iff
    (∃ past ∈ history, (checkPermission service past identity repository .update).isOk = true) <| by
    refine exists_congr fun past => and_congr_right fun _ => ?_
    cases checkPermission service past identity repository .update with
    | error error =>
      constructor
      · intro impossible
        cases impossible
      · rintro ⟨_, same⟩
        cases same
    | ok access => exact ⟨fun _ => ⟨access, rfl⟩, fun _ => rfl⟩

instance (externals : Externals) (service : AuthService) (repository reference : String)
    (system : PushSystem) (label : PushLabel) :
    Decidable (system.KeepsReference externals service repository reference label) :=
  inferInstanceAs (Decidable (∀ push ∈ system.committed label, _))

instance (externals : Externals) (service : AuthService) (system : PushSystem)
    (label : PushLabel) : Decidable (system.PushesAnew externals service label) :=
  inferInstanceAs (Decidable (∀ push ∈ system.committed label, _))

/-! ### A push that is authorized as a create -/

theorem checkPermission_action {service : AuthService} {data : StateMachineData}
    {identity : AuthIdentity} {repository : String} {action : OciAction}
    {access : AuthorizedRepositoryAccess}
    (permitted : checkPermission service data identity repository action = .ok access) :
    access.action = action := by
  rw [checkPermission] at permitted
  cases outcome : authorizeRepository service data identity repository action with
  | error error =>
    rw [outcome] at permitted
    cases permitted
  | ok decided =>
    rw [outcome] at permitted
    rw [authorizeRepository] at outcome
    split at outcome
    · cases outcome
    · simp only at outcome
      obtain ⟨decision, decidedAccess⟩ := decided
      cases decision with
      | deny => cases permitted
      | allow =>
        cases permitted
        split at outcome
        · cases outcome
          rfl
        · have same := congrArg Prod.snd (Except.ok.inj outcome)
          exact congrArg AuthorizedRepositoryAccess.action same.symm

theorem resolveOciAction_put (data : StateMachineData) (path : String) :
    resolveOciAction data path .put = .create ∨ resolveOciAction data path .put = .update := by
  rw [resolveOciAction, if_neg (by decide)]
  split
  · exact Or.inl rfl
  · split
    · exact Or.inr rfl
    · exact Or.inl rfl

/-- What holds of a push in its stage: it checks that its reference is absent, or its caller was
allowed to update the repository it writes to or the one it was authorized for. -/
def PushStage.Sound (service : AuthService) (history : List StateMachineData)
    (request : PushRequest) : PushStage → Prop
  | .received => True
  | .authorized access => access.action = .create ∨
      UpdateAllowed service history request.identity (extractRepositoryFromPath request.path)
  | .ready put => put.requireReferenceAbsent = true ∨
      UpdateAllowed service history request.identity put.name ∨
      UpdateAllowed service history request.identity (extractRepositoryFromPath request.path)

theorem UpdateAllowed.cons {service : AuthService} {history : List StateMachineData}
    {identity : AuthIdentity} {repository : String}
    (allowed : UpdateAllowed service history identity repository) (next : StateMachineData) :
    UpdateAllowed service (next :: history) identity repository := by
  obtain ⟨past, member, access, permitted⟩ := allowed
  exact ⟨past, List.mem_cons_of_mem next member, access, permitted⟩

theorem PushStage.Sound.cons {service : AuthService} {history : List StateMachineData}
    {request : PushRequest} {stage : PushStage} (sound : stage.Sound service history request)
    (next : StateMachineData) : stage.Sound service (next :: history) request := by
  cases stage with
  | received => trivial
  | authorized access => exact sound.imp_right (·.cons next)
  | ready put => exact sound.imp_right (Or.imp (·.cons next) (·.cons next))

theorem authorizePush_sound {service : AuthService} {history : List StateMachineData}
    {resolved permitted : StateMachineData} {request : PushRequest}
    {access : AuthorizedRepositoryAccess} (past : permitted ∈ history)
    (authorized : authorizePush service resolved permitted request = .ok access) :
    PushStage.Sound service history request (.authorized access) := by
  rw [authorizePush] at authorized
  have action := checkPermission_action authorized
  rcases resolveOciAction_put resolved request.path with create | update
  · exact Or.inl (action.trans create)
  · rw [update] at authorized
    exact Or.inr ⟨permitted, past, access, authorized⟩

theorem preparePush_sound {externals : Externals} {service : AuthService}
    {history : List StateMachineData} {looked permitted : StateMachineData} {now : Nat}
    {request : PushRequest} {access : AuthorizedRepositoryAccess} {put : PutManifest}
    (past : permitted ∈ history)
    (sound : PushStage.Sound service history request (.authorized access))
    (prepared : preparePush externals service looked permitted now request access = .ok put) :
    PushStage.Sound service history request (.ready put) := by
  rw [preparePush] at prepared
  split at prepared
  · cases prepared
  · rename_i name reference routed
    cases received : PushCall.receive externals name reference request.contentType
        request.body with
    | error error =>
      rw [received] at prepared
      cases prepared
    | ok call =>
      have callName : call.name = name := by
        rw [PushCall.receive] at received
        split at received
        · cases received
        · split at received
          · cases received
          · cases received
            rfl
      rw [received] at prepared
      obtain ⟨⟨expected, absent⟩, checked, rfl⟩ := exceptMap_eq_ok.mp prepared
      rw [recheckPush] at checked
      split at checked
      · obtain ⟨update, allowed, _⟩ := exceptMap_eq_ok.mp checked
        refine Or.inr (Or.inl ⟨permitted, past, update, ?_⟩)
        rw [← callName] at allowed
        exact allowed
      · cases checked
        rcases sound with create | allowed
        · exact Or.inl (decide_eq_true create)
        · exact Or.inr (Or.inr allowed)

/-! ### Whole runs -/

/-- Entries are stored under their digest in every state of the history, and every push is
sound. -/
structure PushSystem.Consistent (service : AuthService) (system : PushSystem) : Prop where
  keyed : system.Remembers fun data => data.content.Keyed
  sound : system.Tracks fun history request stage => stage.Sound service history request

theorem pushSystem_consistent_initial (service : AuthService) :
    PushSystem.Consistent service CallSystem.initial where
  keyed := CallSystem.remembers_initial (content_consistent_empty fun _ => default).keyed
  sound := CallSystem.tracks_initial

namespace PushSystem.Consistent

variable {externals : Externals} {service : AuthService} {system : PushSystem}

theorem commit {label : Nat × Request} {next : StateMachineData}
    (holds : system.Consistent service)
    (stepped : requestStep externals system.data label = some next) :
    PushSystem.Consistent service (system.commit next) where
  keyed := holds.keyed.commit stepped fun _ _ _ _ _ applied keyed => keyed.applyRequest applied
  sound := holds.sound.commit (fun _ _ _ next sound => sound.cons next) next

/-- A change of the calls alone. -/
theorem ofCalls {next : PushSystem} (holds : system.Consistent service)
    (same : next.history = system.history)
    (sound : next.Tracks fun history request stage => stage.Sound service history request) :
    PushSystem.Consistent service next := by
  obtain ⟨history, calls⟩ := next
  cases same
  exact ⟨⟨holds.keyed.always, holds.keyed.present⟩, sound⟩

theorem step {label : PushLabel} {next : PushSystem} (holds : system.Consistent service)
    (stepped : pushStep externals service system label = some next) :
    PushSystem.Consistent service next := by
  cases label with
  | commit now request =>
    obtain ⟨data, applied, rfl⟩ := Option.map_eq_some_iff.mp stepped
    exact holds.commit applied
  | receive id request =>
    rw [pushStep] at stepped
    split at stepped
    · obtain rfl := Option.some.inj stepped
      refine holds.ofCalls rfl (holds.sound.setCall id fun other stage same => ?_)
      cases same
      trivial
    · cases stepped
  | authorize id actionLag permissionLag =>
    rw [pushStep] at stepped
    split at stepped
    · rename_i request resolved permitted found read readPermitted
      obtain rfl := Option.some.inj stepped
      refine holds.ofCalls (system.continueWith_history ..)
        (holds.sound.continueWith id request fun stage outcome => ?_)
      obtain ⟨access, authorized, rfl⟩ := exceptMap_eq_ok.mp outcome
      exact authorizePush_sound (List.mem_of_getElem? readPermitted) authorized
    · cases stepped
  | recheck id lookupLag permissionLag now =>
    rw [pushStep] at stepped
    split at stepped
    · rename_i request access looked permitted found read readPermitted
      obtain rfl := Option.some.inj stepped
      refine holds.ofCalls (system.continueWith_history ..)
        (holds.sound.continueWith id request fun stage outcome => ?_)
      obtain ⟨put, prepared, rfl⟩ := exceptMap_eq_ok.mp outcome
      exact preparePush_sound (List.mem_of_getElem? readPermitted)
        (holds.sound id request (.authorized access) found) prepared
    · cases stepped
  | giveUp id =>
    rw [pushStep] at stepped
    split at stepped
    · obtain rfl := Option.some.inj stepped
      exact holds.ofCalls rfl (holds.sound.endCall id)
    · cases stepped
  | write id now =>
    rw [pushStep] at stepped
    split at stepped
    · obtain ⟨data, applied, rfl⟩ := Option.map_eq_some_iff.mp stepped
      have committed := holds.commit applied
      exact committed.ofCalls rfl (committed.sound.endCall id)
    · cases stepped

end PushSystem.Consistent

/-! ### References that a push leaves -/

/-- A push that stores no other bytes or content type under a digest that is there, and points no
tag that resolves elsewhere, leaves what every reference is served. -/
theorem Content.push_resolve {content : Content} {name : String} {entry : ManifestEntry}
    {tag : Option String} (keyed : content.Keyed)
    (anew : ∀ stored, content.entry? name entry.digest.toStr = some stored →
      stored.body = entry.body ∧ stored.contentType = entry.contentType)
    (free : ∀ reference, tag = some reference → content.resolve name reference = none)
    {repository reference : String} {old : ManifestEntry}
    (resolved : content.resolve repository reference = some old) :
    ∃ new, (content.push name entry tag).resolve repository reference = some new ∧
      new.served = old.served := by
  have entries : ∀ digest, content.entry? repository digest = some old →
      ∃ new, Content.entry? (content.push name entry tag) repository digest = some new ∧
        new.served = old.served := by
    intro digest stored
    by_cases same : name = repository ∧ entry.digest.toStr = digest
    · obtain ⟨rfl, rfl⟩ := same
      obtain ⟨sameBody, sameType⟩ := anew old stored
      refine ⟨entry, if_pos ⟨rfl, rfl⟩, ?_⟩
      rw [ManifestEntry.served, ManifestEntry.served, keyed _ _ _ stored, sameBody, sameType]
    · exact ⟨old, (if_neg same).trans stored, rfl⟩
  rw [Content.resolve]
  by_cases read : IsDigestReference reference
  · rw [Content.resolve, if_pos read] at resolved
    rw [if_pos read]
    exact entries reference resolved
  · by_cases retagged : name = repository ∧ tag = some reference
    · rw [← retagged.1, free reference retagged.2] at resolved
      cases resolved
    · rw [Content.resolve, if_neg read] at resolved
      obtain ⟨digest, tagged, stored⟩ := Option.bind_eq_some_iff.mp resolved
      obtain ⟨new, found, same⟩ := entries digest stored
      refine ⟨new, ?_, same⟩
      rw [if_neg read]
      exact Option.bind_eq_some_iff.mpr ⟨digest, (if_neg retagged).trans tagged, found⟩

/-- A push to another repository leaves the references of this one. -/
theorem Content.push_resolve_of_ne {content : Content} {name repository : String}
    (other : name ≠ repository) (entry : ManifestEntry) (tag : Option String)
    (reference : String) :
    (content.push name entry tag).resolve repository reference =
      content.resolve repository reference := by
  have entries : Content.entry? (content.push name entry tag) repository =
      content.entry? repository :=
    funext fun digest => if_neg fun same => other same.1
  rw [Content.resolve, Content.resolve, entries]
  simp only [Content.push, other, false_and, if_false]

theorem PushSystem.committed_eq_some {system : PushSystem} {label : PushLabel}
    {push : CommittedPush} (committed : system.committed label = some push) :
    ∃ id, system.calls id = some (push.request, .ready push.put) := by
  unfold PushSystem.committed at committed
  split at committed
  · rename_i id now
    split at committed
    · rename_i request put called
      cases committed
      exact ⟨id, called⟩
    · cases committed
  · cases committed

/-- At a write that meets the condition, a caller who was never allowed to update changes no
reference. -/
theorem PushSystem.Consistent.keepsReferences {externals : Externals} {service : AuthService}
    {system : PushSystem} (holds : system.Consistent service) {label : PushLabel}
    (anew : system.PushesAnew externals service label) :
    system.KeepsReferences externals service label := by
  intro repository reference push committed forbidden next stepped served resolved
  obtain ⟨id, called⟩ := PushSystem.committed_eq_some committed
  obtain ⟨response, applied⟩ := requestStep_eq_some.mp stepped
  obtain ⟨old, found, rfl⟩ := Option.map_eq_some_iff.mp resolved
  rw [getManifest_eq_resolve] at found
  suffices kept : ∃ new, next.content.resolve repository reference = some new ∧
      new.served = old.served by
    obtain ⟨new, resolvedNew, same⟩ := kept
    rw [servedManifest, getManifest_eq_resolve, resolvedNew, Option.map_some, same]
  obtain rfl : (applyManifest externals system.data (.putManifest push.put)).1 = next :=
    congrArg Prod.fst (Except.ok.inj applied)
  rcases putManifest_content externals system.data push.put with same | ⟨_, absent, pushed⟩
  · rw [same]
    exact ⟨old, found, rfl⟩
  · rw [pushed]
    by_cases written : push.put.name = repository
    · subst written
      obtain ⟨sameEntry, sameRepository⟩ := anew push committed forbidden
      refine Content.push_resolve (holds.keyed.always _ holds.keyed.present) sameEntry
        (fun tag tagged => ?_) found
      obtain ⟨plain, same⟩ := Option.ite_none_left_eq_some.mp tagged
      cases same
      rw [← getManifest_eq_resolve]
      -- A tag that resolves would have been refused: the push checks for absence, since the
      -- caller may not update the repository it was authorized for either.
      by_contra present
      rcases holds.sound id push.request (.ready push.put) called with required | allowed | allowed
      · exact present (absent required plain)
      · exact forbidden allowed
      · rw [sameRepository plain present] at allowed
        exact forbidden allowed
    · rw [Content.push_resolve_of_ne written]
      exact ⟨old, found, rfl⟩

/-- In every run whose pushes store no other content type under bytes that are there, and are
authorized for the repository of the tag they move, no push of a caller who was never allowed to
update a repository changes what a reference of it resolves to. -/
theorem create_only_pushes_keep_references (externals : Externals) (service : AuthService)
    (labels : List PushLabel)
    (anew : Along (pushStep externals service) (PushSystem.PushesAnew externals service)
      CallSystem.initial labels) :
    Along (pushStep externals service) (PushSystem.KeepsReferences externals service)
      CallSystem.initial labels :=
  anew.derive (PushSystem.Consistent service) (fun _ _ _ stepped _ holds => holds.step stepped)
    (fun _ _ holds meets => holds.keepsReferences meets)
    (pushSystem_consistent_initial service)

/-- A service whose policies allow everything but updates by one user. -/
def createOnlyService : AuthService where
  cedar := ⟨fun _ => .ok (), fun _ request =>
    .ok (if request.action = .update ∧ request.actor.username = some "writer" then .deny
      else .allow)⟩
  policyForRequest := fun _ _ => .ok ""

/-- The owner of a namespace pushes the empty object, and then somebody who may not update pushes
the same bytes under a new tag, up to the commit. -/
def samplePushes (contentType : String) : List PushLabel :=
  [.commit 0 (sampleClaim "alice" "first" false),
    .receive 0 ⟨sampleSession "first", "/v2/alice/app/manifests/v1",
      "application/vnd.oci.image.manifest.v1+json", [0x7b, 0x7d]⟩,
    .authorize 0 0 0, .recheck 0 0 0 0, .write 0 0,
    .receive 1 ⟨sampleSession "writer", "/v2/alice/app/manifests/v2", contentType, [0x7b, 0x7d]⟩,
    .authorize 1 0 0, .recheck 1 0 0 0]

/-- The second push names another content type: the owner's tag is served with it afterwards. -/
theorem create_only_push_changes_content_type :
    ∃ labels final,
      run (pushStep emptyObjectExternals createOnlyService) CallSystem.initial labels =
        some final ∧
      ¬ Along (pushStep emptyObjectExternals createOnlyService)
        (PushSystem.KeepsReferences emptyObjectExternals createOnlyService) CallSystem.initial
        labels := by
  let labels := samplePushes "application/vnd.docker.distribution.manifest.v2+json" ++
    [.write 1 0]
  have reached : (run (pushStep emptyObjectExternals createOnlyService) CallSystem.initial
      labels).isSome = true := by decide +kernel
  obtain ⟨final, reached⟩ := Option.isSome_iff_exists.mp reached
  refine ⟨labels, final, reached, fun along => ?_⟩
  have atTag := along.imp fun system label keeps => keeps "alice/app" "v1"
  exact absurd atTag (by decide +kernel)

/-- The second push names the same content type: it commits and leaves the owner's tag. -/
theorem create_only_pushes_keep_references_sample :
    (run (pushStep emptyObjectExternals createOnlyService) CallSystem.initial
        (samplePushes "application/vnd.oci.image.manifest.v1+json" ++ [.write 1 0])).any
      (fun final => (servedManifest final.data "alice/app" "v2").isSome) = true ∧
    Along (pushStep emptyObjectExternals createOnlyService)
      (PushSystem.KeepsReferences emptyObjectExternals createOnlyService) CallSystem.initial
      (samplePushes "application/vnd.oci.image.manifest.v1+json" ++ [.write 1 0]) :=
  ⟨by decide +kernel,
    create_only_pushes_keep_references emptyObjectExternals createOnlyService _
      (by decide +kernel)⟩

end Layerhouse
