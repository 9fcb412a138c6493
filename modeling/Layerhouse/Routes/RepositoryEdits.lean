/-
This file runs the edits of repository records against each other: `create_repository`,
`patch_repository` and `delete_repository` of `routes/dashboard_api.rs`. A create looks
whether there is a record and commits a new one; a patch reads the record, changes the
fields it was given and commits the whole record; a delete commits the removal of the
manifests and then the removal of the record. A record is stored whatever the table
holds by then.

What is asked of a run is that the edits take effect one after the other, in the order
of their commits: the records are those that the accepted edits make when each is
applied to the record as it is, and no create meets a record. The file proves that this
holds in all states of a run exactly if no create commits over a record and every
patch commits a record that it would make of the one stored then.
-/

import Layerhouse.Routes.Dashboard
import Layerhouse.Routes.ReadBack

namespace Layerhouse

/-! ### Names -/

/-- An ASCII lowercase letter or digit. -/
def isNameAlnum (byte : UInt8) : Bool :=
  isAsciiLowercase byte || isAsciiDigit byte

/-- `.`, `_`, `__`, or dashes. -/
def isSeparatorRun (separators : List UInt8) : Bool :=
  separators = [0x2E] || separators = [0x5F] || separators = [0x5F, 0x5F] ||
    separators.all (· = 0x2D)

/-- The loop of `is_valid_name_component`; `separators` is the run that the bytes before end
with. -/
def separatorRunsValid : (separators bytes : List UInt8) → Bool
  | separators, [] => isSeparatorRun separators
  | separators, byte :: rest =>
    if isNameAlnum byte then isSeparatorRun separators && separatorRunsValid [] rest
    else separatorRunsValid (separators ++ [byte]) rest

def isValidNameComponent (component : String) : Bool :=
  let bytes := Text.utf8 component.toList
  bytes.head?.any isNameAlnum && bytes.getLast?.any isNameAlnum && separatorRunsValid [] bytes

def validateRepositoryName (name : String) : Except LayerhouseError Unit :=
  if name.isEmpty then .error (.nameInvalid "repository name is required")
  else if 255 < (Text.utf8 name.toList).length then
    .error (.nameInvalid "repository name exceeds 255 characters")
  else
    match (pathSegments name).find? fun component => !isValidNameComponent component with
    | some component =>
      .error (.nameInvalid ("invalid repository name component: " ++ component))
    | none => .ok ()

/-! ### Requests of the routes -/

structure CreateRepositoryRequest where
  name : String
  description : String
  visibility : Visibility
deriving DecidableEq

structure PatchRepositoryRequest where
  description : Option String
  visibility : Option Visibility
deriving DecidableEq

inductive RepositoryEdit where
  | create (request : CreateRepositoryRequest)
  | patch (path : String) (request : PatchRepositoryRequest)
  | delete (path : String)
deriving DecidableEq

namespace RepositoryEdit

def name : RepositoryEdit → String
  | .create request => String.ofList (Text.trim request.name.toList)
  | .patch path _ | .delete path => percentDecode path

def action : RepositoryEdit → OciAction
  | .create _ => .create
  | .patch .. => .update
  | .delete _ => .delete

/-- A delete does not check the form of its name. -/
def validate (edit : RepositoryEdit) : Except LayerhouseError Unit :=
  match edit with
  | .create _ | .patch .. => validateRepositoryName edit.name
  | .delete _ => .ok ()

end RepositoryEdit

/-- The record with the fields that the request sets. -/
def PatchRepositoryRequest.applyTo (request : PatchRepositoryRequest) (repository : Repository) :
    Repository :=
  { repository with
    description := (request.description.map fun text =>
      String.ofList (Text.trim text.toList)).getD repository.description
    visibility := request.visibility.getD repository.visibility }

structure RepositoryCall where
  identity : Option AuthIdentity
  edit : RepositoryEdit
deriving DecidableEq

/-- The caller's subject and the epoch of the write. Without an authorization service there is
no subject, and the epoch is looked up when the write is made. -/
def RepositoryCall.authorize (auth : Option AuthService) (data : StateMachineData)
    (call : RepositoryCall) :
    Except LayerhouseError (Option Subject × Option (Option NamespaceEpoch)) :=
  match call.edit.validate with
  | .error error => .error error
  | .ok () =>
    match auth with
    | none => .ok (none, none)
    | some service =>
      match call.identity with
      | none => .error (.unauthorized "authentication required" none none none)
      | some identity =>
        (checkPermission service data identity call.edit.name call.edit.action).map fun access =>
          (some identity.subject, some access.expectedNamespace)

/-- The record that a create or a patch is about to commit. -/
def RepositoryEdit.prepare (edit : RepositoryEdit) (data : StateMachineData)
    (author : Option Subject) (now : Nat) : Except LayerhouseError (Option Repository) :=
  match edit with
  | .create request =>
    if (data.repositories[edit.name]?).isSome then
      .error (.conflict ("repository already exists: " ++ edit.name))
    else
      .ok (some
        { name := edit.name
          description := String.ofList (Text.trim request.description.toList)
          createdBy := author
          visibility := request.visibility
          createdAt := now })
  | .patch _ request =>
    match data.repositories[edit.name]? with
    | none => .error (.nameUnknown edit.name)
    | some repository => .ok (some (request.applyTo repository))
  | .delete _ => .ok none

/-! ### Edits among commits -/

/-- How far an edit is; `expected` is the epoch of its next write once that is known. -/
inductive RepositoryStage where
  | received
  | authorized (author : Option Subject) (expected : Option (Option NamespaceEpoch))
  | ready (repository : Repository) (expected : Option (Option NamespaceEpoch))
  | deleting (expected : Option (Option NamespaceEpoch))
  | removed (expected : Option (Option NamespaceEpoch))

/-- An accepted edit. -/
inductive RepositoryChange where
  | created (repository : Repository)
  | patched (name : String) (request : PatchRepositoryRequest)
  | deleted (name : String)

/-- The routes, with the accepted edits in the order of their commits and the names of the
records that a create replaced. -/
structure RepositorySystem where
  routes : CallSystem RepositoryCall RepositoryStage
  changes : List RepositoryChange
  replaced : List String

namespace RepositorySystem

def initial : RepositorySystem where
  routes := .initial
  changes := []
  replaced := []

end RepositorySystem

inductive RepositoryLabel where
  | commit (now : Nat) (request : Request)
  | receive (id : Nat) (call : RepositoryCall)
  | authorize (id lag : Nat)
  | read (id lag now : Nat)
  | expect (id lag : Nat)
  | write (id now : Nat)

/-- The request changes a record. Only the handlers commit such requests. -/
def Request.editsRepositories : Request → Bool
  | .repository _ => true
  | _ => false

namespace RepositoryStage

/-- The stage with the epoch looked up, when it was not known. -/
def withExpected (expected : Option NamespaceEpoch) : RepositoryStage → Option RepositoryStage
  | .ready repository none => some (.ready repository (some expected))
  | .deleting none => some (.deleting (some expected))
  | .removed none => some (.removed (some expected))
  | _ => none

end RepositoryStage

/-- The change that an accepted record makes. -/
def RepositoryEdit.change (edit : RepositoryEdit) (repository : Repository) : RepositoryChange :=
  match edit with
  | .create _ => .created repository
  | .patch _ request => .patched edit.name request
  | .delete _ => .deleted edit.name

/-- The name of the record that an accepted create replaces. -/
def RepositoryEdit.replaces (edit : RepositoryEdit) (data : StateMachineData) : List String :=
  match edit with
  | .create _ => if (data.repositories[edit.name]?).isSome then [edit.name] else []
  | _ => []

def repositoryStep (externals : Externals) (auth : Option AuthService)
    (system : RepositorySystem) : RepositoryLabel → Option RepositorySystem
  | .commit now request =>
    if request.editsRepositories then none
    else (requestStep externals system.routes.data (now, request)).map fun next =>
      { system with routes := system.routes.commit next }
  | .receive id call =>
    match system.routes.calls id with
    | none => some { system with routes := system.routes.setCall id (some (call, .received)) }
    | some _ => none
  | .authorize id lag =>
    match system.routes.calls id, system.routes.history[lag]? with
    | some (call, .received), some data =>
      some { system with
        routes := system.routes.continueWith id call
          ((call.authorize auth data).map fun passed => .authorized passed.1 passed.2) }
    | _, _ => none
  | .read id lag now =>
    match system.routes.calls id, system.routes.history[lag]? with
    | some (call, .authorized author expected), some data =>
      some { system with
        routes := system.routes.continueWith id call
          ((call.edit.prepare data author now).map fun prepared =>
            prepared.elim (.deleting expected) (.ready · expected)) }
    | _, _ => none
  | .expect id lag =>
    match system.routes.calls id, system.routes.history[lag]? with
    | some (call, stage), some data =>
      (stage.withExpected (expectedNamespaceForRepository data call.edit.name)).map fun stage =>
        { system with routes := system.routes.setCall id (some (call, stage)) }
    | _, _ => none
  | .write id now =>
    match system.routes.calls id with
    | some (call, .ready repository (some expected)) =>
      match applyRequest externals now system.routes.data
        (.repository (.putRepository repository expected)) with
      | .error _ => none
      | .ok (next, response) =>
        some
          { routes := (system.routes.commit next).setCall id none
            changes := if response.isError then system.changes
              else system.changes ++ [call.edit.change repository]
            replaced := if response.isError then system.replaced
              else call.edit.replaces system.routes.data ++ system.replaced }
    | some (call, .deleting (some expected)) =>
      match applyRequest externals now system.routes.data
        (.manifest (.deleteRepository call.edit.name expected)) with
      | .error _ => none
      | .ok (next, response) =>
        some { system with
          routes := (system.routes.commit next).setCall id
            (if response.isError then none
              else some (call, .removed (if auth.isSome then some expected else none))) }
    | some (call, .removed (some expected)) =>
      match applyRequest externals now system.routes.data
        (.repository (.deleteRepository call.edit.name expected)) with
      | .error _ => none
      | .ok (next, response) =>
        some { system with
          routes := (system.routes.commit next).setCall id none
          changes := if response.isError then system.changes
            else system.changes ++ [.deleted call.edit.name] }
    | _ => none

/-! ### What is asked of a run -/

/-- The records after an edit that is applied to the records as they are. A create keeps a record
that it finds, and a patch makes none. -/
def RepositoryChange.applyTo (records : String → Option Repository) :
    RepositoryChange → String → Option Repository
  | .created repository =>
    Function.update records repository.name (some ((records repository.name).getD repository))
  | .patched name request => Function.update records name ((records name).map request.applyTo)
  | .deleted name => Function.update records name none

/-- The records that edits make one after the other. -/
def replay (changes : List RepositoryChange) : String → Option Repository :=
  changes.foldl RepositoryChange.applyTo fun _ => none

/-- The records are those that the accepted edits make one after the other, and no create replaced
a record. -/
structure RepositorySystem.EditsTakeEffect (system : RepositorySystem) : Prop where
  records : ∀ name : String, system.routes.data.repositories[name]? = replay system.changes name
  unreplaced : system.replaced = []

/-- The record is what the edit would commit if it read now. -/
def RepositoryEdit.StillMakes (edit : RepositoryEdit) (data : StateMachineData)
    (repository : Repository) : Prop :=
  match edit with
  | .create _ => data.repositories[edit.name]? = none
  | .patch _ request => data.repositories[edit.name]?.map request.applyTo = some repository
  | .delete _ => True

/-- The record that a call is about to commit, and the epoch it is bound to. -/
def RepositoryStage.toPut : RepositoryStage → Option (Repository × Option NamespaceEpoch)
  | .ready repository (some expected) => some (repository, expected)
  | _ => none

theorem RepositoryStage.toPut_eq_some {stage : RepositoryStage} {repository : Repository}
    {expected : Option NamespaceEpoch} :
    stage.toPut = some (repository, expected) ↔ stage = .ready repository (some expected) := by
  unfold RepositoryStage.toPut
  split
  · simp
  · rename_i other
    exact iff_of_false nofun (other repository expected)

/-- A record that is accepted commits while no record is there for a create, and while the record
that is there has the fields that a patch did not set as the patch read them. -/
def RepositorySystem.CommitsAsRead (system : RepositorySystem) : RepositoryLabel → Prop
  | .write id _ =>
    ∀ called ∈ system.routes.calls id, ∀ put ∈ called.2.toPut,
      requireExpectedNamespace system.routes.data put.1.name put.2 = .ok () →
        called.1.edit.StillMakes system.routes.data put.1
  | _ => True

instance (edit : RepositoryEdit) (data : StateMachineData) (repository : Repository) :
    Decidable (edit.StillMakes data repository) :=
  match edit with
  | .create _ => inferInstanceAs (Decidable (_ = none))
  | .patch .. => inferInstanceAs (Decidable (_ = some repository))
  | .delete _ => isTrue trivial

instance RepositorySystem.decidableCommitsAsRead (system : RepositorySystem)
    (label : RepositoryLabel) :
    Decidable (system.CommitsAsRead label) :=
  match label with
  | .write id _ => inferInstanceAs (Decidable (∀ called ∈ system.routes.calls id,
      ∀ put ∈ called.2.toPut, _ → _))
  | .commit .. | .receive .. | .authorize .. | .read .. | .expect .. => isTrue trivial

/-! ### What requests do to the records -/

theorem applyRequest_repositories {externals : Externals} {now : Nat}
    {data next : StateMachineData} {request : Request} {response : Response}
    (applied : applyRequest externals now data request = .ok (next, response))
    (other : request.editsRepositories = false) : next.repositories = data.repositories := by
  have framed := congrArg StateMachineData.repositories (applyRequest_frame applied)
  cases request with
  | repository request => cases other
  | _ => exact framed

theorem applyRequest_putRepository {externals : Externals} {now : Nat}
    {data next : StateMachineData} {repository : Repository} {expected : Option NamespaceEpoch}
    {response : Response}
    (applied : applyRequest externals now data (.repository (.putRepository repository expected)) =
      .ok (next, response)) :
    (requireExpectedNamespace data repository.name expected = .ok () ∧ response.isError = false ∧
        next.repositories = data.repositories.insert repository.name repository) ∨
      (requireExpectedNamespace data repository.name expected ≠ .ok () ∧ response.isError = true ∧
        next = data) := by
  rw [applyRequest, applyRepository] at applied
  cases checked : requireExpectedNamespace data repository.name expected with
  | error error =>
    rw [checked] at applied
    cases applied
    exact Or.inr ⟨by rintro ⟨⟩, isError_errorToResponse error, rfl⟩
  | ok done =>
    rw [checked] at applied
    cases applied
    exact Or.inl ⟨rfl, rfl, rfl⟩

theorem applyRequest_deleteRepository {externals : Externals} {now : Nat}
    {data next : StateMachineData} {name : String} {expected : Option NamespaceEpoch}
    {response : Response}
    (applied : applyRequest externals now data (.repository (.deleteRepository name expected)) =
      .ok (next, response)) :
    (response.isError = false ∧ next.repositories = data.repositories.erase name) ∨
      (response.isError = true ∧ next = data) := by
  rw [applyRequest, applyRepository] at applied
  cases checked : requireExpectedNamespace data name expected with
  | error error =>
    rw [checked] at applied
    cases applied
    exact Or.inr ⟨isError_errorToResponse error, rfl⟩
  | ok done =>
    rw [checked] at applied
    cases applied
    exact Or.inl ⟨rfl, rfl⟩

/-! ### The names of records -/

/-- Every record is stored under its own name. -/
def RecordsNamed (data : StateMachineData) : Prop :=
  ∀ (name : String) repository, data.repositories[name]? = some repository →
    repository.name = name

theorem recordsNamed_empty : RecordsNamed StateMachineData.empty :=
  fun name repository found =>
    absurd ((BTreeMap.getElem?_empty name).symm.trans found) (Option.some_ne_none repository).symm

theorem RecordsNamed.applyRequest {externals : Externals} {now : Nat}
    {data next : StateMachineData} {request : Request} {response : Response}
    (named : RecordsNamed data)
    (applied : Layerhouse.applyRequest externals now data request = .ok (next, response)) :
    RecordsNamed next := by
  by_cases edits : request.editsRepositories = true
  · cases request with
    | repository request =>
      cases request with
      | putRepository repository expected =>
        rcases applyRequest_putRepository applied with ⟨_, _, stored⟩ | ⟨_, _, rfl⟩
        · intro name other found
          rw [stored, BTreeMap.getElem?_insert] at found
          split at found
          · rename_i same
            cases found
            exact same
          · exact named name other found
        · exact named
      | deleteRepository removed expected =>
        rcases applyRequest_deleteRepository applied with ⟨_, stored⟩ | ⟨_, rfl⟩
        · intro name other found
          rw [stored, BTreeMap.getElem?_erase] at found
          split at found
          · cases found
          · exact named name other found
        · exact named
    | _ => cases edits
  · intro name repository found
    rw [applyRequest_repositories applied (Bool.eq_false_of_not_eq_true edits)] at found
    exact named name repository found

/-- What holds of an edit that is about to commit a record: it is no delete, and the record is for
the name it was sent to. -/
def RepositoryStage.Sound (call : RepositoryCall) : RepositoryStage → Prop
  | .ready repository _ => repository.name = call.edit.name ∧ ∀ path, call.edit ≠ .delete path
  | _ => True

theorem prepare_sound {edit : RepositoryEdit} {data : StateMachineData} {author : Option Subject}
    {now : Nat} {repository : Repository} (named : RecordsNamed data)
    (prepared : edit.prepare data author now = .ok (some repository)) :
    repository.name = edit.name ∧ ∀ path, edit ≠ .delete path := by
  cases edit with
  | create request =>
    rw [RepositoryEdit.prepare] at prepared
    split at prepared
    · cases prepared
    · cases prepared
      exact ⟨rfl, nofun⟩
  | patch path request =>
    rw [RepositoryEdit.prepare] at prepared
    split at prepared
    · cases prepared
    · rename_i stored found
      cases prepared
      exact ⟨named _ stored found, nofun⟩
  | delete path => cases prepared

structure RepositorySystem.Sound (system : RepositorySystem) : Prop where
  past : system.routes.Remembers RecordsNamed
  calls : system.routes.Tracks fun _ call stage => stage.Sound call

namespace RepositorySystem.Sound

variable {system : RepositorySystem}

theorem initial : RepositorySystem.initial.Sound where
  past := CallSystem.remembers_initial recordsNamed_empty
  calls := CallSystem.tracks_initial

theorem ofRoutes (holds : system.Sound) {next : RepositorySystem}
    (same : next.routes.history = system.routes.history)
    (calls : next.routes.Tracks fun _ call stage => stage.Sound call) : next.Sound := by
  obtain ⟨⟨history, called⟩, changes, replaced⟩ := next
  cases same
  exact ⟨⟨holds.past.always, holds.past.present⟩, calls⟩

/-- A commit, after which one call is over or goes on. -/
theorem commit (holds : system.Sound) {externals : Externals} {now : Nat}
    {after : StateMachineData} {request : Request} {response : Response}
    (applied : applyRequest externals now system.routes.data request = .ok (after, response))
    {next : RepositorySystem} (history : next.routes.history = after :: system.routes.history)
    (calls : next.routes.Tracks fun _ call stage => stage.Sound call) : next.Sound := by
  obtain ⟨⟨pasts, called⟩, changes, replaced⟩ := next
  cases history
  refine ⟨⟨List.forall_mem_cons.mpr ⟨?_, holds.past.always⟩, List.mem_cons_self⟩, calls⟩
  exact (holds.past.always _ holds.past.present).applyRequest applied

theorem step {externals : Externals} {auth : Option AuthService} {label : RepositoryLabel}
    {next : RepositorySystem} (holds : system.Sound)
    (stepped : repositoryStep externals auth system label = some next) : next.Sound := by
  cases label with
  | commit now request =>
    rw [repositoryStep] at stepped
    split at stepped
    · cases stepped
    obtain ⟨after, committed, rfl⟩ := Option.map_eq_some_iff.mp stepped
    obtain ⟨response, applied⟩ := requestStep_eq_some.mp committed
    exact holds.commit applied rfl holds.calls
  | receive id call =>
    rw [repositoryStep] at stepped
    split at stepped
    · cases stepped
      refine holds.ofRoutes rfl (holds.calls.setCall id fun other stage same => ?_)
      cases same
      trivial
    · cases stepped
  | authorize id lag =>
    rw [repositoryStep] at stepped
    split at stepped
    · cases stepped
      refine holds.ofRoutes (CallSystem.continueWith_history ..)
        (holds.calls.continueWith id _ fun stage passed => ?_)
      obtain ⟨access, _, rfl⟩ := exceptMap_eq_ok.mp passed
      trivial
    · cases stepped
  | read id lag now =>
    rw [repositoryStep] at stepped
    split at stepped
    · rename_i call author expected data called read
      cases stepped
      refine holds.ofRoutes (CallSystem.continueWith_history ..)
        (holds.calls.continueWith id call fun stage passed => ?_)
      obtain ⟨prepared, outcome, rfl⟩ := exceptMap_eq_ok.mp passed
      cases prepared with
      | none => trivial
      | some repository =>
        exact prepare_sound (holds.past.always data (List.mem_of_getElem? read)) outcome
    · cases stepped
  | expect id lag =>
    rw [repositoryStep] at stepped
    split at stepped
    · rename_i call stage data called read
      obtain ⟨after, found, rfl⟩ := Option.map_eq_some_iff.mp stepped
      have before := holds.calls id call stage called
      refine holds.ofRoutes rfl (holds.calls.setCall id fun other reached same => ?_)
      cases same
      unfold RepositoryStage.withExpected at found
      split at found
      · cases found
        exact before
      · cases found
        trivial
      · cases found
        trivial
      · cases found
    · cases stepped
  | write id now =>
    rw [repositoryStep] at stepped
    split at stepped
    · split at stepped
      · cases stepped
      rename_i applied
      cases stepped
      exact holds.commit applied rfl (holds.calls.endCall id)
    · split at stepped
      · cases stepped
      rename_i applied
      cases stepped
      refine holds.commit applied rfl (holds.calls.setCall id fun other stage same => ?_)
      split at same
      · cases same
      · cases same
        trivial
    · split at stepped
      · cases stepped
      rename_i applied
      cases stepped
      exact holds.commit applied rfl (holds.calls.endCall id)
    · cases stepped

end RepositorySystem.Sound

/-! ### What one step does to the edits -/

theorem replay_concat (changes : List RepositoryChange) (change : RepositoryChange) :
    replay (changes ++ [change]) = change.applyTo (replay changes) := by
  rw [replay, List.foldl_concat]
  rfl

/-- A stored record is the one that the edits make exactly if it is what the last of them makes of
the record that was there. -/
theorem insert_eq_update_iff {records : BTreeMap String Repository}
    {made : String → Option Repository} (same : ∀ name : String, records[name]? = made name)
    (name : String) (repository : Repository) (expected : Option Repository) :
    (∀ other : String, (records.insert name repository)[other]? =
        Function.update made name expected other) ↔
      expected = some repository := by
  constructor
  · intro agree
    have stored := agree name
    rw [BTreeMap.getElem?_insert, if_pos rfl, Function.update_self] at stored
    exact stored.symm
  · intro expects other
    rw [BTreeMap.getElem?_insert, Function.update_apply]
    by_cases differ : other = name
    · rw [if_pos differ.symm, if_pos differ, expects]
    · rw [if_neg (Ne.symm differ), if_neg differ, same]

namespace RepositorySystem.EditsTakeEffect

variable {system next : RepositorySystem}

theorem initial : RepositorySystem.initial.EditsTakeEffect where
  records := BTreeMap.getElem?_empty
  unreplaced := rfl

theorem of_same (holds : system.EditsTakeEffect)
    (records : next.routes.data.repositories = system.routes.data.repositories)
    (changes : next.changes = system.changes) (replaced : next.replaced = system.replaced) :
    next.EditsTakeEffect where
  records := by
    rw [records, changes]
    exact holds.records
  unreplaced := replaced.trans holds.unreplaced

/-- An accepted record takes effect exactly if the edit would still make it. -/
theorem put_iff (holds : system.EditsTakeEffect) {edit : RepositoryEdit} {repository : Repository}
    (named : repository.name = edit.name) (stays : ∀ path, edit ≠ .delete path)
    (records : next.routes.data.repositories =
      system.routes.data.repositories.insert repository.name repository)
    (changes : next.changes = system.changes ++ [edit.change repository])
    (replaced : next.replaced = edit.replaces system.routes.data ++ system.replaced) :
    next.EditsTakeEffect ↔ edit.StillMakes system.routes.data repository := by
  have split : next.EditsTakeEffect ↔
      (∀ name : String, (system.routes.data.repositories.insert repository.name repository)[name]? =
        (edit.change repository).applyTo (replay system.changes) name) ∧
      edit.replaces system.routes.data = [] := by
    constructor
    · intro effect
      have known := effect.records
      have none := effect.unreplaced
      rw [records, changes, replay_concat] at known
      rw [replaced, List.append_eq_nil_iff] at none
      exact ⟨known, none.1⟩
    · rintro ⟨known, none⟩
      refine ⟨?_, ?_⟩
      · rw [records, changes, replay_concat]
        exact known
      · rw [replaced, none, holds.unreplaced, List.append_nil]
  rw [split]
  cases edit with
  | delete path => exact absurd rfl (stays path)
  | create request =>
    have ofRecords := insert_eq_update_iff holds.records repository.name repository
      (some ((replay system.changes repository.name).getD repository))
    refine (and_congr_left' ofRecords).trans ?_
    rw [← holds.records, named]
    show _ ∧ (if (system.routes.data.repositories[RepositoryEdit.name (.create request)]?).isSome
        then [RepositoryEdit.name (.create request)] else []) = [] ↔
      system.routes.data.repositories[RepositoryEdit.name (.create request)]? = none
    cases system.routes.data.repositories[RepositoryEdit.name (.create request)]? with
    | none => simp
    | some existing => simp
  | patch path request =>
    have ofRecords := insert_eq_update_iff holds.records (RepositoryEdit.name (.patch path request))
      repository ((replay system.changes (RepositoryEdit.name (.patch path request))).map
        request.applyTo)
    rw [named]
    refine (and_iff_left rfl).trans (ofRecords.trans ?_)
    rw [← holds.records]
    exact Iff.rfl

theorem delete (holds : system.EditsTakeEffect) {name : String}
    (records : next.routes.data.repositories = system.routes.data.repositories.erase name)
    (changes : next.changes = system.changes ++ [.deleted name])
    (replaced : next.replaced = system.replaced) : next.EditsTakeEffect where
  records := by
    intro other
    rw [records, changes, replay_concat, BTreeMap.getElem?_erase]
    show _ = Function.update (replay system.changes) name none other
    rw [Function.update_apply, holds.records]
    exact if_congr eq_comm rfl rfl
  unreplaced := replaced.trans holds.unreplaced

/-- The commit of a call lets the edits take effect exactly if it is as read. -/
theorem write_iff {externals : Externals} {auth : Option AuthService} (sound : system.Sound)
    (holds : system.EditsTakeEffect) (id now : Nat) :
    (∀ next, repositoryStep externals auth system (.write id now) = some next →
      next.EditsTakeEffect) ↔ system.CommitsAsRead (.write id now) := by
  constructor
  · rintro effects ⟨call, stage⟩ member ⟨repository, expected⟩ putting accepted
    obtain rfl := RepositoryStage.toPut_eq_some.mp putting
    have called : system.routes.calls id = some (call, .ready repository (some expected)) :=
      member
    obtain ⟨after, response, applied⟩ : ∃ after response,
        applyRequest externals now system.routes.data
          (.repository (.putRepository repository expected)) = .ok (after, response) :=
      ⟨_, _, rfl⟩
    have ready := sound.calls id call _ called
    have stepped := effects _ (by simp only [repositoryStep, called, applied]; rfl)
    rcases applyRequest_putRepository applied with ⟨_, fine, stored⟩ | ⟨refused, _⟩
    · refine (holds.put_iff ready.1 ready.2 ?_ ?_ ?_).mp stepped
      · exact stored
      · exact if_neg (by rw [fine]; decide)
      · exact if_neg (by rw [fine]; decide)
    · exact absurd accepted refused
  · intro asRead next stepped
    rw [repositoryStep] at stepped
    split at stepped
    · rename_i call repository expected called
      split at stepped
      · cases stepped
      rename_i after response applied
      cases stepped
      have ready := sound.calls id call _ called
      rcases applyRequest_putRepository applied with ⟨accepted, fine, stored⟩ | ⟨_, failed, rfl⟩
      · refine (holds.put_iff ready.1 ready.2 ?_ ?_ ?_).mpr (asRead _ called _ rfl accepted)
        · exact stored
        · exact if_neg (by rw [fine]; decide)
        · exact if_neg (by rw [fine]; decide)
      · exact holds.of_same rfl (if_pos failed) (if_pos failed)
    · split at stepped
      · cases stepped
      rename_i after response applied
      cases stepped
      exact holds.of_same (applyRequest_repositories applied rfl) rfl rfl
    · split at stepped
      · cases stepped
      rename_i after response applied
      cases stepped
      rcases applyRequest_deleteRepository applied with ⟨fine, stored⟩ | ⟨failed, rfl⟩
      · exact holds.delete stored (if_neg (by rw [fine]; decide)) rfl
      · exact holds.of_same rfl (if_pos failed) rfl
    · cases stepped

/-- A step whose commit is as read, and no other, lets the edits take effect. -/
theorem step_iff {externals : Externals} {auth : Option AuthService} (sound : system.Sound)
    (holds : system.EditsTakeEffect) (label : RepositoryLabel) :
    (∀ next, repositoryStep externals auth system label = some next → next.EditsTakeEffect) ↔
      system.CommitsAsRead label := by
  have ofHistory : ∀ {next : RepositorySystem},
      next.routes.history = system.routes.history → next.changes = system.changes →
      next.replaced = system.replaced → next.EditsTakeEffect := fun history =>
    holds.of_same (by rw [CallSystem.data, history]; rfl)
  cases label with
  | commit now request =>
    refine iff_of_true (fun next stepped => ?_) trivial
    rw [repositoryStep] at stepped
    split at stepped
    · cases stepped
    rename_i other
    obtain ⟨after, committed, rfl⟩ := Option.map_eq_some_iff.mp stepped
    obtain ⟨response, applied⟩ := requestStep_eq_some.mp committed
    exact holds.of_same
      (applyRequest_repositories applied (Bool.eq_false_of_not_eq_true other)) rfl rfl
  | receive id call =>
    refine iff_of_true (fun next stepped => ?_) trivial
    rw [repositoryStep] at stepped
    split at stepped
    · cases stepped
      exact ofHistory rfl rfl rfl
    · cases stepped
  | authorize id lag =>
    refine iff_of_true (fun next stepped => ?_) trivial
    rw [repositoryStep] at stepped
    split at stepped
    · cases stepped
      exact ofHistory (CallSystem.continueWith_history ..) rfl rfl
    · cases stepped
  | read id lag now =>
    refine iff_of_true (fun next stepped => ?_) trivial
    rw [repositoryStep] at stepped
    split at stepped
    · cases stepped
      exact ofHistory (CallSystem.continueWith_history ..) rfl rfl
    · cases stepped
  | expect id lag =>
    refine iff_of_true (fun next stepped => ?_) trivial
    rw [repositoryStep] at stepped
    split at stepped
    · obtain ⟨after, found, rfl⟩ := Option.map_eq_some_iff.mp stepped
      exact ofHistory rfl rfl rfl
    · cases stepped
  | write id now => exact holds.write_iff sound id now

end RepositorySystem.EditsTakeEffect

/-- In a run of repository edits, with reads that may lag behind, the edits take effect one after
the other in every state exactly if every commit is as read: no create commits over a record, and
every patch commits what it would make of the record that is there. -/
theorem repository_edits_take_effect_iff (externals : Externals) (auth : Option AuthService)
    (labels : List RepositoryLabel) :
    Along (repositoryStep externals auth)
        (fun system label => ∀ next, repositoryStep externals auth system label = some next →
          next.EditsTakeEffect) .initial labels ↔
      Along (repositoryStep externals auth) RepositorySystem.CommitsAsRead .initial labels := by
  refine Iff.trans ?_ (along_invariant_iff (fun system => system.Sound ∧ system.EditsTakeEffect) ?_
    ⟨RepositorySystem.Sound.initial, RepositorySystem.EditsTakeEffect.initial⟩)
  · refine ⟨fun along => ?_, fun along => along.imp fun _ _ both next stepped =>
      (both next stepped).2⟩
    exact along.derive RepositorySystem.Sound (fun _ _ _ stepped _ sound => sound.step stepped)
      (fun _ _ sound effects next stepped => ⟨sound.step stepped, effects next stepped⟩)
      RepositorySystem.Sound.initial
  · rintro system label ⟨sound, holds⟩
    rw [← holds.step_iff sound label]
    exact ⟨fun both next stepped => (both next stepped).2,
      fun effects next stepped => ⟨sound.step stepped, effects next stepped⟩⟩

/-- The steps of an edit on a server without authorization, up to its commit. -/
def sampleRepositoryEdit (id : Nat) (edit : RepositoryEdit) : List RepositoryLabel :=
  [.receive id ⟨none, edit⟩, .authorize id 0, .read id 0 5, .expect id 0]

/-- A public repository in a reserved namespace. -/
def sampleCreated : List RepositoryLabel :=
  sampleRepositoryEdit 0 (.create ⟨"users/app", "", .publicPull⟩) ++ [.write 0 5]

/-- One patch describes the repository, another makes it private. -/
def sampleDescribe : RepositoryEdit := .patch "users/app" ⟨some "An app", none⟩

def sampleHide : RepositoryEdit := .patch "users/app" ⟨none, some .privateAccess⟩

def samplePatched : List RepositoryLabel :=
  sampleCreated ++ sampleRepositoryEdit 1 sampleDescribe ++ [.write 1 6] ++
    sampleRepositoryEdit 2 sampleHide ++ [.write 2 7]

/-- Two patches that follow one another both take effect. -/
theorem repository_edits_take_effect_iff_sample :
    (∃ system, run (repositoryStep sampleExternals none) .initial samplePatched = some system ∧
      system.routes.data.repositories["users/app"]? =
        some ⟨"users/app", "An app", none, .privateAccess, 5⟩) ∧
    Along (repositoryStep sampleExternals none) (fun system label => ∀ next,
        repositoryStep sampleExternals none system label = some next → next.EditsTakeEffect)
      .initial samplePatched :=
  ⟨⟨_, rfl, rfl⟩,
    (repository_edits_take_effect_iff sampleExternals none samplePatched).mpr (by decide +kernel)⟩

/-- Two patches that read before either commits: the description undoes the change to private.
Two creates that read before either commits: the second replaces the record of the first. A patch
that read before a delete: the record is back. -/
theorem repository_edits_race :
    (∃ system, run (repositoryStep sampleExternals none) .initial
        (sampleCreated ++ sampleRepositoryEdit 1 sampleDescribe ++
          sampleRepositoryEdit 2 sampleHide ++ [.write 2 6, .write 1 7]) = some system ∧
      ¬ system.EditsTakeEffect) ∧
    (∃ system, run (repositoryStep sampleExternals none) .initial
        (sampleRepositoryEdit 1 (.create ⟨"users/app", "", .privateAccess⟩) ++ sampleCreated ++
          [.write 1 6]) = some system ∧
      ¬ system.EditsTakeEffect) ∧
    ∃ system, run (repositoryStep sampleExternals none) .initial
        (sampleCreated ++ sampleRepositoryEdit 1 sampleDescribe ++
          sampleRepositoryEdit 2 (.delete "users/app") ++ [.write 2 6, .expect 2 0, .write 2 7,
            .write 1 8]) = some system ∧
      ¬ system.EditsTakeEffect := by
  refine ⟨⟨_, rfl, fun effect => ?_⟩, ⟨_, rfl, fun effect => ?_⟩, ⟨_, rfl, fun effect => ?_⟩⟩
  · exact absurd (effect.records "users/app") (by decide +kernel)
  · exact absurd effect.unreplaced (by decide +kernel)
  · exact absurd (effect.records "users/app") (by decide +kernel)

end Layerhouse
