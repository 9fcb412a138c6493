/-
This file runs the creation of personal access tokens among the commits of the
cluster: `create_token` of `routes/pat_api.rs`. For each selection the handler checks
the ceiling of the creator and then, with another read, records the namespace epoch of
the repository's handle; the token is committed at the end.

A token is bound to the epochs its creator was checked in exactly if no handle is
claimed, released or revoked between a check and a recording for it, where the handle
is live when it is recorded. The checks and the recordings of all selections count, as
two of them can be about one handle.
-/

import Layerhouse.Auth.ScopedCredentials
import Layerhouse.Auth.TokenChains
import Layerhouse.Routes.CommitLog
import Layerhouse.Routes.Tokens

namespace Layerhouse

/-! ### Creations among commits -/

structure CreateTokenCall where
  identity : AuthIdentity
  request : CreatePatRequest

/-- A selection that was checked and recorded, and how many requests the serving node had applied
at either read. -/
structure ScopeReads where
  selection : PatScopeSelection
  checked : Nat
  recorded : Nat

/-- How far a creation is: at the check or at the recording of a selection, or at its commit. -/
inductive TokenStage where
  | checking (rest : List PatScopeSelection) (scopes : List String) (epochs : List NamespaceEpoch)
      (reads : List ScopeReads)
  | recording (selection : PatScopeSelection) (rest : List PatScopeSelection)
      (scopes : List String) (epochs : List NamespaceEpoch) (reads : List ScopeReads)
      (checked : Nat)
  | ready (pat : PersonalAccessToken) (reads : List ScopeReads)

abbrev TokenSystem := LoggedSystem CreateTokenCall TokenStage

inductive TokenLabel where
  | commit (now : Nat) (request : Request)
  | receive (id : Nat) (call : CreateTokenCall)
  | check (id position : Nat)
  | record (id position : Nat)
  | finish (id : Nat) (draw : TokenDraw)
  | write (id now : Nat)

/-- The token that is committed after the loop. -/
def CreateTokenCall.token (service : TokenService) (call : CreateTokenCall) (draw : TokenDraw)
    (scopes : List String) (epochs : List NamespaceEpoch) : PersonalAccessToken where
  id := draw.id
  subject := call.identity.subject
  username := call.identity.username
  name := call.request.name
  tokenHash := service.tokenHash draw.rawToken
  tokenPrefix := String.ofList (draw.rawToken.toList.take 12)
  scopes := scopes
  namespaceEpochs := epochs
  createdAt := draw.now
  lastUsedAt := none
  expiresAt := call.request.expiresInDays.map fun days => draw.now + days * 86400

/-- The loop over the selections, with the token it ends in, is what a creation does that reads
one state throughout. -/
theorem createToken_eq_ok {service : TokenService} {data : StateMachineData}
    {call : CreateTokenCall} {draw : TokenDraw} {pat : PersonalAccessToken}
    {response : CreatePatResponse}
    (created : createToken service data call.identity call.request draw = .ok (pat, response)) :
    ∃ scopes epochs, checkSelections service.auth data call.identity call.request.scopes ([], []) =
        .ok (scopes, epochs) ∧
      pat = call.token service draw scopes epochs := by
  rw [createToken] at created
  split at created
  · cases created
  · split at created
    · cases created
    · rename_i scopes epochs accepted
      exact ⟨scopes, epochs, accepted, (congrArg Prod.fst (Except.ok.inj created)).symm⟩

def tokenStep (externals : Externals) (service : TokenService) (system : TokenSystem) :
    TokenLabel → Option TokenSystem
  | .commit now request => (system.commit externals now request).map (·.1)
  | .receive id call =>
    match system.calls id with
    | none =>
      if Text.trim call.request.name.toList = [] then none
      else some (system.setCall id (some (call, .checking call.request.scopes [] [] [])))
    | some _ => none
  | .check id position =>
    match system.calls id, system.states[position]? with
    | some (call, .checking (selection :: rest) scopes epochs reads), some data =>
      match checkSelection service.auth data call.identity selection with
      | .error _ => some (system.setCall id none)
      | .ok () =>
        some (system.setCall id
          (some (call, .recording selection rest scopes epochs reads position)))
    | _, _ => none
  | .record id position =>
    match system.calls id, system.states[position]? with
    | some (call, .recording selection rest scopes epochs reads checked), some data =>
      some (system.setCall id (some (call, .checking rest (scopes ++ [selection.scopeStr])
        (recordScopeNamespaceEpoch data selection.repo epochs)
        (reads ++ [⟨selection, checked, position⟩]))))
    | _, _ => none
  | .finish id draw =>
    match system.calls id with
    | some (call, .checking [] scopes epochs reads) =>
      some (system.setCall id (some (call, .ready (call.token service draw scopes epochs) reads)))
    | _ => none
  | .write id now =>
    match system.calls id with
    | some (_, .ready pat _) =>
      (system.commit externals now (.token (.putPersonalAccessToken pat))).map fun (after, _) =>
        after.setCall id none
    | _ => none

/-! ### What a token should be bound to -/

/-- Every epoch of the token for a selection's handle is the one that was live when the selection
was checked. -/
def BoundToChecked (states : List StateMachineData) (pat : PersonalAccessToken)
    (reads : List ScopeReads) : Prop :=
  ∀ read ∈ reads, ∀ handle, handleOf read.selection.repo = .ok handle →
    ∀ epoch ∈ pat.namespaceEpochs, epoch.handle = handle →
      ∃ data live, states[read.checked]? = some data ∧ data.namespaces[handle]? = some live ∧
        epoch = .fromNamespace live

/-- No handle is claimed, released or revoked between a check and a recording for it, unless it is
not live when it is recorded. -/
def HandlesKept (log : List (Request × Response)) (states : List StateMachineData)
    (reads : List ScopeReads) : Prop :=
  ∀ check ∈ reads, ∀ record ∈ reads, ∀ handle, handleOf check.selection.repo = .ok handle →
    handleOf record.selection.repo = .ok handle →
      ∀ data live, states[record.recorded]? = some data → data.namespaces[handle]? = some live →
        ¬ LoggedSystem.Between log (min check.checked record.recorded)
          (max check.checked record.recorded) (MovesHandle handle)

/-! ### What holds of the creations -/

theorem mem_recordScopeNamespaceEpoch {data : StateMachineData} (named : LiveNamespaces data)
    {repo : String} {epochs : List NamespaceEpoch} {epoch : NamespaceEpoch} :
    epoch ∈ recordScopeNamespaceEpoch data repo epochs ↔ epoch ∈ epochs ∨
      ∃ handle live, handleOf repo = .ok handle ∧ data.namespaces[handle]? = some live ∧
        epoch = .fromNamespace live := by
  rw [recordScopeNamespaceEpoch]
  cases parsed : handleOf repo with
  | error error => simp
  | ok handle =>
    cases lookup : data.namespaces[handle]? with
    | none =>
      simp only [lookup, ite_self]
      refine ⟨Or.inl, ?_⟩
      rintro (old | ⟨other, live, same, found, _⟩)
      · exact old
      · rw [← Except.ok.inj same, lookup] at found
        cases found
    | some live =>
      have unreserved : ¬ isHandleReserved handle = true :=
        Bool.eq_false_iff.mp (named handle live lookup).unreserved
      have recorded : (∃ other live, Except.ok handle = Except.ok (ε := LayerhouseError) other ∧
          data.namespaces[other]? = some live ∧ epoch = .fromNamespace live) ↔
          epoch = .fromNamespace live := by
        constructor
        · rintro ⟨other, found, same, present, rfl⟩
          rw [← Except.ok.inj same, lookup] at present
          rw [Option.some.inj present]
        · exact fun same => ⟨handle, live, rfl, lookup, same⟩
      rw [recorded]
      simp only [lookup, if_neg unreserved]
      split
      · rename_i present
        refine ⟨Or.inl, ?_⟩
        rintro (old | rfl)
        · exact old
        · exact present
      · rw [List.mem_append, List.mem_singleton]

/-- The epoch was recorded for the selection. -/
def RecordedAs (states : List StateMachineData) (read : ScopeReads) (epoch : NamespaceEpoch) :
    Prop :=
  ∃ handle data live, handleOf read.selection.repo = .ok handle ∧
    states[read.recorded]? = some data ∧ data.namespaces[handle]? = some live ∧
      epoch = .fromNamespace live

/-- The epochs are those that were recorded at the reads. -/
structure ReadsSound (states : List StateMachineData) (epochs : List NamespaceEpoch)
    (reads : List ScopeReads) : Prop where
  checked : ∀ read ∈ reads, ∃ data, states[read.checked]? = some data
  recorded : ∀ read ∈ reads, ∃ data, states[read.recorded]? = some data
  epochs : ∀ epoch, epoch ∈ epochs ↔ ∃ read ∈ reads, RecordedAs states read epoch

theorem ReadsSound.extend {states longer : List StateMachineData} {epochs : List NamespaceEpoch}
    {reads : List ScopeReads} (sound : ReadsSound states epochs reads)
    (kept : ∀ (position : Nat) data, states[position]? = some data →
      longer[position]? = some data) :
    ReadsSound longer epochs reads where
  checked := fun read member => (sound.checked read member).imp (kept read.checked)
  recorded := fun read member => (sound.recorded read member).imp (kept read.recorded)
  epochs := by
    intro epoch
    rw [sound.epochs epoch]
    refine exists_congr fun read => and_congr_right fun member => ?_
    obtain ⟨seen, found⟩ := sound.recorded read member
    rw [RecordedAs, RecordedAs, found, kept read.recorded seen found]

/-- One more selection is recorded. -/
theorem ReadsSound.record {states : List StateMachineData} {epochs : List NamespaceEpoch}
    {reads : List ScopeReads} (sound : ReadsSound states epochs reads) (read : ScopeReads)
    {checkedData data : StateMachineData} (checked : states[read.checked]? = some checkedData)
    (recorded : states[read.recorded]? = some data) (named : LiveNamespaces data) :
    ReadsSound states (recordScopeNamespaceEpoch data read.selection.repo epochs)
      (reads ++ [read]) where
  checked := by
    intro other member
    rcases List.mem_append.mp member with old | new
    · exact sound.checked other old
    · rw [List.mem_singleton.mp new]
      exact ⟨checkedData, checked⟩
  recorded := by
    intro other member
    rcases List.mem_append.mp member with old | new
    · exact sound.recorded other old
    · rw [List.mem_singleton.mp new]
      exact ⟨data, recorded⟩
  epochs := by
    intro epoch
    rw [mem_recordScopeNamespaceEpoch named, sound.epochs epoch]
    simp only [List.mem_append, List.mem_singleton, or_and_right, exists_or, exists_eq_left,
      RecordedAs, recorded, Option.some.injEq, exists_eq_left', exists_and_left]

def TokenStage.Sound (states : List StateMachineData) : TokenStage → Prop
  | .checking _ _ epochs reads => ReadsSound states epochs reads
  | .recording _ _ _ epochs reads checked =>
    ReadsSound states epochs reads ∧ ∃ data, states[checked]? = some data
  | .ready pat reads => ReadsSound states pat.namespaceEpochs reads

theorem TokenStage.Sound.extend {states longer : List StateMachineData} {stage : TokenStage}
    (sound : stage.Sound states)
    (kept : ∀ (position : Nat) data, states[position]? = some data →
      longer[position]? = some data) :
    stage.Sound longer := by
  cases stage with
  | checking rest scopes epochs reads => exact ReadsSound.extend sound kept
  | recording selection rest scopes epochs reads checked =>
    exact ⟨sound.1.extend kept, sound.2.imp (kept checked)⟩
  | ready pat reads => exact ReadsSound.extend sound kept

structure TokensConsistent (externals : Externals) (system : TokenSystem) : Prop where
  linked : system.Linked externals
  stages : ∀ id call stage, system.calls id = some (call, stage) → stage.Sound system.states

variable {externals : Externals} {service : TokenService} {system after : TokenSystem}

theorem tokensConsistent_initial : TokensConsistent externals .initial where
  linked := LoggedSystem.linked_initial
  stages := fun id call stage impossible => by cases impossible

theorem TokensConsistent.commit {now : Nat} {request : Request} {response : Response}
    (holds : TokensConsistent externals system)
    (committed : system.commit externals now request = some (after, response)) :
    TokensConsistent externals after where
  linked := holds.linked.commit committed
  stages := by
    intro id call stage found
    rw [LoggedSystem.calls_commit committed] at found
    exact (holds.stages id call stage found).extend fun position data =>
      holds.linked.states_commit committed

theorem TokensConsistent.setCall (holds : TokensConsistent externals system) (id : Nat)
    {called : Option (CreateTokenCall × TokenStage)}
    (sound : ∀ call stage, called = some (call, stage) → stage.Sound system.states) :
    TokensConsistent externals (system.setCall id called) where
  linked := holds.linked.setCall id called
  stages := by
    intro other call stage found
    rcases LoggedSystem.calls_setCall found with new | old
    · exact sound call stage new
    · exact holds.stages other call stage old

theorem TokensConsistent.endCall (holds : TokensConsistent externals system) (id : Nat) :
    TokensConsistent externals (system.setCall id none) :=
  holds.setCall id fun _ _ impossible => by cases impossible

theorem TokensConsistent.setStage (holds : TokensConsistent externals system) (id : Nat)
    (call : CreateTokenCall) {stage : TokenStage} (sound : stage.Sound system.states) :
    TokensConsistent externals (system.setCall id (some (call, stage))) :=
  holds.setCall id fun _ _ same => by
    cases same
    exact sound

theorem TokensConsistent.step {label : TokenLabel} (holds : TokensConsistent externals system)
    (stepped : tokenStep externals service system label = some after) :
    TokensConsistent externals after := by
  cases label with
  | commit now request =>
    obtain ⟨⟨next, response⟩, committed, rfl⟩ := Option.map_eq_some_iff.mp stepped
    exact holds.commit committed
  | receive id call =>
    simp only [tokenStep] at stepped
    split at stepped
    · split at stepped
      · exact nomatch stepped
      · rw [← Option.some.inj stepped]
        refine holds.setStage id call ⟨?_, ?_, ?_⟩
        · exact fun read member => absurd member List.not_mem_nil
        · exact fun read member => absurd member List.not_mem_nil
        · simp only [List.not_mem_nil, false_and, exists_false, implies_true]
    · exact nomatch stepped
  | check id position =>
    simp only [tokenStep] at stepped
    split at stepped
    · rename_i call selection rest scopes epochs reads data called served
      split at stepped
      · rw [← Option.some.inj stepped]
        exact holds.endCall id
      · rw [← Option.some.inj stepped]
        exact holds.setStage id call ⟨holds.stages id call _ called, data, served⟩
    · exact nomatch stepped
  | record id position =>
    simp only [tokenStep] at stepped
    split at stepped
    · rename_i call selection rest scopes epochs reads checked data called served
      rw [← Option.some.inj stepped]
      obtain ⟨sound, seen, found⟩ := holds.stages id call _ called
      have recorded := sound.record ⟨selection, checked, position⟩ found served
        (holds.linked.live data (List.mem_of_getElem? served))
      exact holds.setStage id call recorded
    · exact nomatch stepped
  | finish id draw =>
    simp only [tokenStep] at stepped
    split at stepped
    · rename_i call scopes epochs reads called
      rw [← Option.some.inj stepped]
      have sound : ReadsSound system.states epochs reads := holds.stages id call _ called
      exact holds.setStage id call sound
    · exact nomatch stepped
  | write id now =>
    simp only [tokenStep] at stepped
    split at stepped
    · obtain ⟨⟨next, response⟩, committed, rfl⟩ := Option.map_eq_some_iff.mp stepped
      exact (holds.commit committed).endCall id
    · exact nomatch stepped

/-- The order of a check and a recording does not matter to what lies between them. -/
theorem not_moved_of_same {check record : Nat} (linked : system.Linked externals)
    {checked recorded : StateMachineData} (foundChecked : system.states[check]? = some checked)
    (foundRecorded : system.states[record]? = some recorded) {handle : String}
    {before after : Namespace} (liveChecked : checked.namespaces[handle]? = some before)
    (liveRecorded : recorded.namespaces[handle]? = some after)
    (same : after.generation = before.generation) :
    ¬ LoggedSystem.Between system.log (min check record) (max check record)
      (MovesHandle handle) := by
  rcases Nat.le_total check record with ordered | ordered
  · rw [Nat.min_eq_left ordered, Nat.max_eq_right ordered]
    exact linked.not_moved ordered foundChecked foundRecorded liveChecked liveRecorded same
  · rw [Nat.min_eq_right ordered, Nat.max_eq_left ordered]
    exact linked.not_moved ordered foundRecorded foundChecked liveRecorded liveChecked same.symm

theorem same_of_not_moved {check record : Nat} (linked : system.Linked externals)
    {checked recorded : StateMachineData} (foundChecked : system.states[check]? = some checked)
    (foundRecorded : system.states[record]? = some recorded) {handle : String}
    (kept : ¬ LoggedSystem.Between system.log (min check record) (max check record)
      (MovesHandle handle)) :
    checked.namespaces[handle]? = recorded.namespaces[handle]? := by
  rcases Nat.le_total check record with ordered | ordered
  · rw [Nat.min_eq_left ordered, Nat.max_eq_right ordered] at kept
    exact (linked.unmoved ordered foundChecked foundRecorded kept).symm
  · rw [Nat.min_eq_right ordered, Nat.max_eq_left ordered] at kept
    exact linked.unmoved ordered foundRecorded foundChecked kept

/-- In every run, the token that a creation is about to commit is bound only to epochs its
selections were checked in exactly if no handle moves between a check and a recording for it,
where the handle is live at the recording. -/
theorem token_bound_to_checked_iff (externals : Externals) (service : TokenService)
    {labels : List TokenLabel} {system : TokenSystem}
    (reached : run (tokenStep externals service) .initial labels = some system) {id : Nat}
    {call : CreateTokenCall} {pat : PersonalAccessToken} {reads : List ScopeReads}
    (ready : system.calls id = some (call, .ready pat reads)) :
    BoundToChecked system.states pat reads ↔ HandlesKept system.log system.states reads := by
  have holds : TokensConsistent externals system := run_invariant (TokensConsistent externals)
    (fun _ _ _ stepped holds => holds.step stepped) reached tokensConsistent_initial
  have sound : ReadsSound system.states pat.namespaceEpochs reads := holds.stages id call _ ready
  constructor
  · intro bound check checkMember record recordMember handle checkHandle recordHandle data live
      served stands
    have named := holds.linked.live data (List.mem_of_getElem? served) handle live stands
    have stored : NamespaceEpoch.fromNamespace live ∈ pat.namespaceEpochs :=
      (sound.epochs _).mpr ⟨record, recordMember, handle, data, live, recordHandle, served, stands,
        rfl⟩
    obtain ⟨seen, before, found, lookup, same⟩ :=
      bound check checkMember handle checkHandle _ stored named.keyed
    exact not_moved_of_same holds.linked found served lookup stands
      (congrArg NamespaceEpoch.generation same)
  · intro kept check checkMember handle checkHandle epoch stored ofHandle
    obtain ⟨record, recordMember, other, data, live, recordHandle, served, stands, rfl⟩ :=
      (sound.epochs epoch).mp stored
    have named := holds.linked.live data (List.mem_of_getElem? served) other live stands
    obtain rfl : other = handle := named.keyed.symm.trans ofHandle
    obtain ⟨seen, found⟩ := sound.checked check checkMember
    refine ⟨seen, live, found, ?_, rfl⟩
    rw [same_of_not_moved holds.linked found served
      (kept check checkMember record recordMember other checkHandle recordHandle data live served
        stands)]
    exact stands

/-- A service whose policies permit everything, for concrete runs. -/
def samplePermissiveService : TokenService :=
  { sampleService with auth := samplePermissive }

/-- The creation of a token for one repository, with requests that commit between its check and
its recording. -/
def sampleCreation (between : List Request) : List TokenLabel :=
  [.commit 0 (sampleClaim "alice" "first" false),
    .receive 0 ⟨sampleSession "first", ⟨"ci", [⟨"alice/app", [.pull]⟩], none⟩⟩, .check 0 1] ++
    between.map (.commit 0) ++
    [.record 0 (1 + between.length), .finish 0 ⟨"pat-1", "layerhouse-00", 5⟩]

/-- The handle is released and claimed by somebody else after the check: the token is bound to the
namespace of the new owner. -/
theorem token_bound_to_unchecked_epoch :
    ∃ system call pat reads,
      run (tokenStep sampleExternals samplePermissiveService) .initial
        (sampleCreation [.namespaces (sampleRelease "alice" "first"),
          sampleClaim "alice" "second" true]) = some system ∧
      system.calls 0 = some (call, .ready pat reads) ∧
      pat.namespaceEpochs = [⟨"alice", 2⟩] ∧ ¬ BoundToChecked system.states pat reads := by
  refine ⟨_, _, _, _, rfl, rfl, rfl, fun bound => ?_⟩
  obtain ⟨data, live, found, lookup, same⟩ :=
    bound _ List.mem_cons_self "alice" rfl _ List.mem_cons_self rfl
  cases found
  cases lookup
  cases same

theorem token_bound_to_checked_sample :
    ∃ system call pat reads,
      run (tokenStep sampleExternals samplePermissiveService) .initial (sampleCreation []) =
        some system ∧
      system.calls 0 = some (call, .ready pat reads) ∧
      BoundToChecked system.states pat reads := by
  have reached : run (tokenStep sampleExternals samplePermissiveService) .initial
      (sampleCreation []) = some _ := rfl
  refine ⟨_, _, _, _, reached, rfl,
    (@token_bound_to_checked_iff _ _ _ _ reached 0 _ _ _ rfl).mpr ?_⟩
  intro check checkMember record recordMember handle _ _ data live _ _
  obtain rfl := List.mem_singleton.mp checkMember
  obtain rfl := List.mem_singleton.mp recordMember
  exact LoggedSystem.between_self _ _ _

end Layerhouse
