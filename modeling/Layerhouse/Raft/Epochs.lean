/-
This file proves that a namespace epoch that ended never returns. A handle is
fresh, live in some generation, or released after some generation, and requests
move it along these phases only: a claim gives a fresh handle the generation one
and a released one the successor of its last generation, and a release keeps the
generation. The phases are an abstract model of the two handle tables, and every
request refines one of its moves or leaves the phase of a handle as it is.

So the generations a handle is claimed with increase, and a write that carries
an epoch of a released generation is refused in every later state.
-/

import Layerhouse.Raft.Effects

namespace Layerhouse

/-! ### The phases of a handle -/

inductive HandlePhase where
  | fresh
  | live (generation : Nat)
  | released (generation : Nat)
deriving DecidableEq

namespace HandlePhase

/-- The moves of a handle. -/
inductive Step : HandlePhase → HandlePhase → Prop
  | claim : Step fresh (live 1)
  | reclaim {generation : Nat} (fits : generation + 1 < 2 ^ 64) :
      Step (released generation) (live (generation + 1))
  | release {generation : Nat} : Step (live generation) (released generation)

/-- The last generation the handle was claimed with. -/
def issued : HandlePhase → Nat
  | fresh => 0
  | live generation => generation
  | released generation => generation

/-- The epoch of this generation has ended. -/
def Ended (generation : Nat) : HandlePhase → Prop
  | fresh => False
  | live current => generation < current
  | released last => generation ≤ last

theorem Step.issued_le {phase next : HandlePhase} (moved : Step phase next) :
    phase.issued ≤ next.issued := by
  cases moved <;> simp [issued]

theorem Step.ended {generation : Nat} {phase next : HandlePhase} (moved : Step phase next)
    (ended : phase.Ended generation) : next.Ended generation := by
  cases moved with
  | claim => exact ended.elim
  | reclaim fits => exact Nat.lt_succ_of_le ended
  | release => exact Nat.le_of_lt ended

end HandlePhase

/-- The phase of a handle in the replicated data. -/
def handlePhase (data : StateMachineData) (handle : String) : HandlePhase :=
  match data.namespaces[handle]? with
  | some live => .live live.generation
  | none =>
    match data.releasedHandles[handle]? with
    | some tomb => .released tomb.priorGeneration
    | none => .fresh

theorem handlePhase_of_live {data : StateMachineData} {handle : String} {live : Namespace}
    (found : data.namespaces[handle]? = some live) :
    handlePhase data handle = .live live.generation := by
  rw [handlePhase, found]

theorem handlePhase_of_released {data : StateMachineData} {handle : String}
    {tomb : ReleasedHandle} (unclaimed : data.namespaces[handle]? = none)
    (found : data.releasedHandles[handle]? = some tomb) :
    handlePhase data handle = .released tomb.priorGeneration := by
  rw [handlePhase, unclaimed, found]

theorem handlePhase_congr {data other : StateMachineData} {handle : String}
    (sameNamespaces : other.namespaces[handle]? = data.namespaces[handle]?)
    (sameReleased : other.releasedHandles[handle]? = data.releasedHandles[handle]?) :
    handlePhase other handle = handlePhase data handle := by
  rw [handlePhase, handlePhase, sameNamespaces, sameReleased]

/-! ### Requests refine the moves -/

/-- The generation a claim is given is the next one of the handle's phase. -/
theorem nextGeneration_step {data : StateMachineData} {handle : String} {adminOverride : Bool}
    {generation : Nat} (unclaimed : data.namespaces[handle]? = none)
    (assigned : data.namespaceTables.nextGeneration handle adminOverride = .ok generation) :
    HandlePhase.Step (handlePhase data handle) (.live generation) ∧
      (handlePhase data handle).issued < generation := by
  rw [NamespaceTables.nextGeneration] at assigned
  rw [handlePhase, unclaimed]
  have tables : data.namespaceTables.releasedHandles = data.releasedHandles := rfl
  rw [tables] at assigned
  cases lookup : data.releasedHandles[handle]? with
  | none =>
    rw [lookup] at assigned
    cases assigned
    exact ⟨.claim, Nat.zero_lt_one⟩
  | some tomb =>
    rw [lookup] at assigned
    simp only at assigned
    split at assigned
    · cases assigned
    · split at assigned
      · rename_i fits
        cases assigned
        exact ⟨.reclaim fits, Nat.lt_succ_self _⟩
      · cases assigned

/-- A namespace request moves the phase of each handle by at most one step. -/
theorem applyNamespace_phase {data next : StateMachineData} {request : NamespaceRequest}
    {answer : Except LayerhouseError NamespaceResponse}
    (applied : applyNamespace data request = .ok (next, answer)) (handle : String) :
    handlePhase next handle = handlePhase data handle ∨
      HandlePhase.Step (handlePhase data handle) (handlePhase next handle) := by
  cases (applyNamespace_effect applied).2 with
  | kept sameNamespaces sameReleased refused =>
    exact Or.inl (handlePhase_congr (congrArg (·[handle]?) sameNamespaces)
      (congrArg (·[handle]?) sameReleased))
  | @claimed _ claimed _ _ _ _ _ generation valid unreserved unclaimed assigned namespacesEq
      releasedEq =>
    have namespacesAt := congrArg (·[handle]?) namespacesEq
    have releasedAt := congrArg (·[handle]?) releasedEq
    simp only [BTreeMap.getElem?_insert, BTreeMap.getElem?_erase] at namespacesAt releasedAt
    by_cases same : claimed = handle
    · subst same
      rw [if_pos rfl] at namespacesAt
      rw [handlePhase_of_live namespacesAt]
      exact Or.inr (nextGeneration_step unclaimed assigned).1
    · rw [if_neg same] at namespacesAt releasedAt
      exact Or.inl (handlePhase_congr namespacesAt releasedAt)
  | @released _ _ released live tomb asked found contentless namespacesEq releasedEq recorded =>
    have namespacesAt := congrArg (·[handle]?) namespacesEq
    have releasedAt := congrArg (·[handle]?) releasedEq
    simp only [BTreeMap.getElem?_insert, BTreeMap.getElem?_erase] at namespacesAt releasedAt
    by_cases same : released = handle
    · subst same
      rw [if_pos rfl] at namespacesAt releasedAt
      rw [handlePhase_of_released namespacesAt releasedAt, recorded, handlePhase_of_live found]
      exact Or.inr .release
    · rw [if_neg same] at namespacesAt releasedAt
      exact Or.inl (handlePhase_congr namespacesAt releasedAt)

/-- Every request moves the phase of each handle by at most one step. -/
theorem applyRequest_phase {externals : Externals} {now : Nat} {data next : StateMachineData}
    {request : Request} {response : Response}
    (applied : applyRequest externals now data request = .ok (next, response))
    (handle : String) :
    handlePhase next handle = handlePhase data handle ∨
      HandlePhase.Step (handlePhase data handle) (handlePhase next handle) := by
  refine applyRequest_invariant (fun other => handlePhase other handle = handlePhase data handle ∨
    HandlePhase.Step (handlePhase data handle) (handlePhase other handle)) applied ?_ ?_ ?_ ?_
  · intro other same
    exact Or.inl (handlePhase_congr
      (congrArg (fun registry : Registry => registry.namespaces[handle]?) same)
      (congrArg (fun registry : Registry => registry.releasedHandles[handle]?) same))
  · intro inner _
    have same := applyManifest_owners externals data inner
    exact Or.inl (handlePhase_congr (congrArg (·.2.1[handle]?) same)
      (congrArg (·.2.2.1[handle]?) same))
  · intro inner
    refine Or.inl ?_
    cases inner with
    | putRepository repository expected =>
      exact afterCheck_fst (handlePhase · handle = handlePhase data handle) rfl fun _ => rfl
    | deleteRepository name expected =>
      exact afterCheck_fst (handlePhase · handle = handlePhase data handle) rfl fun _ => rfl
  · intro inner after answer outcome
    exact applyNamespace_phase outcome handle

theorem requestStep_ended {externals : Externals} {handle : String} {generation : Nat}
    {data next : StateMachineData} {label : Nat × Request}
    (stepped : requestStep externals data label = some next)
    (ended : (handlePhase data handle).Ended generation) :
    (handlePhase next handle).Ended generation := by
  obtain ⟨response, applied⟩ := requestStep_eq_some.mp stepped
  rcases applyRequest_phase applied handle with same | moved
  · rw [same]
    exact ended
  · exact moved.ended ended

/-! ### Live namespaces -/

/-- What holds of every live namespace: it is keyed by its own handle, which satisfies the
grammar and is not reserved, and its generation is at least one. -/
structure LiveNamespace (handle : String) (live : Namespace) : Prop where
  keyed : live.handle = handle
  valid : validateHandle handle = .ok ()
  unreserved : isHandleReserved handle = false
  positive : 1 ≤ live.generation

def LiveNamespaces (data : StateMachineData) : Prop :=
  ∀ (handle : String) live, data.namespaces[handle]? = some live → LiveNamespace handle live

theorem liveNamespaces_empty : LiveNamespaces StateMachineData.empty := by
  intro handle live found
  have absent : (∅ : BTreeMap String Namespace)[handle]? = none := BTreeMap.getElem?_empty handle
  exact absurd (absent.symm.trans found) (Option.some_ne_none live).symm

theorem LiveNamespaces.applyRequest {externals : Externals} {now : Nat}
    {data next : StateMachineData} {request : Request} {response : Response}
    (holds : LiveNamespaces data)
    (applied : Layerhouse.applyRequest externals now data request = .ok (next, response)) :
    LiveNamespaces next := by
  have ofSame : ∀ other : StateMachineData, other.namespaces = data.namespaces →
      LiveNamespaces other := by
    intro other same handle live found
    rw [same] at found
    exact holds handle live found
  refine applyRequest_invariant LiveNamespaces applied ?_ ?_ ?_ ?_
  · exact fun other same => ofSame other (congrArg Registry.namespaces same)
  · exact fun inner _ =>
      ofSame _ (congrArg (·.2.1) (applyManifest_owners externals data inner))
  · intro inner
    cases inner with
    | putRepository repository expected =>
      exact afterCheck_fst LiveNamespaces holds fun _ => ofSame _ rfl
    | deleteRepository name expected =>
      exact afterCheck_fst LiveNamespaces holds fun _ => ofSame _ rfl
  · intro inner after answer outcome
    cases (applyNamespace_effect outcome).2 with
    | kept sameNamespaces sameReleased refused => exact ofSame _ sameNamespaces
    | claimed valid unreserved unclaimed assigned namespacesEq releasedEq =>
      intro handle live found
      have namespacesAt := congrArg (·[handle]?) namespacesEq
      simp only [BTreeMap.getElem?_insert] at namespacesAt
      rw [show after.namespaces[handle]? = _ from namespacesAt] at found
      split at found
      · rename_i same
        subst same
        cases found
        exact ⟨rfl, valid, unreserved, Nat.one_le_of_lt (nextGeneration_step unclaimed assigned).2⟩
      · exact holds handle live found
    | released asked lookup contentless namespacesEq releasedEq recorded =>
      intro handle live found
      have namespacesAt := congrArg (·[handle]?) namespacesEq
      simp only [BTreeMap.getElem?_erase] at namespacesAt
      rw [show after.namespaces[handle]? = _ from namespacesAt] at found
      split at found
      · cases found
      · exact holds handle live found

theorem requestStep_liveNamespaces {externals : Externals} {data next : StateMachineData}
    {label : Nat × Request} (stepped : requestStep externals data label = some next)
    (holds : LiveNamespaces data) : LiveNamespaces next := by
  obtain ⟨response, applied⟩ := requestStep_eq_some.mp stepped
  exact holds.applyRequest applied

/-! ### Claims -/

/-- The responses that stand for an error. -/
def Response.isError : Response → Bool
  | .nameUnknown _ | .denied _ | .conflict _ | .nameInvalid _ | .internalError _ => true
  | _ => false

theorem isError_errorToResponse (error : LayerhouseError) :
    (errorToResponse error).isError = true := by
  cases error <;> rfl

/-- A namespace request that is answered `Ok` was answered so by its domain. -/
theorem applyNamespace_of_ok {externals : Externals} {now : Nat} {data next : StateMachineData}
    {request : NamespaceRequest}
    (succeeded : applyRequest externals now data (.namespaces request) =
      .ok (next, .namespaces .ok)) :
    applyNamespace data request = .ok (next, .ok .ok) := by
  obtain ⟨answer, outcome, answered⟩ := applyNamespace_of_applied succeeded
  cases answer with
  | ok answer =>
    cases answered
    exact outcome
  | error error =>
    have failed := isError_errorToResponse error
    rw [toResponse] at answered
    rw [← answered] at failed
    cases failed

/-- The generation a successful claim of the handle assigned to it. -/
def assignedGeneration (handle : String) (request : Request) (response : Response)
    (next : StateMachineData) : Option Nat :=
  match request, response with
  | .namespaces (.claim claimed ..), .namespaces .ok =>
    if claimed = handle then next.namespaces[handle]?.map (·.generation) else none
  | _, _ => none

/-- The generations the successful claims of a run assigned to a handle, in order. -/
def claimGenerations (externals : Externals) (handle : String) :
    StateMachineData → List (Nat × Request) → List Nat
  | _, [] => []
  | data, (now, request) :: rest =>
    match applyRequest externals now data request with
    | .error _ => []
    | .ok (next, response) =>
      (assignedGeneration handle request response next).toList ++
        claimGenerations externals handle next rest

/-- A successful claim assigns a generation above every earlier one, and it is the one the
handle is then live in. -/
theorem assignedGeneration_eq_some {externals : Externals} {now : Nat}
    {data next : StateMachineData} {request : Request} {response : Response} {handle : String}
    {generation : Nat} (applied : applyRequest externals now data request = .ok (next, response))
    (assigned : assignedGeneration handle request response next = some generation) :
    (handlePhase data handle).issued < generation ∧
      (handlePhase next handle).issued = generation := by
  unfold assignedGeneration at assigned
  split at assigned
  · rename_i claimed owner ownerLabel actor adminOverride claimedAt
    split at assigned
    · rename_i same
      subst same
      obtain ⟨live, found, rfl⟩ := Option.map_eq_some_iff.mp assigned
      refine ⟨?_, by rw [handlePhase_of_live found]; rfl⟩
      cases (applyNamespace_effect (applyNamespace_of_ok applied)).2 with
      | kept sameNamespaces sameReleased refused =>
        obtain ⟨error, impossible⟩ := refused rfl
        cases impossible
      | claimed valid unreserved unclaimed assigned namespacesEq releasedEq =>
        have namespacesAt := congrArg (·[claimed]?) namespacesEq
        simp only [BTreeMap.getElem?_insert, if_pos] at namespacesAt
        have liveEq := Option.some.inj (found.symm.trans namespacesAt)
        rw [liveEq]
        exact (nextGeneration_step unclaimed assigned).2
      | released asked lookup contentless namespacesEq releasedEq recorded =>
        rcases asked with ⟨_, _, _, impossible⟩ | ⟨_, _, impossible⟩ <;> cases impossible
    · cases assigned
  · cases assigned

/-- Every generation a run assigns is above what was issued before it, and the assigned
generations increase. -/
theorem claimGenerations_increasing (externals : Externals) (handle : String)
    (labels : List (Nat × Request)) (data : StateMachineData) :
    (∀ generation ∈ claimGenerations externals handle data labels,
        (handlePhase data handle).issued < generation) ∧
      (claimGenerations externals handle data labels).Pairwise (· < ·) := by
  induction labels generalizing data with
  | nil => exact ⟨fun _ member => absurd member List.not_mem_nil, List.Pairwise.nil⟩
  | cons label rest inductionHypothesis =>
    obtain ⟨now, request⟩ := label
    rw [claimGenerations]
    cases applied : applyRequest externals now data request with
    | error panic => exact ⟨fun _ member => absurd member List.not_mem_nil, List.Pairwise.nil⟩
    | ok result =>
      obtain ⟨next, response⟩ := result
      obtain ⟨above, increasing⟩ := inductionHypothesis next
      have grown : (handlePhase data handle).issued ≤ (handlePhase next handle).issued := by
        rcases applyRequest_phase applied handle with same | moved
        · rw [same]
        · exact moved.issued_le
      simp only
      cases assigned : assignedGeneration handle request response next with
      | none => exact ⟨fun generation member => lt_of_le_of_lt grown (above generation member),
          increasing⟩
      | some generation =>
        obtain ⟨larger, issued⟩ := assignedGeneration_eq_some applied assigned
        rw [issued] at above
        refine ⟨fun other member => ?_, List.pairwise_cons.mpr ⟨above, increasing⟩⟩
        rcases List.mem_cons.mp member with rfl | later
        · exact larger
        · exact lt_trans larger (above other later)

/-- A claim whose generation would not fit in 64 bits is refused and changes nothing. -/
theorem claim_exhausted (externals : Externals) (now : Nat) {data : StateMachineData}
    {handle : String} {tomb : ReleasedHandle} (found : data.releasedHandles[handle]? = some tomb)
    (exhausted : 2 ^ 64 ≤ tomb.priorGeneration + 1) (owner : Owner) (ownerLabel : String)
    (actor : Subject) (adminOverride : Bool) (claimedAt : Nat) :
    ∃ response, applyRequest externals now data
        (.namespaces (.claim handle owner ownerLabel actor adminOverride claimedAt)) =
        .ok (data, response) ∧ response.isError = true := by
  have refused : ∃ error, data.namespaceTables.nextGeneration handle adminOverride =
      .error error := by
    have lookup : data.namespaceTables.releasedHandles[handle]? = some tomb := found
    rw [NamespaceTables.nextGeneration, lookup]
    simp only
    split
    · exact ⟨_, rfl⟩
    · rw [if_neg (Nat.not_lt.mpr exhausted)]
      exact ⟨_, rfl⟩
  have outcome : ∃ error, applyNamespace data
      (.claim handle owner ownerLabel actor adminOverride claimedAt) =
      .ok (data, .error error) := by
    obtain ⟨refusal, notAssigned⟩ := refused
    rw [applyNamespace, applyNamespaceCore]
    cases validateHandle handle with
    | error error => exact ⟨error, rfl⟩
    | ok done =>
      simp only
      split
      · exact ⟨_, rfl⟩
      · cases data.namespaceTables.namespaces[handle]? with
        | some live => exact ⟨_, rfl⟩
        | none =>
          simp only [notAssigned]
          exact ⟨refusal, rfl⟩
  obtain ⟨error, answered⟩ := outcome
  refine ⟨errorToResponse error, ?_, isError_errorToResponse error⟩
  rw [applyRequest, answered]
  rfl

/-! ### Stale writes -/

/-- A successful release leaves the handle released after the generation it was live in. -/
theorem handlePhase_of_release {externals : Externals} {now : Nat}
    {data released : StateMachineData} {request : NamespaceRequest} {handle : String}
    {live : Namespace} (asked : request.Releases handle)
    (found : data.namespaces[handle]? = some live)
    (succeeded : applyRequest externals now data (.namespaces request) =
      .ok (released, .namespaces .ok)) :
    handlePhase released handle = .released live.generation := by
  cases (applyNamespace_effect (applyNamespace_of_ok succeeded)).2 with
  | kept sameNamespaces sameReleased refused =>
    have moves : request.movesHandle = true := by
      rcases asked with ⟨_, _, _, rfl⟩ | ⟨_, _, rfl⟩ <;> rfl
    obtain ⟨error, impossible⟩ := refused moves
    cases impossible
  | claimed valid unreserved unclaimed assigned namespacesEq releasedEq =>
    rcases asked with ⟨_, _, _, impossible⟩ | ⟨_, _, impossible⟩ <;> cases impossible
  | @released _ _ freed was tomb askedAgain lookup contentless namespacesEq releasedEq recorded =>
    have sameFreed : freed = handle := by
      rcases asked with ⟨_, _, _, rfl⟩ | ⟨_, _, rfl⟩ <;>
        rcases askedAgain with ⟨_, _, _, same⟩ | ⟨_, _, same⟩ <;> cases same <;> rfl
    subst sameFreed
    have namespacesAt := congrArg (·[freed]?) namespacesEq
    have releasedAt := congrArg (·[freed]?) releasedEq
    simp only [BTreeMap.getElem?_erase, if_pos] at namespacesAt
    simp only [BTreeMap.getElem?_insert, if_pos] at releasedAt
    have sameLive : was = live := Option.some.inj (lookup.symm.trans found)
    rw [handlePhase_of_released namespacesAt releasedAt, recorded, sameLive]

/-- The repository a namespace-owned write targets and the epoch it carries. -/
def Request.namespaceWrite : Request → Option (String × Option NamespaceEpoch)
  | .manifest (.putManifest put) => some (put.name, put.expectedNamespace)
  | .manifest (.deleteManifest name expected _) => some (name, expected)
  | .manifest (.deleteTag name expected _ _) => some (name, expected)
  | .manifest (.deleteRepository name expected) => some (name, expected)
  | .manifest (.deleteManifests name expected _) => some (name, expected)
  | .manifest (.mountBlob _ destRepo expected _) => some (destRepo, expected)
  | .repository (.putRepository stored expected) => some (stored.name, expected)
  | .repository (.deleteRepository name expected) => some (name, expected)
  | _ => none

/-- A write whose namespace check fails is refused and changes nothing. -/
theorem applyRequest_of_check_error {externals : Externals} {now : Nat} {data : StateMachineData}
    {request : Request} {repository : String} {expected : Option NamespaceEpoch}
    {error : LayerhouseError} (target : request.namespaceWrite = some (repository, expected))
    (failed : requireExpectedNamespace data repository expected = .error error) :
    applyRequest externals now data request = .ok (data, errorToResponse error) := by
  cases request with
  | manifest inner =>
    cases inner <;> cases target <;>
      simp only [applyRequest, applyManifest, failed, afterCheck, toResponse]
  | repository inner =>
    cases inner <;> cases target <;>
      simp only [applyRequest, applyRepository, failed, afterCheck, toResponse]
  | _ => cases target

/-- The check fails for an epoch that has ended. -/
theorem requireExpectedNamespace_ended {data : StateMachineData} {repository handle : String}
    {generation : Nat} (target : handleOf repository = .ok handle)
    (unreserved : isHandleReserved handle = false)
    (ended : (handlePhase data handle).Ended generation) :
    ∃ error, requireExpectedNamespace data repository (some ⟨handle, generation⟩) =
      .error error := by
  rw [requireExpectedNamespace, target]
  simp only [unreserved, Bool.false_eq_true, if_false, ne_eq, not_true_eq_false]
  cases found : data.namespaces[handle]? with
  | none => exact ⟨_, rfl⟩
  | some current =>
    rw [handlePhase_of_live found] at ended
    have different : current.generation ≠ generation := Nat.ne_of_gt ended
    simp only [different, not_false_eq_true, if_true]
    exact ⟨_, rfl⟩

/-- In every run from the empty state the generations assigned to a handle by successful claims
strictly increase, a claim whose generation would overflow is refused, and after a successful
release of a handle every write that carries the released epoch is refused in every later
state. -/
theorem namespace_epochs_never_return (externals : Externals) (handle : String)
    {labels : List (Nat × Request)} {data : StateMachineData}
    (reached : run (requestStep externals) StateMachineData.empty labels = some data) :
    (claimGenerations externals handle StateMachineData.empty labels).Pairwise (· < ·) ∧
    (∀ now tomb owner ownerLabel actor adminOverride claimedAt,
      data.releasedHandles[handle]? = some tomb → 2 ^ 64 ≤ tomb.priorGeneration + 1 →
      ∃ response, applyRequest externals now data
        (.namespaces (.claim handle owner ownerLabel actor adminOverride claimedAt)) =
        .ok (data, response) ∧ response.isError = true) ∧
    (∀ now release live released after later clock write repository,
      NamespaceRequest.Releases release handle →
      data.namespaces[handle]? = some live →
      applyRequest externals now data (.namespaces release) = .ok (released, .namespaces .ok) →
      run (requestStep externals) released after = some later →
      Request.namespaceWrite write = some (repository, some ⟨handle, live.generation⟩) →
      handleOf repository = .ok handle →
      ∃ response, applyRequest externals clock later write = .ok (later, response) ∧
        response.isError = true) := by
  refine ⟨(claimGenerations_increasing externals handle labels _).2, ?_, ?_⟩
  · intro now tomb owner ownerLabel actor adminOverride claimedAt found exhausted
    exact claim_exhausted externals now found exhausted owner ownerLabel actor adminOverride
      claimedAt
  · intro now release live released after later clock write repository asked found succeeded
      continued target sameHandle
    have valid : LiveNamespace handle live :=
      run_invariant LiveNamespaces (fun _ _ _ stepped => requestStep_liveNamespaces stepped)
        reached liveNamespaces_empty handle live found
    have endedNow : (handlePhase released handle).Ended live.generation := by
      rw [handlePhase_of_release asked found succeeded]
      exact Nat.le_refl _
    have endedLater : (handlePhase later handle).Ended live.generation :=
      run_invariant (fun state => (handlePhase state handle).Ended live.generation)
        (fun _ _ _ stepped => requestStep_ended stepped) continued endedNow
    obtain ⟨error, failed⟩ :=
      requireExpectedNamespace_ended sameHandle valid.unreserved endedLater
    exact ⟨errorToResponse error, applyRequest_of_check_error target failed,
      isError_errorToResponse error⟩

/-- The handle is claimed, released and claimed again, and a push that carries the first epoch
is then refused. -/
theorem namespace_epochs_never_return_sample :
    ∃ data released later response,
      run (requestStep sampleExternals) StateMachineData.empty
        [(0, sampleClaim "alice" "first" false)] = some data ∧
      applyRequest sampleExternals 0 data (.namespaces (sampleRelease "alice" "first")) =
        .ok (released, .namespaces .ok) ∧
      run (requestStep sampleExternals) released [(0, sampleClaim "alice" "second" true)] =
        some later ∧
      applyRequest sampleExternals 0 later (.manifest (.putManifest (samplePush "alice/app"
        (some ⟨"alice", 1⟩) (sampleDigest 'a') (sampleDigest 'b')))) = .ok (later, response) ∧
      response.isError = true := by
  have claimed : run (requestStep sampleExternals) StateMachineData.empty
      [(0, sampleClaim "alice" "first" false)] = some _ := rfl
  obtain ⟨response, applied, refused⟩ :=
    (namespace_epochs_never_return sampleExternals "alice" claimed).2.2 0
      (sampleRelease "alice" "first") _ _ [(0, sampleClaim "alice" "second" true)] _ 0
      (.manifest (.putManifest (samplePush "alice/app" (some ⟨"alice", 1⟩) (sampleDigest 'a')
        (sampleDigest 'b')))) "alice/app" (.inl ⟨_, _, _, rfl⟩) rfl rfl rfl rfl rfl
  exact ⟨_, _, _, response, claimed, rfl, rfl, applied, refused⟩

end Layerhouse
