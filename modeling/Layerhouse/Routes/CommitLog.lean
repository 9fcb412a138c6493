/-
This file is calls of the server's routes that run among the commits of the cluster,
with the log of the committed requests. A node that has applied some number of them
answers reads from the state they lead to. What two states of a run have to do with
each other is said by the requests that were committed in between: a handle keeps its
namespace as long as no release of it was accepted, and stays unclaimed as long as no
claim of it was.
-/

import Layerhouse.Routes.Grants

namespace Layerhouse

/-- The committed requests with their responses, and the data after each number of them, in the
order of the log; and the calls that are under way. -/
structure LoggedSystem (Call Stage : Type) where
  log : List (Request × Response)
  states : List StateMachineData
  calls : Nat → Option (Call × Stage)

namespace LoggedSystem

variable {Call Stage : Type}

/-- A new cluster without calls. -/
def initial : LoggedSystem Call Stage where
  log := []
  states := [StateMachineData.empty]
  calls := fun _ => none

/-- The data after all committed requests. -/
def data (system : LoggedSystem Call Stage) : StateMachineData :=
  system.states.getLastD StateMachineData.empty

def setCall (system : LoggedSystem Call Stage) (id : Nat) (called : Option (Call × Stage)) :
    LoggedSystem Call Stage :=
  { system with calls := Function.update system.calls id called }

/-- Commit a request. A panic stops the cluster. -/
def commit (externals : Externals) (now : Nat) (system : LoggedSystem Call Stage)
    (request : Request) : Option (LoggedSystem Call Stage × Response) :=
  match applyRequest externals now system.data request with
  | .error _ => none
  | .ok (next, response) =>
    some ({ system with
      log := system.log ++ [(request, response)]
      states := system.states ++ [next] }, response)

theorem calls_setCall {system : LoggedSystem Call Stage} {id other : Nat}
    {called : Option (Call × Stage)} {call : Call} {stage : Stage}
    (found : (system.setCall id called).calls other = some (call, stage)) :
    called = some (call, stage) ∨ system.calls other = some (call, stage) := by
  simp only [setCall, Function.update_apply] at found
  split at found
  · exact Or.inl found
  · exact Or.inr found

theorem commit_eq_some {externals : Externals} {now : Nat}
    {system after : LoggedSystem Call Stage} {request : Request} {response : Response}
    (committed : system.commit externals now request = some (after, response)) :
    ∃ next, applyRequest externals now system.data request = .ok (next, response) ∧
      after = { system with
        log := system.log ++ [(request, response)]
        states := system.states ++ [next] } := by
  rw [commit] at committed
  split at committed
  · exact nomatch committed
  · rename_i next answer applied
    cases committed
    exact ⟨next, applied, rfl⟩

/-! ### Linked states -/

/-- Each state is what the next request of the log leaves of the one before. -/
structure Linked (externals : Externals) (system : LoggedSystem Call Stage) : Prop where
  length : system.states.length = system.log.length + 1
  applied : ∀ index request response, system.log[index]? = some (request, response) →
    ∃ now before after, system.states[index]? = some before ∧
      system.states[index + 1]? = some after ∧
      applyRequest externals now before request = .ok (after, response)
  live : ∀ data ∈ system.states, LiveNamespaces data

variable {externals : Externals} {system after : LoggedSystem Call Stage}

theorem linked_initial : Linked externals (initial : LoggedSystem Call Stage) where
  length := rfl
  applied := by
    intro index request response found
    rw [initial, List.getElem?_nil] at found
    cases found
  live := by
    intro data member
    rw [List.mem_singleton.mp member]
    exact liveNamespaces_empty

theorem Linked.setCall (linked : Linked externals system) (id : Nat)
    (called : Option (Call × Stage)) : Linked externals (system.setCall id called) :=
  ⟨linked.length, linked.applied, linked.live⟩

/-- The latest state has all requests applied. -/
theorem Linked.latest (linked : Linked externals system) :
    system.states[system.log.length]? = some system.data := by
  have length := linked.length
  have last : system.states.length - 1 = system.log.length := by rw [length, Nat.add_sub_cancel]
  rw [data, ← last, ← List.getLast?_eq_getElem?]
  cases found : system.states.getLast? with
  | none =>
    rw [List.getLast?_eq_none_iff.mp found] at length
    exact absurd length (Nat.succ_ne_zero _).symm
  | some latest => rw [List.getLastD_eq_getLast?, found, Option.getD_some]

theorem Linked.position_le (linked : Linked externals system) {position : Nat}
    {state : StateMachineData} (found : system.states[position]? = some state) :
    position ≤ system.log.length := by
  obtain ⟨bound, _⟩ := List.getElem?_eq_some_iff.mp found
  rw [linked.length] at bound
  exact Nat.le_of_lt_succ bound

theorem Linked.commit (linked : Linked externals system) {now : Nat} {request : Request}
    {response : Response}
    (committed : system.commit externals now request = some (after, response)) :
    Linked externals after := by
  obtain ⟨next, applied, rfl⟩ := commit_eq_some committed
  have here := linked.latest
  constructor
  · simp only [List.length_append, List.length_singleton, linked.length]
  · intro index other answer found
    rcases Nat.lt_or_ge index system.log.length with old | new
    · rw [List.getElem?_append_left old] at found
      obtain ⟨time, before, after, foundBefore, foundAfter, step⟩ :=
        linked.applied index other answer found
      refine ⟨time, before, after, ?_, ?_, step⟩
      · rw [List.getElem?_append_left (by rw [linked.length]; omega)]
        exact foundBefore
      · rw [List.getElem?_append_left (by rw [linked.length]; omega)]
        exact foundAfter
    · obtain ⟨bound, _⟩ := List.getElem?_eq_some_iff.mp found
      rw [List.length_append, List.length_singleton] at bound
      obtain rfl : index = system.log.length := by omega
      rw [List.getElem?_concat_length] at found
      cases found
      refine ⟨now, system.data, next, ?_, ?_, applied⟩
      · rw [List.getElem?_append_left (by rw [linked.length]; omega)]
        exact here
      · rw [← linked.length, List.getElem?_concat_length]
  · intro data member
    rcases List.mem_append.mp member with old | new
    · exact linked.live data old
    · rw [List.mem_singleton.mp new]
      exact (linked.live system.data (List.mem_of_getElem? here)).applyRequest applied

theorem calls_commit {now : Nat} {request : Request} {response : Response}
    (committed : system.commit externals now request = some (after, response)) :
    after.calls = system.calls := by
  obtain ⟨next, _, rfl⟩ := commit_eq_some committed
  rfl

theorem length_commit {now : Nat} {request : Request} {response : Response}
    (committed : system.commit externals now request = some (after, response)) :
    after.log.length = system.log.length + 1 := by
  obtain ⟨next, _, rfl⟩ := commit_eq_some committed
  exact List.length_append

/-- The earlier states stay. -/
theorem Linked.states_of_commit (linked : Linked externals system) {now : Nat}
    {request : Request} {response : Response}
    (committed : system.commit externals now request = some (after, response)) {position : Nat}
    (old : position ≤ system.log.length) : after.states[position]? = system.states[position]? := by
  obtain ⟨next, _, rfl⟩ := commit_eq_some committed
  exact List.getElem?_append_left (by rw [linked.length]; exact Nat.lt_succ_of_le old)

theorem Linked.states_commit (linked : Linked externals system) {now : Nat} {request : Request}
    {response : Response}
    (committed : system.commit externals now request = some (after, response)) {position : Nat}
    {state : StateMachineData} (found : system.states[position]? = some state) :
    after.states[position]? = some state := by
  rw [linked.states_of_commit committed (linked.position_le found), found]

/-- The request is applied to the latest state and makes the next one. -/
theorem Linked.applied_commit (linked : Linked externals system) {now : Nat} {request : Request}
    {response : Response}
    (committed : system.commit externals now request = some (after, response)) :
    applyRequest externals now system.data request = .ok (after.data, response) ∧
      after.states[after.log.length]? = some after.data := by
  refine ⟨?_, (linked.commit committed).latest⟩
  obtain ⟨next, applied, rfl⟩ := commit_eq_some committed
  rw [applied, data, List.getLastD_eq_getLast?, List.getLast?_concat, Option.getD_some]

/-! ### What is committed between two states -/

/-- A request with the property is among the ones that take one position to the other. -/
def Between (log : List (Request × Response)) (first last : Nat)
    (property : Request × Response → Prop) : Prop :=
  ∃ index entry, first ≤ index ∧ index < last ∧ log[index]? = some entry ∧ property entry

theorem between_self (log : List (Request × Response)) (position : Nat)
    (property : Request × Response → Prop) : ¬ Between log position position property := by
  rintro ⟨index, _, below, above, _⟩
  exact absurd (Nat.lt_of_le_of_lt below above) (Nat.lt_irrefl _)

theorem between_succ {log : List (Request × Response)} {first last : Nat}
    {property : Request × Response → Prop} {entry : Request × Response} (ordered : first ≤ last)
    (found : log[last]? = some entry) :
    Between log first (last + 1) property ↔ Between log first last property ∨ property entry := by
  constructor
  · rintro ⟨index, other, below, above, lookup, holds⟩
    rcases Nat.lt_or_eq_of_le (Nat.le_of_lt_succ above) with earlier | rfl
    · exact Or.inl ⟨index, other, below, earlier, lookup, holds⟩
    · rw [Option.some.inj (lookup.symm.trans found)] at holds
      exact Or.inr holds
  · rintro (⟨index, other, below, above, lookup, holds⟩ | holds)
    · exact ⟨index, other, below, Nat.lt_succ_of_lt above, lookup, holds⟩
    · exact ⟨last, entry, ordered, Nat.lt_succ_self last, found, holds⟩

/-- The last request before a position, and the state it was applied to. -/
theorem Linked.predecessor (linked : Linked externals system) {position : Nat}
    {state : StateMachineData} (found : system.states[position + 1]? = some state) :
    ∃ now request response before, system.log[position]? = some (request, response) ∧
      system.states[position]? = some before ∧
      applyRequest externals now before request = .ok (state, response) := by
  have bound : position < system.log.length := linked.position_le found
  have entry : system.log[position]? = some system.log[position] := List.getElem?_eq_getElem bound
  obtain ⟨now, before, after, foundBefore, foundAfter, applied⟩ :=
    linked.applied position _ _ entry
  obtain rfl := Option.some.inj (foundAfter.symm.trans found)
  exact ⟨now, _, _, before, entry, foundBefore, applied⟩

theorem Linked.issued_le (linked : Linked externals system) (handle : String)
    {first last : Nat} (ordered : first ≤ last) {before after : StateMachineData}
    (foundBefore : system.states[first]? = some before)
    (foundAfter : system.states[last]? = some after) :
    (handlePhase before handle).issued ≤ (handlePhase after handle).issued := by
  induction last, ordered using Nat.le_induction generalizing after with
  | base =>
    obtain rfl := Option.some.inj (foundBefore.symm.trans foundAfter)
    exact Nat.le_refl _
  | succ last ordered inductionHypothesis =>
    obtain ⟨now, request, response, middle, _, foundMiddle, applied⟩ :=
      linked.predecessor foundAfter
    refine (inductionHypothesis foundMiddle).trans ?_
    rcases applyRequest_phase applied handle with same | moved
    · rw [same]
    · exact moved.issued_le

/-- A live namespace stands until an accepted release or revocation, which ends its
generation. -/
theorem Linked.live_iff (linked : Linked externals system) {handle : String}
    {first last : Nat} (ordered : first ≤ last) {before after : StateMachineData}
    (foundBefore : system.states[first]? = some before)
    (foundAfter : system.states[last]? = some after) {live : Namespace}
    (stands : before.namespaces[handle]? = some live) :
    Between system.log first last (ReleasesHandle handle) ∧
        (handlePhase after handle).Ended live.generation ∨
      ¬ Between system.log first last (ReleasesHandle handle) ∧
        after.namespaces[handle]? = some live := by
  induction last, ordered using Nat.le_induction generalizing after with
  | base =>
    obtain rfl := Option.some.inj (foundBefore.symm.trans foundAfter)
    exact Or.inr ⟨between_self _ _ _, stands⟩
  | succ last ordered inductionHypothesis =>
    obtain ⟨now, request, response, middle, entry, foundMiddle, applied⟩ :=
      linked.predecessor foundAfter
    rw [between_succ ordered entry]
    rcases inductionHypothesis foundMiddle with ⟨released, ended⟩ | ⟨kept, still⟩
    · have stepped : requestStep externals middle (now, request) = some after :=
        requestStep_eq_some.mpr ⟨response, applied⟩
      exact Or.inl ⟨Or.inl released, requestStep_ended stepped ended⟩
    · rcases applyRequest_live_iff applied still with ⟨releases, ended⟩ | ⟨keeps, same⟩
      · exact Or.inl ⟨Or.inr releases, ended⟩
      · exact Or.inr ⟨not_or.mpr ⟨kept, keeps⟩, same⟩

end LoggedSystem

/-! ### Handles that nothing moves -/

/-- The request was accepted and claims, releases or revokes the handle. -/
def MovesHandle (handle : String) (entry : Request × Response) : Prop :=
  ReleasesHandle handle entry ∨
    ∃ owner ownerLabel actor adminOverride now,
      entry.1 = .namespaces (.claim handle owner ownerLabel actor adminOverride now) ∧
        entry.2.isError = false

/-- A claim of a live handle is refused. -/
theorem not_movesHandle_of_live {externals : Externals} {now : Nat}
    {data next : StateMachineData} {request : Request} {response : Response}
    (applied : applyRequest externals now data request = .ok (next, response)) {handle : String}
    {live : Namespace} (found : data.namespaces[handle]? = some live)
    (keeps : ¬ ReleasesHandle handle (request, response)) :
    ¬ MovesHandle handle (request, response) := by
  rintro (releases | ⟨owner, ownerLabel, actor, adminOverride, claimedAt, same, accepted⟩)
  · exact keeps releases
  · cases same
    obtain ⟨answer, outcome, rfl⟩ := applyNamespace_of_applied applied
    cases (applyNamespace_effect outcome).2 with
    | kept sameNamespaces sameReleased refused =>
      obtain ⟨error, rfl⟩ := refused rfl
      exact absurd accepted (by simp only [toResponse, isError_errorToResponse]; decide)
    | claimed valid unreserved unclaimed assigned namespacesEq releasedEq =>
      exact absurd (unclaimed.symm.trans found) (Option.some_ne_none live).symm
    | released asked lookup contentless namespacesEq releasedEq recorded =>
      rcases asked with ⟨_, _, _, impossible⟩ | ⟨_, _, impossible⟩ <;> cases impossible

theorem applyRequest_unmoved {externals : Externals} {now : Nat} {data next : StateMachineData}
    {request : Request} {response : Response}
    (applied : applyRequest externals now data request = .ok (next, response)) {handle : String}
    (keeps : ¬ MovesHandle handle (request, response)) :
    next.namespaces[handle]? = data.namespaces[handle]? := by
  cases found : data.namespaces[handle]? with
  | some live =>
    rcases applyRequest_live_iff applied found with ⟨releases, _⟩ | ⟨_, same⟩
    · exact absurd (Or.inl releases) keeps
    · exact same
  | none =>
    have framed := congrArg StateMachineData.namespaces (applyRequest_frame applied)
    cases request with
    | namespaces inner =>
      obtain ⟨answer, outcome, rfl⟩ := applyNamespace_of_applied applied
      cases (applyNamespace_effect outcome).2 with
      | kept sameNamespaces sameReleased refused =>
        exact (congrArg (·[handle]?) sameNamespaces).trans found
      | @claimed _ claimed owner ownerLabel actor adminOverride claimedAt _ valid unreserved
          unclaimed assigned namespacesEq releasedEq =>
        have namespacesAt := congrArg (·[handle]?) namespacesEq
        simp only [BTreeMap.getElem?_insert] at namespacesAt
        have different : claimed ≠ handle := by
          rintro rfl
          exact keeps (Or.inr ⟨owner, ownerLabel, actor, adminOverride, claimedAt, rfl, rfl⟩)
        rw [if_neg different] at namespacesAt
        exact namespacesAt.trans found
      | released asked lookup contentless namespacesEq releasedEq recorded =>
        have namespacesAt := congrArg (·[handle]?) namespacesEq
        simp only [BTreeMap.getElem?_erase] at namespacesAt
        refine namespacesAt.trans ?_
        split
        · rfl
        · exact found
    | _ => exact (congrArg (·[handle]?) framed).trans found

namespace LoggedSystem

variable {Call Stage : Type} {externals : Externals} {system : LoggedSystem Call Stage}

theorem Linked.unmoved (linked : Linked externals system) {handle : String} {first last : Nat}
    (ordered : first ≤ last) {before after : StateMachineData}
    (foundBefore : system.states[first]? = some before)
    (foundAfter : system.states[last]? = some after)
    (keeps : ¬ Between system.log first last (MovesHandle handle)) :
    after.namespaces[handle]? = before.namespaces[handle]? := by
  induction last, ordered using Nat.le_induction generalizing after with
  | base => rw [Option.some.inj (foundBefore.symm.trans foundAfter)]
  | succ last ordered inductionHypothesis =>
    obtain ⟨now, request, response, middle, entry, foundMiddle, applied⟩ :=
      linked.predecessor foundAfter
    rw [between_succ ordered entry, not_or] at keeps
    rw [applyRequest_unmoved applied keeps.2, inductionHypothesis foundMiddle keeps.1]

/-- Between two states that a handle is live in, in one generation, nothing moves it. -/
theorem Linked.not_moved (linked : Linked externals system) {handle : String} {first last : Nat}
    (ordered : first ≤ last) {before after : StateMachineData}
    (foundBefore : system.states[first]? = some before)
    (foundAfter : system.states[last]? = some after) {live current : Namespace}
    (stood : before.namespaces[handle]? = some live)
    (stands : after.namespaces[handle]? = some current)
    (same : current.generation = live.generation) :
    ¬ Between system.log first last (MovesHandle handle) := by
  have kept : ¬ Between system.log first last (ReleasesHandle handle) := by
    rcases linked.live_iff ordered foundBefore foundAfter stood with ⟨_, ended⟩ | ⟨kept, _⟩
    · rw [handlePhase_of_live stands, same] at ended
      exact absurd ended (Nat.lt_irrefl _)
    · exact kept
  rintro ⟨index, ⟨request, response⟩, below, above, entry, moves⟩
  obtain ⟨time, middle, next, foundMiddle, _, applied⟩ :=
    linked.applied index request response entry
  have keeps : ¬ ReleasesHandle handle (request, response) := fun releases =>
    kept ⟨index, _, below, above, entry, releases⟩
  rcases linked.live_iff below foundBefore foundMiddle stood with ⟨released, _⟩ | ⟨_, lookup⟩
  · obtain ⟨earlier, other, after, before, found, releases⟩ := released
    exact kept ⟨earlier, other, after, before.trans above, found, releases⟩
  · exact not_movesHandle_of_live applied lookup keeps moves

end LoggedSystem

end Layerhouse
