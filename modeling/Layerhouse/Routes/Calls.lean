/-
This file is what calls of the server's routes have in common when they run among
the commits of the cluster. A call goes through stages; each stage ends with a
read of the metadata or with a commit. A read is answered by the node that serves
the call, which may have applied fewer requests than were committed, so it is
answered by some state of the history.

What holds of a call in its stage is a predicate that further commits keep. The
lemmas carry such a predicate through the operations that the steps of a system
are made of.
-/

import Layerhouse.Raft.Effects

namespace Layerhouse

/-- The data after each committed request, the latest first, and the calls that are under way. -/
structure CallSystem (Call Stage : Type) where
  history : List StateMachineData
  calls : Nat → Option (Call × Stage)

namespace CallSystem

variable {Call Stage : Type}

/-- A new cluster without calls. -/
def initial : CallSystem Call Stage where
  history := [StateMachineData.empty]
  calls := fun _ => none

/-- The data after all committed requests. -/
def data (system : CallSystem Call Stage) : StateMachineData :=
  system.history.headD StateMachineData.empty

def setCall (system : CallSystem Call Stage) (id : Nat) (call : Option (Call × Stage)) :
    CallSystem Call Stage :=
  { system with calls := Function.update system.calls id call }

def commit (system : CallSystem Call Stage) (next : StateMachineData) : CallSystem Call Stage :=
  { system with history := next :: system.history }

/-- A call whose stage failed is answered with the error and over. -/
def continueWith (system : CallSystem Call Stage) (id : Nat) (call : Call)
    (outcome : Except LayerhouseError Stage) : CallSystem Call Stage :=
  match outcome with
  | .ok stage => system.setCall id (some (call, stage))
  | .error _ => system.setCall id none

theorem continueWith_history (system : CallSystem Call Stage) (id : Nat) (call : Call)
    (outcome : Except LayerhouseError Stage) :
    (system.continueWith id call outcome).history = system.history := by
  unfold continueWith
  cases outcome <;> rfl

theorem calls_setCall {system : CallSystem Call Stage} {id other : Nat}
    {called : Option (Call × Stage)} {call : Call} {stage : Stage}
    (found : (system.setCall id called).calls other = some (call, stage)) :
    other = id ∧ called = some (call, stage) ∨
      other ≠ id ∧ system.calls other = some (call, stage) := by
  simp only [CallSystem.setCall, Function.update_apply] at found
  split at found
  next same => exact Or.inl ⟨same, found⟩
  next differ => exact Or.inr ⟨differ, found⟩

theorem calls_continueWith {system : CallSystem Call Stage} {id other : Nat} {call called : Call}
    {outcome : Except LayerhouseError Stage} {stage : Stage}
    (found : (system.continueWith id call outcome).calls other = some (called, stage)) :
    (other = id ∧ called = call ∧ outcome = .ok stage) ∨
      other ≠ id ∧ system.calls other = some (called, stage) := by
  cases outcome with
  | error error =>
    rcases calls_setCall found with ⟨_, impossible⟩ | kept
    · cases impossible
    · exact Or.inr kept
  | ok reached =>
    rcases calls_setCall found with ⟨same, new⟩ | kept
    · cases new
      exact Or.inl ⟨same, rfl, rfl⟩
    · exact Or.inr kept

/-- Every call satisfies what `sound` says about its stage. -/
def Tracks (sound : List StateMachineData → Call → Stage → Prop)
    (system : CallSystem Call Stage) : Prop :=
  ∀ id call stage, system.calls id = some (call, stage) → sound system.history call stage

variable {sound : List StateMachineData → Call → Stage → Prop} {system : CallSystem Call Stage}

theorem tracks_initial : Tracks sound initial :=
  fun _ _ _ impossible => by cases impossible

theorem Tracks.commit (tracks : Tracks sound system)
    (lasts : ∀ history call stage next, sound history call stage →
      sound (next :: history) call stage) (next : StateMachineData) :
    Tracks sound (system.commit next) :=
  fun id call stage found => lasts _ _ _ next (tracks id call stage found)

theorem Tracks.setCall (tracks : Tracks sound system) (id : Nat) {called : Option (Call × Stage)}
    (sounds : ∀ call stage, called = some (call, stage) → sound system.history call stage) :
    Tracks sound (system.setCall id called) := by
  intro other call stage found
  simp only [CallSystem.setCall, Function.update_apply] at found
  split at found
  · exact sounds call stage found
  · exact tracks other call stage found

theorem Tracks.endCall (tracks : Tracks sound system) (id : Nat) :
    Tracks sound (system.setCall id none) :=
  tracks.setCall id fun _ _ impossible => by cases impossible

theorem Tracks.continueWith (tracks : Tracks sound system) (id : Nat) (call : Call)
    {outcome : Except LayerhouseError Stage}
    (sounds : ∀ stage, outcome = .ok stage → sound system.history call stage) :
    Tracks sound (system.continueWith id call outcome) := by
  unfold CallSystem.continueWith
  cases outcome with
  | error error => exact tracks.endCall id
  | ok stage =>
    refine tracks.setCall id fun other otherStage same => ?_
    cases same
    exact sounds stage rfl

/-! ### What holds of every state of the history -/

/-- Every state of the history has the property, and the latest one is one of them. -/
structure Remembers (property : StateMachineData → Prop) (system : CallSystem Call Stage) :
    Prop where
  always : ∀ past ∈ system.history, property past
  present : system.data ∈ system.history

theorem remembers_initial {property : StateMachineData → Prop}
    (initially : property StateMachineData.empty) :
    Remembers property (initial : CallSystem Call Stage) where
  always := by
    intro past member
    rw [List.mem_singleton.mp member]
    exact initially
  present := List.mem_singleton.mpr rfl

theorem Remembers.commit {property : StateMachineData → Prop} {externals : Externals}
    {label : Nat × Request} {next : StateMachineData} (remembers : Remembers property system)
    (stepped : requestStep externals system.data label = some next)
    (preserved : ∀ now data after request response,
      applyRequest externals now data request = .ok (after, response) → property data →
        property after) :
    Remembers property (system.commit next) where
  always := by
    intro past member
    rcases List.mem_cons.mp member with rfl | earlier
    · obtain ⟨response, applied⟩ := requestStep_eq_some.mp stepped
      exact preserved _ _ _ _ _ applied (remembers.always system.data remembers.present)
    · exact remembers.always past earlier
  present := List.mem_cons_self

end CallSystem

end Layerhouse
