/-
This file holds the transition systems of the development. A system is a partial
step function: `step state label` is the next state, or `none` when the label is
not enabled. A run folds the step function over a list of labels, so a concrete
schedule can be replayed, and an invariant that one step preserves holds after
every run.

A condition on steps (a property of the state before the step and of the label)
is lifted to runs by `Along`: every step of the run meets it. Results that hold
only while a condition holds are proved with the same two rules.
-/

import Mathlib

namespace Layerhouse

variable {State Label : Type}

/-- The state after the labels of a list, in order; `none` when some step is not enabled. -/
def run (step : State → Label → Option State) : State → List Label → Option State
  | state, [] => some state
  | state, label :: rest => (step state label).bind (run step · rest)

/-- Every step of the run meets `meets`, a condition on the state before the step and the
label. -/
def Along (step : State → Label → Option State) (meets : State → Label → Prop) :
    State → List Label → Prop
  | _, [] => True
  | state, label :: rest =>
    meets state label ∧ ∀ next, step state label = some next → Along step meets next rest

/-- A condition that can be checked at each step can be checked along a run. -/
instance Along.decidable (step : State → Label → Option State) (meets : State → Label → Prop)
    [∀ state label, Decidable (meets state label)] :
    (state : State) → (labels : List Label) → Decidable (Along step meets state labels)
  | _, [] => isTrue trivial
  | state, label :: rest =>
    match stepped : step state label with
    | none => decidable_of_iff (meets state label) (by simp [Along, stepped])
    | some next =>
      have := Along.decidable step meets next rest
      decidable_of_iff (meets state label ∧ Along step meets next rest)
        (by simp [Along, stepped])

variable {step : State → Label → Option State} {meets : State → Label → Prop}

theorem run_cons_eq_some {state final : State} {label : Label} {rest : List Label} :
    run step state (label :: rest) = some final ↔
      ∃ next, step state label = some next ∧ run step next rest = some final :=
  Option.bind_eq_some_iff

theorem run_append (first second : List Label) (state : State) :
    run step state (first ++ second) = (run step state first).bind (run step · second) := by
  induction first generalizing state with
  | nil => rfl
  | cons label rest inductionHypothesis =>
    rw [List.cons_append, run, run, Option.bind_assoc]
    exact congrArg _ (funext inductionHypothesis)

theorem run_append_eq_some {first second : List Label} {state final : State} :
    run step state (first ++ second) = some final ↔
      ∃ middle, run step state first = some middle ∧ run step middle second = some final := by
  rw [run_append]
  exact Option.bind_eq_some_iff

/-- A step-invariant property holds after every run that starts in it. -/
theorem run_invariant (invariant : State → Prop)
    (preserved : ∀ state label next, step state label = some next →
      invariant state → invariant next)
    {state final : State} {labels : List Label} (reached : run step state labels = some final)
    (initially : invariant state) : invariant final := by
  induction labels generalizing state with
  | nil =>
    cases reached
    exact initially
  | cons label rest inductionHypothesis =>
    obtain ⟨next, stepped, continued⟩ := run_cons_eq_some.mp reached
    exact inductionHypothesis continued (preserved state label next stepped initially)

/-- A property that every step meeting the condition preserves holds after every run whose
steps all meet it. -/
theorem run_invariant_along (invariant : State → Prop)
    (preserved : ∀ state label next, step state label = some next → meets state label →
      invariant state → invariant next)
    {state final : State} {labels : List Label} (reached : run step state labels = some final)
    (along : Along step meets state labels) (initially : invariant state) :
    invariant final := by
  induction labels generalizing state with
  | nil =>
    cases reached
    exact initially
  | cons label rest inductionHypothesis =>
    obtain ⟨next, stepped, continued⟩ := run_cons_eq_some.mp reached
    exact inductionHypothesis continued (along.2 next stepped)
      (preserved state label next stepped along.1 initially)

/-- A condition that every label of the list meets in every state holds along the run. -/
theorem along_of_forall {state : State} {labels : List Label}
    (always : ∀ label ∈ labels, ∀ state, meets state label) : Along step meets state labels := by
  induction labels generalizing state with
  | nil => trivial
  | cons label rest inductionHypothesis =>
    exact ⟨always label List.mem_cons_self state, fun next _ =>
      inductionHypothesis fun other member => always other (List.mem_cons_of_mem label member)⟩

/-- What an invariant and a condition imply at each step holds along the run. -/
theorem Along.derive {other : State → Label → Prop} (invariant : State → Prop)
    (preserved : ∀ state label next, step state label = some next → meets state label →
      invariant state → invariant next)
    (derived : ∀ state label, invariant state → meets state label → other state label)
    {state : State} {labels : List Label} (along : Along step meets state labels)
    (initially : invariant state) : Along step other state labels := by
  induction labels generalizing state with
  | nil => trivial
  | cons label rest inductionHypothesis =>
    exact ⟨derived state label initially along.1, fun next stepped =>
      inductionHypothesis (along.2 next stepped)
        (preserved state label next stepped along.1 initially)⟩

theorem Along.imp {other : State → Label → Prop} {state : State} {labels : List Label}
    (along : Along step meets state labels)
    (weaker : ∀ state label, meets state label → other state label) :
    Along step other state labels :=
  along.derive (fun _ => True) (fun _ _ _ _ _ _ => trivial)
    (fun state label _ => weaker state label) trivial

theorem Along.and {other : State → Label → Prop} {state : State} {labels : List Label}
    (first : Along step meets state labels) (second : Along step other state labels) :
    Along step (fun state label => meets state label ∧ other state label) state labels := by
  induction labels generalizing state with
  | nil => trivial
  | cons label rest inductionHypothesis =>
    exact ⟨⟨first.1, second.1⟩, fun next stepped =>
      inductionHypothesis (first.2 next stepped) (second.2 next stepped)⟩

/-- When a step of an invariant state keeps the invariant exactly if the step meets the condition,
the invariant holds in every state of a run exactly if all of its steps meet it. -/
theorem along_invariant_iff (invariant : State → Prop)
    (exactly : ∀ state label, invariant state →
      ((∀ next, step state label = some next → invariant next) ↔ meets state label))
    {state : State} {labels : List Label} (initially : invariant state) :
    Along step (fun state label => ∀ next, step state label = some next → invariant next) state
        labels ↔
      Along step meets state labels := by
  induction labels generalizing state with
  | nil => exact Iff.rfl
  | cons label rest inductionHypothesis =>
    rw [Along, Along, exactly state label initially]
    refine and_congr_right fun met => forall₂_congr fun next stepped => inductionHypothesis ?_
    exact (exactly state label initially).mpr met next stepped

/-- When a step keeps a property exactly if it meets the condition, the property holds after a run
that has reached a state exactly if it held at first and all steps of the run met the condition. -/
theorem run_property_iff {property : State → Prop} (invariant : State → Prop)
    (preserved : ∀ state label next, step state label = some next →
      invariant state → invariant next)
    (exactly : ∀ state label next, step state label = some next → invariant state →
      (property next ↔ property state ∧ meets state label))
    {state final : State} {labels : List Label} (reached : run step state labels = some final)
    (initially : invariant state) :
    property final ↔ property state ∧ Along step meets state labels := by
  induction labels generalizing state with
  | nil =>
    cases reached
    exact (and_iff_left trivial).symm
  | cons label rest inductionHypothesis =>
    obtain ⟨next, stepped, continued⟩ := run_cons_eq_some.mp reached
    have fromNext := inductionHypothesis continued (preserved state label next stepped initially)
    rw [fromNext, exactly state label next stepped initially, and_assoc, Along]
    refine and_congr_right fun _ => and_congr_right fun _ => ?_
    refine ⟨fun along other same => ?_, fun along => along next stepped⟩
    cases stepped.symm.trans same
    exact along

/-- Two conditions that say the same of the steps that are taken hold alike along a run that
reaches a state. -/
theorem along_iff_of_reached {other : State → Label → Prop} (invariant : State → Prop)
    (preserved : ∀ state label next, step state label = some next → meets state label →
      invariant state → invariant next)
    (agree : ∀ state label next, step state label = some next → invariant state →
      (meets state label ↔ other state label))
    {state final : State} {labels : List Label} (reached : run step state labels = some final)
    (initially : invariant state) :
    Along step meets state labels ↔ Along step other state labels := by
  induction labels generalizing state with
  | nil => exact Iff.rfl
  | cons label rest inductionHypothesis =>
    obtain ⟨next, stepped, continued⟩ := run_cons_eq_some.mp reached
    rw [Along, Along, ← agree state label next stepped initially]
    refine and_congr_right fun met => forall₂_congr fun after same => ?_
    cases stepped.symm.trans same
    exact inductionHypothesis continued (preserved state label next stepped met initially)

theorem along_append {state : State} {first second : List Label} :
    Along step meets state (first ++ second) ↔ Along step meets state first ∧
      ∀ middle, run step state first = some middle → Along step meets middle second := by
  induction first generalizing state with
  | nil =>
    refine ⟨fun along => ⟨trivial, fun middle reached => ?_⟩, fun along => along.2 state rfl⟩
    cases reached
    exact along
  | cons label rest inductionHypothesis =>
    rw [List.cons_append, Along, Along, and_assoc]
    refine and_congr_right fun _ => ⟨fun later => ⟨fun next stepped => ?_, ?_⟩, ?_⟩
    · exact (inductionHypothesis.mp (later next stepped)).1
    · intro middle reached
      obtain ⟨next, stepped, continued⟩ := run_cons_eq_some.mp reached
      exact (inductionHypothesis.mp (later next stepped)).2 middle continued
    · intro ⟨ofFirst, ofSecond⟩ next stepped
      refine inductionHypothesis.mpr ⟨ofFirst next stepped, fun middle continued => ?_⟩
      exact ofSecond middle (run_cons_eq_some.mpr ⟨next, stepped, continued⟩)

theorem along_take {state : State} {labels : List Label}
    (along : Along step meets state labels) (count : Nat) :
    Along step meets state (labels.take count) := by
  induction labels generalizing state count with
  | nil =>
    rw [List.take_nil]
    trivial
  | cons label rest inductionHypothesis =>
    cases count with
    | zero => trivial
    | succ count =>
      exact ⟨along.1, fun next stepped => inductionHypothesis (along.2 next stepped) count⟩

end Layerhouse
