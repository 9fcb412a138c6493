/-
This file is about conditions on a step that look back at the run. A state does not
say how it was reached; whether a message has arrived since the last start, or what
was committed since the last read, is a matter of the labels before the step.
`AlongHistory` is `Along` for such conditions, and its rules are those of `Along`
for properties of a state together with the labels that led to it.
-/

import Layerhouse.Library.Runs

namespace Layerhouse

variable {State Label : Type}

/-- Every step of the run meets `meets`, a condition on the labels before the step, the state
before it and its label. -/
def AlongHistory (step : State → Label → Option State)
    (meets : List Label → State → Label → Prop) : List Label → State → List Label → Prop
  | _, _, [] => True
  | history, state, label :: rest =>
    meets history state label ∧ ∀ next, step state label = some next →
      AlongHistory step meets (history ++ [label]) next rest

variable {step : State → Label → Option State} {meets : List Label → State → Label → Prop}

theorem run_concat_eq_some {state final : State} {labels : List Label} {label : Label} :
    run step state (labels ++ [label]) = some final ↔
      ∃ middle, run step state labels = some middle ∧ step middle label = some final := by
  rw [run_append_eq_some]
  refine exists_congr fun middle => and_congr_right fun _ => ?_
  rw [run, Option.bind_eq_some_iff]
  constructor
  · rintro ⟨next, stepped, ended⟩
    cases ended
    exact stepped
  · intro stepped
    exact ⟨final, stepped, rfl⟩

/-- The labels of a list with one more behind are cut behind the last one or in front of it. -/
theorem concat_eq_append_cons_iff {labels before after : List Label} {last label : Label} :
    labels ++ [last] = before ++ label :: after ↔
      (after = [] ∧ before = labels ∧ label = last) ∨
        ∃ middle, after = middle ++ [last] ∧ labels = before ++ label :: middle := by
  rcases List.eq_nil_or_concat after with rfl | ⟨middle, other, rfl⟩
  · constructor
    · intro same
      obtain ⟨rfl, rest⟩ := List.append_inj' same rfl
      exact Or.inl ⟨rfl, rfl, (List.head_eq_of_cons_eq rest).symm⟩
    · rintro (⟨_, rfl, rfl⟩ | ⟨middle, absurdly, _⟩)
      · rfl
      · exact absurd absurdly.symm (List.append_ne_nil_of_right_ne_nil _ (List.cons_ne_nil _ _))
  · rw [List.concat_eq_append]
    constructor
    · intro same
      rw [← List.cons_append, ← List.append_assoc] at same
      obtain ⟨restEq, lastEq⟩ := List.append_inj' same rfl
      exact Or.inr ⟨middle, by rw [List.head_eq_of_cons_eq lastEq], restEq⟩
    · rintro (⟨absurdly, _⟩ | ⟨found, afterEq, rfl⟩)
      · exact absurd absurdly (List.append_ne_nil_of_right_ne_nil _ (List.cons_ne_nil _ _))
      · rw [afterEq]
        simp

/-- A property of a state and the labels before it that every step meeting the condition preserves
holds after every run whose steps all meet it. -/
theorem run_invariant_alongHistory {start : State} (invariant : List Label → State → Prop)
    (preserved : ∀ history state label next, run step start history = some state →
      step state label = some next → meets history state label → invariant history state →
      invariant (history ++ [label]) next)
    {history labels : List Label} {state final : State}
    (before : run step start history = some state) (reached : run step state labels = some final)
    (along : AlongHistory step meets history state labels) (initially : invariant history state) :
    invariant (history ++ labels) final := by
  induction labels generalizing history state with
  | nil =>
    cases reached
    rw [List.append_nil]
    exact initially
  | cons label rest inductionHypothesis =>
    obtain ⟨next, stepped, continued⟩ := run_cons_eq_some.mp reached
    rw [← List.singleton_append, ← List.append_assoc]
    exact inductionHypothesis (run_concat_eq_some.mpr ⟨state, before, stepped⟩) continued
      (along.2 next stepped) (preserved history state label next before stepped along.1 initially)

/-- Where an invariant makes a condition on the history one on the state, the two hold along the
same runs. -/
theorem alongHistory_iff_along {start : State} {other : State → Label → Prop}
    (invariant : List Label → State → Prop)
    (preserved : ∀ history state label next, run step start history = some state →
      step state label = some next → invariant history state →
      invariant (history ++ [label]) next)
    (agree : ∀ history state label, invariant history state →
      (meets history state label ↔ other state label))
    {history labels : List Label} {state : State} (before : run step start history = some state)
    (initially : invariant history state) :
    AlongHistory step meets history state labels ↔ Along step other state labels := by
  induction labels generalizing history state with
  | nil => exact Iff.rfl
  | cons label rest inductionHypothesis =>
    rw [AlongHistory, Along, agree history state label initially]
    refine and_congr_right fun _ => forall₂_congr fun next stepped => ?_
    exact inductionHypothesis (run_concat_eq_some.mpr ⟨state, before, stepped⟩)
      (preserved history state label next before stepped initially)

/-- A condition that every label of the list meets after every history holds along the run. -/
theorem alongHistory_of_forall {history labels : List Label} {state : State}
    (always : ∀ label ∈ labels, ∀ history state, meets history state label) :
    AlongHistory step meets history state labels := by
  induction labels generalizing history state with
  | nil => trivial
  | cons label rest inductionHypothesis =>
    exact ⟨always label List.mem_cons_self history state, fun next _ =>
      inductionHypothesis fun other member => always other (List.mem_cons_of_mem label member)⟩

theorem alongHistory_append {history first second : List Label} {state : State}
    (ofFirst : AlongHistory step meets history state first)
    (ofSecond : ∀ middle, run step state first = some middle →
      AlongHistory step meets (history ++ first) middle second) :
    AlongHistory step meets history state (first ++ second) := by
  induction first generalizing history state with
  | nil =>
    have direct := ofSecond state rfl
    rwa [List.append_nil] at direct
  | cons label rest inductionHypothesis =>
    refine ⟨ofFirst.1, fun next stepped => ?_⟩
    refine inductionHypothesis (ofFirst.2 next stepped) fun middle continued => ?_
    rw [List.append_assoc]
    exact ofSecond middle (run_cons_eq_some.mpr ⟨next, stepped, continued⟩)

theorem alongHistory_take {history labels : List Label} {state : State}
    (along : AlongHistory step meets history state labels) (count : Nat) :
    AlongHistory step meets history state (labels.take count) := by
  induction labels generalizing history state count with
  | nil =>
    rw [List.take_nil]
    trivial
  | cons label rest inductionHypothesis =>
    cases count with
    | zero => trivial
    | succ count =>
      exact ⟨along.1, fun next stepped => inductionHypothesis (along.2 next stepped) count⟩

end Layerhouse
