/-
This file holds the rules for computations that change a state and may fail: the
programs of `EStateM`, where a failure keeps the changes made before it. What a
computation does is stated with two predicates, one for the value and the state
it returns and one for the failure and the state it stops in. There is one rule
for each way of putting computations together, so a proof follows the program.
-/

import Mathlib

namespace Layerhouse

variable {Failure OtherFailure State Value Result : Type}

/-- From the state `start` the computation returns as `done` says or fails as `failed` says. -/
def Ends (program : EStateM Failure State Value) (start : State) (done : Value → State → Prop)
    (failed : Failure → State → Prop) : Prop :=
  match program start with
  | .ok value final => done value final
  | .error failure final => failed failure final

variable {program : EStateM Failure State Value} {start final : State}
  {done : Value → State → Prop} {failed : Failure → State → Prop}

theorem Ends.of_ok (ends : Ends program start done failed) {value : Value}
    (returned : program start = .ok value final) : done value final := by
  rw [Ends, returned] at ends
  exact ends

theorem Ends.of_error (ends : Ends program start done failed) {failure : Failure}
    (stopped : program start = .error failure final) : failed failure final := by
  rw [Ends, stopped] at ends
  exact ends

/-- What holds of every way to end holds. -/
theorem Ends.of_outcomes
    (returns : ∀ value final, program start = .ok value final → done value final)
    (stops : ∀ failure final, program start = .error failure final → failed failure final) :
    Ends program start done failed := by
  rw [Ends]
  cases outcome : program start with
  | ok value final => exact returns value final outcome
  | error failure final => exact stops failure final outcome

theorem Ends.imp (ends : Ends program start done failed) {weakerDone : Value → State → Prop}
    {weakerFailed : Failure → State → Prop}
    (returns : ∀ value final, done value final → weakerDone value final)
    (stops : ∀ failure final, failed failure final → weakerFailed failure final) :
    Ends program start weakerDone weakerFailed :=
  .of_outcomes (fun value final returned => returns value final (ends.of_ok returned))
    fun failure final stopped => stops failure final (ends.of_error stopped)

theorem ends_pure {value : Value} :
    Ends (pure value : EStateM Failure State Value) start done failed ↔ done value start :=
  Iff.rfl

theorem ends_throw {failure : Failure} :
    Ends (throw failure : EStateM Failure State Value) start done failed ↔
      failed failure start :=
  Iff.rfl

theorem Ends.bind {next : Value → EStateM Failure State Result}
    {finished : Result → State → Prop}
    (ends : Ends program start
      (fun value middle => Ends (next value) middle finished failed) failed) :
    Ends (program >>= next) start finished failed := by
  rw [Ends] at ends ⊢
  rw [show (program >>= next) start = match program start with
    | .ok value middle => next value middle
    | .error failure middle => .error failure middle from rfl]
  cases outcome : program start with
  | ok value middle =>
    rw [outcome] at ends
    exact ends
  | error failure middle =>
    rw [outcome] at ends
    exact ends

theorem bind_eq_of_ok {next : Value → EStateM Failure State Result} {value : Value}
    (returned : program start = .ok value final) :
    (program >>= next) start = next value final := by
  show EStateM.bind program next start = _
  rw [EStateM.bind, returned]

theorem bind_eq_of_error {next : Value → EStateM Failure State Result} {failure : Failure}
    (stopped : program start = .error failure final) :
    (program >>= next) start = .error failure final := by
  show EStateM.bind program next start = _
  rw [EStateM.bind, stopped]

/-- A computation whose failures are reported as others. -/
theorem Ends.adaptExcept {report : Failure → OtherFailure} {failed : OtherFailure → State → Prop}
    (ends : Ends program start done fun failure => failed (report failure)) :
    Ends (EStateM.adaptExcept report program) start done failed := by
  refine .of_outcomes (fun value final returned => ?_) fun failure final stopped => ?_
  · simp only [EStateM.adaptExcept] at returned
    cases outcome : program start with
    | ok other middle =>
      rw [outcome] at returned
      obtain ⟨rfl, rfl⟩ := EStateM.Result.ok.inj returned
      exact ends.of_ok outcome
    | error other middle =>
      rw [outcome] at returned
      exact nomatch returned
  · simp only [EStateM.adaptExcept] at stopped
    cases outcome : program start with
    | ok other middle =>
      rw [outcome] at stopped
      exact nomatch stopped
    | error other middle =>
      rw [outcome] at stopped
      obtain ⟨rfl, rfl⟩ := EStateM.Result.error.inj stopped
      exact ends.of_error outcome

/-- The computation with its value and its failure thrown away. -/
def ignore (program : EStateM Failure State Value) : EStateM OtherFailure State Unit :=
  fun start =>
    match program start with
    | .ok _ final | .error _ final => .ok () final

theorem Ends.ignore {reached : State → Prop} {failed : OtherFailure → State → Prop}
    (ends : Ends program start (fun _ => reached) fun _ => reached) :
    Ends (Layerhouse.ignore program) start (fun _ => reached) failed := by
  rw [Ends, Layerhouse.ignore]
  cases outcome : program start with
  | ok value final => exact ends.of_ok outcome
  | error failure final => exact ends.of_error outcome

/-! ### Logs -/

variable {Entry : Type} {noteOf : Except Failure Value → List Entry}

/-- The computation on a state with a log, in which it notes its outcome. The log has the latest
entry first. -/
def noted (noteOf : Except Failure Value → List Entry) (program : EStateM Failure State Value) :
    EStateM Failure (State × List Entry) Value := fun start =>
  match program start.1 with
  | .ok value final => .ok value (final, noteOf (.ok value) ++ start.2)
  | .error failure final => .error failure (final, noteOf (.error failure) ++ start.2)

theorem ends_noted {log : List Entry} {done : Value → State × List Entry → Prop}
    {failed : Failure → State × List Entry → Prop}
    (returns : ∀ value final, program start = .ok value final →
      done value (final, noteOf (.ok value) ++ log))
    (stops : ∀ failure final, program start = .error failure final →
      failed failure (final, noteOf (.error failure) ++ log)) :
    Ends (noted noteOf program) (start, log) done failed := by
  rw [Ends, noted]
  cases outcome : program start with
  | ok value final => exact returns value final outcome
  | error failure final => exact stops failure final outcome

/-- The outcome without the log. -/
def forgetLog : EStateM.Result Failure (State × List Entry) Value →
    EStateM.Result Failure State Value
  | .ok value final => .ok value final.1
  | .error failure final => .error failure final.1

/-- Without the log the first computation is the second, whatever the log is at the start. -/
def Forgets (logged : EStateM Failure (State × List Entry) Value)
    (program : EStateM Failure State Value) : Prop :=
  ∀ start log, forgetLog (logged (start, log)) = program start

theorem forgets_noted (program : EStateM Failure State Value) :
    Forgets (noted noteOf program) program := by
  intro start log
  rw [noted]
  cases program start with
  | ok value final => rfl
  | error failure final => rfl

theorem forgets_pure (value : Value) :
    Forgets (pure value : EStateM Failure (State × List Entry) Value) (pure value) :=
  fun _ _ => rfl

theorem forgets_throw (failure : Failure) :
    Forgets (throw failure : EStateM Failure (State × List Entry) Value) (throw failure) :=
  fun _ _ => rfl

variable {logged : EStateM Failure (State × List Entry) Value}

theorem Forgets.bind (forgets : Forgets logged program)
    {nextLogged : Value → EStateM Failure (State × List Entry) Result}
    {next : Value → EStateM Failure State Result}
    (nexts : ∀ value, Forgets (nextLogged value) (next value)) :
    Forgets (logged >>= nextLogged) (program >>= next) := by
  intro start log
  have first := forgets start log
  show forgetLog (EStateM.bind logged nextLogged (start, log)) = EStateM.bind program next start
  rw [EStateM.bind, EStateM.bind, ← first]
  cases logged (start, log) with
  | ok value middle => exact nexts value middle.1 middle.2
  | error failure middle => rfl

theorem Forgets.ite {condition : Prop} [Decidable condition]
    {otherLogged : EStateM Failure (State × List Entry) Value}
    {other : EStateM Failure State Value} (forgets : Forgets logged program)
    (others : Forgets otherLogged other) :
    Forgets (if condition then logged else otherLogged)
      (if condition then program else other) := by
  split
  · exact forgets
  · exact others

theorem Forgets.adaptExcept (forgets : Forgets logged program)
    (report : Failure → OtherFailure) :
    Forgets (EStateM.adaptExcept report logged) (EStateM.adaptExcept report program) := by
  intro start log
  have first := forgets start log
  simp only [EStateM.adaptExcept]
  rw [← first]
  cases logged (start, log) with
  | ok value final => rfl
  | error failure final => rfl

theorem Forgets.ignore (forgets : Forgets logged program) :
    Forgets (Layerhouse.ignore logged : EStateM OtherFailure (State × List Entry) Unit)
      (Layerhouse.ignore program) := by
  intro start log
  have first := forgets start log
  rw [Layerhouse.ignore, Layerhouse.ignore, ← first]
  cases logged (start, log) with
  | ok value final => rfl
  | error failure final => rfl

end Layerhouse
