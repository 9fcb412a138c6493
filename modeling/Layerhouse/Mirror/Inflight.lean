/-
This file is the de-duplication of pulls of `mirror/mod.rs`: the five kinds of
pull tasks share the map `inflight` from keys to `Notify` values. A task locks the
map and looks its key up. If nothing is there it puts its own `Notify` in, and is
the leader: it fetches, removes the key and wakes those who wait. If something is
there it unlocks the map and waits to be woken.

Pulls wedge in two ways. A leader that is cancelled while it fetches leaves its
key behind, and all later tasks wait for it. And a follower may start to wait
after its leader has woken those who waited, since it has unlocked the map before.
The file proves that these are the only ways: in a run without them every key has
a leader that will remove it, and nobody waits for a leader that is through.

A `Notify` is named by the task that made it. The map is locked between a lookup
and the unlocking that follows, and a task can be cancelled where it awaits: before
it gets the lock, while it waits and while it fetches, not while it holds the lock.
-/

import Layerhouse.Library.BTreeMap
import Layerhouse.Library.Runs

namespace Layerhouse

/-! ### Tasks -/

inductive PullMode where
  | eager
  | lazy
deriving DecidableEq

def PullMode.dedupSegment : PullMode → String
  | .eager => "eager"
  | .lazy => "lazy"

inductive PullTask where
  | validateCachedProxyTag (cacheId repoName reference : String)
  | pullManifestFromProxyCache (mode : PullMode) (repoName reference : String)
  | pullManifestFromMirrorRule (mode : PullMode) (repoName reference : String)
  | pullBlobFromProxyCache (repoName digest : String)
  | pullBlobFromMirrorRule (digest : String)
deriving DecidableEq

def PullTask.dedupKey : PullTask → String
  | .validateCachedProxyTag cacheId repoName reference =>
    "proxy-cache:validate:" ++ cacheId ++ ":" ++ repoName ++ ":" ++ reference
  | .pullManifestFromProxyCache mode repoName reference =>
    "proxy-cache:" ++ mode.dedupSegment ++ ":" ++ repoName ++ ":" ++ reference
  | .pullManifestFromMirrorRule mode repoName reference =>
    mode.dedupSegment ++ ":" ++ repoName ++ ":" ++ reference
  | .pullBlobFromProxyCache repoName digest => "proxy-cache:blob:" ++ repoName ++ ":" ++ digest
  | .pullBlobFromMirrorRule digest => "blob:" ++ digest

inductive PullStage where
  /-- Asks for the lock. -/
  | arrived
  /-- Holds the lock and has found the `Notify` of a leader. -/
  | found (leader : Nat)
  /-- Holds the lock and has put its own `Notify` in. -/
  | inserted
  /-- Has given the lock back and does not wait yet. -/
  | unlocked (leader : Nat)
  | waiting (leader : Nat)
  | woken
  | fetching
  /-- Asks for the lock to remove its key. -/
  | fetched
  /-- Has removed its key and woken those who waited. -/
  | notified
  | cancelled
deriving DecidableEq

namespace PullStage

/-- The task is a leader that has yet to remove its key. -/
def Leading : PullStage → Prop
  | inserted | fetching | fetched => True
  | _ => False

/-- The task is at an await point, where it can be dropped. -/
def awaits : PullStage → Bool
  | arrived | waiting _ | fetching | fetched => true
  | _ => false

end PullStage

structure PullSystem where
  lock : Option Nat
  inflight : BTreeMap String Nat
  tasks : Nat → Option (PullTask × PullStage)

namespace PullSystem

def initial : PullSystem where
  lock := none
  inflight := ∅
  tasks := fun _ => none

def setTask (system : PullSystem) (id : Nat) (task : PullTask) (stage : PullStage) :
    PullSystem :=
  { system with tasks := Function.update system.tasks id (some (task, stage)) }

/-- `notify_waiters`: those who wait for the leader are woken, and nobody else. -/
def notifyWaiters (system : PullSystem) (leader : Nat) : PullSystem :=
  { system with
    tasks := fun id =>
      (system.tasks id).map fun call =>
        if call.2 = .waiting leader then (call.1, .woken) else call }

end PullSystem

inductive PullLabel where
  | arrive (id : Nat) (task : PullTask)
  | lookUp (id : Nat)
  | unlock (id : Nat)
  | startWaiting (id : Nat)
  | fetch (id : Nat)
  | removeAndNotify (id : Nat)
  | cancel (id : Nat)

def pullStep (system : PullSystem) : PullLabel → Option PullSystem
  | .arrive id task =>
    match system.tasks id with
    | none => some (system.setTask id task .arrived)
    | some _ => none
  | .lookUp id =>
    match system.lock, system.tasks id with
    | none, some (task, .arrived) =>
      match system.inflight[task.dedupKey]? with
      | some leader => some { system.setTask id task (.found leader) with lock := some id }
      | none =>
        some { system.setTask id task .inserted with
          lock := some id
          inflight := system.inflight.insert task.dedupKey id }
    | _, _ => none
  | .unlock id =>
    match system.tasks id with
    | some (task, .found leader) =>
      some { system.setTask id task (.unlocked leader) with lock := none }
    | some (task, .inserted) => some { system.setTask id task .fetching with lock := none }
    | _ => none
  | .startWaiting id =>
    match system.tasks id with
    | some (task, .unlocked leader) => some (system.setTask id task (.waiting leader))
    | _ => none
  | .fetch id =>
    match system.tasks id with
    | some (task, .fetching) => some (system.setTask id task .fetched)
    | _ => none
  | .removeAndNotify id =>
    match system.lock, system.tasks id with
    | none, some (task, .fetched) =>
      let notified :=
        match system.inflight[task.dedupKey]? with
        | some leader => system.notifyWaiters leader
        | none => system
      some { notified.setTask id task .notified with
        inflight := system.inflight.erase task.dedupKey }
    | _, _ => none
  | .cancel id =>
    match system.tasks id with
    | some (task, stage) =>
      if stage.awaits then some (system.setTask id task .cancelled) else none
    | none => none

/-! ### Wedged pulls -/

namespace PullSystem

/-- The task is in a stage of which `holds` is true. -/
def At (system : PullSystem) (id : Nat) (holds : PullTask → PullStage → Prop) : Prop :=
  ∃ task stage, system.tasks id = some (task, stage) ∧ holds task stage

/-- The task is a live leader that will still remove the key. -/
def Leads (system : PullSystem) (id : Nat) (key : String) : Prop :=
  system.At id fun task stage => stage.Leading ∧ task.dedupKey = key

def WaitsFor (system : PullSystem) (id leader : Nat) : Prop :=
  system.At id fun _ stage => stage = .waiting leader

/-- The task has removed its key and woken those who waited. -/
def Notified (system : PullSystem) (id : Nat) : Prop :=
  system.At id fun _ stage => stage = .notified

/-- Every key has a live leader that will remove it, and nobody waits for a leader that has
already woken those who waited. -/
structure Unwedged (system : PullSystem) : Prop where
  led : ∀ key leader, system.inflight[key]? = some leader → ∃ id, system.Leads id key
  awaited : ∀ id leader, system.WaitsFor id leader → ¬ system.Notified leader

/-- No leader is cancelled, and a follower starts to wait before its leader wakes those who
wait. -/
def KeepsAwake (system : PullSystem) : PullLabel → Prop
  | .cancel id => ∀ task stage, system.tasks id = some (task, stage) →
      stage ≠ .fetching ∧ stage ≠ .fetched
  | .startWaiting id => ∀ task leader, system.tasks id = some (task, .unlocked leader) →
      ¬ system.Notified leader
  | _ => True

/-! ### One task -/

variable {system : PullSystem} {id other : Nat} {task : PullTask} {stage next : PullStage}
  {holds : PullTask → PullStage → Prop}

theorem at_of_tasks (found : system.tasks id = some (task, stage)) :
    system.At id holds ↔ holds task stage := by
  constructor
  · rintro ⟨_, _, same, holds⟩
    obtain ⟨rfl, rfl⟩ := Prod.mk.inj (Option.some.inj (found.symm.trans same))
    exact holds
  · exact fun holds => ⟨task, stage, found, holds⟩

theorem setTask_tasks (system : PullSystem) (id : Nat) (task : PullTask) (stage : PullStage) :
    (system.setTask id task stage).tasks id = some (task, stage) :=
  Function.update_self id _ system.tasks

theorem setTask_tasks_of_ne (system : PullSystem) (task : PullTask) (stage : PullStage)
    (different : other ≠ id) : (system.setTask id task stage).tasks other = system.tasks other :=
  Function.update_of_ne different _ system.tasks

theorem at_setTask_of_ne (different : other ≠ id) :
    (system.setTask id task stage).At other holds ↔ system.At other holds := by
  rw [At, setTask_tasks_of_ne system task stage different, At]

/-- A task that moves on without taking or giving up a lead leaves the pulls unwedged, unless it
starts to wait for a leader that is through. -/
theorem Unwedged.setTask (unwedged : system.Unwedged)
    (leads : ∀ key, system.Leads id key → stage.Leading ∧ task.dedupKey = key)
    (unnotified : stage ≠ .notified)
    (awaits : ∀ leader, stage = .waiting leader → ¬ system.Notified leader) :
    (system.setTask id task stage).Unwedged := by
  have notNotified : ∀ leader, ¬ system.Notified leader →
      ¬ (system.setTask id task stage).Notified leader := by
    intro leader before after
    by_cases same : leader = id
    · subst same
      exact unnotified ((at_of_tasks (setTask_tasks system leader task stage)).mp after)
    · exact before ((at_setTask_of_ne same).mp after)
  constructor
  · intro key leader present
    obtain ⟨live, leading⟩ := unwedged.led key leader present
    by_cases same : live = id
    · subst same
      exact ⟨live, (at_of_tasks (setTask_tasks system live task stage)).mpr (leads key leading)⟩
    · exact ⟨live, (at_setTask_of_ne same).mpr leading⟩
  · intro waiter leader waits
    refine notNotified leader ?_
    by_cases same : waiter = id
    · subst same
      exact awaits leader ((at_of_tasks (setTask_tasks system waiter task stage)).mp waits)
    · exact unwedged.awaited waiter leader ((at_setTask_of_ne same).mp waits)

/-! ### Leaders -/

/-- The key of a leader maps to that leader. -/
def Coherent (system : PullSystem) : Prop :=
  ∀ id key, system.Leads id key → system.inflight[key]? = some id

theorem Coherent.setTask (coherent : system.Coherent)
    (leads : stage.Leading → system.Leads id task.dedupKey) :
    (system.setTask id task stage).Coherent := by
  intro leader key leading
  by_cases same : leader = id
  · subst same
    obtain ⟨stays, rfl⟩ := (at_of_tasks (setTask_tasks system leader task stage)).mp leading
    exact coherent leader _ (leads stays)
  · exact coherent leader key ((at_setTask_of_ne same).mp leading)

/-- A task that puts its `Notify` in under a free key is the leader of that key. -/
theorem Coherent.insert (coherent : system.Coherent)
    (free : system.inflight[task.dedupKey]? = none) (lock : Option Nat) :
    Coherent { system.setTask id task .inserted with
      lock := lock
      inflight := system.inflight.insert task.dedupKey id } := by
  intro leader key leading
  rw [BTreeMap.getElem?_insert]
  by_cases same : leader = id
  · subst same
    obtain ⟨_, sameKey⟩ := (at_of_tasks (setTask_tasks system leader task .inserted)).mp leading
    rw [if_pos sameKey]
  · have held := coherent leader key ((at_setTask_of_ne same).mp leading)
    rw [if_neg, held]
    rintro rfl
    exact absurd (free.symm.trans held) (Option.some_ne_none leader).symm

theorem Unwedged.insert (unwedged : system.Unwedged)
    (arrived : system.tasks id = some (task, .arrived)) (lock : Option Nat) :
    Unwedged { system.setTask id task .inserted with
      lock := lock
      inflight := system.inflight.insert task.dedupKey id } := by
  have stays : ∀ other, (system.setTask id task .inserted).Notified other →
      system.Notified other := by
    intro other notified
    by_cases same : other = id
    · subst same
      exact nomatch (at_of_tasks (setTask_tasks system other task .inserted)).mp notified
    · exact (at_setTask_of_ne same).mp notified
  constructor
  · intro key leader present
    rw [BTreeMap.getElem?_insert] at present
    split at present
    · rename_i sameKey
      exact ⟨id, (at_of_tasks (setTask_tasks system id task .inserted)).mpr ⟨trivial, sameKey⟩⟩
    · obtain ⟨live, leading⟩ := unwedged.led key leader present
      have different : live ≠ id := by
        rintro rfl
        exact ((at_of_tasks arrived).mp leading).1
      exact ⟨live, (at_setTask_of_ne different).mpr leading⟩
  · intro waiter leader waits notified
    by_cases same : waiter = id
    · subst same
      exact nomatch (at_of_tasks (setTask_tasks system waiter task .inserted)).mp waits
    · exact unwedged.awaited waiter leader ((at_setTask_of_ne same).mp waits)
        (stays leader notified)

/-! ### Waking -/

theorem at_notifyWaiters (leader : Nat) :
    (system.notifyWaiters leader).At id holds ↔
      system.At id fun task stage =>
        holds task (if stage = .waiting leader then .woken else stage) := by
  constructor
  · rintro ⟨task, stage, found, holds⟩
    obtain ⟨⟨before, old⟩, stored, moved⟩ := Option.map_eq_some_iff.mp found
    refine ⟨before, old, stored, ?_⟩
    split at moved
    · rename_i waits
      obtain ⟨rfl, rfl⟩ := Prod.mk.inj moved
      rw [if_pos waits]
      exact holds
    · rename_i runs
      obtain ⟨rfl, rfl⟩ := Prod.mk.inj moved
      rw [if_neg runs]
      exact holds
  · rintro ⟨task, stage, stored, holds⟩
    refine ⟨task, _, ?_, holds⟩
    simp only [notifyWaiters, stored, Option.map_some]
    split <;> rfl

theorem leads_notifyWaiters (leader : Nat) (key : String) :
    (system.notifyWaiters leader).Leads id key ↔ system.Leads id key := by
  rw [Leads, at_notifyWaiters, Leads]
  refine exists₂_congr fun task stage => and_congr_right fun _ => and_congr_left fun _ => ?_
  by_cases waits : stage = .waiting leader
  · rw [if_pos waits, waits]
    exact Iff.rfl
  · rw [if_neg waits]

theorem notified_notifyWaiters (leader : Nat) :
    (system.notifyWaiters leader).Notified id ↔ system.Notified id := by
  rw [Notified, at_notifyWaiters, Notified]
  refine exists₂_congr fun task stage => and_congr_right fun _ => ?_
  by_cases waits : stage = .waiting leader
  · simp only [waits, if_true, reduceCtorEq]
  · simp only [if_neg waits]

theorem waitsFor_notifyWaiters (leader awaited : Nat) :
    (system.notifyWaiters leader).WaitsFor id awaited ↔
      system.WaitsFor id awaited ∧ awaited ≠ leader := by
  rw [WaitsFor, at_notifyWaiters, WaitsFor]
  constructor
  · rintro ⟨task, stage, stored, waits⟩
    split at waits
    · exact nomatch waits
    · rename_i different
      refine ⟨⟨task, stage, stored, waits⟩, ?_⟩
      rintro rfl
      exact different waits
  · rintro ⟨⟨task, stage, stored, rfl⟩, different⟩
    refine ⟨task, _, stored, if_neg fun same => different ?_⟩
    exact PullStage.waiting.inj same

/-- The leader that removes its key and wakes those who wait for it. -/
def finish (system : PullSystem) (id : Nat) (task : PullTask) : PullSystem :=
  { (system.notifyWaiters id).setTask id task .notified with
    inflight := system.inflight.erase task.dedupKey }

theorem Coherent.finish (coherent : system.Coherent)
    (fetched : system.tasks id = some (task, .fetched)) : (system.finish id task).Coherent := by
  intro leader key leading
  have different : leader ≠ id := by
    rintro rfl
    exact ((at_of_tasks (setTask_tasks _ leader task .notified)).mp leading).1
  have leads : system.Leads leader key :=
    (leads_notifyWaiters id key).mp ((at_setTask_of_ne different).mp leading)
  have held := coherent leader key leads
  rw [PullSystem.finish, BTreeMap.getElem?_erase, if_neg, held]
  -- two leaders of one key are the same
  rintro rfl
  have own := coherent id task.dedupKey ((at_of_tasks fetched).mpr ⟨trivial, rfl⟩)
  exact different (Option.some.inj (held.symm.trans own))

theorem Unwedged.finish (unwedged : system.Unwedged)
    (fetched : system.tasks id = some (task, .fetched)) : (system.finish id task).Unwedged := by
  constructor
  · intro key leader present
    rw [PullSystem.finish, BTreeMap.getElem?_erase] at present
    obtain ⟨otherKey, present⟩ := Option.ite_none_left_eq_some.mp present
    obtain ⟨live, leading⟩ := unwedged.led key leader present
    have different : live ≠ id := by
      rintro rfl
      exact otherKey ((at_of_tasks fetched).mp leading).2
    exact ⟨live, (at_setTask_of_ne different).mpr ((leads_notifyWaiters id key).mpr leading)⟩
  · intro waiter leader waits notified
    have different : waiter ≠ id := by
      rintro rfl
      exact nomatch (at_of_tasks (setTask_tasks _ waiter task .notified)).mp waits
    obtain ⟨before, otherLeader⟩ :=
      (waitsFor_notifyWaiters id leader).mp ((at_setTask_of_ne different).mp waits)
    exact unwedged.awaited waiter leader before
      ((notified_notifyWaiters id).mp ((at_setTask_of_ne otherLeader).mp notified))

end PullSystem

/-! ### Steps -/

/-- What a step can do. -/
inductive PullMove (system : PullSystem) : PullLabel → PullSystem → Prop
  | passes {label : PullLabel} {id : Nat} {task : PullTask} {stage : PullStage}
      (lock : Option Nat) (unnotified : stage ≠ .notified)
      (leads : ∀ key, system.Leads id key ↔ stage.Leading ∧ task.dedupKey = key)
      (waits : ∀ leader, stage = .waiting leader →
        label = .startWaiting id ∧ system.tasks id = some (task, .unlocked leader)) :
      PullMove system label { system.setTask id task stage with lock := lock }
  | inserts {id : Nat} {task : PullTask} (arrived : system.tasks id = some (task, .arrived))
      (free : system.inflight[task.dedupKey]? = none) :
      PullMove system (.lookUp id) { system.setTask id task .inserted with
        lock := some id
        inflight := system.inflight.insert task.dedupKey id }
  | finishes {id : Nat} {task : PullTask} (fetched : system.tasks id = some (task, .fetched)) :
      PullMove system (.removeAndNotify id) (system.finish id task)
  | abandons {id : Nat} {task : PullTask} {stage : PullStage}
      (led : system.tasks id = some (task, stage))
      (fetches : stage = .fetching ∨ stage = .fetched) :
      PullMove system (.cancel id) (system.setTask id task .cancelled)

namespace PullSystem

variable {system : PullSystem}

theorem leads_iff {id : Nat} {task : PullTask} {stage next : PullStage}
    (found : system.tasks id = some (task, stage)) (same : stage.Leading ↔ next.Leading)
    (key : String) : system.Leads id key ↔ next.Leading ∧ task.dedupKey = key :=
  (at_of_tasks found).trans (and_congr_left fun _ => same)

end PullSystem

theorem pullStep_move {system next : PullSystem} {label : PullLabel}
    (coherent : system.Coherent) (stepped : pullStep system label = some next) :
    PullMove system label next := by
  cases label with
  | arrive id task =>
    simp only [pullStep] at stepped
    split at stepped
    · rename_i new
      obtain rfl := Option.some.inj stepped
      refine .passes system.lock nofun (fun key => ⟨?_, fun leads => leads.1.elim⟩) nofun
      rintro ⟨_, _, found, _⟩
      exact nomatch new.symm.trans found
    · exact nomatch stepped
  | lookUp id =>
    simp only [pullStep] at stepped
    split at stepped
    · rename_i task _ arrived
      split at stepped
      · obtain rfl := Option.some.inj stepped
        exact .passes _ nofun (PullSystem.leads_iff arrived Iff.rfl) nofun
      · rename_i free
        obtain rfl := Option.some.inj stepped
        exact .inserts arrived free
    · exact nomatch stepped
  | unlock id =>
    simp only [pullStep] at stepped
    split at stepped
    · rename_i task leader found
      obtain rfl := Option.some.inj stepped
      exact .passes _ nofun (PullSystem.leads_iff found Iff.rfl) nofun
    · rename_i task inserted
      obtain rfl := Option.some.inj stepped
      exact .passes _ nofun (PullSystem.leads_iff inserted Iff.rfl) nofun
    · exact nomatch stepped
  | startWaiting id =>
    simp only [pullStep] at stepped
    split at stepped
    · rename_i task leader unlocked
      obtain rfl := Option.some.inj stepped
      refine .passes system.lock nofun (PullSystem.leads_iff unlocked Iff.rfl) fun other same => ?_
      obtain rfl := PullStage.waiting.inj same
      exact ⟨rfl, unlocked⟩
    · exact nomatch stepped
  | fetch id =>
    simp only [pullStep] at stepped
    split at stepped
    · rename_i task fetching
      obtain rfl := Option.some.inj stepped
      exact .passes system.lock nofun (PullSystem.leads_iff fetching Iff.rfl) nofun
    · exact nomatch stepped
  | removeAndNotify id =>
    simp only [pullStep] at stepped
    split at stepped
    · rename_i task _ fetched
      have own := coherent id task.dedupKey
        ((PullSystem.at_of_tasks fetched).mpr ⟨trivial, rfl⟩)
      rw [own] at stepped
      obtain rfl := Option.some.inj stepped
      exact .finishes fetched
    · exact nomatch stepped
  | cancel id =>
    simp only [pullStep] at stepped
    split at stepped
    · rename_i task stage found
      split at stepped
      · rename_i awaits
        obtain rfl := Option.some.inj stepped
        cases stage with
        | arrived => exact .passes system.lock nofun (PullSystem.leads_iff found Iff.rfl) nofun
        | waiting leader =>
          exact .passes system.lock nofun (PullSystem.leads_iff found Iff.rfl) nofun
        | fetching => exact .abandons found (Or.inl rfl)
        | fetched => exact .abandons found (Or.inr rfl)
        | _ => exact nomatch awaits
      · exact nomatch stepped
    · exact nomatch stepped

theorem pullStep_coherent {system next : PullSystem} {label : PullLabel}
    (coherent : system.Coherent) (stepped : pullStep system label = some next) :
    next.Coherent := by
  rcases pullStep_move coherent stepped with
    ⟨lock, _, leads, _⟩ | ⟨arrived, free⟩ | ⟨fetched⟩ | ⟨led, _⟩
  · exact coherent.setTask fun leading => (leads _).mpr ⟨leading, rfl⟩
  · exact coherent.insert free _
  · exact coherent.finish fetched
  · exact coherent.setTask fun impossible => impossible.elim

/-- One step keeps pulls unwedged exactly if it is neither the cancellation of a leader nor the
start of a wait for a leader that is through. -/
theorem pullStep_unwedged_iff {system : PullSystem} (label : PullLabel)
    (coherent : system.Coherent) (unwedged : system.Unwedged) :
    (∀ next, pullStep system label = some next → next.Unwedged) ↔ system.KeepsAwake label := by
  constructor
  · intro stays
    cases label with
    | cancel id =>
      intro task stage found
      -- the key of a cancelled leader maps to it and has no other leader
      have abandoned : stage.Leading → stage.awaits = true → False := by
        intro leading awaits
        have stepped : pullStep system (.cancel id) = some (system.setTask id task .cancelled) := by
          simp only [pullStep, found, awaits, if_true]
        have own := coherent id task.dedupKey
          ((PullSystem.at_of_tasks found).mpr ⟨leading, rfl⟩)
        obtain ⟨live, leads⟩ := (stays _ stepped).led task.dedupKey id own
        by_cases same : live = id
        · subst same
          exact ((PullSystem.at_of_tasks (system.setTask_tasks live task .cancelled)).mp leads).1
        · have held := coherent live _ ((PullSystem.at_setTask_of_ne same).mp leads)
          exact same (Option.some.inj (held.symm.trans own))
      refine ⟨?_, ?_⟩
      · rintro rfl
        exact abandoned trivial rfl
      · rintro rfl
        exact abandoned trivial rfl
    | startWaiting id =>
      intro task leader unlocked notified
      have stepped : pullStep system (.startWaiting id) =
          some (system.setTask id task (.waiting leader)) := by
        simp only [pullStep, unlocked]
      have different : leader ≠ id := by
        rintro rfl
        exact nomatch (PullSystem.at_of_tasks unlocked).mp notified
      refine (stays _ stepped).awaited id leader ?_
        ((PullSystem.at_setTask_of_ne different).mpr notified)
      exact (PullSystem.at_of_tasks (system.setTask_tasks id task _)).mpr rfl
    | _ => trivial
  · intro awake next stepped
    rcases pullStep_move coherent stepped with
      ⟨lock, unnotified, leads, waits⟩ | ⟨arrived, free⟩ | ⟨fetched⟩ | ⟨led, fetches⟩
    · have passed := unwedged.setTask (fun key leading => (leads key).mp leading) unnotified
        fun leader waiting => ?_
      · exact ⟨passed.led, passed.awaited⟩
      · obtain ⟨rfl, unlocked⟩ := waits leader waiting
        exact awake _ leader unlocked
    · exact unwedged.insert arrived _
    · exact unwedged.finish fetched
    · rcases fetches with rfl | rfl
      · exact absurd rfl (awake _ _ led).1
      · exact absurd rfl (awake _ _ led).2

theorem PullSystem.coherent_initial : PullSystem.initial.Coherent := by
  rintro id key ⟨_, _, impossible, _⟩
  exact nomatch impossible

theorem PullSystem.unwedged_initial : PullSystem.initial.Unwedged := by
  constructor
  · intro key leader present
    rw [PullSystem.initial, BTreeMap.getElem?_empty] at present
    exact nomatch present
  · rintro id leader ⟨_, _, impossible, _⟩
    exact nomatch impossible

/-- In every run of pull tasks, in every state reached every key in the map has a live leader that
will remove it and nobody waits for a leader that is through, exactly if no step of the run
cancels a leader and no follower starts to wait after its leader has woken those who waited. -/
theorem pulls_unwedged_iff (labels : List PullLabel) :
    PullSystem.initial.Unwedged ∧
        Along pullStep
          (fun system label => ∀ next, pullStep system label = some next → next.Unwedged)
          PullSystem.initial labels ↔
      Along pullStep PullSystem.KeepsAwake PullSystem.initial labels := by
  have exactly : ∀ (system : PullSystem) (label : PullLabel),
      system.Coherent ∧ system.Unwedged →
        ((∀ next, pullStep system label = some next → next.Coherent ∧ next.Unwedged) ↔
          system.KeepsAwake label) := by
    rintro system label ⟨coherent, unwedged⟩
    rw [← pullStep_unwedged_iff label coherent unwedged]
    exact forall₂_congr fun next stepped => and_iff_right (pullStep_coherent coherent stepped)
  rw [← along_invariant_iff _ exactly ⟨PullSystem.coherent_initial, PullSystem.unwedged_initial⟩,
    and_iff_right PullSystem.unwedged_initial]
  constructor
  · intro along
    exact along.derive PullSystem.Coherent
      (fun _ _ _ stepped _ coherent => pullStep_coherent coherent stepped)
      (fun _ _ coherent stays next stepped =>
        ⟨pullStep_coherent coherent stepped, stays next stepped⟩) PullSystem.coherent_initial
  · exact fun along => along.imp fun _ _ stays next stepped => (stays next stepped).2

/-- The pull of the empty blob. -/
def sampleBlobPull : PullTask :=
  .pullBlobFromMirrorRule "sha256:e3b0c44298fc1c149afbf4c8996fb92427ae41e4649b934ca495991b7852b855"

/-- A leader whose client disconnects leaves its key behind; and a follower starts to wait after
its leader has woken those who waited. -/
theorem pulls_wedge :
    (∃ system, run pullStep PullSystem.initial
        [.arrive 0 sampleBlobPull, .lookUp 0, .unlock 0, .cancel 0] = some system ∧
      system.inflight[sampleBlobPull.dedupKey]? = some 0 ∧ ¬ system.Unwedged) ∧
    ∃ system, run pullStep PullSystem.initial
        [.arrive 0 sampleBlobPull, .lookUp 0, .unlock 0, .arrive 1 sampleBlobPull, .lookUp 1,
          .unlock 1, .fetch 0, .removeAndNotify 0, .startWaiting 1] = some system ∧
      system.WaitsFor 1 0 ∧ ¬ system.Unwedged := by
  constructor
  · refine ⟨_, rfl, by decide +kernel, fun unwedged => ?_⟩
    obtain ⟨id, task, stage, found, leading, _⟩ := unwedged.led sampleBlobPull.dedupKey 0
      (by decide +kernel)
    by_cases same : id = 0
    · subst same
      obtain ⟨rfl, rfl⟩ := Prod.mk.inj (Option.some.inj found)
      exact leading
    · simp [PullSystem.setTask, PullSystem.initial, Function.update_of_ne same] at found
  · refine ⟨_, rfl, ⟨_, _, rfl, rfl⟩, fun unwedged => ?_⟩
    exact unwedged.awaited 1 0 ⟨_, _, rfl, rfl⟩ ⟨_, _, rfl, rfl⟩

end Layerhouse
