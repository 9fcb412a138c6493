/-
This file is about recursions that descend along a relation without remembering where they
have been: the paths of such a recursion from a root, each given by the nodes on it, the
last one first. No path comes to a node twice exactly if no cycle is reached from the root,
and where the edges of one kind form no cycle, a cycle is one that some edge of the other
kind closes.
-/

import Mathlib.Data.List.Perm.Subperm
import Mathlib.Logic.Relation
import Mathlib.Order.WellFounded

namespace Layerhouse

open Relation

variable {Node : Type} {edge : Node → Node → Prop} {root : Node}

/-- The path leads on from the one given first. -/
inductive Descent (edge : Node → Node → Prop) : List Node → List Node → Prop where
  | here {path : List Node} : Descent edge path path
  | down {node next : Node} {above path : List Node} (step : edge node next)
      (rest : Descent edge (next :: node :: above) path) : Descent edge (node :: above) path

/-- No cycle is reached from the root. -/
def AcyclicFrom (edge : Node → Node → Prop) (root : Node) : Prop :=
  ∀ node, ReflTransGen edge root node → ¬ TransGen edge node node

theorem Descent.suffix {start path : List Node} (descent : Descent edge start path) :
    start <:+ path := by
  induction descent with
  | here => exact List.suffix_rfl
  | down _ _ inductionHypothesis => exact (List.suffix_cons _ _).trans inductionHypothesis

/-- The nodes of a path are reached from the root and each leads to the ones that come after it. -/
structure Leads (edge : Node → Node → Prop) (root : Node) (path : List Node) : Prop where
  reached : ∀ node ∈ path, ReflTransGen edge root node
  inOrder : path.Pairwise fun later earlier => TransGen edge earlier later

theorem leads_root : Leads edge root [root] where
  reached := fun node member => by rw [List.mem_singleton.mp member]
  inOrder := List.pairwise_singleton _ _

theorem Leads.down {node next : Node} {above : List Node}
    (leads : Leads edge root (node :: above)) (step : edge node next) :
    Leads edge root (next :: node :: above) where
  reached := by
    rintro other (_ | ⟨_, member⟩)
    · exact (leads.reached node List.mem_cons_self).tail step
    · exact leads.reached other member
  inOrder := by
    refine List.pairwise_cons.mpr ⟨?_, leads.inOrder⟩
    rintro other (_ | ⟨_, member⟩)
    · exact .single step
    · exact (List.rel_of_pairwise_cons leads.inOrder member).tail step

theorem Leads.descent {start path : List Node} (leads : Leads edge root start)
    (descent : Descent edge start path) : Leads edge root path := by
  induction descent with
  | here => exact leads
  | down step _ inductionHypothesis => exact inductionHypothesis (leads.down step)

theorem Leads.nodup {path : List Node} (leads : Leads edge root path)
    (acyclic : AcyclicFrom edge root) : path.Nodup := by
  refine leads.inOrder.imp_of_mem fun {later earlier} member _ leadsTo same => ?_
  subst same
  exact acyclic later (leads.reached later member) leadsTo

/-- What is reached from the end of a path is the end of a longer one. -/
theorem exists_descent {node last : Node} (reached : ReflTransGen edge node last)
    (above : List Node) : ∃ between, Descent edge (node :: above) (last :: between) := by
  induction reached using ReflTransGen.head_induction_on generalizing above with
  | refl => exact ⟨above, .here⟩
  | head step _ inductionHypothesis =>
    obtain ⟨between, rest⟩ := inductionHypothesis (_ :: above)
    exact ⟨between, .down step rest⟩

theorem Descent.trans {first second third : List Node} (before : Descent edge first second)
    (after : Descent edge second third) : Descent edge first third := by
  induction before with
  | here => exact after
  | down step _ inductionHypothesis => exact .down step (inductionHypothesis after)

/-- A recursion comes to no node twice on a path exactly if it reaches no cycle. -/
theorem acyclicFrom_iff_nodup :
    AcyclicFrom edge root ↔ ∀ path, Descent edge [root] path → path.Nodup := by
  constructor
  · exact fun acyclic path descent => (leads_root.descent descent).nodup acyclic
  · intro nodup node reached cycle
    obtain ⟨next, step, back⟩ := TransGen.head'_iff.mp cycle
    obtain ⟨above, toNode⟩ := exists_descent reached []
    obtain ⟨between, around⟩ := exists_descent back (node :: above)
    have distinct := nodup _ (toNode.trans (.down step around))
    refine (List.nodup_cons.mp distinct).1 ?_
    rcases List.suffix_cons_iff.mp around.suffix with same | later
    · rw [← (List.cons.inj same).2]
      exact List.mem_cons_self
    · exact later.subset (List.mem_cons_of_mem next List.mem_cons_self)

/-- A path is no longer than a list of all nodes that may be on it. -/
theorem Leads.length_le {path : List Node} (leads : Leads edge root path)
    (acyclic : AcyclicFrom edge root) {nodes : List Node} (among : ∀ node ∈ path, node ∈ nodes) :
    path.length ≤ nodes.length :=
  ((leads.nodup acyclic).subperm among).length_le

/-- A way that uses no special edge, or one that uses some special edge. -/
theorem transGen_or_special (special : Node → Prop) {first last : Node}
    (way : TransGen edge first last) :
    TransGen (fun node next => edge node next ∧ ¬ special next) first last ∨
      ∃ node next, ReflTransGen edge first node ∧ edge node next ∧ special next ∧
        ReflTransGen edge next last := by
  induction way with
  | @single last step =>
    by_cases marked : special last
    · exact Or.inr ⟨first, last, .refl, step, marked, .refl⟩
    · exact Or.inl (.single ⟨step, marked⟩)
  | @tail between last before step inductionHypothesis =>
    by_cases marked : special last
    · exact Or.inr ⟨between, last, before.to_reflTransGen, step, marked, .refl⟩
    · rcases inductionHypothesis with plain | ⟨node, next, toNode, special_step, isSpecial, toLast⟩
      · exact Or.inl (plain.tail ⟨step, marked⟩)
      · exact Or.inr ⟨node, next, toNode, special_step, isSpecial, toLast.tail step⟩

/-- If the edges to plain nodes form no cycle, then none is reached exactly if no edge to a special
node leads back. -/
theorem acyclicFrom_iff_special {special : Node → Prop}
    (plain : ∀ node, ¬ TransGen (fun node next => edge node next ∧ ¬ special next) node node) :
    AcyclicFrom edge root ↔ ∀ node next, ReflTransGen edge root node → edge node next →
      special next → ¬ ReflTransGen edge next node := by
  constructor
  · exact fun acyclic node next reached step _ back =>
      acyclic node reached (TransGen.head' step back)
  · intro open_ends node reached cycle
    rcases transGen_or_special special cycle with around | found
    · exact plain node around
    · obtain ⟨from_node, next, toNode, step, isSpecial, toLast⟩ := found
      exact open_ends from_node next (reached.trans toNode) step isSpecial (toLast.trans toNode)

/-- A recursion that always comes to an end reaches no cycle. -/
theorem acyclicFrom_of_acc (ends : Acc (Function.swap edge) root) : AcyclicFrom edge root := by
  intro node reached cycle
  have endsThere : Acc (Function.swap edge) node := by
    clear cycle
    induction reached with
    | refl => exact ends
    | tail _ step inductionHypothesis => exact inductionHypothesis.inv step
  refine not_acc_iff_exists_descending_chain.mpr ⟨fun _ => node, rfl, fun _ => ?_⟩
    endsThere.transGen
  exact transGen_swap.mpr cycle


end Layerhouse
