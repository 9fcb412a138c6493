/-
This file is about votes that are counted by answers, where a voter may have answered more than
once. A majority of the answers is a majority of the voters unless the repeated approvals outweigh
the repeated refusals by more than the voters who refuse outnumber those who approve. A voter who
gave both answers counts as one who approves.
-/

import Mathlib

namespace Layerhouse.Headcounts

variable {Answer Voter : Type} [DecidableEq Voter] (voter : Answer → Voter)
  (approves : Answer → Bool) (answers : List Answer)

def voters : Finset Voter :=
  (answers.map voter).toFinset

def approvers : Finset Voter :=
  voters voter (answers.filter approves)

def refusers : Finset Voter :=
  voters voter answers \ approvers voter approves answers

/-- The approvals beyond one for each voter who approves. -/
def repeatedApprovals : Nat :=
  answers.countP approves - (approvers voter approves answers).card

/-- The refusals beyond one for each voter who refuses. -/
def repeatedRefusals : Nat :=
  answers.countP (!approves ·) - (refusers voter approves answers).card

/-- The voters who approve are no majority, and the repetitions make their answers one. -/
def Tipped : Prop :=
  (approvers voter approves answers).card ≤ (refusers voter approves answers).card ∧
    (refusers voter approves answers).card - (approvers voter approves answers).card +
      repeatedRefusals voter approves answers < repeatedApprovals voter approves answers

instance : Decidable (Tipped voter approves answers) :=
  inferInstanceAs (Decidable (_ ∧ _))

variable {voter approves answers}

theorem mem_voters {someone : Voter} :
    someone ∈ voters voter answers ↔ ∃ answer ∈ answers, voter answer = someone := by
  rw [voters, List.mem_toFinset, List.mem_map]

theorem mem_approvers {someone : Voter} :
    someone ∈ approvers voter approves answers ↔
      ∃ answer ∈ answers, approves answer = true ∧ voter answer = someone := by
  rw [approvers, mem_voters]
  simp only [List.mem_filter, and_assoc]

theorem approvers_subset : approvers voter approves answers ⊆ voters voter answers := by
  intro someone member
  obtain ⟨answer, given, _, same⟩ := mem_approvers.mp member
  exact mem_voters.mpr ⟨answer, given, same⟩

theorem card_voters_le : (voters voter answers).card ≤ answers.length :=
  (List.toFinset_card_le _).trans_eq (List.length_map _)

theorem card_approvers_le :
    (approvers voter approves answers).card ≤ answers.countP approves := by
  rw [List.countP_eq_length_filter]
  exact card_voters_le

/-- Who refuses has given a refusal. -/
theorem card_refusers_le :
    (refusers voter approves answers).card ≤ answers.countP (!approves ·) := by
  have refused : refusers voter approves answers ⊆ voters voter (answers.filter (!approves ·)) := by
    intro someone member
    obtain ⟨answered, notApproved⟩ := Finset.mem_sdiff.mp member
    obtain ⟨answer, given, same⟩ := mem_voters.mp answered
    refine mem_voters.mpr ⟨answer, List.mem_filter.mpr ⟨given, ?_⟩, same⟩
    rw [Bool.not_eq_true', Bool.eq_false_iff]
    exact fun approved => notApproved (mem_approvers.mpr ⟨answer, given, approved, same⟩)
  rw [List.countP_eq_length_filter]
  exact (Finset.card_le_card refused).trans card_voters_le

theorem card_voters : (voters voter answers).card =
    (refusers voter approves answers).card + (approvers voter approves answers).card :=
  (Finset.card_sdiff_add_card_eq_card approvers_subset).symm

theorem length_eq : answers.length =
    answers.countP approves + answers.countP (!approves ·) := by
  rw [List.length_eq_countP_add_countP approves]
  simp only [Bool.not_eq_true, Bool.decide_eq_false]

/-- A majority of the answers is one of the voters exactly if the repetitions do not tip it. -/
theorem majority_iff_not_tipped :
    (answers.length < 2 * answers.countP approves →
      (voters voter answers).card < 2 * (approvers voter approves answers).card) ↔
        ¬ Tipped voter approves answers := by
  have approvals : (approvers voter approves answers).card ≤ answers.countP approves :=
    card_approvers_le
  have refusals : (refusers voter approves answers).card ≤ answers.countP (!approves ·) :=
    card_refusers_le
  have all : (voters voter answers).card =
      (refusers voter approves answers).card + (approvers voter approves answers).card :=
    card_voters
  have counted : answers.length = answers.countP approves + answers.countP (!approves ·) :=
    length_eq
  rw [Tipped, repeatedApprovals, repeatedRefusals]
  omega

/-- Voters who answered once each do not tip a count. -/
theorem not_tipped_of_nodup (once : (answers.map voter).Nodup) :
    ¬ Tipped voter approves answers := by
  have approvals : (approvers voter approves answers).card = answers.countP approves := by
    rw [approvers, voters, List.toFinset_card_of_nodup
      (once.sublist (List.filter_sublist.map voter)), List.length_map, List.countP_eq_length_filter]
  rintro ⟨_, tips⟩
  rw [repeatedApprovals, approvals, Nat.sub_self] at tips
  exact Nat.not_lt_zero _ tips

/-- Nor does a single voter. -/
theorem not_tipped_of_single (single : ∀ first ∈ answers, ∀ second ∈ answers,
    voter first = voter second) : ¬ Tipped voter approves answers := by
  rintro ⟨outnumbered, tips⟩
  have approved : 0 < answers.countP approves := by
    rw [repeatedApprovals] at tips
    omega
  obtain ⟨answer, given, approval⟩ := List.countP_pos_iff.mp approved
  have approver : voter answer ∈ approvers voter approves answers :=
    mem_approvers.mpr ⟨answer, given, approval, rfl⟩
  have none_refuses : refusers voter approves answers = ∅ := by
    rw [Finset.eq_empty_iff_forall_notMem]
    intro someone member
    obtain ⟨answered, notApproved⟩ := Finset.mem_sdiff.mp member
    obtain ⟨other, givenOther, same⟩ := mem_voters.mp answered
    rw [← same, single other givenOther answer given] at notApproved
    exact notApproved approver
  rw [none_refuses, Finset.card_empty, Nat.le_zero, Finset.card_eq_zero] at outnumbered
  rw [outnumbered] at approver
  exact absurd approver (Finset.notMem_empty _)

/-- One approval given twice tips the count against one refusal, wherever that stands. -/
theorem tipped_of_repeated {approval refusal : Answer} (approved : approves approval = true)
    (refused : approves refusal = false) (different : voter approval ≠ voter refusal)
    {before after : Nat} (repeated : 2 ≤ before + after) :
    Tipped voter approves
      (List.replicate before approval ++ refusal :: List.replicate after approval) := by
  have approvals : (List.replicate before approval ++ refusal ::
      List.replicate after approval).countP approves = before + after := by
    rw [List.countP_append, List.countP_cons_of_neg (by rw [refused]; exact Bool.false_ne_true),
      List.countP_replicate, List.countP_replicate, if_pos approved, if_pos approved]
  have refusals : (List.replicate before approval ++ refusal ::
      List.replicate after approval).countP (!approves ·) = 1 := by
    rw [List.countP_append, List.countP_cons_of_pos (by rw [refused]; rfl), List.countP_replicate,
      List.countP_replicate, approved]
    rfl
  have member_iff (answer : Answer) : answer ∈ List.replicate before approval ++ refusal ::
      List.replicate after approval ↔ answer = approval ∨ answer = refusal := by
    have somewhere : before ≠ 0 ∨ after ≠ 0 := by omega
    rw [List.mem_append, List.mem_cons, List.mem_replicate, List.mem_replicate]
    tauto
  have one_approver : approvers voter approves (List.replicate before approval ++ refusal ::
      List.replicate after approval) = {voter approval} := by
    ext someone
    rw [mem_approvers, Finset.mem_singleton]
    constructor
    · rintro ⟨answer, given, approvedAnswer, rfl⟩
      rcases (member_iff answer).mp given with rfl | rfl
      · rfl
      · rw [refused] at approvedAnswer
        cases approvedAnswer
    · rintro rfl
      exact ⟨approval, (member_iff approval).mpr (Or.inl rfl), approved, rfl⟩
  have one_refuser : refusers voter approves (List.replicate before approval ++ refusal ::
      List.replicate after approval) = {voter refusal} := by
    ext someone
    rw [refusers, one_approver, Finset.mem_sdiff, mem_voters, Finset.mem_singleton,
      Finset.mem_singleton]
    constructor
    · rintro ⟨⟨answer, given, rfl⟩, notApprover⟩
      rcases (member_iff answer).mp given with rfl | rfl
      · exact absurd rfl notApprover
      · rfl
    · rintro rfl
      exact ⟨⟨refusal, (member_iff refusal).mpr (Or.inr rfl), rfl⟩, different.symm⟩
  rw [Tipped, repeatedApprovals, repeatedRefusals, approvals, refusals, one_approver, one_refuser,
    Finset.card_singleton, Finset.card_singleton]
  omega

end Layerhouse.Headcounts
