/-
This file is about lists that are read page by page: of a list of keys in increasing order, a
page holds the first of those that come after a given key, the last key of the page before.
What comes after the last key of a page is what the page leaves of the list. A list that keys are
added to and removed from between two reads is still read in order, and a key that stays in it is
not missed. The file is also about lists that are cut into runs of one length.
-/

import Mathlib

namespace Layerhouse

variable {Key : Type} [LinearOrder Key] {keys before page rest : List Key}

/-- The keys after the given one, or all of them. -/
def keysAfter (keys : List Key) : Option Key → List Key
  | none => keys
  | some last => keys.filter (last < ·)

/-- The first `n` keys after the given one. -/
def pageAfter (keys : List Key) (n : Nat) (last : Option Key) : List Key :=
  (keysAfter keys last).take n

theorem keysAfter_append {last : Key} (increasing : (before ++ last :: rest).Pairwise (· < ·)) :
    keysAfter (before ++ last :: rest) (some last) = rest := by
  obtain ⟨_, fromLast, below⟩ := List.pairwise_append.mp increasing
  have none_before : before.filter (last < ·) = [] := by
    refine List.filter_eq_nil_iff.mpr fun key member => ?_
    rw [decide_eq_true_iff]
    exact (below key member last List.mem_cons_self).asymm
  have all_after : rest.filter (last < ·) = rest := by
    refine List.filter_eq_self.mpr fun key member => ?_
    exact decide_eq_true (List.rel_of_pairwise_cons fromLast member)
  rw [keysAfter, List.filter_append, none_before, List.nil_append,
    List.filter_cons_of_neg (by rw [decide_eq_true_iff]; exact lt_irrefl last), all_after]

/-- What comes after the last key of a page is what the page leaves. -/
theorem keysAfter_getLast (increasing : keys.Pairwise (· < ·))
    (split : keys = before ++ page ++ rest) (present : page ≠ []) :
    keysAfter keys page.getLast? = rest := by
  have listed : keys = (before ++ page.dropLast) ++ page.getLast present :: rest := by
    calc keys = before ++ (page.dropLast ++ [page.getLast present]) ++ rest := by
          rw [split, List.dropLast_append_getLast]
      _ = (before ++ page.dropLast) ++ page.getLast present :: rest := by
          simp only [List.append_assoc, List.singleton_append]
  rw [List.getLast?_eq_some_getLast present, listed]
  exact keysAfter_append (listed ▸ increasing)

/-! ### Reading to the end -/

/-- The pages a client reads until one is empty, each after the last key of the page before. The
page it gets also depends on its turn, because the list may change between two reads. -/
def readPages (answer : Nat → Option Key → List Key) :
    Nat → Nat → Option Key → Option (List (List Key))
  | 0, _, _ => none
  | fuel + 1, turn, last =>
    match answer turn last with
    | [] => some []
    | first :: others =>
      (readPages answer fuel (turn + 1) (first :: others).getLast?).map ((first :: others) :: ·)

/-- The key is past the cursor. -/
def IsAfter (last : Option Key) (key : Key) : Prop :=
  ∀ bound ∈ last, bound < key

theorem mem_keysAfter {last : Option Key} {key : Key} :
    key ∈ keysAfter keys last ↔ key ∈ keys ∧ IsAfter last key := by
  cases last with
  | none => simp [keysAfter, IsAfter]
  | some bound => simp [keysAfter, IsAfter]

theorem pairwise_keysAfter {last : Option Key} (increasing : keys.Pairwise (· < ·)) :
    (keysAfter keys last).Pairwise (· < ·) := by
  cases last with
  | none => exact increasing
  | some bound => exact increasing.filter _

/-- Pages of a list that does not change, read to the end, are the list. -/
theorem readPages_fixed {n : Nat} (positive : 0 < n) (increasing : keys.Pairwise (· < ·))
    {fuel turn : Nat} {last : Option Key} (split : keys = before ++ keysAfter keys last)
    (enough : (keysAfter keys last).length < fuel) :
    ∃ pages, readPages (fun _ last => pageAfter keys n last) fuel turn last = some pages ∧
      pages.flatten = keysAfter keys last := by
  induction fuel generalizing turn last before with
  | zero => exact absurd enough (Nat.not_lt_zero _)
  | succ fuel inductionHypothesis =>
    rw [readPages]
    cases shown : pageAfter keys n last with
    | nil =>
      refine ⟨[], rfl, ?_⟩
      rw [pageAfter, List.take_eq_nil_iff] at shown
      exact (shown.resolve_left positive.ne').symm
    | cons first others =>
      have cut : keysAfter keys last = (first :: others) ++ (keysAfter keys last).drop n := by
        rw [← shown, pageAfter, List.take_append_drop]
      have left_over : keysAfter keys (first :: others).getLast? =
          (keysAfter keys last).drop n := by
        have splitPage : keys =
            before ++ (first :: others) ++ (keysAfter keys last).drop n := by
          rw [List.append_assoc, ← cut]
          exact split
        exact keysAfter_getLast increasing splitPage (List.cons_ne_nil _ _)
      have fewer : (keysAfter keys (first :: others).getLast?).length < fuel := by
        have lengths := congrArg List.length cut
        rw [List.length_append, List.length_cons] at lengths
        rw [left_over]
        omega
      have splitNext : keys =
          (before ++ (first :: others)) ++ keysAfter keys (first :: others).getLast? := by
        rw [left_over, List.append_assoc, ← cut]
        exact split
      obtain ⟨pages, read, flat⟩ : ∃ pages,
          readPages (fun _ last => pageAfter keys n last) fuel (turn + 1)
            (first :: others).getLast? = some pages ∧
          pages.flatten = keysAfter keys (first :: others).getLast? :=
        inductionHypothesis splitNext fewer
      refine ⟨(first :: others) :: pages, ?_, ?_⟩
      · exact congrArg (Option.map ((first :: others) :: ·)) read
      · rw [List.flatten_cons, flat, left_over, ← cut]

theorem le_getLast {first : Key} {others : List Key} {key bound : Key}
    (increasing : (first :: others).Pairwise (· < ·)) (member : key ∈ first :: others)
    (ends : (first :: others).getLast? = some bound) : key ≤ bound := by
  obtain ⟨front, cut⟩ := List.getLast?_eq_some_iff.mp ends
  rw [cut] at increasing member
  rcases List.mem_append.mp member with inFront | atEnd
  · exact ((List.pairwise_append.mp increasing).2.2 key inFront bound List.mem_cons_self).le
  · exact (List.mem_singleton.mp atEnd).le

/-- Of a list that changes between two reads, the keys read are increasing and past the cursor,
and each was in the list when it was read. -/
theorem increasing_of_readPages {n : Nat} {listing : Nat → List Key}
    (increasing : ∀ turn, (listing turn).Pairwise (· < ·)) {fuel turn : Nat} {last : Option Key}
    {pages : List (List Key)}
    (read : readPages (fun turn last => pageAfter (listing turn) n last) fuel turn last =
      some pages) :
    pages.flatten.Pairwise (· < ·) ∧
      ∀ key ∈ pages.flatten, IsAfter last key ∧ ∃ later, turn ≤ later ∧
        later < turn + pages.length ∧ key ∈ listing later := by
  induction fuel generalizing turn last pages with
  | zero => cases read
  | succ fuel inductionHypothesis =>
    rw [readPages] at read
    cases shown : pageAfter (listing turn) n last with
    | nil =>
      rw [shown] at read
      cases read
      exact ⟨List.Pairwise.nil, fun key member => absurd member List.not_mem_nil⟩
    | cons first others =>
      rw [shown] at read
      obtain ⟨remaining, readRemaining, rfl⟩ := Option.map_eq_some_iff.mp read
      obtain ⟨remainingIncreasing, remainingPast⟩ := inductionHypothesis readRemaining
      have pageIncreasing : (first :: others).Pairwise (· < ·) := by
        rw [← shown]
        exact (pairwise_keysAfter (increasing turn)).sublist (List.take_sublist _ _)
      have onPage : ∀ key ∈ first :: others, key ∈ listing turn ∧ IsAfter last key := by
        intro key member
        rw [← shown] at member
        exact mem_keysAfter.mp (List.mem_of_mem_take member)
      obtain ⟨bound, ends⟩ : ∃ bound, (first :: others).getLast? = some bound :=
        ⟨_, List.getLast?_eq_some_getLast (List.cons_ne_nil _ _)⟩
      have boundOnPage : bound ∈ first :: others := List.mem_of_getLast? ends
      have pastBound : ∀ key ∈ remaining.flatten, bound < key := fun key member =>
        (remainingPast key member).1 bound ends
      rw [List.flatten_cons]
      refine ⟨List.pairwise_append.mpr ⟨pageIncreasing, remainingIncreasing, ?_⟩, ?_⟩
      · intro key member later memberLater
        exact (le_getLast pageIncreasing member ends).trans_lt (pastBound later memberLater)
      · intro key member
        rw [List.length_cons]
        rcases List.mem_append.mp member with here | later
        · exact ⟨(onPage key here).2, turn, le_rfl, by omega, (onPage key here).1⟩
        · obtain ⟨_, when, notBefore, inTime, listed⟩ := remainingPast key later
          refine ⟨fun cursor isCursor => ?_, when, by omega, by omega, listed⟩
          exact ((onPage bound boundOnPage).2 cursor isCursor).trans (pastBound key later)

/-- A key past the cursor that is in the list at every read is read. -/
theorem mem_of_readPages {n : Nat} (positive : 0 < n) {listing : Nat → List Key}
    (increasing : ∀ turn, (listing turn).Pairwise (· < ·)) {fuel turn : Nat} {last : Option Key}
    {pages : List (List Key)}
    (read : readPages (fun turn last => pageAfter (listing turn) n last) fuel turn last =
      some pages)
    {key : Key} (past : IsAfter last key)
    (stays : ∀ later, turn ≤ later → later ≤ turn + pages.length → key ∈ listing later) :
    key ∈ pages.flatten := by
  induction fuel generalizing turn last pages with
  | zero => cases read
  | succ fuel inductionHypothesis =>
    have follows : key ∈ keysAfter (listing turn) last :=
      mem_keysAfter.mpr ⟨stays turn le_rfl (Nat.le_add_right _ _), past⟩
    rw [readPages] at read
    cases shown : pageAfter (listing turn) n last with
    | nil =>
      rw [pageAfter, List.take_eq_nil_iff] at shown
      rw [shown.resolve_left positive.ne'] at follows
      exact absurd follows List.not_mem_nil
    | cons first others =>
      rw [shown] at read
      obtain ⟨remaining, readRemaining, rfl⟩ := Option.map_eq_some_iff.mp read
      rw [List.flatten_cons, List.mem_append]
      rw [← List.take_append_drop n (keysAfter (listing turn) last), List.mem_append] at follows
      rcases follows with here | behind
      · rw [← pageAfter, shown] at here
        exact Or.inl here
      · refine Or.inr (inductionHypothesis readRemaining (fun bound ends => ?_) ?_)
        · have sorted : (keysAfter (listing turn) last).Pairwise (· < ·) :=
            pairwise_keysAfter (increasing turn)
          rw [← List.take_append_drop n (keysAfter (listing turn) last)] at sorted
          refine (List.pairwise_append.mp sorted).2.2 bound ?_ key behind
          rw [← pageAfter, shown]
          exact List.mem_of_getLast? ends
        · intro later notBefore inTime
          rw [List.length_cons] at stays
          exact stays later (by omega) (by omega)

/-! ### Cutting a list -/

/-- `slice::chunks`: the list in runs of `n`, and a shorter one at the end if there is a rest. -/
def chunks {Item : Type} (n : Nat) : List Item → List (List Item)
  | [] => []
  | first :: rest => (first :: rest.take (n - 1)) :: chunks n (rest.drop (n - 1))
termination_by items => items.length
decreasing_by
  rw [List.length_drop, List.length_cons]
  omega

theorem flatten_chunks {Item : Type} (n : Nat) (items : List Item) :
    (chunks n items).flatten = items := by
  fun_induction chunks n items with
  | case1 => rfl
  | case2 first rest inductionHypothesis =>
    rw [List.flatten_cons, inductionHypothesis, List.cons_append, List.take_append_drop]

theorem map_chunks {Item Other : Type} (f : Item → Other) (n : Nat) (items : List Item) :
    chunks n (items.map f) = (chunks n items).map (List.map f) := by
  fun_induction chunks n items with
  | case1 => rw [List.map_nil, chunks, List.map_nil]
  | case2 first rest inductionHypothesis =>
    rw [List.map_cons, chunks, List.map_cons, ← List.map_take, ← List.map_drop,
      inductionHypothesis, List.map_cons]

end Layerhouse
