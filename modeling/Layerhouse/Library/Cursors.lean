/-
This file is about lists that are read page by page, where each page but the last comes with a
link to the next one. The cursor in a link is the key of the last item of the page before, and a
link is followed by a client, which may or may not read it as it was meant.

The first page is of one list and the pages behind the links are of another, the whole one, as
with a listing whose links forget how it was filtered and sorted. Following the links visits the
first list exactly if the whole list goes on like it behind the first page.
-/

import Mathlib

namespace Layerhouse.Cursors

variable {Item Key Request Link : Type} {key : Item → Key}

/-- What stands behind the first item with the given key, or everything. -/
def after [DecidableEq Key] (key : Item → Key) (items : List Item) (last : Option Key) :
    List Item :=
  items.drop (((last.bind fun last => items.findIdx? (key · = last)).map (· + 1)).getD 0)

/-- The first `n` items, with a link to its last one if there are more. -/
def pageOf (key : Item → Key) (link : Key → Link) (n : Nat) (items : List Item) :
    List Item × Option Link :=
  (items.take n, if n < items.length then (items.take n).getLast?.map (link ∘ key) else none)

/-- The item is the last one on its page, and another page follows. -/
def EndsPage (n : Nat) (items : List Item) (item : Item) : Prop :=
  ∃ index, items[index]? = some item ∧ n ∣ index + 1 ∧ index + 1 < items.length

/-- From a request a client comes by links to the end of a listing, over these items. -/
inductive Visits (answer : Request → Option (List Item × Option Link))
    (follow : Link → Option Request) : Request → List Item → Prop
  | last {request : Request} {items : List Item} (answered : answer request = some (items, none)) :
      Visits answer follow request items
  | next {request following : Request} {page rest : List Item} {link : Link}
      (answered : answer request = some (page, some link))
      (followed : follow link = some following) (visits : Visits answer follow following rest) :
      Visits answer follow request (page ++ rest)

/-- Behind its first page of `n` items a list goes on like the whole one, by keys that links
carry. -/
structure Continues [DecidableEq Key] (key : Item → Key) (carried : Key → Prop) (n : Nat)
    (whole items : List Item) : Prop where
  carried : ∀ item, EndsPage n items item → carried (key item)
  ordered : n < items.length → ∀ last, items[n - 1]? = some last →
    after key whole (some (key last)) = items.drop n

/-! ### Pages -/

section Pages

variable {link : Key → Link} {n : Nat} {items whole : List Item}

theorem pageOf_of_le (fits : items.length ≤ n) : pageOf key link n items = (items, none) := by
  rw [pageOf, List.take_of_length_le fits, if_neg (Nat.not_lt.mpr fits)]

theorem pageOf_of_lt {last : Item} (positive : 0 < n) (more : n < items.length)
    (found : items[n - 1]? = some last) :
    pageOf key link n items = (items.take n, some (link (key last))) := by
  have ends : (items.take n).getLast? = some last := by
    rw [List.getLast?_take, if_neg positive.ne', found, Option.some_or]
  rw [pageOf, if_pos more, ends]
  rfl

theorem exists_last (positive : 0 < n) (more : n < items.length) :
    ∃ last, items[n - 1]? = some last :=
  ⟨items[n - 1], List.getElem?_eq_getElem (by omega)⟩

theorem not_endsPage_of_le {item : Item} (fits : items.length ≤ n) : ¬ EndsPage n items item := by
  rintro ⟨index, _, divides, more⟩
  exact absurd (Nat.le_of_dvd index.succ_pos divides) (by omega)

/-- The ends of the pages are the end of the first page and the ends of the pages of the rest. -/
theorem endsPage_iff {last item : Item} (positive : 0 < n) (more : n < items.length)
    (found : items[n - 1]? = some last) :
    EndsPage n items item ↔ item = last ∨ EndsPage n (items.drop n) item := by
  constructor
  · rintro ⟨index, atIndex, divides, inside⟩
    rcases Nat.lt_or_ge index n with first | later
    · have full : index + 1 = n := Nat.le_antisymm first (Nat.le_of_dvd index.succ_pos divides)
      rw [show index = n - 1 by omega, found] at atIndex
      exact Or.inl (Option.some.inj atIndex).symm
    · refine Or.inr ⟨index - n, ?_, ?_, ?_⟩
      · rw [List.getElem?_drop, Nat.add_sub_cancel' later, atIndex]
      · rw [← Nat.sub_add_comm later]
        exact Nat.dvd_sub divides dvd_rfl
      · rw [List.length_drop]
        omega
  · rintro (rfl | ⟨index, atIndex, divides, inside⟩)
    · refine ⟨n - 1, found, ?_, ?_⟩
      · rw [Nat.sub_add_cancel positive]
      · omega
    · refine ⟨n + index, ?_, ?_, ?_⟩
      · rw [← List.getElem?_drop, atIndex]
      · rw [Nat.add_assoc]
        exact (Nat.dvd_add_right dvd_rfl).mpr divides
      · rw [List.length_drop] at inside
        omega

/-- The link that a page comes with names its last item, which others follow. -/
theorem endsPage_of_link {toNext : Link} (positive : 0 < n)
    (linked : (pageOf key link n items).2 = some toNext) :
    ∃ item, EndsPage n items item ∧ link (key item) = toNext := by
  rcases Nat.lt_or_ge n items.length with more | fits
  · obtain ⟨last, found⟩ := exists_last positive more
    rw [pageOf_of_lt positive more found] at linked
    exact ⟨last, (endsPage_iff positive more found).mpr (Or.inl rfl), Option.some.inj linked⟩
  · rw [pageOf_of_le fits] at linked
    cases linked

theorem after_append [DecidableEq Key] {before rest : List Item} {item : Item}
    (distinct : ((before ++ item :: rest).map key).Nodup) :
    after key (before ++ item :: rest) (some (key item)) = rest := by
  have first : (before ++ item :: rest).findIdx? (key · = key item) = some before.length := by
    rw [List.map_append, List.map_cons, List.nodup_append] at distinct
    have others : ∀ other ∈ before, ¬ key other = key item := fun other member same =>
      distinct.2.2 _ (List.mem_map_of_mem member) _ List.mem_cons_self same
    rw [List.findIdx?_append, List.findIdx?_eq_none_iff.mpr fun other member =>
      decide_eq_false (others other member), Option.none_or, List.findIdx?_cons,
      if_pos (decide_eq_true rfl)]
    simp
  rw [after, Option.bind_some, first, Option.map_some, Option.getD_some, List.drop_append,
    List.drop_of_length_le (Nat.le_succ _), List.nil_append, Nat.add_sub_cancel_left]
  rfl

/-- Behind the last item of a page comes what the page leaves. -/
theorem after_last [DecidableEq Key] {last : Item} (distinct : (whole.map key).Nodup)
    (suffix : items <:+ whole) (positive : 0 < n) (found : items[n - 1]? = some last) :
    after key whole (some (key last)) = items.drop n := by
  obtain ⟨before, rfl⟩ := suffix
  obtain ⟨inside, rfl⟩ := List.getElem?_eq_some_iff.mp found
  have split : items = items.take (n - 1) ++ items[n - 1] :: items.drop n := by
    calc items = items.take (n - 1) ++ items.drop (n - 1) := (List.take_append_drop _ _).symm
      _ = items.take (n - 1) ++ items[n - 1] :: items.drop (n - 1 + 1) := by
        rw [List.drop_eq_getElem_cons inside]
      _ = items.take (n - 1) ++ items[n - 1] :: items.drop n := by
        rw [Nat.sub_add_cancel positive]
  have listed : before ++ items = (before ++ items.take (n - 1)) ++ items[n - 1] :: items.drop n :=
    calc before ++ items = before ++ (items.take (n - 1) ++ items[n - 1] :: items.drop n) :=
          congrArg (before ++ ·) split
      _ = (before ++ items.take (n - 1)) ++ items[n - 1] :: items.drop n :=
        (List.append_assoc _ _ _).symm
  rw [listed] at distinct ⊢
  exact after_append distinct

theorem after_suffix [DecidableEq Key] (last : Option Key) : after key whole last <:+ whole :=
  List.drop_suffix _ _

end Pages

/-! ### Following the links -/

section Following

variable [DecidableEq Key] {answer : Request → Option (List Item × Option Link)}
  {follow : Link → Option Request} {link : Key → Link} {cursor : Key → Request}
  {carried : Key → Prop} {n : Nat}
  {whole items visited : List Item} {request : Request}
  (positive : 0 < n) (distinct : (whole.map key).Nodup)

theorem Visits.exists_answer (visits : Visits answer follow request visited) :
    ∃ page, answer request = some page := by
  cases visits with
  | last answered => exact ⟨_, answered⟩
  | next answered _ _ => exact ⟨_, answered⟩

theorem Visits.of_link {page : List Item} {toNext : Link}
    (visits : Visits answer follow request visited)
    (answered : answer request = some (page, some toNext)) :
    ∃ following rest, follow toNext = some following ∧ Visits answer follow following rest ∧
      visited = page ++ rest := by
  cases visits with
  | last final =>
    rw [answered] at final
    cases final
  | next linked followed visits =>
    rw [answered] at linked
    cases linked
    exact ⟨_, _, followed, visits, rfl⟩

include positive distinct

/-- A client that reads the links visits all of the whole list from where it is in it. -/
theorem visits_suffix
    (answers : ∀ last, carried last →
      (∀ item, EndsPage n (after key whole (some last)) item → carried (key item)) →
        answer (cursor last) = some (pageOf key link n (after key whole (some last))))
    (reads : ∀ last, carried last → follow (link last) = some (cursor last))
    (suffix : items <:+ whole) (answered : answer request = some (pageOf key link n items))
    (ends : ∀ item, EndsPage n items item → carried (key item)) :
    Visits answer follow request items := by
  induction size : items.length using Nat.strong_induction_on generalizing items request with
  | _ size inductionHypothesis =>
    subst size
    rcases Nat.lt_or_ge n items.length with more | fits
    · obtain ⟨last, found⟩ := exists_last positive more
      rw [pageOf_of_lt positive more found] at answered
      have carries := ends last ((endsPage_iff positive more found).mpr (Or.inl rfl))
      have endsLater : ∀ item, EndsPage n (items.drop n) item → carried (key item) :=
        fun item later => ends item ((endsPage_iff positive more found).mpr (Or.inr later))
      have onward := answers _ carries
      rw [after_last distinct suffix positive found] at onward
      have rest := inductionHypothesis (items.drop n).length (by rw [List.length_drop]; omega)
        ((List.drop_suffix n items).trans suffix) (onward endsLater) endsLater rfl
      rw [← List.take_append_drop n items]
      exact .next answered (reads _ carries) rest
    · rw [pageOf_of_le fits] at answered
      exact .last answered

/-- A client that reads no other links visits nothing else, and by links that are carried. -/
theorem eq_of_visits_suffix
    (answers : ∀ last page, carried last → answer (cursor last) = some page →
      page = pageOf key link n (after key whole (some last)))
    (strict : ∀ last following page, follow (link last) = some following →
      answer following = some page → carried last ∧ following = cursor last)
    (visits : Visits answer follow request visited) (suffix : items <:+ whole)
    (answered : ∀ page, answer request = some page → page = pageOf key link n items) :
    visited = items ∧ ∀ item, EndsPage n items item → carried (key item) := by
  induction visits generalizing items with
  | last final =>
    have served := answered _ final
    rcases Nat.lt_or_ge n items.length with more | fits
    · obtain ⟨last, found⟩ := exists_last positive more
      rw [pageOf_of_lt positive more found] at served
      cases served
    · rw [pageOf_of_le fits] at served
      cases served
      exact ⟨rfl, fun item ends => absurd ends (not_endsPage_of_le fits)⟩
  | next linked followed visits inductionHypothesis =>
    have served := answered _ linked
    rcases Nat.lt_or_ge n items.length with more | fits
    · obtain ⟨last, found⟩ := exists_last positive more
      rw [pageOf_of_lt positive more found] at served
      cases served
      obtain ⟨page, again⟩ := visits.exists_answer
      obtain ⟨carries, rfl⟩ := strict _ _ _ followed again
      have onward := fun page => answers (key last) page carries
      rw [after_last distinct suffix positive found] at onward
      obtain ⟨rfl, ends⟩ := inductionHypothesis ((List.drop_suffix n items).trans suffix) onward
      refine ⟨List.take_append_drop n items, fun item ending => ?_⟩
      rcases (endsPage_iff positive more found).mp ending with rfl | later
      · exact carries
      · exact ends item later
    · rw [pageOf_of_le fits] at served
      cases served

/-- If behind its first page a list goes on like the whole one, a client that reads the links
visits the list. -/
theorem visits_of_continues
    (answers : ∀ last, carried last →
      (∀ item, EndsPage n (after key whole (some last)) item → carried (key item)) →
        answer (cursor last) = some (pageOf key link n (after key whole (some last))))
    (reads : ∀ last, carried last → follow (link last) = some (cursor last))
    (answered : answer request = some (pageOf key link n items))
    (continues : Continues key carried n whole items) : Visits answer follow request items := by
  rcases Nat.lt_or_ge n items.length with more | fits
  · obtain ⟨last, found⟩ := exists_last positive more
    rw [pageOf_of_lt positive more found] at answered
    have carries := continues.carried last ((endsPage_iff positive more found).mpr (Or.inl rfl))
    have onward := continues.ordered more last found
    have endsLater : ∀ item, EndsPage n (items.drop n) item → carried (key item) :=
      fun item later =>
        continues.carried item ((endsPage_iff positive more found).mpr (Or.inr later))
    have served := answers _ carries
    rw [onward] at served
    have rest := visits_suffix positive distinct answers reads (onward ▸ after_suffix _)
      (served endsLater) endsLater
    rw [← List.take_append_drop n items]
    exact .next answered (reads _ carries) rest
  · rw [pageOf_of_le fits] at answered
    exact .last answered

/-- If a client that reads no other links visits a list, then behind its first page the list goes
on like the whole one. -/
theorem continues_of_visits
    (answers : ∀ last page, carried last → answer (cursor last) = some page →
      page = pageOf key link n (after key whole (some last)))
    (strict : ∀ last following page, follow (link last) = some following →
      answer following = some page → carried last ∧ following = cursor last)
    (answered : ∀ page, answer request = some page → page = pageOf key link n items)
    (visits : Visits answer follow request items) : Continues key carried n whole items := by
  rcases Nat.lt_or_ge n items.length with more | fits
  · obtain ⟨last, found⟩ := exists_last positive more
    rw [pageOf_of_lt positive more found] at answered
    obtain ⟨page, first⟩ := visits.exists_answer
    obtain ⟨following, rest, followed, onwards, split⟩ :=
      visits.of_link (first.trans (congrArg some (answered page first)))
    obtain ⟨page, served⟩ := onwards.exists_answer
    obtain ⟨carries, rfl⟩ := strict _ _ _ followed served
    obtain ⟨rfl, ends⟩ := eq_of_visits_suffix positive distinct answers strict onwards
      (after_suffix _) fun page => answers _ page carries
    have onward : after key whole (some (key last)) = items.drop n :=
      (List.append_cancel_left ((List.take_append_drop n items).trans split)).symm
    refine ⟨fun item ending => ?_, fun _ other atEnd => ?_⟩
    · rcases (endsPage_iff positive more found).mp ending with rfl | later
      · exact carries
      · exact ends item (onward ▸ later)
    · rw [found] at atEnd
      cases atEnd
      exact onward
  · exact ⟨fun item ending => absurd ending (not_endsPage_of_le fits),
      fun more => absurd more (Nat.not_lt.mpr fits)⟩

/-- The whole list is visited by its links if they are carried. -/
theorem continues_whole (ends : ∀ item, EndsPage n whole item → carried (key item)) :
    Continues key carried n whole whole :=
  ⟨ends, fun _ _ found => after_last distinct List.suffix_rfl positive found⟩

end Following

/-- There is a client that reads the links that are carried and no other ones. -/
theorem exists_strict {link : Key → Link} (injective : Function.Injective link)
    (cursor : Key → Request) (carried : Key → Prop) :
    ∃ follow : Link → Option Request,
      (∀ last, carried last → follow (link last) = some (cursor last)) ∧
        ∀ last following, follow (link last) = some following →
          carried last ∧ following = cursor last := by
  classical
  let follow : Link → Option Request := fun text =>
    (Function.partialInv link text).bind fun last =>
      if carried last then some (cursor last) else none
  have followed : ∀ last, follow (link last) = if carried last then some (cursor last) else none :=
    fun last => by
      have read := (injective.isPartialInv last (link last)).mpr rfl
      simp only [follow, read, Option.bind_some]
  refine ⟨follow, fun last carries => ?_, fun last following found => ?_⟩
  · rw [followed, if_pos carries]
  · rw [followed] at found
    split at found
    · rename_i carries
      exact ⟨carries, (Option.some.inj found).symm⟩
    · cases found

end Layerhouse.Cursors
