/-
This file is about the listings of an upstream's tags: `list_tags` of the server's
`mirror/client.rs`, with `latest_tags` of `mirror/mod.rs`, and `list_tags` of the
`registry.rs` of `layerhouse-ctl`. Both ask for page after page, each time with the last tag
of the page before. The server stops at a page that is empty or does not have the size it
asked for, the client only at an empty one.

An upstream that paginates is listed completely. Neither listing checks that the next page
moves on, though: whatever else an upstream answers, a listing ends exactly if no tag leads
from page to page back to itself. A registry that ignores `last` holds the client forever
with a single tag, and the server with exactly a hundred.
-/

import Layerhouse.Library.Descents
import Layerhouse.Library.Pages

namespace Layerhouse

open Relation

/-! ### The listings -/

/-- A request for a page of the tags list, by its query. -/
structure TagsRequest where
  n : Nat
  last : Option String
deriving DecidableEq

/-- What the upstream answers to the first of some requests, the others sent before it. -/
abbrev TagsAnswers := List TagsRequest → List String

/-- The loop of a listing with pages of size `n`, which `goesOn` after the pages it holds of, and
makes at most `fuel` more requests. -/
def listPages (n : Nat) (goesOn : List String → Bool) (answers : TagsAnswers) :
    Nat → List TagsRequest → Option String → List String → Option (List String)
  | 0, _, _, _ => none
  | fuel + 1, sent, last, tags =>
    let page := answers (⟨n, last⟩ :: sent)
    if page.isEmpty then some tags
    else if goesOn page then
      listPages n goesOn answers fuel (⟨n, last⟩ :: sent) page.getLast? (tags ++ page)
    else some (tags ++ page)

def gotFullPage (page : List String) : Bool :=
  page.length = 100

/-- `list_tags` of the server. The tags are sorted and rid of repetitions in the end. -/
def UpstreamClient.listTags (answers : TagsAnswers) (fuel : Nat) : Option (List String) :=
  (listPages 100 gotFullPage answers fuel [] none []).map fun tags =>
    (tags.insertionSort (· ≤ ·)).destutter (· ≠ ·)

/-- `list_tags` of `layerhouse-ctl`. -/
def RegistryClient.listTags (answers : TagsAnswers) (fuel : Nat) : Option (List String) :=
  listPages 1000 (fun _ => true) answers fuel [] none []

def latestTags (answers : TagsAnswers) (count : UInt32) (fuel : Nat) : Option (List String) :=
  (UpstreamClient.listTags answers fuel).map fun tags =>
    ((tags.insertionSort (· ≤ ·)).reverse).take count.toNat

theorem UpstreamClient.listTags_returns {answers : TagsAnswers} {fuel : Nat} :
    (∃ listed, UpstreamClient.listTags answers fuel = some listed) ↔
      ∃ listed, listPages 100 gotFullPage answers fuel [] none [] = some listed := by
  rw [← Option.isSome_iff_exists, UpstreamClient.listTags, Option.isSome_map,
    Option.isSome_iff_exists]

/-! ### Upstreams -/

/-- An upstream that holds some tags: the pages of them that it may answer to each request. -/
structure TagsUpstream (tags : Finset String) where
  mayAnswer : TagsRequest → List String → Prop
  alwaysAnswers : ∀ request, ∃ page, mayAnswer request page
  holds : ∀ {request page}, mayAnswer request page → ∀ tag ∈ page, tag ∈ tags

namespace TagsUpstream

variable {tags : Finset String} (upstream : TagsUpstream tags)

/-- The answers are the upstream's. -/
def Gives (answers : TagsAnswers) : Prop :=
  ∀ request sent, upstream.mayAnswer request (answers (request :: sent))

/-- The listing ends whatever the upstream answers. -/
def ListingEnds (listTags : TagsAnswers → Nat → Option (List String)) : Prop :=
  ∀ answers, upstream.Gives answers → ∃ fuel listed, listTags answers fuel = some listed

/-- A listing that asks for what comes after one tag may have to ask for what comes after the
other next. -/
def LeadsOn (n : Nat) (goesOn : List String → Bool) (last next : Option String) : Prop :=
  ∃ page, upstream.mayAnswer ⟨n, last⟩ page ∧ page ≠ [] ∧ goesOn page ∧ page.getLast? = next

/-- The answer is the first `n` tags after the last one, in lexical order. -/
def Paginates : Prop :=
  ∀ request page, upstream.mayAnswer request page →
    page = pageAfter (tags.sort (· ≤ ·)) request.n request.last

/-! ### Listings that end -/

variable {upstream} {n fuel : Nat} {goesOn : List String → Bool} {answers : TagsAnswers}
  {sent : List TagsRequest} {last : Option String} {above : List (Option String)}
  {collected : List String}

/-- The tags that a listing has asked for last are tags that the upstream holds. -/
theorem LeadsOn.mem {next : Option String} (leads : upstream.LeadsOn n goesOn last next) :
    next ∈ none :: tags.toList.map some := by
  obtain ⟨page, answered, present, _, rfl⟩ := leads
  rw [List.getLast?_eq_some_getLast present]
  refine List.mem_cons_of_mem none (List.mem_map_of_mem (Finset.mem_toList.mpr ?_))
  exact upstream.holds answered _ (List.getLast_mem present)

/-- If no tag leads back to itself then each request is a new one, of which there are one more than
tags. -/
theorem listPages_ends (given : upstream.Gives answers)
    (acyclic : AcyclicFrom (upstream.LeadsOn n goesOn) none)
    (leads : Leads (upstream.LeadsOn n goesOn) none (last :: above))
    (among : ∀ asked ∈ last :: above, asked ∈ none :: tags.toList.map some)
    (enough : tags.card + 1 < fuel + (last :: above).length) :
    ∃ listed, listPages n goesOn answers fuel sent last collected = some listed := by
  induction fuel generalizing sent last above collected with
  | zero =>
    have bound := leads.length_le acyclic among
    have asked : (none :: tags.toList.map some).length = tags.card + 1 := by
      rw [List.length_cons, List.length_map, Finset.length_toList]
    omega
  | succ fuel inductionHypothesis =>
    simp only [listPages]
    split
    · exact ⟨_, rfl⟩
    · rename_i present
      split
      · rename_i goes
        have next : upstream.LeadsOn n goesOn last (answers (⟨n, last⟩ :: sent)).getLast? :=
          ⟨_, given _ _, fun empty => present (List.isEmpty_iff.mpr empty), goes, rfl⟩
        refine inductionHypothesis (leads.down next) ?_ ?_
        · rintro asked (_ | ⟨_, before⟩)
          · exact next.mem
          · exact among asked before
        · rw [List.length_cons]
          omega
      · exact ⟨_, rfl⟩

theorem listPages_ends_of_acyclic (given : upstream.Gives answers)
    (acyclic : AcyclicFrom (upstream.LeadsOn n goesOn) none) :
    ∃ fuel listed, listPages n goesOn answers fuel [] none [] = some listed := by
  refine ⟨tags.card + 1, listPages_ends given acyclic leads_root ?_ ?_⟩
  · intro asked member
    rw [List.mem_singleton.mp member]
    exact List.mem_cons_self
  · rw [List.length_singleton]
    omega

/-! ### Listings that do not end -/

/-- Answers that lead on to the next of some tags each time. -/
theorem listPages_eq_none {asked : Nat → Option String} {pages : Nat → List String}
    (present : ∀ step, pages step ≠ []) (goes : ∀ step, goesOn (pages step) = true)
    (next : ∀ step, (pages step).getLast? = asked (step + 1))
    (answered : ∀ sent, answers (⟨n, asked sent.length⟩ :: sent) = pages sent.length) :
    listPages n goesOn answers fuel sent (asked sent.length) collected = none := by
  induction fuel generalizing sent collected with
  | zero => rfl
  | succ fuel inductionHypothesis =>
    rw [listPages]
    simp only [answered, List.isEmpty_iff, present, goes, next, if_true, if_false]
    exact @inductionHypothesis (⟨n, asked sent.length⟩ :: sent) _

/-- The same page each time, whatever is asked for. -/
theorem listPages_constant {page : List String} (present : page ≠ []) (goes : goesOn page = true) :
    listPages n goesOn (fun _ => page) fuel [] none [] = none := by
  let asked : Nat → Option String := fun step => if step = 0 then none else page.getLast?
  have next : ∀ step, page.getLast? = asked (step + 1) := fun _ => rfl
  exact @listPages_eq_none _ _ _ _ [] _ asked (fun _ => page) (fun _ => present)
    (fun _ => goes) next fun _ => rfl

theorem acyclic_of_ends (ends : ∀ answers, upstream.Gives answers →
    ∃ fuel listed, listPages n goesOn answers fuel [] none [] = some listed) :
    AcyclicFrom (upstream.LeadsOn n goesOn) none := by
  refine acyclicFrom_of_acc (by_contra fun endless => ?_)
  obtain ⟨asked, start, leads⟩ := not_acc_iff_exists_descending_chain.mp endless
  choose pages answered present goes next using leads
  choose other answersOther using upstream.alwaysAnswers
  -- the upstream answers the page that leads on where the listing asks for it
  let answers : TagsAnswers
    | [] => []
    | request :: sent =>
      if request = ⟨n, asked sent.length⟩ then pages sent.length else other request
  have given : upstream.Gives answers := by
    intro request sent
    simp only [answers]
    split
    · rename_i same
      rw [same]
      exact answered sent.length
    · exact answersOther request
  have onPath : ∀ sent, answers (⟨n, asked sent.length⟩ :: sent) = pages sent.length :=
    fun sent => if_pos rfl
  obtain ⟨fuel, listed, returned⟩ := ends answers given
  have never : listPages n goesOn answers fuel [] (asked 0) [] = none :=
    listPages_eq_none present goes next onPath
  rw [start, returned] at never
  cases never

theorem listPages_ends_iff : (∀ answers, upstream.Gives answers →
    ∃ fuel listed, listPages n goesOn answers fuel [] none [] = some listed) ↔
      AcyclicFrom (upstream.LeadsOn n goesOn) none :=
  ⟨acyclic_of_ends, fun acyclic _ given => listPages_ends_of_acyclic given acyclic⟩

/-! ### Complete listings -/

/-- A loop that goes on after full pages returns the tags collected and those that remain. -/
theorem listPages_complete (given : upstream.Gives answers) (paginates : upstream.Paginates)
    (some_asked : 0 < n) (full : ∀ page : List String, page.length = n → goesOn page = true)
    (split : tags.sort (· ≤ ·) = collected ++ keysAfter (tags.sort (· ≤ ·)) last)
    (enough : (keysAfter (tags.sort (· ≤ ·)) last).length < fuel) :
    listPages n goesOn answers fuel sent last collected = some (tags.sort (· ≤ ·)) := by
  induction fuel generalizing sent last collected with
  | zero => exact absurd enough (Nat.not_lt_zero _)
  | succ fuel inductionHypothesis =>
    have answered : answers (⟨n, last⟩ :: sent) = (keysAfter (tags.sort (· ≤ ·)) last).take n :=
      paginates _ _ (given ⟨n, last⟩ sent)
    rw [listPages]
    simp only [answered]
    generalize keysAfter (tags.sort (· ≤ ·)) last = remaining at split enough answered ⊢
    have cut : tags.sort (· ≤ ·) = collected ++ remaining.take n ++ remaining.drop n := by
      rw [List.append_assoc, List.take_append_drop, split]
    split
    · rename_i empty
      rcases List.take_eq_nil_iff.mp (List.isEmpty_iff.mp empty) with zero | nothing
      · exact absurd zero some_asked.ne'
      · rw [split, nothing, List.append_nil]
    · rename_i present
      rw [List.isEmpty_iff] at present
      have left_over : keysAfter (tags.sort (· ≤ ·)) (remaining.take n).getLast? =
          remaining.drop n :=
        keysAfter_getLast tags.sortedLT_sort.pairwise cut present
      split
      · refine inductionHypothesis (by rw [left_over]; exact cut) ?_
        have more : 0 < remaining.length :=
          List.length_pos_iff.mpr fun none_left => present (by rw [none_left, List.take_nil])
        rw [left_over, List.length_drop]
        omega
      · rename_i stops
        -- a page on which the loop stops is short, and so the last one
        have short : remaining.length ≤ n := by
          by_contra longer
          refine stops (full _ ?_)
          rw [List.length_take]
          omega
        rw [cut, List.drop_eq_nil_of_le short, List.append_nil]

theorem listTags_complete (given : upstream.Gives answers) (paginates : upstream.Paginates)
    (enough : tags.card < fuel) :
    UpstreamClient.listTags answers fuel = some (tags.sort (· ≤ ·)) ∧
      RegistryClient.listTags answers fuel = some (tags.sort (· ≤ ·)) := by
  have rounds : (keysAfter (tags.sort (· ≤ ·)) none).length < fuel := by
    rw [keysAfter, Finset.length_sort]
    exact enough
  constructor
  · have complete : listPages 100 gotFullPage answers fuel [] none [] =
        some (tags.sort (· ≤ ·)) :=
      listPages_complete given paginates (by decide) (fun _ full => decide_eq_true full) rfl rounds
    have different : (tags.sort (· ≤ ·)).Pairwise (· ≠ ·) :=
      tags.sortedLT_sort.pairwise.imp fun less => less.ne
    rw [UpstreamClient.listTags, complete, Option.map_some,
      (Finset.pairwise_sort tags (· ≤ ·)).insertionSort_eq,
      List.destutter_of_isChain _ _ different.isChain]
  · exact listPages_complete given paginates (by decide) (fun _ _ => rfl) rfl rounds

/-- The latest tags are the last ones in lexical order. -/
theorem latestTags_eq (given : upstream.Gives answers) (paginates : upstream.Paginates)
    (count : UInt32) (enough : tags.card < fuel) :
    latestTags answers count fuel =
      some ((tags.sort (· ≤ ·)).reverse.take count.toNat) := by
  rw [latestTags, (listTags_complete given paginates enough).1, Option.map_some,
    (Finset.pairwise_sort tags (· ≤ ·)).insertionSort_eq]

end TagsUpstream

/-- Whatever an upstream with finitely many tags answers, each listing ends exactly if no tag leads
from page to page back to itself. Of an upstream that paginates both return all tags in order. -/
theorem tag_lists_end_iff {tags : Finset String} (upstream : TagsUpstream tags) :
    (upstream.ListingEnds UpstreamClient.listTags ↔
      AcyclicFrom (upstream.LeadsOn 100 gotFullPage) none) ∧
    (upstream.ListingEnds RegistryClient.listTags ↔
      AcyclicFrom (upstream.LeadsOn 1000 fun _ => true) none) ∧
    (upstream.Paginates → ∀ answers, upstream.Gives answers → ∀ fuel, tags.card < fuel →
      UpstreamClient.listTags answers fuel = some (tags.sort (· ≤ ·)) ∧
      RegistryClient.listTags answers fuel = some (tags.sort (· ≤ ·))) := by
  refine ⟨?_, TagsUpstream.listPages_ends_iff, fun paginates answers given fuel enough =>
    TagsUpstream.listTags_complete given paginates enough⟩
  simp only [TagsUpstream.ListingEnds, UpstreamClient.listTags_returns]
  exact TagsUpstream.listPages_ends_iff

/-! ### An upstream that paginates and one that does not -/

/-- The upstream that paginates. -/
def TagsUpstream.paginating (tags : Finset String) : TagsUpstream tags where
  mayAnswer request page := page = pageAfter (tags.sort (· ≤ ·)) request.n request.last
  alwaysAnswers _ := ⟨_, rfl⟩
  holds := by
    rintro request page rfl tag member
    have remains := List.mem_of_mem_take member
    refine (Finset.mem_sort (· ≤ ·)).mp ?_
    cases last : request.last with
    | none => rwa [last] at remains
    | some _ =>
      rw [last] at remains
      exact List.mem_of_mem_filter remains

/-- The upstream that answers everything with the same page. -/
def TagsUpstream.ignoring (page : List String) : TagsUpstream page.toFinset where
  mayAnswer _ answer := answer = page
  alwaysAnswers _ := ⟨page, rfl⟩
  holds := by
    rintro _ _ rfl tag member
    exact List.mem_toFinset.mpr member

/-- The answers of an upstream that paginates. -/
def TagsAnswers.paged (tags : List String) : TagsAnswers
  | [] => []
  | request :: _ => pageAfter tags request.n request.last

/-- Two tags of an upstream that paginates. -/
theorem tag_lists_end_iff_sample :
    UpstreamClient.listTags (.paged ["v1", "v2"]) 3 = some ["v1", "v2"] ∧
      RegistryClient.listTags (.paged ["v1", "v2"]) 3 = some ["v1", "v2"] := by
  have sorted : ["v1", "v2"].toFinset.sort (· ≤ ·) = ["v1", "v2"] :=
    (List.toFinset_sort (· ≤ ·) (by decide)).mpr (by decide +kernel)
  have given : (TagsUpstream.paginating ["v1", "v2"].toFinset).Gives (.paged ["v1", "v2"]) := by
    intro request sent
    exact congrArg (pageAfter · request.n request.last) sorted.symm
  have listed := (tag_lists_end_iff (.paginating ["v1", "v2"].toFinset)).2.2
    (fun _ _ same => same) _ given 3 (by decide)
  rwa [sorted] at listed

def hundredTags : List String :=
  (List.range 100).map fun number => "v" ++ toString number

/-- A registry that ignores the query holds the server with a hundred tags, the client with one. -/
theorem ignored_last_never_ends :
    ¬ (TagsUpstream.ignoring hundredTags).ListingEnds UpstreamClient.listTags ∧
      ¬ (TagsUpstream.ignoring ["latest"]).ListingEnds RegistryClient.listTags := by
  constructor
  · intro ends
    obtain ⟨fuel, returned⟩ := ends (fun _ => hundredTags) fun _ _ => rfl
    obtain ⟨listed, returned⟩ := UpstreamClient.listTags_returns.mp returned
    have full : hundredTags.length = 100 := by
      rw [hundredTags, List.length_map, List.length_range]
    have present : hundredTags ≠ [] := List.ne_nil_of_length_pos (by rw [full]; decide)
    rw [TagsUpstream.listPages_constant present (decide_eq_true full)] at returned
    cases returned
  · intro ends
    obtain ⟨fuel, listed, returned⟩ := ends (fun _ => ["latest"]) fun _ _ => rfl
    rw [RegistryClient.listTags, TagsUpstream.listPages_constant (by decide) rfl] at returned
    cases returned

end Layerhouse
