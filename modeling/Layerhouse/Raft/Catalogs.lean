/-
This file is about the listings of the registry's tags and repositories: `list_tags` and
`list_repositories` of `raft/state_machine.rs`, read page by page by a client that asks for what
comes after the last name it was shown, until a page is empty. Between two reads the state may
change in any way.

Rust orders strings by their bytes, the model by their characters, which is the same order.
-/

import Layerhouse.Library.Pages
import Layerhouse.Raft.StateMachine

namespace Layerhouse

/-! ### The listings -/

/-- What `list_tags` and `list_repositories` return of the keys of a map. -/
def listKeys (keys : List String) (n : Option Nat) (last : Option String) : List String :=
  let found := match last with
    | some last => keys.filter (last < ·)
    | none => keys
  let sorted := found.mergeSort (· ≤ ·)
  match n with
  | some n => sorted.take n
  | none => sorted

namespace StateMachineData

def listTags (data : StateMachineData) (name : String) (n : Option Nat) (last : Option String) :
    List String :=
  match data.tags[name]? with
  | none => []
  | some repoTags => listKeys repoTags.keys n last

def listRepositories (data : StateMachineData) (n : Option Nat) (last : Option String) :
    List String :=
  listKeys data.manifests.keys n last

/-- The repository has the tag. -/
def HasTag (data : StateMachineData) (name tag : String) : Prop :=
  ∃ repoTags, data.tags[name]? = some repoTags ∧ tag ∈ repoTags

/-- The key of a repository, which has a map of manifests. -/
def HasRepository (data : StateMachineData) (name : String) : Prop :=
  name ∈ data.manifests

end StateMachineData

/-! ### Reading them page by page -/

/-- The listing that a turn of the client reads is that of the state at that turn. -/
def readListing {State : Type} (list : State → Option Nat → Option String → List String)
    (states : Nat → State) (n fuel : Nat) : Option (List (List String)) :=
  readPages (fun turn last => list (states turn) (some n) last) fuel 0 none

/-- The pages show each of these names once, and show names in the order of their bytes. -/
structure ShowsOnce (pages : List (List String)) (names : String → Prop) : Prop where
  ascending : pages.flatten.Pairwise fun first second =>
    Text.utf8 first.toList < Text.utf8 second.toList
  once : ∀ name, names name → pages.flatten.count name = 1

/-- A listing of names that is exact when it is read in pages of one size. -/
structure PaginatesExactly {State : Type}
    (list : State → Option Nat → Option String → List String) (has : State → String → Prop) :
    Prop where
  unchanged : ∀ state n, 0 < n → ∃ enough, ∀ fuel, enough ≤ fuel → ∃ pages,
    readListing list (fun _ => state) n fuel = some pages ∧ ShowsOnce pages (has state) ∧
      ∀ name ∈ pages.flatten, has state name
  changing : ∀ states n, 0 < n → ∀ fuel pages, readListing list states n fuel = some pages →
    ShowsOnce pages (fun name => ∀ turn ≤ pages.length, has (states turn) name) ∧
      ∀ name ∈ pages.flatten, ∃ turn < pages.length, has (states turn) name

theorem listKeys_eq_pageAfter (keys : List String) (n : Nat) (last : Option String) :
    listKeys keys (some n) last = pageAfter (keys.mergeSort (· ≤ ·)) n last := by
  have sorted (names : List String) : (names.mergeSort (· ≤ ·)).Pairwise (· ≤ ·) :=
    List.pairwise_mergeSort' _ _
  cases last with
  | none => rfl
  | some last =>
    have same : (keys.filter (last < ·)).mergeSort (· ≤ ·) =
        (keys.mergeSort (· ≤ ·)).filter (last < ·) := by
      refine List.Perm.eq_of_pairwise' (sorted _) ((sorted keys).filter _) ?_
      exact (List.mergeSort_perm _ _).trans ((List.mergeSort_perm _ _).symm.filter _)
    rw [pageAfter, keysAfter, ← same]
    rfl

theorem mergeSort_increasing {keys : List String} (nodup : keys.Nodup) :
    (keys.mergeSort (· ≤ ·)).Pairwise (· < ·) := by
  have sorted : (keys.mergeSort (· ≤ ·)).Pairwise (· ≤ ·) := List.pairwise_mergeSort' _ _
  have distinct : (keys.mergeSort (· ≤ ·)).Nodup := (List.mergeSort_perm _ _).nodup_iff.mpr nodup
  exact (sorted.sortedLE.sortedLT_of_nodup distinct).pairwise

theorem ascending_of_increasing {names : List String} (increasing : names.Pairwise (· < ·)) :
    names.Pairwise fun first second =>
      Text.utf8 first.toList < Text.utf8 second.toList :=
  increasing.imp fun below => Text.utf8_lt_utf8.mpr (String.lt_iff_toList_lt.mp below)

/-- A listing of keys without repetitions is exact when it is read in pages. -/
theorem PaginatesExactly.of_keys {State : Type}
    {list : State → Option Nat → Option String → List String} {has : State → String → Prop}
    {keys : State → List String} (nodup : ∀ state, (keys state).Nodup)
    (lists : ∀ state n last, list state n last = listKeys (keys state) n last)
    (holds : ∀ state name, name ∈ keys state ↔ has state name) : PaginatesExactly list has := by
  have read_eq (states : Nat → State) (n fuel : Nat) : readListing list states n fuel =
      readPages (fun turn last => pageAfter ((keys (states turn)).mergeSort (· ≤ ·)) n last)
        fuel 0 none := by
    simp only [readListing, lists, listKeys_eq_pageAfter]
  have increasing (state : State) : ((keys state).mergeSort (· ≤ ·)).Pairwise (· < ·) :=
    mergeSort_increasing (nodup state)
  have listed (state : State) (name : String) :
      name ∈ (keys state).mergeSort (· ≤ ·) ↔ has state name :=
    List.mem_mergeSort.trans (holds state name)
  have start (name : String) : IsAfter none name := fun bound isCursor => nomatch isCursor
  constructor
  · intro state n positive
    refine ⟨(keys state).length + 1, fun fuel enough => ?_⟩
    have rounds : (keysAfter ((keys state).mergeSort (· ≤ ·)) none).length < fuel := by
      rw [keysAfter, List.length_mergeSort]
      exact enough
    obtain ⟨pages, read, flat⟩ : ∃ pages,
        readPages (fun _ last => pageAfter ((keys state).mergeSort (· ≤ ·)) n last) fuel 0 none =
          some pages ∧ pages.flatten = keysAfter ((keys state).mergeSort (· ≤ ·)) none :=
      readPages_fixed positive (increasing state) (List.nil_append _).symm rounds
    rw [read_eq]
    rw [keysAfter] at flat
    refine ⟨pages, read, ⟨?_, fun name present => ?_⟩, fun name shown => ?_⟩
    · rw [flat]
      exact ascending_of_increasing (increasing state)
    · rw [flat]
      exact List.count_eq_one_of_mem (increasing state).nodup ((listed state name).mpr present)
    · rw [flat] at shown
      exact (listed state name).mp shown
  · intro states n positive fuel pages read
    rw [read_eq] at read
    obtain ⟨ascending, shown⟩ :=
      increasing_of_readPages (fun turn => increasing (states turn)) read
    refine ⟨⟨ascending_of_increasing ascending, fun name stays => ?_⟩, fun name member => ?_⟩
    · refine List.count_eq_one_of_mem ascending.nodup ?_
      refine mem_of_readPages positive (fun turn => increasing (states turn)) read (start name) ?_
      intro turn _ inTime
      exact (listed _ name).mpr (stays turn (by omega))
    · obtain ⟨_, turn, _, inTime, present⟩ := shown name member
      exact ⟨turn, by omega, (listed _ name).mp present⟩

/-! ### The listings are exact -/

namespace StateMachineData

/-- The tags of a repository, none if it has no map of them. -/
def tagNames (data : StateMachineData) (name : String) : List String :=
  (data.tags[name]?.map (·.keys)).getD []

theorem listTags_eq (data : StateMachineData) (name : String) (n : Option Nat)
    (last : Option String) : data.listTags name n last = listKeys (data.tagNames name) n last := by
  rw [listTags, tagNames]
  cases data.tags[name]? with
  | some repoTags => rfl
  | none =>
    cases n <;> cases last <;> simp [listKeys]

theorem nodup_tagNames (data : StateMachineData) (name : String) : (data.tagNames name).Nodup := by
  rw [tagNames]
  cases data.tags[name]? with
  | none => exact List.nodup_nil
  | some repoTags => exact Std.ExtTreeMap.nodup_keys

theorem mem_tagNames (data : StateMachineData) (name tag : String) :
    tag ∈ data.tagNames name ↔ data.HasTag name tag := by
  rw [tagNames, HasTag]
  cases data.tags[name]? with
  | none => simp
  | some repoTags => simp [Std.ExtTreeMap.mem_keys]

end StateMachineData

/-- The tags of every repository and the repositories themselves are shown exactly when they are
read in pages. -/
theorem pagination_is_exact :
    (∀ name, PaginatesExactly (fun data => StateMachineData.listTags data name)
      fun data tag => data.HasTag name tag) ∧
    PaginatesExactly StateMachineData.listRepositories StateMachineData.HasRepository := by
  constructor
  · intro name
    exact PaginatesExactly.of_keys (fun data => data.nodup_tagNames name)
      (fun data n last => data.listTags_eq name n last) fun data tag => data.mem_tagNames name tag
  · exact PaginatesExactly.of_keys (fun data => Std.ExtTreeMap.nodup_keys)
      (fun data n last => rfl) fun data name => Std.ExtTreeMap.mem_keys

end Layerhouse
