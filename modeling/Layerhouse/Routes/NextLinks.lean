/-
This file is about following the links of the dashboard's listings from page to page, over a state,
a caller and a time that do not change. A link names the page size and the last item of the page,
and nothing of the search, the filters and the order that were asked for, so behind the first page
comes what follows that item among all items, the ones updated last first.

The client reads the target of a link, the server the query of the next request; neither is part
of the repository. What can be relied on is that a URL is read as it was written if the names in it
need no escapes. All such clients visit the filtered and sorted list exactly if it fits in one
page, or it goes on behind its first page like the list of all items does, and its pages end in
names without escapes.
-/

import Layerhouse.Raft.Effects
import Layerhouse.Routes.Listings

namespace Layerhouse

open Cursors

/-! ### Texts in a URL -/

/-- The characters that a query of a URL may hold and that a form in it spells as themselves. -/
def standsInQuery (char : Char) : Bool :=
  char.isAlphanum || "-._~!$'()*,;=:@/?".toList.contains char

/-- The characters that a path of a URL may hold. -/
def standsInPath (char : Char) : Bool :=
  char.isAlphanum || "-._~!$&'()*+,;=:@/".toList.contains char

def QueryText (text : String) : Prop :=
  ∀ char ∈ text.toList, standsInQuery char = true

/-- A text that a client leaves as it is in a path, without segments that it would resolve. -/
structure PathText (text : String) : Prop where
  stands : ∀ char ∈ text.toList, standsInPath char = true
  unresolved : ∀ segment ∈ pathSegments text, segment ≠ "." ∧ segment ≠ ".."

/-- A header may hold any printable ASCII text. -/
def ListingExternals.AcceptsText (externals : ListingExternals) : Prop :=
  ∀ text, (∀ char ∈ text.toList, ' ' ≤ char ∧ char ≤ '~') → externals.headerFromStr text = .ok ()

theorem printable_of_isAlphanum {char : Char} (alphanum : char.isAlphanum = true) :
    ' ' ≤ char ∧ char ≤ '~' := by
  obtain ⟨above, below⟩ := Text.visible_of_isAlphanum alphanum
  exact ⟨(Nat.le_succ 32).trans above, below⟩

theorem printable_of_standsInQuery {char : Char} (stands : standsInQuery char = true) :
    ' ' ≤ char ∧ char ≤ '~' := by
  have signs : ∀ char ∈ "-._~!$'()*,;=:@/?".toList, ' ' ≤ char ∧ char ≤ '~' := by simp
  rw [standsInQuery, Bool.or_eq_true, List.contains_iff_mem] at stands
  exact stands.elim printable_of_isAlphanum (signs char)

theorem printable_of_standsInPath {char : Char} (stands : standsInPath char = true) :
    ' ' ≤ char ∧ char ≤ '~' := by
  have signs : ∀ char ∈ "-._~!$&'()*+,;=:@/".toList, ' ' ≤ char ∧ char ≤ '~' := by simp
  rw [standsInPath, Bool.or_eq_true, List.contains_iff_mem] at stands
  exact stands.elim printable_of_isAlphanum (signs char)

theorem printable_toString {number : Nat} {char : Char}
    (member : char ∈ (toString number).toList) : ' ' ≤ char ∧ char ≤ '~' := by
  refine printable_of_isAlphanum ?_
  rw [Char.isAlphanum, Text.isDigit_of_mem_toString member, Bool.or_true]

/-- The server's decoder leaves a text for a path as it is. -/
theorem percentDecode_of_pathText {text : String} (plain : PathText text) :
    percentDecode text = text := by
  refine (percentDecode_eq_self_iff text).mpr fun escaped => ?_
  obtain ⟨before, second, third, after, _, split, _⟩ := escaped
  obtain ⟨first, rest, rfl, followed⟩ := Text.utf8_split (by decide) split
  rw [followed, Text.utf8_join (by decide)] at split
  have member : '%' ∈ text.toList := by
    rw [Text.utf8_inj split]
    exact List.mem_append_right first List.mem_cons_self
  exact absurd (plain.stands '%' member) (by decide)

/-! ### Links -/

/-- The text of the header with a link whose parts need no escapes is printable. -/
theorem printable_nextLink {base last : String} {n : Nat}
    (plainBase : ∀ char ∈ base.toList, ' ' ≤ char ∧ char ≤ '~') (plain : QueryText last) :
    ∀ char ∈ (nextLink (nextUrl base n last)).toList, ' ' ≤ char ∧ char ≤ '~' := by
  intro char member
  simp only [nextLink, nextUrl, String.toList_append, List.mem_append] at member
  have signs : ∀ char ∈ "<".toList ++ "?n=".toList ++ "&last=".toList ++ ">; rel=\"next\"".toList,
      ' ' ≤ char ∧ char ≤ '~' := by simp
  simp only [List.mem_append] at signs
  rcases member with (inOpen | (((inBase | inQuery) | inNumber) | inMiddle) | inLast) | inClose
  · exact signs char (Or.inl (Or.inl (Or.inl inOpen)))
  · exact plainBase char inBase
  · exact signs char (Or.inl (Or.inl (Or.inr inQuery)))
  · exact printable_toString inNumber
  · exact signs char (Or.inl (Or.inr inMiddle))
  · exact printable_of_standsInQuery (plain char inLast)
  · exact signs char (Or.inr inClose)

theorem nextLink_injective (base : String) (n : Nat) :
    Function.Injective (nextLink ∘ nextUrl base n) := by
  intro first second same
  simp only [Function.comp_apply, nextLink, nextUrl] at same
  exact (String.append_right_inj _).mp ((String.append_right_inj _).mp
    ((String.append_left_inj _).mp same))

theorem printable_repositoriesUrl : ∀ char ∈ repositoriesUrl.toList, ' ' ≤ char ∧ char ≤ '~' := by
  simp [repositoriesUrl]

/-! ### Repositories -/

/-- The query that the link to a next page of `n` repositories asks for. -/
def repositoryCursor (n : Nat) (last : String) : RepositoryQuery where
  n := some n
  last := some last

/-- A page of repositories and its link, unless the request fails. -/
def repositoriesAnswer (externals : ListingExternals) (data : StateMachineData) (now : Nat)
    (auth : Option AuthService) (identity : Option AuthIdentity) (query : RepositoryQuery) :
    Option (List EnrichedRepositorySummary × Option String) :=
  (listRepositories externals data now auth identity query).toOption.map fun response =>
    (response.body.repositories, response.link)

/-- Whoever follows the links from a query visits these repositories. -/
def RepositoryLinksVisit (externals : ListingExternals) (data : StateMachineData) (now : Nat)
    (auth : Option AuthService) (identity : Option AuthIdentity) (query : RepositoryQuery)
    (repos : List EnrichedRepositorySummary) : Prop :=
  ∀ follow : String → Option RepositoryQuery,
    (∀ last, QueryText last →
      follow (nextLink (nextUrl repositoriesUrl (pageSize query.n) last)) =
        some (repositoryCursor (pageSize query.n) last)) →
    Visits (repositoriesAnswer externals data now auth identity) follow query repos

section Repositories

variable {externals : ListingExternals} {data : StateMachineData} {now : Nat}
  {auth : Option AuthService} {identity : Option AuthIdentity} {query : RepositoryQuery}
  {repos whole : List EnrichedRepositorySummary}

/-- A request for repositories is answered by a page of what comes behind the cursor. -/
theorem page_of_repositoriesAnswer {page : List EnrichedRepositorySummary × Option String}
    (found : matchingRepositories externals data now auth identity query = .ok repos)
    (answered : repositoriesAnswer externals data now auth identity query = some page) :
    page = pageOf (·.name) (nextLink ∘ nextUrl repositoriesUrl (pageSize query.n))
      (pageSize query.n) (after (·.name) repos query.last) := by
  rw [repositoriesAnswer, listRepositories, found] at answered
  simp only [paginate_eq, Option.map_eq_some_iff, exceptToOption_eq_some] at answered
  obtain ⟨response, served, rfl⟩ := answered
  rw [link_of_withLink served]
  rfl

theorem repositoriesAnswer_eq (accepts : externals.AcceptsText)
    (found : matchingRepositories externals data now auth identity query = .ok repos)
    (ends : ∀ repo, EndsPage (pageSize query.n) (after (·.name) repos query.last) repo →
      QueryText repo.name) :
    repositoriesAnswer externals data now auth identity query =
      some (pageOf (·.name) (nextLink ∘ nextUrl repositoriesUrl (pageSize query.n))
        (pageSize query.n) (after (·.name) repos query.last)) := by
  have accepted : ∀ link, (pageOf (·.name) (nextLink ∘ nextUrl repositoriesUrl (pageSize query.n))
      (pageSize query.n) (after (·.name) repos query.last)).2 = some link →
        externals.headerFromStr link = .ok () := by
    intro link linked
    obtain ⟨repo, ending, rfl⟩ := endsPage_of_link (pageSize_pos query.n) linked
    exact accepts _ (printable_nextLink printable_repositoriesUrl (ends repo ending))
  rw [repositoriesAnswer, listRepositories, found]
  simp only [paginate_eq]
  rw [withLink_page accepted]
  rfl

/-- All clients visit the repositories that a query asks for exactly if behind the first page they
go on like all repositories, the ones updated last first. -/
theorem repositoryLinksVisit_iff (accepts : externals.AcceptsText) (start : query.last = none)
    (found : matchingRepositories externals data now auth identity query = .ok repos)
    (all : matchingRepositories externals data now auth identity {} = .ok whole) :
    RepositoryLinksVisit externals data now auth identity query repos ↔
      Continues (·.name) QueryText (pageSize query.n) whole repos := by
  have positive := pageSize_pos query.n
  have distinct := nodup_matchingRepositories all
  have again : ∀ last, matchingRepositories externals data now auth identity
      (repositoryCursor (pageSize query.n) last) = .ok whole := fun _ => all
  have same : pageSize (some (pageSize query.n)) = pageSize query.n := pageSize_pageSize query.n
  have fromStart : after (·.name) repos query.last = repos := by
    rw [start]
    rfl
  constructor
  · intro visits
    obtain ⟨follow, reads, strict⟩ := exists_strict (nextLink_injective repositoriesUrl
      (pageSize query.n)) (repositoryCursor (pageSize query.n)) QueryText
    refine continues_of_visits positive distinct (fun last page _ answered => ?_)
      (fun last following page followed _ => strict last following followed)
      (fun page answered => ?_) (visits follow reads)
    · have paged := page_of_repositoriesAnswer (again last) answered
      rw [repositoryCursor, same] at paged
      exact paged
    · have paged := page_of_repositoriesAnswer found answered
      rwa [fromStart] at paged
  · intro continues follow reads
    refine visits_of_continues positive distinct (fun last _ ends => ?_) reads ?_ continues
    · have served := repositoriesAnswer_eq accepts (again last)
      rw [repositoryCursor, same] at served
      exact served ends
    · have served := repositoriesAnswer_eq accepts found
      rw [fromStart] at served
      exact served continues.carried

end Repositories


/-! ### Manifests -/

/-- The name that `repository_dispatch_result` passes to `list_manifests` on a `GET` of a path,
unless an authenticated caller may not pull from it. -/
def manifestsRequested (auth : Option AuthService) (identity : Option AuthIdentity)
    (data : StateMachineData) (path : String) : Option String :=
  match Text.rsplitOnce ["manifests"] (pathSegments (trimEndSlashes path)) with
  | some (before, []) =>
    let name := "/".intercalate before
    match authenticated auth identity with
    | some (service, identity) =>
      match checkPermission service data identity name .pull with
      | .error _ => none
      | .ok _ => some name
    | none => some name
  | _ => none

/-- An authenticated caller may pull from the repository. -/
def MayPull (auth : Option AuthService) (identity : Option AuthIdentity)
    (data : StateMachineData) (name : String) : Prop :=
  ∀ service caller, authenticated auth identity = some (service, caller) →
    ∃ access, checkPermission service data caller name .pull = .ok access

/-- The request that the link to a next page of `n` manifests asks for: the path and the query. -/
def manifestCursor (name : String) (n : Nat) (last : String) : String × ManifestQuery :=
  (name ++ "/manifests", { n := some n, last := some last })

/-- A page of manifests and its link, unless the request fails. -/
def manifestsAnswer (externals : ListingExternals) (data : StateMachineData)
    (auth : Option AuthService) (identity : Option AuthIdentity)
    (request : String × ManifestQuery) : Option (List ManifestSummary × Option String) :=
  (manifestsRequested auth identity data request.1).bind fun name =>
    (listManifests externals data name request.2).toOption.map fun response =>
      (response.body.manifests, response.link)

/-- Whoever follows the links from a request for the manifests of a repository visits these. -/
def ManifestLinksVisit (externals : ListingExternals) (data : StateMachineData)
    (auth : Option AuthService) (identity : Option AuthIdentity) (name : String)
    (request : String × ManifestQuery) (manifests : List ManifestSummary) : Prop :=
  ∀ follow : String → Option (String × ManifestQuery),
    (∀ last, PathText name → QueryText last →
      follow (nextLink (nextUrl (manifestsUrl name) (pageSize request.2.n) last)) =
        some (manifestCursor name (pageSize request.2.n) last)) →
    Visits (manifestsAnswer externals data auth identity) follow request manifests

section Manifests

variable {externals : ListingExternals} {data : StateMachineData}
  {auth : Option AuthService} {identity : Option AuthIdentity} {path name : String}
  {query : ManifestQuery} {manifests whole : List ManifestSummary}

theorem manifestsRequested_eq_some :
    manifestsRequested auth identity data path = some name ↔
      ∃ before, pathSegments (trimEndSlashes path) = before ++ ["manifests"] ∧
        name = "/".intercalate before ∧ MayPull auth identity data name := by
  rw [manifestsRequested]
  constructor
  · intro requested
    split at requested
    · rename_i before split
      refine ⟨before, (Text.rsplitOnce_singleton.mp split).1, ?_⟩
      dsimp only at requested
      split at requested
      · rename_i service caller known
        split at requested
        · cases requested
        · rename_i access permitted
          cases requested
          refine ⟨rfl, fun other another same => ?_⟩
          rw [known, Option.some.injEq, Prod.mk.injEq] at same
          exact ⟨access, same.1 ▸ same.2 ▸ permitted⟩
      · rename_i unknown
        cases requested
        refine ⟨rfl, fun service caller known => ?_⟩
        rw [unknown] at known
        cases known
    · cases requested
  · rintro ⟨before, segments, rfl, mayPull⟩
    rw [Text.rsplitOnce_singleton.mpr ⟨segments, List.not_mem_nil⟩]
    cases known : authenticated auth identity with
    | none => rfl
    | some pair =>
      obtain ⟨access, permitted⟩ := mayPull pair.1 pair.2 known
      simp only [permitted]

/-- For an authenticated caller the name is the one that is checked before the listing. -/
theorem manifestsRequested_authenticated {service : AuthService} {caller : AuthIdentity} :
    manifestsRequested (some service) (some caller) data path = some name ↔
      repositoryDispatchGet service data caller (.ok ()) path =
        .reads name .listManifests (percentDecode name) := by
  rw [manifestsRequested_eq_some, repositoryDispatchGet_eq_reads]
  constructor
  · rintro ⟨before, segments, rfl, mayPull⟩
    obtain ⟨access, permitted⟩ := mayPull service caller rfl
    exact ⟨before, [], access, segments, List.not_mem_nil, rfl, permitted, rfl, rfl⟩
  · rintro ⟨before, tail, access, segments, _, rfl, permitted, handled, _⟩
    have empty : tail = [] := by
      unfold manifestHandler at handled
      split at handled
      · rfl
      · cases handled
      · cases handled
      · cases handled
    subst empty
    refine ⟨before, segments, rfl, fun other another known => ?_⟩
    cases known
    exact ⟨access, permitted⟩

theorem pathSegments_manifests (name : String) :
    pathSegments (trimEndSlashes (name ++ "/manifests")) = pathSegments name ++ ["manifests"] := by
  have listed : (name ++ "/manifests").toList = name.toList ++ '/' :: "manifests".toList :=
    String.toList_append
  have trimmed : trimEndSlashes (name ++ "/manifests") = name ++ "/manifests" := by
    have last : (name ++ "/manifests").toList = (name.toList ++ "/manifest".toList) ++ ['s'] := by
      rw [listed, List.append_assoc]
      rfl
    rw [trimEndSlashes, last, List.rdropWhile_concat_neg _ _ _ (by decide), ← last,
      String.ofList_toList]
  rw [trimmed, pathSegments, listed, List.splitOn, List.splitOnP_append_cons _ _ (by decide),
    List.map_append]
  rfl

theorem intercalate_pathSegments (name : String) : "/".intercalate (pathSegments name) = name := by
  have segments : (pathSegments name).map String.toList = name.toList.splitOn '/' := by
    rw [pathSegments, List.map_map]
    exact List.map_id'' (fun segment => String.toList_ofList) _
  refine String.toList_inj.mp ?_
  rw [String.toList_intercalate, segments]
  exact List.intercalate_splitOn '/'

/-- A link to manifests asks for those of the repository that it names. -/
theorem manifestsRequested_link {other : String} :
    manifestsRequested auth identity data (name ++ "/manifests") = some other ↔
      other = name ∧ MayPull auth identity data name := by
  rw [manifestsRequested_eq_some, pathSegments_manifests]
  constructor
  · rintro ⟨before, segments, rfl, mayPull⟩
    have same := List.append_cancel_right segments
    rw [← same, intercalate_pathSegments] at mayPull ⊢
    exact ⟨rfl, mayPull⟩
  · rintro ⟨rfl, mayPull⟩
    exact ⟨pathSegments other, rfl, (intercalate_pathSegments other).symm, mayPull⟩

theorem printable_manifestsUrl (plain : PathText name) :
    ∀ char ∈ (manifestsUrl name).toList, ' ' ≤ char ∧ char ≤ '~' := by
  intro char member
  simp only [manifestsUrl, String.toList_append, List.mem_append] at member
  rcases member with ((inRoot | slash) | inName) | inEnd
  · exact printable_repositoriesUrl char inRoot
  · revert char
    simp
  · exact printable_of_standsInPath (plain.stands char inName)
  · revert char
    simp

/-- A request for manifests is answered by a page of what comes behind the cursor. -/
theorem page_of_manifestsAnswer {page : List ManifestSummary × Option String}
    (requested : manifestsRequested auth identity data path = some name)
    (found : matchingManifests externals data (percentDecode name) query = .ok manifests)
    (answered : manifestsAnswer externals data auth identity (path, query) = some page) :
    page = pageOf (·.digest)
      (nextLink ∘ nextUrl (manifestsUrl (percentDecode name)) (pageSize query.n))
      (pageSize query.n) (after (·.digest) manifests query.last) := by
  rw [manifestsAnswer, requested, Option.bind_some, listManifests] at answered
  simp only [found, paginate_eq, Option.map_eq_some_iff, exceptToOption_eq_some] at answered
  obtain ⟨response, served, rfl⟩ := answered
  rw [link_of_withLink served]
  rfl

theorem manifestsAnswer_eq (accepts : externals.AcceptsText)
    (requested : manifestsRequested auth identity data path = some name)
    (found : matchingManifests externals data (percentDecode name) query = .ok manifests)
    (ends : ∀ item, EndsPage (pageSize query.n) (after (·.digest) manifests query.last) item →
      PathText (percentDecode name) ∧ QueryText item.digest) :
    manifestsAnswer externals data auth identity (path, query) =
      some (pageOf (·.digest)
        (nextLink ∘ nextUrl (manifestsUrl (percentDecode name)) (pageSize query.n))
        (pageSize query.n) (after (·.digest) manifests query.last)) := by
  have accepted : ∀ link, (pageOf (·.digest)
      (nextLink ∘ nextUrl (manifestsUrl (percentDecode name)) (pageSize query.n))
      (pageSize query.n) (after (·.digest) manifests query.last)).2 = some link →
        externals.headerFromStr link = .ok () := by
    intro link linked
    obtain ⟨item, ending, rfl⟩ := endsPage_of_link (pageSize_pos query.n) linked
    obtain ⟨plainName, plainDigest⟩ := ends item ending
    exact accepts _ (printable_nextLink (printable_manifestsUrl plainName) plainDigest)
  rw [manifestsAnswer, requested, Option.bind_some, listManifests, found]
  simp only [paginate_eq]
  rw [withLink_page accepted]
  rfl

/-- All clients visit the manifests that a request asks for exactly if behind the first page they
go on like all manifests of the repository, the ones updated last first, and the repository that
the links name can be asked for and pulled from. -/
theorem manifestLinksVisit_iff (accepts : externals.AcceptsText) (start : query.last = none)
    (requested : manifestsRequested auth identity data path = some name)
    (found : matchingManifests externals data (percentDecode name) query = .ok manifests)
    (all : matchingManifests externals data (percentDecode name) {} = .ok whole) :
    ManifestLinksVisit externals data auth identity (percentDecode name) (path, query) manifests ↔
      Continues (·.digest) (fun digest => (PathText (percentDecode name) ∧ QueryText digest) ∧
        MayPull auth identity data (percentDecode name)) (pageSize query.n) whole manifests := by
  have positive := pageSize_pos query.n
  have distinct := nodup_matchingManifests all
  have same : pageSize (some (pageSize query.n)) = pageSize query.n := pageSize_pageSize query.n
  have fromStart : after (·.digest) manifests query.last = manifests := by
    rw [start]
    rfl
  have again : PathText (percentDecode name) → ∀ last,
      matchingManifests externals data (percentDecode (percentDecode name))
        (manifestCursor (percentDecode name) (pageSize query.n) last).2 = .ok whole := by
    intro plain last
    rw [percentDecode_of_pathText plain]
    exact all
  constructor
  · intro visits
    obtain ⟨follow, reads, strict⟩ := exists_strict (nextLink_injective
      (manifestsUrl (percentDecode name)) (pageSize query.n))
      (manifestCursor (percentDecode name) (pageSize query.n))
      (fun digest => PathText (percentDecode name) ∧ QueryText digest)
    have served : ∀ last following page,
        follow (nextLink (nextUrl (manifestsUrl (percentDecode name)) (pageSize query.n) last)) =
          some following →
        manifestsAnswer externals data auth identity following = some page →
          ((PathText (percentDecode name) ∧ QueryText last) ∧
            MayPull auth identity data (percentDecode name)) ∧
          following = manifestCursor (percentDecode name) (pageSize query.n) last := by
      intro last following page followed answered
      obtain ⟨plain, rfl⟩ := strict last following followed
      obtain ⟨other, again, _⟩ := Option.bind_eq_some_iff.mp answered
      exact ⟨⟨plain, (manifestsRequested_link.mp again).2⟩, rfl⟩
    have visited := visits follow fun last plainName plain => reads last ⟨plainName, plain⟩
    refine continues_of_visits positive distinct (fun last page carries answered => ?_) served
      (fun page answered => ?_) visited
    · have paged := page_of_manifestsAnswer (manifestsRequested_link.mpr ⟨rfl, carries.2⟩)
        (again carries.1.1 last) answered
      rw [percentDecode_of_pathText carries.1.1, manifestCursor, same] at paged
      exact paged
    · have paged := page_of_manifestsAnswer requested found answered
      rwa [fromStart] at paged
  · intro continues follow reads
    refine visits_of_continues positive distinct (fun last carries ends => ?_)
      (fun last carries => reads last carries.1.1 carries.1.2) ?_ continues
    · have served := manifestsAnswer_eq accepts (manifestsRequested_link.mpr ⟨rfl, carries.2⟩)
        (again carries.1.1 last)
      rw [percentDecode_of_pathText carries.1.1, manifestCursor, same] at served
      exact served fun item ending => (ends item ending).1
    · have served := manifestsAnswer_eq accepts requested found
      rw [fromStart] at served
      exact served fun item ending => (continues.carried item ending).1

end Manifests

/-- The links of both listings lead through the filtered and sorted list exactly if it fits in one
page, or behind its first page it goes on like the list without filters that is in the order of
the last update, and what stands in the links can be read. -/
theorem next_links_visit_iff {externals : ListingExternals} (accepts : externals.AcceptsText)
    (data : StateMachineData) (now : Nat) (auth : Option AuthService)
    (identity : Option AuthIdentity) :
    (∀ query repos whole, query.last = none →
      matchingRepositories externals data now auth identity query = .ok repos →
      matchingRepositories externals data now auth identity {} = .ok whole →
        (RepositoryLinksVisit externals data now auth identity query repos ↔
          Continues (·.name) QueryText (pageSize query.n) whole repos)) ∧
    ∀ path name query manifests whole, query.last = none →
      manifestsRequested auth identity data path = some name →
      matchingManifests externals data (percentDecode name) query = .ok manifests →
      matchingManifests externals data (percentDecode name) {} = .ok whole →
        (ManifestLinksVisit externals data auth identity (percentDecode name) (path, query)
            manifests ↔
          Continues (·.digest) (fun digest => (PathText (percentDecode name) ∧ QueryText digest) ∧
            MayPull auth identity data (percentDecode name)) (pageSize query.n) whole manifests) :=
  ⟨fun _ _ _ start found all => repositoryLinksVisit_iff accepts start found all,
    fun _ _ _ _ _ start requested found all =>
      manifestLinksVisit_iff accepts start requested found all⟩

/-! ### Two repositories -/

def sampleListingExternals : ListingExternals where
  toExternals := sampleExternals
  toLowercase := id
  printValue := fun _ => "null"
  parseFromRfc3339 := fun _ => .error "input contains invalid characters"
  headerFromStr := fun text =>
    if ∀ char ∈ text.toList, ' ' ≤ char ∧ char ≤ '~' then .ok ()
    else .error "failed to parse header value"

def sampleListedRepository (name : String) (createdAt : Nat) : Repository where
  name := name
  description := ""
  createdBy := none
  visibility := .privateAccess
  createdAt := createdAt

/-- Two repositories without manifests, the second one created later. -/
def sampleListedState : StateMachineData :=
  { StateMachineData.empty with
    repositories := ((∅ : BTreeMap String Repository).insert "a"
      (sampleListedRepository "a" 1)).insert "b" (sampleListedRepository "b" 2) }

/-- What the listing shows of such a repository without authorization. -/
def sampleListedSummary (name : String) (createdAt : Nat) : EnrichedRepositorySummary :=
  { shadowSummary name (sampleListedRepository name createdAt) with
    accessLevel := .delete
    maxGrantable := .delete
    grantSource := .publicAccess }

theorem acceptsText_sample : sampleListingExternals.AcceptsText := by
  intro text printable
  simp only [sampleListingExternals]
  rw [if_pos printable]

theorem next_links_visit_two_pages :
    RepositoryLinksVisit sampleListingExternals sampleListedState 2 none none { n := some 1 }
      [sampleListedSummary "b" 2, sampleListedSummary "a" 1] := by
  refine ((next_links_visit_iff acceptsText_sample sampleListedState 2 none none).1
    { n := some 1 } _ _ rfl rfl rfl).mpr (continues_whole (pageSize_pos _) (by decide) ?_)
  intro repo ending
  have listed : repo ∈ [sampleListedSummary "b" 2, sampleListedSummary "a" 1] := by
    obtain ⟨_, found, _⟩ := ending
    exact List.mem_of_getElem? found
  rcases List.mem_pair.mp listed with rfl | rfl
  · exact fun char member => by
      rw [List.mem_singleton.mp member]
      rfl
  · exact fun char member => by
      rw [List.mem_singleton.mp member]
      rfl

/-- In the order of the names the first page ends in the repository that the order of the last
update has at its end, so its link leads to an empty page and the other one is never shown. -/
theorem name_order_skips_repository :
    ∃ externals data now query repos,
      externals.AcceptsText ∧ query.last = none ∧
      matchingRepositories externals data now none none query = .ok repos ∧
      ¬ RepositoryLinksVisit externals data now none none query repos := by
  refine ⟨sampleListingExternals, sampleListedState, 2, { n := some 1, sort := some "name_asc" },
    [sampleListedSummary "a" 1, sampleListedSummary "b" 2], acceptsText_sample, rfl, rfl,
    fun visits => ?_⟩
  have all : matchingRepositories sampleListingExternals sampleListedState 2 none none {} =
      .ok [sampleListedSummary "b" 2, sampleListedSummary "a" 1] := rfl
  have continues := (repositoryLinksVisit_iff acceptsText_sample rfl rfl all).mp visits
  have onward := continues.ordered (by decide) (sampleListedSummary "a" 1) rfl
  cases onward


end Layerhouse
