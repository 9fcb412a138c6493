/-
This file is the listings of the dashboard: `list_repositories` and `list_manifests` of
`routes/dashboard_api.rs`, over the summaries of `raft/state_machine.rs` and
`store/metadata/types.rs`. Both filter and sort all summaries and cut a page behind the item that
the cursor names. What they do with a text in lower case, a value printed as JSON, a time and the
text of a header is left to the libraries that they call.

A page comes out as the library's page of what follows the cursor in the filtered and sorted list,
and in such a list no two items have the same key.
-/

import Layerhouse.Library.Cursors
import Layerhouse.Mirror.Globs
import Layerhouse.Routes.Dashboard
import Layerhouse.Routes.Sizes
import Layerhouse.Routes.Tokens

namespace Layerhouse

open Cursors

/-! ### Summaries -/

structure RepositorySummary where
  name : String
  tagCount : Nat
  manifestCount : Nat
  storedSizeBytes : Nat
  manifestSizeBytes : Nat
  lastModified : Nat
  description : String
  createdBy : Option Subject
  visibility : Visibility

structure ManifestSummary where
  digest : String
  mediaType : String
  artifactType : Option String
  storedSizeBytes : Nat
  manifestSizeBytes : Nat
  createdAt : Nat
  lastModified : Nat
  tags : List String
  subject : Option String
  annotations : Option Value
  configSummary : Option Value
  body : Value

def repositoryManifestSizeBytes (repoManifests : BTreeMap String ManifestEntry) : Nat :=
  (repoManifests.toList.map (·.2.manifestSizeBytes)).sum % 2 ^ 64

/-- The summary of a repository with manifests. -/
def pushedSummary (externals : Externals) (data : StateMachineData) (name : String)
    (repoManifests : BTreeMap String ManifestEntry) : RepositorySummary where
  name := name
  tagCount := (data.tags[name]?.map (·.size)).getD 0
  manifestCount := repoManifests.size
  storedSizeBytes := repositoryStoredSizeBytes externals repoManifests
  manifestSizeBytes := repositoryManifestSizeBytes repoManifests
  lastModified := (repoManifests.toList.map (·.2.lastModified)).max?.getD 0
  description := (data.repositories[name]?.map (·.description)).getD ""
  createdBy := data.repositories[name]?.bind (·.createdBy)
  visibility := (data.repositories[name]?.map (·.visibility)).getD .privateAccess

/-- The summary of a repository that was created and has no manifests. -/
def shadowSummary (name : String) (repo : Repository) : RepositorySummary where
  name := name
  tagCount := 0
  manifestCount := 0
  storedSizeBytes := 0
  manifestSizeBytes := 0
  lastModified := repo.createdAt
  description := repo.description
  createdBy := repo.createdBy
  visibility := repo.visibility

def listRepositorySummaries (externals : Externals) (data : StateMachineData) :
    List RepositorySummary :=
  data.manifests.toList.map (fun repo => pushedSummary externals data repo.1 repo.2) ++
    (data.repositories.toList.filter fun repo => ¬ data.manifests.contains repo.1).map
      fun repo => shadowSummary repo.1 repo.2

/-- The tags of each digest, in the order of the tags. -/
def tagsByDigest (repoTags : Option (BTreeMap String String)) : BTreeMap String (List String) :=
  ((repoTags.map (·.toList)).getD []).foldl (fun byDigest tag =>
    byDigest.insert tag.2 (byDigest[tag.2]?.getD [] ++ [tag.1])) ∅

/-- The loop of `build_manifest_summaries`, which takes the tags of each digest out of the table. -/
def summarizeManifests (externals : Externals) :
    BTreeMap String (List String) → List (String × ManifestEntry) → List ManifestSummary
  | _, [] => []
  | byDigest, (digest, entry) :: rest =>
    { digest := digest
      mediaType := entry.contentType
      artifactType := entry.artifactType
      storedSizeBytes := manifestStoredSizeBytes externals entry
      manifestSizeBytes := entry.manifestSizeBytes
      createdAt := entry.createdAt
      lastModified := entry.lastModified
      tags := (byDigest[digest]?.getD []).insertionSort (· ≤ ·)
      subject := entry.subject.map Digest.toStr
      annotations := entry.annotations
      configSummary := entry.configSummary
      body := (externals.fromSlice entry.body).getD .null } ::
      summarizeManifests externals (byDigest.erase digest) rest

def buildManifestSummaries (externals : Externals) (repoManifests : BTreeMap String ManifestEntry)
    (repoTags : Option (BTreeMap String String)) : List ManifestSummary :=
  summarizeManifests externals (tagsByDigest repoTags) repoManifests.toList

def listManifestSummaries (externals : Externals) (data : StateMachineData) (name : String) :
    List ManifestSummary :=
  match data.manifests[name]? with
  | none => []
  | some repoManifests => buildManifestSummaries externals repoManifests data.tags[name]?

/-! ### Queries and responses -/

inductive OwnershipFilter where
  | all
  | mine
  | shared
  | publicAccess
deriving DecidableEq

structure RepositoryQuery where
  n : Option Nat := none
  last : Option String := none
  q : Option String := none
  recency : Option String := none
  sort : Option String := none
  filter : OwnershipFilter := .all

structure ManifestQuery where
  n : Option Nat := none
  last : Option String := none
  q : Option String := none
  kind : Option String := none
  tag : Option String := none
  tagged : Option Bool := none
  platform : Option String := none
  mediaType : Option String := none
  storedSizeMin : Option Nat := none
  storedSizeMax : Option Nat := none
  createdAfter : Option String := none
  createdBefore : Option String := none
  sort : Option String := none

structure EnrichedRepositorySummary extends RepositorySummary where
  accessLevel : OciAction
  maxGrantable : OciAction
  grantSource : GrantSource

structure RepositoryListResponse where
  repositories : List EnrichedRepositorySummary
  totalReachable : Nat
  nextCursor : Option String

structure ManifestListResponse where
  name : String
  manifests : List ManifestSummary
  total : Nat
  hasMore : Bool

/-- A response, with the `Link` header if it has one. -/
structure LinkedResponse (Body : Type) where
  body : Body
  link : Option String

/-- The functions of other packages that the listings call: `to_lowercase` of all of Unicode,
`Value::to_string`, the timestamp that `DateTime::parse_from_rfc3339` reads, and
`HeaderValue::from_str`. -/
structure ListingExternals extends Externals where
  toLowercase : String → String
  printValue : Value → String
  parseFromRfc3339 : String → Except String Int
  headerFromStr : String → Except String Unit

/-! ### Pages -/

def defaultPageSize : Nat :=
  50

def maxPageSize : Nat :=
  200

def pageSize (n : Option Nat) : Nat :=
  min (max (n.getD defaultPageSize) 1) maxPageSize

def paginate {Item : Type} (key : Item → String) (items : List Item) (n : Nat)
    (last : Option String) : List Item × Bool :=
  let start := ((last.bind fun last => items.findIdx? (key · = last)).map (· + 1)).getD 0
  let page := (items.drop start).take (n + 1)
  let hasMore : Bool := n < page.length
  (if hasMore then page.take n else page, hasMore)

def nextUrl (base : String) (n : Nat) (last : String) : String :=
  base ++ "?n=" ++ toString n ++ "&last=" ++ last

/-- The text of the `Link` header. -/
def nextLink (url : String) : String :=
  "<" ++ url ++ ">; rel=\"next\""

def withLink {Body : Type} (externals : ListingExternals) (body : Body) (hasMore : Bool)
    (nextUrl : Option String) : Except LayerhouseError (LinkedResponse Body) :=
  match hasMore, nextUrl with
  | true, some url =>
    match externals.headerFromStr (nextLink url) with
    | .error error => .error (.serialization error)
    | .ok () => .ok ⟨body, some (nextLink url)⟩
  | _, _ => .ok ⟨body, none⟩

/-- Keep the items that pass the test of a parameter, if it is given. -/
def retainFor {Item Parameter : Type} (parameter : Option Parameter)
    (keep : Parameter → Item → Bool) (items : List Item) : List Item :=
  match parameter with
  | none => items
  | some parameter => items.filter (keep parameter)

/-- A stable sort. -/
def sortBy {Item : Type} (cmp : Item → Item → Ordering) (items : List Item) : List Item :=
  items.insertionSort fun first second => (cmp first second).isLE

/-- `str::contains`. -/
def containsStr (text needle : String) : Bool :=
  needle.toList <:+: text.toList

/-! ### Repositories -/

/-- The service and the caller, if authorization is enabled and the caller is known. -/
def authenticated (auth : Option AuthService) (identity : Option AuthIdentity) :
    Option (AuthService × AuthIdentity) :=
  auth.bind fun service => identity.map (service, ·)

def enrichRepositorySummary (data : StateMachineData)
    (caller : Option (AuthService × AuthIdentity)) (repo : RepositorySummary) :
    Except LayerhouseError EnrichedRepositorySummary :=
  let access :=
    match caller with
    | some (service, identity) => maxGrantableAction service data identity repo.name
    | none => .ok (.delete, .publicAccess)
  access.map fun (accessLevel, grantSource) =>
    { repo with
      accessLevel := accessLevel
      maxGrantable := accessLevel
      grantSource := grantSource }

/-- The repositories that the caller can pull from, or all of them. -/
def enrichedRepositories (externals : Externals) (data : StateMachineData)
    (caller : Option (AuthService × AuthIdentity)) :
    Except LayerhouseError (List EnrichedRepositorySummary) :=
  let repos := listRepositorySummaries externals data
  match caller with
  | some _ => .ok (repos.filterMap fun repo => (enrichRepositorySummary data caller repo).toOption)
  | none => repos.mapM (enrichRepositorySummary data none)

def retainOwned (identity : Option AuthIdentity) (filter : OwnershipFilter)
    (repos : List EnrichedRepositorySummary) : List EnrichedRepositorySummary :=
  match identity with
  | none => repos
  | some identity =>
    let username := identity.username.getD ""
    if filter = .all then repos
    else repos.filter fun repo =>
      match filter with
      | .all => true
      | .mine => inPersonalNamespace (some username) repo.name
      | .shared => ¬ inPersonalNamespace (some username) repo.name
      | .publicAccess => repo.visibility = .publicPull

def retainRecent (now : Nat) (recency : Option String)
    (repos : List EnrichedRepositorySummary) : List EnrichedRepositorySummary :=
  if recency = some "recent" then repos.filter fun repo => now - repo.lastModified ≤ 7 * 86400
  else if recency = some "stale" then repos.filter fun repo => 30 * 86400 ≤ now - repo.lastModified
  else repos

def compareRepositories (sort : String) (first second : EnrichedRepositorySummary) : Ordering :=
  if sort = "name_asc" then compare first.name second.name
  else if sort = "tag_count_desc" then
    (compare second.tagCount first.tagCount).then (compare first.name second.name)
  else if sort = "updated_asc" then
    (compare first.lastModified second.lastModified).then (compare first.name second.name)
  else (compare second.lastModified first.lastModified).then (compare first.name second.name)

/-- The filtered and sorted list that a page is cut from. -/
def matchingRepositories (externals : ListingExternals) (data : StateMachineData) (now : Nat)
    (auth : Option AuthService) (identity : Option AuthIdentity) (query : RepositoryQuery) :
    Except LayerhouseError (List EnrichedRepositorySummary) :=
  (enrichedRepositories externals.toExternals data (authenticated auth identity)).map fun repos =>
    let q := externals.toLowercase (query.q.getD "")
    sortBy (compareRepositories (query.sort.getD "updated_desc")) <|
      retainRecent now query.recency <|
        retainFor (if q = "" then none else some q)
          (fun q repo => containsStr (externals.toLowercase repo.name) q) <|
          retainOwned identity query.filter repos

def repositoriesUrl : String :=
  "/api/v1/repositories"

def listRepositories (externals : ListingExternals) (data : StateMachineData) (now : Nat)
    (auth : Option AuthService) (identity : Option AuthIdentity) (query : RepositoryQuery) :
    Except LayerhouseError (LinkedResponse RepositoryListResponse) :=
  match matchingRepositories externals data now auth identity query with
  | .error error => .error error
  | .ok repos =>
    let n := pageSize query.n
    let (page, hasMore) := paginate (·.name) repos n query.last
    let next := page.getLast?.map fun repo => nextUrl repositoriesUrl n repo.name
    withLink externals
      { repositories := page, totalReachable := repos.length, nextCursor := next } hasMore next

/-! ### Manifests -/

def parseRfc3339Epoch (externals : ListingExternals) (value field : String) :
    Except LayerhouseError Nat :=
  match externals.parseFromRfc3339 value with
  | .error error => .error (.nameInvalid (field ++ " is invalid: " ++ error))
  | .ok timestamp =>
    if timestamp < 0 then .error (.nameInvalid (field ++ " must be after 1970-01-01"))
    else .ok timestamp.toNat

def typeMatches (item : ManifestSummary) (kind : String) : Bool :=
  let artifactType := item.artifactType.getD ""
  let isImage := containsStr artifactType "image.config"
  let isHelm := containsStr artifactType "helm.config"
  let isWasm := containsStr artifactType "wasm.config"
  let isOciArtifact :=
    containsStr artifactType "artifact.manifest" || containsStr item.mediaType "artifact.manifest"
  if kind = "image" then isImage
  else if kind = "helm" then isHelm
  else if kind = "wasm" then isWasm
  else if kind = "artifact" then isOciArtifact
  else if kind = "unknown" then !isImage && !isHelm && !isWasm && !isOciArtifact
  else true

def searchBlob (externals : ListingExternals) (item : ManifestSummary) : String :=
  externals.toLowercase <| " ".intercalate <|
    [item.digest, item.mediaType, item.artifactType.getD "", " ".intercalate item.tags] ++
      (item.configSummary.map externals.printValue).toList ++
      (item.annotations.map externals.printValue).toList

/-- The filters of `list_manifests` before those by time. -/
def retainManifests (externals : ListingExternals) (query : ManifestQuery)
    (manifests : List ManifestSummary) : List ManifestSummary :=
  let q := externals.toLowercase (query.q.getD "")
  retainFor query.storedSizeMax (fun max item => item.storedSizeBytes ≤ max) <|
    retainFor query.storedSizeMin (fun min item => min ≤ item.storedSizeBytes) <|
    retainFor query.platform (fun platform item =>
      containsStr (searchBlob externals item) (externals.toLowercase platform)) <|
    retainFor query.mediaType (fun mediaType item =>
      item.artifactType = some mediaType ∨ item.mediaType = mediaType) <|
    retainFor (query.tag.filter (· ≠ "")) (fun pattern item =>
      item.tags.any (globMatches pattern)) <|
    retainFor query.tagged (fun tagged item => item.tags.isEmpty != tagged) <|
    retainFor (query.kind.filter (· ≠ "all")) (fun kind item => typeMatches item kind) <|
    retainFor (if q = "" then none else some q) (fun q item =>
      containsStr (searchBlob externals item) q) manifests

/-- The bound that a parameter of time gives, if there is one. -/
def timeBound (externals : ListingExternals) (value : Option String) (field : String) :
    Except LayerhouseError (Option Nat) :=
  match value with
  | none => .ok none
  | some value => (parseRfc3339Epoch externals value field).map some

def compareManifests (sort : String) (first second : ManifestSummary) : Ordering :=
  if sort = "updated_asc" then compare first.lastModified second.lastModified
  else if sort = "stored_size_desc" then compare second.storedSizeBytes first.storedSizeBytes
  else if sort = "stored_size_asc" then compare first.storedSizeBytes second.storedSizeBytes
  else if sort = "digest_asc" then compare first.digest second.digest
  else if sort = "tag_count_desc" then compare second.tags.length first.tags.length
  else compare second.lastModified first.lastModified

/-- The filtered and sorted list that a page is cut from. -/
def matchingManifests (externals : ListingExternals) (data : StateMachineData) (name : String)
    (query : ManifestQuery) : Except LayerhouseError (List ManifestSummary) := do
  let manifests :=
    retainManifests externals query (listManifestSummaries externals.toExternals data name)
  let lower ← timeBound externals query.createdAfter "created_after"
  let manifests := retainFor lower (fun lower item => lower ≤ item.createdAt) manifests
  let upper ← timeBound externals query.createdBefore "created_before"
  let manifests := retainFor upper (fun upper item => item.createdAt ≤ upper) manifests
  return sortBy (compareManifests (query.sort.getD "updated_desc")) manifests

def manifestsUrl (name : String) : String :=
  repositoriesUrl ++ "/" ++ name ++ "/manifests"

def listManifests (externals : ListingExternals) (data : StateMachineData) (name : String)
    (query : ManifestQuery) : Except LayerhouseError (LinkedResponse ManifestListResponse) :=
  let name := percentDecode name
  match matchingManifests externals data name query with
  | .error error => .error error
  | .ok manifests =>
    let n := pageSize query.n
    let (page, hasMore) := paginate (·.digest) manifests n query.last
    let next := page.getLast?.map fun item => nextUrl (manifestsUrl name) n item.digest
    withLink externals
      { name := name, manifests := page, total := manifests.length, hasMore := hasMore }
      hasMore next

/-! ### What a page holds -/

section Pages

variable {Item Body : Type} {key : Item → String} {externals : ListingExternals}

theorem paginate_eq (items : List Item) (n : Nat) (last : Option String) :
    paginate key items n last =
      ((after key items last).take n, decide (n < (after key items last).length)) := by
  have paged : paginate key items n last =
      (if decide (n < ((after key items last).take (n + 1)).length) then
        ((after key items last).take (n + 1)).take n
      else (after key items last).take (n + 1),
      decide (n < ((after key items last).take (n + 1)).length)) := rfl
  have longer : decide (n < ((after key items last).take (n + 1)).length) =
      decide (n < (after key items last).length) := by
    rw [decide_eq_decide, List.length_take]
    omega
  rw [paged, longer]
  by_cases more : n < (after key items last).length
  · rw [if_pos (decide_eq_true more), List.take_take, Nat.min_eq_left (Nat.le_succ n)]
  · rw [if_neg (by rwa [decide_eq_true_eq]), List.take_of_length_le (by omega),
      List.take_of_length_le (by omega)]

/-- A page whose header is accepted has the link to its last item, if there are more. -/
theorem withLink_page {base : String} {n : Nat} {items : List Item} {body : Body}
    (accepted : ∀ link, (pageOf key (nextLink ∘ nextUrl base n) n items).2 = some link →
      externals.headerFromStr link = .ok ()) :
    withLink externals body (decide (n < items.length))
      ((items.take n).getLast?.map fun item => nextUrl base n (key item)) =
        .ok ⟨body, (pageOf key (nextLink ∘ nextUrl base n) n items).2⟩ := by
  rw [pageOf] at accepted ⊢
  simp only at accepted ⊢
  by_cases more : n < items.length
  · rw [if_pos more] at accepted ⊢
    rw [decide_eq_true more]
    cases found : (items.take n).getLast? with
    | none => rfl
    | some item =>
      rw [found] at accepted
      have header := accepted (nextLink (nextUrl base n (key item))) rfl
      simp only [Option.map_some, withLink, header, Function.comp_apply]
  · rw [if_neg more, decide_eq_false more]
    rfl

/-- A page that is served has the link to its last item, if there are more. -/
theorem link_of_withLink {base : String} {n : Nat} {items : List Item} {body : Body}
    {response : LinkedResponse Body}
    (served : withLink externals body (decide (n < items.length))
      ((items.take n).getLast?.map fun item => nextUrl base n (key item)) = .ok response) :
    response = ⟨body, (pageOf key (nextLink ∘ nextUrl base n) n items).2⟩ := by
  rw [pageOf]
  by_cases more : n < items.length
  · rw [decide_eq_true more] at served
    simp only [if_pos more]
    cases found : (items.take n).getLast? with
    | none =>
      rw [found] at served
      exact (Except.ok.inj served).symm
    | some item =>
      simp only [found, Option.map_some, withLink] at served
      split at served
      · cases served
      · exact (Except.ok.inj served).symm
  · rw [decide_eq_false more] at served
    simp only [if_neg more]
    exact (Except.ok.inj served).symm

end Pages

theorem pageSize_pos (n : Option Nat) : 0 < pageSize n := by
  rw [pageSize, maxPageSize]
  omega

theorem pageSize_pageSize (n : Option Nat) : pageSize (some (pageSize n)) = pageSize n := by
  rw [pageSize, pageSize, Option.getD_some, maxPageSize]
  omega

/-! ### The keys of a listing -/

section Keys

variable {Item Parameter : Type} {key : Item → String} {items : List Item}

theorem retainFor_sublist (parameter : Option Parameter) (keep : Parameter → Item → Bool) :
    (retainFor parameter keep items).Sublist items := by
  cases parameter with
  | none => exact List.Sublist.refl items
  | some parameter => exact List.filter_sublist

theorem retainOwned_sublist (identity : Option AuthIdentity) (filter : OwnershipFilter)
    (repos : List EnrichedRepositorySummary) :
    (retainOwned identity filter repos).Sublist repos := by
  unfold retainOwned
  split
  · exact List.Sublist.refl repos
  · dsimp only
    split
    · exact List.Sublist.refl repos
    · exact List.filter_sublist

theorem retainRecent_sublist (now : Nat) (recency : Option String)
    (repos : List EnrichedRepositorySummary) : (retainRecent now recency repos).Sublist repos := by
  unfold retainRecent
  split
  · exact List.filter_sublist
  · split
    · exact List.filter_sublist
    · exact List.Sublist.refl repos

theorem retainManifests_sublist (externals : ListingExternals) (query : ManifestQuery)
    (manifests : List ManifestSummary) :
    (retainManifests externals query manifests).Sublist manifests :=
  (retainFor_sublist _ _).trans <| (retainFor_sublist _ _).trans <|
  (retainFor_sublist _ _).trans <| (retainFor_sublist _ _).trans <|
  (retainFor_sublist _ _).trans <| (retainFor_sublist _ _).trans <|
  (retainFor_sublist _ _).trans (retainFor_sublist _ _)

/-- Sorting a part of a list leaves the keys distinct. -/
theorem nodup_sortBy {part : List Item} (cmp : Item → Item → Ordering)
    (distinct : (items.map key).Nodup) (sublist : part.Sublist items) :
    ((sortBy cmp part).map key).Nodup := by
  refine (((part.perm_insertionSort _).map key).nodup_iff).mpr ?_
  exact distinct.sublist (sublist.map key)

end Keys

theorem nodup_listRepositorySummaries (externals : Externals) (data : StateMachineData) :
    ((listRepositorySummaries externals data).map (·.name)).Nodup := by
  have pushed : (data.manifests.toList.map fun repo =>
      pushedSummary externals data repo.1 repo.2).map (·.name) =
        data.manifests.toList.map (·.1) := by
    rw [List.map_map]
    rfl
  have shadows : ((data.repositories.toList.filter fun repo =>
      ¬ data.manifests.contains repo.1).map fun repo => shadowSummary repo.1 repo.2).map (·.name) =
      (data.repositories.toList.filter fun repo => ¬ data.manifests.contains repo.1).map (·.1) := by
    rw [List.map_map]
    rfl
  rw [listRepositorySummaries, List.map_append, pushed, shadows]
  refine (BTreeMap.nodup_keys_toList _).append ?_ ?_
  · exact (BTreeMap.nodup_keys_toList data.repositories).sublist (List.filter_sublist.map _)
  · intro name inManifests inShadows
    obtain ⟨repo, member, rfl⟩ := List.mem_map.mp inManifests
    obtain ⟨shadow, among, same⟩ := List.mem_map.mp inShadows
    have absent := (List.mem_filter.mp among).2
    have found := (BTreeMap.mem_toList _ _ _).mp member
    rw [decide_eq_true_eq, same, Std.ExtTreeMap.contains_eq_isSome_getElem?, found] at absent
    exact absent rfl

/-- The repositories that are listed, in the order of the summaries. -/
theorem enrichedRepositories_eq (externals : Externals) (data : StateMachineData)
    (caller : Option (AuthService × AuthIdentity)) :
    enrichedRepositories externals data caller =
      .ok ((listRepositorySummaries externals data).filterMap fun repo =>
        (enrichRepositorySummary data caller repo).toOption) := by
  cases caller with
  | some caller => rfl
  | none =>
    let enrich : RepositorySummary → EnrichedRepositorySummary := fun repo =>
      { repo with
        accessLevel := .delete
        maxGrantable := .delete
        grantSource := .publicAccess }
    have every : (listRepositorySummaries externals data).mapM (enrichRepositorySummary data none) =
        .ok ((listRepositorySummaries externals data).map enrich) := List.mapM_pure
    have same : (fun repo => (enrichRepositorySummary data none repo).toOption) =
        some ∘ enrich := rfl
    rw [same, List.filterMap_eq_map]
    exact every

theorem name_of_enrich {data : StateMachineData} {caller : Option (AuthService × AuthIdentity)}
    {repo : RepositorySummary} {enriched : EnrichedRepositorySummary}
    (found : enrichRepositorySummary data caller repo = .ok enriched) :
    enriched.name = repo.name := by
  obtain ⟨_, _, rfl⟩ := exceptMap_eq_ok.mp found
  rfl

theorem nodup_enrichedRepositories {externals : Externals} {data : StateMachineData}
    {caller : Option (AuthService × AuthIdentity)} {repos : List EnrichedRepositorySummary}
    (found : enrichedRepositories externals data caller = .ok repos) :
    (repos.map (·.name)).Nodup := by
  rw [enrichedRepositories_eq, Except.ok.injEq] at found
  subst found
  have names : ∀ summaries : List RepositorySummary,
      ((summaries.filterMap fun repo => (enrichRepositorySummary data caller repo).toOption).map
        (·.name)).Sublist (summaries.map (·.name)) := by
    intro summaries
    induction summaries with
    | nil => exact List.Sublist.refl []
    | cons repo rest inductionHypothesis =>
      cases enriched : enrichRepositorySummary data caller repo with
      | error error =>
        rw [List.filterMap_cons_none (by rw [enriched]; rfl)]
        exact inductionHypothesis.trans (List.sublist_cons_self _ _)
      | ok summary =>
        rw [List.filterMap_cons_some (b := summary) (by rw [enriched]; rfl), List.map_cons,
          List.map_cons, name_of_enrich enriched]
        exact inductionHypothesis.cons_cons _
  exact (nodup_listRepositorySummaries externals data).sublist (names _)

theorem nodup_matchingRepositories {externals : ListingExternals} {data : StateMachineData}
    {now : Nat} {auth : Option AuthService} {identity : Option AuthIdentity}
    {query : RepositoryQuery} {repos : List EnrichedRepositorySummary}
    (found : matchingRepositories externals data now auth identity query = .ok repos) :
    (repos.map (·.name)).Nodup := by
  obtain ⟨enriched, listed, rfl⟩ := exceptMap_eq_ok.mp found
  refine nodup_sortBy _ (nodup_enrichedRepositories listed) ?_
  refine (retainRecent_sublist _ _ _).trans ((retainFor_sublist _ _).trans ?_)
  exact retainOwned_sublist _ _ _

theorem digests_summarizeManifests (externals : Externals)
    (byDigest : BTreeMap String (List String)) (entries : List (String × ManifestEntry)) :
    (summarizeManifests externals byDigest entries).map (·.digest) = entries.map (·.1) := by
  induction entries generalizing byDigest with
  | nil => rfl
  | cons entry rest inductionHypothesis =>
    rw [summarizeManifests, List.map_cons, List.map_cons, inductionHypothesis]

theorem nodup_listManifestSummaries (externals : Externals) (data : StateMachineData)
    (name : String) : ((listManifestSummaries externals data name).map (·.digest)).Nodup := by
  rw [listManifestSummaries]
  split
  · exact List.nodup_nil
  · rw [buildManifestSummaries, digests_summarizeManifests]
    exact BTreeMap.nodup_keys_toList _

theorem nodup_matchingManifests {externals : ListingExternals} {data : StateMachineData}
    {name : String} {query : ManifestQuery} {manifests : List ManifestSummary}
    (found : matchingManifests externals data name query = .ok manifests) :
    (manifests.map (·.digest)).Nodup := by
  obtain ⟨lower, _, found⟩ := exceptBind_eq_ok.mp found
  obtain ⟨upper, _, found⟩ := exceptBind_eq_ok.mp found
  cases found
  refine nodup_sortBy _ (nodup_listManifestSummaries externals.toExternals data name) ?_
  refine (retainFor_sublist _ _).trans ((retainFor_sublist _ _).trans ?_)
  exact retainManifests_sublist _ _ _


end Layerhouse
