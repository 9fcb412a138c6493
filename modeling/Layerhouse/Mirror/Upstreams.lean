/-
This file is how a repository name finds its upstream: `match_rule` and
`match_proxy_cache` of `mirror/mod.rs`, which pick the entry with the longest local
prefix, and the `UpstreamRef` of `mirror/client.rs` that is built from what they pick. The loop
is a maximum over the entries that stand for the repository, and two local prefixes of one
length that the repository has are the same, so that distinct ones leave nothing to their order.
-/

import Layerhouse.Mirror.Scheduler

namespace Layerhouse

/-! ### Prefixes -/

def normalizeUpstreamPrefix (value : Option String) : Option String :=
  value.bind fun text =>
    let trimmed := ((Text.trim text.toList).dropWhile (· = '/')).rdropWhile (· = '/')
    if trimmed = [] then none else some (String.ofList trimmed)

def upstreamRepoFromPrefix (value : Option String) (suffix : String) : Option String :=
  match normalizeUpstreamPrefix value with
  | some lead => some (if suffix = "" then lead else lead ++ "/" ++ suffix)
  | none => if suffix = "" then none else some suffix

/-- What follows the prefix and a slash. -/
def prefixSuffix (repoName lead : String) : Option String :=
  if repoName = lead then some ""
  else
    ((Text.stripPrefix lead.toList repoName.toList).bind (Text.stripPrefix ['/'])).map
      String.ofList

/-- The loop of `match_rule` and `match_proxy_cache`: of the entries whose local prefix fits, the
first with the longest one, and the name of the repository upstream. -/
def bestMatch {Value : Type} (localPrefix : Value → String)
    (upstreamPrefix : Value → Option String) (values : List Value) (repoName : String) :
    Option (Value × String) :=
  values.foldl (fun best value =>
    match (prefixSuffix repoName (localPrefix value)).bind
      (upstreamRepoFromPrefix (upstreamPrefix value)) with
    | none => best
    | some upstreamRepo =>
      if best.all fun existing =>
          (localPrefix existing.1).utf8ByteSize < (localPrefix value).utf8ByteSize then
        some (value, upstreamRepo)
      else best) none

def matchRule (rules : List MirrorRule) (repoName : String) : Option (MirrorRule × String) :=
  bestMatch (·.localPrefix) (·.upstreamPrefix) (rules.filter (·.direction = .pull)) repoName

def matchProxyCache (caches : List ProxyCache) (repoName : String) :
    Option (ProxyCache × String) :=
  bestMatch (·.localPrefix) (·.upstreamPrefix) caches repoName

/-! ### The longest prefix -/

/-- The upstream prefix without white space at its ends and then without slashes there; empty when
there is none. -/
def trimmedUpstreamPrefix (value : Option String) : String :=
  String.ofList (((Text.trim (value.getD "").toList).dropWhile (· = '/')).rdropWhile (· = '/'))

/-- An entry with these prefixes stands for the repository, which is this one upstream: the local
prefix is the repository's name or is followed by a slash in it, and the trimmed upstream prefix
and what follows, joined, are not both empty. -/
def Eligible (localPrefix : String) (upstreamPrefix : Option String)
    (repoName upstreamRepo : String) : Prop :=
  ∃ suffix, (repoName = localPrefix ∧ suffix = "" ∨ repoName = localPrefix ++ "/" ++ suffix) ∧
    upstreamRepo =
        "/".intercalate ([trimmedUpstreamPrefix upstreamPrefix, suffix].filter (· ≠ "")) ∧
      upstreamRepo ≠ ""

/-- Some entry is selected exactly if there is one to select, and it is one of those with the
longest local prefix. -/
structure SelectsLongest {Value : Type} (localPrefix : Value → String)
    (eligible : Value → String → Prop) (values : List Value)
    (selected : Option (Value × String)) : Prop where
  found : selected.isSome = true ↔ ∃ value ∈ values, ∃ upstreamRepo, eligible value upstreamRepo
  longest : ∀ value upstreamRepo, selected = some (value, upstreamRepo) →
    value ∈ values ∧ eligible value upstreamRepo ∧
      ∀ other ∈ values, ∀ otherRepo, eligible other otherRepo →
        (localPrefix other).utf8ByteSize ≤ (localPrefix value).utf8ByteSize

theorem normalizeUpstreamPrefix_eq (value : Option String) :
    normalizeUpstreamPrefix value =
      if trimmedUpstreamPrefix value = "" then none else some (trimmedUpstreamPrefix value) := by
  cases value with
  | none => rfl
  | some text =>
    have empty (trimmed : List Char) : String.ofList trimmed = "" ↔ trimmed = [] :=
      String.ofList_eq_empty_iff
    rw [normalizeUpstreamPrefix, Option.bind_some, trimmedUpstreamPrefix]
    simp only [Option.getD_some, empty]

/-- The parts that are not empty, joined by a slash. -/
theorem upstreamRepoFromPrefix_eq_some {value : Option String} {suffix upstreamRepo : String} :
    upstreamRepoFromPrefix value suffix = some upstreamRepo ↔
      upstreamRepo = "/".intercalate ([trimmedUpstreamPrefix value, suffix].filter (· ≠ "")) ∧
        upstreamRepo ≠ "" := by
  have joined (lead : String) : lead ++ "/" ++ suffix ≠ "" := fun empty =>
    absurd (congrArg String.toList empty) (by simp)
  have mapped (target : String) (present : target ≠ "") :
      some target = some upstreamRepo ↔ upstreamRepo = target ∧ upstreamRepo ≠ "" := by
    rw [Option.some.injEq, eq_comm, iff_self_and]
    rintro rfl
    exact present
  rw [upstreamRepoFromPrefix, normalizeUpstreamPrefix_eq]
  by_cases noPrefix : trimmedUpstreamPrefix value = "" <;> by_cases noSuffix : suffix = ""
  · simp [noPrefix, noSuffix]
  · simpa [noPrefix, noSuffix] using mapped suffix noSuffix
  · simpa [noPrefix, noSuffix] using mapped _ noPrefix
  · have pair (lead : String) : "/".intercalate [lead, suffix] = lead ++ "/" ++ suffix := rfl
    simpa [noPrefix, noSuffix, pair] using mapped _ (joined _)

theorem prefixSuffix_eq_some {repoName lead suffix : String} :
    prefixSuffix repoName lead = some suffix ↔
      repoName = lead ∧ suffix = "" ∨ repoName = lead ++ "/" ++ suffix := by
  have behind : repoName = lead ++ "/" ++ suffix ↔
      ((Text.stripPrefix lead.toList repoName.toList).bind (Text.stripPrefix ['/'])).map
        String.ofList = some suffix := by
    simp only [Option.map_eq_some_iff, Option.bind_eq_some_iff, Text.stripPrefix_eq_some]
    constructor
    · rintro rfl
      exact ⟨suffix.toList, ⟨'/' :: suffix.toList, by simp, rfl⟩, String.ofList_toList⟩
    · rintro ⟨rest, ⟨_, split, rfl⟩, rfl⟩
      rw [← String.toList_inj, split]
      simp
  rw [prefixSuffix]
  split
  · rename_i same
    rw [Option.some.injEq, eq_comm, or_iff_left, and_iff_right same]
    intro longer
    have lengths := congrArg String.length (same.symm.trans longer)
    simp only [String.length_append] at lengths
    have slash : "/".length = 1 := rfl
    omega
  · rename_i different
    rw [← behind, or_iff_right fun same => different same.1]

/-- What the loop makes of one entry. -/
theorem mapped_eq_some {localPrefix repoName upstreamRepo : String}
    {upstreamPrefix : Option String} :
    (prefixSuffix repoName localPrefix).bind (upstreamRepoFromPrefix upstreamPrefix) =
        some upstreamRepo ↔ Eligible localPrefix upstreamPrefix repoName upstreamRepo := by
  simp only [Option.bind_eq_some_iff, prefixSuffix_eq_some, upstreamRepoFromPrefix_eq_some]
  rfl

section Selection

variable {Value : Type} {localPrefix : Value → String} {upstreamPrefix : Value → Option String}
  {repoName : String}

/-- The entries that stand for the repository, each with the repository upstream. -/
def eligibleEntries (localPrefix : Value → String) (upstreamPrefix : Value → Option String)
    (values : List Value) (repoName : String) : List (Value × String) :=
  values.filterMap fun value =>
    ((prefixSuffix repoName (localPrefix value)).bind
      (upstreamRepoFromPrefix (upstreamPrefix value))).map (value, ·)

theorem mem_eligibleEntries {values : List Value} {value : Value} {upstreamRepo : String} :
    (value, upstreamRepo) ∈ eligibleEntries localPrefix upstreamPrefix values repoName ↔
      value ∈ values ∧
        Eligible (localPrefix value) (upstreamPrefix value) repoName upstreamRepo := by
  rw [eligibleEntries, List.mem_filterMap]
  constructor
  · rintro ⟨_, listed, entry⟩
    obtain ⟨_, mapped, same⟩ := Option.map_eq_some_iff.mp entry
    cases same
    exact ⟨listed, mapped_eq_some.mp mapped⟩
  · rintro ⟨listed, eligible⟩
    exact ⟨value, listed, Option.map_eq_some_iff.mpr ⟨_, mapped_eq_some.mpr eligible, rfl⟩⟩

/-- The loop keeps the first of the longest. -/
theorem bestMatch_eq_argmax (values : List Value) :
    bestMatch localPrefix upstreamPrefix values repoName =
      (eligibleEntries localPrefix upstreamPrefix values repoName).argmax
        fun entry => (localPrefix entry.1).utf8ByteSize := by
  rw [eligibleEntries, List.argmax, List.foldl_filterMap, bestMatch]
  congr 1
  funext best value
  cases (prefixSuffix repoName (localPrefix value)).bind
      (upstreamRepoFromPrefix (upstreamPrefix value)) with
  | none => rfl
  | some upstreamRepo =>
    cases best with
    | none => rfl
    | some existing =>
      rw [Option.all_some, Option.map_some]
      simp only [List.argAux, decide_eq_true_eq]

theorem bestMatch_selects (values : List Value) :
    SelectsLongest localPrefix
      (fun value => Eligible (localPrefix value) (upstreamPrefix value) repoName) values
      (bestMatch localPrefix upstreamPrefix values repoName) := by
  rw [bestMatch_eq_argmax]
  constructor
  · rw [Option.isSome_iff_ne_none, Ne, List.argmax_eq_none]
    constructor
    · intro present
      obtain ⟨⟨value, upstreamRepo⟩, member⟩ := List.exists_mem_of_ne_nil _ present
      obtain ⟨listed, eligible⟩ := mem_eligibleEntries.mp member
      exact ⟨value, listed, upstreamRepo, eligible⟩
    · rintro ⟨value, listed, upstreamRepo, eligible⟩
      exact List.ne_nil_of_mem (mem_eligibleEntries.mpr ⟨listed, eligible⟩)
  · intro value upstreamRepo selected
    obtain ⟨listed, eligible⟩ := mem_eligibleEntries.mp (List.argmax_mem selected)
    refine ⟨listed, eligible, fun other member otherRepo fits => ?_⟩
    exact List.le_of_mem_argmax (f := fun entry : Value × String =>
      (localPrefix entry.1).utf8ByteSize) (mem_eligibleEntries.mpr ⟨member, fits⟩) selected

/-- The local prefix is a beginning of the name. -/
theorem Eligible.starts {lead repoName upstreamRepo : String} {upstreamPrefix : Option String}
    (eligible : Eligible lead upstreamPrefix repoName upstreamRepo) :
    ∃ rest, repoName = lead ++ rest := by
  obtain ⟨suffix, ⟨rfl, _⟩ | rfl, _⟩ := eligible
  · exact ⟨"", String.append_empty.symm⟩
  · exact ⟨"/" ++ suffix, String.append_assoc⟩

/-- Two beginnings of one text of the same length are the same. -/
theorem eq_of_append_eq {first second rest other : String}
    (same : first ++ rest = second ++ other)
    (sameLength : first.utf8ByteSize = second.utf8ByteSize) : first = second := by
  have longer {short long middle : String} (split : long = short ++ middle)
      (sizes : short.utf8ByteSize = long.utf8ByteSize) : short = long := by
    rw [split, String.utf8ByteSize_append, Nat.left_eq_add,
      String.utf8ByteSize_eq_zero_iff] at sizes
    rw [split, sizes, String.append_empty]
  rw [← String.toList_inj, String.toList_append, String.toList_append,
    List.append_eq_append_iff] at same
  rcases same with ⟨middle, split, _⟩ | ⟨middle, split, _⟩
  · refine @longer first second (String.ofList middle) ?_ sameLength
    rw [← String.toList_inj, split, String.toList_append, String.toList_ofList]
  · refine (@longer second first (String.ofList middle) ?_ sameLength.symm).symm
    rw [← String.toList_inj, split, String.toList_append, String.toList_ofList]

/-- A repository has one name upstream by an entry. -/
theorem Eligible.unique {lead repoName first second : String} {upstreamPrefix : Option String}
    (ofFirst : Eligible lead upstreamPrefix repoName first)
    (ofSecond : Eligible lead upstreamPrefix repoName second) : first = second :=
  Option.some.inj ((mapped_eq_some.mpr ofFirst).symm.trans (mapped_eq_some.mpr ofSecond))

/-- With distinct local prefixes there is one longest, in whatever order the entries stand. -/
theorem bestMatch_perm {values others : List Value} (same : values.Perm others)
    (distinct : (values.map localPrefix).Nodup) :
    bestMatch localPrefix upstreamPrefix values repoName =
      bestMatch localPrefix upstreamPrefix others repoName := by
  obtain ⟨found, longest⟩ := @bestMatch_selects _ localPrefix upstreamPrefix repoName values
  obtain ⟨foundOther, longestOther⟩ :=
    @bestMatch_selects _ localPrefix upstreamPrefix repoName others
  have both : (bestMatch localPrefix upstreamPrefix values repoName).isSome =
      (bestMatch localPrefix upstreamPrefix others repoName).isSome := by
    rw [Bool.eq_iff_iff, found, foundOther]
    simp only [same.mem_iff]
  cases first : bestMatch localPrefix upstreamPrefix values repoName with
  | none =>
    rw [first] at both
    exact (Option.not_isSome_iff_eq_none.mp (Bool.eq_false_iff.mp both.symm)).symm
  | some entry =>
    rw [first] at both
    obtain ⟨other, second⟩ := Option.isSome_iff_exists.mp both.symm
    obtain ⟨listed, eligible, most⟩ := longest _ _ first
    obtain ⟨listedOther, eligibleOther, mostOther⟩ := longestOther _ _ second
    have sameLength := le_antisymm (mostOther _ (same.mem_iff.mp listed) _ eligible)
      (most _ (same.mem_iff.mpr listedOther) _ eligibleOther)
    obtain ⟨rest, starts⟩ := eligible.starts
    obtain ⟨restOther, startsOther⟩ := eligibleOther.starts
    have samePrefix := eq_of_append_eq (starts.symm.trans startsOther) sameLength
    have sameValue := List.inj_on_of_nodup_map distinct listed
      (same.mem_iff.mpr listedOther) samePrefix
    rw [second, Option.some.injEq]
    exact Prod.ext sameValue (eligible.unique (sameValue ▸ eligibleOther))

end Selection

/-- The selections of a rule and of a proxy cache take the longest local prefix, and with
distinct ones do not depend on the order. -/
theorem longest_prefix_is_selected (repoName : String) :
    (∀ rules, SelectsLongest (·.localPrefix)
        (fun rule upstreamRepo => rule.direction = .pull ∧
          Eligible rule.localPrefix rule.upstreamPrefix repoName upstreamRepo)
        rules (matchRule rules repoName)) ∧
      (∀ caches, SelectsLongest (·.localPrefix)
        (fun cache => Eligible cache.localPrefix cache.upstreamPrefix repoName)
        caches (matchProxyCache caches repoName)) ∧
      (∀ rules others : List MirrorRule, rules.Perm others →
        (rules.map (·.localPrefix)).Nodup → matchRule rules repoName = matchRule others repoName) ∧
      ∀ caches others : List ProxyCache, caches.Perm others →
        (caches.map (·.localPrefix)).Nodup →
          matchProxyCache caches repoName = matchProxyCache others repoName := by
  refine ⟨fun rules => ?_, bestMatch_selects, fun rules others same distinct => ?_,
    fun caches others => bestMatch_perm⟩
  · obtain ⟨found, longest⟩ := @bestMatch_selects _ MirrorRule.localPrefix
      MirrorRule.upstreamPrefix repoName (rules.filter (·.direction = .pull))
    simp only [List.mem_filter, decide_eq_true_eq] at found longest
    constructor
    · rw [matchRule, found]
      constructor
      · rintro ⟨rule, ⟨listed, pull⟩, upstreamRepo, eligible⟩
        exact ⟨rule, listed, upstreamRepo, pull, eligible⟩
      · rintro ⟨rule, listed, upstreamRepo, pull, eligible⟩
        exact ⟨rule, ⟨listed, pull⟩, upstreamRepo, eligible⟩
    · intro rule upstreamRepo selected
      obtain ⟨⟨listed, pull⟩, eligible, most⟩ := longest rule upstreamRepo selected
      exact ⟨listed, ⟨pull, eligible⟩, fun other member otherRepo fits =>
        most other ⟨member, fits.1⟩ otherRepo fits.2⟩
  · exact bestMatch_perm (same.filter _) (distinct.sublist (List.filter_sublist.map _))

/-! ### Upstream references -/

structure UpstreamRef where
  registry : String
  repository : String
  scheme : String
  insecureTls : Bool
  outboundProxy : OutboundProxy
  username : Option String
  password : Option String
deriving DecidableEq

def UpstreamRef.new (registry repository : String) (plainHttp insecureTls : Bool)
    (outboundProxy : OutboundProxy) (username password : Option String) : UpstreamRef :=
  let apiRegistry := if registry = "docker.io" then "registry-1.docker.io" else registry
  let hostname := String.ofList (apiRegistry.toList.takeWhile (· ≠ ':'))
  { registry := apiRegistry
    repository :=
      if (registry = "docker.io" ∨ registry = "registry-1.docker.io") ∧
          '/' ∉ repository.toList then
        "library/" ++ repository
      else repository
    scheme :=
      if plainHttp then "http"
      else if insecureTls then "https"
      else if hostname = "localhost" ∨ hostname = "127.0.0.1" ∨ hostname = "[::1]" then "http"
      else "https"
    insecureTls := insecureTls
    outboundProxy := outboundProxy
    username := username
    password := password }

def makeUpstreamRef (rule : MirrorRule) (upstreamRepo : String) : UpstreamRef :=
  UpstreamRef.new rule.upstreamRegistry upstreamRepo rule.plainHttp rule.insecureTls
    rule.outboundProxy rule.username rule.password

def makeProxyUpstreamRef (cache : ProxyCache) (upstreamRepo : String) : UpstreamRef :=
  UpstreamRef.new cache.upstreamRegistry upstreamRepo cache.plainHttp cache.insecureTls
    cache.outboundProxy cache.username cache.password

example : (matchProxyCache [⟨"docker", "mirror/docker", "docker.io", some "/library/", [], none,
    false, false, ⟨.none, none, none, none⟩, none, none, 0⟩] "mirror/docker/alpine").map (·.2) =
    some "library/alpine" := by
  decide +kernel

end Layerhouse
