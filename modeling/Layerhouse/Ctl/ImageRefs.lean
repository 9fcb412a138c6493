/-
This file is `ImageRef` of `layerhouse-ctl`'s `registry.rs`: the parsing of an image reference
`[host/]path[:tag][@digest]`, and the form that a parsed one is displayed in. The parser looks for
the first slash, the first `@`, and the last colon behind the last slash, and cuts the text at the
offsets it finds.

It finds the parts of every well-formed reference but two kinds. Of a reference with a tag and
a digest it leaves the tag in the repository. And it takes the host name for the text before the
first colon, which is never `[::1]`, so this host is talked to over HTTPS. What it displays it
parses to the same parts again, in any case.
-/

import Layerhouse.Ctl.Transfers
import Layerhouse.Library.Slices

namespace Layerhouse

open Slices

/-! ### Parsing -/

structure ImageRef where
  registry : String
  repository : String
  reference : Option String
  scheme : String
deriving DecidableEq

namespace ImageRef

/-- A first component that is taken for a host. -/
def IsHostLike (first : List Char) : Prop :=
  '.' ∈ first ∨ ':' ∈ first ∨ first = "localhost".toList

instance (first : List Char) : Decidable (IsHostLike first) :=
  inferInstanceAs (Decidable (_ ∨ _))

/-- The host and the text behind it. -/
def splitHost (text : List Char) : Except Panic (List Char × List Char) :=
  match find ['/'] text with
  | some pos => do
    let first ← sliced (sliceTo pos text)
    if IsHostLike first then
      let remainder ← sliced (sliceFrom (pos + 1) text)
      .ok (first, remainder)
    else .ok ("docker.io".toList, text)
  | none => .ok ("docker.io".toList, text)

/-- The repository and the tag or digest behind it. -/
def splitReference (remainder : List Char) : Except Panic (List Char × Option (List Char)) :=
  match find ['@'] remainder with
  | some atPos => do
    let repo ← sliced (sliceTo atPos remainder)
    let reference ← sliced (sliceFrom (atPos + 1) remainder)
    .ok (repo, some reference)
  | none => do
    let lastSlash := (rfind '/' remainder).getD 0
    let tail ← sliced (sliceFrom lastSlash remainder)
    match rfind ':' tail with
    | some colonPos =>
      let absColon := lastSlash + colonPos
      let repo ← sliced (sliceTo absColon remainder)
      let reference ← sliced (sliceFrom (absColon + 1) remainder)
      .ok (repo, some reference)
    | none => .ok (remainder, none)

def registryOf (host : List Char) : List Char :=
  if host = "docker.io".toList then "registry-1.docker.io".toList else host

def repositoryOf (host repo : List Char) : List Char :=
  if (host = "docker.io".toList ∨ host = "registry-1.docker.io".toList) ∧ '/' ∉ repo then
    "library/".toList ++ repo
  else repo

def schemeOf (plainHttp : Bool) (registry : List Char) : String :=
  if plainHttp then "http"
  else
    let hostname := (registry.splitOn ':').headD registry
    if hostname = "localhost".toList ∨ hostname = "127.0.0.1".toList ∨
        hostname = "[::1]".toList then "http"
    else "https"

/-- What is made of the parts of a reference. -/
def assemble (plainHttp : Bool) (host repo : List Char) (reference : Option (List Char)) :
    ImageRef where
  registry := String.ofList (registryOf host)
  repository := String.ofList (repositoryOf host repo)
  reference := reference.map String.ofList
  scheme := schemeOf plainHttp (registryOf host)

/-- No text is refused. -/
def parse (s : String) (plainHttp : Bool) : Except Panic (Except RegistryError ImageRef) := do
  let (host, remainder) ← splitHost s.toList
  let (repo, reference) ← splitReference remainder
  .ok (.ok (assemble plainHttp host repo reference))

def baseUrl (image : ImageRef) : String :=
  image.scheme ++ "://" ++ image.registry

def display (image : ImageRef) : String :=
  match image.reference with
  | some reference =>
    if ':' ∈ reference.toList then image.registry ++ "/" ++ image.repository ++ "@" ++ reference
    else image.registry ++ "/" ++ image.repository ++ ":" ++ reference
  | none => image.registry ++ "/" ++ image.repository

end ImageRef

/-! ### The grammar -/

/-- The parts of a well-formed reference. Without a host, the first of several components may not
look like one. -/
structure ImageReference where
  host : Option (List Char)
  components : List (List Char)
  tag : Option (List Char)
  digest : Option (List Char)
  hostLike : ∀ name ∈ host, ImageRef.IsHostLike name ∧ '/' ∉ name
  present : components ≠ []
  plain : ∀ component ∈ components,
    component ≠ [] ∧ '/' ∉ component ∧ ':' ∉ component ∧ '@' ∉ component
  hostless : host = none → ∀ first second rest, components = first :: second :: rest →
    ¬ ImageRef.IsHostLike first
  tagPlain : ∀ name ∈ tag, '/' ∉ name ∧ ':' ∉ name ∧ '@' ∉ name
  digestColon : ∀ name ∈ digest, ':' ∈ name ∧ '/' ∉ name

namespace ImageReference

def path (reference : ImageReference) : List Char :=
  ['/'].intercalate reference.components

/-- What stands behind the host. -/
def remainder (reference : ImageReference) : List Char :=
  reference.path ++ (reference.tag.map (':' :: ·)).getD [] ++
    (reference.digest.map ('@' :: ·)).getD []

def text (reference : ImageReference) : List Char :=
  match reference.host with
  | some host => host ++ '/' :: reference.remainder
  | none => reference.remainder

/-- The registry of the reference: its host, which is the one of Docker Hub without one. -/
def registry (reference : ImageReference) : List Char :=
  match reference.host with
  | some host => if host = "docker.io".toList then "registry-1.docker.io".toList else host
  | none => "registry-1.docker.io".toList

/-- The path, with the library of Docker Hub before a single component. -/
def repository (reference : ImageReference) : List Char :=
  if reference.registry = "registry-1.docker.io".toList ∧ reference.components.length = 1 then
    "library/".toList ++ reference.path
  else reference.path

/-- The host is the name, with or without a port. -/
def HasHostName (reference : ImageReference) (name : String) : Prop :=
  ∃ host ∈ reference.host, host = name.toList ∨ ∃ port, host = name.toList ++ ':' :: port

end ImageReference

/-- The parser finds the parts of the reference, and the same ones in what it displays. -/
def ParsedByGrammar (reference : ImageReference) (plainHttp : Bool) : Prop :=
  ∃ image, ImageRef.parse (String.ofList reference.text) plainHttp = .ok (.ok image) ∧
    image.registry = String.ofList reference.registry ∧
    image.repository = String.ofList reference.repository ∧
    image.reference = (reference.digest <|> reference.tag).map String.ofList ∧
    (image.scheme = "http" ↔ plainHttp = true ∨ reference.HasHostName "localhost" ∨
      reference.HasHostName "127.0.0.1" ∨ reference.HasHostName "[::1]") ∧
    ImageRef.parse image.display plainHttp = .ok (.ok image)

/-! ### What the parser finds -/

namespace ImageRef

variable {host first rest repo tag digest : List Char} {plainHttp : Bool}

theorem splitHost_host (hostLike : IsHostLike host) (whole : '/' ∉ host) :
    splitHost (host ++ '/' :: rest) = .ok (host, rest) := by
  rw [splitHost, find_char whole]
  simp only [sliceTo_append, sliceFrom_behind (by decide : '/'.utf8Size = 1), sliced]
  exact if_pos hostLike

theorem splitHost_component (plain : ¬ IsHostLike first) (whole : '/' ∉ first) :
    splitHost (first ++ '/' :: rest) = .ok ("docker.io".toList, first ++ '/' :: rest) := by
  rw [splitHost, find_char whole]
  simp only [sliceTo_append, sliced]
  exact if_neg plain

theorem splitHost_single (whole : '/' ∉ rest) :
    splitHost rest = .ok ("docker.io".toList, rest) := by
  rw [splitHost, find_char_eq_none.mpr whole]

theorem splitReference_digest (plain : '@' ∉ repo) :
    splitReference (repo ++ '@' :: digest) = .ok (repo, some digest) := by
  rw [splitReference, find_char plain]
  simp only [sliceTo_append, sliceFrom_behind (by decide : '@'.utf8Size = 1), sliced]
  rfl

/-- The last colon is looked for in the last segment. -/
theorem splitReference_unsigned {remainder front tail : List Char} (plain : '@' ∉ remainder)
    (last : (rfind '/' remainder).getD 0 = byteLength front) (split : remainder = front ++ tail) :
    (':' ∉ tail → splitReference remainder = .ok (remainder, none)) ∧
      ∀ before after, tail = before ++ ':' :: after → ':' ∉ after →
        splitReference remainder = .ok (front ++ before, some after) := by
  have cut : sliceFrom (byteLength front) remainder = some tail := by
    rw [split]
    exact sliceFrom_append front tail
  rw [splitReference, find_char_eq_none.mpr plain]
  simp only [last, cut, sliced, bind, Except.bind]
  constructor
  · intro absent
    rw [rfind_eq_none.mpr absent]
  · rintro before after rfl absent
    have whole : remainder = (front ++ before) ++ ':' :: after := by
      rw [split, List.append_assoc]
    simp only [rfind_char before absent]
    rw [← byteLength_append, whole, sliceTo_append,
      sliceFrom_behind (by decide : ':'.utf8Size = 1)]

/-- The last segment of a text, with its slash. -/
theorem exists_last_segment (text : List Char) :
    ∃ front segment, text = front ++ segment ∧
      ∀ behind, '/' ∉ behind → (rfind '/' (text ++ behind)).getD 0 = byteLength front := by
  by_cases segmented : '/' ∈ text
  · obtain ⟨front, back, rfl, last⟩ := exists_last_of_mem segmented
    refine ⟨front, '/' :: back, rfl, fun behind plain => ?_⟩
    have absent : '/' ∉ back ++ behind := fun member =>
      (List.mem_append.mp member).elim last plain
    rw [List.append_assoc, List.cons_append, rfind_char front absent, Option.getD_some]
  · refine ⟨[], text, rfl, fun behind plain => ?_⟩
    have absent : '/' ∉ text ++ behind := fun member =>
      (List.mem_append.mp member).elim segmented plain
    rw [rfind_eq_none.mpr absent]
    rfl

theorem splitReference_tag (plain : '@' ∉ repo)
    (plainTag : '/' ∉ tag ∧ ':' ∉ tag ∧ '@' ∉ tag) :
    splitReference (repo ++ ':' :: tag) = .ok (repo, some tag) := by
  obtain ⟨slash, colon, sign⟩ := plainTag
  obtain ⟨front, segment, rfl, last⟩ := exists_last_segment repo
  have unsigned : '@' ∉ front ++ segment ++ ':' :: tag := by
    simpa [sign] using plain
  have found := last (':' :: tag) (by simpa using slash)
  exact (splitReference_unsigned unsigned found (List.append_assoc ..)).2 segment tag rfl colon

theorem splitReference_plain (plain : '@' ∉ repo) (untagged : ':' ∉ repo) :
    splitReference repo = .ok (repo, none) := by
  obtain ⟨front, segment, split, last⟩ := exists_last_segment repo
  have found := last [] List.not_mem_nil
  rw [List.append_nil] at found
  refine (splitReference_unsigned plain found split).1 fun member => untagged ?_
  rw [split]
  exact List.mem_append_right front member

theorem parse_of_parts {text remainder : List Char} {reference : Option (List Char)}
    (ofHost : splitHost text = .ok (host, remainder))
    (ofReference : splitReference remainder = .ok (repo, reference)) :
    parse (String.ofList text) plainHttp =
      .ok (.ok (assemble plainHttp host repo reference)) := by
  rw [parse, String.toList_ofList, ofHost]
  simp only [bind, Except.bind, ofReference]

/-! ### What is displayed -/

theorem registryOf_registryOf (host : List Char) :
    registryOf (registryOf host) = registryOf host := by
  rw [registryOf.eq_def host]
  split
  · decide
  · rename_i other
    rw [registryOf, if_neg other]

/-- The registry of Docker Hub is that of its two hosts. -/
theorem registryOf_eq_hub :
    registryOf host = "registry-1.docker.io".toList ↔
      host = "docker.io".toList ∨ host = "registry-1.docker.io".toList := by
  rw [registryOf]
  split
  · rename_i hub
    exact iff_of_true rfl (Or.inl hub)
  · rename_i other
    exact (or_iff_right other).symm

theorem repositoryOf_eq (host repo : List Char) :
    repositoryOf host repo =
      if registryOf host = "registry-1.docker.io".toList ∧ '/' ∉ repo then
        "library/".toList ++ repo
      else repo := by
  simp only [repositoryOf, registryOf_eq_hub]

/-- A repository that the parser has completed is complete. -/
theorem repositoryOf_registryOf (host repo : List Char) :
    repositoryOf (registryOf host) (repositoryOf host repo) = repositoryOf host repo := by
  rw [repositoryOf_eq (registryOf host), registryOf_registryOf]
  refine if_neg ?_
  rintro ⟨hub, single⟩
  rw [repositoryOf_eq] at single
  by_cases segmented : '/' ∈ repo
  · rw [if_neg fun both => both.2 segmented] at single
    exact single segmented
  · rw [if_pos ⟨hub, segmented⟩] at single
    exact single (List.mem_append_left _ (by decide))

theorem assemble_assembled (plainHttp : Bool) (host repo : List Char)
    (reference : Option (List Char)) :
    assemble plainHttp (registryOf host) (repositoryOf host repo) reference =
      assemble plainHttp host repo reference := by
  rw [assemble, assemble, registryOf_registryOf, repositoryOf_registryOf]

theorem registryOf_hostLike (hostLike : IsHostLike host ∧ '/' ∉ host) :
    IsHostLike (registryOf host) ∧ '/' ∉ registryOf host := by
  rw [registryOf]
  split
  · decide
  · exact hostLike

theorem mem_repositoryOf {char : Char} (foreign : char ∉ "library/".toList) :
    char ∈ repositoryOf host repo ↔ char ∈ repo := by
  rw [repositoryOf]
  split
  · rw [List.mem_append, or_iff_right foreign]
  · rfl

/-- What stands behind the host in the displayed form. -/
def displayedRemainder (repository : List Char) : Option (List Char) → List Char
  | some reference => repository ++ (if ':' ∈ reference then '@' else ':') :: reference
  | none => repository

theorem display_assemble (plainHttp : Bool) (host repo : List Char)
    (reference : Option (List Char)) :
    (assemble plainHttp host repo reference).display =
      String.ofList (registryOf host ++ '/' ::
        displayedRemainder (repositoryOf host repo) reference) := by
  have slash : "/".toList = ['/'] := rfl
  have sign : "@".toList = ['@'] := rfl
  have colon : ":".toList = [':'] := rfl
  rw [← String.toList_inj, String.toList_ofList]
  cases reference with
  | none =>
    simp only [display, assemble, Option.map_none, displayedRemainder, String.toList_append,
      String.toList_ofList, slash, List.append_assoc, List.singleton_append]
  | some reference =>
    simp only [display, assemble, Option.map_some, displayedRemainder, String.toList_ofList]
    split
    all_goals
      simp only [String.toList_append, String.toList_ofList, slash, sign, colon,
        List.append_assoc, List.cons_append, List.nil_append]

/-- The parts of a displayed form can be told apart: without a digest, there is no sign of one, and
without a tag no colon either. -/
def Separable (repo : List Char) : Option (List Char) → Prop
  | some reference => '@' ∉ repo ∧ (':' ∈ reference ∨ '/' ∉ reference ∧ '@' ∉ reference)
  | none => '@' ∉ repo ∧ ':' ∉ repo

theorem Separable.completed {reference : Option (List Char)}
    (separable : Separable repo reference) : Separable (repositoryOf host repo) reference := by
  have sign : '@' ∈ repositoryOf host repo ↔ '@' ∈ repo := mem_repositoryOf (by decide)
  have colon : ':' ∈ repositoryOf host repo ↔ ':' ∈ repo := mem_repositoryOf (by decide)
  cases reference with
  | none => rwa [Separable, sign, colon]
  | some reference => rwa [Separable, sign]

theorem splitReference_displayed {reference : Option (List Char)}
    (separable : Separable repo reference) :
    splitReference (displayedRemainder repo reference) = .ok (repo, reference) := by
  cases reference with
  | none => exact splitReference_plain separable.1 separable.2
  | some reference =>
    obtain ⟨plain, tagged⟩ := separable
    rw [displayedRemainder]
    by_cases colon : ':' ∈ reference
    · rw [if_pos colon]
      exact splitReference_digest plain
    · obtain ⟨slash, sign⟩ := tagged.resolve_left colon
      rw [if_neg colon]
      exact splitReference_tag plain ⟨slash, colon, sign⟩

/-- What is displayed of a parsed reference is parsed to the same parts. -/
theorem parse_display {reference : Option (List Char)} (hostLike : IsHostLike host ∧ '/' ∉ host)
    (separable : Separable repo reference) :
    parse (assemble plainHttp host repo reference).display plainHttp =
      .ok (.ok (assemble plainHttp host repo reference)) := by
  obtain ⟨registryLike, whole⟩ := registryOf_hostLike hostLike
  rw [display_assemble, parse_of_parts (splitHost_host registryLike whole)
    (splitReference_displayed separable.completed), assemble_assembled]

/-! ### The scheme -/

/-- A host with this name, with or without a port. -/
def HasName (host name : List Char) : Prop :=
  host = name ∨ ∃ port, host = name ++ ':' :: port

/-- The name of a host stands before its first colon. -/
theorem hasName_headD (host : List Char) :
    HasName host ((host.splitOn ':').headD host) ∧ ':' ∉ (host.splitOn ':').headD host := by
  by_cases ported : ':' ∈ host
  · obtain ⟨name, port, rfl, plain⟩ := List.eq_append_cons_of_mem ported
    rw [List.splitOn_append_cons_self_of_not_mem plain, List.headD_cons]
    exact ⟨Or.inr ⟨port, rfl⟩, plain⟩
  · rw [List.splitOn_eq_singleton ported, List.headD_cons]
    exact ⟨Or.inl rfl, ported⟩

/-- A host has one name without a colon. -/
theorem HasName.unique {name other : List Char} (named : HasName host name)
    (otherNamed : HasName host other) (plain : ':' ∉ name) (otherPlain : ':' ∉ other) :
    name = other := by
  have head : ∀ {known : List Char}, HasName host known → ':' ∉ known →
      (host.splitOn ':').head? = some known := by
    rintro known (rfl | ⟨port, rfl⟩) plain
    · rw [List.splitOn_eq_singleton plain]
      rfl
    · rw [List.splitOn_append_cons_self_of_not_mem plain]
      rfl
  exact Option.some.inj ((head named plain).symm.trans (head otherNamed otherPlain))

theorem hasName_iff {name : List Char} (plain : ':' ∉ host) : HasName host name ↔ host = name := by
  refine or_iff_left ?_
  rintro ⟨port, rfl⟩
  exact plain (List.mem_append_right name List.mem_cons_self)

theorem headD_splitOn_iff {name : List Char} (plain : ':' ∉ name) :
    (host.splitOn ':').headD host = name ↔ HasName host name := by
  obtain ⟨named, alone⟩ := hasName_headD host
  constructor
  · rintro rfl
    exact named
  · intro other
    exact named.unique other alone plain

/-- The host name `[::1]` is never found. -/
theorem schemeOf_eq_http {registry : List Char} :
    schemeOf plainHttp registry = "http" ↔
      plainHttp = true ∨ HasName registry "localhost".toList ∨
        HasName registry "127.0.0.1".toList := by
  have bracketed : (registry.splitOn ':').headD registry ≠ "[::1]".toList := by
    intro same
    refine (hasName_headD registry).2 ?_
    rw [same]
    decide
  rw [schemeOf]
  by_cases plain : plainHttp = true
  · rw [if_pos plain]
    exact iff_of_true rfl (Or.inl plain)
  · rw [if_neg plain, or_iff_right plain, ← headD_splitOn_iff (by decide),
      ← headD_splitOn_iff (by decide)]
    simp only [bracketed, or_false]
    split
    · rename_i loopback
      exact iff_of_true rfl loopback
    · rename_i remote
      exact iff_of_false (by decide) remote

end ImageRef

/-! ### A well-formed reference -/

namespace ImageReference

open ImageRef

variable (reference : ImageReference)

/-- A character other than the slash is in a component. -/
theorem mem_components {char : Char} (other : char ≠ '/') {components : List (List Char)}
    (member : char ∈ ['/'].intercalate components) :
    ∃ component ∈ components, char ∈ component := by
  induction components with
  | nil => exact absurd member List.not_mem_nil
  | cons first rest inductionHypothesis =>
    by_cases alone : rest = []
    · subst alone
      rw [List.intercalate_singleton] at member
      exact ⟨first, List.mem_singleton_self first, member⟩
    · rw [List.intercalate_cons_of_ne_nil alone, List.append_assoc] at member
      rcases List.mem_append.mp member with inside | behind
      · exact ⟨first, List.mem_cons_self, inside⟩
      · have later := (List.mem_cons.mp behind).resolve_left other
        obtain ⟨component, found, inside⟩ := inductionHypothesis later
        exact ⟨component, List.mem_cons_of_mem first found, inside⟩

theorem path_plain : ':' ∉ reference.path ∧ '@' ∉ reference.path := by
  constructor
  all_goals
    intro member
    obtain ⟨component, found, inside⟩ := mem_components (by decide) member
    have plain := (reference.plain component found).2.2
  · exact plain.1 inside
  · exact plain.2 inside

/-- A path without a slash is a single component. -/
theorem single_iff : '/' ∉ reference.path ↔ reference.components.length = 1 := by
  constructor
  · intro single
    have components : reference.path.splitOn '/' = reference.components :=
      List.splitOn_intercalate '/' (fun component found => (reference.plain component found).2.1)
        reference.present
    rw [← components, List.splitOn_eq_singleton single]
    rfl
  · intro single
    obtain ⟨component, alone⟩ := List.length_eq_one_iff.mp single
    rw [path, alone, List.intercalate_singleton]
    refine (reference.plain component ?_).2.1
    rw [alone]
    exact List.mem_singleton_self component

/-- The host that the parser finds. -/
def hostText : List Char :=
  reference.host.getD "docker.io".toList

/-- The path that the parser finds: a tag is not taken from it where a digest stands behind it. -/
def parsedPath : List Char :=
  match reference.digest with
  | some _ => reference.path ++ (reference.tag.map (':' :: ·)).getD []
  | none => reference.path

theorem tag_plain {char : Char} (foreign : char = '/' ∨ char = '@') :
    char ∉ (reference.tag.map (':' :: ·)).getD [] := by
  cases tagged : reference.tag with
  | none => exact List.not_mem_nil
  | some tag =>
    obtain ⟨slash, -, sign⟩ := reference.tagPlain tag tagged
    rcases foreign with rfl | rfl
    · simpa using slash
    · simpa using sign

theorem digest_plain : '/' ∉ (reference.digest.map ('@' :: ·)).getD [] := by
  cases digested : reference.digest with
  | none => exact List.not_mem_nil
  | some digest => simpa using (reference.digestColon digest digested).2

theorem splitHost_text :
    splitHost reference.text = .ok (reference.hostText, reference.remainder) := by
  rw [text, hostText]
  cases hosted : reference.host with
  | some host =>
    obtain ⟨hostLike, whole⟩ := reference.hostLike host hosted
    exact splitHost_host hostLike whole
  | none =>
    rcases split : reference.components with _ | ⟨first, _ | ⟨second, rest⟩⟩
    · exact absurd split reference.present
    · refine splitHost_single ?_
      have single : '/' ∉ reference.path := reference.single_iff.mpr (by rw [split]; rfl)
      rw [remainder]
      intro member
      rcases List.mem_append.mp member with inside | inside
      · exact (List.mem_append.mp inside).elim single (reference.tag_plain (Or.inl rfl))
      · exact reference.digest_plain inside
    · have whole : '/' ∉ first := (reference.plain first (by simp [split])).2.1
      have plain := reference.hostless hosted first second rest split
      have behind : reference.remainder = first ++ '/' :: (['/'].intercalate (second :: rest) ++
          (reference.tag.map (':' :: ·)).getD [] ++
          (reference.digest.map ('@' :: ·)).getD []) := by
        rw [remainder, path, split, List.intercalate_cons_cons]
        simp only [List.append_assoc, List.cons_append, List.nil_append]
      rw [behind]
      exact splitHost_component plain whole

theorem splitReference_remainder :
    splitReference reference.remainder =
      .ok (reference.parsedPath, reference.digest <|> reference.tag) := by
  obtain ⟨colon, sign⟩ := reference.path_plain
  rw [remainder, parsedPath]
  cases digested : reference.digest with
  | some digest =>
    refine splitReference_digest fun member => ?_
    exact (List.mem_append.mp member).elim sign (reference.tag_plain (Or.inr rfl))
  | none =>
    cases tagged : reference.tag with
    | some tag =>
      rw [Option.map_none, Option.getD_none, List.append_nil]
      exact splitReference_tag sign (reference.tagPlain tag tagged)
    | none =>
      simp only [Option.map_none, Option.getD_none, List.append_nil]
      exact splitReference_plain sign colon

theorem parse_text (plainHttp : Bool) :
    parse (String.ofList reference.text) plainHttp =
      .ok (.ok (assemble plainHttp reference.hostText reference.parsedPath
        (reference.digest <|> reference.tag))) :=
  parse_of_parts reference.splitHost_text reference.splitReference_remainder

theorem registryOf_hostText : registryOf reference.hostText = reference.registry := by
  rw [hostText, registry]
  cases reference.host with
  | some host => rfl
  | none => rfl

theorem repositoryOf_path :
    repositoryOf reference.hostText reference.path = reference.repository := by
  rw [repositoryOf_eq, registryOf_hostText, repository]
  simp only [single_iff]

/-- The tag stays in the repository before a digest. -/
theorem repositoryOf_parsedPath :
    repositoryOf reference.hostText reference.parsedPath = reference.repository ↔
      ¬ (reference.tag.isSome ∧ reference.digest.isSome) := by
  rw [← repositoryOf_path, parsedPath]
  cases reference.digest with
  | none => exact iff_of_true rfl fun both => absurd both.2 (by decide)
  | some digest =>
    cases tagged : reference.tag with
    | none =>
      rw [Option.map_none, Option.getD_none, List.append_nil]
      exact iff_of_true rfl fun both => absurd both.1 (by decide)
    | some tag =>
      refine iff_of_false (fun same => ?_) (not_not_intro ⟨rfl, rfl⟩)
      have colon : ':' ∈ repositoryOf reference.hostText (reference.path ++ ':' :: tag) :=
        (mem_repositoryOf (by decide)).mpr
          (List.mem_append_right _ List.mem_cons_self)
      change repositoryOf _ (reference.path ++ ':' :: tag) = _ at same
      rw [same] at colon
      exact reference.path_plain.1 ((mem_repositoryOf (by decide)).mp colon)

/-- The hosts of Docker Hub have no other name than themselves. -/
theorem hasHostName_iff {name : String}
    (other : name ∉ ["docker.io", "registry-1.docker.io"]) :
    reference.HasHostName name ↔ HasName reference.registry name.toList := by
  rw [List.mem_cons, List.mem_singleton, not_or, ← String.toList_inj, ← String.toList_inj] at other
  have hub : ¬ HasName "docker.io".toList name.toList := by
    rw [hasName_iff (by decide)]
    exact fun same => other.1 same.symm
  have mirror : ¬ HasName "registry-1.docker.io".toList name.toList := by
    rw [hasName_iff (by decide)]
    exact fun same => other.2 same.symm
  rw [HasHostName, registry]
  cases reference.host with
  | none => exact iff_of_false (fun ⟨host, absent, _⟩ => absurd absent (by simp)) mirror
  | some host =>
    simp only [Option.mem_def, Option.some.injEq, exists_eq_left']
    split
    · rename_i same
      subst same
      exact iff_of_false hub mirror
    · exact Iff.rfl

/-- The text before the first colon of the host `[::1]` is its bracket. -/
theorem hasName_bracket (bracketed : reference.HasHostName "[::1]") :
    HasName reference.registry ['['] := by
  obtain ⟨host, hosted, named⟩ := bracketed
  rw [registry, show reference.host = some host from hosted]
  rcases named with rfl | ⟨port, rfl⟩
  · exact Or.inr ⟨":1]".toList, rfl⟩
  · exact Or.inr ⟨":1]".toList ++ ':' :: port, rfl⟩

/-- The scheme is missed for the host `[::1]` alone. -/
theorem scheme_iff (plainHttp : Bool) :
    (schemeOf plainHttp reference.registry = "http" ↔
      plainHttp = true ∨ reference.HasHostName "localhost" ∨
        reference.HasHostName "127.0.0.1" ∨ reference.HasHostName "[::1]") ↔
      plainHttp = true ∨ ¬ reference.HasHostName "[::1]" := by
  rw [schemeOf_eq_http, ← reference.hasHostName_iff (by decide),
    ← reference.hasHostName_iff (by decide)]
  constructor
  · intro same
    by_contra missed
    rw [not_or, not_not] at missed
    obtain ⟨secure, bracketed⟩ := missed
    have bracket := reference.hasName_bracket bracketed
    rcases same.mpr (Or.inr (Or.inr (Or.inr bracketed))) with plain | named | named
    · exact secure plain
    all_goals
      have other := (reference.hasHostName_iff (by decide)).mp named
      exact absurd (bracket.unique other (by decide) (by decide)) (by decide)
  · rintro (plain | other)
    · exact iff_of_true (Or.inl plain) (Or.inl plain)
    · rw [or_iff_left other]

theorem hostText_hostLike : IsHostLike reference.hostText ∧ '/' ∉ reference.hostText := by
  rw [hostText]
  cases hosted : reference.host with
  | some host => exact reference.hostLike host hosted
  | none => decide

theorem separable : Separable reference.parsedPath (reference.digest <|> reference.tag) := by
  obtain ⟨colon, sign⟩ := reference.path_plain
  rw [parsedPath]
  cases digested : reference.digest with
  | some digest =>
    refine ⟨fun member => ?_, Or.inl (reference.digestColon digest digested).1⟩
    exact (List.mem_append.mp member).elim sign (reference.tag_plain (Or.inr rfl))
  | none =>
    cases tagged : reference.tag with
    | some tag =>
      obtain ⟨slash, -, tagSign⟩ := reference.tagPlain tag tagged
      exact ⟨sign, Or.inr ⟨slash, tagSign⟩⟩
    | none => exact ⟨sign, colon⟩

/-- What is displayed of a well-formed reference is parsed to the same parts. -/
theorem parse_displayed (plainHttp : Bool) :
    parse (assemble plainHttp reference.hostText reference.parsedPath
        (reference.digest <|> reference.tag)).display plainHttp =
      .ok (.ok (assemble plainHttp reference.hostText reference.parsedPath
        (reference.digest <|> reference.tag))) :=
  parse_display reference.hostText_hostLike reference.separable

end ImageReference

theorem references_parsed_iff (reference : ImageReference) (plainHttp : Bool) :
    ParsedByGrammar reference plainHttp ↔
      ¬ (reference.tag.isSome ∧ reference.digest.isSome) ∧
        (plainHttp = true ∨ ¬ reference.HasHostName "[::1]") := by
  rw [← reference.repositoryOf_parsedPath, ← reference.scheme_iff plainHttp]
  constructor
  · rintro ⟨image, parsed, -, repository, -, scheme, -⟩
    rw [reference.parse_text plainHttp] at parsed
    obtain rfl := Except.ok.inj (Except.ok.inj parsed)
    rw [ImageRef.assemble, reference.registryOf_hostText] at scheme
    exact ⟨String.ofList_injective repository, scheme⟩
  · rintro ⟨repository, scheme⟩
    refine ⟨_, reference.parse_text plainHttp, ?_, ?_, rfl, ?_,
      reference.parse_displayed plainHttp⟩
    · exact congrArg String.ofList reference.registryOf_hostText
    · exact congrArg String.ofList repository
    · rw [ImageRef.assemble, reference.registryOf_hostText]
      exact scheme

/-- `nginx:1.2@sha256:abc` -/
def taggedDigest : ImageReference where
  host := none
  components := ["nginx".toList]
  tag := some "1.2".toList
  digest := some "sha256:abc".toList
  hostLike := by decide
  present := by decide
  plain := by decide
  hostless := fun _ first second rest several => absurd (congrArg List.length several) (by simp)
  tagPlain := by decide
  digestColon := by decide

/-- `[::1]:5000/app` -/
def bracketedHost : ImageReference where
  host := some "[::1]:5000".toList
  components := ["app".toList]
  tag := none
  digest := none
  hostLike := by decide
  present := by decide
  plain := by decide
  hostless := fun absent => absurd absent (by decide)
  tagPlain := by decide
  digestColon := by decide

theorem tag_kept_before_digest :
    ImageRef.parse "nginx:1.2@sha256:abc" false =
        .ok (.ok ⟨"registry-1.docker.io", "library/nginx:1.2", some "sha256:abc", "https"⟩) ∧
      ¬ ParsedByGrammar taggedDigest false ∧
      ImageRef.parse "[::1]:5000/app" false =
        .ok (.ok ⟨"[::1]:5000", "app", none, "https"⟩) ∧
      ¬ ParsedByGrammar bracketedHost false := by
  refine ⟨by decide +kernel, ?_, by decide +kernel, ?_⟩
  · rintro ⟨image, parsed, -, repository, -⟩
    rw [taggedDigest.parse_text] at parsed
    obtain rfl := Except.ok.inj (Except.ok.inj parsed)
    exact absurd repository (by decide +kernel)
  · rintro ⟨image, parsed, -, -, -, scheme, -⟩
    rw [bracketedHost.parse_text] at parsed
    obtain rfl := Except.ok.inj (Except.ok.inj parsed)
    have named : bracketedHost.HasHostName "[::1]" :=
      ⟨_, rfl, Or.inr ⟨"5000".toList, rfl⟩⟩
    exact absurd (scheme.mpr (Or.inr (Or.inr (Or.inr named)))) (by decide +kernel)

end Layerhouse
