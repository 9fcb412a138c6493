/-
This file is the `parse_bearer_challenge` of the server's `mirror/client.rs` and of
`layerhouse-ctl`'s `registry.rs`: the scan of a `WWW-Authenticate` header for the realm and the
service of a token server. The two copies differ in the error for a header without a realm.

The scan cuts the header at byte offsets and would panic at one that is inside a character. Every
offset comes from a search in the same text, so it never does, and a round of the loop drops at
least an equals sign, so the loop ends on every header.
-/

import Layerhouse.Ctl.Transfers
import Layerhouse.Library.Slices

namespace Layerhouse

structure BearerChallenge where
  realm : String
  service : Option String
deriving DecidableEq

/-! ### The scan -/

namespace ChallengeScan

/-- The values the loop has found so far. -/
structure Found where
  realm : Option String
  service : Option String
deriving DecidableEq

def Found.record (found : Found) (key value : List Char) : Found :=
  if key = "realm".toList then { found with realm := some (String.ofList value) }
  else if key = "service".toList then { found with service := some (String.ofList value) }
  else found

/-- The value behind an equals sign, and what is left behind it. -/
def takeValue (rest : List Char) : Except Panic (List Char × List Char) :=
  match Text.stripPrefix ['"'] rest with
  | some rest => do
    let stop := (Slices.find ['"'] rest).getD (Slices.byteLength rest)
    let value ← sliced (Slices.sliceTo stop rest)
    return (value, (Slices.sliceFrom (stop + 1) rest).getD [])
  | none => do
    let stop := (Slices.find [','] rest).getD (Slices.byteLength rest)
    let value ← sliced (Slices.sliceTo stop rest)
    let rest ← sliced (Slices.sliceFrom stop rest)
    return (value, rest)

/-- A round of the loop; none is its `break`. -/
def takeParameter (remaining : List Char) (found : Found) :
    Except Panic (Option (List Char × Found)) :=
  match Text.splitOnce '=' (remaining.dropWhile (· ∈ [',', ' '])) with
  | none => .ok none
  | some (key, rest) => do
    let (value, rest) ← takeValue rest
    return some (rest, found.record (Text.trim key) value)

/-- The loop; none if the fuel does not last to its end. -/
def scan : Nat → List Char → Found → Option (Except Panic Found)
  | 0, _, _ => none
  | fuel + 1, remaining, found =>
    if remaining = [] then some (.ok found)
    else
      match takeParameter remaining found with
      | .error panic => some (.error panic)
      | .ok none => some (.ok found)
      | .ok (some (rest, found)) => scan fuel rest found

/-- The text that both copies share, with the error for a header without a realm. -/
def parse {Failure : Type} (noRealm : Failure) (fuel : Nat) (header : String) :
    Option (Except Panic (Except Failure BearerChallenge)) :=
  let parameters := (Text.stripPrefix "Bearer ".toList header.toList).getD header.toList
  (scan fuel parameters ⟨none, none⟩).map fun outcome => outcome.map fun found =>
    match found.realm with
    | some realm => .ok ⟨realm, found.service⟩
    | none => .error noRealm

end ChallengeScan

def UpstreamClient.parseBearerChallenge : Nat → String →
    Option (Except Panic (Except LayerhouseError BearerChallenge)) :=
  ChallengeScan.parse (.upstream "no realm in Bearer challenge")

def RegistryClient.parseBearerChallenge : Nat → String →
    Option (Except Panic (Except RegistryError BearerChallenge)) :=
  ChallengeScan.parse (.protocol "no realm in Bearer challenge")

/-! ### A round of the loop -/

namespace ChallengeScan

open Slices

variable {rest remaining value : List Char} {found : Found}

theorem takeValue_quoted (unquoted : '"' ∉ value) :
    takeValue ('"' :: (value ++ '"' :: rest)) = .ok (value, rest) := by
  have after : sliceFrom (byteLength value + 1) (value ++ '"' :: rest) = some rest :=
    sliceFrom_behind (by decide) value rest
  rw [takeValue, Text.stripPrefix_eq_some.mpr (List.singleton_append ..).symm]
  simp only [find_char unquoted, Option.getD_some, sliceTo_append, after]
  rfl

/-- Behind a quote that is never closed, all of the rest is the value. -/
theorem takeValue_unclosed (unquoted : '"' ∉ value) :
    takeValue ('"' :: value) = .ok (value, []) := by
  have nothing : sliceFrom (byteLength value + 1) value = none :=
    sliceFrom_of_lt (Nat.lt_succ_self _)
  rw [takeValue, Text.stripPrefix_eq_some.mpr (List.singleton_append ..).symm]
  simp only [find_char_eq_none.mpr unquoted, Option.getD_none, sliceTo_byteLength, nothing]
  rfl

theorem takeValue_bare (unquoted : ∀ body, rest ≠ '"' :: body) (comma : ',' ∉ value)
    (split : rest = value ∨ ∃ after, rest = value ++ ',' :: after) :
    takeValue rest = .ok (value, rest.drop value.length) := by
  have bare : Text.stripPrefix ['"'] rest = none := by
    rw [Option.eq_none_iff_forall_ne_some]
    exact fun body opened => unquoted body (Text.stripPrefix_eq_some.mp opened)
  rw [takeValue, bare]
  rcases split with rfl | ⟨after, rfl⟩
  · have nothing : sliceFrom (byteLength rest) rest = some [] := by
      have cut := sliceFrom_append rest []
      rwa [List.append_nil] at cut
    simp only [find_char_eq_none.mpr comma, Option.getD_none, sliceTo_byteLength, nothing,
      List.drop_length]
    rfl
  · simp only [find_char comma, Option.getD_some, sliceTo_append, sliceFrom_append,
      List.drop_left]
    rfl

/-- A value is always cut between two characters. -/
theorem takeValue_ok (rest : List Char) :
    ∃ value left, takeValue rest = .ok (value, left) ∧ left.length ≤ rest.length := by
  by_cases quoted : ∃ body, rest = '"' :: body
  · obtain ⟨body, rfl⟩ := quoted
    by_cases closed : '"' ∈ body
    · obtain ⟨before, after, rfl, absent⟩ := List.eq_append_cons_of_mem closed
      refine ⟨before, after, takeValue_quoted absent, ?_⟩
      rw [List.length_cons, List.length_append, List.length_cons]
      omega
    · exact ⟨body, [], takeValue_unclosed closed, Nat.zero_le _⟩
  · have unquoted (body : List Char) : rest ≠ '"' :: body := fun opened => quoted ⟨body, opened⟩
    by_cases ended : ',' ∈ rest
    · obtain ⟨before, after, split, absent⟩ := List.eq_append_cons_of_mem ended
      refine ⟨before, _, takeValue_bare unquoted absent (Or.inr ⟨after, split⟩), ?_⟩
      rw [List.length_drop]
      exact Nat.sub_le _ _
    · refine ⟨rest, _, takeValue_bare unquoted ended (Or.inl rfl), ?_⟩
      rw [List.length_drop]
      exact Nat.sub_le _ _

/-- A round never panics, and leaves less than there was. -/
theorem takeParameter_ok (remaining : List Char) (found : Found) :
    ∃ next, takeParameter remaining found = .ok next ∧
      ∀ rest later, next = some (rest, later) → rest.length < remaining.length := by
  rw [takeParameter]
  cases equals : Text.splitOnce '=' (remaining.dropWhile (· ∈ [',', ' '])) with
  | none => exact ⟨none, rfl, fun rest later impossible => nomatch impossible⟩
  | some halves =>
    obtain ⟨key, behind⟩ := halves
    obtain ⟨value, left, taken, shorter⟩ := takeValue_ok behind
    refine ⟨some (left, found.record (Text.trim key) value), ?_, ?_⟩
    · simp only [taken]
      rfl
    · intro rest later same
      cases same
      have lengths := congrArg List.length (Text.splitOnce_eq_some.mp equals).1
      rw [List.length_append, List.length_cons] at lengths
      have dropped := List.length_dropWhile_le (· ∈ [',', ' ']) remaining
      omega

theorem scan_ok {fuel : Nat} (enough : remaining.length < fuel) :
    ∃ last, scan fuel remaining found = some (.ok last) := by
  induction fuel generalizing remaining found with
  | zero => exact absurd enough (Nat.not_lt_zero _)
  | succ fuel inductionHypothesis =>
    rw [scan]
    by_cases ended : remaining = []
    · exact ⟨found, if_pos ended⟩
    · obtain ⟨next, taken, shorter⟩ := takeParameter_ok remaining found
      rw [if_neg ended, taken]
      cases next with
      | none => exact ⟨found, rfl⟩
      | some left =>
        have less := shorter left.1 left.2 rfl
        exact inductionHypothesis (by omega)

end ChallengeScan

/-! ### Rendered challenges -/

/-- The characters of the tokens of HTTP. -/
def isTokenChar (char : Char) : Bool :=
  char.isAlphanum || "!#$%&'*+-.^_`|~".toList.contains char

/-- A parameter with a token for a key and a value that may stand in double quotes. -/
structure ChallengeParameter where
  key : String
  value : String
  token : key ≠ "" ∧ ∀ char ∈ key.toList, isTokenChar char = true
  unquoted : '"' ∉ value.toList

/-- What stands between two parameters. -/
inductive ChallengeSeparator where
  | comma
  | commaSpace

def ChallengeSeparator.text : ChallengeSeparator → List Char
  | comma => [',']
  | commaSpace => [',', ' ']

def ChallengeParameter.quoted (parameter : ChallengeParameter) : List Char :=
  parameter.key.toList ++ '=' :: '"' :: (parameter.value.toList ++ ['"'])

def renderParameters : List (ChallengeSeparator × ChallengeParameter) → List Char
  | [] => []
  | (_, first) :: others =>
    first.quoted ++ others.flatMap fun other => other.1.text ++ other.2.quoted

/-- The parameters, each with the separator that stands before it unless it is the first one. -/
def renderChallenge (parameters : List (ChallengeSeparator × ChallengeParameter)) : String :=
  String.ofList ("Bearer ".toList ++ renderParameters parameters)

/-- The value of the last parameter with the key. -/
def lastValue (key : String) (parameters : List ChallengeParameter) : Option String :=
  (parameters.filter (·.key = key)).getLast?.map (·.value)

theorem lastValue_concat (key : String) (parameters : List ChallengeParameter)
    (last : ChallengeParameter) : lastValue key (parameters ++ [last]) =
      if last.key = key then some last.value else lastValue key parameters := by
  rw [lastValue, List.filter_append]
  split_ifs with same
  · rw [List.filter_cons_of_pos (by simpa using same), List.filter_nil, List.getLast?_concat]
    rfl
  · rw [List.filter_cons_of_neg (by simpa using same), List.filter_nil, List.append_nil]
    rfl

theorem visible_of_isTokenChar {char : Char} (token : isTokenChar char = true) :
    33 ≤ char.toNat ∧ char.toNat ≤ 126 := by
  have signs : ∀ char ∈ "!#$%&'*+-.^_`|~".toList, 33 ≤ char.toNat ∧ char.toNat ≤ 126 := by
    simp
  rw [isTokenChar, Bool.or_eq_true, List.contains_iff_mem] at token
  exact token.elim Text.visible_of_isAlphanum (signs char)

theorem trim_key (parameter : ChallengeParameter) :
    Text.trim parameter.key.toList = parameter.key.toList := by
  refine Text.trim_eq_self fun char member => ?_
  have visible := visible_of_isTokenChar (parameter.token.2 char member)
  rw [Text.isWhitespace, decide_eq_false_iff_not]
  omega

namespace ChallengeScan

theorem takeParameter_quoted {lead : List Char} (separators : ∀ char ∈ lead, char ∈ [',', ' '])
    (parameter : ChallengeParameter) (rest : List Char) (found : Found) :
    takeParameter (lead ++ (parameter.quoted ++ rest)) found =
      .ok (some (rest, found.record parameter.key.toList parameter.value.toList)) := by
  have notSign {sign : Char} (sign_not_token : isTokenChar sign = false) :
      sign ∉ parameter.key.toList := fun member =>
    Bool.false_ne_true (sign_not_token.symm.trans (parameter.token.2 sign member))
  have trimmed : (lead ++ (parameter.quoted ++ rest)).dropWhile (· ∈ [',', ' ']) =
      parameter.key.toList ++ '=' :: '"' :: (parameter.value.toList ++ '"' :: rest) := by
    rw [List.dropWhile_append_of_pos fun char member => decide_eq_true (separators char member),
      ChallengeParameter.quoted]
    obtain ⟨first, others, keyEq⟩ := List.exists_cons_of_ne_nil
      (fun empty => parameter.token.1 (String.toList_eq_nil_iff.mp empty))
    have firstInKey : first ∈ parameter.key.toList := keyEq ▸ List.mem_cons_self
    rw [keyEq, List.append_assoc, List.cons_append, List.dropWhile_cons_of_neg]
    · simp
    · rw [decide_eq_true_iff, List.mem_pair]
      rintro (rfl | rfl)
      · exact notSign (by decide) firstInKey
      · exact notSign (by decide) firstInKey
  have halves := Text.splitOnce_eq_some.mpr ⟨trimmed, notSign (by decide)⟩
  rw [takeParameter, halves]
  simp only [takeValue_quoted parameter.unquoted, trim_key]
  rfl

theorem scan_parameter {lead : List Char} (separators : ∀ char ∈ lead, char ∈ [',', ' '])
    (parameter : ChallengeParameter) (rest : List Char) (fuel : Nat) (found : Found) :
    scan (fuel + 1) (lead ++ (parameter.quoted ++ rest)) found =
      scan fuel rest (found.record parameter.key.toList parameter.value.toList) := by
  have present : lead ++ (parameter.quoted ++ rest) ≠ [] := by
    rw [ChallengeParameter.quoted]
    simp
  rw [scan, if_neg present, takeParameter_quoted separators]

theorem separators_of_text (separator : ChallengeSeparator) :
    ∀ char ∈ separator.text, char ∈ [',', ' '] := by
  cases separator <;> simp [ChallengeSeparator.text]

theorem length_quoted_pos (parameter : ChallengeParameter) : 0 < parameter.quoted.length := by
  rw [ChallengeParameter.quoted, List.length_append, List.length_cons]
  omega

/-- The scan records the parameters one after the other. -/
theorem scan_following {parameters : List (ChallengeSeparator × ChallengeParameter)} {fuel : Nat}
    {found : Found}
    (enough : (parameters.flatMap fun other => other.1.text ++ other.2.quoted).length < fuel) :
    scan fuel (parameters.flatMap fun other => other.1.text ++ other.2.quoted) found =
      some (.ok ((parameters.map Prod.snd).foldl (fun found parameter =>
        found.record parameter.key.toList parameter.value.toList) found)) := by
  induction parameters generalizing fuel found with
  | nil =>
    obtain ⟨fuel, rfl⟩ := Nat.exists_eq_add_one_of_ne_zero (Nat.ne_zero_of_lt enough)
    rfl
  | cons other parameters inductionHypothesis =>
    obtain ⟨fuel, rfl⟩ := Nat.exists_eq_add_one_of_ne_zero (Nat.ne_zero_of_lt enough)
    have written := length_quoted_pos other.2
    rw [List.flatMap_cons, List.append_assoc] at enough ⊢
    rw [List.length_append, List.length_append] at enough
    rw [scan_parameter (separators_of_text other.1), inductionHypothesis (by omega)]
    rfl

theorem scan_rendered {parameters : List (ChallengeSeparator × ChallengeParameter)} {fuel : Nat}
    {found : Found} (enough : (renderParameters parameters).length < fuel) :
    scan fuel (renderParameters parameters) found =
      some (.ok ((parameters.map Prod.snd).foldl (fun found parameter =>
        found.record parameter.key.toList parameter.value.toList) found)) := by
  cases parameters with
  | nil => exact @scan_following [] _ _ enough
  | cons first others =>
    obtain ⟨fuel, rfl⟩ := Nat.exists_eq_add_one_of_ne_zero (Nat.ne_zero_of_lt enough)
    have written := length_quoted_pos first.2
    have step := @scan_parameter [] (fun char member => nomatch member) first.2
      (others.flatMap fun other => other.1.text ++ other.2.quoted) fuel found
    rw [renderParameters, List.length_append] at enough
    rw [renderParameters, ← List.nil_append (first.2.quoted ++ _), step,
      scan_following (by omega)]
    rfl

/-- Of the parameters with one key the last is kept. -/
theorem foldl_record (parameters : List ChallengeParameter) :
    parameters.foldl (fun (found : Found) parameter =>
      found.record parameter.key.toList parameter.value.toList) ⟨none, none⟩ =
        ⟨lastValue "realm" parameters, lastValue "service" parameters⟩ := by
  induction parameters using List.reverseRecOn with
  | nil => rfl
  | append_singleton parameters last inductionHypothesis =>
    rw [List.foldl_append, inductionHypothesis, List.foldl_cons, List.foldl_nil, Found.record,
      lastValue_concat, lastValue_concat, String.ofList_toList]
    simp only [String.toList_inj]
    by_cases realm : last.key = "realm"
    · have other : last.key ≠ "service" := by
        rw [realm]
        decide
      rw [if_pos realm, if_pos realm, if_neg other]
    · rw [if_neg realm, if_neg realm]
      by_cases service : last.key = "service"
      · rw [if_pos service, if_pos service]
      · rw [if_neg service, if_neg service]

theorem toList_renderChallenge (parameters : List (ChallengeSeparator × ChallengeParameter)) :
    (renderChallenge parameters).toList = "Bearer ".toList ++ renderParameters parameters :=
  String.toList_ofList

theorem parse_rendered {Failure : Type} (noRealm : Failure)
    {parameters : List (ChallengeSeparator × ChallengeParameter)} {fuel : Nat}
    (enough : (renderChallenge parameters).length < fuel) :
    parse noRealm fuel (renderChallenge parameters) = some (.ok
      (match lastValue "realm" (parameters.map Prod.snd) with
      | some realm => .ok ⟨realm, lastValue "service" (parameters.map Prod.snd)⟩
      | none => .error noRealm)) := by
  have stripped : Text.stripPrefix "Bearer ".toList (renderChallenge parameters).toList =
      some (renderParameters parameters) :=
    Text.stripPrefix_eq_some.mpr (toList_renderChallenge parameters)
  have shorter : (renderParameters parameters).length < fuel := by
    have lengths := congrArg List.length (toList_renderChallenge parameters)
    rw [List.length_append, String.length_toList] at lengths
    omega
  rw [parse, stripped, Option.getD_some, scan_rendered shorter, foldl_record]
  rfl

/-- No header makes the scan panic or run forever. -/
theorem parse_ok {Failure : Type} (noRealm : Failure) {header : String} {fuel : Nat}
    (enough : header.length < fuel) : ∃ answer, parse noRealm fuel header = some (.ok answer) := by
  have shorter : ((Text.stripPrefix "Bearer ".toList header.toList).getD header.toList).length <
      fuel := by
    cases stripped : Text.stripPrefix "Bearer ".toList header.toList with
    | none => exact enough
    | some rest =>
      have lengths := congrArg List.length (Text.stripPrefix_eq_some.mp stripped)
      rw [List.length_append, String.length_toList] at lengths
      rw [Option.getD_some]
      omega
  obtain ⟨last, scanned⟩ : ∃ last, scan fuel
      ((Text.stripPrefix "Bearer ".toList header.toList).getD header.toList) ⟨none, none⟩ =
        some (.ok last) :=
    scan_ok shorter
  exact ⟨_, by rw [parse, scanned]; rfl⟩

/-- The answers with two errors differ in the error only. -/
theorem parse_mapError {Failure Other : Type} (noRealm : Failure) (other : Other) (fuel : Nat)
    (header : String) : parse other fuel header = (parse noRealm fuel header).map fun outcome =>
      outcome.map fun answer => answer.mapError fun _ => other := by
  rw [parse, parse, Option.map_map]
  congr 1
  funext outcome
  cases outcome with
  | error panic => rfl
  | ok found =>
    obtain ⟨realm, service⟩ := found
    cases realm <;> rfl

end ChallengeScan

/-! ### Challenges are parsed faithfully -/

/-- Challenges are read as they were rendered, every header is read to an end without a panic, and
both copies read it alike. -/
theorem challenges_are_parsed :
    (∀ parameters fuel, (renderChallenge parameters).length < fuel →
      UpstreamClient.parseBearerChallenge fuel (renderChallenge parameters) = some (.ok
        (match lastValue "realm" (parameters.map Prod.snd) with
        | some realm => .ok ⟨realm, lastValue "service" (parameters.map Prod.snd)⟩
        | none => .error (.upstream "no realm in Bearer challenge")))) ∧
    (∀ header fuel, header.length < fuel → ∃ answer,
      UpstreamClient.parseBearerChallenge fuel header = some (.ok answer)) ∧
    ∀ header fuel, RegistryClient.parseBearerChallenge fuel header =
      (UpstreamClient.parseBearerChallenge fuel header).map fun outcome =>
        outcome.map fun answer =>
          answer.mapError fun _ => .protocol "no realm in Bearer challenge" := by
  refine ⟨fun parameters fuel enough => ChallengeScan.parse_rendered _ enough,
    fun header fuel enough => ChallengeScan.parse_ok _ enough, fun header fuel => ?_⟩
  exact ChallengeScan.parse_mapError _ _ fuel header

example : UpstreamClient.parseBearerChallenge 40 "Bearer scope=\"a=b, c\", realm=\"u,v\",x=1" =
    some (.ok (.ok ⟨"u,v", none⟩)) := by
  decide

end Layerhouse
