/-
This file is the texts of fields that the registry writes and reads: the form and
the authorization request of `auth/oauth2.rs`, which are written with its own
`percent_encode`, and `query_params` of `routes/mod.rs`, which reads a query.

A field may hold any text; the code of a callback is whatever somebody put into the
link. The names and values that were written are the ones that are read, in order
and no others, by the server's decoder and by the standard one. So no value reaches
into another field, and the provider is asked for exactly the state and the
challenge that were drawn.
-/

import Layerhouse.Auth.Logins
import Layerhouse.Routes.Paths

namespace Layerhouse

/-! ### Reading -/

/-- The names and values of a query, with the escapes that `read` accepts replaced. -/
def queryPairsWith (decode : String → String) (query : List Char) : List (String × String) :=
  (query.splitOn '&').filterMap fun pair =>
    (Text.splitOnce '=' pair).map fun (key, value) =>
      (decode (String.ofList key), decode (String.ofList value))

/-- The parameters of a query; of two with one name the later one stays. -/
def queryParams (query : Option (List Char)) : BTreeMap String String :=
  match query with
  | none => ∅
  | some query =>
    (queryPairsWith percentDecode query).foldl (fun params pair => params.insert pair.1 pair.2) ∅

/-- What a decoder by the standard makes of a value that decodes to UTF-8. -/
def standardDecode (text : String) : String :=
  (axumPath text).getD text

/-! ### Escapes -/

/-- The table reads the digits that the encoder writes. -/
def ReadsDigits (read : UInt8 → UInt8 → Option UInt8) : Prop :=
  ∀ byte : UInt8, read (hexDigitByte (byte.toNat / 16)) (hexDigitByte (byte.toNat % 16)) =
    some byte

theorem hexPair_readsDigits : ReadsDigits hexPair := by
  intro byte
  obtain ⟨_, _, _, digits⟩ := escapeByte_spec byte
  obtain ⟨high, ofHigh, rest⟩ := Option.bind_eq_some_iff.mp digits
  obtain ⟨low, ofLow, same⟩ := Option.map_eq_some_iff.mp rest
  rw [hexPair, ofHigh, ofLow]
  exact congrArg some same

theorem fromStrRadix_readsDigits : ReadsDigits fromStrRadix := by
  intro byte
  have unsigned : hexDigitByte (byte.toNat / 16) ≠ 0x2B := by
    obtain ⟨_, _, _, digits⟩ := escapeByte_spec byte
    intro plus
    rw [plus] at digits
    cases digits
  rw [fromStrRadix, if_neg unsigned]
  exact hexPair_readsDigits byte

theorem utf8_oauth2PercentEncode (value : List Char) :
    Text.utf8 (oauth2PercentEncode value) = (Text.utf8 value).flatMap escapedBytes := by
  rw [oauth2PercentEncode]
  induction Text.utf8 value with
  | nil => rfl
  | cons byte bytes inductionHypothesis =>
    rw [List.flatMap_cons, Text.utf8_append, utf8_escapeByte, inductionHypothesis,
      List.flatMap_cons]

/-- Every byte is read as it was escaped. -/
theorem decode_escapedBytes {read : UInt8 → UInt8 → Option UInt8} (reads : ReadsDigits read)
    (bytes : List UInt8) : Escapes.decode 0x25 read (bytes.flatMap escapedBytes) = bytes := by
  induction bytes with
  | nil => rfl
  | cons byte bytes inductionHypothesis =>
    rw [List.flatMap_cons, escapedBytes]
    split
    · rename_i plain
      rw [List.singleton_append, Escapes.decode_cons_of_ne plain.2, inductionHypothesis]
    · rw [List.cons_append, List.cons_append, List.singleton_append,
        Escapes.decode_escape (reads byte), inductionHypothesis]

/-- What is encoded is read back, whichever of the two tables is read with. -/
theorem unescape_oauth2PercentEncode {read : UInt8 → UInt8 → Option UInt8}
    (reads : ReadsDigits read) (value : List Char) :
    unescape read (String.ofList (oauth2PercentEncode value)) = Text.utf8 value := by
  rw [unescape, String.toList_ofList, utf8_oauth2PercentEncode, decode_escapedBytes reads]

theorem percentDecode_oauth2PercentEncode (value : List Char) :
    percentDecode (String.ofList (oauth2PercentEncode value)) = String.ofList value := by
  rw [percentDecode, unescape_oauth2PercentEncode fromStrRadix_readsDigits,
    Text.fromUtf8_eq_some.mpr rfl]

theorem standardDecode_oauth2PercentEncode (value : List Char) :
    standardDecode (String.ofList (oauth2PercentEncode value)) = String.ofList value := by
  rw [standardDecode, axumPath, unescape_oauth2PercentEncode hexPair_readsDigits,
    Text.fromUtf8_eq_some.mpr rfl]
  rfl

/-- An encoded value separates nothing. -/
theorem notMem_oauth2PercentEncode {char : Char} (separates : isIdChar char = false)
    (value : List Char) : char ∉ oauth2PercentEncode value := by
  intro member
  obtain ⟨byte, _, written⟩ := List.mem_flatMap.mp member
  obtain ⟨_, _, idChars, _⟩ := escapeByte_spec byte
  rw [List.all_eq_true.mp idChars char written] at separates
  cases separates

/-! ### Forms -/

/-- The fields of a form are read back as they were written. -/
theorem queryPairsWith_formEncode {decode : String → String}
    (decodes : ∀ value, decode (String.ofList (oauth2PercentEncode value)) = String.ofList value)
    (fields : List (List Char × List Char)) :
    queryPairsWith decode (formEncode fields) =
      fields.map fun field => (String.ofList field.1, String.ofList field.2) := by
  cases fields with
  | nil => rfl
  | cons first rest =>
    have ampersand : "&".toList = ['&'] := rfl
    rw [queryPairsWith, formEncode, ampersand, List.splitOn_intercalate _ _ (by simp)]
    · rw [List.filterMap_map, ← List.filterMap_eq_map]
      refine List.filterMap_congr fun field _ => ?_
      have halves : Text.splitOnce '='
          (oauth2PercentEncode field.1 ++ '=' :: oauth2PercentEncode field.2) =
            some (oauth2PercentEncode field.1, oauth2PercentEncode field.2) :=
        Text.splitOnce_eq_some.mpr ⟨rfl, notMem_oauth2PercentEncode (by decide) field.1⟩
      rw [Function.comp_apply, halves, Option.map_some]
      exact congrArg some (Prod.ext (decodes field.1) (decodes field.2))
    · intro piece member
      obtain ⟨field, _, rfl⟩ := List.mem_map.mp member
      rw [List.mem_append, List.mem_cons, not_or, not_or]
      exact ⟨notMem_oauth2PercentEncode (by decide) field.1, by decide,
        notMem_oauth2PercentEncode (by decide) field.2⟩

/-- The fields of the authorization request. -/
def LoginService.authorizationFields (service : LoginService) (state codeChallenge : List Char)
    (requireLogin : Bool) : List (List Char × List Char) :=
  [ ("response_type".toList, "code".toList),
    ("client_id".toList, service.clientId.toList),
    ("redirect_uri".toList, service.redirectUri.toList),
    ("scope".toList, service.loginScopes.toList),
    ("state".toList, state),
    ("code_challenge".toList, codeChallenge),
    ("code_challenge_method".toList, "S256".toList) ] ++
  if requireLogin then
    [("prompt".toList, "login".toList), ("max_age".toList, "0".toList)]
  else []

/-- The query of the authorization request is the form of its fields. -/
theorem authorizationParams_eq (service : LoginService) (state codeChallenge : List Char)
    (requireLogin : Bool) :
    "&".toList.intercalate (service.authorizationParams state codeChallenge requireLogin) =
      formEncode (service.authorizationFields state codeChallenge requireLogin) := by
  have plain : ∀ text ∈ ["response_type", "code", "client_id", "redirect_uri", "scope", "state",
      "code_challenge", "code_challenge_method", "S256", "prompt", "login", "max_age", "0"],
      oauth2PercentEncode text.toList = text.toList := by decide +kernel
  rw [formEncode]
  congr 1
  cases requireLogin with
  | false =>
    simp only [LoginService.authorizationParams, LoginService.authorizationFields,
      Bool.false_eq_true, if_false, List.append_nil, List.map_cons, List.map_nil,
      plain "response_type" (by decide), plain "code" (by decide), plain "client_id" (by decide),
      plain "redirect_uri" (by decide), plain "scope" (by decide), plain "state" (by decide),
      plain "code_challenge" (by decide), plain "code_challenge_method" (by decide),
      plain "S256" (by decide)]
    rfl
  | true =>
    simp only [LoginService.authorizationParams, LoginService.authorizationFields, if_true,
      List.map_append, List.map_cons, List.map_nil,
      plain "response_type" (by decide), plain "code" (by decide), plain "client_id" (by decide),
      plain "redirect_uri" (by decide), plain "scope" (by decide), plain "state" (by decide),
      plain "code_challenge" (by decide), plain "code_challenge_method" (by decide),
      plain "S256" (by decide), plain "prompt" (by decide), plain "login" (by decide),
      plain "max_age" (by decide), plain "0" (by decide)]
    rfl

/-- Later parameters win. -/
theorem getElem?_foldl_insert (pairs : List (String × String)) (params : BTreeMap String String)
    (name : String) :
    (pairs.foldl (fun params pair => params.insert pair.1 pair.2) params)[name]? =
      ((pairs.filter (·.1 = name)).getLast?.map (·.2)).or params[name]? := by
  induction pairs generalizing params with
  | nil => rfl
  | cons pair pairs inductionHypothesis =>
    rw [List.foldl_cons, inductionHypothesis, BTreeMap.getElem?_insert]
    by_cases same : pair.1 = name
    · subst same
      rw [if_pos rfl, List.filter_cons_of_pos (by simp)]
      cases later : (pairs.filter (·.1 = pair.1)).getLast? with
      | none =>
        rw [List.getLast?_eq_none_iff] at later
        rw [later]
        rfl
      | some last =>
        rw [List.getLast?_cons, later]
        rfl
    · rw [if_neg same, List.filter_cons_of_neg (by simpa using same)]

/-- The registry's forms are read back field by field, by its own reader of queries and by the
standard one, whatever their values hold; of fields with one name the reader keeps the last. And
the authorization request of a login is such a form. -/
theorem forms_are_read_back (fields : List (List Char × List Char)) :
    queryPairsWith percentDecode (formEncode fields) =
        fields.map (fun field => (String.ofList field.1, String.ofList field.2)) ∧
      queryPairsWith standardDecode (formEncode fields) =
        fields.map (fun field => (String.ofList field.1, String.ofList field.2)) ∧
      (∀ name : String, (queryParams (some (formEncode fields)))[name]? =
        (fields.filter (·.1 = name.toList)).getLast?.map fun field => String.ofList field.2) ∧
      ∀ (service : LoginService) (state codeChallenge : List Char) (requireLogin : Bool),
        queryPairsWith standardDecode ("&".toList.intercalate
            (service.authorizationParams state codeChallenge requireLogin)) =
          (service.authorizationFields state codeChallenge requireLogin).map
            fun field => (String.ofList field.1, String.ofList field.2) := by
  have byServer := queryPairsWith_formEncode percentDecode_oauth2PercentEncode
  have byStandard := queryPairsWith_formEncode standardDecode_oauth2PercentEncode
  refine ⟨byServer fields, byStandard fields, fun name => ?_,
    fun service state challenge login => ?_⟩
  · rw [queryParams, byServer, getElem?_foldl_insert, BTreeMap.getElem?_empty, Option.or_none,
      List.filter_map, List.getLast?_map, Option.map_map]
    have sameFilter : ((fun pair : String × String => decide (pair.1 = name)) ∘
        fun field : List Char × List Char => (String.ofList field.1, String.ofList field.2)) =
          fun field => decide (field.1 = name.toList) := by
      funext field
      refine decide_eq_decide.mpr ⟨fun same => ?_, fun same => ?_⟩
      · rw [← same, String.toList_ofList]
      · exact (congrArg String.ofList same).trans String.ofList_toList
    rw [sameFilter]
    rfl
  · rw [authorizationParams_eq, byStandard]

end Layerhouse
