/-
This file is `from_document` of `auth/discovery.rs`, with `rewrite_base` and `extract_origin`: the
endpoints of an OIDC discovery document, where those that the server itself calls are moved from
the public address of the identity provider to the internal one.

An address is compared by its beginning, and the beginning of an origin need not be an origin: what
is behind it in the endpoint, more of the domain or of the port, is then put behind the internal
origin. An endpoint is rewritten as a whole origin exactly if its own origin does not go on behind
the public one, unless the public and the internal origin are the same.
-/

import Layerhouse.Error
import Layerhouse.Library.Slices
import Layerhouse.Oci.Manifest

namespace Layerhouse

open Slices

structure OidcDiscovery where
  authorizationEndpoint : String
  tokenEndpoint : String
  jwksUri : String
  endSessionEndpoint : Option String
deriving DecidableEq

/-! ### The rewriting of endpoints -/

def extractOrigin (url : String) : Except Panic String := do
  let afterScheme := ((find "://".toList url.toList).map (· + 3)).getD 0
  let behind ← sliced (sliceFrom afterScheme url.toList)
  let pathStart := ((find ['/'] behind).map (· + afterScheme)).getD (byteLength url.toList)
  let origin ← sliced (sliceTo pathStart url.toList)
  return String.ofList origin

def rewriteBase (url fromBase toBase : String) : Except Panic String := do
  let fromOrigin ← extractOrigin fromBase
  let toOrigin ← extractOrigin toBase
  match Text.stripPrefix fromOrigin.toList url.toList with
  | some rest => return toOrigin ++ String.ofList rest
  | none => return url

/-- `doc[field].as_str()`, and the error if there is none. -/
def requiredField (doc : Value) (field : String) : Except LayerhouseError String :=
  match (doc.get field).bind Value.asStr with
  | some text => .ok text
  | none => .error (.internal ("discovery missing " ++ field))

def OidcDiscovery.fromDocument (doc : Value) (issuerUrl publicBase : String) :
    Except Panic (Except LayerhouseError OidcDiscovery) :=
  match requiredField doc "authorization_endpoint" with
  | .error missing => .ok (.error missing)
  | .ok authorizationEndpoint =>
    match requiredField doc "token_endpoint" with
    | .error missing => .ok (.error missing)
    | .ok publicTokenEndpoint => do
      let tokenEndpoint ← rewriteBase publicTokenEndpoint publicBase issuerUrl
      match requiredField doc "jwks_uri" with
      | .error missing => return .error missing
      | .ok publicJwksUri => do
        let jwksUri ← rewriteBase publicJwksUri publicBase issuerUrl
        return .ok
          { authorizationEndpoint
            tokenEndpoint
            jwksUri
            endSessionEndpoint := (doc.get "end_session_endpoint").bind Value.asStr }

/-- Every offset an address is cut at is one that a search has found. -/
theorem extractOrigin_ok (url : String) : ∃ origin, extractOrigin url = .ok origin := by
  obtain ⟨before, behind, split, scheme⟩ : ∃ before behind, url.toList = before ++ behind ∧
      ((find "://".toList url.toList).map (· + 3)).getD 0 = byteLength before := by
    cases found : find "://".toList url.toList with
    | none => exact ⟨[], url.toList, rfl, rfl⟩
    | some offset =>
      obtain ⟨before, after, split, length, _⟩ := find_eq_some.mp found
      refine ⟨before ++ "://".toList, after, split, ?_⟩
      rw [byteLength_append, length]
      rfl
  obtain ⟨origin, path, splitOrigin, stop⟩ : ∃ origin path, url.toList = origin ++ path ∧
      ((find ['/'] behind).map (· + byteLength before)).getD (byteLength url.toList) =
        byteLength origin := by
    cases found : find ['/'] behind with
    | none => exact ⟨url.toList, [], (List.append_nil _).symm, rfl⟩
    | some offset =>
      obtain ⟨authority, path, splitBehind, length, _⟩ := find_eq_some.mp found
      refine ⟨before ++ authority, ['/'] ++ path, ?_, ?_⟩
      · rw [split, splitBehind, List.append_assoc, List.append_assoc]
      · rw [byteLength_append, length, Option.map_some, Option.getD_some, Nat.add_comm]
  have cutScheme : sliceFrom (byteLength before) url.toList = some behind := by
    rw [split, sliceFrom_append]
  have cutOrigin : sliceTo (byteLength origin) url.toList = some origin := by
    rw [splitOrigin, sliceTo_append]
  refine ⟨String.ofList origin, ?_⟩
  rw [extractOrigin]
  simp only [scheme, cutScheme]
  change (sliced (sliceTo _ _) >>= fun origin => _) = _
  rw [stop, cutOrigin]
  rfl

theorem rewriteBase_ok (url fromBase toBase : String) :
    ∃ rewritten, rewriteBase url fromBase toBase = .ok rewritten := by
  obtain ⟨fromOrigin, fromExtracted⟩ := extractOrigin_ok fromBase
  obtain ⟨toOrigin, toExtracted⟩ := extractOrigin_ok toBase
  rw [rewriteBase, fromExtracted, toExtracted]
  cases stripped : Text.stripPrefix fromOrigin.toList url.toList with
  | none => exact ⟨url, by simp only [bind, Except.bind, stripped]; rfl⟩
  | some rest =>
    exact ⟨toOrigin ++ String.ofList rest, by simp only [bind, Except.bind, stripped]; rfl⟩

/-! ### Addresses -/

/-- `scheme://authority`, followed by nothing or by a path that starts with a slash. -/
structure EndpointUrl where
  scheme : List Char
  authority : List Char
  path : List Char
  scheme_colon : ':' ∉ scheme
  authority_slash : '/' ∉ authority
  rooted : path = [] ∨ ∃ segments, path = '/' :: segments

namespace EndpointUrl

def origin (url : EndpointUrl) : List Char :=
  url.scheme ++ "://".toList ++ url.authority

def text (url : EndpointUrl) : String :=
  String.ofList (url.origin ++ url.path)

/-- The address with its whole origin replaced if it is that of the source. -/
def rewritten (url source target : EndpointUrl) : String :=
  if url.origin = source.origin then String.ofList (target.origin ++ url.path) else url.text

/-- The origin of the address goes on where that of the source ends. -/
def Extends (url source : EndpointUrl) : Prop :=
  source.origin <+: url.origin ∧ source.origin ≠ url.origin

instance (url source : EndpointUrl) : Decidable (url.Extends source) :=
  inferInstanceAs (Decidable (_ ∧ _))

theorem toList_text (url : EndpointUrl) : url.text.toList = url.origin ++ url.path :=
  String.toList_ofList

theorem find_scheme (url : EndpointUrl) :
    find "://".toList url.text.toList = some (byteLength url.scheme) := by
  rw [toList_text, origin, List.append_assoc]
  exact find_of_head_notMem url.scheme_colon

theorem behind_scheme (url : EndpointUrl) :
    sliceFrom (byteLength url.scheme + 3) url.text.toList = some (url.authority ++ url.path) := by
  have cut := sliceFrom_append (url.scheme ++ "://".toList) (url.authority ++ url.path)
  rw [byteLength_append] at cut
  rw [toList_text, origin, List.append_assoc]
  exact cut

/-- The origin that is extracted from an address is its scheme and its whole authority. -/
theorem extractOrigin_text (url : EndpointUrl) :
    extractOrigin url.text = .ok (String.ofList url.origin) := by
  have length_origin : byteLength url.authority + (byteLength url.scheme + 3) =
      byteLength url.origin := by
    rw [origin, byteLength_append, byteLength_append, Nat.add_comm]
    rfl
  have stop : ((find ['/'] (url.authority ++ url.path)).map
      (· + (byteLength url.scheme + 3))).getD (byteLength url.text.toList) =
        byteLength url.origin := by
    rcases url.rooted with bare | ⟨segments, rooted⟩
    · rw [bare, List.append_nil, find_char_eq_none.mpr url.authority_slash, toList_text, bare,
        List.append_nil]
      rfl
    · rw [rooted, find_char url.authority_slash]
      exact length_origin
  rw [extractOrigin, find_scheme]
  simp only [Option.map_some, Option.getD_some, behind_scheme]
  change (sliced (sliceTo _ _) >>= fun origin => _) = _
  rw [stop, toList_text, sliceTo_append]
  rfl

theorem authority_of_origin {url source : EndpointUrl} {tail : List Char}
    (longer : url.origin ++ tail = source.origin) : url.authority ++ tail = source.authority := by
  have first (address : EndpointUrl) (rest : List Char) :
      Text.splitOnce ':' (address.origin ++ rest) =
        some (address.scheme, "//".toList ++ (address.authority ++ rest)) := by
    refine Text.splitOnce_eq_some.mpr ⟨?_, address.scheme_colon⟩
    rw [origin, List.append_assoc, List.append_assoc]
    rfl
  have halves := (first url tail).symm.trans ((congrArg _ longer).trans
    ((congrArg _ (List.append_nil _).symm).trans (first source [])))
  rw [Option.some.injEq, Prod.mk.injEq, List.append_right_inj, List.append_nil] at halves
  exact halves.2

/-- The text of an address determines its authority. -/
theorem authority_of_text {url other : EndpointUrl} (same : url.text = other.text) :
    url.authority = other.authority := by
  have origins := (extractOrigin_text url).symm.trans
    ((congrArg extractOrigin same).trans (extractOrigin_text other))
  rw [Except.ok.injEq, String.ofList_inj, ← List.append_nil url.origin] at origins
  rw [← authority_of_origin origins, List.append_nil]

/-- An origin that an address starts with is one that its origin starts with. -/
theorem origin_prefix_iff (url source : EndpointUrl) :
    source.origin <+: url.origin ++ url.path ↔ source.origin <+: url.origin := by
  refine ⟨fun starts => ?_, fun starts => starts.trans (List.prefix_append _ _)⟩
  rcases List.prefix_or_prefix_of_prefix starts (List.prefix_append url.origin url.path) with
    within | ⟨tail, longer⟩
  · exact within
  · have onPath : tail <+: url.path := by
      rw [← longer] at starts
      exact (List.prefix_append_right_inj _).mp starts
    cases tail with
    | nil =>
      rw [← longer, List.append_nil]
    | cons first tail =>
      obtain ⟨rest, split⟩ := onPath
      rcases url.rooted with bare | ⟨segments, rooted⟩
      · rw [bare] at split
        cases split
      · rw [rooted] at split
        have slash : first = '/' := (List.cons.inj split).1
        refine absurd ?_ source.authority_slash
        rw [← authority_of_origin longer, slash]
        exact List.mem_append_right _ List.mem_cons_self

theorem rewriteBase_text (url source target : EndpointUrl) :
    rewriteBase url.text source.text target.text = .ok (String.ofList
      (match Text.stripPrefix source.origin (url.origin ++ url.path) with
      | some rest => target.origin ++ rest
      | none => url.origin ++ url.path)) := by
  rw [rewriteBase, extractOrigin_text, extractOrigin_text]
  change (match Text.stripPrefix (String.ofList source.origin).toList url.text.toList with
    | some rest => Except.ok (String.ofList target.origin ++ String.ofList rest)
    | none => Except.ok url.text : Except Panic String) = _
  rw [String.toList_ofList, toList_text]
  cases Text.stripPrefix source.origin (url.origin ++ url.path) with
  | none => rfl
  | some rest => exact congrArg Except.ok String.ofList_append.symm

/-- An address is rewritten as its whole origin asks for exactly if that origin does not go on
behind the one of the source, or nothing is to be replaced. -/
theorem rewriteBase_eq_rewritten_iff (url source target : EndpointUrl) :
    rewriteBase url.text source.text target.text = .ok (url.rewritten source target) ↔
      (url.Extends source → target.origin = source.origin) := by
  rw [rewriteBase_text, Except.ok.injEq, rewritten]
  by_cases whole : url.origin = source.origin
  · have stripped := Text.stripPrefix_eq_some.mpr (Eq.refl (source.origin ++ url.path))
    rw [if_pos whole, whole, stripped]
    exact ⟨fun _ extended => absurd whole.symm extended.2, fun _ => rfl⟩
  · rw [if_neg whole, text, String.ofList_inj]
    cases stripped : Text.stripPrefix source.origin (url.origin ++ url.path) with
    | none =>
      refine ⟨fun _ extended => ?_, fun _ => rfl⟩
      obtain ⟨rest, split⟩ := (origin_prefix_iff url source).mpr extended.1
      rw [Text.stripPrefix_eq_some.mpr split.symm] at stripped
      cases stripped
    | some rest =>
      have split := Text.stripPrefix_eq_some.mp stripped
      have extended : url.Extends source :=
        ⟨(origin_prefix_iff url source).mp ⟨rest, split.symm⟩, Ne.symm whole⟩
      rw [split]
      change target.origin ++ rest = source.origin ++ rest ↔ _
      rw [List.append_left_inj]
      exact ⟨fun same _ => same, fun same => same extended⟩

end EndpointUrl

/-! ### The endpoints of a document -/

/-- The endpoint is an address with one of these authorities. -/
def HasAuthorityIn (endpoint : String) (authorities : List (List Char)) : Prop :=
  ∃ url : EndpointUrl, url.text = endpoint ∧ url.authority ∈ authorities

theorem EndpointUrl.hasAuthorityIn_rewritten (url source target : EndpointUrl) :
    HasAuthorityIn (url.rewritten source target) [url.authority, target.authority] := by
  rw [rewritten]
  split_ifs
  · exact ⟨{ target with path := url.path, rooted := url.rooted }, rfl, by simp⟩
  · exact ⟨url, rfl, by simp⟩

/-- A discovery document whose endpoints for the server are addresses. -/
structure EndpointDocument where
  doc : Value
  authorization : String
  token : EndpointUrl
  jwks : EndpointUrl
  authorization_found : requiredField doc "authorization_endpoint" = .ok authorization
  token_found : requiredField doc "token_endpoint" = .ok token.text
  jwks_found : requiredField doc "jwks_uri" = .ok jwks.text

namespace EndpointDocument

/-- The token endpoint and the address of the keys have their whole origin kept or replaced, and
so an authority that the document or the configuration names. -/
def KeepsOrigins (document : EndpointDocument) (issuer publicBase : EndpointUrl) : Prop :=
  ∃ discovery, OidcDiscovery.fromDocument document.doc issuer.text publicBase.text =
      .ok (.ok discovery) ∧
    discovery.tokenEndpoint = document.token.rewritten publicBase issuer ∧
    discovery.jwksUri = document.jwks.rewritten publicBase issuer ∧
    HasAuthorityIn discovery.tokenEndpoint [document.token.authority, issuer.authority] ∧
    HasAuthorityIn discovery.jwksUri [document.jwks.authority, issuer.authority]

theorem fromDocument_eq (document : EndpointDocument) (issuer publicBase : EndpointUrl) :
    ∃ discovery, OidcDiscovery.fromDocument document.doc issuer.text publicBase.text =
        .ok (.ok discovery) ∧
      rewriteBase document.token.text publicBase.text issuer.text =
        .ok discovery.tokenEndpoint ∧
      rewriteBase document.jwks.text publicBase.text issuer.text = .ok discovery.jwksUri := by
  obtain ⟨tokenEndpoint, token⟩ :=
    rewriteBase_ok document.token.text publicBase.text issuer.text
  obtain ⟨jwksUri, jwks⟩ := rewriteBase_ok document.jwks.text publicBase.text issuer.text
  rw [OidcDiscovery.fromDocument, document.authorization_found, document.token_found,
    document.jwks_found]
  simp only [token, jwks]
  exact ⟨_, rfl, rfl, rfl⟩

theorem keepsOrigins_iff (document : EndpointDocument) (issuer publicBase : EndpointUrl) :
    document.KeepsOrigins issuer publicBase ↔
      ∀ endpoint ∈ [document.token, document.jwks],
        endpoint.Extends publicBase → issuer.origin = publicBase.origin := by
  obtain ⟨discovery, found, token, jwks⟩ := document.fromDocument_eq issuer publicBase
  have tokenRewritten :=
    document.token.rewriteBase_eq_rewritten_iff publicBase issuer
  have jwksRewritten :=
    document.jwks.rewriteBase_eq_rewritten_iff publicBase issuer
  rw [token, Except.ok.injEq] at tokenRewritten
  rw [jwks, Except.ok.injEq] at jwksRewritten
  rw [List.forall_mem_cons, List.forall_mem_singleton, ← tokenRewritten, ← jwksRewritten]
  constructor
  · rintro ⟨other, foundOther, tokenKept, jwksKept, _⟩
    obtain rfl : discovery = other := by
      rw [found, Except.ok.injEq, Except.ok.injEq] at foundOther
      exact foundOther
    exact ⟨tokenKept, jwksKept⟩
  · rintro ⟨tokenKept, jwksKept⟩
    refine ⟨discovery, found, tokenKept, jwksKept, ?_, ?_⟩
    · rw [tokenKept]
      exact document.token.hasAuthorityIn_rewritten publicBase issuer
    · rw [jwksKept]
      exact document.jwks.hasAuthorityIn_rewritten publicBase issuer

end EndpointDocument

/-- Whole origins are kept or replaced exactly where the origin of the endpoint does not go on
behind the public one, or the public and the internal origin are the same. -/
theorem whole_origins_iff (publicBase issuer : EndpointUrl) :
    (∀ url : EndpointUrl,
      rewriteBase url.text publicBase.text issuer.text = .ok (url.rewritten publicBase issuer) ↔
        (url.Extends publicBase → issuer.origin = publicBase.origin)) ∧
    ∀ document : EndpointDocument,
      document.KeepsOrigins issuer publicBase ↔ ∀ endpoint ∈ [document.token, document.jwks],
        endpoint.Extends publicBase → issuer.origin = publicBase.origin :=
  ⟨fun url => url.rewriteBase_eq_rewritten_iff publicBase issuer,
    fun document => document.keepsOrigins_iff issuer publicBase⟩

/-- The rest of a longer domain is put behind the internal one, which makes an authority that
nobody has named. -/
theorem longer_domain_is_split : ∃ url source target : EndpointUrl,
    url.text = "https://id.example.org/token" ∧ source.text = "https://id.example/app" ∧
      target.text = "https://idp.internal/app" ∧
      rewriteBase url.text source.text target.text = .ok "https://idp.internal.org/token" ∧
      url.rewritten source target = url.text ∧
      ¬ HasAuthorityIn "https://idp.internal.org/token"
        [url.authority, source.authority, target.authority] := by
  refine ⟨⟨"https".toList, "id.example.org".toList, "/token".toList, by decide, by decide,
      Or.inr ⟨_, rfl⟩⟩,
    ⟨"https".toList, "id.example".toList, "/app".toList, by decide, by decide, Or.inr ⟨_, rfl⟩⟩,
    ⟨"https".toList, "idp.internal".toList, "/app".toList, by decide, by decide, Or.inr ⟨_, rfl⟩⟩,
    by decide, by decide, by decide, by decide, by decide, ?_⟩
  rintro ⟨url, same, member⟩
  have authority : url.authority = "idp.internal.org".toList :=
    @EndpointUrl.authority_of_text url ⟨"https".toList, "idp.internal.org".toList,
      "/token".toList, by decide, by decide, Or.inr ⟨_, rfl⟩⟩ (same.trans (by decide))
  rw [authority] at member
  revert member
  decide

end Layerhouse
