/-
This file is about nodes that are configured with different lists of signing keys: what
`validate_auth_config` of `config.rs` checks of the keys, and which of them `AuthService::new` of
`auth/mod.rs` takes. The other fields of the configuration, the material of the identity provider
and the libraries are what the caller has.

A comment says that the first key signs and all verify; the service keeps one key for both. So
a bearer of one node is accepted by another exactly if their first keys decode to the same bytes,
whatever other keys they have, and if its subject is the name of a principal.
-/

import Layerhouse.Auth.PrincipalIds
import Layerhouse.Auth.TokenChains

namespace Layerhouse

/-! ### The configuration -/

structure AuthConfig where
  providerName : String
  tokenSigningKeys : List String
  sessionEncryptionKey : String

/-- The functions of other packages: base64, JWT with a secret, SHA-256 and UUIDs. -/
structure TokenLibraries where
  base64Decode : String → Except String (List UInt8)
  encode : List UInt8 → TokenClaims → Except String String
  decode : List UInt8 → Nat → String → Option TokenClaims
  decodeHeader : String → Option (Option String)
  leeway : Nat
  sha256Hex : List UInt8 → String
  isUuid : String → Bool

/-- The verification of provider tokens with the keys that were fetched or cached. -/
abbrev ProviderKeys := Nat → String → String → Except LayerhouseError (TokenClaims × List String)

/-- The loop over the signing keys from an index on. -/
def validateSigningKeys (libraries : TokenLibraries) : Nat → List String → Except String Unit
  | _, [] => .ok ()
  | index, key :: rest =>
    match libraries.base64Decode key with
    | .error error =>
      .error ("auth.token_signing_keys[" ++ toString index ++ "] is not base64: " ++ error)
    | .ok _ => validateSigningKeys libraries (index + 1) rest

/-- What `validate_auth_config` checks of the fields that the bearers depend on. -/
def validateAuthConfig (libraries : TokenLibraries) (config : AuthConfig) : Except String Unit :=
  if config.tokenSigningKeys = [] then
    .error "auth.token_signing_keys must contain at least one base64-encoded key"
  else
    match validateSigningKeys libraries 0 config.tokenSigningKeys with
    | .error error => .error error
    | .ok () =>
      match libraries.base64Decode config.sessionEncryptionKey with
      | .error error => .error ("auth.session_encryption_key is not base64: " ++ error)
      | .ok sessionKey =>
        if sessionKey.length ≠ 32 then
          .error ("auth.session_encryption_key must decode to 32 bytes, got " ++
            toString sessionKey.length)
        else
          match ProviderId.new config.providerName with
          | .error error => .error ("auth.provider_name is invalid: " ++ error.display)
          | .ok _ => .ok ()

namespace TokenService

/-- `AuthService::new`, with the outcome of fetching or loading the provider's material. -/
def new (libraries : TokenLibraries) (auth : AuthService) (config : AuthConfig)
    (material : Except LayerhouseError ProviderKeys) : Except LayerhouseError TokenService :=
  match config.tokenSigningKeys.head? with
  | none => .error (.internal "at least one token signing key is required")
  | some firstSigningKey =>
    match libraries.base64Decode firstSigningKey with
    | .error error => .error (.internal ("invalid token signing key: " ++ error))
    | .ok signingKeyBytes =>
      match libraries.base64Decode config.sessionEncryptionKey with
      | .error error => .error (.internal ("invalid session encryption key: " ++ error))
      | .ok sessionKeyBytes =>
        if sessionKeyBytes.length ≠ 32 then
          .error (.internal "session encryption key must be 32 bytes")
        else
          match material with
          | .error error => .error error
          | .ok providerKeys =>
            .ok
              { auth := auth
                jwt :=
                  { encode := libraries.encode signingKeyBytes
                    decode := libraries.decode signingKeyBytes
                    decodeHeader := libraries.decodeHeader
                    decodeWithKey := providerKeys
                    leeway := libraries.leeway }
                providerName := String.ofList (Text.trim config.providerName.toList)
                sha256Hex := libraries.sha256Hex
                isUuid := libraries.isUuid }

end TokenService

/-! ### Bearers of other nodes -/

/-- What the service relies on: a token decodes with the key it was signed with, to its claims and
until its expiry and the leeway have passed, and with no other key. -/
structure TokenLibraries.Lawful (libraries : TokenLibraries) : Prop where
  decode_encode : ∀ {key : List UInt8} {claims : TokenClaims} {token : String},
    libraries.encode key claims = .ok token → claims.aud = none → ∀ now,
      libraries.decode key now token =
        if now ≤ claims.exp + libraries.leeway then some claims else none
  decode_other : ∀ {key other : List UInt8} {claims : TokenClaims} {token : String},
    libraries.encode key claims = .ok token → other ≠ key → ∀ now,
      libraries.decode other now token = none

/-- A node that runs with a valid configuration. -/
structure ConfiguredNode (libraries : TokenLibraries) where
  config : AuthConfig
  auth : AuthService
  material : Except LayerhouseError ProviderKeys
  service : TokenService
  valid : validateAuthConfig libraries config = .ok ()
  built : TokenService.new libraries auth config material = .ok service

/-- The bearer is accepted with the subject, the groups and the epochs it was minted with, and if
it was minted with a text of scopes, with the scopes between the spaces of that text. -/
def AcceptedAsMinted (service : TokenService) (later : Nat) (token : String)
    (identity : AuthIdentity) (scopes : String) (namespaceEpochs : List NamespaceEpoch) : Prop :=
  ∃ bearer, service.validateOciToken later token = .ok bearer ∧
    bearer.subject = identity.subject ∧ bearer.groups = identity.groups ∧
    bearer.namespaceEpochs = namespaceEpochs ∧
    (scopes ≠ "" → " ".intercalate bearer.scopes = scopes ∧
      ∀ scope ∈ bearer.scopes, ' ' ∉ scope.toList)

/-- A service that was built signs and verifies with its first key. -/
theorem TokenService.new_eq_ok {libraries : TokenLibraries} {auth : AuthService}
    {config : AuthConfig} {material : Except LayerhouseError ProviderKeys}
    {service : TokenService}
    (built : TokenService.new libraries auth config material = .ok service) :
    ∃ key bytes, config.tokenSigningKeys.head? = some key ∧
      libraries.base64Decode key = .ok bytes ∧ service.jwt.encode = libraries.encode bytes ∧
      service.jwt.decode = libraries.decode bytes ∧
      service.providerName = String.ofList (Text.trim config.providerName.toList) := by
  rw [TokenService.new] at built
  split at built
  · cases built
  · rename_i key first
    split at built
    · cases built
    · rename_i bytes decoded
      split at built
      · cases built
      · split at built
        · cases built
        · split at built
          · cases built
          · cases built
            exact ⟨key, bytes, first, decoded, rfl, rfl, rfl⟩

theorem providerName_of_valid {libraries : TokenLibraries} {config : AuthConfig}
    (valid : validateAuthConfig libraries config = .ok ()) :
    ∃ name, ProviderId.new config.providerName = .ok name := by
  rw [validateAuthConfig] at valid
  split at valid
  · cases valid
  · split at valid
    · cases valid
    · split at valid
      · cases valid
      · split at valid
        · cases valid
        · split at valid
          · cases valid
          · rename_i name accepted
            exact ⟨name, accepted⟩

namespace ConfiguredNode

variable {libraries : TokenLibraries} (node : ConfiguredNode libraries)

/-- A valid configuration leaves out no name of a principal but the empty one. -/
theorem userPrincipal_iff (subject : String) :
    (∃ principal, node.service.userPrincipal subject = .ok principal) ↔ subject ≠ "" := by
  obtain ⟨name, accepted⟩ := providerName_of_valid node.valid
  obtain ⟨_, _, _, _, _, _, named⟩ := TokenService.new_eq_ok node.built
  have same : ProviderId.new node.service.providerName = .ok name := by
    rw [ProviderId.new_eq_ok] at accepted ⊢
    rwa [named, String.toList_ofList, Text.trim_trim]
  rw [TokenService.userPrincipal]
  constructor
  · rintro ⟨principal, made⟩
    obtain ⟨_, _, present, _⟩ := ProviderQualifiedId.new_eq_ok.mp made
    exact present
  · intro present
    exact ⟨_, ProviderQualifiedId.new_eq_ok.mpr ⟨name, same, present, rfl⟩⟩

end ConfiguredNode

theorem intercalate_split_scopes (scopes : String) :
    " ".intercalate ((scopes.toList.splitOn ' ').map String.ofList) = scopes := by
  have space : " ".toList = [' '] := rfl
  rw [← String.toList_inj, String.toList_intercalate, List.map_map, space]
  have same : (scopes.toList.splitOn ' ').map (String.toList ∘ String.ofList) =
      scopes.toList.splitOn ' ' := by
    simp [Function.comp_def]
  rw [same, List.intercalate_splitOn]

theorem space_notMem_split {scopes scope : String}
    (member : scope ∈ (scopes.toList.splitOn ' ').map String.ofList) : ' ' ∉ scope.toList := by
  obtain ⟨piece, inSplit, rfl⟩ := List.mem_map.mp member
  rw [List.splitOn_eq_splitOnP] at inSplit
  rw [String.toList_ofList]
  intro inPiece
  exact absurd (Text.not_separator_of_mem_splitOnP inSplit inPiece) (by decide)

/-- A bearer that decodes to its claims is accepted as it was minted, if its subject has a
principal. -/
theorem acceptedAsMinted_iff {service : TokenService} {later now : Nat} {token : String}
    {identity : AuthIdentity} {scopes : String} {namespaceEpochs : List NamespaceEpoch}
    (decoded : service.jwt.decode later token =
      some (TokenService.bearerClaims now identity scopes namespaceEpochs)) :
    AcceptedAsMinted service later token identity scopes namespaceEpochs ↔
      ∃ principal, service.userPrincipal identity.subject = .ok principal := by
  rw [AcceptedAsMinted, TokenService.validateOciToken, decoded]
  constructor
  · rintro ⟨bearer, accepted, same, _⟩
    exact ⟨bearer.principal, same ▸ TokenService.userPrincipal_of_identityOfClaims accepted⟩
  · rintro ⟨principal, named⟩
    simp only [TokenService.identityOfClaims, TokenService.bearerClaims, named]
    refine ⟨_, rfl, rfl, rfl, rfl, fun _ => ⟨?_, fun scope => space_notMem_split⟩⟩
    exact intercalate_split_scopes scopes

/-- A token that does not decode is not accepted. -/
theorem not_acceptedAsMinted {service : TokenService} {later : Nat} {token : String}
    {identity : AuthIdentity} {scopes : String} {namespaceEpochs : List NamespaceEpoch}
    (foreign : service.jwt.decode later token = none) :
    ¬ AcceptedAsMinted service later token identity scopes namespaceEpochs := by
  rintro ⟨bearer, accepted, _⟩
  rw [TokenService.validateOciToken, foreign] at accepted
  cases accepted

/-- The outcome of decoding the key that the node of a configuration signs and verifies with. -/
def signingKey (libraries : TokenLibraries) (config : AuthConfig) :
    Option (Except String (List UInt8)) :=
  config.tokenSigningKeys.head?.map libraries.base64Decode

/-- A bearer of one node is accepted by another as it was minted, at any time before its expiry,
exactly if their first keys are the same and the subject has a name. The other keys of the second
node do not matter, even if the key that signed the bearer is among them. -/
theorem rotated_keys_accept_iff {libraries : TokenLibraries} (lawful : libraries.Lawful)
    (minting validating : ConfiguredNode libraries) (key : String)
    (first : minting.config.tokenSigningKeys.head? = some key)
    (identity : AuthIdentity) (scopes : String) (namespaceEpochs : List NamespaceEpoch) (now : Nat)
    (token : String)
    (minted : minting.service.mintOciToken now identity scopes namespaceEpochs = .ok token)
    (later : Nat) (unexpired : later < now + 3600) :
    AcceptedAsMinted validating.service later token identity scopes namespaceEpochs ↔
      signingKey libraries validating.config = some (libraries.base64Decode key) ∧
        identity.subject ≠ "" := by
  obtain ⟨_, bytes, isFirst, decodes, signs, _⟩ := TokenService.new_eq_ok minting.built
  obtain ⟨other, otherBytes, otherFirst, otherDecodes, _, verifies, _⟩ :=
    TokenService.new_eq_ok validating.built
  cases first.symm.trans isFirst
  have encoded := TokenService.mintOciToken_claims minted
  rw [signs] at encoded
  have condition : signingKey libraries validating.config = some (libraries.base64Decode key) ↔
      otherBytes = bytes := by
    rw [signingKey, otherFirst, Option.map_some, decodes, otherDecodes, Option.some.injEq,
      Except.ok.injEq]
  rw [condition, ← validating.userPrincipal_iff]
  by_cases same : otherBytes = bytes
  · have alive : later ≤ (TokenService.bearerClaims now identity scopes namespaceEpochs).exp +
        libraries.leeway := unexpired.le.trans (Nat.le_add_right _ _)
    have decoded : validating.service.jwt.decode later token =
        some (TokenService.bearerClaims now identity scopes namespaceEpochs) := by
      rw [verifies, same, lawful.decode_encode encoded rfl, if_pos alive]
    rw [acceptedAsMinted_iff decoded, and_iff_right same]
  · have foreign : validating.service.jwt.decode later token = none := by
      rw [verifies, lawful.decode_other encoded same]
    exact iff_of_false (not_acceptedAsMinted foreign) fun known => same known.1

/-! ### A rotation -/

/-- An identity of a provider for the subject `alice`. -/
def rotationIdentity : AuthIdentity where
  subject := "alice"
  principal := ⟨"oidc:user:alice"⟩
  username := some "alice"
  displayName := none
  email := none
  groups := ["devs"]
  groupIds := []
  scopes := []
  namespaceEpochs := []
  tokenType := .oidcAccess

def rotationScopes : String :=
  "repository:app/web:pull repository:app/web:push"

/-- The key `signing`. -/
def rotationKey : List UInt8 :=
  [0x73, 0x69, 0x67, 0x6e, 0x69, 0x6e, 0x67]

def rotationClaims : TokenClaims :=
  TokenService.bearerClaims 900 rotationIdentity rotationScopes [⟨"app", 1⟩]

/-- The claims above, signed with the key. -/
def rotationToken : String :=
  "eyJ0eXAiOiJKV1QiLCJhbGciOiJIUzI1NiJ9.eyJzdWIiOiJhbGljZSIsImV4cCI6NDUwMCwiYXVkIjp" ++
    "udWxsLCJncm91cHMiOlsiZGV2cyJdLCJuYW1lIjpudWxsLCJwcmVmZXJyZWRfdXNlcm5hbWUiOiJhbGl" ++
    "jZSIsImVtYWlsIjpudWxsLCJzY29wZSI6InJlcG9zaXRvcnk6YXBwL3dlYjpwdWxsIHJlcG9zaXRvcnk" ++
    "6YXBwL3dlYjpwdXNoIiwibmFtZXNwYWNlX2Vwb2NocyI6W3siaGFuZGxlIjoiYXBwIiwiZ2VuZXJhdGl" ++
    "vbiI6MX1dLCJ0b2tlbl90eXBlIjoib2NpX2JlYXJlciIsImlhdCI6OTAwLCJpc3MiOiJsYXllcmhvdXN" ++
    "lIn0.YWE5zBkSEMeqeTYmsCqEU796B014vd5SQOE3D3eXD9s"

/-- The libraries on one token and the keys `signing`, `rotated` and thirty-two zeros. -/
def rotationLibraries : TokenLibraries where
  base64Decode := fun text =>
    if text = "c2lnbmluZw==" then .ok rotationKey
    else if text = "cm90YXRlZA==" then .ok [0x72, 0x6f, 0x74, 0x61, 0x74, 0x65, 0x64]
    else if text = "AAAAAAAAAAAAAAAAAAAAAAAAAAAAAAAAAAAAAAAAAAA=" then .ok (List.replicate 32 0)
    else .error "Invalid padding"
  encode := fun key claims =>
    if key = rotationKey ∧ claims = rotationClaims then .ok rotationToken
    else .error "not a sample"
  decode := fun key now token =>
    if key = rotationKey ∧ token = rotationToken ∧ now ≤ 4560 then some rotationClaims else none
  decodeHeader := fun token => if token = rotationToken then some none else none
  leeway := 60
  sha256Hex := fun _ => ""
  isUuid := fun _ => false

theorem rotationLibraries_encode {key : List UInt8} {claims : TokenClaims} {token : String}
    (encoded : rotationLibraries.encode key claims = .ok token) :
    key = rotationKey ∧ claims = rotationClaims ∧ token = rotationToken := by
  simp only [rotationLibraries] at encoded
  split at encoded
  · rename_i known
    cases encoded
    exact ⟨known.1, known.2, rfl⟩
  · cases encoded

theorem rotationLibraries_lawful : rotationLibraries.Lawful where
  decode_encode {key claims token} encoded audienceless now := by
    obtain ⟨rfl, rfl, rfl⟩ := rotationLibraries_encode encoded
    have limit : rotationClaims.exp + rotationLibraries.leeway = 4560 := rfl
    rw [limit]
    simp only [rotationLibraries, true_and]
  decode_other {key other claims token} encoded different now := by
    obtain ⟨rfl, rfl, rfl⟩ := rotationLibraries_encode encoded
    simp only [rotationLibraries, different, false_and, if_false]

def rotationConfig (keys : List String) : AuthConfig where
  providerName := "oidc"
  tokenSigningKeys := keys
  sessionEncryptionKey := "AAAAAAAAAAAAAAAAAAAAAAAAAAAAAAAAAAAAAAAAAAA="

/-- The service with a key as its first one. -/
def rotationService (key : List UInt8) : TokenService where
  auth := sampleService.auth
  jwt :=
    { encode := rotationLibraries.encode key
      decode := rotationLibraries.decode key
      decodeHeader := rotationLibraries.decodeHeader
      decodeWithKey := sampleJwt.decodeWithKey
      leeway := rotationLibraries.leeway }
  providerName := "oidc"
  sha256Hex := rotationLibraries.sha256Hex
  isUuid := rotationLibraries.isUuid

/-- A node before the rotation. -/
def unrotatedNode : ConfiguredNode rotationLibraries where
  config := rotationConfig ["c2lnbmluZw=="]
  auth := sampleService.auth
  material := .ok sampleJwt.decodeWithKey
  service := rotationService rotationKey
  valid := by rfl
  built := by rfl

/-- A node that has a new key behind the one it signs with. -/
def extendedNode : ConfiguredNode rotationLibraries where
  config := rotationConfig ["c2lnbmluZw==", "cm90YXRlZA=="]
  auth := sampleService.auth
  material := .ok sampleJwt.decodeWithKey
  service := rotationService rotationKey
  valid := by rfl
  built := by rfl

/-- A node that signs with a new key and keeps the old one behind it. -/
def rotatedNode : ConfiguredNode rotationLibraries where
  config := rotationConfig ["cm90YXRlZA==", "c2lnbmluZw=="]
  auth := sampleService.auth
  material := .ok sampleJwt.decodeWithKey
  service := rotationService [0x72, 0x6f, 0x74, 0x61, 0x74, 0x65, 0x64]
  valid := by rfl
  built := by rfl

theorem rotationToken_encoded :
    rotationLibraries.encode rotationKey rotationClaims = .ok rotationToken := by
  simp only [rotationLibraries, and_self, if_true]

theorem rotationToken_minted :
    unrotatedNode.service.mintOciToken 900 rotationIdentity rotationScopes [⟨"app", 1⟩] =
      .ok rotationToken := by
  have encoded : unrotatedNode.service.jwt.encode rotationClaims = .ok rotationToken :=
    rotationToken_encoded
  rw [rotationClaims, TokenService.bearerClaims] at encoded
  rw [TokenService.mintOciToken, encoded]

/-- A bearer is accepted by a node that has got another key behind the first one. -/
theorem rotated_keys_accept_sample :
    rotationLibraries.Lawful ∧
      AcceptedAsMinted extendedNode.service 4499 rotationToken rotationIdentity rotationScopes
        [⟨"app", 1⟩] := by
  refine ⟨rotationLibraries_lawful, ?_⟩
  exact (rotated_keys_accept_iff rotationLibraries_lawful unrotatedNode extendedNode
    "c2lnbmluZw==" rfl rotationIdentity rotationScopes [⟨"app", 1⟩] 900 rotationToken
    rotationToken_minted 4499 (by decide)).mpr ⟨rfl, by decide⟩

/-- A bearer that was signed with the old key is refused by a node that still has this key, but
behind a new one. -/
theorem rotated_key_does_not_verify :
    rotationLibraries.Lawful ∧ unrotatedNode.config.tokenSigningKeys.head? = some "c2lnbmluZw==" ∧
      "c2lnbmluZw==" ∈ rotatedNode.config.tokenSigningKeys ∧
      unrotatedNode.service.mintOciToken 900 rotationIdentity rotationScopes [⟨"app", 1⟩] =
        .ok rotationToken ∧
      ¬ AcceptedAsMinted rotatedNode.service 900 rotationToken rotationIdentity rotationScopes
        [⟨"app", 1⟩] := by
  refine ⟨rotationLibraries_lawful, rfl, by decide, rotationToken_minted, ?_⟩
  have foreign : rotationLibraries.decode [0x72, 0x6f, 0x74, 0x61, 0x74, 0x65, 0x64] 900
      rotationToken = none :=
    rotationLibraries_lawful.decode_other rotationToken_encoded (by decide) 900
  exact not_acceptedAsMinted foreign

end Layerhouse
