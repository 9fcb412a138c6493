/-
This file is the life of a credential: the personal access tokens, minted
bearers and provider tokens that `validate_token` of `auth/mod.rs` accepts, the
minting of bearers, and the token endpoint of `auth/token_endpoint.rs`. Times are
Unix seconds, and each function takes the reading of the clock it makes.

The JWT library, the keys it is used with, the provider's key set, SHA-256 and the
recognition of UUIDs are the fields of `TokenService`. The claims of a provider
token come with the groups found at the configured claim path; the other claims of
a token are not read by anything here.
-/

import Layerhouse.Auth.Authorization

namespace Layerhouse

inductive AudienceClaim where
  | one (audience : String)
  | many (audiences : List String)
deriving DecidableEq

structure TokenClaims where
  subject : String
  exp : Nat
  aud : Option AudienceClaim
  groups : Option (List String)
  name : Option String
  preferredUsername : Option String
  email : Option String
  scope : Option String
  namespaceEpochs : List NamespaceEpoch
  tokenType : Option String
  iat : Option Nat
  iss : Option String
deriving DecidableEq

namespace TokenClaims

def trimmed (value : Option String) : Option String :=
  (value.map fun text => String.ofList (Text.trim text.toList)).filter (· ≠ "")

def displayName (claims : TokenClaims) : Option String :=
  trimmed claims.name

def username (claims : TokenClaims) : Option String :=
  trimmed claims.preferredUsername

def trimmedEmail (claims : TokenClaims) : Option String :=
  trimmed claims.email

end TokenClaims

/-- The JWT functions, with the keys the service calls them with. -/
structure Jwt where
  /-- A token with the default header, signed with the service's key. -/
  encode : TokenClaims → Except String String
  /-- The claims of a token signed with the service's key that passes the default validation at
  a time. -/
  decode : Nat → String → Option TokenClaims
  /-- The key id of a token's header, if the token has a header. -/
  decodeHeader : String → Option (Option String)
  /-- The claims and groups of a token signed with the provider's key of that id. -/
  decodeWithKey : Nat → String → String → Except LayerhouseError (TokenClaims × List String)
  /-- Seconds that a token stays accepted after its expiry. -/
  leeway : Nat

structure TokenService where
  auth : AuthService
  jwt : Jwt
  providerName : String
  sha256Hex : List UInt8 → String
  isUuid : String → Bool

def unauthorized (message : String) : LayerhouseError :=
  .unauthorized message none none none

namespace TokenService

def userPrincipal (service : TokenService) (subject : String) :
    Except LayerhouseError ProviderQualifiedId :=
  ProviderQualifiedId.new service.providerName .user subject

/-! ### Validation -/

/-- The first token, in the order of ids, with the given hash. -/
def getPersonalAccessTokenByHash (data : StateMachineData) (tokenHash : String) :
    Option PersonalAccessToken :=
  (data.personalAccessTokens.toList.find? (·.2.tokenHash = tokenHash)).map (·.2)

def tokenHash (service : TokenService) (token : String) : String :=
  service.sha256Hex (Text.utf8 token.toList)

def validatePat (service : TokenService) (now : Nat) (data : StateMachineData) (token : String) :
    Except LayerhouseError AuthIdentity :=
  match getPersonalAccessTokenByHash data (service.tokenHash token) with
  | none => .error (unauthorized "invalid token")
  | some pat =>
    if pat.expiresAt.any (· < now) then .error (unauthorized "token expired")
    else
      match service.userPrincipal pat.subject with
      | .error error => .error error
      | .ok principal =>
        .ok
          { subject := pat.subject
            principal := principal
            username := pat.username
            displayName := none
            email := none
            groups := []
            groupIds := []
            scopes := pat.scopes
            namespaceEpochs := pat.namespaceEpochs
            tokenType := .personalAccess }

/-- The identity of verified claims: the shared end of the two JWT validations. -/
def identityOfClaims (service : TokenService) (claims : TokenClaims) (groups scopes : List String)
    (namespaceEpochs : List NamespaceEpoch) (tokenType : TokenType) :
    Except LayerhouseError AuthIdentity :=
  match service.userPrincipal claims.subject with
  | .error error => .error error
  | .ok principal =>
    .ok
      { subject := claims.subject
        principal := principal
        username := claims.username
        displayName := claims.displayName
        email := claims.trimmedEmail
        groups := groups
        groupIds := stableGroupIds service.isUuid service.providerName groups
        scopes := scopes
        namespaceEpochs := namespaceEpochs
        tokenType := tokenType }

def validateOciToken (service : TokenService) (now : Nat) (token : String) :
    Except LayerhouseError AuthIdentity :=
  match service.jwt.decode now token with
  | none => .error (unauthorized "invalid token")
  | some claims =>
    service.identityOfClaims claims (claims.groups.getD [])
      ((claims.scope.map fun scope => (scope.toList.splitOn ' ').map String.ofList).getD [])
      claims.namespaceEpochs .ociBearer

def verifyTokenClaims (service : TokenService) (now : Nat) (token : String) :
    Except LayerhouseError (TokenClaims × List String) :=
  match service.jwt.decodeHeader token with
  | none => .error (unauthorized "invalid token")
  | some none => .error (unauthorized "token missing kid")
  | some (some kid) => service.jwt.decodeWithKey now kid token

def validateOidcToken (service : TokenService) (now : Nat) (token : String) :
    Except LayerhouseError AuthIdentity :=
  match service.verifyTokenClaims now token with
  | .error error => .error error
  | .ok (claims, groups) => service.identityOfClaims claims groups [] [] .oidcAccess

def validateToken (service : TokenService) (now : Nat) (data : StateMachineData)
    (token : String) : Except LayerhouseError AuthIdentity :=
  if (Text.stripPrefix "layerhouse-".toList token.toList).isSome then
    service.validatePat now data token
  else
    match service.validateOciToken now token with
    | .ok identity => .ok identity
    | .error _ => service.validateOidcToken now token

/-! ### The token endpoint -/

def mintOciToken (service : TokenService) (now : Nat) (identity : AuthIdentity) (scopes : String)
    (namespaceEpochs : List NamespaceEpoch) : Except LayerhouseError String :=
  match service.jwt.encode
      { subject := identity.subject
        exp := now + 3600
        aud := none
        groups := some identity.groups
        name := identity.displayName
        preferredUsername := identity.username
        email := identity.email
        scope := some scopes
        namespaceEpochs := namespaceEpochs
        tokenType := some "oci_bearer"
        iat := some now
        iss := some "layerhouse" } with
  | .ok token => .ok token
  | .error message => .error (.internal ("failed to mint token: " ++ message))

end TokenService

structure TokenQuery where
  service : Option String
  scope : List String

structure IssuedToken where
  token : String
  accessToken : String
  expiresIn : Nat
  issuedAt : Nat

def AuthorizedRepositoryAccess.recordExpectedNamespace (access : AuthorizedRepositoryAccess)
    (epochs : List NamespaceEpoch) : List NamespaceEpoch :=
  match access.expectedNamespace with
  | none => epochs
  | some epoch => if epoch ∈ epochs then epochs else epochs ++ [epoch]

namespace TokenService

/-- The requested scopes that the identity is allowed, with the epochs they were allowed
against: denied and malformed ones are left out, any other error ends the call. -/
def grantScopes (service : TokenService) (data : StateMachineData) (identity : AuthIdentity) :
    List String → List String × List NamespaceEpoch →
      Except LayerhouseError (List String × List NamespaceEpoch)
  | [], granted => .ok granted
  | requested :: rest, (scopes, epochs) =>
    match parseScope requested with
    | none => service.grantScopes data identity rest (scopes, epochs)
    | some (repository, action) =>
      match checkPermission service.auth data identity repository action with
      | .ok access =>
        service.grantScopes data identity rest
          (scopes ++ [requested], access.recordExpectedNamespace epochs)
      | .error (.denied _) => service.grantScopes data identity rest (scopes, epochs)
      | .error error => .error error

/-- The token endpoint after the credential was validated. -/
def issueToken (service : TokenService) (now : Nat) (data : StateMachineData)
    (identity : AuthIdentity) (query : TokenQuery) : Except LayerhouseError IssuedToken :=
  let requested := query.scope.flatMap fun scope =>
    (Text.splitWhitespace scope.toList).map String.ofList
  match service.grantScopes data identity requested ([], []) with
  | .error error => .error error
  | .ok (scopes, epochs) =>
    match service.mintOciToken now identity (" ".intercalate scopes) epochs with
    | .error error => .error error
    | .ok token =>
      .ok
        { token := token
          accessToken := token
          expiresIn := 3600
          issuedAt := now }

/-- The token endpoint, called with the password of the basic credentials. Validation reads the
clock and the store first; the bearer is minted later, when both may have moved on. -/
def tokenEndpoint (service : TokenService) (received : Nat × StateMachineData)
    (answered : Nat × StateMachineData) (password : String) (query : TokenQuery) :
    Except LayerhouseError IssuedToken :=
  match service.validateToken received.1 received.2 password with
  | .error error => .error error
  | .ok identity => service.issueToken answered.1 answered.2 identity query

end TokenService

end Layerhouse
