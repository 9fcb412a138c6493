/-
This file is the policy text that `policy_for_request` of
`auth/cedar_authorizer.rs` writes for a request, and what Cedar reads in it: the
permits of the namespace's owner and of its grants, the policy sets of the
configuration, the permits of a scoped credential, and the policy sets of the
metadata. A failed `expect` is a failure like any other here, since neither lets a
request through.

Cedar is another package. It is given by what it reads in a text and by its check
of a request against the schema; `CedarEngine.Lawful` says what its documentation
says about texts: policies that stand one after the other are read one after the
other, and a permit is read as what it says unless one of its names cannot be
spelled, which no later text mends. The lemmas follow the text while it grows.
-/

import Layerhouse.Auth.Policies

namespace Layerhouse

/-! ### Entities -/

/-- What keeps a policy text from being written. -/
inductive PolicyFailure where
  | panic (panic : Panic)
  | error (error : LayerhouseError)

inductive CedarEntityType where
  | user
  | group
  | namespaces
  | repository
  | registry
deriving DecidableEq

def CedarEntityType.asStr : CedarEntityType → String
  | .user => "User"
  | .group => "Group"
  | .namespaces => "Namespace"
  | .repository => "Repository"
  | .registry => "Registry"

structure CedarEntityId where
  entityType : CedarEntityType
  id : String
deriving DecidableEq

def hexDigit (value : Nat) : Char :=
  "0123456789abcdef".toList.getD value '0'

/-- One character of a JSON string. -/
def jsonEscape (char : Char) : List Char :=
  if char = '"' ∨ char = '\\' then ['\\', char]
  else if char = '\n' then ['\\', 'n']
  else if char = '\r' then ['\\', 'r']
  else if char = '\t' then ['\\', 't']
  else if char.toNat = 8 then ['\\', 'b']
  else if char.toNat = 12 then ['\\', 'f']
  else if char.toNat < 32 then
    ['\\', 'u', '0', '0', hexDigit (char.toNat / 16), hexDigit (char.toNat % 16)]
  else [char]

def cedarStringLiteral (value : String) : String :=
  String.ofList ('"' :: value.toList.flatMap jsonEscape ++ ['"'])

namespace CedarEntityId

def fromPrincipal (id : ProviderQualifiedId) : Except Panic CedarEntityId :=
  id.kind.map fun
    | .user => ⟨.user, id.text⟩
    | .group => ⟨.group, id.text⟩

def policyRef (entity : CedarEntityId) : String :=
  entity.entityType.asStr ++ "::" ++ cedarStringLiteral entity.id

end CedarEntityId

def NamespaceEpoch.entityId (epoch : NamespaceEpoch) : String :=
  epoch.handle ++ "#" ++ toString epoch.generation

def cedarNamespace (epoch : NamespaceEpoch) : CedarEntityId :=
  ⟨.namespaces, epoch.entityId⟩

inductive CedarResource where
  | repository (entity : CedarEntityId) (parent : Option CedarEntityId)
  | registry
deriving DecidableEq

namespace CedarResource

def fromRequest (request : AuthzRequest) : CedarResource :=
  if request.repository = "*" ∧ request.resource = none then .registry
  else
    match request.resource with
    | some resource =>
      let epoch := resource.namespaceResource.epoch
      .repository ⟨.repository, epoch.entityId ++ "/" ++ resource.relativePath⟩
        (some (cedarNamespace epoch))
    | none => .repository ⟨.repository, request.repository⟩ none

def entity : CedarResource → CedarEntityId
  | .repository entity _ => entity
  | .registry => ⟨.registry, "root"⟩

/-- The namespace a resource lies in. -/
def parent? : CedarResource → Option CedarEntityId
  | .repository _ parent => parent
  | .registry => none

end CedarResource

/-! ### Permits -/

/-- The principals that a written permit is for. -/
inductive PrincipalScope where
  | exactly (entity : CedarEntityId)
  | within (group : CedarEntityId)
deriving DecidableEq

def PrincipalScope.text : PrincipalScope → String
  | .exactly entity => "principal == " ++ entity.policyRef
  | .within group => "principal in " ++ group.policyRef

/-- The resources that a written permit is for. -/
inductive ResourceScope where
  | exactly (entity : CedarEntityId)
  | within (parent : CedarEntityId)
deriving DecidableEq

def ResourceScope.text : ResourceScope → String
  | .exactly entity => "resource == " ++ entity.policyRef
  | .within parent => "resource in " ++ parent.policyRef

def permitText (principal : PrincipalScope) (action : OciAction) (resource : ResourceScope) :
    String :=
  "permit(" ++ principal.text ++ ", action == Action::" ++
    cedarStringLiteral action.scopeToken ++ ", " ++ resource.text ++ ");\n"

def appendPermitsForActions (policy : String) (principal : PrincipalScope) (allowed : OciAction)
    (resource : ResourceScope) : String :=
  (impliedActions allowed).foldl
    (fun policy action => policy ++ permitText principal action resource) policy

/-! ### The policy of a request -/

def ProviderQualifiedId.provider (id : ProviderQualifiedId) : String :=
  String.ofList ((id.text.toList.splitOn ':').headD [])

/-- The permits of `append_permits_for_actions` for a principal that is read from its id. -/
def appendPermitsFor (policy : String) (principal : ProviderQualifiedId)
    (scope : CedarEntityId → PrincipalScope) (allowed : OciAction) (resource : ResourceScope) :
    Except PolicyFailure String :=
  match CedarEntityId.fromPrincipal principal with
  | .error panic => .error (.panic panic)
  | .ok entity => .ok (appendPermitsForActions policy (scope entity) allowed resource)

def appendNamespaceOwnerPolicies (policy provider : String) (owner : Owner)
    (epoch : NamespaceEpoch) : Except PolicyFailure String :=
  match owner with
  | .org _ => .ok policy
  | .user subject =>
    match ProviderQualifiedId.new provider .user subject with
    | .error error => .error (.error error)
    | .ok id => appendPermitsFor policy id .exactly .delete (.within (cedarNamespace epoch))

def appendNamespaceGrantPolicies (epoch : NamespaceEpoch) (policy : String)
    (grant : NamespaceGrant) : Except PolicyFailure String :=
  match grant.grantee with
  | .group id => appendPermitsFor policy id .within grant.action (.within (cedarNamespace epoch))
  | .user id => appendPermitsFor policy id .exactly grant.action (.within (cedarNamespace epoch))
  | .everyone => .ok policy

def appendExplicitScopePolicies (policy : String) (request : AuthzRequest) :
    Except PolicyFailure String :=
  if request.actor.tokenType ≠ .personalAccess ∧ request.actor.tokenType ≠ .ociBearer then
    .ok policy
  else
    match matchingScope request.actor.scopes request.repository request.action with
    | none => .ok policy
    | some (_, allowed) =>
      appendPermitsFor policy request.actor.principal .exactly allowed
        (.exactly (CedarResource.fromRequest request).entity)

/-- A text that ends with a line end. -/
def endsLine (policy : String) : Bool :=
  policy.toList.getLast? = some '\n'

def endLine (policy : String) : String :=
  if endsLine policy then policy else policy ++ "\n"

def appendEnabledPolicyTexts (policy : String) (texts : List String) : String :=
  texts.foldl (fun policy text => endLine (endLine policy ++ text)) policy

structure ConfigPolicySet where
  id : String
  name : String
  enabled : Bool
  cedarText : String

/-- Where the policies of a request come from: the configuration of the node and the metadata. -/
structure PolicyConfiguration where
  policySets : List ConfigPolicySet
  data : StateMachineData

namespace PolicyConfiguration

def enabledConfigTexts (configuration : PolicyConfiguration) : List String :=
  (configuration.policySets.filter (·.enabled)).map (·.cedarText)

def enabledMetadataTexts (configuration : PolicyConfiguration) : List String :=
  ((configuration.data.policySets.toList.map (·.2)).filter (·.enabled)).map (·.cedarText)

/-- The part of the policy that comes before the permits of a scope: the permits of the owner and
of the grants of the namespace, and the policy sets of the configuration. -/
def policyBeforeScopes (configuration : PolicyConfiguration) (request : AuthzRequest) :
    Except PolicyFailure String :=
  let data := configuration.data
  let permits : Except PolicyFailure String :=
    match request.resource with
    | none => .ok ""
    | some resource =>
      let epoch := resource.namespaceResource.epoch
      match data.namespaces[epoch.handle]? with
      | none => .ok ""
      | some live =>
        if NamespaceEpoch.fromNamespace live = epoch then
          match appendNamespaceOwnerPolicies "" request.actor.principal.provider live.owner
              epoch with
          | .error failure => .error failure
          | .ok policy =>
            ((data.namespaceGrants[epoch.handle]?.getD ∅).toList.map (·.2)).foldlM
              (appendNamespaceGrantPolicies epoch) policy
        else .ok ""
  permits.map (appendEnabledPolicyTexts · configuration.enabledConfigTexts)

def policyForRequest (configuration : PolicyConfiguration) (request : AuthzRequest) :
    Except PolicyFailure String :=
  match configuration.policyBeforeScopes request with
  | .error failure => .error failure
  | .ok policy =>
    (appendExplicitScopePolicies policy request).map
      (appendEnabledPolicyTexts · configuration.enabledMetadataTexts)

end PolicyConfiguration

/-! ### Permits can be read back -/

/-- The character that a short escape stands for. -/
def unescapeShort : Char → Char
  | 'n' => '\n'
  | 'r' => '\r'
  | 't' => '\t'
  | 'b' => Char.ofNat 8
  | 'f' => Char.ofNat 12
  | char => char

/-- A literal is read up to its closing quote: its text and what follows. -/
def readLiteral : List Char → Option (List Char × List Char)
  | [] => none
  | '"' :: rest => some ([], rest)
  | '\\' :: 'u' :: '0' :: '0' :: high :: low :: rest =>
    let value := fun digit => "0123456789abcdef".toList.idxOf digit
    (readLiteral rest).map fun read => (Char.ofNat (16 * value high + value low) :: read.1, read.2)
  | '\\' :: kind :: rest =>
    (readLiteral rest).map fun read => (unescapeShort kind :: read.1, read.2)
  | char :: rest => (readLiteral rest).map fun read => (char :: read.1, read.2)

theorem hexDigit_spec : ∀ value < 16,
    "0123456789abcdef".toList.idxOf (hexDigit value) = value ∧ hexDigit value ≠ '\n' := by
  decide

/-- The three forms of an escaped character: itself, a short escape, and its code. -/
theorem jsonEscape_cases (char : Char) :
    (jsonEscape char = [char] ∧ char ≠ '"' ∧ char ≠ '\\' ∧ char ≠ '\n') ∨
    (∃ kind, jsonEscape char = ['\\', kind] ∧ kind ≠ 'u' ∧ kind ≠ '\n' ∧
      unescapeShort kind = char) ∨
    ∃ high < 16, ∃ low < 16, jsonEscape char = ['\\', 'u', '0', '0', hexDigit high, hexDigit low] ∧
      char = Char.ofNat (16 * high + low) := by
  unfold jsonEscape
  split_ifs with special newline carriage tab backspace feed control
  · refine Or.inr (Or.inl ⟨char, rfl, ?_⟩)
    rcases special with rfl | rfl <;> decide
  · exact Or.inr (Or.inl ⟨'n', rfl, by decide, by decide, newline.symm⟩)
  · exact Or.inr (Or.inl ⟨'r', rfl, by decide, by decide, carriage.symm⟩)
  · exact Or.inr (Or.inl ⟨'t', rfl, by decide, by decide, tab.symm⟩)
  · refine Or.inr (Or.inl ⟨'b', rfl, by decide, by decide, ?_⟩)
    rw [← Char.ofNat_toNat char, backspace]
    rfl
  · refine Or.inr (Or.inl ⟨'f', rfl, by decide, by decide, ?_⟩)
    rw [← Char.ofNat_toNat char, feed]
    rfl
  · refine Or.inr (Or.inr ⟨char.toNat / 16, by omega, char.toNat % 16, by omega, rfl, ?_⟩)
    rw [Nat.div_add_mod, Char.ofNat_toNat]
  · exact Or.inl ⟨rfl, fun quote => special (Or.inl quote), fun slash => special (Or.inr slash),
      newline⟩

theorem readLiteral_jsonEscape (char : Char) (rest : List Char) :
    readLiteral (jsonEscape char ++ rest) =
      (readLiteral rest).map fun read => (char :: read.1, read.2) := by
  rcases jsonEscape_cases char with ⟨escaped, quote, slash, _⟩ | ⟨kind, escaped, code, _, rfl⟩ |
    ⟨high, highBound, low, lowBound, escaped, rfl⟩
  · rw [escaped, List.singleton_append, readLiteral]
    · exact quote
    · exact fun _ _ _ same _ => slash same
    · exact fun _ _ same _ => slash same
  · rw [escaped, List.cons_append, List.singleton_append, readLiteral]
    exact fun _ _ _ same _ => code same
  · rw [escaped]
    show (readLiteral rest).map _ = _
    simp only [(hexDigit_spec high highBound).1, (hexDigit_spec low lowBound).1]

theorem readLiteral_append (value rest : List Char) :
    readLiteral (value.flatMap jsonEscape ++ '"' :: rest) = some (value, rest) := by
  induction value with
  | nil => rfl
  | cons char value inductionHypothesis =>
    rw [List.flatMap_cons, List.append_assoc, readLiteral_jsonEscape, inductionHypothesis]
    rfl

/-- A literal ends where its text does, whatever the text is. -/
theorem cedarStringLiteral_inj {first second : String} {before after : List Char}
    (same : (cedarStringLiteral first).toList ++ before =
      (cedarStringLiteral second).toList ++ after) : first = second ∧ before = after := by
  simp only [cedarStringLiteral, String.toList_ofList, List.cons_append, List.append_assoc,
    List.nil_append, List.cons.injEq, true_and] at same
  have read := congrArg readLiteral same
  rw [readLiteral_append, readLiteral_append, Option.some.injEq, Prod.mk.injEq] at read
  exact ⟨String.toList_inj.mp read.1, read.2⟩

theorem policyRef_inj {first second : CedarEntityId} {before after : List Char}
    (same : first.policyRef.toList ++ before = second.policyRef.toList ++ after) :
    first = second ∧ before = after := by
  obtain ⟨firstType, firstId⟩ := first
  obtain ⟨secondType, secondId⟩ := second
  have sameType : firstType = secondType := by
    cases firstType <;> cases secondType <;>
      simp [CedarEntityId.policyRef, CedarEntityType.asStr] at same ⊢
  subst sameType
  simp only [CedarEntityId.policyRef, String.toList_append, List.append_assoc,
    List.append_cancel_left_eq] at same
  obtain ⟨rfl, rest⟩ := cedarStringLiteral_inj same
  exact ⟨rfl, rest⟩

theorem principalText_inj {first second : PrincipalScope} {before after : List Char}
    (same : first.text.toList ++ before = second.text.toList ++ after) :
    first = second ∧ before = after := by
  cases first <;> cases second <;>
    simp only [PrincipalScope.text, String.toList_append, List.append_assoc] at same
  case exactly.exactly =>
    obtain ⟨rfl, rest⟩ := policyRef_inj (List.append_cancel_left same)
    exact ⟨rfl, rest⟩
  case within.within =>
    obtain ⟨rfl, rest⟩ := policyRef_inj (List.append_cancel_left same)
    exact ⟨rfl, rest⟩
  all_goals simp at same

theorem resourceText_inj {first second : ResourceScope} {before after : List Char}
    (same : first.text.toList ++ before = second.text.toList ++ after) :
    first = second ∧ before = after := by
  cases first <;> cases second <;>
    simp only [ResourceScope.text, String.toList_append, List.append_assoc] at same
  case exactly.exactly =>
    obtain ⟨rfl, rest⟩ := policyRef_inj (List.append_cancel_left same)
    exact ⟨rfl, rest⟩
  case within.within =>
    obtain ⟨rfl, rest⟩ := policyRef_inj (List.append_cancel_left same)
    exact ⟨rfl, rest⟩
  all_goals simp at same

theorem scopeToken_inj {first second : OciAction} (same : first.scopeToken = second.scopeToken) :
    first = second := by
  cases first <;> cases second <;> simp [OciAction.scopeToken] at same ⊢

/-- A written permit says one thing: no name in it can be spelled so that it reads as another
permit, also with text after it. -/
theorem permitText_inj {principal otherPrincipal : PrincipalScope} {action otherAction : OciAction}
    {resource otherResource : ResourceScope} {before after : List Char}
    (same : (permitText principal action resource).toList ++ before =
      (permitText otherPrincipal otherAction otherResource).toList ++ after) :
    principal = otherPrincipal ∧ action = otherAction ∧ resource = otherResource := by
  simp only [permitText, String.toList_append, List.append_assoc] at same
  obtain ⟨samePrincipal, later⟩ := principalText_inj (List.append_cancel_left same)
  obtain ⟨sameAction, last⟩ := cedarStringLiteral_inj (List.append_cancel_left later)
  obtain ⟨sameResource, _⟩ := resourceText_inj (List.append_cancel_left last)
  exact ⟨samePrincipal, scopeToken_inj sameAction, sameResource⟩

/-! ### What Cedar sees and decides -/

structure CedarContext where
  repository : String
  resourceId : String
  namespaceId : String
  tokenType : String
  username : String
  displayName : String
  email : String
  scopeCount : Nat
  namespaceEpochCount : Nat
deriving DecidableEq

def tokenTypeName : TokenType → String
  | .oidcAccess => "oidc_access"
  | .personalAccess => "personal_access"
  | .ociBearer => "oci_bearer"
  | .session => "session"

def lenAsI64 (length : Nat) : Nat :=
  min length (2 ^ 63 - 1)

def CedarContext.fromRequest (request : AuthzRequest) : CedarContext :=
  let resource := CedarResource.fromRequest request
  { repository := request.repository
    resourceId := resource.entity.id
    namespaceId := resource.parent?.elim "" (·.id)
    tokenType := tokenTypeName request.actor.tokenType
    username := request.actor.username.getD ""
    displayName := request.actor.displayName.getD ""
    email := request.actor.email.getD ""
    scopeCount := lenAsI64 request.actor.scopes.length
    namespaceEpochCount := lenAsI64 request.actor.namespaceEpochs.length }

/-- The groups of an actor, each once, as the parents of its principal. -/
def groupParents (ids : List ProviderQualifiedId) : Except Panic (List CedarEntityId) :=
  (ids.mapM CedarEntityId.fromPrincipal).map fun entities =>
    (entities.filter (·.entityType = .group)).eraseDups

structure CedarRequest where
  principal : CedarEntityId
  groups : List CedarEntityId
  action : OciAction
  resource : CedarResource
  context : CedarContext
deriving DecidableEq

def CedarRequest.fromRequest (request : AuthzRequest) : Except Panic CedarRequest :=
  match groupParents request.actor.groupIds with
  | .error panic => .error panic
  | .ok groups =>
    (CedarEntityId.fromPrincipal request.actor.principal).map fun principal =>
      { principal := principal
        groups := groups
        action := request.action
        resource := CedarResource.fromRequest request
        context := CedarContext.fromRequest request }

inductive PolicyEffect where
  | permit
  | forbid
deriving DecidableEq

/-- A policy that was read: what it does with the requests that it applies to. -/
structure CedarPolicy where
  effect : PolicyEffect
  applies : CedarRequest → Bool

/-- What is taken from Cedar: the policies it reads in a text that fits the schema, and its check
of a request against the schema. -/
structure CedarEngine where
  parse : String → Except String (List CedarPolicy)
  validate : CedarRequest → Except String Unit

/-- Some policy with this effect applies. -/
def anyApplies (effect : PolicyEffect) (policies : List CedarPolicy) (request : CedarRequest) :
    Bool :=
  policies.any fun policy => policy.effect = effect ∧ policy.applies request

/-- Cedar allows what some policy permits and no policy forbids. -/
def policyDecision (policies : List CedarPolicy) (request : CedarRequest) : AuthzDecision :=
  if anyApplies .forbid policies request then .deny
  else if anyApplies .permit policies request then .allow
  else .deny

namespace CedarEngine

def cedar (engine : CedarEngine) : Cedar where
  parse text := (engine.parse text).map fun _ => ()
  isAuthorized text request :=
    match CedarRequest.fromRequest request with
    | .error panic => .error panic.message
    | .ok cedarRequest =>
      match engine.validate cedarRequest, engine.parse text with
      | .error message, _ | _, .error message => .error message
      | .ok (), .ok policies => .ok (policyDecision policies cedarRequest)

/-- `authorize`: the decision on the policy text of the request. -/
def authorize (engine : CedarEngine) (configuration : PolicyConfiguration)
    (request : AuthzRequest) : Except PolicyFailure AuthzDecision :=
  (configuration.policyForRequest request).map (cedarDecision engine.cedar · request)

end CedarEngine

/-! ### What is known of the reader -/

def PrincipalScope.covers (request : CedarRequest) : PrincipalScope → Bool
  | .exactly entity => request.principal = entity
  | .within group => request.principal = group ∨ group ∈ request.groups

def ResourceScope.covers (request : CedarRequest) : ResourceScope → Bool
  | .exactly entity => request.resource.entity = entity
  | .within parent => request.resource.entity = parent ∨ request.resource.parent? = some parent

/-- The policy that a written permit stands for. -/
def permitPolicy (principal : PrincipalScope) (action : OciAction) (resource : ResourceScope) :
    CedarPolicy where
  effect := .permit
  applies request := principal.covers request ∧ request.action = action ∧ resource.covers request

/-- Nothing of the text is left open: it is empty or ends with a line end. -/
def Ended (text : String) : Prop :=
  text = "" ∨ endsLine text = true

namespace CedarEngine

variable {engine : CedarEngine}

/-- The permits for these principals and resources are read as what they say. -/
def ReadsPermits (engine : CedarEngine) (principal : PrincipalScope) (resource : ResourceScope) :
    Prop :=
  ∀ action, action ≠ .admin → engine.parse (permitText principal action resource) =
    .ok [permitPolicy principal action resource]

/-- What the documentation of Cedar says about texts. A permit that is not read as what it says
has a name that Cedar cannot spell or does not fit the schema; whichever repository action it is
for, the text that it stands in is refused. -/
structure Lawful (engine : CedarEngine) : Prop where
  empty : engine.parse "" = .ok []
  newline : ∀ text policies, engine.parse text = .ok policies →
    engine.parse (text ++ "\n") = .ok policies
  sequence : ∀ first second before after, Ended first → engine.parse first = .ok before →
    engine.parse second = .ok after → engine.parse (first ++ second) = .ok (before ++ after)
  permit : ∀ principal resource, engine.ReadsPermits principal resource ∨
    ∀ action before policies after, action ≠ .admin → Ended before →
      engine.parse before = .ok policies →
        ∃ message, engine.parse (before ++ permitText principal action resource ++ after) =
          .error message

/-- What has become of a text that is still being written: the policies that Cedar reads in it,
or nothing when it is refused however it goes on. -/
inductive Reading (engine : CedarEngine) (text : String) : Option (List CedarPolicy) → Prop where
  | read {policies : List CedarPolicy} (ended : Ended text)
      (parsed : engine.parse text = .ok policies) : Reading engine text (some policies)
  | refused (always : ∀ after, ∃ message, engine.parse (text ++ after) = .error message) :
      Reading engine text none

theorem endsLine_append (first : String) {second : String} (ended : endsLine second = true) :
    endsLine (first ++ second) = true := by
  rw [endsLine, decide_eq_true_eq] at ended ⊢
  rw [String.toList_append, List.getLast?_append, ended]
  rfl

theorem endsLine_permitText (principal : PrincipalScope) (action : OciAction)
    (resource : ResourceScope) : endsLine (permitText principal action resource) = true := by
  rw [permitText]
  exact endsLine_append _ (by decide)

theorem endsLine_endLine (text : String) : endsLine (endLine text) = true := by
  unfold endLine
  split
  · assumption
  · exact endsLine_append _ (by decide)

theorem Lawful.endLine (lawful : engine.Lawful) {text : String} {policies : List CedarPolicy}
    (parsed : engine.parse text = .ok policies) :
    engine.parse (Layerhouse.endLine text) = .ok policies := by
  unfold Layerhouse.endLine
  split
  · exact parsed
  · exact lawful.newline text policies parsed

namespace Reading

theorem refused_append {text : String} (reading : Reading engine text none) (after : String) :
    Reading engine (text ++ after) none := by
  cases reading with
  | refused always =>
    refine .refused fun rest => ?_
    rw [String.append_assoc]
    exact always (after ++ rest)

theorem empty (lawful : engine.Lawful) : Reading engine "" (some []) :=
  .read (Or.inl rfl) lawful.empty

/-- A permit that is read adds one policy. -/
theorem permit (lawful : engine.Lawful) {text : String} {policies : List CedarPolicy}
    (reading : Reading engine text (some policies)) {principal : PrincipalScope}
    {resource : ResourceScope} (reads : engine.ReadsPermits principal resource)
    {action : OciAction} (repositoryAction : action ≠ .admin) :
    Reading engine (text ++ permitText principal action resource)
      (some (policies ++ [permitPolicy principal action resource])) := by
  cases reading with
  | read ended parsed =>
    refine .read (Or.inr (endsLine_append text (endsLine_permitText ..))) ?_
    exact lawful.sequence _ _ _ _ ended parsed (reads action repositoryAction)

/-- The permits for the actions of a list. -/
theorem permits (lawful : engine.Lawful) {principal : PrincipalScope} {resource : ResourceScope}
    (reads : engine.ReadsPermits principal resource) {actions : List OciAction}
    (repositoryActions : ∀ action ∈ actions, action ≠ .admin) {text : String}
    {policies : List CedarPolicy} (reading : Reading engine text (some policies)) :
    Reading engine
      (actions.foldl (fun policy action => policy ++ permitText principal action resource) text)
      (some (policies ++ actions.map (permitPolicy principal · resource))) := by
  induction actions generalizing text policies with
  | nil =>
    rw [List.map_nil, List.append_nil]
    exact reading
  | cons action rest inductionHypothesis =>
    have one := reading.permit lawful reads (repositoryActions action List.mem_cons_self)
    have all := inductionHypothesis
      (fun other member => repositoryActions other (List.mem_cons_of_mem action member)) one
    rw [List.append_assoc] at all
    exact all

end Reading

/-- The repository actions that a grant implies. -/
theorem impliedActions_ne_admin {allowed action : OciAction}
    (member : action ∈ impliedActions allowed) : action ≠ .admin := by
  have listed := (List.mem_filter.mp member).1
  rintro rfl
  revert listed
  decide

/-- Text after permits that are not read does not mend them. -/
theorem Reading.foldl_refused {principal : PrincipalScope} {resource : ResourceScope}
    (actions : List OciAction) {text : String} (reading : Reading engine text none) :
    Reading engine
      (actions.foldl (fun policy action => policy ++ permitText principal action resource) text)
      none := by
  induction actions generalizing text with
  | nil => exact reading
  | cons action rest inductionHypothesis =>
    exact inductionHypothesis (reading.refused_append _)

/-- Permits that are not read spoil the text, if there are any. -/
theorem Reading.unread (lawful : engine.Lawful) {principal : PrincipalScope}
    {resource : ResourceScope} (unread : ¬ engine.ReadsPermits principal resource)
    {allowed : OciAction} (some_action : impliedActions allowed ≠ []) {text : String}
    {policies : List CedarPolicy} (reading : Reading engine text (some policies)) :
    Reading engine (appendPermitsForActions text principal allowed resource) none := by
  have refuses := (lawful.permit principal resource).resolve_left unread
  rw [appendPermitsForActions]
  cases implied : impliedActions allowed with
  | nil => exact absurd implied some_action
  | cons action rest =>
    have repositoryAction : action ≠ .admin :=
      @impliedActions_ne_admin allowed action (implied ▸ List.mem_cons_self)
    cases reading with
    | read ended parsed =>
      refine foldl_refused rest (.refused fun after => ?_)
      exact refuses action text policies after repositoryAction ended parsed

theorem exists_endLine (text : String) : ∃ after, Layerhouse.endLine text = text ++ after := by
  unfold Layerhouse.endLine
  split
  · exact ⟨"", (String.append_empty).symm⟩
  · exact ⟨"\n", rfl⟩

/-- One policy set that is read. -/
theorem Reading.text (lawful : engine.Lawful) {added : String} {policies : List CedarPolicy}
    (parsed : engine.parse added = .ok policies) {text : String}
    {outcome : Option (List CedarPolicy)} (reading : Reading engine text outcome) :
    Reading engine (Layerhouse.endLine (Layerhouse.endLine text ++ added))
      (outcome.map (· ++ policies)) := by
  cases reading with
  | read ended before =>
    have line := lawful.endLine before
    have both := lawful.sequence _ _ _ _ (Or.inr (endsLine_endLine text)) line parsed
    exact .read (Or.inr (endsLine_endLine _)) (lawful.endLine both)
  | refused always =>
    obtain ⟨first, firstEq⟩ := exists_endLine text
    obtain ⟨second, secondEq⟩ := exists_endLine (Layerhouse.endLine text ++ added)
    rw [secondEq, firstEq]
    exact ((Reading.refused always).refused_append first |>.refused_append added).refused_append
      second

/-- Policy sets that are read add the same policies to every text, each from one of them. -/
theorem Reading.texts (lawful : engine.Lawful) {texts : List String}
    (parses : ∀ text ∈ texts, ∃ policies, engine.parse text = .ok policies) :
    ∃ added, (∀ policy ∈ added, ∃ text ∈ texts, ∃ policies, engine.parse text = .ok policies ∧
        policy ∈ policies) ∧
      ∀ text outcome, Reading engine text outcome →
        Reading engine (appendEnabledPolicyTexts text texts) (outcome.map (· ++ added)) := by
  induction texts with
  | nil =>
    refine ⟨[], by simp, fun text outcome reading => ?_⟩
    have same : outcome.map (· ++ ([] : List CedarPolicy)) = outcome := by
      cases outcome <;> simp
    rw [same]
    exact reading
  | cons first rest inductionHypothesis =>
    obtain ⟨policies, parsed⟩ := parses first List.mem_cons_self
    obtain ⟨added, sources, later⟩ := inductionHypothesis fun text member =>
      parses text (List.mem_cons_of_mem first member)
    refine ⟨policies ++ added, fun policy member => ?_, fun text outcome reading => ?_⟩
    · rcases List.mem_append.mp member with early | late
      · exact ⟨first, List.mem_cons_self, policies, parsed, early⟩
      · obtain ⟨text, listed, found⟩ := sources policy late
        exact ⟨text, List.mem_cons_of_mem first listed, found⟩
    · have all := later _ _ (reading.text lawful parsed)
      simp only [Option.map_map, Function.comp_def, List.append_assoc] at all
      exact all

/-- Cedar refuses a text that it does not read. -/
theorem Reading.cedar_parse {text : String} {outcome : Option (List CedarPolicy)}
    (reading : Reading engine text outcome) :
    outcome.isSome = true ∧ engine.cedar.parse text = .ok () ∨
      outcome = none ∧ ∃ message, engine.cedar.parse text = .error message := by
  cases reading with
  | read ended parsed =>
    refine Or.inl ⟨rfl, ?_⟩
    show (engine.parse text).map _ = _
    rw [parsed]
    rfl
  | refused always =>
    obtain ⟨message, failed⟩ := always ""
    rw [String.append_empty] at failed
    refine Or.inr ⟨rfl, message, ?_⟩
    show (engine.parse text).map _ = _
    rw [failed]
    rfl

open Classical in
/-- The policies that the permits of a scoped credential add, if Cedar reads them. -/
noncomputable def scopePolicies (engine : CedarEngine) (request : AuthzRequest)
    (principal : CedarEntityId) : Option (List CedarPolicy) :=
  if request.actor.tokenType ≠ .personalAccess ∧ request.actor.tokenType ≠ .ociBearer then some []
  else
    match matchingScope request.actor.scopes request.repository request.action with
    | none => some []
    | some (_, allowed) =>
      let resource := ResourceScope.exactly (CedarResource.fromRequest request).entity
      if engine.ReadsPermits (.exactly principal) resource then
        some ((impliedActions allowed).map (permitPolicy (.exactly principal) · resource))
      else none

theorem scopePolicies_unscoped {request : AuthzRequest} {principal : CedarEntityId}
    (unscoped : request.actor.tokenType.Unscoped) :
    engine.scopePolicies request principal = some [] := by
  unfold scopePolicies
  exact if_pos unscoped

theorem pull_mem_impliedActions {allowed : OciAction} (repositoryAction : allowed ≠ .admin) :
    .pull ∈ impliedActions allowed := by
  cases allowed with
  | admin => exact absurd rfl repositoryAction
  | _ => decide

theorem Reading.scopes (lawful : engine.Lawful) {request : AuthzRequest}
    {principal : CedarEntityId}
    (canonical : CedarEntityId.fromPrincipal request.actor.principal = .ok principal)
    {text : String} {outcome : Option (List CedarPolicy)} (reading : Reading engine text outcome) :
    ∃ next, appendExplicitScopePolicies text request = .ok next ∧
      Reading engine next (outcome.bind fun policies =>
        (engine.scopePolicies request principal).map (policies ++ ·)) := by
  have unchanged : Reading engine text (outcome.bind fun policies =>
      (some ([] : List CedarPolicy)).map (policies ++ ·)) := by
    cases outcome <;> simpa using reading
  rw [appendExplicitScopePolicies, scopePolicies]
  split
  · exact ⟨text, rfl, unchanged⟩
  · cases matched : matchingScope request.actor.scopes request.repository request.action with
    | none => exact ⟨text, rfl, unchanged⟩
    | some found =>
      obtain ⟨pattern, allowed⟩ := found
      obtain ⟨scope, _, parsed, _⟩ := matchingScope_eq_some matched
      simp only [appendPermitsFor, canonical]
      refine ⟨_, rfl, ?_⟩
      cases outcome with
      | none =>
        rw [appendPermitsForActions]
        exact reading.foldl_refused _
      | some policies =>
        by_cases reads : engine.ReadsPermits (.exactly principal)
            (.exactly (CedarResource.fromRequest request).entity)
        · rw [if_pos reads]
          exact reading.permits lawful reads fun action member => impliedActions_ne_admin member
        · rw [if_neg reads]
          refine reading.unread lawful reads ?_
          exact List.ne_nil_of_mem (pull_mem_impliedActions (parseScope_ne_admin parsed))

end CedarEngine

/-! ### A reader of lines -/

/-- The policies of one line: none, a policy that forbids everything or everything for credentials
with several scopes, or a permit for the given principals and resources. -/
def readLine (principal : PrincipalScope) (resource : ResourceScope) (line : List Char) :
    Option (List CedarPolicy) :=
  if line = [] then some []
  else if line = "forbid(principal, action, resource);".toList then some [⟨.forbid, fun _ => true⟩]
  else if line =
      "forbid(principal, action, resource) when \x7b context.scope_count > 1 \x7d;".toList then
    some [⟨.forbid, fun request => 1 < request.context.scopeCount⟩]
  else
    ([.pull, .create, .update, .delete].find? fun action =>
      (permitText principal action resource).toList = line ++ ['\n']).map fun action =>
        [permitPolicy principal action resource]

def readLines (readOne : List Char → Option (List CedarPolicy)) :
    List (List Char) → Option (List CedarPolicy)
  | [] => some []
  | line :: rest => (readOne line).bind fun first => (readLines readOne rest).map (first ++ ·)

theorem readLines_append (readOne : List Char → Option (List CedarPolicy))
    (first second : List (List Char)) :
    readLines readOne (first ++ second) =
      (readLines readOne first).bind fun before =>
        (readLines readOne second).map (before ++ ·) := by
  induction first with
  | nil => simp [readLines]
  | cons line rest inductionHypothesis =>
    rw [List.cons_append, readLines, readLines, inductionHypothesis]
    cases readOne line with
    | none => rfl
    | some first =>
      cases readLines readOne rest <;> cases readLines readOne second <;> simp

/-- Cedar, as far as it reads texts of such lines. -/
def lineEngine (principal : PrincipalScope) (resource : ResourceScope) : CedarEngine where
  parse text :=
    match readLines (readLine principal resource) (text.toList.splitOn '\n') with
    | some policies => .ok policies
    | none => .error "invalid Cedar authorization policy"
  validate _ := .ok ()

section LineEngine

variable {principal : PrincipalScope} {resource : ResourceScope}

theorem lineEngine_parse_eq_ok {text : String} {policies : List CedarPolicy} :
    (lineEngine principal resource).parse text = .ok policies ↔
      readLines (readLine principal resource) (text.toList.splitOn '\n') = some policies := by
  simp only [lineEngine]
  split
  · rename_i found same
    rw [same, Except.ok.injEq, Option.some.injEq]
  · rename_i same
    rw [same]
    simp

theorem readLines_line (readOne : List Char → Option (List CedarPolicy))
    (before after : List Char) :
    readLines readOne ((before ++ '\n' :: after).splitOn '\n') =
      (readLines readOne (before.splitOn '\n')).bind fun first =>
        (readLines readOne (after.splitOn '\n')).map (first ++ ·) := by
  rw [List.splitOn_append_cons_self, readLines_append]

theorem readLines_ended (readOne : List Char → Option (List CedarPolicy))
    (blank : readOne [] = some []) {before : String} (ended : Ended before) (after : List Char) :
    readLines readOne ((before.toList ++ after).splitOn '\n') =
      (readLines readOne (before.toList.splitOn '\n')).bind fun first =>
        (readLines readOne (after.splitOn '\n')).map (first ++ ·) := by
  rcases ended with rfl | ended
  · simp [readLines, blank]
  · rw [endsLine, decide_eq_true_eq] at ended
    obtain ⟨lead, leadEq⟩ := List.getLast?_eq_some_iff.mp ended
    have line := readLines_line readOne lead
    rw [leadEq, List.append_assoc, List.singleton_append, line after, line []]
    cases readLines readOne (lead.splitOn '\n') <;> simp [readLines, blank]

theorem newline_not_mem_jsonEscape (char : Char) : '\n' ∉ jsonEscape char := by
  rcases jsonEscape_cases char with ⟨escaped, _, _, newline⟩ | ⟨kind, escaped, _, newline, _⟩ |
    ⟨high, highBound, low, lowBound, escaped, _⟩
  · rw [escaped, List.mem_singleton]
    exact Ne.symm newline
  · simp [escaped, Ne.symm newline]
  · simp [escaped, Ne.symm (hexDigit_spec high highBound).2,
      Ne.symm (hexDigit_spec low lowBound).2]

theorem newline_not_mem_literal (value : String) : '\n' ∉ (cedarStringLiteral value).toList := by
  simp only [cedarStringLiteral, String.toList_ofList, List.cons_append, List.mem_cons,
    List.mem_append, List.mem_flatMap, List.not_mem_nil, or_false, not_or]
  refine ⟨by decide, ?_, by decide⟩
  rintro ⟨char, _, member⟩
  exact newline_not_mem_jsonEscape char member

/-- A permit is one line. -/
theorem exists_permitLine (principal : PrincipalScope) (action : OciAction)
    (resource : ResourceScope) :
    ∃ line, (permitText principal action resource).toList = 'p' :: line ++ ['\n'] ∧
      '\n' ∉ 'p' :: line := by
  have reference : ∀ entity : CedarEntityId, '\n' ∉ entity.policyRef.toList := by
    intro entity
    simp only [CedarEntityId.policyRef, String.toList_append, List.mem_append, not_or]
    refine ⟨⟨?_, by decide⟩, newline_not_mem_literal entity.id⟩
    cases entity.entityType <;> decide
  refine ⟨"ermit(".toList ++ principal.text.toList ++ ", action == Action::".toList ++
    (cedarStringLiteral action.scopeToken).toList ++ ", ".toList ++ resource.text.toList ++
      ");".toList, ?_, ?_⟩
  · simp [permitText]
  · simp only [List.mem_cons, List.mem_append, not_or]
    refine ⟨by decide, ⟨⟨⟨⟨⟨by decide, ?_⟩, by decide⟩, newline_not_mem_literal _⟩, by decide⟩, ?_⟩,
      by decide⟩
    · cases principal <;>
        simp only [PrincipalScope.text, String.toList_append, List.mem_append, not_or] <;>
        exact ⟨by decide, reference _⟩
    · cases resource <;>
        simp only [ResourceScope.text, String.toList_append, List.mem_append, not_or] <;>
        exact ⟨by decide, reference _⟩

/-- The line of a permit is read if the permit is for the given principals and resources. -/
theorem readLine_permitText {otherPrincipal : PrincipalScope} {otherResource : ResourceScope}
    {action : OciAction} (repositoryAction : action ≠ .admin) {line : List Char}
    (lineEq : (permitText otherPrincipal action otherResource).toList = 'p' :: line ++ ['\n']) :
    readLine principal resource ('p' :: line) =
      if otherPrincipal = principal ∧ otherResource = resource then
        some [permitPolicy principal action resource] else none := by
  have isPermit : ∀ candidate, decide ((permitText principal candidate resource).toList =
      'p' :: line ++ ['\n']) =
        decide ((otherPrincipal = principal ∧ otherResource = resource) ∧ candidate = action) := by
    intro candidate
    rw [← lineEq, decide_eq_decide]
    constructor
    · intro same
      have appended := congrArg (· ++ ([] : List Char)) same
      obtain ⟨rfl, rfl, rfl⟩ := permitText_inj appended
      exact ⟨⟨rfl, rfl⟩, rfl⟩
    · rintro ⟨⟨rfl, rfl⟩, rfl⟩
      rfl
  rw [readLine, if_neg (List.cons_ne_nil _ _), if_neg (fun same => by cases same),
    if_neg (fun same => by cases same)]
  simp only [isPermit]
  by_cases same : otherPrincipal = principal ∧ otherResource = resource
  · simp only [same, and_self, true_and, if_true]
    cases action with
    | admin => exact absurd rfl repositoryAction
    | _ => rfl
  · simp only [same, false_and, decide_false, if_false]
    rfl

theorem lineEngine_lawful : (lineEngine principal resource).Lawful where
  empty := lineEngine_parse_eq_ok.mpr rfl
  newline := by
    intro text policies parsed
    rw [lineEngine_parse_eq_ok] at *
    rw [String.toList_append]
    show readLines _ ((text.toList ++ '\n' :: []).splitOn '\n') = _
    rw [readLines_line, parsed]
    simp [readLines, readLine]
  sequence := by
    intro first second before after ended parsedFirst parsedSecond
    rw [lineEngine_parse_eq_ok] at *
    rw [String.toList_append, readLines_ended _ rfl ended, parsedFirst, parsedSecond]
    rfl
  permit := by
    intro otherPrincipal otherResource
    by_cases same : otherPrincipal = principal ∧ otherResource = resource
    · refine Or.inl fun action repositoryAction => ?_
      obtain ⟨line, lineEq, oneLine⟩ := exists_permitLine otherPrincipal action otherResource
      rw [lineEngine_parse_eq_ok, lineEq, readLines_line, List.splitOn_eq_singleton oneLine]
      simp only [readLines, readLine_permitText repositoryAction lineEq, if_pos same]
      obtain ⟨rfl, rfl⟩ := same
      rfl
    · refine Or.inr fun action before policies after repositoryAction ended _ => ?_
      obtain ⟨line, lineEq, oneLine⟩ := exists_permitLine otherPrincipal action otherResource
      have unread : readLines (readLine principal resource)
          ((before ++ permitText otherPrincipal action otherResource ++ after).toList.splitOn
            '\n') = none := by
        rw [String.toList_append, String.toList_append, lineEq, List.append_assoc,
          readLines_ended _ rfl ended, List.append_assoc, List.singleton_append, readLines_line,
          List.splitOn_eq_singleton oneLine]
        simp [readLines, readLine_permitText repositoryAction lineEq, same]
      refine ⟨"invalid Cedar authorization policy", ?_⟩
      simp only [lineEngine, unread]

end LineEngine

end Layerhouse
