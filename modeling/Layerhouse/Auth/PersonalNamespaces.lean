/-
This file is about the repositories `users/<user>/...`. Three functions of
`auth/permissions.rs` and `store/metadata/handle.rs` look at the same prefix: who
the tree belongs to, whether it is the actor's own, and whether its handle is one
that can be claimed. They agree on every repository of this shape, so the guards
before Cedar decide about it, and no policy of the configuration, of the metadata
or of a namespace grant has a say.
-/

import Layerhouse.Auth.PolicyText

namespace Layerhouse

/-! ### The three tests of the prefix -/

def personalRepository (user rest : String) : String :=
  "users/" ++ user ++ "/" ++ rest

theorem personalRepository_toList (user rest : String) :
    (personalRepository user rest).toList =
      "users/".toList ++ (user.toList ++ '/' :: rest.toList) := by
  simp [personalRepository]

theorem inPersonalNamespaceOf_personalRepository {user : String} (named : user ≠ "")
    (segment : '/' ∉ user.toList) (rest : String) :
    inPersonalNamespaceOf (personalRepository user rest) = some user := by
  have stripped : Text.stripPrefix "users/".toList (personalRepository user rest).toList =
      some (user.toList ++ '/' :: rest.toList) :=
    Text.stripPrefix_eq_some.mpr (personalRepository_toList user rest)
  have first : ((user.toList ++ '/' :: rest.toList).splitOn '/').headD [] = user.toList := by
    rw [List.splitOn_append_cons_self_of_not_mem segment]
    rfl
  have nonempty : user.toList ≠ [] := fun empty => named (String.toList_inj.mp empty)
  rw [inPersonalNamespaceOf, stripped]
  simp only [first, if_neg nonempty, String.ofList_toList]

theorem inPersonalNamespace_personalRepository {user : String} (named : user ≠ "")
    (rest : String) : inPersonalNamespace (some user) (personalRepository user rest) = true := by
  rw [inPersonalNamespace]
  simp only [if_neg named]
  refine Option.isSome_iff_exists.mpr ⟨rest.toList, Text.stripPrefix_eq_some.mpr ?_⟩
  rw [personalRepository_toList]
  simp

theorem handleOf_personalRepository (user rest : String) :
    handleOf (personalRepository user rest) = .ok "users" := by
  refine handleOf_eq_ok.mpr ⟨user ++ "/" ++ rest, ?_, ?_, by decide⟩
  · intro empty
    have length := congrArg String.length empty
    simp at length
  · simp [personalRepository, String.append_assoc]

/-! ### The decision -/

/-- Whatever the policies are, only the user of the tree passes, with a scope that allows it when
the credential has scopes. -/
theorem cedarDecisionWithSchema_personal {cedar : Cedar} {policy : String} {request : AuthzRequest}
    {user rest : String} (named : user ≠ "") (segment : '/' ∉ user.toList)
    (target : request.repository = personalRepository user rest)
    (parsed : cedar.parse policy = .ok ()) :
    cedarDecisionWithSchema cedar policy request =
      .ok (if request.actor.username = some user ∧ explicitScopeGuardAllows request = true then
        .allow else .deny) := by
  have owned : inPersonalNamespaceOf request.repository = some user := by
    rw [target]
    exact inPersonalNamespaceOf_personalRepository named segment rest
  have claimable : unclaimedWrite request = false := by
    rw [unclaimedWrite, target, handleOf_personalRepository]
    exact ite_self false
  rw [cedarDecisionWithSchema, parsed, crossUserPersonalNamespace, owned, claimable]
  by_cases same : request.actor.username = some user
  · have personal : inPersonalNamespace request.actor.username request.repository = true := by
      rw [same, target]
      exact inPersonalNamespace_personalRepository named rest
    rw [personal]
    cases explicitScopeGuardAllows request <;> simp [same]
  · simp [same]

def Actor.withGroups (actor : Actor) (groupIds : List ProviderQualifiedId)
    (displayGroups : List String) : Actor :=
  { actor with groupIds := groupIds, displayGroups := displayGroups }

/-- The request that a permission check makes for a repository of a personal tree. -/
def personalRequest (actor : Actor) (user rest : String) (action : OciAction) : AuthzRequest where
  actor := actor
  repository := personalRepository user rest
  resource := none
  action := action

/-- Every policy set that is enabled parses and fits the schema. -/
def PolicyConfiguration.Parses (engine : CedarEngine) (configuration : PolicyConfiguration) :
    Prop :=
  ∀ text ∈ configuration.enabledConfigTexts ++ configuration.enabledMetadataTexts,
    ∃ policies, engine.parse text = .ok policies

/-- The policy text of such a request is written, and Cedar reads it unless it cannot read the
permits of the actor's own scope. -/
theorem PolicyConfiguration.Parses.personal {engine : CedarEngine} (lawful : engine.Lawful)
    {configuration : PolicyConfiguration} (parses : configuration.Parses engine) {actor : Actor}
    {principal : CedarEntityId}
    (canonical : CedarEntityId.fromPrincipal actor.principal = .ok principal)
    (user rest : String) (action : OciAction) :
    ∃ text outcome, configuration.policyForRequest (personalRequest actor user rest action) =
        .ok text ∧ engine.Reading text outcome ∧
      outcome.isSome =
        (engine.scopePolicies (personalRequest actor user rest action) principal).isSome := by
  obtain ⟨configured, _, ofConfig⟩ := CedarEngine.Reading.texts lawful fun text member =>
    parses text (List.mem_append_left _ member)
  obtain ⟨stored, _, ofMetadata⟩ := CedarEngine.Reading.texts lawful fun text member =>
    parses text (List.mem_append_right _ member)
  have before := ofConfig "" _ (CedarEngine.Reading.empty lawful)
  have asked : CedarEntityId.fromPrincipal
      (personalRequest actor user rest action).actor.principal = .ok principal := canonical
  obtain ⟨next, appended, reading⟩ := before.scopes lawful asked
  refine ⟨_, _, ?_, ofMetadata _ _ reading, ?_⟩
  · rw [policyForRequest]
    show (appendExplicitScopePolicies _ _).map _ = _
    rw [appended]
    rfl
  · cases engine.scopePolicies (personalRequest actor user rest action) principal <;> rfl

/-- `cedar_decision_with_schema` on the policy text of the request. -/
def CedarEngine.decisionWithSchema (engine : CedarEngine) (configuration : PolicyConfiguration)
    (request : AuthzRequest) : Except PolicyFailure (Except String AuthzDecision) :=
  (configuration.policyForRequest request).map (cedarDecisionWithSchema engine.cedar · request)

/-- What is decided for the actor in one configuration. -/
theorem PolicyConfiguration.Parses.decides {engine : CedarEngine} (lawful : engine.Lawful)
    {configuration : PolicyConfiguration} (parses : configuration.Parses engine) {actor : Actor}
    {principal : CedarEntityId}
    (canonical : CedarEntityId.fromPrincipal actor.principal = .ok principal) {user : String}
    (named : user ≠ "") (segment : '/' ∉ user.toList) (rest : String) (action : OciAction) :
    let request := personalRequest actor user rest action
    let decision : AuthzDecision :=
      if actor.username = some user ∧ explicitScopeGuardAllows request = true then .allow
      else .deny
    (engine.scopePolicies request principal = none →
      engine.authorize configuration request = .ok .deny) ∧
    ((engine.scopePolicies request principal).isSome →
      engine.authorize configuration request = .ok decision ∧
      engine.decisionWithSchema configuration request = .ok (.ok decision)) := by
  intro request decision
  obtain ⟨text, outcome, written, reading, sameRead⟩ :=
    parses.personal lawful canonical user rest action
  rw [CedarEngine.authorize, CedarEngine.decisionWithSchema, written]
  rcases reading.cedar_parse with ⟨isRead, parsed⟩ | ⟨rfl, message, failed⟩
  · have answer : cedarDecisionWithSchema engine.cedar text request = .ok decision :=
      cedarDecisionWithSchema_personal named segment rfl parsed
    refine ⟨fun unread => ?_, fun _ => ⟨?_, congrArg Except.ok answer⟩⟩
    · rw [sameRead, unread] at isRead
      cases isRead
    · refine congrArg Except.ok ?_
      show cedarDecision engine.cedar text request = decision
      rw [cedarDecision, answer]
  · refine ⟨fun _ => congrArg Except.ok ?_, fun isRead => ?_⟩
    · show cedarDecision engine.cedar text request = .deny
      rw [cedarDecision, cedarDecisionWithSchema, failed]
    · rw [← sameRead] at isRead
      cases isRead

/-- For two configurations whose enabled policies parse, with any grants and any groups of the
actor, the decision about a repository of a personal tree is the same. It is to deny for every
actor but the user of the tree, and to allow for that user with an unscoped credential. Cedar
answers it unless it cannot read the permits of the actor's own scope. -/
theorem personal_namespaces_are_independent_of_policies {engine : CedarEngine}
    (lawful : engine.Lawful) {user : String} (named : user ≠ "") (segment : '/' ∉ user.toList)
    (rest : String) (action : OciAction) {first second : PolicyConfiguration}
    (firstParses : first.Parses engine) (secondParses : second.Parses engine) (actor : Actor)
    (groupIds : List ProviderQualifiedId) (displayGroups : List String)
    {principal : CedarEntityId}
    (canonical : CedarEntityId.fromPrincipal actor.principal = .ok principal) :
    let before := personalRequest actor user rest action
    let after := personalRequest (actor.withGroups groupIds displayGroups) user rest action
    ∃ decision : AuthzDecision,
      engine.authorize first before = .ok decision ∧ engine.authorize second after = .ok decision ∧
      (actor.username ≠ some user → decision = .deny) ∧
      (actor.username = some user → actor.tokenType.Unscoped → decision = .allow) ∧
      ((engine.scopePolicies before principal).isSome →
        engine.decisionWithSchema first before = .ok (.ok decision) ∧
        engine.decisionWithSchema second after = .ok (.ok decision)) := by
  intro before after
  have atFirst := firstParses.decides lawful canonical named segment rest action
  have asked : CedarEntityId.fromPrincipal (actor.withGroups groupIds displayGroups).principal =
      .ok principal := canonical
  have atSecond := secondParses.decides lawful asked named segment rest action
  cases readable : engine.scopePolicies before principal with
  | none =>
    refine ⟨.deny, atFirst.1 readable, atSecond.1 readable, fun _ => rfl, ?_, ?_⟩
    · intro _ unscoped
      have noPermits : engine.scopePolicies before principal = some [] :=
        CedarEngine.scopePolicies_unscoped unscoped
      rw [noPermits] at readable
      cases readable
    · intro impossible
      cases impossible
  | some policies =>
    have isRead : (engine.scopePolicies before principal).isSome = true := by
      rw [readable]
      rfl
    refine ⟨_, (atFirst.2 isRead).1, (atSecond.2 isRead).1, fun other => if_neg ?_, ?_,
      fun _ => ⟨(atFirst.2 isRead).2, (atSecond.2 isRead).2⟩⟩
    · exact fun both => other both.1
    · exact fun same unscoped => if_pos ⟨same, explicitScopeGuardAllows_unscoped unscoped⟩

/-- A policy set of the configuration that forbids everything. -/
def lockdown : ConfigPolicySet where
  id := "lockdown"
  name := "lockdown"
  enabled := true
  cedarText := "forbid(principal, action, resource);"

/-- A user may delete in her own tree, also where a policy forbids everything. -/
theorem personal_namespaces_are_independent_of_policies_sample :
    let engine := lineEngine (.exactly ⟨.user, "oidc:user:alice"⟩) (.exactly ⟨.registry, "root"⟩)
    let request := personalRequest (sampleSession "alice").actor "alice" "app" .delete
    engine.authorize ⟨[], StateMachineData.empty⟩ request = .ok .allow ∧
      engine.authorize ⟨[lockdown], StateMachineData.empty⟩ request = .ok .allow := by
  intro engine request
  have openParses : PolicyConfiguration.Parses engine ⟨[], StateMachineData.empty⟩ := by
    intro text member
    cases member
  have closedParses : PolicyConfiguration.Parses engine ⟨[lockdown], StateMachineData.empty⟩ := by
    intro text member
    rw [List.mem_singleton.mp member]
    exact ⟨_, rfl⟩
  have named : "alice" ≠ "" := by decide
  have segment : '/' ∉ "alice".toList := by decide
  obtain ⟨decision, first, second, _, allowed, _⟩ :=
    personal_namespaces_are_independent_of_policies lineEngine_lawful named segment "app" .delete
      openParses closedParses (sampleSession "alice").actor [] [] rfl
  cases allowed rfl (by decide)
  exact ⟨first, second⟩

end Layerhouse
