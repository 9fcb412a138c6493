/-
This file is about the scope list of a limited credential as a set. The list comes
into a decision three times: the guard of `auth/cedar_authorizer.rs` and the
permits of the policy text take the first scope that matches the request, and a
policy can read how many scopes there are.

Which of the matching scopes is first does not matter for the permits, since each
of them permits the action that is asked for. It does not matter for the guard
either, as long as the matching scopes give it the same answer. So the list acts
as a set towards every policy that does not look at the number of scopes.
-/

import Layerhouse.Auth.PersonalNamespaces

namespace Layerhouse

/-! ### The scopes of a request -/

def AuthzRequest.withScopes (request : AuthzRequest) (scopes : List String) : AuthzRequest :=
  { request with actor := { request.actor with scopes := scopes } }

/-- The scope matches the request, with this pattern and action. -/
def ScopeMatches (request : AuthzRequest) (scope : String) (found : String × OciAction) : Prop :=
  matchingScope [scope] request.repository request.action = some found

/-- The answer of the guard on a scope with this pattern. -/
def patternGuard (request : AuthzRequest) (pattern : String) : Bool :=
  scopeMatchesNamespaceEpoch request.actor.namespaceEpochs pattern
    (request.resource.map (·.namespaceResource.epoch))

/-- The matching scopes of a list give the guard the same answer. -/
def GuardsAgree (request : AuthzRequest) (scopes : List String) : Prop :=
  ∀ first ∈ scopes, ∀ second ∈ scopes, ∀ firstFound secondFound,
    ScopeMatches request first firstFound → ScopeMatches request second secondFound →
      patternGuard request firstFound.1 = patternGuard request secondFound.1

theorem matchingScope_cons (scope : String) (rest : List String) (repository : String)
    (action : OciAction) :
    matchingScope (scope :: rest) repository action =
      (matchingScope [scope] repository action).or (matchingScope rest repository action) := by
  simp only [matchingScope, List.findSome?_cons, List.findSome?_nil]
  split <;> rfl

/-- The scope that a list matches with is one of its scopes. -/
theorem exists_scopeMatches {request : AuthzRequest} {scopes : List String}
    {found : String × OciAction}
    (matched : matchingScope scopes request.repository request.action = some found) :
    ∃ scope ∈ scopes, ScopeMatches request scope found := by
  induction scopes with
  | nil => cases matched
  | cons scope rest inductionHypothesis =>
    rw [matchingScope_cons, Option.or_eq_some_iff] at matched
    rcases matched with first | ⟨_, later⟩
    · exact ⟨scope, List.mem_cons_self, first⟩
    · obtain ⟨other, member, matches_⟩ := inductionHypothesis later
      exact ⟨other, List.mem_cons_of_mem scope member, matches_⟩

/-- A list with a matching scope matches. -/
theorem ScopeMatches.matchingScope {request : AuthzRequest} {scope : String}
    {found : String × OciAction} (matches_ : ScopeMatches request scope found)
    {scopes : List String} (member : scope ∈ scopes) :
    ∃ other, Layerhouse.matchingScope scopes request.repository request.action = some other := by
  induction scopes with
  | nil => cases member
  | cons head rest inductionHypothesis =>
    rw [matchingScope_cons]
    rcases List.mem_cons.mp member with rfl | later
    · exact ⟨found, Option.or_eq_some_iff.mpr (Or.inl matches_)⟩
    · obtain ⟨other, matched⟩ := inductionHypothesis later
      cases first : Layerhouse.matchingScope [head] request.repository request.action with
      | none => exact ⟨other, by rw [Option.none_or]; exact matched⟩
      | some earlier => exact ⟨earlier, rfl⟩

/-! ### The policies of everything but the scopes -/

/-- The text is read as policies that all have a property, or refused. -/
def ReadsAs (engine : CedarEngine) (holds : CedarPolicy → Prop) (text : String) : Prop :=
  ∃ outcome, engine.Reading text outcome ∧
    ∀ policies, outcome = some policies → ∀ policy ∈ policies, holds policy

section ReadsAs

variable {engine : CedarEngine} (lawful : engine.Lawful) {holds : CedarPolicy → Prop}
  (ofPermits : ∀ principal action resource, holds (permitPolicy principal action resource))

include lawful in
theorem readsAs_empty : ReadsAs engine holds "" := by
  refine ⟨some [], CedarEngine.Reading.empty lawful, fun policies same policy member => ?_⟩
  cases same
  cases member

include lawful ofPermits in
theorem ReadsAs.permitsFor {text next : String} (reads : ReadsAs engine holds text)
    {principal : ProviderQualifiedId} {scope : CedarEntityId → PrincipalScope}
    {allowed : OciAction} {resource : ResourceScope}
    (appended : appendPermitsFor text principal scope allowed resource = .ok next) :
    ReadsAs engine holds next := by
  obtain ⟨outcome, reading, all⟩ := reads
  rw [appendPermitsFor] at appended
  split at appended
  · cases appended
  · rename_i entity _
    cases appended
    have noPolicies : ∀ policies : List CedarPolicy, none = some policies →
        ∀ policy ∈ policies, holds policy := fun policies impossible => by cases impossible
    cases outcome with
    | none => exact ⟨none, reading.foldl_refused _, noPolicies⟩
    | some policies =>
      by_cases readable : engine.ReadsPermits (scope entity) resource
      · refine ⟨_, reading.permits lawful readable fun _ member =>
          CedarEngine.impliedActions_ne_admin member, fun others same policy member => ?_⟩
        cases same
        rcases List.mem_append.mp member with early | late
        · exact all policies rfl policy early
        · obtain ⟨action, _, rfl⟩ := List.mem_map.mp late
          exact ofPermits _ _ _
      · by_cases noActions : impliedActions allowed = []
        · rw [appendPermitsForActions, noActions]
          exact ⟨some policies, reading, all⟩
        · exact ⟨none, reading.unread lawful readable noActions, noPolicies⟩

include lawful ofPermits in
theorem ReadsAs.owner {text next : String} (reads : ReadsAs engine holds text) {provider : String}
    {owner : Owner} {epoch : NamespaceEpoch}
    (appended : appendNamespaceOwnerPolicies text provider owner epoch = .ok next) :
    ReadsAs engine holds next := by
  unfold appendNamespaceOwnerPolicies at appended
  split at appended
  · cases appended
    exact reads
  · split at appended
    · cases appended
    · exact reads.permitsFor lawful ofPermits appended

include lawful ofPermits in
theorem ReadsAs.grants {epoch : NamespaceEpoch} {grants : List NamespaceGrant}
    {text next : String} (reads : ReadsAs engine holds text)
    (appended : grants.foldlM (appendNamespaceGrantPolicies epoch) text = .ok next) :
    ReadsAs engine holds next := by
  induction grants generalizing text with
  | nil =>
    cases appended
    exact reads
  | cons grant rest inductionHypothesis =>
    rw [List.foldlM_cons] at appended
    cases first : appendNamespaceGrantPolicies epoch text grant with
    | error failure =>
      rw [first] at appended
      cases appended
    | ok middle =>
      rw [first] at appended
      refine inductionHypothesis ?_ appended
      unfold appendNamespaceGrantPolicies at first
      split at first
      · exact reads.permitsFor lawful ofPermits first
      · exact reads.permitsFor lawful ofPermits first
      · cases first
        exact reads

include lawful in
theorem ReadsAs.texts {texts : List String} {text : String} (reads : ReadsAs engine holds text)
    (parses : ∀ added ∈ texts, ∃ policies, engine.parse added = .ok policies)
    (ofTexts : ∀ added ∈ texts, ∀ policies, engine.parse added = .ok policies →
      ∀ policy ∈ policies, holds policy) :
    ReadsAs engine holds (appendEnabledPolicyTexts text texts) := by
  obtain ⟨outcome, reading, all⟩ := reads
  obtain ⟨added, sources, later⟩ := CedarEngine.Reading.texts lawful parses
  refine ⟨_, later text outcome reading, fun policies same policy member => ?_⟩
  obtain ⟨before, found, rfl⟩ := Option.map_eq_some_iff.mp same
  rcases List.mem_append.mp member with early | late
  · exact all before found policy early
  · obtain ⟨source, listed, parsedPolicies, parsed, inside⟩ := sources policy late
    exact ofTexts source listed parsedPolicies parsed policy inside

include lawful ofPermits in
/-- What is read before the permits of a scope. -/
theorem PolicyConfiguration.Parses.readsAs {configuration : PolicyConfiguration}
    (parses : configuration.Parses engine)
    (ofTexts : ∀ added ∈ configuration.enabledConfigTexts ++ configuration.enabledMetadataTexts,
      ∀ policies, engine.parse added = .ok policies → ∀ policy ∈ policies, holds policy)
    {request : AuthzRequest} {text : String}
    (written : configuration.policyBeforeScopes request = .ok text) :
    ReadsAs engine holds text := by
  have empty : ReadsAs engine holds "" := readsAs_empty lawful
  rw [policyBeforeScopes] at written
  simp only at written
  obtain ⟨permits, assembled, rfl⟩ := exceptMap_eq_ok.mp written
  refine ReadsAs.texts lawful ?_ (fun added member => parses added (List.mem_append_left _ member))
    fun added member => ofTexts added (List.mem_append_left _ member)
  split at assembled
  · cases assembled
    exact empty
  · split at assembled
    · cases assembled
      exact empty
    · split at assembled
      · split at assembled
        · cases assembled
        · rename_i policy owned
          exact (empty.owner lawful ofPermits owned).grants lawful ofPermits assembled
      · cases assembled
        exact empty

end ReadsAs

/-! ### The decision on what is read -/

/-- The decision on a request when the policies of its text are known. -/
def readDecision (engine : CedarEngine) (request : AuthzRequest) :
    Option (List CedarPolicy) → AuthzDecision
  | none => .deny
  | some policies =>
    if crossUserPersonalNamespace request ∨ unclaimedWrite request ∨
        ¬ explicitScopeGuardAllows request then .deny
    else if inPersonalNamespace request.actor.username request.repository then .allow
    else
      match CedarRequest.fromRequest request with
      | .error _ => .deny
      | .ok cedarRequest =>
        match engine.validate cedarRequest with
        | .error _ => .deny
        | .ok () => policyDecision policies cedarRequest

theorem cedarDecision_of_reading {engine : CedarEngine} {text : String}
    {outcome : Option (List CedarPolicy)} (reading : engine.Reading text outcome)
    (request : AuthzRequest) :
    cedarDecision engine.cedar text request = readDecision engine request outcome := by
  cases reading with
  | refused always =>
    obtain ⟨message, failed⟩ := always ""
    rw [String.append_empty] at failed
    simp only [cedarDecision, cedarDecisionWithSchema, CedarEngine.cedar, failed, Except.map,
      readDecision]
  | read ended parsed =>
    simp only [cedarDecision, cedarDecisionWithSchema, CedarEngine.cedar, parsed, Except.map,
      readDecision]
    by_cases cross : crossUserPersonalNamespace request = true
    · simp [cross]
    · by_cases unclaimed : unclaimedWrite request = true
      · simp [cross, unclaimed]
      · by_cases guarded : explicitScopeGuardAllows request = true
        · by_cases personal : inPersonalNamespace request.actor.username request.repository = true
          · simp [cross, unclaimed, guarded, personal]
          · simp only [cross, unclaimed, guarded, personal]
            cases CedarRequest.fromRequest request with
            | error panic => simp
            | ok cedarRequest =>
              simp only
              cases engine.validate cedarRequest <;> simp
        · simp [cross, unclaimed, guarded]

/-- The guard of a limited credential. -/
theorem explicitScopeGuardAllows_limited {request : AuthzRequest}
    (limited : ¬ request.actor.tokenType.Unscoped) (scopes : List String) :
    explicitScopeGuardAllows (request.withScopes scopes) =
      (matchingScope scopes request.repository request.action).any
        fun found => patternGuard request found.1 := by
  have stillLimited : ¬ (request.withScopes scopes).actor.tokenType.Unscoped := limited
  unfold explicitScopeGuardAllows
  rw [TokenType.Unscoped] at stillLimited
  rw [if_neg stillLimited]
  have same : matchingScope (request.withScopes scopes).actor.scopes
      (request.withScopes scopes).repository (request.withScopes scopes).action =
        matchingScope scopes request.repository request.action := rfl
  rw [same]
  cases matchingScope scopes request.repository request.action <;> rfl

/-- Without a matching scope nothing is allowed. -/
theorem readDecision_unmatched {engine : CedarEngine} {request : AuthzRequest}
    (limited : ¬ request.actor.tokenType.Unscoped) {scopes : List String}
    (unmatched : matchingScope scopes request.repository request.action = none)
    (outcome : Option (List CedarPolicy)) :
    readDecision engine (request.withScopes scopes) outcome = .deny := by
  cases outcome with
  | none => rfl
  | some policies =>
    have guarded := explicitScopeGuardAllows_limited limited scopes
    rw [unmatched, Option.any_none] at guarded
    rw [readDecision, if_pos]
    exact Or.inr (Or.inr (by rw [guarded]; decide))

/-! ### Policies that do not count scopes -/

def CedarRequest.withScopeCount (request : CedarRequest) (count : Nat) : CedarRequest :=
  { request with context := { request.context with scopeCount := count } }

def CedarPolicy.IgnoresScopeCount (policy : CedarPolicy) : Prop :=
  ∀ request count, policy.applies (request.withScopeCount count) = policy.applies request

/-- No enabled policy looks at the number of scopes; the check of a request looks at its types
only. -/
structure PolicyConfiguration.IgnoresScopeCount (engine : CedarEngine)
    (configuration : PolicyConfiguration) : Prop where
  validate : ∀ request count,
    engine.validate (CedarRequest.withScopeCount request count) = engine.validate request
  texts : ∀ text ∈ configuration.enabledConfigTexts ++ configuration.enabledMetadataTexts,
    ∀ policies, engine.parse text = .ok policies → ∀ policy ∈ policies, policy.IgnoresScopeCount

theorem permitPolicy_ignoresScopeCount (principal : PrincipalScope) (action : OciAction)
    (resource : ResourceScope) : (permitPolicy principal action resource).IgnoresScopeCount := by
  intro request count
  cases principal <;> cases resource <;> rfl

theorem fromRequest_withScopes (request : AuthzRequest) (scopes : List String) :
    CedarRequest.fromRequest (request.withScopes scopes) =
      (CedarRequest.fromRequest request).map fun cedarRequest =>
        cedarRequest.withScopeCount (lenAsI64 scopes.length) := by
  have sameGroups : groupParents (request.withScopes scopes).actor.groupIds =
      groupParents request.actor.groupIds := rfl
  have samePrincipal : (request.withScopes scopes).actor.principal = request.actor.principal := rfl
  rw [CedarRequest.fromRequest, CedarRequest.fromRequest, sameGroups, samePrincipal]
  cases groupParents request.actor.groupIds with
  | error panic => rfl
  | ok groups => cases CedarEntityId.fromPrincipal request.actor.principal <;> rfl

/-- What Cedar is told about a request. -/
theorem fromRequest_eq_ok {request : AuthzRequest} {principal : CedarEntityId}
    (canonical : CedarEntityId.fromPrincipal request.actor.principal = .ok principal)
    {cedarRequest : CedarRequest} (seen : CedarRequest.fromRequest request = .ok cedarRequest) :
    cedarRequest.principal = principal ∧ cedarRequest.action = request.action ∧
      cedarRequest.resource = CedarResource.fromRequest request := by
  rw [CedarRequest.fromRequest, canonical] at seen
  split at seen
  · cases seen
  · cases seen
    exact ⟨rfl, rfl, rfl⟩

/-! ### Which matching scope is first does not matter -/

theorem anyApplies_append (effect : PolicyEffect) (first second : List CedarPolicy)
    (request : CedarRequest) :
    anyApplies effect (first ++ second) request =
      (anyApplies effect first request || anyApplies effect second request) :=
  List.any_append

/-- A policy set with a permit that applies allows whatever no policy forbids. -/
theorem policyDecision_of_permit {policies : List CedarPolicy} {request : CedarRequest}
    (permitted : anyApplies .permit policies request = true) :
    policyDecision policies request =
      if anyApplies .forbid policies request then .deny else .allow := by
  rw [policyDecision, if_pos permitted]

/-- The permits of a scope are no prohibitions. -/
theorem anyApplies_forbid_permits (principal : PrincipalScope) (actions : List OciAction)
    (resource : ResourceScope) (request : CedarRequest) :
    anyApplies .forbid (actions.map (permitPolicy principal · resource)) request = false := by
  rw [anyApplies, List.any_eq_false]
  intro policy member
  obtain ⟨action, _, rfl⟩ := List.mem_map.mp member
  simp [permitPolicy]

/-- The permits of a scope that covers the request apply to it. -/
theorem anyApplies_permits {allowed : OciAction} {request : CedarRequest}
    (covers : request.action ∈ impliedActions allowed) :
    anyApplies .permit ((impliedActions allowed).map
      (permitPolicy (.exactly request.principal) · (.exactly request.resource.entity))) request =
        true := by
  rw [anyApplies, List.any_eq_true]
  refine ⟨_, List.mem_map_of_mem covers, ?_⟩
  simp [permitPolicy, PrincipalScope.covers, ResourceScope.covers]

theorem mem_impliedActions {allowed action : OciAction} (repositoryAction : allowed ≠ .admin)
    (covers : actionMatches allowed action = true) : action ∈ impliedActions allowed := by
  refine List.mem_filter.mpr ⟨?_, covers⟩
  cases action with
  | admin =>
    rw [actionMatches, if_pos (Or.inr rfl), decide_eq_true_eq] at covers
    exact absurd covers repositoryAction
  | _ => decide

/-- What any scope that matches adds to the policies: permits, and none that forbid. -/
theorem policyDecision_scopes {before stored : List CedarPolicy} {request : CedarRequest}
    {allowed : OciAction} (covers : request.action ∈ impliedActions allowed) :
    policyDecision (before ++ (impliedActions allowed).map
        (permitPolicy (.exactly request.principal) · (.exactly request.resource.entity)) ++ stored)
        request =
      if anyApplies .forbid (before ++ stored) request then .deny else .allow := by
  rw [policyDecision_of_permit]
  · simp only [anyApplies_append, anyApplies_forbid_permits, Bool.or_false]
  · simp only [anyApplies_append, anyApplies_permits covers, Bool.or_true, Bool.true_or]

/-- The number of scopes makes no difference to the policies and to the check of the request. -/
def Countless (engine : CedarEngine) (policies : List CedarPolicy) (first second : Nat) : Prop :=
  first = second ∨ (∀ request count,
      engine.validate (CedarRequest.withScopeCount request count) = engine.validate request) ∧
    ∀ policy ∈ policies, policy.IgnoresScopeCount

theorem Countless.validate {engine : CedarEngine} {policies : List CedarPolicy}
    {first second : Nat} (countless : Countless engine policies first second)
    (request : CedarRequest) :
    engine.validate (request.withScopeCount first) =
      engine.validate (request.withScopeCount second) := by
  rcases countless with rfl | ⟨ignored, _⟩
  · rfl
  · rw [ignored, ignored]

theorem Countless.anyApplies {engine : CedarEngine} {policies : List CedarPolicy}
    {first second : Nat} (countless : Countless engine policies first second)
    (effect : PolicyEffect) (request : CedarRequest) :
    anyApplies effect policies (request.withScopeCount first) =
      anyApplies effect policies (request.withScopeCount second) := by
  rcases countless with rfl | ⟨_, ignored⟩
  · rfl
  · rw [Layerhouse.anyApplies, Layerhouse.anyApplies, Bool.eq_iff_iff, List.any_eq_true,
      List.any_eq_true]
    refine exists_congr fun policy => and_congr_right fun member => ?_
    rw [ignored policy member, ignored policy member]

/-- The policies of the text of a request for a limited credential with a matching scope. -/
noncomputable def policiesWithScopes (engine : CedarEngine) (request : AuthzRequest)
    (principal : CedarEntityId) (before : Option (List CedarPolicy)) (stored : List CedarPolicy) :
    Option (List CedarPolicy) :=
  (before.bind fun policies =>
    (engine.scopePolicies request principal).map (policies ++ ·)).map (· ++ stored)

theorem scopePolicies_withScopes {engine : CedarEngine} {request : AuthzRequest}
    (limited : ¬ request.actor.tokenType.Unscoped) {scopes : List String} {pattern : String}
    {allowed : OciAction}
    (matched : matchingScope scopes request.repository request.action = some (pattern, allowed))
    (principal : CedarEntityId) :
    engine.scopePolicies (request.withScopes scopes) principal =
      open Classical in
      if engine.ReadsPermits (.exactly principal)
          (.exactly (CedarResource.fromRequest request).entity) then
        some ((impliedActions allowed).map (permitPolicy (.exactly principal) ·
          (.exactly (CedarResource.fromRequest request).entity)))
      else none := by
  have stillLimited : ¬ (request.withScopes scopes).actor.tokenType.Unscoped := limited
  have stillMatched : matchingScope (request.withScopes scopes).actor.scopes
      (request.withScopes scopes).repository (request.withScopes scopes).action =
        some (pattern, allowed) := matched
  rw [CedarEngine.scopePolicies]
  rw [TokenType.Unscoped] at stillLimited
  rw [if_neg stillLimited, stillMatched]
  rfl

/-- Two lists whose first matching scopes give the guard the same answer lead to the same
decision. -/
theorem readDecision_scopes {engine : CedarEngine} {request : AuthzRequest}
    (limited : ¬ request.actor.tokenType.Unscoped) {scopes others : List String}
    {found other : String × OciAction}
    (matched : matchingScope scopes request.repository request.action = some found)
    (matchedOther : matchingScope others request.repository request.action = some other)
    (sameGuard : patternGuard request found.1 = patternGuard request other.1)
    {principal : CedarEntityId}
    (canonical : CedarEntityId.fromPrincipal request.actor.principal = .ok principal)
    (before : Option (List CedarPolicy)) (stored : List CedarPolicy)
    (countless : ∀ policies, before = some policies →
      Countless engine (policies ++ stored) (lenAsI64 scopes.length) (lenAsI64 others.length)) :
    readDecision engine (request.withScopes scopes)
        (policiesWithScopes engine (request.withScopes scopes) principal before stored) =
      readDecision engine (request.withScopes others)
        (policiesWithScopes engine (request.withScopes others) principal before stored) := by
  obtain ⟨pattern, allowed⟩ := found
  obtain ⟨otherPattern, otherAllowed⟩ := other
  cases before with
  | none => rfl
  | some policies =>
    have covers : ∀ {list : List String} {pattern : String} {allowed : OciAction},
        matchingScope list request.repository request.action = some (pattern, allowed) →
          request.action ∈ impliedActions allowed := by
      intro list pattern allowed matched
      obtain ⟨scope, _, parsed, _, covered⟩ := matchingScope_eq_some matched
      exact mem_impliedActions (parseScope_ne_admin parsed) covered
    rw [policiesWithScopes, policiesWithScopes, scopePolicies_withScopes limited matched,
      scopePolicies_withScopes limited matchedOther]
    split
    · have guards : explicitScopeGuardAllows (request.withScopes scopes) =
          explicitScopeGuardAllows (request.withScopes others) := by
        rw [explicitScopeGuardAllows_limited limited, explicitScopeGuardAllows_limited limited,
          matched, matchedOther]
        exact sameGuard
      simp only [Option.bind_some, Option.map_some, readDecision, guards]
      refine ite_congr rfl (fun _ => rfl) fun _ => ite_congr rfl (fun _ => rfl) fun _ => ?_
      rw [fromRequest_withScopes, fromRequest_withScopes]
      cases seen : CedarRequest.fromRequest request with
      | error panic => rfl
      | ok cedarRequest =>
        obtain ⟨rfl, sameAction, sameResource⟩ := fromRequest_eq_ok canonical seen
        have count := countless policies rfl
        simp only [Except.map, count.validate]
        cases engine.validate (cedarRequest.withScopeCount (lenAsI64 others.length)) with
        | error message => rfl
        | ok _ =>
          have decided : ∀ (number : Nat) (allowed : OciAction),
              request.action ∈ impliedActions allowed →
              policyDecision (policies ++ (impliedActions allowed).map (permitPolicy
                  (.exactly cedarRequest.principal) · (.exactly cedarRequest.resource.entity)) ++
                stored) (cedarRequest.withScopeCount number) =
                if anyApplies .forbid (policies ++ stored) (cedarRequest.withScopeCount number) then
                  .deny else .allow := by
            intro number allowed covered
            have asked : (cedarRequest.withScopeCount number).action ∈ impliedActions allowed :=
              sameAction ▸ covered
            exact policyDecision_scopes asked
          rw [← sameResource]
          show policyDecision _ _ = policyDecision _ _
          rw [decided _ _ (covers matched), decided _ _ (covers matchedOther), count.anyApplies]
    · rfl

/-! ### Scope lists as sets -/

/-- The text of a request for a limited credential, and what is read in it. -/
theorem PolicyConfiguration.Parses.withScopes {engine : CedarEngine} (lawful : engine.Lawful)
    {configuration : PolicyConfiguration} (parses : configuration.Parses engine)
    {request : AuthzRequest} {text : String} {before : Option (List CedarPolicy)}
    (written : configuration.policyBeforeScopes request = .ok text)
    (reading : engine.Reading text before) {principal : CedarEntityId}
    (canonical : CedarEntityId.fromPrincipal request.actor.principal = .ok principal) :
    ∃ stored, (∀ policy ∈ stored, ∃ added ∈ configuration.enabledMetadataTexts, ∃ policies,
        engine.parse added = .ok policies ∧ policy ∈ policies) ∧
      ∀ scopes, engine.authorize configuration (request.withScopes scopes) =
        .ok (readDecision engine (request.withScopes scopes)
          (policiesWithScopes engine (request.withScopes scopes) principal before stored)) := by
  obtain ⟨stored, sources, later⟩ := CedarEngine.Reading.texts lawful fun added member =>
    parses added (List.mem_append_right _ member)
  refine ⟨stored, sources, fun scopes => ?_⟩
  have sameBefore : configuration.policyBeforeScopes (request.withScopes scopes) = .ok text :=
    written
  have samePrincipal : CedarEntityId.fromPrincipal (request.withScopes scopes).actor.principal =
    .ok principal := canonical
  obtain ⟨next, appended, afterScopes⟩ := reading.scopes lawful samePrincipal
  rw [CedarEngine.authorize, policyForRequest, sameBefore]
  simp only [appended]
  exact congrArg Except.ok (cedarDecision_of_reading (later _ _ afterScopes) _)

theorem authorize_failed {engine : CedarEngine} {configuration : PolicyConfiguration}
    {request : AuthzRequest} {failure : PolicyFailure}
    (failed : configuration.policyBeforeScopes request = .error failure) (scopes : List String) :
    engine.authorize configuration (request.withScopes scopes) = .error failure := by
  have sameBefore : configuration.policyBeforeScopes (request.withScopes scopes) =
    .error failure := failed
  rw [CedarEngine.authorize, PolicyConfiguration.policyForRequest, sameBefore]
  rfl

/-- A limited credential whose principal cannot be read fails with every list that matches. -/
theorem authorize_panic {engine : CedarEngine} {configuration : PolicyConfiguration}
    {request : AuthzRequest} (limited : ¬ request.actor.tokenType.Unscoped) {text : String}
    (written : configuration.policyBeforeScopes request = .ok text) {panic : Panic}
    (unreadable : CedarEntityId.fromPrincipal request.actor.principal = .error panic)
    {scopes : List String} {found : String × OciAction}
    (matched : matchingScope scopes request.repository request.action = some found) :
    engine.authorize configuration (request.withScopes scopes) = .error (.panic panic) := by
  have sameBefore : configuration.policyBeforeScopes (request.withScopes scopes) = .ok text :=
    written
  have appended : appendExplicitScopePolicies text (request.withScopes scopes) =
      .error (.panic panic) := by
    have stillLimited : ¬ (request.withScopes scopes).actor.tokenType.Unscoped := limited
    have stillMatched : matchingScope (request.withScopes scopes).actor.scopes
        (request.withScopes scopes).repository (request.withScopes scopes).action =
          some found := matched
    have samePrincipal : CedarEntityId.fromPrincipal
        (request.withScopes scopes).actor.principal = .error panic := unreadable
    rw [TokenType.Unscoped] at stillLimited
    rw [appendExplicitScopePolicies, if_neg stillLimited, stillMatched]
    simp only [appendPermitsFor, samePrincipal]
  rw [CedarEngine.authorize, PolicyConfiguration.policyForRequest, sameBefore]
  simp only [appended]
  rfl

/-- Without a matching scope a limited credential is denied, unless the policy text cannot be
written at all. -/
theorem authorize_unmatched {engine : CedarEngine} (lawful : engine.Lawful)
    {configuration : PolicyConfiguration} (parses : configuration.Parses engine)
    {request : AuthzRequest} (limited : ¬ request.actor.tokenType.Unscoped) {text : String}
    {before : Option (List CedarPolicy)}
    (written : configuration.policyBeforeScopes request = .ok text)
    (reading : engine.Reading text before) {scopes : List String}
    (unmatched : matchingScope scopes request.repository request.action = none) :
    engine.authorize configuration (request.withScopes scopes) = .ok .deny := by
  obtain ⟨stored, _, later⟩ := CedarEngine.Reading.texts lawful fun added member =>
    parses added (List.mem_append_right _ member)
  have sameBefore : configuration.policyBeforeScopes (request.withScopes scopes) = .ok text :=
    written
  have appended : appendExplicitScopePolicies text (request.withScopes scopes) = .ok text := by
    have stillUnmatched : matchingScope (request.withScopes scopes).actor.scopes
        (request.withScopes scopes).repository (request.withScopes scopes).action = none :=
      unmatched
    rw [appendExplicitScopePolicies, stillUnmatched]
    exact ite_self _
  rw [CedarEngine.authorize, PolicyConfiguration.policyForRequest, sameBefore]
  simp only [appended]
  refine congrArg Except.ok ((cedarDecision_of_reading (later _ _ reading) _).trans ?_)
  exact readDecision_unmatched limited unmatched _

/-- Two lists that both match, with scopes that give the guard the same answer, lead to the same
decision. -/
theorem authorize_eq_of_matched {engine : CedarEngine} (lawful : engine.Lawful)
    {configuration : PolicyConfiguration} (parses : configuration.Parses engine)
    {request : AuthzRequest} (limited : ¬ request.actor.tokenType.Unscoped)
    {scopes others : List String} {found other : String × OciAction}
    (matched : matchingScope scopes request.repository request.action = some found)
    (matchedOther : matchingScope others request.repository request.action = some other)
    (sameGuard : patternGuard request found.1 = patternGuard request other.1)
    (countless : scopes.length = others.length ∨ configuration.IgnoresScopeCount engine) :
    engine.authorize configuration (request.withScopes scopes) =
      engine.authorize configuration (request.withScopes others) := by
  cases written : configuration.policyBeforeScopes request with
  | error failure => rw [authorize_failed written, authorize_failed written]
  | ok text =>
    cases canonical : CedarEntityId.fromPrincipal request.actor.principal with
    | error panic =>
      rw [authorize_panic limited written canonical matched,
        authorize_panic limited written canonical matchedOther]
    | ok principal =>
      have ofPermits : ∀ principal action resource, scopes.length = others.length ∨
          (permitPolicy principal action resource).IgnoresScopeCount :=
        fun _ _ _ => Or.inr (permitPolicy_ignoresScopeCount _ _ _)
      have ofTexts : ∀ added ∈ configuration.enabledConfigTexts ++
          configuration.enabledMetadataTexts, ∀ policies, engine.parse added = .ok policies →
            ∀ policy ∈ policies, scopes.length = others.length ∨ policy.IgnoresScopeCount :=
        fun added member policies parsed policy inside => countless.imp_right fun ignored =>
          ignored.texts added member policies parsed policy inside
      obtain ⟨before, reading, all⟩ := parses.readsAs lawful ofPermits ofTexts written
      obtain ⟨stored, sources, decides⟩ := parses.withScopes lawful written reading canonical
      rw [decides, decides]
      refine congrArg Except.ok (readDecision_scopes limited matched matchedOther sameGuard
        canonical before stored fun policies found => ?_)
      rcases countless with sameLength | ignored
      · exact Or.inl (congrArg lenAsI64 sameLength)
      · by_cases sameLength : scopes.length = others.length
        · exact Or.inl (congrArg lenAsI64 sameLength)
        · refine Or.inr ⟨ignored.validate, fun policy member => ?_⟩
          rcases List.mem_append.mp member with early | late
          · exact (all policies found policy early).resolve_left sameLength
          · obtain ⟨added, listed, parsedPolicies, parsed, inside⟩ := sources policy late
            exact ignored.texts added (List.mem_append_right _ listed) parsedPolicies parsed policy
              inside

/-- A list that matches and a longer one whose matching scopes give the guard the same answer. -/
theorem authorize_eq_of_subset {engine : CedarEngine} (lawful : engine.Lawful)
    {configuration : PolicyConfiguration} (parses : configuration.Parses engine)
    {request : AuthzRequest} (limited : ¬ request.actor.tokenType.Unscoped)
    {scopes others : List String} (agree : GuardsAgree request others) (subset : scopes ⊆ others)
    {found : String × OciAction}
    (matched : matchingScope scopes request.repository request.action = some found)
    (countless : scopes.length = others.length ∨ configuration.IgnoresScopeCount engine) :
    engine.authorize configuration (request.withScopes scopes) =
      engine.authorize configuration (request.withScopes others) := by
  obtain ⟨scope, member, matches_⟩ := exists_scopeMatches matched
  obtain ⟨other, matchedOther⟩ := matches_.matchingScope (subset member)
  obtain ⟨otherScope, otherMember, otherMatches⟩ := exists_scopeMatches matchedOther
  have sameGuard := agree scope (subset member) otherScope otherMember _ _ matches_ otherMatches
  exact authorize_eq_of_matched lawful parses limited matched matchedOther sameGuard countless

/-- Two lists with the same scopes, none of which matches. -/
theorem authorize_eq_of_unmatched {engine : CedarEngine} (lawful : engine.Lawful)
    {configuration : PolicyConfiguration} (parses : configuration.Parses engine)
    {request : AuthzRequest} (limited : ¬ request.actor.tokenType.Unscoped)
    {scopes others : List String} (same : ∀ scope, scope ∈ scopes ↔ scope ∈ others)
    (unmatched : matchingScope scopes request.repository request.action = none) :
    engine.authorize configuration (request.withScopes scopes) =
      engine.authorize configuration (request.withScopes others) := by
  have unmatchedOther : matchingScope others request.repository request.action = none := by
    cases matchedOther : matchingScope others request.repository request.action with
    | none => rfl
    | some other =>
      obtain ⟨scope, member, matches_⟩ := exists_scopeMatches matchedOther
      obtain ⟨found, matched⟩ := matches_.matchingScope ((same scope).mpr member)
      rw [unmatched] at matched
      cases matched
  cases written : configuration.policyBeforeScopes request with
  | error failure => rw [authorize_failed written, authorize_failed written]
  | ok text =>
    obtain ⟨before, reading, _⟩ :=
      parses.readsAs lawful (fun _ _ _ => trivial) (fun _ _ _ _ _ _ => trivial) written
    rw [authorize_unmatched lawful parses limited written reading unmatched,
      authorize_unmatched lawful parses limited written reading unmatchedOther]

/-- For every request of a limited credential and every policy set, as long as the matching scopes
give the guard the same answer: lists with the same scopes lead to the same decision, whatever
their order, and also with repetitions when no policy looks at the number of scopes; and then a
further scope never turns an allowed request into a denied one. -/
theorem scope_lists_are_sets {engine : CedarEngine} (lawful : engine.Lawful)
    {configuration : PolicyConfiguration} (parses : configuration.Parses engine)
    {request : AuthzRequest} (limited : ¬ request.actor.tokenType.Unscoped)
    {scopes others : List String} (agree : GuardsAgree request others) :
    (scopes.Perm others → engine.authorize configuration (request.withScopes scopes) =
      engine.authorize configuration (request.withScopes others)) ∧
    (configuration.IgnoresScopeCount engine →
      ((∀ scope, scope ∈ scopes ↔ scope ∈ others) →
        engine.authorize configuration (request.withScopes scopes) =
          engine.authorize configuration (request.withScopes others)) ∧
      (scopes ⊆ others →
        engine.authorize configuration (request.withScopes scopes) = .ok .allow →
          engine.authorize configuration (request.withScopes others) = .ok .allow)) := by
  have sameMembers : (scopes.length = others.length ∨ configuration.IgnoresScopeCount engine) →
      (∀ scope, scope ∈ scopes ↔ scope ∈ others) →
        engine.authorize configuration (request.withScopes scopes) =
          engine.authorize configuration (request.withScopes others) := by
    intro countless same
    cases matched : matchingScope scopes request.repository request.action with
    | none => exact authorize_eq_of_unmatched lawful parses limited same matched
    | some found =>
      exact authorize_eq_of_subset lawful parses limited agree (fun scope => (same scope).mp)
        matched countless
  refine ⟨fun permuted => sameMembers (Or.inl permuted.length_eq) fun scope => permuted.mem_iff,
    fun ignored => ⟨sameMembers (Or.inr ignored), fun subset allowed => ?_⟩⟩
  cases matched : matchingScope scopes request.repository request.action with
  | none =>
    cases written : configuration.policyBeforeScopes request with
    | error failure =>
      rw [authorize_failed written] at allowed
      cases allowed
    | ok text =>
      obtain ⟨before, reading, _⟩ :=
        parses.readsAs lawful (fun _ _ _ => trivial) (fun _ _ _ _ _ _ => trivial) written
      rw [authorize_unmatched lawful parses limited written reading matched] at allowed
      cases allowed
  | some found =>
    rw [← authorize_eq_of_subset lawful parses limited agree subset matched (Or.inr ignored)]
    exact allowed

/-- A pull with a personal access token that is bound to one generation of a namespace, while the
second one is live. -/
def sampleScopedPull (generation : Nat) : AuthzRequest where
  actor := { (sampleSession "alice").actor with
    namespaceEpochs := [⟨"acme", generation⟩]
    tokenType := .personalAccess }
  repository := "acme/app"
  resource := some ⟨⟨⟨"acme", 2⟩⟩, "app"⟩
  action := .pull

def sampleScopeEngine : CedarEngine :=
  lineEngine (.exactly ⟨.user, "oidc:user:alice"⟩) (.exactly ⟨.repository, "acme#2/app"⟩)

def sampleScopeConfiguration (texts : List String) : PolicyConfiguration where
  policySets := texts.map fun text => ⟨"set", "set", true, text⟩
  data :=
    { StateMachineData.empty with
      namespaces := (∅ : BTreeMap String Namespace).insert "acme"
        ⟨"acme", 2, .org ⟨"acme"⟩, "acme", 1⟩ }

/-- The order decides which of two matching scopes the guard sees, and a policy can forbid
credentials with several scopes. -/
theorem scope_lists_are_not_sets :
    let decision := fun texts scopes =>
      (sampleScopeEngine.authorize (sampleScopeConfiguration texts)
        ((sampleScopedPull 1).withScopes scopes)).toOption
    decision [] ["repository:acme/app:pull", "repository:*:pull"] = some .deny ∧
    decision [] ["repository:*:pull", "repository:acme/app:pull"] = some .allow ∧
    let counting :=
      "forbid(principal, action, resource) when \x7b context.scope_count > 1 \x7d;"
    decision [counting] ["repository:*:pull"] = some .allow ∧
    decision [counting] ["repository:*:pull", "repository:*:pull"] = some .deny := by
  refine ⟨?_, ?_, ?_, ?_⟩
  · decide +kernel
  · decide +kernel
  · decide +kernel
  · decide +kernel

/-- With the live generation, the two orders lead to the same decision. -/
theorem scope_lists_are_sets_sample :
    sampleScopeEngine.authorize (sampleScopeConfiguration []) ((sampleScopedPull 2).withScopes
        ["repository:acme/app:pull", "repository:*:pull"]) =
      sampleScopeEngine.authorize (sampleScopeConfiguration []) ((sampleScopedPull 2).withScopes
        ["repository:*:pull", "repository:acme/app:pull"]) := by
  have parses : (sampleScopeConfiguration []).Parses sampleScopeEngine := by
    intro text member
    cases member
  have limited : ¬ (sampleScopedPull 2).actor.tokenType.Unscoped := by decide
  have agree : GuardsAgree (sampleScopedPull 2)
      ["repository:*:pull", "repository:acme/app:pull"] := by
    have passes : ∀ scope ∈ ["repository:*:pull", "repository:acme/app:pull"], ∀ found,
        ScopeMatches (sampleScopedPull 2) scope found →
          patternGuard (sampleScopedPull 2) found.1 = true := by
      intro scope member found matches_
      simp only [List.mem_cons, List.not_mem_nil, or_false] at member
      rcases member with rfl | rfl
      · have same : some ("*", OciAction.pull) = some found := matches_
        cases same
        decide
      · have same : some ("acme/app", OciAction.pull) = some found := matches_
        cases same
        decide
    intro first firstMember second secondMember firstFound secondFound firstMatches secondMatches
    rw [passes first firstMember _ firstMatches, passes second secondMember _ secondMatches]
  exact (scope_lists_are_sets lineEngine_lawful parses limited agree).1 (List.Perm.swap _ _ _)

end Layerhouse
