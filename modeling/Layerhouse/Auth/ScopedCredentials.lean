/-
This file proves that a scoped credential (a personal access token or a minted
bearer) does not outlive the namespace epochs it was bound to. The guard before
Cedar compares the handle of the scope pattern with the live epoch and waives the
comparison for patterns without a handle, with a reserved handle and with another
handle; but a pattern that matches a repository has the repository's handle or is
the wildcard, so for a repository under a live namespace no waiver is reached.
With the epochs of a handle strictly increasing, a credential bound before a
release stays locked out after every reclaim.
-/

import Layerhouse.Raft.Epochs
import Layerhouse.Auth.Authorization

namespace Layerhouse

/-! ### Patterns and handles -/

theorem handleOf_toList {repository handle : String} :
    handleOf repository = .ok handle ↔
      ∃ rest, rest ≠ [] ∧ repository.toList = handle.toList ++ '/' :: rest ∧
        '/' ∉ handle.toList := by
  rw [handleOf_eq_ok]
  constructor
  · rintro ⟨rest, nonempty, rfl, slashless⟩
    refine ⟨rest.toList, fun empty => nonempty ?_, by simp, slashless⟩
    rw [← String.toList_inj, empty]
    rfl
  · rintro ⟨rest, nonempty, textEq, slashless⟩
    refine ⟨String.ofList rest, fun empty => nonempty ?_, ?_, slashless⟩
    · have := congrArg String.toList empty
      simpa using this
    · rw [← String.toList_inj, textEq]
      simp

/-- A pattern other than the wildcard that matches a repository has the repository's handle. -/
theorem handleOf_of_matchRepository {pattern repository handle : String}
    (matched : matchRepository pattern repository = true) (specific : pattern ≠ "*")
    (target : handleOf repository = .ok handle) : handleOf pattern = .ok handle := by
  rw [matchRepository, if_neg specific] at matched
  cases stripped : Text.stripSuffix "/*".toList pattern.toList with
  | none =>
    rw [stripped] at matched
    rw [of_decide_eq_true matched]
    exact target
  | some lead =>
    rw [stripped] at matched
    have patternEq := Text.stripSuffix_eq_some.mp stripped
    obtain ⟨rest, nonempty, repositoryEq, slashless⟩ := handleOf_toList.mp target
    refine handleOf_toList.mpr ?_
    rcases of_decide_eq_true matched with exactly | under
    · -- the repository is what precedes the wildcard
      refine ⟨rest ++ "/*".toList, by simp, ?_, slashless⟩
      rw [patternEq, ← exactly, repositoryEq]
      simp
    · obtain ⟨below, found⟩ := Option.isSome_iff_exists.mp under
      have underEq := Text.stripPrefix_eq_some.mp found
      rw [repositoryEq, List.append_assoc, List.singleton_append] at underEq
      -- the first slash of the repository is inside `lead` or right after it
      rcases List.append_eq_append_iff.mp underEq with ⟨middle, leadEq, restEq⟩ |
          ⟨middle, handleEq, belowEq⟩
      · cases middle with
        | nil =>
          refine ⟨['*'], by simp, ?_, slashless⟩
          rw [patternEq, leadEq]
          simp
        | cons first middle =>
          rw [List.cons_append, List.cons.injEq] at restEq
          obtain ⟨rfl, restEq⟩ := restEq
          refine ⟨middle ++ "/*".toList, by simp, ?_, slashless⟩
          rw [patternEq, leadEq]
          simp
      · cases middle with
        | nil =>
          refine ⟨['*'], by simp, ?_, slashless⟩
          rw [patternEq, handleEq]
          simp
        | cons first middle =>
          rw [List.cons_append, List.cons.injEq] at belowEq
          obtain ⟨rfl, _⟩ := belowEq
          refine absurd ?_ slashless
          rw [handleEq]
          simp

/-! ### The guard -/

theorem matchingScope_eq_some {scopes : List String} {repository : String} {action : OciAction}
    {pattern : String} {allowed : OciAction}
    (found : matchingScope scopes repository action = some (pattern, allowed)) :
    ∃ scope ∈ scopes, parseScope scope = some (pattern, allowed) ∧
      matchRepository pattern repository = true ∧ actionMatches allowed action = true := by
  obtain ⟨scope, member, chosen⟩ := List.exists_of_findSome?_eq_some found
  refine ⟨scope, member, ?_⟩
  cases parsed : parseScope scope with
  | none =>
    rw [parsed] at chosen
    cases chosen
  | some result =>
    obtain ⟨scopePattern, scopeAction⟩ := result
    rw [parsed] at chosen
    simp only at chosen
    split at chosen
    · rename_i covers
      cases chosen
      exact ⟨rfl, covers.1, covers.2⟩
    · cases chosen

theorem exists_matchingScope {scopes : List String} {scope pattern repository : String}
    {highest action : OciAction} (member : scope ∈ scopes)
    (parsed : parseScope scope = some (pattern, highest))
    (matched : matchRepository pattern repository = true)
    (covers : actionMatches highest action = true) :
    ∃ found, matchingScope scopes repository action = some found := by
  refine Option.isSome_iff_exists.mp (List.findSome?_isSome_iff.mpr ⟨scope, member, ?_⟩)
  simp [parsed, matched, covers]

theorem not_unscoped_of_credential {tokenType : TokenType}
    (credential : tokenType = .personalAccess ∨ tokenType = .ociBearer) :
    ¬ (tokenType ≠ .personalAccess ∧ tokenType ≠ .ociBearer) := by
  rintro ⟨notPersonal, notBearer⟩
  exact credential.elim notPersonal notBearer

/-- The guard of a scoped credential. -/
theorem explicitScopeGuardAllows_scoped {request : AuthzRequest}
    (credential : request.actor.tokenType = .personalAccess ∨
      request.actor.tokenType = .ociBearer) :
    explicitScopeGuardAllows request =
      match matchingScope request.actor.scopes request.repository request.action with
      | some (pattern, _) =>
        scopeMatchesNamespaceEpoch request.actor.namespaceEpochs pattern
          (request.resource.map (·.namespaceResource.epoch))
      | none => false := by
  rw [explicitScopeGuardAllows]
  exact if_neg (not_unscoped_of_credential credential)

/-- The guard of a scoped credential found a scope that covers the request, with a pattern that
the epochs of the credential allow. -/
theorem exists_scope_of_guard {request : AuthzRequest}
    (credential : request.actor.tokenType = .personalAccess ∨ request.actor.tokenType = .ociBearer)
    (allowed : explicitScopeGuardAllows request = true) :
    ∃ scope ∈ request.actor.scopes, ∃ pattern action,
      parseScope scope = some (pattern, action) ∧
      matchRepository pattern request.repository = true ∧
      actionMatches action request.action = true ∧
      scopeMatchesNamespaceEpoch request.actor.namespaceEpochs pattern
        (request.resource.map (·.namespaceResource.epoch)) = true := by
  rw [explicitScopeGuardAllows_scoped credential] at allowed
  cases found : matchingScope request.actor.scopes request.repository request.action with
  | none =>
    rw [found] at allowed
    cases allowed
  | some result =>
    obtain ⟨pattern, action⟩ := result
    rw [found] at allowed
    obtain ⟨scope, member, parsed, matched, covers⟩ := matchingScope_eq_some found
    exact ⟨scope, member, pattern, action, parsed, matched, covers, allowed⟩

/-- The guard lets a scoped credential through to a repository under a live namespace only with a
matching scope, and only with the live epoch or the wildcard pattern. -/
theorem explicitScopeGuardAllows_sound {request : AuthzRequest} {epoch : NamespaceEpoch}
    (allowed : explicitScopeGuardAllows request = true)
    (credential : request.actor.tokenType = .personalAccess ∨ request.actor.tokenType = .ociBearer)
    (resolved : request.resource.map (·.namespaceResource.epoch) = some epoch)
    (target : handleOf request.repository = .ok epoch.handle)
    (unreserved : isHandleReserved epoch.handle = false) :
    ∃ scope ∈ request.actor.scopes, ∃ pattern action,
      parseScope scope = some (pattern, action) ∧
      matchRepository pattern request.repository = true ∧
      actionMatches action request.action = true ∧
      (pattern = "*" ∨ epoch ∈ request.actor.namespaceEpochs) := by
  obtain ⟨scope, member, pattern, action, parsed, matched, covers, fits⟩ :=
    exists_scope_of_guard credential allowed
  refine ⟨scope, member, pattern, action, parsed, matched, covers, ?_⟩
  by_cases wildcard : pattern = "*"
  · exact Or.inl wildcard
  · have patternHandle := handleOf_of_matchRepository matched wildcard target
    rw [resolved] at fits
    simp only [scopeMatchesNamespaceEpoch, patternHandle, unreserved] at fits
    simpa using Or.inr fits

theorem epoch_of_fromRepository {repository : String} {live : Namespace}
    {resource : RepositoryResource}
    (built : RepositoryResource.fromRepository repository live = .ok resource) :
    handleOf repository = .ok live.handle ∧
      resource.namespaceResource.epoch = NamespaceEpoch.fromNamespace live := by
  rw [RepositoryResource.fromRepository] at built
  cases target : handleOf repository with
  | error error =>
    rw [target] at built
    cases built
  | ok handle =>
    rw [target] at built
    simp only at built
    split at built
    · cases built
    · rename_i sameHandle
      rw [not_not] at sameHandle
      split at built
      · cases built
      · cases built
        exact ⟨by rw [sameHandle], rfl⟩

/-- An allowed decision passed the guard. -/
theorem guard_of_allow {cedar : Cedar} {policy : String} {request : AuthzRequest}
    (allowed : cedarDecisionWithSchema cedar policy request = .ok .allow) :
    explicitScopeGuardAllows request = true := by
  rw [cedarDecisionWithSchema] at allowed
  cases parsed : cedar.parse policy with
  | error message =>
    rw [parsed] at allowed
    cases allowed
  | ok done =>
    rw [parsed] at allowed
    simp only at allowed
    by_contra blocked
    rw [if_pos blocked] at allowed
    split at allowed
    · cases allowed
    · split at allowed <;> cases allowed

/-! ### Permission checks after a reclaim -/

/-- A permission check on a repository under a live namespace that succeeds was allowed by the
guard, unless it is a pull of a public repository. -/
theorem checkPermission_ok {service : AuthService} {data : StateMachineData}
    {identity : AuthIdentity} {repository handle : String} {action : OciAction}
    {access : AuthorizedRepositoryAccess} {live : Namespace}
    (target : handleOf repository = .ok handle) (unreserved : isHandleReserved handle = false)
    (found : data.namespaces[handle]? = some live)
    (checked : checkPermission service data identity repository action = .ok access) :
    (action = .pull ∧ isPublicPull data repository = true) ∨
      ∃ resource, RepositoryResource.fromRepository repository live = .ok resource ∧
        explicitScopeGuardAllows
          { actor := identity.actor
            repository := repository
            resource := some resource
            action := action } = true := by
  rw [checkPermission, authorizeRepository, repositoryResourceContext, target] at checked
  simp only [unreserved, Bool.false_eq_true, if_false, found] at checked
  cases built : RepositoryResource.fromRepository repository live with
  | error error =>
    rw [built] at checked
    cases checked
  | ok resource =>
    rw [built] at checked
    simp only at checked
    by_cases anonymous : action = .pull ∧ isPublicPull data repository = true
    · exact Or.inl anonymous
    · refine Or.inr ⟨resource, rfl, ?_⟩
      rw [if_neg anonymous] at checked
      cases decided : cedarAuthorizationDecision service data
          { actor := identity.actor
            repository := repository
            resource := some resource
            action := action } with
      | deny =>
        rw [decided] at checked
        cases checked
      | allow =>
        rw [cedarAuthorizationDecision] at decided
        split at decided
        · rw [cedarDecision] at decided
          split at decided
          · rename_i decision allowed
            rw [decided] at allowed
            exact guard_of_allow allowed
          · cases decided
        · cases decided

/-- The generation of a live namespace is at most what was issued in every later state. -/
theorem generation_le_issued {externals : Externals} {handle : String} {live : Namespace}
    {data later : StateMachineData} {labels : List (Nat × Request)}
    (found : data.namespaces[handle]? = some live)
    (continued : run (requestStep externals) data labels = some later) :
    live.generation ≤ (handlePhase later handle).issued := by
  refine run_invariant (fun state => live.generation ≤ (handlePhase state handle).issued)
    ?_ continued (by rw [handlePhase_of_live found]; exact Nat.le_refl _)
  intro state label next stepped bound
  obtain ⟨response, applied⟩ := requestStep_eq_some.mp stepped
  rcases applyRequest_phase applied handle with same | moved
  · rwa [same]
  · exact Nat.le_trans bound moved.issued_le

/-- Every epoch of the handle that the credential is bound to was live in some state of the
run. -/
def RecordedDuring (externals : Externals) (labels : List (Nat × Request)) (handle : String)
    (epochs : List NamespaceEpoch) : Prop :=
  ∀ epoch ∈ epochs, epoch.handle = handle →
    ∃ count state live, run (requestStep externals) StateMachineData.empty (labels.take count) =
        some state ∧ state.namespaces[handle]? = some live ∧ live.generation = epoch.generation

/-- An allowed decision of a scoped credential on a repository under a live namespace rests on a
matching scope that is the wildcard or on the live epoch. So a credential without the wildcard
whose epochs were recorded before a release of a handle is refused on every repository of the
handle once it is reclaimed, except for pulls of public repositories. -/
theorem scoped_credentials_end_with_namespace (service : AuthService) (externals : Externals) :
    (∀ policy request live resource,
      (AuthzRequest.actor request).tokenType = .personalAccess ∨
        (AuthzRequest.actor request).tokenType = .ociBearer →
      isHandleReserved live.handle = false →
      RepositoryResource.fromRepository request.repository live = .ok resource →
      request.resource = some resource →
      cedarDecisionWithSchema service.cedar policy request = .ok .allow →
      ∃ scope ∈ request.actor.scopes, ∃ pattern action,
        parseScope scope = some (pattern, action) ∧
        matchRepository pattern request.repository = true ∧
        actionMatches action request.action = true ∧
        (pattern = "*" ∨ NamespaceEpoch.fromNamespace live ∈ request.actor.namespaceEpochs)) ∧
    (∀ labels data handle release live now released after later current identity repository
        action access,
      run (requestStep externals) StateMachineData.empty labels = some data →
      NamespaceRequest.Releases release handle →
      data.namespaces[handle]? = some live →
      applyRequest externals now data (.namespaces release) = .ok (released, .namespaces .ok) →
      run (requestStep externals) released after = some later →
      later.namespaces[handle]? = some current →
      AuthIdentity.tokenType identity = .personalAccess ∨
        AuthIdentity.tokenType identity = .ociBearer →
      RecordedDuring externals labels handle identity.namespaceEpochs →
      (∀ scope ∈ identity.scopes, ∀ pattern allowed,
        parseScope scope = some (pattern, allowed) → pattern ≠ "*") →
      handleOf repository = .ok handle →
      checkPermission service later identity repository action = .ok access →
      action = .pull ∧ isPublicPull later repository = true) := by
  constructor
  · intro policy request live resource credential unreserved built resolved allowed
    obtain ⟨target, epochEq⟩ := epoch_of_fromRepository built
    refine explicitScopeGuardAllows_sound (guard_of_allow allowed) credential ?_ target unreserved
    rw [resolved, Option.map_some, epochEq]
  · intro labels data handle release live now released after later current identity repository
      action access reached asked found succeeded continued reclaimed credential recorded
      noWildcard target checked
    have reachedReleased : run (requestStep externals) StateMachineData.empty
        (labels ++ (now, .namespaces release) :: after) = some later := by
      refine run_append_eq_some.mpr ⟨data, reached, run_cons_eq_some.mpr ⟨released, ?_, continued⟩⟩
      exact requestStep_eq_some.mpr ⟨_, succeeded⟩
    have valid : LiveNamespace handle current :=
      run_invariant LiveNamespaces (fun _ _ _ stepped => requestStep_liveNamespaces stepped)
        reachedReleased liveNamespaces_empty handle current reclaimed
    rcases checkPermission_ok target valid.unreserved reclaimed checked with anonymous |
        ⟨resource, built, allowed⟩
    · exact anonymous
    · exfalso
      obtain ⟨_, epochEq⟩ := epoch_of_fromRepository built
      have handleEq : (NamespaceEpoch.fromNamespace current).handle = handle := valid.keyed
      obtain ⟨scope, member, pattern, scopeAction, parsed, _, _, wildcard | bound⟩ :=
        explicitScopeGuardAllows_sound allowed credential (congrArg some epochEq)
          (handleEq.symm ▸ target) (handleEq.symm ▸ valid.unreserved)
      · exact noWildcard scope member pattern scopeAction parsed wildcard
      · obtain ⟨count, state, was, reachedState, wasLive, generationEq⟩ :=
          recorded _ bound handleEq
        -- the recorded generation was issued before the release, so its epoch has ended
        have upTo : run (requestStep externals) state (labels.drop count) = some data := by
          rw [← List.take_append_drop count labels] at reached
          obtain ⟨middle, reachedMiddle, rest⟩ := run_append_eq_some.mp reached
          rw [reachedState] at reachedMiddle
          cases reachedMiddle
          exact rest
        have issued := generation_le_issued wasLive upTo
        rw [handlePhase_of_live found] at issued
        have endedNow : (handlePhase released handle).Ended was.generation := by
          rw [handlePhase_of_release asked found succeeded]
          exact issued
        have endedLater : (handlePhase later handle).Ended was.generation :=
          run_invariant (fun state => (handlePhase state handle).Ended was.generation)
            (fun _ _ _ stepped => requestStep_ended stepped) continued endedNow
        rw [handlePhase_of_live reclaimed, generationEq] at endedLater
        exact Nat.lt_irrefl _ endedLater

/-- A service whose one policy permits everything. -/
def samplePermissive : AuthService where
  cedar := ⟨fun _ => .ok (), fun _ _ => .ok .allow⟩
  policyForRequest := fun _ _ => .ok "permit(principal, action, resource);"

/-- A personal access token for one repository, bound to the first epoch of its handle. -/
def sampleToken : AuthIdentity where
  subject := "first"
  principal := ⟨"oidc:user:first"⟩
  username := none
  displayName := none
  email := none
  groups := []
  groupIds := []
  scopes := ["repository:alice/app:pull"]
  namespaceEpochs := [⟨"alice", 1⟩]
  tokenType := .personalAccess

def sampleNamespace : Namespace := ⟨"alice", 1, .user "first", "first", 1⟩

def samplePublicRepository : Request :=
  .repository (.putRepository ⟨"alice/app", "", none, .publicPull, 3⟩ (some ⟨"alice", 2⟩))

/-- The token pulls under its own epoch because it is bound to it, and after a reclaim only
because the repository is public. -/
theorem scoped_credentials_end_with_namespace_sample :
    (∃ scope ∈ sampleToken.scopes, ∃ pattern action,
      parseScope scope = some (pattern, action) ∧ matchRepository pattern "alice/app" = true ∧
      actionMatches action .pull = true ∧
      (pattern = "*" ∨ (⟨"alice", 1⟩ : NamespaceEpoch) ∈ sampleToken.namespaceEpochs)) ∧
    ∃ later, run (requestStep sampleExternals) StateMachineData.empty
        [(0, sampleClaim "alice" "first" false),
          (0, .namespaces (sampleRelease "alice" "first")),
          (0, sampleClaim "alice" "second" true), (0, samplePublicRepository)] = some later ∧
      isPublicPull later "alice/app" = true := by
  obtain ⟨bound, lockedOut⟩ :=
    scoped_credentials_end_with_namespace samplePermissive sampleExternals
  constructor
  · exact bound "permit(principal, action, resource);"
      ⟨sampleToken.actor, "alice/app", some ⟨⟨⟨"alice", 1⟩⟩, "app"⟩, .pull⟩ sampleNamespace
      ⟨⟨⟨"alice", 1⟩⟩, "app"⟩ (.inl rfl) (by decide) rfl rfl rfl
  · have claimed : run (requestStep sampleExternals) StateMachineData.empty
        [(0, sampleClaim "alice" "first" false)] = some _ := rfl
    refine ⟨_, rfl, (lockedOut [(0, sampleClaim "alice" "first" false)] _ "alice"
      (sampleRelease "alice" "first") sampleNamespace 0 _
      [(0, sampleClaim "alice" "second" true), (0, samplePublicRepository)] _
      ⟨"alice", 2, .user "second", "second", 1⟩ sampleToken "alice/app" .pull
      ⟨"alice/app", .pull, some ⟨"alice", 2⟩⟩ claimed (.inl ⟨_, _, _, rfl⟩) rfl rfl rfl rfl
      (.inl rfl) ?_ ?_ rfl rfl).2⟩
    · intro epoch member _
      rw [List.mem_singleton.mp member]
      exact ⟨1, _, sampleNamespace, claimed, rfl, rfl⟩
    · intro scope member pattern allowed parsed
      rw [List.mem_singleton.mp member] at parsed
      have patternEq : pattern = "alice/app" :=
        (Prod.mk.inj (Option.some.inj (parsed.symm.trans (by decide :
          parseScope "repository:alice/app:pull" = some ("alice/app", .pull))))).1
      rw [patternEq]
      decide

end Layerhouse
