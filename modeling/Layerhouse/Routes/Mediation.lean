/-
This file puts the middleware in front of the routes. A registry call that reaches
its handler was permitted for the very repository the handler is given: either the
caller signed in and may do what the method and the stored manifest make of the
call, or it is an anonymous read of a repository that is public. A call of the API
reaches its handler with the identity of its caller, which is an administrator's
wherever the path is not one of the two that everybody may use.

The tail of a registry path is taken without escapes and without a slash at its end;
what the middleware makes of other tails is compared in `Routes/Markers`.
-/

import Layerhouse.Auth.LoginRuns
import Layerhouse.Auth.Policies
import Layerhouse.Routes.Names

namespace Layerhouse

/-! ### Paths without escapes -/

structure PlainTail (rest : String) : Prop where
  unescaped : '%' ∉ rest.toList
  closed : rest.toList.getLast? ≠ some '/'

instance (rest : String) : Decidable (PlainTail rest) :=
  decidable_of_iff ('%' ∉ rest.toList ∧ rest.toList.getLast? ≠ some '/')
    ⟨fun known => ⟨known.1, known.2⟩, fun plain => ⟨plain.unescaped, plain.closed⟩⟩

theorem percent_notMem_utf8 {text : List Char} (unescaped : '%' ∉ text) :
    (0x25 : UInt8) ∉ Text.utf8 text := by
  intro member
  obtain ⟨before, after, split⟩ := List.append_of_mem member
  obtain ⟨first, second, rfl, rfl⟩ := Text.utf8_split (by decide) split
  rw [Text.utf8_join (by decide)] at split
  rw [Text.utf8_inj split] at unescaped
  exact unescaped (List.mem_append_right _ List.mem_cons_self)

/-- Nothing is read out of a text without a percent sign. -/
theorem unescape_plain {read : UInt8 → UInt8 → Option UInt8} {text : String}
    (unescaped : '%' ∉ text.toList) : unescape read text = Text.utf8 text.toList := by
  rw [unescape]
  refine Escapes.decode_eq_self_iff.mpr ?_
  rintro ⟨before, second, third, after, symbol, split, _⟩
  refine percent_notMem_utf8 unescaped ?_
  rw [split]
  exact List.mem_append_right _ List.mem_cons_self

theorem percentDecode_plain {text : String} (unescaped : '%' ∉ text.toList) :
    percentDecode text = text := by
  rw [percentDecode, unescape_plain unescaped, Text.fromUtf8_eq_some.mpr rfl]
  exact String.ofList_toList

/-- The repository a plain call is authorized for is the one it is dispatched to. -/
theorem extractRepositoryFromPath_plain {rest : String} (plain : PlainTail rest) {route : Route}
    (routed : dispatch rest = some route) :
    extractRepositoryFromPath ("/v2/" ++ rest) = route.name := by
  have trimmed : trimEndSlashes rest = rest := by
    rw [trimEndSlashes, List.rdropWhile_eq_self_iff.mpr, String.ofList_toList]
    intro present slash
    refine plain.closed ?_
    rw [List.getLast?_eq_some_getLast present, of_decide_eq_true slash]
  have part : repositoryPart rest = some route.name := by
    rw [← trimmed, ← dispatch_name, routed, Option.map_some]
  obtain ⟨after, leads⟩ := repositoryPart_leads part
  have unescaped : '%' ∉ route.name.toList := fun member =>
    plain.unescaped (leads ▸ List.mem_append_left _ member)
  rw [extractRepositoryFromPath_eq, part, Option.getD_some, percentDecode_plain unescaped]

/-! ### What is passed on -/

/-- A read of a public repository by a caller who shows no credential. -/
structure AnonymousPull (reads : MiddlewareReads) (request : HttpRequest) (repository : String) :
    Prop where
  registry : startsWith request.path "/v2/" = true
  credential : extractCredential request.headers = none
  method : request.method = .get ∨ request.method = .head
  repository : isPublicPull reads.publicPull repository = true

variable {app : LoginApp} {service : LoginService} {reads : MiddlewareReads}
  {request : HttpRequest} {identity : Option AuthIdentity}
  {access : Option AuthorizedRepositoryAccess}

theorem passesPublicPull_eq_true {ociAction : Option OciAction}
    {credential : Option RequestCredential}
    (passes : LoginService.passesPublicPull reads request ociAction credential = true) :
    credential = none ∧ startsWith request.path "/v2/" = true ∧
      (request.method = .get ∨ request.method = .head) ∧
      isPublicPull reads.publicPull (extractRepositoryFromPath request.path) = true := by
  simp only [LoginService.passesPublicPull, Bool.and_eq_true, Bool.or_eq_true, decide_eq_true_eq,
    Option.isNone_iff_eq_none] at passes
  obtain ⟨⟨⟨⟨none, registry⟩, _⟩, method⟩, _, allowed⟩ := passes
  refine ⟨none, registry, method, ?_⟩
  unfold LoginService.checkPublicPull at allowed
  split at allowed
  · cases allowed
  · split at allowed
    · assumption
    · cases allowed

/-- What the middleware passes on although nobody signed in for it. -/
inductive Unauthenticated (reads : MiddlewareReads) (request : HttpRequest) : Prop
  | publicPath (isPublic : isPublicPath request.path = true)
  | dashboard (isDashboard : isDashboardRequestPath request.path = true)
  | anonymousPull (pull : AnonymousPull reads request (extractRepositoryFromPath request.path))
  | discovery (isSession : request.path = "/api/v1/session")
      (credential : extractCredential request.headers = none)

/-- Whatever is passed on was authenticated, or is one of the few things that need not be. -/
theorem authMiddleware_next (configured : app.auth = some service)
    (passed : app.authMiddleware reads request = .next identity access) :
    (∃ known, identity = some known ∧ Authenticated service reads request known access) ∨
      identity = none ∧ access = none ∧ Unauthenticated reads request := by
  cases identity with
  | some known => exact Or.inl ⟨known, rfl, authMiddleware_identity configured passed⟩
  | none =>
    refine Or.inr ⟨rfl, ?_⟩
    unfold LoginApp.authMiddleware at passed
    split at passed
    · rename_i isPublic
      cases passed
      exact ⟨rfl, .publicPath isPublic⟩
    split at passed
    · rename_i onError
      cases passed
      exact ⟨rfl, .dashboard (Bool.and_eq_true_iff.mp onError).2⟩
    split at passed
    · rename_i loggedOut
      cases passed
      exact ⟨rfl, .dashboard (Bool.and_eq_true_iff.mp loggedOut).2⟩
    rw [configured] at passed
    dsimp only at passed
    generalize (if startsWith request.path "/v2/" = true then
      some (resolveOciAction reads.resolved request.path request.method) else none) = ociAction
      at passed
    split at passed
    · rename_i passes
      cases passed
      obtain ⟨none, registry, method, isPublic⟩ := passesPublicPull_eq_true passes
      exact ⟨rfl, .anonymousPull ⟨registry, none, method, isPublic⟩⟩
    split at passed
    · rename_i none
      split at passed
      · rename_i isSession
        cases passed
        exact ⟨rfl, .discovery isSession none⟩
      · unfold LoginService.authRequiredResponse at passed
        split at passed
        · cases passed
        · split at passed
          · cases passed
          · cases passed
    · split at passed
      · unfold LoginService.authorizeIdentity at passed
        dsimp only at passed
        split at passed
        · cases passed
        · split at passed
          · split at passed
            · cases passed
            · cases passed
          · cases passed
      · split at passed
        · unfold sessionCookieAuthErrorResponse at passed
          dsimp only at passed
          split at passed
          · cases passed
          · cases passed
        · cases passed

/-! ### Registry and API paths -/

/-- A path does not start in two ways that part. -/
theorem startsWith_apart {path first second : String} (starts : startsWith path first = true)
    (apart : first.toList.isPrefixOf second.toList = false ∧
      second.toList.isPrefixOf first.toList = false) : startsWith path second = false := by
  refine Bool.eq_false_iff.mpr fun other => ?_
  rcases List.prefix_or_prefix_of_prefix (List.isPrefixOf_iff_prefix.mp starts)
    (List.isPrefixOf_iff_prefix.mp other) with below | below
  · exact Bool.eq_false_iff.mp apart.1 (List.isPrefixOf_iff_prefix.mpr below)
  · exact Bool.eq_false_iff.mp apart.2 (List.isPrefixOf_iff_prefix.mpr below)

theorem startsWith_append (lead rest : String) : startsWith (lead ++ rest) lead = true := by
  rw [startsWith, List.isPrefixOf_iff_prefix, String.toList_append]
  exact List.prefix_append _ _

/-- Of the paths of the registry and of the API only a few are public. -/
theorem isPublicPath_protected {path lead : String} (starts : startsWith path lead = true)
    (guarded : lead = "/v2/" ∨ lead = "/api/") (isPublic : isPublicPath path = true) :
    path = "/v2/" ∨ path = "/v2/token" ∨ path = "/api/v1/session/logout" := by
  have assets : startsWith path "/assets/" = false := by
    rcases guarded with rfl | rfl
    · exact startsWith_apart starts (by decide)
    · exact startsWith_apart starts (by decide)
  have brand : startsWith path "/brand/" = false := by
    rcases guarded with rfl | rfl
    · exact startsWith_apart starts (by decide)
    · exact startsWith_apart starts (by decide)
  have oauth2 : startsWith path "/oauth2/" = false := by
    rcases guarded with rfl | rfl
    · exact startsWith_apart starts (by decide)
    · exact startsWith_apart starts (by decide)
  simp only [isPublicPath, Bool.or_eq_true, decide_eq_true_eq, assets, brand, oauth2,
    Bool.false_eq_true, or_false] at isPublic
  rcases isPublic with (((((rfl | rfl) | rfl) | isPublic) | isPublic) | rfl) | isPublic
  · rcases guarded with rfl | rfl
    · revert starts
      decide
    · revert starts
      decide
  · rcases guarded with rfl | rfl
    · revert starts
      decide
    · revert starts
      decide
  · rcases guarded with rfl | rfl
    · revert starts
      decide
    · revert starts
      decide
  · exact Or.inl isPublic
  · exact Or.inr (Or.inl isPublic)
  · rcases guarded with rfl | rfl
    · revert starts
      decide
    · revert starts
      decide
  · exact Or.inr (Or.inr isPublic)

theorem not_isDashboardRequestPath {path lead : String} (starts : startsWith path lead = true)
    (guarded : lead = "/v2/" ∨ lead = "/api/") : isDashboardRequestPath path = false := by
  rcases guarded with rfl | rfl
  · simp [isDashboardRequestPath, starts]
  · simp [isDashboardRequestPath, starts]

/-- A registry call that reaches its handler is permitted for the repository the handler gets,
and a call of the API other than the logout reaches it with an identity, unless it asks who is
signed in. -/
theorem handlers_run_for_permitted_callers (configured : app.auth = some service)
    (passed : app.authMiddleware reads request = .next identity access) :
    (∀ rest route, request.path = "/v2/" ++ rest → PlainTail rest → dispatch rest = some route →
      (identity = none ∧ access = none ∧ AnonymousPull reads request route.name) ∨
      ∃ known allowed credential, identity = some known ∧ access = some allowed ∧
        extractCredential request.headers = some credential ∧
        service.authenticateRequest reads.now reads.validated credential = .ok known ∧
        checkPermission service.tokens.auth reads.permitted known route.name
          (resolveOciAction reads.resolved request.path request.method) = .ok allowed) ∧
    (startsWith request.path "/api/" = true → request.path ≠ "/api/v1/session/logout" →
      (identity = none ∧ request.path = "/api/v1/session" ∧
        extractCredential request.headers = none) ∨
      ∃ known credential, identity = some known ∧
        extractCredential request.headers = some credential ∧
        service.authenticateRequest reads.now reads.validated credential = .ok known ∧
        (startsWith request.path "/api/v1/admin/" = true →
          service.checkAdminAccess reads.permitted known = .ok () ∨
            isNamespaceSelfService request.path = true)) := by
  constructor
  · intro rest route path plain routed
    have starts : startsWith request.path "/v2/" = true := path ▸ startsWith_append "/v2/" rest
    have repository : extractRepositoryFromPath request.path = route.name :=
      path ▸ extractRepositoryFromPath_plain plain routed
    rcases authMiddleware_next configured passed with
      ⟨known, same, authenticated⟩ | ⟨absent, noAccess, passedOpen⟩
    · obtain ⟨credential, brought, validated⟩ := authenticated.credential
      obtain ⟨allowed, granted, permitted⟩ := authenticated.registry starts
      exact Or.inr ⟨known, allowed, credential, same, granted, brought, validated,
        repository ▸ permitted⟩
    · refine Or.inl ⟨absent, noAccess, ?_⟩
      cases passedOpen with
      | publicPath isPublic =>
        exfalso
        rcases isPublicPath_protected starts (Or.inl rfl) isPublic with same | same | same
        · rw [path] at same
          have empty : rest = "" := String.toList_inj.mp (by
            simpa [String.toList_append] using congrArg String.toList same)
          subst empty
          have unrouted : dispatch "" = none := by decide +kernel
          rw [unrouted] at routed
          cases routed
        · rw [path] at same
          have token : rest = "token" := String.toList_inj.mp (by
            simpa [String.toList_append] using congrArg String.toList same)
          subst token
          have unrouted : dispatch "token" = none := by decide +kernel
          rw [unrouted] at routed
          cases routed
        · rw [same] at starts
          revert starts
          decide
      | dashboard isDashboard =>
        rw [not_isDashboardRequestPath starts (Or.inl rfl)] at isDashboard
        cases isDashboard
      | anonymousPull pull => exact repository ▸ pull
      | discovery isSession =>
        exfalso
        rw [isSession] at starts
        revert starts
        decide
  · intro starts notLogout
    rcases authMiddleware_next configured passed with
      ⟨known, same, authenticated⟩ | ⟨absent, noAccess, passedOpen⟩
    · obtain ⟨credential, brought, validated⟩ := authenticated.credential
      refine Or.inr ⟨known, credential, same, brought, validated, fun admin => ?_⟩
      cases selfService : isNamespaceSelfService request.path with
      | false => exact Or.inl (authenticated.admin admin selfService)
      | true => exact Or.inr rfl
    · refine Or.inl ⟨absent, ?_⟩
      cases passedOpen with
      | publicPath isPublic =>
        exfalso
        rcases isPublicPath_protected starts (Or.inr rfl) isPublic with same | same | same
        · rw [same] at starts
          revert starts
          decide
        · rw [same] at starts
          revert starts
          decide
        · exact notLogout same
      | dashboard isDashboard =>
        rw [not_isDashboardRequestPath starts (Or.inr rfl)] at isDashboard
        cases isDashboard
      | anonymousPull pull =>
        have apart : startsWith request.path "/v2/" = false :=
          startsWith_apart starts (by decide)
        rw [pull.registry] at apart
        cases apart
      | discovery isSession credential => exact ⟨isSession, credential⟩

/-- What the middleware reads while one public repository is stored. -/
def publicReads (name : String) : MiddlewareReads where
  now := 0
  resolved := publicRepository name
  publicPull := publicRepository name
  validated := publicRepository name
  permitted := publicRepository name

/-- A read of a tag. -/
def sampleToolsPull (headers : HeaderMap) : HttpRequest where
  method := .get
  path := "/v2/alice/tools/manifests/latest"
  query := none
  headers := headers

theorem authMiddleware_anonymous :
    sampleLoginApp.authMiddleware (publicReads "alice/tools") (sampleToolsPull []) =
      .next none none := by
  decide +kernel

theorem authMiddleware_signedIn :
    sampleLoginApp.authMiddleware (publicReads "alice/tools")
        (sampleToolsPull sampleSessionHeader) =
      .next (some sampleLoginIdentity) (some ⟨"alice/tools", .pull, none⟩) := by
  decide +kernel

/-- A caller who shows no credential reads the public repository, and so does one who is signed
in. -/
theorem handlers_run_for_permitted_callers_tools :
    AnonymousPull (publicReads "alice/tools") (sampleToolsPull []) "alice/tools" ∧
      checkPermission sampleLoginService.tokens.auth (publicReads "alice/tools").permitted
        sampleLoginIdentity "alice/tools" (resolveOciAction (publicReads "alice/tools").resolved
          (sampleToolsPull sampleSessionHeader).path .get) = .ok ⟨"alice/tools", .pull, none⟩ := by
  constructor
  · obtain ⟨registry, _⟩ := handlers_run_for_permitted_callers rfl authMiddleware_anonymous
    rcases registry "alice/tools/manifests/latest" (.manifests "alice/tools" "latest") rfl
      (by decide) (by decide +kernel) with ⟨_, _, pull⟩ | ⟨known, _, _, absurd, _⟩
    · exact pull
    · cases absurd
  · obtain ⟨registry, _⟩ := handlers_run_for_permitted_callers rfl authMiddleware_signedIn
    rcases registry "alice/tools/manifests/latest" (.manifests "alice/tools" "latest") rfl
      (by decide) (by decide +kernel) with
      ⟨absurd, _⟩ | ⟨known, allowed, _, same, granted, _, _, permitted⟩
    · cases absurd
    · obtain rfl := Option.some.inj same
      obtain rfl := Option.some.inj granted
      exact permitted

end Layerhouse
