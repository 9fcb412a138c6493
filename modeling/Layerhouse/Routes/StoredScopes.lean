/-
This file is about the scope strings that `create_token` stores. A selection is checked as a
repository and its actions, stored as one string, and read again by `parse_scope` whenever
the token is used.

The parser cuts the string at its first three colons only. The actions behind the repository have
none, so the selection is read back if its repository has at most one. From the
second colon on the repository is read as part of the actions: the token then covers another
repository than the one that was checked, or nothing.
-/

import Layerhouse.Routes.Tokens

namespace Layerhouse

/-! ### Actions -/

/-- The highest of the actions, which the ceiling check asks for. -/
def IsHighest (actions : List OciAction) (highest : OciAction) : Prop :=
  highest ∈ actions ∧ ∀ action ∈ actions, actionRank action ≤ actionRank highest

theorem maxByRank_isHighest {actions : List OciAction} (present : actions ≠ []) :
    ∃ highest, maxByRank actions = some highest ∧ IsHighest actions highest := by
  obtain ⟨first, rest, rfl⟩ := List.exists_cons_of_ne_nil present
  have above : ∀ best, ∀ action ∈ best :: rest, actionRank action ≤ actionRank (rest.foldl
      (fun best next => if actionRank best ≤ actionRank next then next else best) best) := by
    induction rest with
    | nil =>
      intro best action member
      rw [List.mem_singleton.mp member]
      exact Nat.le_refl _
    | cons next rest inductionHypothesis =>
      have later := inductionHypothesis (List.cons_ne_nil first rest)
      intro best action member
      rw [List.foldl_cons]
      split
      · rename_i lower
        rcases List.mem_cons.mp member with rfl | member
        · exact lower.trans (later next next List.mem_cons_self)
        · exact later next action member
      · rename_i higher
        rcases List.mem_cons.mp member with rfl | member
        · exact later action action List.mem_cons_self
        · rcases List.mem_cons.mp member with rfl | member
          · exact (Nat.le_of_not_le higher).trans (later best best List.mem_cons_self)
          · exact later best action (List.mem_cons_of_mem best member)
  exact ⟨_, rfl, maxByRank_mem rfl, above first⟩

theorem parseActionToken_scopeToken {action : OciAction} (repositoryAction : action ≠ .admin) :
    parseActionToken action.scopeToken.toList = some action := by
  cases action with
  | admin => exact absurd rfl repositoryAction
  | _ => decide

theorem comma_notMem_scopeToken (action : OciAction) : ',' ∉ action.scopeToken.toList := by
  cases action <;> decide

theorem colon_notMem_scopeToken (action : OciAction) : ':' ∉ action.scopeToken.toList := by
  cases action <;> decide

/-- The actions as they stand in a scope. -/
def actionsText (actions : List OciAction) : List Char :=
  (",".intercalate (actions.map OciAction.scopeToken)).toList

theorem filterMap_actionsText {actions : List OciAction} (present : actions ≠ [])
    (repositoryActions : .admin ∉ actions) :
    ((actionsText actions).splitOn ',').filterMap parseActionToken = actions := by
  have tokens : (actionsText actions).splitOn ',' = actions.map (·.scopeToken.toList) := by
    rw [actionsText, String.toList_intercalate, show ",".toList = [','] from rfl,
      List.splitOn_intercalate ',' ?_ (by simpa using present), List.map_map]
    · rfl
    · intro token member
      rw [List.map_map] at member
      obtain ⟨action, _, rfl⟩ := List.mem_map.mp member
      exact comma_notMem_scopeToken action
  rw [tokens, List.filterMap_map]
  refine (List.filterMap_congr fun action member => ?_).trans List.filterMap_some
  rw [Function.comp_apply]
  exact parseActionToken_scopeToken fun isAdmin => repositoryActions (isAdmin ▸ member)

theorem colon_notMem_actionsText (actions : List OciAction) : ':' ∉ actionsText actions := by
  rw [actionsText, String.toList_intercalate, List.map_map]
  induction actions with
  | nil => exact List.not_mem_nil
  | cons action actions inductionHypothesis =>
    cases actions with
    | nil =>
      rw [List.map_singleton, List.intercalate_singleton]
      exact colon_notMem_scopeToken action
    | cons next actions =>
      rw [List.map_cons, List.map_cons, List.intercalate_cons_cons, List.mem_append,
        List.mem_append]
      rintro ((inToken | isComma) | later)
      · exact colon_notMem_scopeToken action inToken
      · revert isComma
        decide
      · exact inductionHypothesis later

namespace PatScopeSelection

theorem toList_scopeStr (selection : PatScopeSelection) :
    selection.scopeStr.toList = "repository".toList ++
      ':' :: (selection.repo.toList ++ ':' :: actionsText selection.actions) := by
  rw [scopeStr, String.toList_append, String.toList_append, String.toList_append, actionsText,
    show "repository:".toList = "repository".toList ++ [':'] from rfl,
    show ":".toList = [':'] from rfl, List.append_assoc, List.append_assoc, List.append_assoc,
    List.singleton_append, List.singleton_append]

theorem parseScope_of_le {selection : PatScopeSelection} {highest : OciAction}
    (few : selection.repo.toList.count ':' ≤ 1)
    (read : maxByRank (((actionsText selection.actions).splitOn ',').filterMap parseActionToken) =
      some highest) :
    parseScope selection.scopeStr = some (selection.repo, highest) := by
  have ofKind : ':' ∉ "repository".toList := by decide
  have ofActions := colon_notMem_actionsText selection.actions
  rw [parseScope, toList_scopeStr, Text.splitn_cons_of_notMem ofKind]
  cases halves : Text.splitOnce ':' selection.repo.toList with
  | none =>
    rw [Text.splitn_cons_of_notMem (Text.notMem_of_splitOnce halves),
      Text.splitn_of_notMem ofActions]
    dsimp only
    rw [if_neg (by decide), read, String.ofList_toList]
    rfl
  | some found =>
    obtain ⟨head, tail⟩ := found
    obtain ⟨same, ofHead⟩ := Text.splitOnce_eq_some.mp halves
    have ofTail : ':' ∉ tail := by
      rw [same, List.count_append, List.count_cons_self] at few
      exact List.count_eq_zero.mp (by omega)
    rw [same, List.append_assoc, List.cons_append, Text.splitn_cons_of_notMem ofHead,
      Text.splitn_cons_of_notMem ofTail, Text.splitn_of_notMem ofActions]
    dsimp only
    rw [if_neg (by decide), read, ← same, String.ofList_toList]
    rfl

/-- What is read has one colon at most. -/
theorem count_of_parseScope {scope pattern : String} {action : OciAction}
    (parsed : parseScope scope = some (pattern, action)) : pattern.toList.count ':' ≤ 1 := by
  rw [parseScope] at parsed
  split at parsed
  · rename_i kind repo actions pieces
    have absent : ∀ piece ∈ [kind, repo], ':' ∉ piece := Text.notMem_of_splitn pieces
    split at parsed
    · cases parsed
    · obtain ⟨_, _, same⟩ := Option.map_eq_some_iff.mp parsed
      cases same
      rw [String.toList_ofList, List.count_eq_zero.mpr (absent repo (by simp))]
      exact Nat.zero_le 1
  · rename_i kind repoHead repoTail actions pieces
    have absent : ∀ piece ∈ [kind, repoHead, repoTail], ':' ∉ piece :=
      Text.notMem_of_splitn pieces
    split at parsed
    · cases parsed
    · obtain ⟨_, _, same⟩ := Option.map_eq_some_iff.mp parsed
      cases same
      rw [String.toList_ofList, List.count_append, List.count_cons_self,
        List.count_eq_zero.mpr (absent repoHead (by simp)),
        List.count_eq_zero.mpr (absent repoTail (by simp))]
  · cases parsed

end PatScopeSelection

/-! ### Stored scopes -/

/-- The scope of the selection is read as its repository and the highest of its actions. -/
def PatScopeSelection.ReadBack (selection : PatScopeSelection) : Prop :=
  ∃ highest, IsHighest selection.actions highest ∧
    parseScope selection.scopeStr = some (selection.repo, highest)

theorem PatScopeSelection.readBack_iff {selection : PatScopeSelection}
    (present : selection.actions ≠ []) (repositoryActions : .admin ∉ selection.actions) :
    selection.ReadBack ↔ selection.repo.toList.count ':' ≤ 1 := by
  constructor
  · rintro ⟨highest, _, parsed⟩
    exact count_of_parseScope parsed
  · intro few
    obtain ⟨highest, found, isHighest⟩ := maxByRank_isHighest present
    rw [← filterMap_actionsText present repositoryActions] at found
    exact ⟨highest, isHighest, parseScope_of_le few found⟩

/-- The loop stores the scopes in the order of the selections. -/
theorem checkSelections_scopes {service : AuthService} {data : StateMachineData}
    {identity : AuthIdentity} {selections : List PatScopeSelection} {scopes stored : List String}
    {epochs recorded : List NamespaceEpoch}
    (accepted : checkSelections service data identity selections (scopes, epochs) =
      .ok (stored, recorded)) :
    stored = scopes ++ selections.map (·.scopeStr) := by
  induction selections generalizing scopes epochs with
  | nil =>
    cases accepted
    exact (List.append_nil stored).symm
  | cons first rest inductionHypothesis =>
    rw [checkSelections] at accepted
    split at accepted
    · cases accepted
    · rw [inductionHypothesis accepted, List.append_assoc]
      rfl

/-- A token stores the scopes of the selections it was requested with, and a selection is read
back from its scope if its repository has at most one colon. -/
theorem stored_scopes_read_back_iff {service : TokenService} {data : StateMachineData}
    {identity : AuthIdentity} {request : CreatePatRequest} {draw : TokenDraw}
    {pat : PersonalAccessToken} {response : CreatePatResponse}
    (created : createToken service data identity request draw = .ok (pat, response)) :
    pat.scopes = request.scopes.map (·.scopeStr) ∧
      ∀ selection ∈ request.scopes, selection.actions ≠ [] →
        (selection.ReadBack ↔ selection.repo.toList.count ':' ≤ 1) := by
  rw [createToken] at created
  split at created
  · cases created
  · split at created
    · cases created
    · rename_i stored recorded accepted
      refine ⟨?_, fun selection member present => ?_⟩
      · rw [← congrArg (fun made => made.1.scopes) (Except.ok.inj created)]
        exact checkSelections_scopes accepted
      · obtain ⟨checked, _⟩ := (checkSelections_eq_ok accepted).2 selection member
        obtain ⟨_, repositoryActions, _⟩ := checkSelection_eq_ok.mp checked
        exact selection.readBack_iff present repositoryActions

/-- The creation of a token for one selection, by a session that may delete its repository. -/
def createFor (selection : PatScopeSelection) :
    Except LayerhouseError (PersonalAccessToken × CreatePatResponse) :=
  createToken (unsignedService (permitOnly selection.repo .delete).service)
    (claimedNamespace selection.repo) (sessionOf none) ⟨"token", [selection], none⟩
    ⟨"id", "layerhouse-", 0⟩

/-- The one colon of a port or of a tag is read back. -/
theorem stored_scopes_read_back_iff_port :
    ∃ pat response,
      createFor ⟨" team:5000/app", [.pull, .update]⟩ = .ok (pat, response) ∧
      pat.scopes = ["repository:team:5000/app:pull,update"] ∧
      PatScopeSelection.ReadBack ⟨" team:5000/app", [.pull, .update]⟩ := by
  have stored : (createFor ⟨" team:5000/app", [.pull, .update]⟩).toOption.map (·.1.scopes) =
      some ["repository:team:5000/app:pull,update"] := by decide +kernel
  obtain ⟨made, created, scopesEq⟩ := Option.map_eq_some_iff.mp stored
  obtain ⟨_, readBack⟩ := stored_scopes_read_back_iff (exceptToOption_eq_some.mp created)
  exact ⟨made.1, made.2, exceptToOption_eq_some.mp created, scopesEq,
    (readBack _ List.mem_cons_self (List.cons_ne_nil _ _)).mpr (by decide)⟩

/-- With a second colon the first action is lost and the scope covers another repository. -/
theorem stored_scope_covers_other_repository :
    ∃ pat response,
      createFor ⟨"a:b:c", [.pull, .update]⟩ = .ok (pat, response) ∧
      pat.scopes = ["repository:a:b:c:pull,update"] ∧
      parseScope "repository:a:b:c:pull,update" = some ("a:b", .update) ∧
      ¬ PatScopeSelection.ReadBack ⟨"a:b:c", [.pull, .update]⟩ := by
  have stored : (createFor ⟨"a:b:c", [.pull, .update]⟩).toOption.map (·.1.scopes) =
      some ["repository:a:b:c:pull,update"] := by decide +kernel
  obtain ⟨made, created, scopesEq⟩ := Option.map_eq_some_iff.mp stored
  refine ⟨made.1, made.2, exceptToOption_eq_some.mp created, scopesEq, by decide, ?_⟩
  rintro ⟨highest, _, parsed⟩
  have other : parseScope (PatScopeSelection.scopeStr ⟨"a:b:c", [.pull, .update]⟩) =
      some ("a:b", .update) := by decide
  rw [other, Option.some.injEq, Prod.mk.injEq] at parsed
  exact absurd parsed.1 (by decide)

end Layerhouse
