/-
This file is the action ladder and the scope strings of `auth/permissions.rs`.
A scope is `repository:<pattern>:<actions>`; its pattern may hold one colon of
its own, and its action is the highest of the listed ones. A pattern covers a
repository when it is the wildcard, when it is the repository, or when it ends
in `/*` and the repository is what precedes or lies under it.
-/

import Layerhouse.Library.Text

namespace Layerhouse

inductive OciAction where
  | pull
  | create
  | update
  | delete
  | admin
deriving DecidableEq

/-- Ladder position: higher rank implies all lower actions. -/
def actionRank : OciAction → Nat
  | .pull => 0
  | .create => 1
  | .update => 2
  | .delete => 3
  | .admin => 4

def OciAction.scopeToken : OciAction → String
  | .pull => "pull"
  | .create => "create"
  | .update => "update"
  | .delete => "delete"
  | .admin => "admin"

def parseActionToken (token : List Char) : Option OciAction :=
  let trimmed := String.ofList (Text.trim token)
  if trimmed = "*" ∨ trimmed = "delete" then some .delete
  else if trimmed = "push" ∨ trimmed = "update" then some .update
  else if trimmed = "create" then some .create
  else if trimmed = "pull" then some .pull
  else none

/-- `Iterator::max_by_key` over the ladder: the last of the highest. -/
def maxByRank : List OciAction → Option OciAction
  | [] => none
  | action :: rest =>
    some (rest.foldl (fun best next => if actionRank best ≤ actionRank next then next else best)
      action)

def parseScope (scope : String) : Option (String × OciAction) :=
  match Text.splitn ':' 4 scope.toList with
  | [kind, repo, actions] =>
    if String.ofList kind ≠ "repository" then none
    else (maxByRank ((actions.splitOn ',').filterMap parseActionToken)).map
      (String.ofList repo, ·)
  | [kind, repoHead, repoTail, actions] =>
    if String.ofList kind ≠ "repository" then none
    else (maxByRank ((actions.splitOn ',').filterMap parseActionToken)).map
      (String.ofList (repoHead ++ ':' :: repoTail), ·)
  | _ => none

theorem parseActionToken_ne_admin (token : List Char) : parseActionToken token ≠ some .admin := by
  unfold parseActionToken
  simp only
  split
  · decide
  · split
    · decide
    · split
      · decide
      · split <;> decide

theorem maxByRank_mem {actions : List OciAction} {highest : OciAction}
    (found : maxByRank actions = some highest) : highest ∈ actions := by
  cases actions with
  | nil => cases found
  | cons first rest =>
    cases found
    suffices general : ∀ best, rest.foldl (fun best next =>
        if actionRank best ≤ actionRank next then next else best) best ∈ best :: rest from
      general first
    induction rest with
    | nil => exact fun best => List.mem_singleton.mpr rfl
    | cons next rest inductionHypothesis =>
      intro best
      rw [List.foldl_cons]
      split
      · exact List.mem_cons_of_mem best (inductionHypothesis next)
      · rcases List.mem_cons.mp (inductionHypothesis best) with same | later
        · rw [same]
          exact List.mem_cons_self
        · exact List.mem_cons_of_mem best (List.mem_cons_of_mem next later)

/-- No scope asks for the admin action. -/
theorem parseScope_ne_admin {scope pattern : String} {action : OciAction}
    (parsed : parseScope scope = some (pattern, action)) : action ≠ .admin := by
  have highest : ∀ actions : List Char, maxByRank ((actions.splitOn ',').filterMap
      parseActionToken) = some action → action ≠ .admin := by
    intro actions found isAdmin
    obtain ⟨token, _, read⟩ := List.mem_filterMap.mp (maxByRank_mem found)
    rw [isAdmin] at read
    exact parseActionToken_ne_admin token read
  rw [parseScope] at parsed
  split at parsed
  · split at parsed
    · cases parsed
    · obtain ⟨found, same, pair⟩ := Option.map_eq_some_iff.mp parsed
      cases pair
      exact highest _ same
  · split at parsed
    · cases parsed
    · obtain ⟨found, same, pair⟩ := Option.map_eq_some_iff.mp parsed
      cases pair
      exact highest _ same
  · cases parsed

def matchRepository (pattern repo : String) : Bool :=
  if pattern = "*" then true
  else
    match Text.stripSuffix "/*".toList pattern.toList with
    | some lead =>
      repo.toList = lead ∨ (Text.stripPrefix (lead ++ ['/']) repo.toList).isSome
    | none => pattern = repo

/-- A grant for `allowed` covers a request for `requested`. -/
def actionMatches (allowed requested : OciAction) : Bool :=
  if allowed = .admin ∨ requested = .admin then allowed = requested
  else actionRank requested ≤ actionRank allowed

def matchingScope (scopes : List String) (repository : String) (action : OciAction) :
    Option (String × OciAction) :=
  scopes.findSome? fun scope =>
    match parseScope scope with
    | none => none
    | some (pattern, allowed) =>
      if matchRepository pattern repository ∧ actionMatches allowed action then
        some (pattern, allowed)
      else none

/-- The personal namespace `users/<username>/` of a user. -/
def inPersonalNamespace (username : Option String) (repository : String) : Bool :=
  match username with
  | none => false
  | some username =>
    if username = "" then false
    else (Text.stripPrefix ("users/".toList ++ username.toList ++ ['/'])
      repository.toList).isSome

/-- The user whose personal tree a repository under `users/` lies in. -/
def inPersonalNamespaceOf (repository : String) : Option String :=
  match Text.stripPrefix "users/".toList repository.toList with
  | none => none
  | some rest =>
    let username := (rest.splitOn '/').headD []
    if username = [] then none else some (String.ofList username)

end Layerhouse
