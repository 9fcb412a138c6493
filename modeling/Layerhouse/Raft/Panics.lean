/-
This file is about the requests that a replica cannot apply. A committed entry that
panics is replayed by every replica at every restart, so applying should return a
response for every request that can be decoded.

One request does not. The check of a grant reads the kind of its grantee's id, and
reading the kind panics unless the second segment of the id is a kind. Ids are plain
strings where they are decoded, so nothing has checked that before. The file proves
that a request panics exactly when it puts such a grant on a claimed handle.
-/

import Layerhouse.Raft.Effects

namespace Layerhouse

/-- The text between the first two colons of the id is a kind. -/
def ProviderQualifiedId.NamesKind (id : ProviderQualifiedId) : Prop :=
  (id.text.toList.splitOn ':').getD 1 [] = "user".toList ∨
    (id.text.toList.splitOn ':').getD 1 [] = "group".toList

instance (id : ProviderQualifiedId) : Decidable id.NamesKind :=
  inferInstanceAs (Decidable (_ ∨ _))

/-- The user or group that a grant names, if any. -/
def NamespaceGrantGrantee.id? : NamespaceGrantGrantee → Option ProviderQualifiedId
  | .user id | .group id => some id
  | .everyone => none

/-- A grant on a claimed handle to a user or group whose id names no kind. -/
def NamespaceGrant.Malformed (namespaces : BTreeMap String Namespace) (grant : NamespaceGrant) :
    Prop :=
  validateHandle grant.namespaceHandle = .ok () ∧
    namespaces.contains grant.namespaceHandle = true ∧ ∃ id ∈ grant.grantee.id?, ¬ id.NamesKind

/-- The request puts such a grant. -/
def PutsMalformedGrant (data : StateMachineData) : Request → Prop
  | .namespaces (.putGrant grant _ _ _) => grant.Malformed data.namespaces
  | _ => False

/-! ### Reading the kind of an id -/

theorem ProviderQualifiedId.kind_eq_error_iff (id : ProviderQualifiedId) :
    (∃ panic, id.kind = .error panic) ↔ ¬ id.NamesKind := by
  rw [ProviderQualifiedId.kind, ProviderQualifiedId.NamesKind]
  generalize (id.text.toList.splitOn ':').getD 1 [] = segment
  rw [PrincipalKind.fromStr]
  by_cases user : segment = "user".toList
  · rw [user]
    simp
  · have notUser : String.ofList segment ≠ "user" := by
      intro same
      rw [← same] at user
      exact user String.toList_ofList.symm
    rw [if_neg notUser]
    by_cases group : segment = "group".toList
    · rw [group]
      simp
    · have notGroup : String.ofList segment ≠ "group" := by
        intro same
        rw [← same] at group
        exact group String.toList_ofList.symm
      rw [if_neg notGroup]
      exact ⟨fun _ neither => neither.elim user group, fun _ => ⟨_, rfl⟩⟩

theorem ensureKind_eq_error_iff (id : ProviderQualifiedId) (kind : PrincipalKind) :
    (∃ panic, ensureKind id kind = .error panic) ↔ ¬ id.NamesKind := by
  rw [← ProviderQualifiedId.kind_eq_error_iff, ensureKind]
  cases id.kind with
  | error panic => exact ⟨fun _ => ⟨panic, rfl⟩, fun _ => ⟨panic, rfl⟩⟩
  | ok found =>
    simp only
    split
    · exact ⟨fun ⟨_, impossible⟩ => (nomatch impossible), fun ⟨_, impossible⟩ => nomatch impossible⟩
    · exact ⟨fun ⟨_, impossible⟩ => (nomatch impossible), fun ⟨_, impossible⟩ => nomatch impossible⟩

/-! ### Requests that panic -/

theorem validateNamespaceGrant_eq_error_iff (namespaces : BTreeMap String Namespace)
    (grant : NamespaceGrant) :
    (∃ panic, validateNamespaceGrant namespaces grant = .error panic) ↔
      grant.Malformed namespaces := by
  rw [validateNamespaceGrant, NamespaceGrant.Malformed]
  cases validateHandle grant.namespaceHandle with
  | error error =>
    exact ⟨fun ⟨_, impossible⟩ => (nomatch impossible), fun ⟨impossible, _⟩ => nomatch impossible⟩
  | ok done =>
    by_cases claimed : namespaces.contains grant.namespaceHandle = true
    · simp only [claimed, not_true_eq_false, if_false, true_and]
      cases grant.grantee with
      | group id =>
        exact (ensureKind_eq_error_iff id .group).trans (by simp [NamespaceGrantGrantee.id?])
      | user id =>
        exact (ensureKind_eq_error_iff id .user).trans (by simp [NamespaceGrantGrantee.id?])
      | everyone =>
        simp only [NamespaceGrantGrantee.id?]
        split
        · simp
        · simp
    · simp [claimed]

/-- Only the check of a grant panics. -/
theorem applyNamespaceCore_eq_error_iff (tables : NamespaceTables) (hasContent : String → Bool)
    (request : NamespaceRequest) :
    (∃ panic, applyNamespaceCore tables hasContent request = .error panic) ↔
      ∃ grant actorLabel reason auditId, request = .putGrant grant actorLabel reason auditId ∧
        grant.Malformed tables.namespaces := by
  cases request with
  | putGrant grant actorLabel reason auditId =>
    have checked := validateNamespaceGrant_eq_error_iff tables.namespaces grant
    rw [applyNamespaceCore]
    cases outcome : validateNamespaceGrant tables.namespaces grant with
    | error panic =>
      have malformed := checked.mp ⟨panic, outcome⟩
      exact ⟨fun _ => ⟨grant, actorLabel, reason, auditId, rfl, malformed⟩, fun _ => ⟨panic, rfl⟩⟩
    | ok passed =>
      have wellFormed : ¬ grant.Malformed tables.namespaces := by
        intro malformed
        obtain ⟨panic, panicked⟩ := checked.mpr malformed
        cases outcome.symm.trans panicked
      constructor
      · rintro ⟨panic, panicked⟩
        cases passed with
        | error error => cases panicked
        | ok done => cases panicked
      · rintro ⟨_, _, _, _, same, malformed⟩
        cases same
        exact absurd malformed wellFormed
  | _ =>
    constructor
    · rintro ⟨panic, panicked⟩
      cases panicked
    · rintro ⟨_, _, _, _, impossible, _⟩
      cases impossible

theorem applyRequest_eq_error_iff (externals : Externals) (now : Nat) (data : StateMachineData)
    (request : Request) :
    (∃ panic, applyRequest externals now data request = .error panic) ↔
      PutsMalformedGrant data request := by
  cases request with
  | namespaces inner =>
    have ofCore := applyNamespaceCore_eq_error_iff data.namespaceTables data.hasContent inner
    rw [applyRequest, applyNamespace]
    cases outcome : applyNamespaceCore data.namespaceTables data.hasContent inner with
    | error panic =>
      obtain ⟨grant, actorLabel, reason, auditId, rfl, malformed⟩ := ofCore.mp ⟨panic, outcome⟩
      exact ⟨fun _ => malformed, fun _ => ⟨panic, rfl⟩⟩
    | ok result =>
      constructor
      · rintro ⟨panic, panicked⟩
        cases panicked
      · intro malformed
        cases inner with
        | putGrant grant actorLabel reason auditId =>
          obtain ⟨panic, panicked⟩ :=
            ofCore.mpr ⟨grant, actorLabel, reason, auditId, rfl, malformed⟩
          cases outcome.symm.trans panicked
        | _ => exact malformed.elim
  | _ =>
    constructor
    · rintro ⟨panic, panicked⟩
      cases panicked
    · intro impossible
      exact False.elim impossible

/-- Applying a request returns a response exactly when the request puts no malformed grant. -/
theorem apply_returns_iff (externals : Externals) (now : Nat) (data : StateMachineData)
    (request : Request) :
    (∃ next response, applyRequest externals now data request = .ok (next, response)) ↔
      ¬ PutsMalformedGrant data request := by
  rw [← applyRequest_eq_error_iff externals now]
  cases applyRequest externals now data request with
  | error panic =>
    exact ⟨fun ⟨_, _, impossible⟩ => (nomatch impossible),
      fun returns => absurd ⟨panic, rfl⟩ returns⟩
  | ok result =>
    exact ⟨fun _ ⟨_, impossible⟩ => (nomatch impossible), fun _ => ⟨result.1, result.2, rfl⟩⟩

/-- A grant to the user "bob" on the handle "alice". -/
def sampleMalformedGrant : NamespaceGrant where
  id := "grant"
  namespaceHandle := "alice"
  grantee := .user ⟨"bob"⟩
  action := .pull
  label := ""
  createdBy := "first"
  createdAt := 0
  updatedBy := "first"
  updatedAt := 0

/-- It panics once the handle is claimed. -/
theorem malformed_grant_panics :
    ∃ data panic, run (requestStep sampleExternals) StateMachineData.empty
        [(0, sampleClaim "alice" "first" false)] = some data ∧
      applyRequest sampleExternals 0 data
        (.namespaces (.putGrant sampleMalformedGrant "first" "" "audit")) = .error panic := by
  have claimed : (run (requestStep sampleExternals) StateMachineData.empty
      [(0, sampleClaim "alice" "first" false)]).any (fun data =>
        (applyRequest sampleExternals 0 data
          (.namespaces (.putGrant sampleMalformedGrant "first" "" "audit"))).isOk = false) =
      true := by
    decide +kernel
  obtain ⟨data, reached, refused⟩ := (Option.any_eq_true ..).mp claimed
  cases outcome : applyRequest sampleExternals 0 data
      (.namespaces (.putGrant sampleMalformedGrant "first" "" "audit")) with
  | error panic => exact ⟨data, panic, reached, outcome⟩
  | ok result =>
    rw [outcome] at refused
    exact nomatch refused

end Layerhouse
