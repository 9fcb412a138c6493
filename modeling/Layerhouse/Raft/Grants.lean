/-
This file proves the invariants of the namespace tables: no handle is both live
and released, grants exist for live handles only and are stored under their own
id and handle, a public grant is a pull grant, and no handle has an empty map of
grants. An update of a grant keeps its creator.

Each invariant is kept by every move of the namespace tables; the other domains
leave the tables as they are.
-/

import Layerhouse.Raft.Epochs

namespace Layerhouse

/-! ### The grants of a table -/

namespace NamespaceTables

/-- The grant stored under an id of a handle. -/
def grant? (tables : NamespaceTables) (handle id : String) : Option NamespaceGrant :=
  BTreeMap.entry? tables.namespaceGrants handle id

theorem grant?_release (tables : NamespaceTables) (released : String) (live : Namespace)
    (actor : Subject) (reason : ReleaseReason) (now : Nat) (handle id : String) :
    (tables.release released live actor reason now).grant? handle id =
      if released = handle then none else tables.grant? handle id :=
  BTreeMap.entry?_erase tables.namespaceGrants released handle id

/-- The grant a `putGrant` stores, which is also the one it answers. -/
theorem putGrant_snd (tables : NamespaceTables) (grant : NamespaceGrant)
    (actorLabel reason auditId : String) :
    (tables.putGrant grant actorLabel reason auditId).2 =
      (tables.grant? grant.namespaceHandle grant.id).elim grant fun existing =>
        { grant with createdBy := existing.createdBy, createdAt := existing.createdAt } := by
  unfold putGrant
  simp only [BTreeMap.getElem?_getD_empty, grant?]
  cases BTreeMap.entry? tables.namespaceGrants grant.namespaceHandle grant.id <;> rfl

theorem putGrant_namespaceGrants (tables : NamespaceTables) (grant : NamespaceGrant)
    (actorLabel reason auditId : String) :
    (tables.putGrant grant actorLabel reason auditId).1.namespaceGrants =
      tables.namespaceGrants.insert grant.namespaceHandle
        ((tables.namespaceGrants[grant.namespaceHandle]?.getD ∅).insert grant.id
          (tables.putGrant grant actorLabel reason auditId).2) := by
  unfold putGrant
  simp only [audit]
  cases (tables.namespaceGrants[grant.namespaceHandle]?.getD ∅)[grant.id]? <;> rfl

theorem grant?_putGrant (tables : NamespaceTables) (grant : NamespaceGrant)
    (actorLabel reason auditId handle id : String) :
    (tables.putGrant grant actorLabel reason auditId).1.grant? handle id =
      if grant.namespaceHandle = handle ∧ grant.id = id then
        some (tables.putGrant grant actorLabel reason auditId).2
      else tables.grant? handle id := by
  rw [grant?, putGrant_namespaceGrants, BTreeMap.entry?_put]
  rfl

/-- Removing a grant removes that grant and no other one. -/
theorem grant?_removeGrant (tables : NamespaceTables) (removed grantId handle id : String) :
    (tables.removeGrant removed grantId).grant? handle id =
      if removed = handle ∧ grantId = id then none else tables.grant? handle id := by
  unfold removeGrant
  cases found : tables.namespaceGrants[removed]? with
  | none =>
    by_cases same : removed = handle ∧ grantId = id
    · rw [if_pos same, ← same.1]
      simp only [grant?, BTreeMap.entry?, found, Option.bind_none]
    · rw [if_neg same]
  | some grants =>
    have erased : BTreeMap.entry? (tables.namespaceGrants.insert removed (grants.erase grantId))
        handle id = if removed = handle ∧ grantId = id then none
          else tables.grant? handle id := by
      rw [BTreeMap.entry?_insert, BTreeMap.getElem?_erase, grant?]
      by_cases same : removed = handle
      · subst same
        rw [if_pos rfl, BTreeMap.entry?_of_getElem? found]
        simp only [true_and]
      · rw [if_neg same, if_neg fun both => same both.1]
    simp only
    split
    · rename_i emptied
      -- Dropping the key of an empty map reads the same as keeping the empty map.
      rw [← erased, grant?, BTreeMap.entry?_insert, BTreeMap.entry?_erase,
        Std.ExtTreeMap.isEmpty_iff.mp emptied, BTreeMap.getElem?_empty]
    · exact erased

end NamespaceTables

/-! ### The invariant -/

/-- What holds of every stored grant: it is stored under its own id and handle, and when it is
public it allows pulls only. -/
structure StoredGrant (handle id : String) (grant : NamespaceGrant) : Prop where
  keyed : grant.id = id
  placed : grant.namespaceHandle = handle
  pullOnly : grant.grantee = .everyone → grant.action = .pull

/-- The invariants of the tables of grants and released handles. -/
structure GrantsConsistent (tables : NamespaceTables) : Prop where
  disjoint : ∀ handle : String, tables.namespaces[handle]? = none ∨
    tables.releasedHandles[handle]? = none
  claimed : ∀ (handle : String) grants, tables.namespaceGrants[handle]? = some grants →
    tables.namespaces[handle]? ≠ none
  nonempty : ∀ handle : String, tables.namespaceGrants[handle]? ≠ some ∅
  stored : ∀ handle id grant, tables.grant? handle id = some grant → StoredGrant handle id grant

theorem grantsConsistent_empty : GrantsConsistent StateMachineData.empty.namespaceTables where
  disjoint := fun handle => Or.inl (BTreeMap.getElem?_empty handle)
  claimed := fun handle grants found =>
    absurd ((BTreeMap.getElem?_empty handle).symm.trans found) (Option.some_ne_none grants).symm
  nonempty := fun handle found =>
    absurd ((BTreeMap.getElem?_empty handle).symm.trans found) (Option.some_ne_none ∅).symm
  stored := fun handle id grant found =>
    absurd ((BTreeMap.entry?_empty handle id).symm.trans found) (Option.some_ne_none grant).symm

/-- A grant that passed its checks is on a claimed handle, and pull-only when it is public. -/
theorem validateNamespaceGrant_eq_ok {namespaces : BTreeMap String Namespace}
    {grant : NamespaceGrant} (checked : validateNamespaceGrant namespaces grant = .ok (.ok ())) :
    namespaces[grant.namespaceHandle]? ≠ none ∧
      (grant.grantee = .everyone → grant.action = .pull) := by
  unfold validateNamespaceGrant at checked
  split at checked
  · cases checked
  · split at checked
    · cases checked
    · rename_i claimed
      refine ⟨?_, fun toEveryone => ?_⟩
      · have present := not_not.mp claimed
        rw [Std.ExtTreeMap.contains_iff_mem, BTreeMap.mem_iff] at present
        exact Option.ne_none_iff_exists'.mpr present
      · rw [toEveryone] at checked
        simp only at checked
        split at checked
        · cases checked
        · rename_i pulls
          exact not_not.mp pulls

namespace GrantsConsistent

variable {tables : NamespaceTables}

theorem claim (holds : GrantsConsistent tables) (handle : String) (live : Namespace) :
    GrantsConsistent { tables with
      releasedHandles := tables.releasedHandles.erase handle
      namespaces := tables.namespaces.insert handle live } where
  disjoint := by
    intro other
    simp only [BTreeMap.getElem?_insert, BTreeMap.getElem?_erase]
    split
    · exact Or.inr rfl
    · exact holds.disjoint other
  claimed := by
    intro other grants found
    simp only [BTreeMap.getElem?_insert]
    split
    · exact Option.some_ne_none live
    · exact holds.claimed other grants found
  nonempty := holds.nonempty
  stored := holds.stored

theorem release (holds : GrantsConsistent tables) (handle : String) (live : Namespace)
    (actor : Subject) (reason : ReleaseReason) (now : Nat) :
    GrantsConsistent (tables.release handle live actor reason now) where
  disjoint := by
    intro other
    simp only [NamespaceTables.release, BTreeMap.getElem?_insert, BTreeMap.getElem?_erase]
    split
    · exact Or.inl rfl
    · exact holds.disjoint other
  claimed := by
    intro other grants found
    simp only [NamespaceTables.release, BTreeMap.getElem?_erase] at found ⊢
    split at found
    · cases found
    · rename_i different
      rw [if_neg different]
      exact holds.claimed other grants found
  nonempty := by
    intro other found
    simp only [NamespaceTables.release, BTreeMap.getElem?_erase] at found
    split at found
    · cases found
    · exact holds.nonempty other found
  stored := by
    intro other id grant found
    rw [NamespaceTables.grant?_release] at found
    split at found
    · cases found
    · exact holds.stored other id grant found

/-- The tables with the same handles and other grants, each of which passed its checks. -/
theorem regrant (holds : GrantsConsistent tables) {next : NamespaceTables}
    (sameNamespaces : next.namespaces = tables.namespaces)
    (sameReleased : next.releasedHandles = tables.releasedHandles)
    (claimed : ∀ (handle : String) grants, next.namespaceGrants[handle]? = some grants →
      tables.namespaces[handle]? ≠ none)
    (nonempty : ∀ handle : String, next.namespaceGrants[handle]? ≠ some ∅)
    (stored : ∀ handle id grant, next.grant? handle id = some grant →
      StoredGrant handle id grant) :
    GrantsConsistent next where
  disjoint := by
    rw [sameNamespaces, sameReleased]
    exact holds.disjoint
  claimed := by
    rw [sameNamespaces]
    exact claimed
  nonempty := nonempty
  stored := stored

theorem putGrant (holds : GrantsConsistent tables) {grant : NamespaceGrant}
    (checked : validateNamespaceGrant tables.namespaces grant = .ok (.ok ()))
    (actorLabel reason auditId : String) :
    GrantsConsistent (tables.putGrant grant actorLabel reason auditId).1 := by
  obtain ⟨live, pullOnly⟩ := validateNamespaceGrant_eq_ok checked
  refine holds.regrant rfl rfl ?_ ?_ ?_
  · intro handle grants found
    rw [NamespaceTables.putGrant_namespaceGrants, BTreeMap.getElem?_insert] at found
    split at found
    · rename_i same
      rw [← same]
      exact live
    · exact holds.claimed handle grants found
  · intro handle found
    rw [NamespaceTables.putGrant_namespaceGrants, BTreeMap.getElem?_insert] at found
    split at found
    · have stored := congrArg (·[grant.id]?) (Option.some.inj found)
      simp only [BTreeMap.getElem?_insert, BTreeMap.getElem?_empty, if_pos] at stored
      cases stored
    · exact holds.nonempty handle found
  · intro handle id other found
    rw [NamespaceTables.grant?_putGrant] at found
    split at found
    · rename_i same
      obtain ⟨rfl, rfl⟩ := same
      cases found
      rw [NamespaceTables.putGrant_snd]
      cases tables.grant? grant.namespaceHandle grant.id with
      | none => exact ⟨rfl, rfl, pullOnly⟩
      | some existing => exact ⟨rfl, rfl, pullOnly⟩
    · exact holds.stored handle id other found

theorem removeGrant (holds : GrantsConsistent tables) (handle grantId : String) :
    GrantsConsistent (tables.removeGrant handle grantId) := by
  obtain ⟨sameNamespaces, sameReleased⟩ := removeGrant_handles tables handle grantId
  have kept : ∀ (other : String) grants,
      (tables.removeGrant handle grantId).namespaceGrants[other]? = some grants →
        grants ≠ ∅ ∧ tables.namespaces[other]? ≠ none := by
    intro other grants found
    have original : tables.namespaceGrants[other]? = some grants →
        grants ≠ ∅ ∧ tables.namespaces[other]? ≠ none := fun lookup =>
      ⟨fun emptied => holds.nonempty other (emptied ▸ lookup), holds.claimed other grants lookup⟩
    unfold NamespaceTables.removeGrant at found
    cases before : tables.namespaceGrants[handle]? with
    | none =>
      rw [before] at found
      exact original found
    | some inners =>
      rw [before] at found
      simp only at found
      split at found
      · rw [BTreeMap.getElem?_erase] at found
        split at found
        · cases found
        · exact original found
      · rename_i remaining
        rw [BTreeMap.getElem?_insert] at found
        split at found
        · rename_i same
          cases found
          rw [← same]
          exact ⟨fun emptied => remaining (Std.ExtTreeMap.isEmpty_iff.mpr emptied),
            holds.claimed handle inners before⟩
        · exact original found
  refine holds.regrant sameNamespaces sameReleased (fun other grants found =>
    (kept other grants found).2) (fun other found => (kept other ∅ found).1 rfl) ?_
  intro other id grant found
  rw [NamespaceTables.grant?_removeGrant] at found
  split at found
  · cases found
  · exact holds.stored other id grant found

/-- Every move keeps the invariant. -/
theorem move {hasContent : String → Bool} {request : NamespaceRequest} {next : NamespaceTables}
    {answer : Except LayerhouseError NamespaceResponse} (holds : GrantsConsistent tables)
    (moved : NamespaceMove tables hasContent request next answer) : GrantsConsistent next := by
  cases moved with
  | refused => exact holds
  | claimed valid unreserved unclaimed assigned => exact holds.claim _ _
  | released asked found contentless => exact holds.release _ _ _ _ _
  | granted checked => exact holds.putGrant checked _ _ _
  | ungranted claimed absent => exact holds.removeGrant _ _
  | @withdrawn handle grantId _ _ _ _ _ _ _ claimed found =>
    have removed := holds.removeGrant handle grantId
    exact removed.regrant rfl rfl removed.claimed removed.nonempty removed.stored
  | observed => exact holds.regrant rfl rfl holds.claimed holds.nonempty holds.stored

end GrantsConsistent

/-! ### Updates of a grant -/

/-- A move that leaves a grant in place leaves its creator and its creation time. -/
theorem NamespaceMove.creator {tables next : NamespaceTables} {hasContent : String → Bool}
    {request : NamespaceRequest} {answer : Except LayerhouseError NamespaceResponse}
    (moved : NamespaceMove tables hasContent request next answer) {handle id : String}
    {before after : NamespaceGrant} (foundBefore : tables.grant? handle id = some before)
    (foundAfter : next.grant? handle id = some after) :
    after.createdBy = before.createdBy ∧ after.createdAt = before.createdAt := by
  have ofSame : next.grant? handle id = tables.grant? handle id →
      after.createdBy = before.createdBy ∧ after.createdAt = before.createdAt := by
    intro same
    rw [same, foundBefore] at foundAfter
    cases foundAfter
    exact ⟨rfl, rfl⟩
  cases moved with
  | refused => exact ofSame rfl
  | claimed valid unreserved unclaimed assigned => exact ofSame rfl
  | released asked found contentless =>
    rw [NamespaceTables.grant?_release] at foundAfter
    split at foundAfter
    · cases foundAfter
    · rw [foundBefore] at foundAfter
      cases foundAfter
      exact ⟨rfl, rfl⟩
  | @granted grant _ _ _ checked =>
    rw [NamespaceTables.grant?_putGrant] at foundAfter
    split at foundAfter
    · rename_i same
      obtain ⟨rfl, rfl⟩ := same
      rw [NamespaceTables.putGrant_snd, foundBefore] at foundAfter
      cases foundAfter
      exact ⟨rfl, rfl⟩
    · rw [foundBefore] at foundAfter
      cases foundAfter
      exact ⟨rfl, rfl⟩
  | ungranted claimed absent =>
    rw [NamespaceTables.grant?_removeGrant] at foundAfter
    split at foundAfter
    · cases foundAfter
    · rw [foundBefore] at foundAfter
      cases foundAfter
      exact ⟨rfl, rfl⟩
  | @withdrawn removed grantId _ _ _ _ _ _ event claimed found =>
    change (tables.removeGrant removed grantId).grant? handle id = some after at foundAfter
    rw [NamespaceTables.grant?_removeGrant] at foundAfter
    split at foundAfter
    · cases foundAfter
    · rw [foundBefore] at foundAfter
      cases foundAfter
      exact ⟨rfl, rfl⟩
  | observed => exact ofSame rfl

/-! ### Runs -/

/-- A request of another domain leaves the namespace tables, and a namespace request makes a
move. -/
theorem applyRequest_namespaceTables {externals : Externals} {now : Nat}
    {data next : StateMachineData} {request : Request} {response : Response}
    (applied : applyRequest externals now data request = .ok (next, response)) :
    next.namespaceTables = data.namespaceTables ∨
      ∃ inner answer, request = .namespaces inner ∧
        NamespaceMove data.namespaceTables data.hasContent inner next.namespaceTables answer := by
  have framed := congrArg StateMachineData.namespaceTables (applyRequest_frame applied)
  cases request with
  | namespaces inner =>
    obtain ⟨answer, outcome, _⟩ := applyNamespace_of_applied applied
    exact Or.inr ⟨inner, answer, rfl, (applyNamespace_move outcome).2⟩
  | _ => exact Or.inl framed

theorem GrantsConsistent.applyRequest {externals : Externals} {now : Nat}
    {data next : StateMachineData} {request : Request} {response : Response}
    (holds : GrantsConsistent data.namespaceTables)
    (applied : Layerhouse.applyRequest externals now data request = .ok (next, response)) :
    GrantsConsistent next.namespaceTables := by
  rcases applyRequest_namespaceTables applied with same | ⟨inner, answer, _, moved⟩
  · rw [same]
    exact holds
  · exact holds.move moved

/-- The grants of every state that a run of requests reaches are consistent. -/
theorem run_grantsConsistent {externals : Externals} {labels : List (Nat × Request)}
    {data : StateMachineData}
    (reached : run (requestStep externals) StateMachineData.empty labels = some data) :
    GrantsConsistent data.namespaceTables := by
  refine run_invariant (fun data => GrantsConsistent data.namespaceTables) ?_ reached
    grantsConsistent_empty
  intro state label next stepped holds
  obtain ⟨response, applied⟩ := requestStep_eq_some.mp stepped
  exact holds.applyRequest applied

/-- In every state that a run of requests reaches, live and released handles are disjoint, every
live namespace is well formed, the grants are those of live handles, stored under their own id
and handle, with no empty map, and public ones are pull grants; and whatever request comes next,
a grant that it leaves in place keeps its creator. -/
theorem namespaces_consistent (externals : Externals) (labels : List (Nat × Request))
    (data : StateMachineData)
    (reached : run (requestStep externals) StateMachineData.empty labels = some data) :
    LiveNamespaces data ∧ GrantsConsistent data.namespaceTables ∧
      ∀ now request next response,
        applyRequest externals now data request = .ok (next, response) →
          ∀ handle id before after, data.namespaceTables.grant? handle id = some before →
            next.namespaceTables.grant? handle id = some after →
              after.createdBy = before.createdBy ∧ after.createdAt = before.createdAt := by
  refine ⟨?_, run_grantsConsistent reached, ?_⟩
  · exact run_invariant LiveNamespaces
      (fun state label next stepped holds => requestStep_liveNamespaces stepped holds) reached
      liveNamespaces_empty
  · intro now request next response applied handle id before after foundBefore foundAfter
    rcases applyRequest_namespaceTables applied with same | ⟨inner, answer, _, moved⟩
    · rw [same, foundBefore] at foundAfter
      cases foundAfter
      exact ⟨rfl, rfl⟩
    · exact moved.creator foundBefore foundAfter

/-- A public pull grant on a handle, as its author sends it. -/
def sampleGrant (handle : String) (author : Subject) (now : Nat) : NamespaceGrant where
  id := "everyone"
  namespaceHandle := handle
  grantee := .everyone
  action := .pull
  label := "public"
  createdBy := author
  createdAt := now
  updatedBy := author
  updatedAt := now

def sampleShare (handle : String) (author : Subject) (now : Nat) : Request :=
  .namespaces (.putGrant (sampleGrant handle author now) author "" "audit")

/-- A grant that a second author updates keeps its first one. -/
theorem namespaces_consistent_sample :
    ∃ data next response before after,
      run (requestStep sampleExternals) StateMachineData.empty
        [(0, sampleClaim "alice" "first" false), (0, sampleShare "alice" "first" 3)] = some data ∧
      applyRequest sampleExternals 0 data (sampleShare "alice" "second" 5) =
        .ok (next, response) ∧
      data.namespaceTables.grant? "alice" "everyone" = some before ∧
      next.namespaceTables.grant? "alice" "everyone" = some after ∧
      after.updatedBy = "second" ∧ after.createdBy = before.createdBy := by
  have reached : run (requestStep sampleExternals) StateMachineData.empty
      [(0, sampleClaim "alice" "first" false), (0, sampleShare "alice" "first" 3)] = some _ := rfl
  have kept := (namespaces_consistent sampleExternals _ _ reached).2.2 0
    (sampleShare "alice" "second" 5) _ _ rfl "alice" "everyone" _ _ rfl rfl
  exact ⟨_, _, _, _, _, reached, rfl, rfl, rfl, rfl, kept.1⟩

end Layerhouse
