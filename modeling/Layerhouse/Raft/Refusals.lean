/-
This file proves that a refused request changes nothing. A request is refused
when it is answered with an error, with `false`, or, for a trigger, with no job.

The answer `false` of some requests is given after a removal has run: the removal
of a policy set, a repository or a grant that is not there. The first two remove
an absent key. The third also looks for an empty map of grants, and leaves the
tables as they are because no reachable state holds one.
-/

import Layerhouse.Raft.Grants

namespace Layerhouse

/-- The responses that refuse a request. -/
def Response.isRefusal : Response → Bool
  | .manifest (.bool false) | .mirrorConfig (.bool false) | .mirrorConfig (.syncJob none)
  | .job (.bool false) | .token (.bool false) | .policy (.bool false)
  | .repository (.bool false) | .namespaces (.bool false) => true
  | response => response.isError

/-- A check that stops a call leaves the data it was given. -/
theorem afterCheck_refused {Answer : Type} {wrap : Answer → Response} {data : StateMachineData}
    {check : Except LayerhouseError Unit}
    {next : StateMachineData × Except LayerhouseError Answer}
    (refused : (toResponse wrap (afterCheck data check next).2).isRefusal = true)
    (continued : (toResponse wrap next.2).isRefusal = true → next.1 = data) :
    (afterCheck data check next).1 = data := by
  cases check with
  | error error => rfl
  | ok done => exact continued refused

/-! ### The domains -/

theorem applyManifest_refused {externals : Externals} {data : StateMachineData}
    {request : ManifestRequest}
    (refused : (toResponse .manifest (applyManifest externals data request).2).isRefusal = true) :
    (applyManifest externals data request).1 = data := by
  cases request with
  | putManifest put =>
    refine afterCheck_refused refused fun continued => ?_
    split at continued
    · rename_i present
      rw [if_pos present]
    · simp only at continued
      split at continued <;> cases continued
  | deleteManifest name expected digest =>
    exact afterCheck_refused refused fun continued => absurd continued Bool.false_ne_true
  | deleteTag name expected digest tag =>
    refine afterCheck_refused refused fun continued => ?_
    cases found : data.tags[name]? with
    | none => rfl
    | some repoTags =>
      rw [found] at continued
      simp only at continued ⊢
      split at continued
      · cases continued
      · rename_i moved
        rw [if_neg moved]
  | deleteRepository name expected =>
    exact afterCheck_refused refused fun continued => absurd continued Bool.false_ne_true
  | deleteManifests name expected digests =>
    exact afterCheck_refused refused fun continued => absurd continued Bool.false_ne_true
  | mountBlob sourceRepo destRepo expected digest =>
    exact afterCheck_refused refused fun _ => rfl
  | recordBlobDelete digest requestedAt => cases refused
  | clearBlobDelete digest => cases refused

theorem applyMirrorConfig_refused {now : Nat} {data : StateMachineData}
    {request : MirrorConfigRequest}
    (refused : (Response.mirrorConfig (applyMirrorConfig now data request).2).isRefusal = true) :
    (applyMirrorConfig now data request).1 = data := by
  cases request
  case triggerMirrorRule id =>
    simp only [applyMirrorConfig] at refused ⊢
    cases found : data.mirrorRules[id]? with
    | none => rfl
    | some rule =>
      rw [found] at refused
      simp only at refused ⊢
      split at refused
      · rename_i blocked
        rw [if_pos blocked]
      · cases refused
  case triggerProxyCacheWarm id =>
    simp only [applyMirrorConfig] at refused ⊢
    cases found : data.proxyCaches[id]? with
    | none => rfl
    | some cache =>
      rw [found] at refused
      simp only at refused ⊢
      split at refused
      · rename_i blocked
        rw [if_pos blocked]
      · cases refused
  all_goals cases refused

theorem applyJob_refused {now : Nat} {data : StateMachineData} {request : JobRequest}
    (refused : (Response.job (applyJob now data request).2).isRefusal = true) :
    (applyJob now data request).1 = data := by
  cases request
  case claimSyncJob id nodeId =>
    simp only [applyJob] at refused ⊢
    cases found : data.syncJobs[id]? with
    | none => rfl
    | some job =>
      rw [found] at refused
      simp only at refused ⊢
      split at refused
      · rename_i busy
        rw [if_pos busy]
      · cases refused
  case triggerSyncJob id =>
    simp only [applyJob] at refused ⊢
    cases found : data.syncJobs[id]? with
    | none => rfl
    | some job =>
      rw [found] at refused
      simp only at refused ⊢
      split at refused
      · rename_i running
        rw [if_pos running]
      · cases refused
  all_goals cases refused

theorem applyToken_refused {data : StateMachineData} {request : TokenRequest}
    (refused : (Response.token (applyToken data request).2).isRefusal = true) :
    (applyToken data request).1 = data := by
  cases request with
  | putPersonalAccessToken token => cases refused
  | deletePersonalAccessToken id subject =>
    rw [applyToken] at refused ⊢
    split at refused
    · cases refused
    · rename_i foreign
      rw [if_neg foreign]

theorem applyPolicy_refused {externals : Externals} {data : StateMachineData}
    {request : PolicyRequest}
    (refused : (toResponse .policy (applyPolicy externals data request).2).isRefusal = true) :
    (applyPolicy externals data request).1 = data := by
  cases request with
  | putPolicySet policy =>
    exact afterCheck_refused refused fun continued => absurd continued Bool.false_ne_true
  | deletePolicySet id =>
    simp only [applyPolicy, toResponse] at refused ⊢
    cases present : data.policySets.contains id with
    | true =>
      rw [present] at refused
      cases refused
    | false =>
      rw [BTreeMap.erase_of_absent (Std.ExtTreeMap.getElem?_eq_none_of_contains_eq_false present)]

theorem applyRepository_refused {data : StateMachineData} {request : RepositoryRequest}
    (refused : (toResponse .repository (applyRepository data request).2).isRefusal = true) :
    (applyRepository data request).1 = data := by
  cases request with
  | putRepository repository expected =>
    exact afterCheck_refused refused fun continued => absurd continued Bool.false_ne_true
  | deleteRepository name expected =>
    refine afterCheck_refused refused fun continued => ?_
    simp only [toResponse] at continued ⊢
    cases present : data.repositories.contains name with
    | true =>
      rw [present] at continued
      cases continued
    | false =>
      rw [BTreeMap.erase_of_absent (Std.ExtTreeMap.getElem?_eq_none_of_contains_eq_false present)]

/-- Removing a grant that is not there leaves consistent tables as they are. -/
theorem GrantsConsistent.removeGrant_of_absent {tables : NamespaceTables}
    (holds : GrantsConsistent tables) {handle grantId : String}
    (absent : tables.grant? handle grantId = none) :
    tables.removeGrant handle grantId = tables := by
  unfold NamespaceTables.removeGrant
  cases found : tables.namespaceGrants[handle]? with
  | none => rfl
  | some grants =>
    rw [NamespaceTables.grant?, BTreeMap.entry?_of_getElem? found] at absent
    simp only [BTreeMap.erase_of_absent absent]
    split
    · rename_i emptied
      rw [Std.ExtTreeMap.isEmpty_iff.mp emptied] at found
      exact absurd found (holds.nonempty handle)
    · rw [BTreeMap.insert_of_found found]

/-- A refused namespace request leaves consistent tables as they are. -/
theorem NamespaceMove.refused_eq {tables next : NamespaceTables} {hasContent : String → Bool}
    {request : NamespaceRequest} {answer : Except LayerhouseError NamespaceResponse}
    (moved : NamespaceMove tables hasContent request next answer)
    (holds : GrantsConsistent tables)
    (refused : (toResponse .namespaces answer).isRefusal = true) : next = tables := by
  cases moved with
  | refused => rfl
  | claimed valid unreserved unclaimed assigned => cases refused
  | released asked found contentless => cases refused
  | granted checked => cases refused
  | ungranted claimed absent => exact holds.removeGrant_of_absent absent
  | withdrawn claimed found => cases refused
  | observed => cases refused

theorem applyNamespace_refused {data next : StateMachineData} {request : NamespaceRequest}
    {answer : Except LayerhouseError NamespaceResponse}
    (holds : GrantsConsistent data.namespaceTables)
    (applied : applyNamespace data request = .ok (next, answer))
    (refused : (toResponse .namespaces answer).isRefusal = true) : next = data := by
  obtain ⟨framed, moved⟩ := applyNamespace_move applied
  rw [framed, moved.refused_eq holds refused]
  rfl

/-! ### Every request -/

theorem applyRequest_refused {externals : Externals} {now : Nat} {data next : StateMachineData}
    {request : Request} {response : Response} (holds : GrantsConsistent data.namespaceTables)
    (applied : applyRequest externals now data request = .ok (next, response))
    (refused : response.isRefusal = true) : next = data := by
  cases request with
  | manifest inner =>
    cases applied
    exact applyManifest_refused refused
  | mirrorConfig inner =>
    cases applied
    exact applyMirrorConfig_refused refused
  | job inner =>
    cases applied
    exact applyJob_refused refused
  | token inner =>
    cases applied
    exact applyToken_refused refused
  | policy inner =>
    cases applied
    exact applyPolicy_refused refused
  | repository inner =>
    cases applied
    exact applyRepository_refused refused
  | namespaces inner =>
    obtain ⟨answer, outcome, rfl⟩ := applyNamespace_of_applied applied
    exact applyNamespace_refused holds outcome refused

/-- In every state that a run of requests reaches, a request that is answered with an error or
with a refusal leaves the whole data as it was. -/
theorem refused_requests_change_nothing (externals : Externals) (labels : List (Nat × Request))
    (data : StateMachineData)
    (reached : run (requestStep externals) StateMachineData.empty labels = some data) (now : Nat)
    (request : Request) (next : StateMachineData) (response : Response)
    (applied : applyRequest externals now data request = .ok (next, response))
    (refused : response.isRefusal = true) : next = data :=
  applyRequest_refused (run_grantsConsistent reached) applied refused

/-- Deleting a grant that is not there is answered `false` and keeps the grants that are. -/
theorem refused_requests_change_nothing_sample :
    ∃ data, run (requestStep sampleExternals) StateMachineData.empty
        [(0, sampleClaim "alice" "first" false), (0, sampleShare "alice" "first" 3)] = some data ∧
      applyRequest sampleExternals 0 data (.namespaces (.deleteGrant "alice" "absent" "first"
        "first" "" 4 "audit")) = .ok (data, .namespaces (.bool false)) := by
  have reached : run (requestStep sampleExternals) StateMachineData.empty
      [(0, sampleClaim "alice" "first" false), (0, sampleShare "alice" "first" 3)] = some _ := rfl
  have unchanged := refused_requests_change_nothing sampleExternals _ _ reached 0
    (.namespaces (.deleteGrant "alice" "absent" "first" "first" "" 4 "audit")) _ _ rfl rfl
  refine ⟨_, reached, ?_⟩
  conv_rhs => rw [← unchanged]
  rfl

end Layerhouse
