/-
This file is about the audit trail of the grants. Every change of a grant appends an
event that names the grant and carries it as it was before and after the change, so
replaying the events of a handle should give its grants.

It does until a handle is released: a release drops the grants of the handle and
appends nothing. The file proves that this is the only gap. Replaying the trail gives
the grants in every state of a run exactly when no handle is released while it still
has grants.
-/

import Layerhouse.Raft.Grants
import Layerhouse.Raft.Panics

namespace Layerhouse

/-! ### Replaying a trail -/

/-- The grants after one more event. -/
def NamespaceGrantAuditEvent.replay (grants : BTreeMap String NamespaceGrant)
    (event : NamespaceGrantAuditEvent) : BTreeMap String NamespaceGrant :=
  match event.grantId, event.after with
  | some id, some after => grants.insert id after
  | some id, none => grants.erase id
  | none, _ => grants

def replayTrail (events : List NamespaceGrantAuditEvent) : BTreeMap String NamespaceGrant :=
  events.foldl NamespaceGrantAuditEvent.replay ∅

/-- Each event names a grant and carries it as the earlier events left it. -/
def TrailChained (events : List NamespaceGrantAuditEvent) : Prop :=
  ∀ earlier event later, events = earlier ++ event :: later →
    ∃ id, event.grantId = some id ∧ event.before = (replayTrail earlier)[id]?

namespace NamespaceTables

def trail (tables : NamespaceTables) (handle : String) : List NamespaceGrantAuditEvent :=
  tables.namespaceGrantAudit[handle]?.getD []

/-- The trail of every handle is chained, and replaying it gives the grants of the handle. -/
def AuditComplete (tables : NamespaceTables) : Prop :=
  ∀ handle, replayTrail (tables.trail handle) = tables.namespaceGrants[handle]?.getD ∅ ∧
    TrailChained (tables.trail handle)

end NamespaceTables

/-- The handle that a request releases. -/
def releasedBy (data : StateMachineData) : Request → Option String
  | .namespaces (.delete handle actor _ _) =>
    if (data.namespaces[handle]?.any (·.owner.isReleasableBy actor)) ∧ ¬ data.hasContent handle then
      some handle
    else none
  | .namespaces (.adminRevoke handle _ _) =>
    if data.namespaces[handle]?.isSome ∧ ¬ data.hasContent handle then some handle else none
  | _ => none

/-- The request releases no handle that still has grants. -/
def ReleasesUngranted (data : StateMachineData) (label : Nat × Request) : Prop :=
  ∀ handle ∈ releasedBy data label.2, data.namespaceGrants[handle]?.getD ∅ = ∅

/-! ### One more event -/

theorem replayTrail_concat (events : List NamespaceGrantAuditEvent)
    (event : NamespaceGrantAuditEvent) :
    replayTrail (events ++ [event]) = event.replay (replayTrail events) := by
  rw [replayTrail, List.foldl_append]
  rfl

theorem trailChained_nil : TrailChained [] := by
  intro earlier event later same
  exact absurd same.symm (List.append_ne_nil_of_right_ne_nil earlier (List.cons_ne_nil event later))

theorem TrailChained.concat {events : List NamespaceGrantAuditEvent}
    (chained : TrailChained events) {event : NamespaceGrantAuditEvent} {id : String}
    (names : event.grantId = some id) (before : event.before = (replayTrail events)[id]?) :
    TrailChained (events ++ [event]) := by
  intro earlier other later same
  rcases List.eq_nil_or_concat' later with rfl | ⟨rest, last, rfl⟩
  · obtain ⟨rfl, sameEvent⟩ := List.append_inj' same rfl
    obtain rfl := List.singleton_inj.mp sameEvent
    exact ⟨id, names, before⟩
  · rw [← List.cons_append, ← List.append_assoc] at same
    exact chained earlier other rest (List.append_inj' same rfl).1

/-- The grants of a handle after an event, read through the event. -/
theorem getElem?_replay (grants : BTreeMap String NamespaceGrant)
    {event : NamespaceGrantAuditEvent} {id : String} (names : event.grantId = some id)
    (other : String) :
    (event.replay grants)[other]? = if id = other then event.after else grants[other]? := by
  rw [NamespaceGrantAuditEvent.replay, names]
  cases event.after with
  | none => exact BTreeMap.getElem?_erase grants id other
  | some after => exact BTreeMap.getElem?_insert grants id other after

namespace NamespaceTables

variable {tables next : NamespaceTables}

theorem getElem?_grants (tables : NamespaceTables) (handle id : String) :
    (tables.namespaceGrants[handle]?.getD ∅)[id]? = tables.grant? handle id :=
  BTreeMap.getElem?_getD_empty ..

theorem trail_audit (tables : NamespaceTables) (handle other : String)
    (event : NamespaceGrantAuditEvent) :
    (tables.audit handle event).trail other =
      if handle = other then tables.trail handle ++ [event] else tables.trail other := by
  rw [trail, audit, BTreeMap.getElem?_insert]
  by_cases same : handle = other
  · rw [if_pos same, if_pos same]
    rfl
  · rw [if_neg same, if_neg same]
    rfl

/-- What a step does to one handle: it leaves trail and grants, or it changes one grant and
appends the event of the change. -/
inductive Audited (tables next : NamespaceTables) (handle : String) : Prop
  | kept (sameTrail : next.trail handle = tables.trail handle)
      (sameGrants : ∀ id, next.grant? handle id = tables.grant? handle id)
  | changed (event : NamespaceGrantAuditEvent) (id : String) (names : event.grantId = some id)
      (before : event.before = tables.grant? handle id)
      (appended : next.trail handle = tables.trail handle ++ [event])
      (grants : ∀ other, next.grant? handle other =
        if id = other then event.after else tables.grant? handle other)

theorem AuditComplete.step (complete : tables.AuditComplete)
    (audited : ∀ handle, Audited tables next handle) : next.AuditComplete := by
  intro handle
  obtain ⟨replayed, chained⟩ := complete handle
  cases audited handle with
  | kept sameTrail sameGrants =>
    rw [sameTrail]
    refine ⟨BTreeMap.ext_getElem? fun id => ?_, chained⟩
    rw [replayed, getElem?_grants, getElem?_grants, sameGrants]
  | changed event id names before appended grants =>
    rw [appended]
    have fromTrail : event.before = (replayTrail (tables.trail handle))[id]? := by
      rw [before, replayed, getElem?_grants]
    refine ⟨BTreeMap.ext_getElem? fun other => ?_, chained.concat names fromTrail⟩
    rw [replayTrail_concat, getElem?_replay _ names, replayed, getElem?_grants, getElem?_grants,
      grants]

/-! ### The moves of the tables -/

theorem audited_of_same (sameAudit : next.namespaceGrantAudit = tables.namespaceGrantAudit)
    (sameGrants : next.namespaceGrants = tables.namespaceGrants) (handle : String) :
    Audited tables next handle := by
  refine .kept ?_ fun id => ?_
  · rw [trail, trail, sameAudit]
  · rw [grant?, grant?, sameGrants]

theorem audited_putGrant (tables : NamespaceTables) (grant : NamespaceGrant)
    (actorLabel reason auditId handle : String) :
    Audited tables (tables.putGrant grant actorLabel reason auditId).1 handle := by
  by_cases same : grant.namespaceHandle = handle
  · subst same
    have stored := putGrant_snd tables grant actorLabel reason auditId
    refine .changed
      { id := auditId
        namespaceHandle := grant.namespaceHandle
        grantId := some grant.id
        operation :=
          if (tables.grant? grant.namespaceHandle grant.id).isSome then .update else .create
        actor := grant.updatedBy
        actorLabel := actorLabel
        reason := reason
        before := tables.grant? grant.namespaceHandle grant.id
        after := some (tables.putGrant grant actorLabel reason auditId).2
        createdAt := grant.updatedAt } grant.id rfl rfl ?_ fun other => ?_
    · rw [stored]
      unfold putGrant
      simp only [getElem?_grants]
      cases tables.grant? grant.namespaceHandle grant.id with
      | none => exact (trail_audit ..).trans (if_pos rfl)
      | some existing => exact (trail_audit ..).trans (if_pos rfl)
    · rw [grant?_putGrant]
      simp only [true_and]
  · refine .kept ?_ fun id => ?_
    · unfold putGrant
      simp only [getElem?_grants]
      cases tables.grant? grant.namespaceHandle grant.id with
      | none => exact (trail_audit ..).trans (if_neg same)
      | some existing => exact (trail_audit ..).trans (if_neg same)
    · rw [grant?_putGrant, if_neg fun both => same both.1]

theorem trail_removeGrant (tables : NamespaceTables) (handle grantId other : String) :
    (tables.removeGrant handle grantId).trail other = tables.trail other := by
  unfold removeGrant
  cases tables.namespaceGrants[handle]? <;> rfl

/-- The removal of a grant with the event that carries it. -/
theorem audited_removeGrant (tables : NamespaceTables) (removed grantId : String)
    {event : NamespaceGrantAuditEvent} (names : event.grantId = some grantId)
    (before : event.before = tables.grant? removed grantId) (after : event.after = none)
    (handle : String) :
    Audited tables ((tables.removeGrant removed grantId).audit removed event) handle := by
  have grants : ∀ id, ((tables.removeGrant removed grantId).audit removed event).grant? handle id =
      if removed = handle ∧ grantId = id then none else tables.grant? handle id :=
    grant?_removeGrant tables removed grantId handle
  by_cases same : removed = handle
  · subst same
    refine .changed event grantId names before ((trail_audit ..).trans ?_) fun other => ?_
    · rw [if_pos rfl, trail_removeGrant]
    · rw [grants, after]
      simp only [true_and]
  · refine .kept ((trail_audit ..).trans ?_) fun id => ?_
    · rw [if_neg same, trail_removeGrant]
    · rw [grants, if_neg fun both => same both.1]

/-- The removal of a grant that is not there. -/
theorem audited_removeGrant_of_absent {removed grantId : String}
    (absent : tables.grant? removed grantId = none) (handle : String) :
    Audited tables (tables.removeGrant removed grantId) handle := by
  refine .kept (trail_removeGrant ..) fun id => ?_
  rw [grant?_removeGrant]
  by_cases same : removed = handle ∧ grantId = id
  · rw [if_pos same, ← same.1, ← same.2, absent]
  · rw [if_neg same]

theorem audited_deleteGrant {hasContent : String → Bool} {removed grantId : String}
    {actor : Subject} {actorLabel reason : String} {now : Nat} {auditId : String}
    {answer : Except LayerhouseError NamespaceResponse}
    (applied : applyNamespaceCore tables hasContent
      (.deleteGrant removed grantId actor actorLabel reason now auditId) = .ok (next, answer))
    (handle : String) : Audited tables next handle := by
  rw [applyNamespaceCore] at applied
  split at applied
  · obtain rfl := congrArg Prod.fst (Except.ok.inj applied)
    exact audited_of_same rfl rfl handle
  · split at applied
    · obtain rfl := congrArg Prod.fst (Except.ok.inj applied)
      exact audited_of_same rfl rfl handle
    · cases found : tables.grant? removed grantId with
      | none =>
        simp only [show tables.namespaceGrants[removed]?.bind (·[grantId]?) = none from found]
          at applied
        obtain rfl := congrArg Prod.fst (Except.ok.inj applied)
        exact audited_removeGrant_of_absent found handle
      | some before =>
        simp only [show tables.namespaceGrants[removed]?.bind (·[grantId]?) = some before
          from found] at applied
        obtain rfl := congrArg Prod.fst (Except.ok.inj applied)
        refine audited_removeGrant tables removed grantId ?_ ?_ ?_ handle
        · rfl
        · exact found.symm
        · rfl

theorem trail_release (tables : NamespaceTables) (handle : String) (live : Namespace)
    (actor : Subject) (reason : ReleaseReason) (now : Nat) (other : String) :
    (tables.release handle live actor reason now).trail other = tables.trail other :=
  rfl

/-- A release keeps the trail complete exactly when the handle has no grants. -/
theorem AuditComplete.release_iff (complete : tables.AuditComplete) (handle : String)
    (live : Namespace) (actor : Subject) (reason : ReleaseReason) (now : Nat) :
    (tables.release handle live actor reason now).AuditComplete ↔
      tables.namespaceGrants[handle]?.getD ∅ = ∅ := by
  constructor
  · intro completeAfter
    have replayed := (completeAfter handle).1
    rw [trail_release, (complete handle).1] at replayed
    rw [replayed]
    show (tables.namespaceGrants.erase handle)[handle]?.getD ∅ = ∅
    rw [BTreeMap.getElem?_erase, if_pos rfl, Option.getD_none]
  · intro ungranted
    refine complete.step fun other => .kept rfl fun id => ?_
    rw [grant?_release]
    by_cases same : handle = other
    · rw [if_pos same, ← same, ← getElem?_grants, ungranted, BTreeMap.getElem?_empty]
    · rw [if_neg same]

end NamespaceTables

/-! ### Every request -/

/-- A namespace request releases a handle, or changes grants together with their trails. -/
theorem applyNamespaceCore_audited {data : StateMachineData} {request : NamespaceRequest}
    {next : NamespaceTables} {answer : Except LayerhouseError NamespaceResponse}
    (applied : applyNamespaceCore data.namespaceTables data.hasContent request =
      .ok (next, answer)) :
    (∃ handle live actor reason now, releasedBy data (.namespaces request) = some handle ∧
      next = data.namespaceTables.release handle live actor reason now) ∨
    (releasedBy data (.namespaces request) = none ∧
      ∀ handle, NamespaceTables.Audited data.namespaceTables next handle) := by
  cases request with
  | delete handle actor reason now =>
    rw [applyNamespaceCore, show data.namespaceTables.namespaces = data.namespaces from rfl]
      at applied
    rw [releasedBy]
    cases found : data.namespaces[handle]? with
    | none =>
      rw [found] at applied
      obtain rfl := congrArg Prod.fst (Except.ok.inj applied)
      exact Or.inr ⟨if_neg fun both => Bool.false_ne_true both.1,
        NamespaceTables.audited_of_same rfl rfl⟩
    | some live =>
      rw [found] at applied
      simp only at applied
      split at applied
      · rename_i foreign
        obtain rfl := congrArg Prod.fst (Except.ok.inj applied)
        exact Or.inr ⟨if_neg fun both => foreign both.1,
          NamespaceTables.audited_of_same rfl rfl⟩
      · rename_i owned
        split at applied
        · rename_i content
          obtain rfl := congrArg Prod.fst (Except.ok.inj applied)
          exact Or.inr ⟨if_neg fun both => both.2 content,
            NamespaceTables.audited_of_same rfl rfl⟩
        · rename_i contentless
          obtain rfl := congrArg Prod.fst (Except.ok.inj applied)
          exact Or.inl ⟨handle, live, actor, reason, now,
            if_pos ⟨not_not.mp owned, contentless⟩, rfl⟩
  | adminRevoke handle actor now =>
    rw [applyNamespaceCore, show data.namespaceTables.namespaces = data.namespaces from rfl]
      at applied
    rw [releasedBy]
    split at applied
    · rename_i content
      obtain rfl := congrArg Prod.fst (Except.ok.inj applied)
      exact Or.inr ⟨if_neg fun both => both.2 content, NamespaceTables.audited_of_same rfl rfl⟩
    · rename_i contentless
      cases found : data.namespaces[handle]? with
      | none =>
        rw [found] at applied
        obtain rfl := congrArg Prod.fst (Except.ok.inj applied)
        exact Or.inr ⟨if_neg fun both => Bool.false_ne_true both.1,
          NamespaceTables.audited_of_same rfl rfl⟩
      | some live =>
        rw [found] at applied
        obtain rfl := congrArg Prod.fst (Except.ok.inj applied)
        exact Or.inl ⟨handle, live, actor, .adminRevoked, now, if_pos ⟨rfl, contentless⟩, rfl⟩
  | claim handle owner ownerLabel actor adminOverride now =>
    refine Or.inr ⟨rfl, fun other => ?_⟩
    cases applyNamespaceCore_move applied with
    | refused => exact NamespaceTables.audited_of_same rfl rfl other
    | claimed valid unreserved unclaimed assigned =>
      refine NamespaceTables.audited_of_same ?_ ?_ other
      · rfl
      · rfl
    | released asked found contentless =>
      rcases asked with ⟨_, _, _, impossible⟩ | ⟨_, _, impossible⟩
      · cases impossible
      · cases impossible
  | putGrant grant actorLabel reason auditId =>
    refine Or.inr ⟨rfl, fun other => ?_⟩
    cases applyNamespaceCore_move applied with
    | refused => exact NamespaceTables.audited_of_same rfl rfl other
    | granted checked => exact NamespaceTables.audited_putGrant ..
    | released asked found contentless =>
      rcases asked with ⟨_, _, _, impossible⟩ | ⟨_, _, impossible⟩
      · cases impossible
      · cases impossible
  | deleteGrant handle grantId actor actorLabel reason now auditId =>
    exact Or.inr ⟨rfl, NamespaceTables.audited_deleteGrant applied⟩
  | putObservedIdentity identity =>
    obtain rfl := congrArg Prod.fst (Except.ok.inj applied)
    exact Or.inr ⟨rfl, NamespaceTables.audited_of_same rfl rfl⟩

/-- A request keeps the trails complete exactly when it releases no handle that has grants. -/
theorem requestStep_auditComplete_iff (externals : Externals) (data : StateMachineData)
    (label : Nat × Request) (complete : data.namespaceTables.AuditComplete) :
    (∀ next, requestStep externals data label = some next →
      next.namespaceTables.AuditComplete) ↔ ReleasesUngranted data label := by
  obtain ⟨now, request⟩ := label
  by_cases namespaced : ∃ inner, request = .namespaces inner
  · obtain ⟨inner, rfl⟩ := namespaced
    rw [requestStep, applyRequest, applyNamespace, ReleasesUngranted]
    cases outcome : applyNamespaceCore data.namespaceTables data.hasContent inner with
    | error panic =>
      -- Only a grant panics, and a grant releases nothing.
      obtain ⟨grant, actorLabel, reason, auditId, rfl, _⟩ :=
        (applyNamespaceCore_eq_error_iff ..).mp ⟨panic, outcome⟩
      constructor
      · intro _ handle impossible
        cases impossible
      · intro _ next impossible
        cases impossible
    | ok result =>
      obtain ⟨tables, answer⟩ := result
      have afterStep : (∀ next, some (data.withNamespaceTables tables) = some next →
          next.namespaceTables.AuditComplete) ↔ tables.AuditComplete :=
        ⟨fun always => always _ rfl, fun after next same => by
          obtain rfl := Option.some.inj same
          exact after⟩
      refine afterStep.trans ?_
      rcases applyNamespaceCore_audited outcome with
        ⟨handle, live, actor, reason, time, released, rfl⟩ | ⟨unreleased, audited⟩
      · rw [complete.release_iff]
        refine ⟨fun ungranted other found => ?_, fun ungranted => ungranted handle released⟩
        obtain rfl := Option.some.inj (released.symm.trans found)
        exact ungranted
      · refine ⟨fun _ handle found => ?_, fun _ => complete.step audited⟩
        cases unreleased.symm.trans found
  · constructor
    · intro _ handle found
      cases request with
      | namespaces inner => exact absurd ⟨inner, rfl⟩ namespaced
      | _ => cases found
    · intro _ next stepped
      obtain ⟨response, applied⟩ := requestStep_eq_some.mp stepped
      have framed := congrArg StateMachineData.namespaceTables (applyRequest_frame applied)
      have same : next.namespaceTables = data.namespaceTables := by
        cases request with
        | namespaces inner => exact absurd ⟨inner, rfl⟩ namespaced
        | _ => exact framed
      rw [same]
      exact complete

theorem auditComplete_empty : StateMachineData.empty.namespaceTables.AuditComplete := by
  intro handle
  have noTrail : StateMachineData.empty.namespaceTables.trail handle = [] := by
    show (∅ : BTreeMap String (List NamespaceGrantAuditEvent))[handle]?.getD [] = []
    rw [BTreeMap.getElem?_empty, Option.getD_none]
  rw [noTrail]
  refine ⟨?_, trailChained_nil⟩
  show ∅ = (∅ : BTreeMap String (BTreeMap String NamespaceGrant))[handle]?.getD ∅
  rw [BTreeMap.getElem?_empty, Option.getD_none]

/-- The audit trail gives the grants of every handle in every state of a run exactly when no step
of the run releases a handle that still has grants. -/
theorem grant_audit_complete_iff (externals : Externals) (labels : List (Nat × Request)) :
    Along (requestStep externals)
        (fun data label => ∀ next, requestStep externals data label = some next →
          next.namespaceTables.AuditComplete) StateMachineData.empty labels ↔
      Along (requestStep externals) ReleasesUngranted StateMachineData.empty labels :=
  along_invariant_iff (fun data : StateMachineData => data.namespaceTables.AuditComplete)
    (requestStep_auditComplete_iff externals) auditComplete_empty

/-- The owner of a handle makes it public and releases it. The trail still holds the grant. -/
theorem released_grant_stays_in_audit :
    ∃ labels data, run (requestStep sampleExternals) StateMachineData.empty labels = some data ∧
      ¬ data.namespaceTables.AuditComplete := by
  let labels := [(0, sampleClaim "alice" "first" false),
    (0, sampleShare "alice" "first" 1),
    (0, .namespaces (sampleRelease "alice" "first"))]
  have reached : (run (requestStep sampleExternals) StateMachineData.empty labels).any
      (fun data => (replayTrail (data.namespaceTables.trail "alice"))["everyone"]?.isSome ∧
        data.namespaceTables.namespaceGrants["alice"]? = none) = true := by
    decide +kernel
  obtain ⟨data, reached, kept⟩ := (Option.any_eq_true ..).mp reached
  obtain ⟨replayed, dropped⟩ := of_decide_eq_true kept
  refine ⟨labels, data, reached, fun complete => ?_⟩
  rw [(complete "alice").1, dropped, Option.getD_none, BTreeMap.getElem?_empty] at replayed
  exact nomatch replayed

end Layerhouse
