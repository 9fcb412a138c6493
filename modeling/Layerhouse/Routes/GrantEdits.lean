/-
This file runs the edits of grants against each other: the create, patch and delete
handlers of `routes/namespaces/handlers.rs`, of the account routes and of the admin
routes. A create looks for a grant that its grantee already has and takes its id, or
draws a new one; a patch writes back the grant it read; a delete names the id. The
commit stores the grant under its id, whatever the table holds by then.

Two things are asked of every state of a run. A grantee has at most one grant of a
namespace, and a grant that was deleted stays deleted as long as the namespace is in
the same generation. Both fail when an edit commits after another one changed which
grant the grantee has. The file proves that they hold in every run in which each
commit still finds the grant that its handler found.

The ids that `Uuid::new_v4` draws are taken to be new: the step that draws one is not
defined for an id that was drawn before.
-/

import Layerhouse.Routes.Grants

namespace Layerhouse

/-! ### Edits -/

/-- A call of the account routes, or of the admin routes, which give a deletion a reason. -/
structure GrantEdit where
  identity : AuthIdentity
  handle : String
  change : GrantChange
  admin : Bool
  reason : Option String
deriving DecidableEq

def GrantEdit.prepare (edit : GrantEdit) (data : StateMachineData) (now : Nat)
    (grantId auditId : String) : Except Panic (Except LayerhouseError NamespaceRequest) :=
  match edit.change with
  | .create request =>
    putNamespaceGrant data edit.identity edit.handle request edit.admin now grantId auditId
  | .update existing request =>
    .ok (patchNamespaceGrant data edit.identity edit.handle existing request edit.admin now auditId)
  | .delete existing =>
    .ok (deleteNamespaceGrant edit.identity edit.handle existing edit.reason edit.admin now auditId)

/-- How far an edit is. The data that its lookup was answered from is kept to speak about it. -/
inductive EditStage where
  | received
  | authorized
  | found
  | ready (seen : StateMachineData) (request : NamespaceRequest)

/-- A deletion of a grant that was answered with `true`, and the generation it happened in. -/
structure Withdrawal where
  handle : String
  generation : Nat
  grantId : String
deriving DecidableEq

/-- The routes, with the ids that were drawn and the grants that were deleted. -/
structure GrantEditSystem where
  routes : CallSystem GrantEdit EditStage
  drawn : List String
  withdrawn : List Withdrawal

namespace GrantEditSystem

def initial : GrantEditSystem where
  routes := .initial
  drawn := []
  withdrawn := []

end GrantEditSystem

inductive GrantEditLabel where
  | commit (now : Nat) (request : Request)
  | receive (id : Nat) (edit : GrantEdit)
  | checkOwner (id lag : Nat)
  | requireAdmin (id : Nat)
  | ensureExists (id lag : Nat)
  | prepare (id lag now : Nat) (grantId auditId : String)
  | write (id now : Nat)

/-- The request changes the grants of a namespace. Only the handlers commit such requests. -/
def Request.editsGrants : Request → Bool
  | .namespaces request => request.grantHandle.isSome
  | _ => false

/-- What a commit withdraws. -/
def withdrawnBy (data : StateMachineData) (request : NamespaceRequest) (response : Response) :
    List Withdrawal :=
  match request, response with
  | .deleteGrant handle grantId .., .namespaces (.bool true) =>
    (liveGeneration data handle).toList.map fun generation => ⟨handle, generation, grantId⟩
  | _, _ => []

/-- `requireAdmin`, `require_admin` of the source, does not read the grants of the namespace. -/
def grantEditStep (externals : Externals) (system : GrantEditSystem) :
    GrantEditLabel → Option GrantEditSystem
  | .commit now request =>
    if request.editsGrants then none
    else (requestStep externals system.routes.data (now, request)).map fun next =>
      { system with routes := system.routes.commit next }
  | .receive id edit =>
    match system.routes.calls id with
    | none => some { system with routes := system.routes.setCall id (some (edit, .received)) }
    | some _ => none
  | .checkOwner id lag =>
    match system.routes.calls id, system.routes.history[lag]? with
    | some (edit, .received), some data =>
      if edit.admin then none
      else some { system with
        routes := system.routes.continueWith id edit
          ((requireNamespaceOwner data edit.identity edit.handle).map fun _ => .authorized) }
    | _, _ => none
  | .requireAdmin id =>
    match system.routes.calls id with
    | some (edit, .received) =>
      if edit.admin then
        some { system with routes := system.routes.setCall id (some (edit, .authorized)) }
      else none
    | _ => none
  | .ensureExists id lag =>
    match system.routes.calls id, system.routes.history[lag]? with
    | some (edit, .authorized), some data =>
      some { system with
        routes := system.routes.continueWith id edit
          ((ensureNamespaceExists data edit.handle).map fun _ => .found) }
    | _, _ => none
  | .prepare id lag now grantId auditId =>
    match system.routes.calls id, system.routes.history[lag]? with
    | some (edit, .found), some data =>
      if grantId ∈ system.drawn then none
      else
        match edit.prepare data now grantId auditId with
        | .error _ => some { system with routes := system.routes.setCall id none }
        | .ok outcome =>
          some { system with
            routes := system.routes.continueWith id edit (outcome.map (.ready data))
            drawn := grantId :: system.drawn }
    | _, _ => none
  | .write id now =>
    match system.routes.calls id with
    | some (_, .ready _ request) =>
      match applyRequest externals now system.routes.data (.namespaces request) with
      | .error _ => none
      | .ok (next, response) =>
        some { system with
          routes := (system.routes.commit next).setCall id none
          withdrawn := withdrawnBy system.routes.data request response ++ system.withdrawn }
    | _ => none

/-! ### What is asked of a state -/

/-- A grantee has at most one grant of a namespace. -/
def UniqueGrants (tables : NamespaceTables) : Prop :=
  ∀ handle first second before after, tables.grant? handle first = some before →
    tables.grant? handle second = some after →
      before.grantee.stableKey = after.grantee.stableKey → first = second

/-- The deleted grants are gone as long as the namespace is in the generation of the deletion. -/
def GrantEditSystem.WithdrawnAreGone (system : GrantEditSystem) : Prop :=
  ∀ gone ∈ system.withdrawn,
    liveGeneration system.routes.data gone.handle = some gone.generation →
      system.routes.data.namespaceTables.grant? gone.handle gone.grantId = none

/-- The id of the grant that a create finds for its grantee. -/
def StateMachineData.grantFor (data : StateMachineData) (handle : String)
    (grantee : NamespaceGrantGrantee) : Except Panic (Option String) :=
  (matchingGrant grantee (data.listNamespaceGrants handle)).map (·.map (·.id))

/-- The data that a ready edit was answered from, and the grant it is about to put. -/
def EditStage.toPut : EditStage → Option (StateMachineData × NamespaceGrant)
  | .ready seen (.putGrant grant ..) => some (seen, grant)
  | _ => none

/-- A grant commits while its grantee has the grant that the handler's lookup was answered with,
or none as then. A grant for a handle that is not live is refused. -/
def GrantEditSystem.CommitsAsRead (system : GrantEditSystem) : GrantEditLabel → Prop
  | .write id _ =>
    ∀ called ∈ system.routes.calls id, ∀ put ∈ called.2.toPut,
      system.routes.data.namespaces[called.1.handle]? = none ∨
        system.routes.data.grantFor called.1.handle put.2.grantee =
          put.1.grantFor called.1.handle put.2.grantee
  | _ => True

instance GrantEditSystem.decidableCommitsAsRead (system : GrantEditSystem)
    (label : GrantEditLabel) :
    Decidable (system.CommitsAsRead label) :=
  match label with
  | .write id _ => inferInstanceAs (Decidable (∀ called ∈ system.routes.calls id,
      ∀ put ∈ called.2.toPut, _ ∨ _))
  | .commit .. | .receive .. | .checkOwner .. | .requireAdmin .. | .ensureExists .. | .prepare .. =>
    isTrue trivial

/-! ### The lookup of a grantee's grant -/

theorem mem_listNamespaceGrants {data : StateMachineData} {handle : String}
    {grant : NamespaceGrant} :
    grant ∈ data.listNamespaceGrants handle ↔
      ∃ id, data.namespaceTables.grant? handle id = some grant := by
  show grant ∈ ((data.namespaceGrants[handle]?.map fun grants => grants.toList.map (·.2)).getD []) ↔
    ∃ id, data.namespaceGrants[handle]?.bind (·[id]?) = some grant
  cases data.namespaceGrants[handle]? with
  | none => simp
  | some grants =>
    simp only [Option.map_some, Option.getD_some, List.mem_map, Option.bind_some]
    constructor
    · rintro ⟨⟨id, other⟩, member, rfl⟩
      exact ⟨id, (BTreeMap.mem_toList _ _ _).mp member⟩
    · rintro ⟨id, found⟩
      exact ⟨⟨id, grant⟩, (BTreeMap.mem_toList _ _ _).mpr found, rfl⟩

theorem matchingGrant_eq_none {grantee : NamespaceGrantGrantee} {grants : List NamespaceGrant}
    (searched : matchingGrant grantee grants = .ok none) :
    ∀ grant ∈ grants, grant.grantee.stableKey ≠ grantee.stableKey := by
  induction grants with
  | nil => exact fun _ impossible => absurd impossible List.not_mem_nil
  | cons grant rest inductionHypothesis =>
    rw [matchingGrant] at searched
    split at searched
    · rename_i stored wanted ofGrant ofGrantee
      split at searched
      · cases searched
      · rename_i differ
        refine List.forall_mem_cons.mpr ⟨fun same => differ ?_, inductionHypothesis searched⟩
        rw [ofGrant, ofGrantee] at same
        exact Except.ok.inj same
    · cases searched
    · cases searched

theorem matchingGrant_eq_some {grantee : NamespaceGrantGrantee} {grants : List NamespaceGrant}
    {found : NamespaceGrant} (searched : matchingGrant grantee grants = .ok (some found)) :
    found ∈ grants ∧ found.grantee.stableKey = grantee.stableKey := by
  induction grants with
  | nil => cases searched
  | cons grant rest inductionHypothesis =>
    rw [matchingGrant] at searched
    split at searched
    · rename_i stored wanted ofGrant ofGrantee
      split at searched
      · rename_i same
        cases searched
        rw [ofGrant, ofGrantee, same]
        exact ⟨List.mem_cons_self, rfl⟩
      · obtain ⟨member, same⟩ := inductionHypothesis searched
        exact ⟨List.mem_cons_of_mem grant member, same⟩
    · cases searched
    · cases searched

/-- The search does not panic among grants whose ids are of their grantee's kind. -/
theorem matchingGrant_ok {grantee : NamespaceGrantGrantee} {grants : List NamespaceGrant}
    (keyed : ∀ grant ∈ grants, ∃ key, grant.grantee.stableKey = .ok key)
    {wanted : String} (ofGrantee : grantee.stableKey = .ok wanted) :
    ∃ found, matchingGrant grantee grants = .ok found := by
  induction grants with
  | nil => exact ⟨none, rfl⟩
  | cons grant rest inductionHypothesis =>
    obtain ⟨⟨stored, ofGrant⟩, others⟩ := List.forall_mem_cons.mp keyed
    rw [matchingGrant, ofGrant, ofGrantee]
    simp only
    split
    · exact ⟨_, rfl⟩
    · exact inductionHypothesis others

/-! ### What a move leaves of the grants -/

/-- A grant that passed its checks has a key. -/
theorem stableKey_of_validated {namespaces : BTreeMap String Namespace} {grant : NamespaceGrant}
    (checked : validateNamespaceGrant namespaces grant = .ok (.ok ())) :
    ∃ key, grant.grantee.stableKey = .ok key := by
  unfold validateNamespaceGrant at checked
  split at checked
  · cases checked
  split at checked
  · cases checked
  split at checked
  · rename_i id grantee
    rw [grantee, NamespaceGrantGrantee.stableKey, checked]
    exact ⟨_, rfl⟩
  · rename_i id grantee
    rw [grantee, NamespaceGrantGrantee.stableKey, checked]
    exact ⟨_, rfl⟩
  · rename_i grantee
    rw [grantee]
    exact ⟨_, rfl⟩

/-- A stored grant was stored before, or the request put it there after its checks. -/
def PutBy (tables : NamespaceTables) (request : NamespaceRequest) (handle id : String)
    (stored : NamespaceGrant) : Prop :=
  ∃ grant actorLabel reason auditId, request = .putGrant grant actorLabel reason auditId ∧
    validateNamespaceGrant tables.namespaces grant = .ok (.ok ()) ∧
    grant.namespaceHandle = handle ∧ grant.id = id ∧ stored.grantee = grant.grantee

/-- A grant that a move leaves is in a namespace that the move left as it was. -/
theorem NamespaceMove.survives {tables next : NamespaceTables} {hasContent : String → Bool}
    {request : NamespaceRequest} {answer : Except LayerhouseError NamespaceResponse}
    (moved : NamespaceMove tables hasContent request next answer)
    (holds : GrantsConsistent tables) {handle id : String} {stored : NamespaceGrant}
    (found : next.grant? handle id = some stored) :
    next.namespaces[handle]? = tables.namespaces[handle]? ∧
      (tables.grant? handle id = some stored ∨ PutBy tables request handle id stored) := by
  cases moved with
  | refused => exact ⟨rfl, Or.inl found⟩
  | @claimed claimed _ _ _ _ _ _ valid unreserved unclaimed assigned =>
    have before : tables.grant? handle id = some stored := found
    obtain ⟨grants, ofHandle, _⟩ := Option.bind_eq_some_iff.mp before
    have live := holds.claimed handle grants ofHandle
    refine ⟨?_, Or.inl before⟩
    show (tables.namespaces.insert claimed _)[handle]? = _
    rw [BTreeMap.getElem?_insert, if_neg]
    rintro rfl
    exact live unclaimed
  | @released _ released _ _ _ _ asked lookup contentless =>
    rw [NamespaceTables.grant?_release] at found
    split at found
    · cases found
    · rename_i other
      refine ⟨?_, Or.inl found⟩
      show (tables.namespaces.erase released)[handle]? = _
      rw [BTreeMap.getElem?_erase, if_neg other]
  | @granted grant actorLabel reason auditId checked =>
    refine ⟨rfl, ?_⟩
    rw [NamespaceTables.grant?_putGrant] at found
    split at found
    · rename_i same
      cases found
      refine Or.inr ⟨grant, actorLabel, reason, auditId, rfl, checked, same.1, same.2, ?_⟩
      rw [NamespaceTables.putGrant_snd]
      cases tables.grant? grant.namespaceHandle grant.id <;> rfl
    · exact Or.inl found
  | @ungranted removed grantId _ _ _ _ _ claimed absent =>
    rw [NamespaceTables.grant?_removeGrant] at found
    rw [(removeGrant_handles tables removed grantId).1]
    split at found
    · cases found
    · exact ⟨rfl, Or.inl found⟩
  | @withdrawn removed grantId _ _ _ _ _ _ event claimed lookup =>
    have kept : (tables.removeGrant removed grantId).grant? handle id = some stored := found
    rw [NamespaceTables.grant?_removeGrant] at kept
    refine ⟨?_, ?_⟩
    · show (tables.removeGrant removed grantId).namespaces[handle]? = _
      rw [(removeGrant_handles tables removed grantId).1]
    · split at kept
      · cases kept
      · exact Or.inl kept
  | observed => exact ⟨rfl, Or.inl found⟩

/-- A grant stored after a request is in a namespace that the request left as it was. -/
theorem applyRequest_survives {externals : Externals} {now : Nat} {data next : StateMachineData}
    {request : Request} {response : Response}
    (applied : applyRequest externals now data request = .ok (next, response))
    (holds : GrantsConsistent data.namespaceTables) {handle id : String} {stored : NamespaceGrant}
    (found : next.namespaceTables.grant? handle id = some stored) :
    next.namespaces[handle]? = data.namespaces[handle]? ∧
      (data.namespaceTables.grant? handle id = some stored ∨
        ∃ inner, request = .namespaces inner ∧
          PutBy data.namespaceTables inner handle id stored) := by
  rcases applyRequest_namespaceTables applied with same | ⟨inner, answer, asked, moved⟩
  · rw [same] at found
    exact ⟨congrArg (fun tables => tables.namespaces[handle]?) same, Or.inl found⟩
  · obtain ⟨sameLive, before⟩ := moved.survives holds found
    exact ⟨sameLive, before.imp_right fun put => ⟨inner, asked, put⟩⟩

/-! ### The invariant -/

/-- What holds of the grants of every state. -/
structure GrantsInOrder (data : StateMachineData) : Prop where
  consistent : GrantsConsistent data.namespaceTables
  keyed : ∀ handle id grant, data.namespaceTables.grant? handle id = some grant →
    ∃ key, grant.grantee.stableKey = .ok key
  unique : UniqueGrants data.namespaceTables

theorem grantsInOrder_empty : GrantsInOrder StateMachineData.empty where
  consistent := grantsConsistent_empty
  keyed := fun handle id grant found =>
    absurd ((BTreeMap.entry?_empty handle id).symm.trans found) (Option.some_ne_none grant).symm
  unique := fun handle first _ before _ found =>
    absurd ((BTreeMap.entry?_empty handle first).symm.trans found) (Option.some_ne_none before).symm

namespace GrantsInOrder

variable {data : StateMachineData}

/-- The lookup of a stored grant's grantee finds that grant. -/
theorem grantFor_eq (holds : GrantsInOrder data) {handle id : String} {grant : NamespaceGrant}
    (stored : data.namespaceTables.grant? handle id = some grant) :
    data.grantFor handle grant.grantee = .ok (some id) := by
  obtain ⟨key, ofGrant⟩ := holds.keyed handle id grant stored
  have keyed : ∀ other ∈ data.listNamespaceGrants handle,
      ∃ key, other.grantee.stableKey = .ok key := by
    intro other member
    obtain ⟨otherId, lookup⟩ := mem_listNamespaceGrants.mp member
    exact holds.keyed handle otherId other lookup
  obtain ⟨found, searched⟩ := matchingGrant_ok keyed ofGrant
  rw [StateMachineData.grantFor, searched]
  cases found with
  | none =>
    exact absurd rfl
      (matchingGrant_eq_none searched grant (mem_listNamespaceGrants.mpr ⟨id, stored⟩))
  | some other =>
    obtain ⟨member, same⟩ := matchingGrant_eq_some searched
    obtain ⟨otherId, lookup⟩ := mem_listNamespaceGrants.mp member
    have sameId := holds.unique handle otherId id other grant lookup stored same
    show Except.ok (some other.id) = _
    rw [(holds.consistent.stored handle otherId other lookup).keyed, sameId]

/-- A grant the lookup finds is stored, with the grantee's key. -/
theorem of_grantFor_some (holds : GrantsInOrder data) {handle id : String}
    {grantee : NamespaceGrantGrantee} (searched : data.grantFor handle grantee = .ok (some id)) :
    ∃ grant, data.namespaceTables.grant? handle id = some grant ∧
      grant.grantee.stableKey = grantee.stableKey := by
  obtain ⟨found, lookup, named⟩ := exceptMap_eq_ok.mp searched
  obtain ⟨grant, rfl, rfl⟩ := Option.map_eq_some_iff.mp named
  obtain ⟨member, same⟩ := matchingGrant_eq_some lookup
  obtain ⟨storedId, stored⟩ := mem_listNamespaceGrants.mp member
  rw [(holds.consistent.stored handle storedId grant stored).keyed]
  exact ⟨grant, stored, same⟩

/-- When the lookup finds none, no stored grant has the grantee's key. -/
theorem of_grantFor_none {handle id : String} {grantee : NamespaceGrantGrantee}
    (searched : data.grantFor handle grantee = .ok none) {grant : NamespaceGrant}
    (stored : data.namespaceTables.grant? handle id = some grant) :
    grant.grantee.stableKey ≠ grantee.stableKey := by
  obtain ⟨found, lookup, named⟩ := exceptMap_eq_ok.mp searched
  cases Option.map_eq_none_iff.mp named
  exact matchingGrant_eq_none lookup grant (mem_listNamespaceGrants.mpr ⟨id, stored⟩)

/-- A request keeps the grants in order, when a grant that it puts goes under the id of the grant
its grantee has, if there is one. -/
theorem applyRequest (holds : GrantsInOrder data) {externals : Externals} {now : Nat}
    {next : StateMachineData} {request : Request} {response : Response}
    (applied : Layerhouse.applyRequest externals now data request = .ok (next, response))
    (puts : ∀ grant actorLabel reason auditId,
      request = .namespaces (.putGrant grant actorLabel reason auditId) →
      data.namespaces[grant.namespaceHandle]? ≠ none →
        data.grantFor grant.namespaceHandle grant.grantee = .ok (some grant.id) ∨
          data.grantFor grant.namespaceHandle grant.grantee = .ok none) :
    GrantsInOrder next where
  consistent := holds.consistent.applyRequest applied
  keyed := by
    intro handle id stored found
    rcases (applyRequest_survives applied holds.consistent found).2 with before | put
    · exact holds.keyed handle id stored before
    · obtain ⟨_, _, grant, _, _, _, _, checked, _, _, same⟩ := put
      rw [same]
      exact stableKey_of_validated checked
  unique := by
    have ofPut : ∀ {handle id inner stored first before}, request = .namespaces inner →
        PutBy data.namespaceTables inner handle id stored →
        data.namespaceTables.grant? handle first = some before →
        before.grantee.stableKey = stored.grantee.stableKey → first = id := by
      rintro handle id inner stored first before asked
        ⟨grant, actorLabel, reason, auditId, rfl, checked, rfl, rfl, sameGrantee⟩ found sameKey
      rw [sameGrantee] at sameKey
      have live := (validateNamespaceGrant_eq_ok checked).1
      rcases puts grant actorLabel reason auditId asked live with known | none
      · obtain ⟨existing, lookup, existingKey⟩ := holds.of_grantFor_some known
        exact holds.unique _ first grant.id before existing found lookup
          (sameKey.trans existingKey.symm)
      · exact absurd sameKey (of_grantFor_none none found)
    intro handle first second before after foundBefore foundAfter sameKey
    rcases (applyRequest_survives applied holds.consistent foundBefore).2 with
      earlier | ⟨inner, asked, put⟩ <;>
    rcases (applyRequest_survives applied holds.consistent foundAfter).2 with
      alsoEarlier | ⟨other, alsoAsked, alsoPut⟩
    · exact holds.unique handle first second before after earlier alsoEarlier sameKey
    · exact ofPut alsoAsked alsoPut earlier sameKey
    · exact (ofPut asked put alsoEarlier sameKey.symm).symm
    · obtain ⟨grant, _, _, _, rfl, _, _, rfl, _⟩ := put
      cases asked.symm.trans alsoAsked
      obtain ⟨_, _, _, _, same, _, _, rfl, _⟩ := alsoPut
      cases same
      rfl

end GrantsInOrder

namespace GrantEditSystem

/-- The call is about to commit a new grant under the id that it drew. -/
def Draws (system : GrantEditSystem) (id : Nat) (grantId : String) : Prop :=
  ∃ edit seen grant actorLabel reason auditId,
    system.routes.calls id =
      some (edit, .ready seen (.putGrant grant actorLabel reason auditId)) ∧
    seen.grantFor edit.handle grant.grantee = .ok none ∧ grant.id = grantId

/-- The id was drawn, and no grant was ever stored under it. -/
structure Unused (system : GrantEditSystem) (grantId : String) : Prop where
  drawn : grantId ∈ system.drawn
  never : ∀ past ∈ system.routes.history, ∀ handle,
    past.namespaceTables.grant? handle grantId = none

/-- What a prepared grant says about the data that its handler read. -/
structure Prepared (edit : GrantEdit) (seen : StateMachineData) (grant : NamespaceGrant) :
    Prop where
  placed : grant.namespaceHandle = edit.handle
  searched : seen.grantFor edit.handle grant.grantee = .ok (some grant.id) ∨
    seen.grantFor edit.handle grant.grantee = .ok none

/-- A create takes the id of the grant that its lookup found, or the one it drew; a patch keeps
the id of the grant it read. -/
theorem prepared_of_prepare {edit : GrantEdit} {data : StateMachineData} {now : Nat}
    {grantId auditId actorLabel reason audit : String} {grant : NamespaceGrant}
    (ordered : GrantsInOrder data)
    (prepared : edit.prepare data now grantId auditId =
      .ok (.ok (.putGrant grant actorLabel reason audit))) :
    Prepared edit data grant ∧
      (data.grantFor edit.handle grant.grantee = .ok none → grant.id = grantId) := by
  rw [GrantEdit.prepare] at prepared
  split at prepared
  · rw [putNamespaceGrant] at prepared
    split at prepared
    · cases prepared
    split at prepared
    · cases prepared
    · cases prepared
    rename_i grantee _
    split at prepared
    · cases prepared
    rename_i existing searched
    split at prepared
    · cases prepared
    cases prepared
    have found : data.grantFor edit.handle grantee = .ok (existing.map (·.id)) := by
      rw [StateMachineData.grantFor, searched]
      rfl
    cases existing with
    | none => exact ⟨⟨rfl, Or.inr found⟩, fun _ => rfl⟩
    | some other =>
      refine ⟨⟨rfl, Or.inl found⟩, fun none => ?_⟩
      cases found.symm.trans none
  · rw [patchNamespaceGrant] at prepared
    split at prepared
    · cases prepared
    split at prepared
    · cases prepared
    rename_i stored lookup
    split at prepared
    · cases prepared
    cases prepared
    have kept := ordered.consistent.stored _ _ stored lookup
    have found : data.grantFor edit.handle stored.grantee = .ok (some stored.id) := by
      rw [kept.keyed]
      exact ordered.grantFor_eq lookup
    refine ⟨⟨kept.placed, Or.inl found⟩, fun none => ?_⟩
    cases found.symm.trans none
  · rw [deleteNamespaceGrant] at prepared
    split at prepared
    · cases prepared
    · cases prepared

structure Sound (system : GrantEditSystem) : Prop where
  past : system.routes.Remembers GrantsInOrder
  drawn : ∀ past ∈ system.routes.history, ∀ handle id grant,
    past.namespaceTables.grant? handle id = some grant → id ∈ system.drawn
  wereStored : ∀ gone ∈ system.withdrawn, ∃ past ∈ system.routes.history, ∃ grant,
    past.namespaceTables.grant? gone.handle gone.grantId = some grant
  gone : system.WithdrawnAreGone
  ready : ∀ id edit seen grant actorLabel reason auditId,
    system.routes.calls id =
      some (edit, .ready seen (.putGrant grant actorLabel reason auditId)) →
    Prepared edit seen grant
  unused : ∀ id grantId, system.Draws id grantId → system.Unused grantId
  distinct : ∀ first second grantId, system.Draws first grantId → system.Draws second grantId →
    first = second

theorem sound_initial : Sound initial where
  past := CallSystem.remembers_initial grantsInOrder_empty
  drawn := by
    intro past member handle id grant found
    rw [List.mem_singleton.mp member] at found
    exact absurd ((BTreeMap.entry?_empty handle id).symm.trans found)
      (Option.some_ne_none grant).symm
  wereStored := fun _ impossible => absurd impossible List.not_mem_nil
  gone := fun _ impossible => absurd impossible List.not_mem_nil
  ready := fun _ _ _ _ _ _ _ impossible => by cases impossible
  unused := fun _ _ impossible => by
    obtain ⟨_, _, _, _, _, _, impossible, _⟩ := impossible
    cases impossible
  distinct := fun _ _ _ impossible => by
    obtain ⟨_, _, _, _, _, _, impossible, _⟩ := impossible
    cases impossible

/-- The calls that are ready in the next system were ready before. -/
def ReadiesNone (system next : GrantEditSystem) : Prop :=
  ∀ id edit seen request, next.routes.calls id = some (edit, .ready seen request) →
    system.routes.calls id = some (edit, .ready seen request)

theorem readiesNone_setCall {system : GrantEditSystem} {routes : CallSystem GrantEdit EditStage}
    {id : Nat} {called : Option (GrantEdit × EditStage)} {drawn : List String}
    {withdrawn : List Withdrawal} (same : routes.calls = system.routes.calls)
    (waits : ∀ edit seen request, called ≠ some (edit, .ready seen request)) :
    system.ReadiesNone ⟨routes.setCall id called, drawn, withdrawn⟩ := by
  intro other edit seen request found
  rcases CallSystem.calls_setCall found with ⟨_, ready⟩ | ⟨_, kept⟩
  · exact absurd ready (waits edit seen request)
  · exact same ▸ kept

theorem readiesNone_continueWith {system : GrantEditSystem} {id : Nat} {edit : GrantEdit}
    {Value : Type} {outcome : Except LayerhouseError Value} {reach : Value → EditStage}
    {drawn : List String} {withdrawn : List Withdrawal}
    (waits : ∀ value seen request, reach value ≠ .ready seen request) :
    system.ReadiesNone
      ⟨system.routes.continueWith id edit (outcome.map reach), drawn, withdrawn⟩ := by
  intro other called seen request found
  rcases CallSystem.calls_continueWith found with ⟨_, _, reached⟩ | ⟨_, kept⟩
  · obtain ⟨value, _, ready⟩ := exceptMap_eq_ok.mp reached
    exact absurd ready (waits value seen request)
  · exact kept

/-- What a commit may put: the grant its grantee has, or a new one under an unused id that no
other call is about to use. -/
def Puts (system next : GrantEditSystem) (request : Request) : Prop :=
  ∀ grant actorLabel reason auditId,
    request = .namespaces (.putGrant grant actorLabel reason auditId) →
    system.routes.data.namespaces[grant.namespaceHandle]? ≠ none →
      system.routes.data.grantFor grant.namespaceHandle grant.grantee = .ok (some grant.id) ∨
        system.routes.data.grantFor grant.namespaceHandle grant.grantee = .ok none ∧
          system.Unused grant.id ∧ ∀ id, ¬ next.Draws id grant.id

namespace Sound

variable {system next : GrantEditSystem}

theorem draws_of_readiesNone (calls : system.ReadiesNone next) {id : Nat} {grantId : String}
    (draws : next.Draws id grantId) : system.Draws id grantId := by
  obtain ⟨edit, seen, grant, actorLabel, reason, auditId, called, searched, same⟩ := draws
  exact ⟨edit, seen, grant, actorLabel, reason, auditId, calls _ _ _ _ called, searched, same⟩

/-- A step that reads nothing a grant depends on. -/
theorem ofCalls (holds : system.Sound) (history : next.routes.history = system.routes.history)
    (drawn : next.drawn = system.drawn) (withdrawn : next.withdrawn = system.withdrawn)
    (calls : system.ReadiesNone next) : next.Sound := by
  obtain ⟨⟨pasts, called⟩, drawnIds, withdrawals⟩ := next
  cases history
  cases drawn
  cases withdrawn
  exact ⟨⟨holds.past.always, holds.past.present⟩, holds.drawn, holds.wereStored, holds.gone,
    fun id edit seen grant actorLabel reason auditId ready =>
      holds.ready id edit seen grant actorLabel reason auditId (calls _ _ _ _ ready),
    fun id grantId draws =>
      ⟨(holds.unused id grantId (draws_of_readiesNone calls draws)).drawn,
        (holds.unused id grantId (draws_of_readiesNone calls draws)).never⟩,
    fun first second grantId draws alsoDraws => holds.distinct first second grantId
      (draws_of_readiesNone calls draws) (draws_of_readiesNone calls alsoDraws)⟩

/-- The id of a grant that is stored after a commit was stored in that namespace before, or is a
new one. -/
theorem stored_after (holds : system.Sound) {externals : Externals} {now : Nat}
    {after : StateMachineData} {request : Request} {response : Response}
    (applied : applyRequest externals now system.routes.data request = .ok (after, response))
    (puts : system.Puts next request) {handle grantId : String} {stored : NamespaceGrant}
    (found : after.namespaceTables.grant? handle grantId = some stored) :
    after.namespaces[handle]? = system.routes.data.namespaces[handle]? ∧
      ((∃ before, system.routes.data.namespaceTables.grant? handle grantId = some before) ∨
        system.Unused grantId ∧ ∀ id, ¬ next.Draws id grantId) := by
  have ordered := holds.past.always _ holds.past.present
  obtain ⟨sameLive, before | ⟨inner, rfl, put⟩⟩ :=
    applyRequest_survives applied ordered.consistent found
  · exact ⟨sameLive, Or.inl ⟨stored, before⟩⟩
  obtain ⟨grant, actorLabel, reason, auditId, rfl, checked, rfl, rfl, _⟩ := put
  refine ⟨sameLive, ?_⟩
  rcases puts grant actorLabel reason auditId rfl (validateNamespaceGrant_eq_ok checked).1 with
    known | ⟨_, new⟩
  · obtain ⟨existing, lookup, _⟩ := ordered.of_grantFor_some known
    exact Or.inl ⟨existing, lookup⟩
  · exact Or.inr new

/-- A commit that puts what it may put, and withdraws what it removes. -/
theorem commit (holds : system.Sound) {externals : Externals} {now : Nat}
    {after : StateMachineData} {request : Request} {response : Response}
    (applied : applyRequest externals now system.routes.data request = .ok (after, response))
    {removed : List Withdrawal} (history : next.routes.history = after :: system.routes.history)
    (drawn : next.drawn = system.drawn) (withdrawn : next.withdrawn = removed ++ system.withdrawn)
    (calls : system.ReadiesNone next) (puts : system.Puts next request)
    (removes : ∀ gone ∈ removed,
      (∃ grant, system.routes.data.namespaceTables.grant? gone.handle gone.grantId = some grant) ∧
        after.namespaceTables.grant? gone.handle gone.grantId = none) :
    next.Sound := by
  obtain ⟨⟨pasts, called⟩, drawnIds, withdrawals⟩ := next
  cases history
  cases drawn
  cases withdrawn
  have present := holds.past.present
  refine ⟨⟨?_, List.mem_cons_self⟩, ?_, ?_, ?_, ?_, ?_, ?_⟩
  · refine List.forall_mem_cons.mpr ⟨?_, holds.past.always⟩
    refine (holds.past.always _ present).applyRequest applied ?_
    exact fun grant label reason audit asked live =>
      (puts grant label reason audit asked live).imp_right And.left
  · refine List.forall_mem_cons.mpr ⟨fun handle id grant found => ?_, holds.drawn⟩
    rcases (holds.stored_after applied puts found).2 with ⟨before, lookup⟩ | ⟨new, _⟩
    · exact holds.drawn _ present handle id before lookup
    · exact new.drawn
  · intro gone member
    rcases List.mem_append.mp member with just | earlier
    · exact ⟨_, List.mem_cons_of_mem _ present, (removes gone just).1⟩
    · obtain ⟨past, found, stored⟩ := holds.wereStored gone earlier
      exact ⟨past, List.mem_cons_of_mem _ found, stored⟩
  · intro gone member live
    rcases List.mem_append.mp member with just | earlier
    · exact (removes gone just).2
    · refine Option.eq_none_iff_forall_ne_some.mpr fun stored found => ?_
      obtain ⟨sameLive, known⟩ := holds.stored_after applied puts found
      have stillLive : liveGeneration system.routes.data gone.handle = some gone.generation := by
        rw [← live, liveGeneration, ← sameLive]
        rfl
      rcases known with ⟨before, lookup⟩ | ⟨new, _⟩
      · rw [holds.gone gone earlier stillLive] at lookup
        cases lookup
      · obtain ⟨past, was, grant, lookup⟩ := holds.wereStored gone earlier
        rw [new.never past was] at lookup
        cases lookup
  · exact fun id edit seen grant label reason audit ready =>
      holds.ready id edit seen grant label reason audit (calls _ _ _ _ ready)
  · intro id grantId draws
    have before := holds.unused id grantId (draws_of_readiesNone calls draws)
    refine ⟨before.drawn, List.forall_mem_cons.mpr ⟨fun handle => ?_, before.never⟩⟩
    refine Option.eq_none_iff_forall_ne_some.mpr fun stored found => ?_
    rcases (holds.stored_after applied puts found).2 with ⟨grant, lookup⟩ | ⟨_, alone⟩
    · rw [before.never _ present] at lookup
      cases lookup
    · exact alone id draws
  · exact fun first second grantId draws alsoDraws => holds.distinct first second grantId
      (draws_of_readiesNone calls draws) (draws_of_readiesNone calls alsoDraws)

/-- A handler reads and gets ready; the id it was given is new. -/
theorem prepare (holds : system.Sound) (id : Nat) {edit : GrantEdit} {data : StateMachineData}
    {now : Nat} {grantId auditId : String} {outcome : Except LayerhouseError NamespaceRequest}
    (read : data ∈ system.routes.history) (new : grantId ∉ system.drawn)
    (prepared : edit.prepare data now grantId auditId = .ok outcome)
    (history : next.routes.history = system.routes.history)
    (drawn : next.drawn = grantId :: system.drawn) (withdrawn : next.withdrawn = system.withdrawn)
    (calls : ∀ other called seen request,
      next.routes.calls other = some (called, .ready seen request) →
        (other = id ∧ called = edit ∧ seen = data ∧ outcome = .ok request) ∨
          system.routes.calls other = some (called, .ready seen request)) :
    next.Sound := by
  have ordered := holds.past.always data read
  have ofDraws : ∀ {other x}, next.Draws other x →
      (other = id ∧ x = grantId) ∨ system.Draws other x := by
    rintro other x ⟨called, seen, grant, label, reason, audit, found, none, rfl⟩
    rcases calls other called seen _ found with ⟨same, rfl, rfl, rfl⟩ | kept
    · exact Or.inl ⟨same, (prepared_of_prepare ordered prepared).2 none⟩
    · exact Or.inr ⟨called, seen, grant, label, reason, audit, kept, none, rfl⟩
  obtain ⟨⟨pasts, called⟩, drawnIds, withdrawals⟩ := next
  cases history
  cases drawn
  cases withdrawn
  refine ⟨⟨holds.past.always, holds.past.present⟩, ?_, holds.wereStored, holds.gone, ?_, ?_, ?_⟩
  · exact fun past member handle other grant found =>
      List.mem_cons_of_mem _ (holds.drawn past member handle other grant found)
  · intro other called seen grant label reason audit found
    rcases calls other called seen _ found with ⟨_, rfl, rfl, rfl⟩ | kept
    · exact (prepared_of_prepare ordered prepared).1
    · exact holds.ready other called seen grant label reason audit kept
  · intro other x draws
    rcases ofDraws draws with ⟨_, rfl⟩ | before
    · refine ⟨List.mem_cons_self, fun past member handle => ?_⟩
      refine Option.eq_none_iff_forall_ne_some.mpr fun stored found => new ?_
      exact holds.drawn past member handle _ stored found
    · have unused := holds.unused other x before
      exact ⟨List.mem_cons_of_mem _ unused.drawn, unused.never⟩
  · intro first second x draws alsoDraws
    rcases ofDraws draws with ⟨rfl, rfl⟩ | before <;>
    rcases ofDraws alsoDraws with ⟨rfl, same⟩ | alsoBefore
    · rfl
    · exact absurd (holds.unused second _ alsoBefore).drawn new
    · exact absurd (same ▸ (holds.unused first _ before).drawn) new
    · exact holds.distinct first second x before alsoBefore

end Sound

end GrantEditSystem

theorem applyRequest_namespaceMove {externals : Externals} {now : Nat}
    {data next : StateMachineData} {request : NamespaceRequest} {response : Response}
    (applied : applyRequest externals now data (.namespaces request) = .ok (next, response)) :
    ∃ answer, response = toResponse .namespaces answer ∧
      NamespaceMove data.namespaceTables data.hasContent request next.namespaceTables answer := by
  obtain ⟨answer, outcome, answered⟩ := applyNamespace_of_applied applied
  exact ⟨answer, answered, (applyNamespace_move outcome).2⟩

/-- What a commit withdraws was stored and is removed. -/
theorem withdrawnBy_removed {externals : Externals} {now : Nat} {data next : StateMachineData}
    {request : NamespaceRequest} {response : Response}
    (applied : applyRequest externals now data (.namespaces request) = .ok (next, response)) :
    ∀ gone ∈ withdrawnBy data request response,
      (∃ grant, data.namespaceTables.grant? gone.handle gone.grantId = some grant) ∧
        next.namespaceTables.grant? gone.handle gone.grantId = none := by
  intro gone member
  unfold withdrawnBy at member
  split at member
  · obtain ⟨generation, _, rfl⟩ := List.mem_map.mp member
    obtain ⟨answer, answered, moved⟩ := applyRequest_namespaceMove applied
    generalize next.namespaceTables = after at moved
    cases moved with
    | @refused _ error =>
      have failed := isError_errorToResponse error
      rw [toResponse] at answered
      rw [← answered] at failed
      cases failed
    | released asked found contentless =>
      rcases asked with ⟨_, _, _, impossible⟩ | ⟨_, _, impossible⟩
      · cases impossible
      · cases impossible
    | ungranted claimed absent => cases answered
    | @withdrawn _ _ _ _ _ _ _ before event claimed found =>
      refine ⟨⟨before, found⟩, ?_⟩
      show (data.namespaceTables.removeGrant _ _).grant? _ _ = none
      rw [NamespaceTables.grant?_removeGrant, if_pos ⟨rfl, rfl⟩]
  · cases member

namespace GrantEditSystem.Sound

variable {system next : GrantEditSystem}

/-- A commit of another request puts no grant. -/
theorem puts_of_not_editsGrants {request : Request} (other : ¬ request.editsGrants = true) :
    system.Puts next request := by
  rintro grant actorLabel reason auditId rfl
  exact absurd rfl other

/-- A grant that commits as its handler read puts what it may put. -/
theorem puts_of_commitsAsRead (holds : system.Sound) {id now : Nat} {edit : GrantEdit}
    {seen : StateMachineData} {request : NamespaceRequest}
    (called : system.routes.calls id = some (edit, .ready seen request))
    (asRead : system.CommitsAsRead (.write id now)) (ended : next.routes.calls id = none)
    (calls : system.ReadiesNone next) : system.Puts next (.namespaces request) := by
  rintro grant actorLabel reason auditId same live
  cases same
  have prepared := holds.ready id edit seen grant actorLabel reason auditId called
  rw [prepared.placed] at live ⊢
  rcases asRead _ called _ rfl with absent | same
  · exact absurd absent live
  rw [same]
  refine prepared.searched.imp_right fun none => ⟨none, ?_, fun other draws => ?_⟩
  · exact holds.unused id grant.id ⟨edit, seen, grant, _, _, _, called, none, rfl⟩
  -- Another call would have drawn the same id.
  · have before := draws_of_readiesNone calls draws
    have sameCall := holds.distinct other id grant.id before
      ⟨edit, seen, grant, _, _, _, called, none, rfl⟩
    obtain ⟨_, _, _, _, _, _, found, _⟩ := draws
    rw [sameCall, ended] at found
    cases found

/-- Every step whose commits find what their handlers found keeps the invariant. -/
theorem step {externals : Externals} {label : GrantEditLabel} (holds : system.Sound)
    (asRead : system.CommitsAsRead label)
    (stepped : grantEditStep externals system label = some next) : next.Sound := by
  cases label with
  | commit now request =>
    rw [grantEditStep] at stepped
    split at stepped
    · cases stepped
    rename_i other
    obtain ⟨after, committed, rfl⟩ := Option.map_eq_some_iff.mp stepped
    obtain ⟨response, applied⟩ := requestStep_eq_some.mp committed
    exact holds.commit applied rfl rfl (List.nil_append system.withdrawn).symm
      (fun _ _ _ _ ready => ready) (puts_of_not_editsGrants other)
      fun _ impossible => absurd impossible List.not_mem_nil
  | receive id edit =>
    rw [grantEditStep] at stepped
    split at stepped
    · cases stepped
      exact holds.ofCalls rfl rfl rfl (readiesNone_setCall rfl fun _ _ _ => nofun)
    · cases stepped
  | checkOwner id lag =>
    rw [grantEditStep] at stepped
    split at stepped
    · split at stepped
      · cases stepped
      cases stepped
      exact holds.ofCalls (CallSystem.continueWith_history ..) rfl rfl
        (readiesNone_continueWith fun _ _ _ => nofun)
    · cases stepped
  | requireAdmin id =>
    rw [grantEditStep] at stepped
    split at stepped
    · split at stepped
      · cases stepped
        exact holds.ofCalls rfl rfl rfl (readiesNone_setCall rfl fun _ _ _ => nofun)
      · cases stepped
    · cases stepped
  | ensureExists id lag =>
    rw [grantEditStep] at stepped
    split at stepped
    · cases stepped
      exact holds.ofCalls (CallSystem.continueWith_history ..) rfl rfl
        (readiesNone_continueWith fun _ _ _ => nofun)
    · cases stepped
  | prepare id lag now grantId auditId =>
    rw [grantEditStep] at stepped
    split at stepped
    · rename_i edit data called read
      split at stepped
      · cases stepped
      rename_i new
      split at stepped
      · cases stepped
        exact holds.ofCalls rfl rfl rfl (readiesNone_setCall rfl fun _ _ _ => nofun)
      · rename_i outcome prepared
        cases stepped
        refine holds.prepare id (List.mem_of_getElem? read) new prepared
          (CallSystem.continueWith_history ..) rfl rfl fun other called seen request found => ?_
        rcases CallSystem.calls_continueWith found with ⟨same, sameEdit, reached⟩ | ⟨_, kept⟩
        · obtain ⟨asked, rfl, ready⟩ := exceptMap_eq_ok.mp reached
          cases ready
          exact Or.inl ⟨same, sameEdit, rfl, rfl⟩
        · exact Or.inr kept
    · cases stepped
  | write id now =>
    rw [grantEditStep] at stepped
    split at stepped
    · rename_i edit seen request called
      split at stepped
      · cases stepped
      rename_i after response applied
      cases stepped
      have calls : system.ReadiesNone { system with
          routes := (system.routes.commit after).setCall id none
          withdrawn := withdrawnBy system.routes.data request response ++ system.withdrawn } :=
        readiesNone_setCall rfl fun _ _ _ => nofun
      exact holds.commit applied rfl rfl rfl calls
        (holds.puts_of_commitsAsRead called asRead (Function.update_self ..) calls)
        (withdrawnBy_removed applied)
    · cases stepped

end GrantEditSystem.Sound

/-- In every run of grant edits whose commits find the grant that their handler found, with reads
that may lag behind, a grantee has at most one grant of a namespace, and a grant that was deleted
is not there again in the same generation. -/
theorem grant_edits_do_not_race (externals : Externals) (labels : List GrantEditLabel)
    (system : GrantEditSystem)
    (asRead : Along (grantEditStep externals) GrantEditSystem.CommitsAsRead .initial labels)
    (reached : run (grantEditStep externals) .initial labels = some system) :
    UniqueGrants system.routes.data.namespaceTables ∧ system.WithdrawnAreGone := by
  have holds := run_invariant_along GrantEditSystem.Sound
    (fun _ _ _ stepped met holds => holds.step met stepped) reached asRead
    GrantEditSystem.sound_initial
  exact ⟨(holds.past.always _ holds.past.present).unique, holds.gone⟩

/-- The steps of an edit of the namespace's owner up to its commit. -/
def sampleEdit (id : Nat) (change : GrantChange) (grantId : String) : List GrantEditLabel :=
  [.receive id ⟨sampleSession "first", "alice", change, false, none⟩, .checkOwner id 0,
    .ensureExists id 0, .prepare id 0 5 grantId "audit"]

/-- The owner shares a namespace with a friend. -/
def sampleInvite : GrantChange :=
  .create ⟨.user "oidc:user:friend", .pull, none, none⟩

def sampleInvited : List GrantEditLabel :=
  .commit 0 (sampleClaim "alice" "first" false) :: sampleEdit 0 sampleInvite "one"

/-- Edits that follow one another: the friend is invited again, allowed more, and removed. -/
def sampleEdits : List GrantEditLabel :=
  sampleInvited ++ [.write 0 5] ++ sampleEdit 1 sampleInvite "two" ++ [.write 1 6] ++
    sampleEdit 2 (.update "one" ⟨.update, none, none⟩) "three" ++ [.write 2 7] ++
      sampleEdit 3 (.delete "one") "four" ++ [.write 3 8]

theorem grant_edits_do_not_race_sample :
    ∃ system, run (grantEditStep sampleExternals) .initial sampleEdits = some system ∧
      system.withdrawn = [⟨"alice", 1, "one"⟩] ∧
      UniqueGrants system.routes.data.namespaceTables ∧ system.WithdrawnAreGone :=
  ⟨_, rfl, rfl, grant_edits_do_not_race sampleExternals sampleEdits _ (by decide +kernel) rfl⟩

/-- Two invitations of the friend that read before either commits store two grants; a patch that
read the grant before it was deleted stores it again. -/
theorem grant_edits_race :
    (∃ labels system, run (grantEditStep sampleExternals) .initial labels = some system ∧
      ¬ UniqueGrants system.routes.data.namespaceTables) ∧
    ∃ labels system, run (grantEditStep sampleExternals) .initial labels = some system ∧
      ¬ system.WithdrawnAreGone := by
  constructor
  · refine ⟨sampleInvited ++ sampleEdit 1 sampleInvite "two" ++ [.write 0 5, .write 1 6], _, rfl,
      fun unique => ?_⟩
    exact absurd (unique "alice" "one" "two" _ _ rfl rfl rfl) (by decide)
  · refine ⟨sampleInvited ++ [.write 0 5] ++
      sampleEdit 1 (.update "one" ⟨.update, none, none⟩) "two" ++
        sampleEdit 2 (.delete "one") "three" ++ [.write 2 6, .write 1 7], _, rfl, fun gone => ?_⟩
    have absent := gone ⟨"alice", 1, "one"⟩ List.mem_cons_self rfl
    cases absent

end Layerhouse
