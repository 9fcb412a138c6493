/-
This file is the claim handler of `routes/namespaces/handlers.rs`: it commits a claim,
reads the namespace back and expects to find it. The commit may be made by the leader
while the read is answered by the node that serves the call, and other requests commit
in between.

The read finds the caller's own claim exactly when the node has applied the claim, and
no release or revocation of the handle that was accepted since. Otherwise it finds
nothing and the handler panics, or it finds the namespace of an earlier or a later
generation.
-/

import Layerhouse.Routes.CommitLog

namespace Layerhouse

/-! ### The handler -/

structure ClaimNamespaceRequest where
  ownerLabel : Option String
  adminOverride : Bool
deriving DecidableEq

structure ClaimCall where
  identity : AuthIdentity
  handle : String
  request : ClaimNamespaceRequest
deriving DecidableEq

def ClaimCall.ownerLabel (call : ClaimCall) : String :=
  call.request.ownerLabel.getD (call.identity.username.getD "unknown")

def ClaimCall.toRequest (call : ClaimCall) (now : Nat) : NamespaceRequest :=
  .claim call.handle (.user call.identity.subject) call.ownerLabel call.identity.subject
    call.request.adminOverride now

/-- The body of a response about a namespace, `NamespaceResponse` of the routes. -/
structure NamespaceBody where
  handle : String
  generation : Nat
  ownerKind : String
  ownerLabel : String
  createdAt : Nat
deriving DecidableEq

def namespaceResponse (live : Namespace) : NamespaceBody where
  handle := live.handle
  generation := live.generation
  ownerKind :=
    match live.owner with
    | .user _ => "user"
    | .org _ => "org"
  ownerLabel := live.ownerLabel
  createdAt := live.createdAt

/-- The read after the commit. -/
def readClaimed (data : StateMachineData) (handle : String) : Except Panic NamespaceBody :=
  match data.namespaces[handle]? with
  | some live => .ok (namespaceResponse live)
  | none => .error ⟨"namespace just claimed"⟩

/-! ### Claims among commits -/

/-- How far a claim is. The namespace that its commit made is kept to speak about it, with the
number of requests that were committed by then. -/
inductive ClaimStage where
  | received
  | admitted
  | claimed (made : Namespace) (position : Nat)
  | answered (outcome : Except Panic NamespaceBody)

abbrev ClaimSystem := LoggedSystem ClaimCall ClaimStage

/-- A read names the number of committed requests that the serving node has applied. -/
inductive ClaimLabel where
  | commit (now : Nat) (request : Request)
  | receive (id : Nat) (call : ClaimCall)
  | requireAdmin (id : Nat)
  | write (id claimedAt now : Nat)
  | read (id position : Nat)

/-- The commit of a claim. A refused claim is over. -/
def commitClaim (externals : Externals) (system : ClaimSystem) (id : Nat) (call : ClaimCall)
    (claimedAt now : Nat) : Option ClaimSystem :=
  (system.commit externals now (.namespaces (call.toRequest claimedAt))).map
    fun (after, response) =>
      after.setCall id <|
        if response.isError then none
        else after.data.namespaces[call.handle]?.map fun made =>
          (call, .claimed made after.log.length)

/-- Only a claim with an override needs `requireAdmin`. -/
def claimStep (externals : Externals) (system : ClaimSystem) : ClaimLabel → Option ClaimSystem
  | .commit now request => (system.commit externals now request).map (·.1)
  | .receive id call =>
    match system.calls id with
    | none => some (system.setCall id (some (call, .received)))
    | some _ => none
  | .requireAdmin id =>
    match system.calls id with
    | some (call, .received) =>
      if call.request.adminOverride then some (system.setCall id (some (call, .admitted)))
      else none
    | _ => none
  | .write id claimedAt now =>
    match system.calls id with
    | some (call, .received) =>
      if call.request.adminOverride then none
      else commitClaim externals system id call claimedAt now
    | some (call, .admitted) => commitClaim externals system id call claimedAt now
    | _ => none
  | .read id position =>
    match system.calls id, system.states[position]? with
    | some (call, .claimed _ _), some data =>
      some (system.setCall id (some (call, .answered (readClaimed data call.handle))))
    | _, _ => none

/-! ### What a read should be answered with -/

/-- The response to a claim is about the caller's own namespace, the one the commit made. -/
structure DescribesClaim (call : ClaimCall) (made : Namespace)
    (outcome : Except Panic NamespaceBody) : Prop where
  answered : outcome = .ok (namespaceResponse made)
  handle : made.handle = call.handle
  owner : made.owner = .user call.identity.subject
  ownerLabel : made.ownerLabel = call.ownerLabel

/-- An accepted claim makes a namespace of its caller, in a generation above all earlier ones. -/
theorem claim_accepted {externals : Externals} {call : ClaimCall} {claimedAt now : Nat}
    {data next : StateMachineData} {response : Response}
    (applied : applyRequest externals now data (.namespaces (call.toRequest claimedAt)) =
      .ok (next, response))
    (accepted : response.isError = false) :
    ∃ made, next.namespaces[call.handle]? = some made ∧ made.handle = call.handle ∧
      made.owner = .user call.identity.subject ∧ made.ownerLabel = call.ownerLabel ∧
      (handlePhase data call.handle).issued < made.generation := by
  obtain ⟨answer, outcome, rfl⟩ := applyNamespace_of_applied applied
  cases (applyNamespace_effect outcome).2 with
  | kept sameNamespaces sameReleased refused =>
    obtain ⟨error, rfl⟩ := refused rfl
    rw [toResponse, isError_errorToResponse] at accepted
    cases accepted
  | claimed valid unreserved unclaimed assigned namespacesEq releasedEq =>
    have namespacesAt := congrArg (·[call.handle]?) namespacesEq
    simp only [BTreeMap.getElem?_insert, if_pos] at namespacesAt
    exact ⟨_, namespacesAt, rfl, rfl, rfl, (nextGeneration_step unclaimed assigned).2⟩
  | released asked lookup contentless namespacesEq releasedEq recorded =>
    rcases asked with ⟨_, _, _, impossible⟩ | ⟨_, _, impossible⟩ <;> cases impossible

/-! ### What holds of the claims -/

/-- A committed claim made its caller's namespace at its position, in a generation above all
earlier ones. -/
structure ClaimSound (system : ClaimSystem) (call : ClaimCall) (made : Namespace)
    (position : Nat) : Prop where
  handle : made.handle = call.handle
  owner : made.owner = .user call.identity.subject
  ownerLabel : made.ownerLabel = call.ownerLabel
  stood : ∃ data, system.states[position]? = some data ∧
    data.namespaces[call.handle]? = some made
  new : ∀ earlier data, earlier < position → system.states[earlier]? = some data →
    (handlePhase data call.handle).issued < made.generation

structure ClaimsConsistent (externals : Externals) (system : ClaimSystem) : Prop where
  linked : system.Linked externals
  claims : ∀ id call made position, system.calls id = some (call, .claimed made position) →
    ClaimSound system call made position

variable {externals : Externals} {system after : ClaimSystem}

theorem claimsConsistent_initial : ClaimsConsistent externals .initial where
  linked := LoggedSystem.linked_initial
  claims := fun id call made position impossible => by cases impossible

theorem ClaimSound.commit {call : ClaimCall} {made : Namespace} {position now : Nat}
    {request : Request} {response : Response} (sound : ClaimSound system call made position)
    (linked : system.Linked externals)
    (committed : system.commit externals now request = some (after, response)) :
    ClaimSound after call made position := by
  obtain ⟨data, stood, lookup⟩ := sound.stood
  refine ⟨sound.handle, sound.owner, sound.ownerLabel, ?_, ?_⟩
  · exact ⟨data, linked.states_commit committed stood, lookup⟩
  · intro earlier other before found
    refine sound.new earlier other before ?_
    rw [linked.states_of_commit committed (before.le.trans (linked.position_le stood))] at found
    exact found

theorem ClaimsConsistent.commit {now : Nat} {request : Request} {response : Response}
    (holds : ClaimsConsistent externals system)
    (committed : system.commit externals now request = some (after, response)) :
    ClaimsConsistent externals after where
  linked := holds.linked.commit committed
  claims := by
    intro id call made position found
    refine (holds.claims id call made position ?_).commit holds.linked committed
    rw [LoggedSystem.calls_commit committed] at found
    exact found

theorem ClaimsConsistent.setCall (holds : ClaimsConsistent externals system) (id : Nat)
    {called : Option (ClaimCall × ClaimStage)}
    (sound : ∀ call made position, called = some (call, .claimed made position) →
      ClaimSound system call made position) :
    ClaimsConsistent externals (system.setCall id called) where
  linked := holds.linked.setCall id called
  claims := by
    intro other call made position found
    have here : ClaimSound system call made position := by
      rcases LoggedSystem.calls_setCall found with new | old
      · exact sound call made position new
      · exact holds.claims other call made position old
    exact ⟨here.handle, here.owner, here.ownerLabel, here.stood, here.new⟩

/-- A claim that commits makes a namespace that stands in the new state and in no earlier one. -/
theorem ClaimsConsistent.commitClaim {id : Nat} {call : ClaimCall} {claimedAt now : Nat}
    (holds : ClaimsConsistent externals system)
    (written : Layerhouse.commitClaim externals system id call claimedAt now = some after) :
    ClaimsConsistent externals after := by
  obtain ⟨⟨next, response⟩, committed, rfl⟩ := Option.map_eq_some_iff.mp written
  refine (holds.commit committed).setCall id fun other made position found => ?_
  split at found
  · exact nomatch found
  · rename_i accepted
    obtain ⟨live, lookup, same⟩ := Option.map_eq_some_iff.mp found
    cases same
    obtain ⟨applied, latest⟩ := holds.linked.applied_commit committed
    obtain ⟨made, lookupMade, handle, owner, ownerLabel, issued⟩ :=
      claim_accepted applied (Bool.eq_false_iff.mpr accepted)
    obtain rfl := Option.some.inj (lookup.symm.trans lookupMade)
    refine ⟨handle, owner, ownerLabel, ⟨next.data, latest, lookup⟩, ?_⟩
    intro earlier data before found
    rw [LoggedSystem.length_commit committed] at before
    rw [holds.linked.states_of_commit committed (Nat.le_of_lt_succ before)] at found
    exact lt_of_le_of_lt (holds.linked.issued_le call.handle (Nat.le_of_lt_succ before) found
      holds.linked.latest) issued

theorem ClaimsConsistent.step {label : ClaimLabel} (holds : ClaimsConsistent externals system)
    (stepped : claimStep externals system label = some after) :
    ClaimsConsistent externals after := by
  cases label with
  | commit now request =>
    obtain ⟨⟨next, response⟩, committed, rfl⟩ := Option.map_eq_some_iff.mp stepped
    exact holds.commit committed
  | receive id call =>
    simp only [claimStep] at stepped
    split at stepped
    · rw [← Option.some.inj stepped]
      exact holds.setCall id fun _ _ _ other => by cases other
    · exact nomatch stepped
  | requireAdmin id =>
    simp only [claimStep] at stepped
    split at stepped
    · split at stepped
      · rw [← Option.some.inj stepped]
        exact holds.setCall id fun _ _ _ other => by cases other
      · exact nomatch stepped
    · exact nomatch stepped
  | write id claimedAt now =>
    simp only [claimStep] at stepped
    split at stepped
    · split at stepped
      · exact nomatch stepped
      · exact holds.commitClaim stepped
    · exact holds.commitClaim stepped
    · exact nomatch stepped
  | read id position =>
    simp only [claimStep] at stepped
    split at stepped
    · rw [← Option.some.inj stepped]
      exact holds.setCall id fun _ _ _ other => by cases other
    · exact nomatch stepped

/-- Only the live namespace of the same generation is described as the claimed one. -/
theorem live_of_readClaimed {data : StateMachineData} {handle : String} {made : Namespace}
    (answered : readClaimed data handle = .ok (namespaceResponse made)) :
    handlePhase data handle = .live made.generation := by
  rw [readClaimed] at answered
  split at answered
  · rename_i found lookup
    rw [handlePhase_of_live lookup]
    exact congrArg HandlePhase.live (congrArg NamespaceBody.generation (Except.ok.inj answered))
  · exact nomatch answered

/-- In every run, a committed claim is answered with the caller's own namespace exactly if the
serving node has applied the claim and, since then, no accepted release or revocation of the
handle. -/
theorem claim_answered_iff (externals : Externals) {labels : List ClaimLabel}
    {system : ClaimSystem} (reached : run (claimStep externals) .initial labels = some system)
    {id applied position : Nat} {call : ClaimCall} {made : Namespace} {data : StateMachineData}
    (claimed : system.calls id = some (call, .claimed made position))
    (served : system.states[applied]? = some data) :
    DescribesClaim call made (readClaimed data call.handle) ↔
      position ≤ applied ∧
        ¬ LoggedSystem.Between system.log position applied (ReleasesHandle call.handle) := by
  have holds : ClaimsConsistent externals system := run_invariant (ClaimsConsistent externals)
    (fun _ _ _ stepped holds => holds.step stepped) reached claimsConsistent_initial
  have sound := holds.claims id call made position claimed
  obtain ⟨past, stood, lookup⟩ := sound.stood
  constructor
  · intro describes
    have live := live_of_readClaimed describes.answered
    have ordered : position ≤ applied := by
      by_contra early
      have issued := sound.new applied data (Nat.lt_of_not_le early) served
      rw [live] at issued
      exact absurd issued (Nat.lt_irrefl _)
    refine ⟨ordered, ?_⟩
    rcases holds.linked.live_iff ordered stood served lookup with ⟨_, ended⟩ | ⟨kept, _⟩
    · rw [live] at ended
      exact absurd ended (Nat.lt_irrefl _)
    · exact kept
  · rintro ⟨ordered, kept⟩
    rcases holds.linked.live_iff ordered stood served lookup with ⟨released, _⟩ | ⟨_, same⟩
    · exact absurd released kept
    · exact ⟨by rw [readClaimed, same], sound.handle, sound.owner, sound.ownerLabel⟩

/-- A claim that was committed and has not been read back. -/
def sampleClaimed : List ClaimLabel :=
  [.receive 0 ⟨sampleSession "first", "alice", ⟨none, false⟩⟩, .write 0 5 0]

/-- On a node that has not applied the claim, the handler panics. -/
theorem claim_panics_on_follower :
    ∃ system data call made position,
      run (claimStep sampleExternals) .initial sampleClaimed = some system ∧
      system.calls 0 = some (call, .claimed made position) ∧
      system.states[0]? = some data ∧
      readClaimed data call.handle = .error ⟨"namespace just claimed"⟩ :=
  ⟨_, _, _, _, _, rfl, rfl, rfl, rfl⟩

theorem claim_answered_iff_sample :
    ∃ system data call made position,
      run (claimStep sampleExternals) .initial sampleClaimed = some system ∧
      system.calls 0 = some (call, .claimed made position) ∧
      system.states[1]? = some data ∧
      DescribesClaim call made (readClaimed data call.handle) := by
  have reached : run (claimStep sampleExternals) .initial sampleClaimed = some _ := rfl
  refine ⟨_, _, _, _, _, reached, rfl, rfl,
    (@claim_answered_iff sampleExternals _ _ reached 0 1 _ _ _ _ rfl rfl).mpr ⟨Nat.le_refl _, ?_⟩⟩
  exact LoggedSystem.between_self _ _ _

end Layerhouse
