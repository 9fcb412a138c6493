/-
This file proves when the tracker's record of an upload session agrees with what
is staged, each time a request ends. The code does not see to that by itself. It
reads the staged state, writes the part, writes the state and writes the offset
one after the other, without a lock: two requests that have read the same state
overwrite each other's part, and a request that ends in the middle leaves the
offset behind.

If no request writes what another has outdated, and requests end only while none
is midway, then the offset is the staged total and each acknowledged chunk is a
part of its own. The invariant is about the stages of the requests as a bag, so
that a step replaces one stage by the next and leaves the others as they are.
-/

import Layerhouse.Routes.Uploads

namespace Layerhouse

/-! ### What the requests owe -/

namespace UploadStage

/-- The request is the one that makes the session. -/
def starting : UploadStage → Bool
  | startState | startSession => true
  | _ => false

/-- The chunk that the request has staged, if its response is to acknowledge one. -/
def claim : UploadStage → Option StagedChunk
  | offsetRead _ chunk | offsetWrite _ chunk _ | respond chunk => chunk
  | _ => none

/-- The total with the bytes that the request has staged, as long as it has not written it as the
offset. -/
def owes : UploadStage → Option Nat
  | offsetRead total (some _) | offsetWrite total (some _) _ => some total
  | completeRead pushed | assemble pushed _ _ _ | completeState pushed _ => pushed
  | _ => none

/-- The request has deleted the staged state and not yet the session. -/
def removes : UploadStage → Bool
  | deleteParts _ | clearDeleteRequest | removeSession => true
  | _ => false

/-- The request may have deleted parts and has not yet deleted the staged state. -/
def discards : UploadStage → Bool
  | cancelParts true _ | cancelState true => true
  | _ => false

end UploadStage

namespace UploadObjects

/-- The request is in the middle of a change to the session: it has staged the last bytes and not
recorded them, or it has removed one part of the session and not the rest. -/
def Midway (objects : UploadObjects) (stage : UploadStage) : Prop :=
  objects.session.isSome ∧
    ((stage.owes.isSome ∧ stage.owes = objects.staged.map (·.totalBytes)) ∨
      stage.removes ∨ stage.discards)

instance (objects : UploadObjects) (stage : UploadStage) : Decidable (objects.Midway stage) :=
  inferInstanceAs (Decidable (_ ∧ _))

/-- What a request is about to write is not outdated: the staged state is the one it has read, with
its own bytes in the part, and the offset is the staged total. -/
def Fresh (objects : UploadObjects) (sessionId : String) (request : UploadRequest) :
    UploadStage → Prop
  | .pushPart state => objects.staged = some state
  | .pushState state =>
    objects.staged = some state ∧
      objects.parts[uploadPartKey sessionId state.nextPartNumber]? = some request.body
  | .offsetWrite newOffset _ _ => objects.staged.map (·.totalBytes) = some newOffset
  | _ => True

instance (objects : UploadObjects) (sessionId : String) (request : UploadRequest)
    (stage : UploadStage) : Decidable (objects.Fresh sessionId request stage) :=
  match stage with
  | .pushPart _ => inferInstanceAs (Decidable (_ = _))
  | .pushState _ => inferInstanceAs (Decidable (_ ∧ _))
  | .offsetWrite _ _ _ => inferInstanceAs (Decidable (_ = _))
  | .startState | .startSession | .lookUp | .pushRead | .offsetRead _ _ | .completeRead _
  | .assemble _ _ _ _ | .completeState _ _ | .deleteParts _ | .clearDeleteRequest
  | .removeSession | .cancelRead | .cancelParts _ _ | .cancelState _ | .respond _ =>
    isTrue trivial

end UploadObjects

/-- The staged parts that are there, with their numbers and bytes. -/
def StagedUploadState.chunks (state : StagedUploadState)
    (parts : BTreeMap String (List UInt8)) : List StagedChunk :=
  state.parts.filterMap fun part => parts[part.key]?.map (part.number, ·)

namespace UploadSystem

/-- The stages of the requests that are under way. -/
def stages (requests : BTreeMap Nat (UploadRequest × UploadStage)) : List UploadStage :=
  requests.toList.map (·.2.2)

/-- If the session is there then its offset is the staged total and the sum of the sizes of the
staged parts, and the acknowledged chunks are among the staged parts, each as a part of its own. -/
def Consistent (system : UploadSystem) : Prop :=
  ∀ session, system.objects.session = some session →
    ∃ state, system.objects.staged = some state ∧
      session.offset = state.totalBytes ∧
      state.totalBytes = (state.parts.map (·.size)).sum ∧
      (system.acknowledged.map Prod.snd).Subperm
        ((state.chunks system.objects.parts).map Prod.snd)

instance (system : UploadSystem) : Decidable system.Consistent :=
  match found : system.objects.session, staged : system.objects.staged with
  | none, _ => isTrue fun _ impossible => nomatch found.symm.trans impossible
  | some _, none => isFalse fun consistent => by
    obtain ⟨_, impossible, _⟩ := consistent _ found
    exact nomatch staged.symm.trans impossible
  | some session, some state =>
    decidable_of_iff (session.offset = state.totalBytes ∧
        state.totalBytes = (state.parts.map (·.size)).sum ∧
        (system.acknowledged.map Prod.snd).Subperm
          ((state.chunks system.objects.parts).map Prod.snd))
      (by simp only [Consistent, found, staged, Option.some.injEq, forall_eq', exists_eq_left'])

/-- The step is the end of a request. -/
def Completes (sessionId : String) (sha256 : List UInt8 → Vector UInt8 32)
    (system : UploadSystem) : UploadLabel → Prop
  | .arrive _ _ => False
  | .advance id =>
    system.requests[id]?.any fun call =>
      (system.objects.access sessionId sha256 call.1 call.2).2 = .ends
  | .fail id => system.requests[id]?.isSome

/-- If the step is the end of a request, what it leaves is consistent. -/
def EndsConsistent (sessionId : String) (sha256 : List UInt8 → Vector UInt8 32)
    (system : UploadSystem) (label : UploadLabel) : Prop :=
  system.Completes sessionId sha256 label →
    ∀ next, uploadStep sessionId sha256 system label = some next → next.Consistent

/-- No request writes what is outdated, and none ends while one is midway. -/
def Orderly (sessionId : String) (sha256 : List UInt8 → Vector UInt8 32)
    (system : UploadSystem) (label : UploadLabel) : Prop :=
  (∀ id, label = .advance id → ∀ call ∈ system.requests[id]?,
    system.objects.Fresh sessionId call.1 call.2) ∧
  (system.Completes sessionId sha256 label →
    ∀ stage ∈ stages system.requests, ¬ system.objects.Midway stage)

instance (sessionId : String) (sha256 : List UInt8 → Vector UInt8 32) (system : UploadSystem)
    (label : UploadLabel) : Decidable (system.Completes sessionId sha256 label) :=
  match label with
  | .arrive _ _ => isFalse not_false
  | .advance _ | .fail _ => inferInstanceAs (Decidable (_ = true))

instance (sessionId : String) (sha256 : List UInt8 → Vector UInt8 32) (system : UploadSystem)
    (label : UploadLabel) : Decidable (system.EndsConsistent sessionId sha256 label) :=
  decidable_of_iff (system.Completes sessionId sha256 label →
      ∀ next ∈ (uploadStep sessionId sha256 system label).toList, next.Consistent)
    (by simp only [Option.mem_toList, EndsConsistent])

instance (sessionId : String) (sha256 : List UInt8 → Vector UInt8 32) (system : UploadSystem)
    (label : UploadLabel) : Decidable (system.Orderly sessionId sha256 label) :=
  have fresh : Decidable (∀ id, label = .advance id → ∀ call ∈ system.requests[id]?,
      system.objects.Fresh sessionId call.1 call.2) :=
    match label with
    | .advance id =>
      decidable_of_iff (∀ call ∈ system.requests[id]?.toList,
        system.objects.Fresh sessionId call.1 call.2) (by simp)
    | .arrive _ _ | .fail _ => isTrue (fun _ impossible => nomatch impossible)
  inferInstanceAs (Decidable (_ ∧ _))

end UploadSystem

/-! ### The staged state -/

namespace StagedUploadState

/-- The total is the sum of the sizes, and the parts have the keys of numbers that are taken. -/
structure Counted (sessionId : String) (state : StagedUploadState) : Prop where
  total : state.totalBytes = (state.parts.map (·.size)).sum
  taken : ∀ part ∈ state.parts,
    part.number < state.nextPartNumber ∧ part.key = uploadPartKey sessionId part.number

variable {sessionId : String} {state : StagedUploadState} {parts : BTreeMap String (List UInt8)}
  {data : List UInt8}

theorem counted_started : started.Counted sessionId where
  total := rfl
  taken := fun _ member => nomatch member

theorem Counted.push (counted : state.Counted sessionId) (data : List UInt8) :
    (state.push sessionId data).Counted sessionId where
  total := by
    rw [StagedUploadState.push, counted.total, List.map_append, List.sum_append]
    rfl
  taken := by
    intro part member
    show part.number < state.nextPartNumber + 1 ∧ _
    obtain old | new := List.mem_append.mp member
    · obtain ⟨below, key⟩ := counted.taken part old
      exact ⟨Nat.lt_succ_of_lt below, key⟩
    · obtain rfl := List.mem_singleton.mp new
      exact ⟨Nat.lt_succ_self _, rfl⟩

/-- A part with the next number is none of the staged parts. -/
theorem Counted.chunks_insert (counted : state.Counted sessionId) :
    state.chunks (parts.insert (uploadPartKey sessionId state.nextPartNumber) data) =
      state.chunks parts := by
  refine List.filterMap_congr fun part member => ?_
  obtain ⟨below, key⟩ := counted.taken part member
  rw [BTreeMap.getElem?_insert, if_neg]
  intro same
  exact absurd (uploadPartKey_inj (same.trans key)) (Nat.ne_of_gt below)

theorem chunks_push
    (written : parts[uploadPartKey sessionId state.nextPartNumber]? = some data) :
    (state.push sessionId data).chunks parts =
      state.chunks parts ++ [(state.nextPartNumber, data)] := by
  rw [chunks, StagedUploadState.push, List.filterMap_append, List.filterMap_cons, written]
  rfl

end StagedUploadState

/-! ### The invariant -/

/-- What holds between the objects, the stages of the requests and the acknowledged chunks once
there is a session. -/
structure UploadObjects.Tracked (objects : UploadObjects) (sessionId : String)
    (stages : List UploadStage) (acknowledged : List StagedChunk) : Prop where
  running : ∀ stage ∈ stages, stage.starting = false
  counted : ∀ state, objects.staged = some state → state.Counted sessionId
  /-- No part number is acknowledged twice. -/
  distinct : ((acknowledged ++ stages.filterMap UploadStage.claim).map Prod.fst).Nodup
  taken : ∀ state, objects.staged = some state →
    ∀ chunk ∈ acknowledged ++ stages.filterMap UploadStage.claim, chunk.1 < state.nextPartNumber
  held : ∀ state, objects.staged = some state → (∀ stage ∈ stages, stage.discards = false) →
    ∀ chunk ∈ acknowledged ++ stages.filterMap UploadStage.claim,
      chunk ∈ state.chunks objects.parts
  gone : ∀ stage ∈ stages, stage.removes = true → objects.staged = none
  removed : objects.session = none → objects.staged = none
  recorded : ∀ session, objects.session = some session →
    (∀ stage ∈ stages, ¬ objects.Midway stage) →
    objects.staged.map (·.totalBytes) = some session.offset

/-- Before there is a session: the first request is on its way, and the others find nothing. -/
structure UploadObjects.Unopened (objects : UploadObjects) (stages : List UploadStage)
    (acknowledged : List StagedChunk) : Prop where
  session : objects.session = none
  acknowledged : acknowledged = []
  waiting : ∀ stage ∈ stages, stage.starting = true ∨ stage = .lookUp
  alone : (stages.filter (·.starting)).length ≤ 1
  staged : .startSession ∈ stages → objects.staged = some .started

namespace UploadObjects

variable {objects : UploadObjects} {sessionId : String} {stage next : UploadStage}
  {stages others : List UploadStage} {acknowledged : List StagedChunk}

theorem Tracked.perm (tracked : objects.Tracked sessionId stages acknowledged)
    (same : stages.Perm others) : objects.Tracked sessionId others acknowledged := by
  have known := (same.filterMap UploadStage.claim).append_left acknowledged
  exact {
    running := fun stage member => tracked.running stage (same.mem_iff.mpr member)
    counted := tracked.counted
    distinct := (known.map Prod.fst).nodup_iff.mp tracked.distinct
    taken := fun state staged chunk member =>
      tracked.taken state staged chunk (known.mem_iff.mpr member)
    held := fun state staged kept chunk member =>
      tracked.held state staged (fun stage member => kept stage (same.mem_iff.mp member)) chunk
        (known.mem_iff.mpr member)
    gone := fun stage member => tracked.gone stage (same.mem_iff.mpr member)
    removed := tracked.removed
    recorded := fun session found settled =>
      tracked.recorded session found fun stage member => settled stage (same.mem_iff.mp member) }

theorem Unopened.perm (unopened : objects.Unopened stages acknowledged)
    (same : stages.Perm others) : objects.Unopened others acknowledged where
  session := unopened.session
  acknowledged := unopened.acknowledged
  waiting := fun stage member => unopened.waiting stage (same.mem_iff.mpr member)
  alone := (same.filter _).length_eq.symm.trans_le unopened.alone
  staged := fun member => unopened.staged (same.mem_iff.mpr member)

/-! ### One request goes on -/

/-- The next stage owes at least what the stage before it did. -/
structure Passes (objects : UploadObjects) (stage next : UploadStage) : Prop where
  running : next.starting = false
  claim : next.claim = stage.claim
  removes : next.removes = true → stage.removes = true ∨ objects.staged = none
  discards : stage.discards = true → next.discards = true

/-- A request that goes on and leaves what is staged as it is; the offset is to be shown. -/
theorem Tracked.moves {session : Option UploadSession}
    (tracked : objects.Tracked sessionId (stage :: others) acknowledged)
    (passes : objects.Passes stage next)
    (removed : session = none → objects.staged = none)
    (recorded : ∀ found, session = some found →
      (∀ stage ∈ next :: others, ¬ Midway { objects with session := session } stage) →
      objects.staged.map (·.totalBytes) = some found.offset) :
    Tracked { objects with session := session } sessionId (next :: others) acknowledged := by
  have claims : (next :: others).filterMap UploadStage.claim =
      (stage :: others).filterMap UploadStage.claim := by
    rw [List.filterMap_cons, List.filterMap_cons, passes.claim]
  constructor
  case running =>
    exact List.forall_mem_cons.mpr ⟨passes.running, (List.forall_mem_cons.mp tracked.running).2⟩
  case counted => exact tracked.counted
  case distinct => exact claims ▸ tracked.distinct
  case taken => exact claims ▸ tracked.taken
  case held =>
    intro state staged kept
    rw [claims]
    obtain ⟨nextKept, othersKept⟩ := List.forall_mem_cons.mp kept
    refine tracked.held state staged (List.forall_mem_cons.mpr ⟨?_, othersKept⟩)
    refine Bool.eq_false_iff.mpr fun discards => ?_
    exact absurd (nextKept.symm.trans (passes.discards discards)) Bool.false_ne_true
  case gone =>
    obtain ⟨here, elsewhere⟩ := List.forall_mem_cons.mp tracked.gone
    refine List.forall_mem_cons.mpr ⟨fun removes => ?_, elsewhere⟩
    exact (passes.removes removes).elim here id
  case removed => exact removed
  case recorded => exact recorded

/-- A request that goes on without an effect, and is midway if it was. -/
theorem Tracked.passes (tracked : objects.Tracked sessionId (stage :: others) acknowledged)
    (passes : objects.Passes stage next) (midway : objects.Midway stage → objects.Midway next) :
    objects.Tracked sessionId (next :: others) acknowledged := by
  refine tracked.moves passes tracked.removed fun session found settled => ?_
  obtain ⟨nextSettled, othersSettled⟩ := List.forall_mem_cons.mp settled
  exact tracked.recorded session found
    (List.forall_mem_cons.mpr ⟨fun before => nextSettled (midway before), othersSettled⟩)

/-- The parts do not matter when nothing is staged or somebody is discarding them. -/
theorem Tracked.setParts (tracked : objects.Tracked sessionId stages acknowledged)
    (unused : objects.staged = none ∨ ∃ stage ∈ stages, stage.discards = true)
    (parts : BTreeMap String (List UInt8)) :
    Tracked { objects with parts := parts } sessionId stages acknowledged where
  running := tracked.running
  counted := tracked.counted
  distinct := tracked.distinct
  taken := tracked.taken
  held := by
    intro state staged kept
    obtain unstaged | ⟨stage, member, discards⟩ := unused
    · exact absurd (unstaged.symm.trans staged) nofun
    · exact absurd ((kept stage member).symm.trans discards) Bool.false_ne_true
  gone := tracked.gone
  removed := tracked.removed
  recorded := tracked.recorded

/-- A part with a number that is not taken. -/
theorem Tracked.insertPart {state : StagedUploadState}
    (tracked : objects.Tracked sessionId stages acknowledged)
    (staged : objects.staged = some state) (data : List UInt8) :
    Tracked
      { objects with
        parts := objects.parts.insert (uploadPartKey sessionId state.nextPartNumber) data }
      sessionId stages acknowledged where
  running := tracked.running
  counted := tracked.counted
  distinct := tracked.distinct
  taken := tracked.taken
  held := by
    intro found same kept
    obtain rfl := Option.some.inj (staged.symm.trans same)
    show ∀ chunk ∈ _, chunk ∈ state.chunks (objects.parts.insert _ data)
    rw [(tracked.counted state staged).chunks_insert]
    exact tracked.held state staged kept
  gone := tracked.gone
  removed := tracked.removed
  recorded := tracked.recorded

/-- The request deletes the staged state and goes on to remove the rest. -/
theorem Tracked.unstage (tracked : objects.Tracked sessionId (stage :: others) acknowledged)
    (running : next.starting = false) (claim : next.claim = stage.claim)
    (removes : next.removes = true) :
    Tracked { objects with staged := none } sessionId (next :: others) acknowledged where
  running :=
    List.forall_mem_cons.mpr ⟨running, (List.forall_mem_cons.mp tracked.running).2⟩
  counted := fun _ impossible => nomatch impossible
  distinct := by
    rw [List.filterMap_cons, claim, ← List.filterMap_cons]
    exact tracked.distinct
  taken := fun _ impossible => nomatch impossible
  held := fun _ impossible => nomatch impossible
  gone := fun _ _ _ => rfl
  removed := fun _ => rfl
  recorded := by
    intro session found settled
    refine absurd ⟨?_, Or.inr (Or.inl removes)⟩ (settled next List.mem_cons_self)
    exact Option.isSome_of_eq_some found

/-- A fresh write of the staged state adds the chunk, and the request owes the new total. -/
theorem Tracked.pushState {state : StagedUploadState} {data : List UInt8}
    (tracked : objects.Tracked sessionId (.pushState state :: others) acknowledged)
    (staged : objects.staged = some state)
    (written : objects.parts[uploadPartKey sessionId state.nextPartNumber]? = some data)
    (running : next.starting = false) (removes : next.removes = false)
    (owes : next.owes = some (state.push sessionId data).totalBytes)
    (claim : ∀ chunk, next.claim = some chunk → chunk = (state.nextPartNumber, data)) :
    Tracked { objects with staged := some (state.push sessionId data) } sessionId
      (next :: others) acknowledged := by
  have taken := tracked.taken state staged
  have claims : ∀ chunk ∈ acknowledged ++ (next :: others).filterMap UploadStage.claim,
      chunk ∈ acknowledged ++ others.filterMap UploadStage.claim ∨
        chunk = (state.nextPartNumber, data) := by
    intro chunk member
    obtain acked | claimed := List.mem_append.mp member
    · exact Or.inl (List.mem_append_left _ acked)
    · obtain ⟨stage, here, made⟩ := List.mem_filterMap.mp claimed
      obtain rfl | elsewhere := List.mem_cons.mp here
      · exact Or.inr (claim chunk made)
      · exact Or.inl (List.mem_append_right _ (List.mem_filterMap.mpr ⟨stage, elsewhere, made⟩))
  constructor
  case running =>
    exact List.forall_mem_cons.mpr ⟨running, (List.forall_mem_cons.mp tracked.running).2⟩
  case counted =>
    intro found same
    obtain rfl := Option.some.inj same
    exact (tracked.counted state staged).push data
  case distinct =>
    obtain none | ⟨chunk, made⟩ := Option.eq_none_or_eq_some next.claim
    · rw [List.filterMap_cons, none]
      exact tracked.distinct
    · obtain rfl := claim chunk made
      rw [List.filterMap_cons, made]
      refine ((List.perm_middle.map Prod.fst).nodup_iff).mpr (List.nodup_cons.mpr ⟨?_, ?_⟩)
      · intro member
        obtain ⟨other, known, same⟩ := List.mem_map.mp member
        exact absurd (taken other known) (same ▸ Nat.lt_irrefl _)
      · exact tracked.distinct
  case taken =>
    intro found same chunk member
    obtain rfl := Option.some.inj same
    obtain known | rfl := claims chunk member
    · exact Nat.lt_succ_of_lt (taken chunk known)
    · exact Nat.lt_succ_self _
  case held =>
    intro found same kept chunk member
    obtain rfl := Option.some.inj same
    show chunk ∈ (state.push sessionId data).chunks objects.parts
    rw [StagedUploadState.chunks_push written]
    obtain known | rfl := claims chunk member
    · refine List.mem_append_left _ (tracked.held state staged ?_ chunk known)
      exact List.forall_mem_cons.mpr ⟨rfl, (List.forall_mem_cons.mp kept).2⟩
    · exact List.mem_append_right _ List.mem_cons_self
  case gone =>
    intro other member otherRemoves
    obtain rfl | elsewhere := List.mem_cons.mp member
    · exact absurd (removes.symm.trans otherRemoves) Bool.false_ne_true
    · have unstaged := tracked.gone other (List.mem_cons_of_mem _ elsewhere) otherRemoves
      exact absurd (unstaged.symm.trans staged) nofun
  case removed =>
    intro absent
    exact absurd ((tracked.removed absent).symm.trans staged) nofun
  case recorded =>
    intro session found settled
    refine absurd ⟨Option.isSome_of_eq_some found, Or.inl ⟨?_, owes⟩⟩
      (settled next List.mem_cons_self)
    exact Option.isSome_of_eq_some owes

/-! ### Requests come and end -/

theorem Tracked.arrive (tracked : objects.Tracked sessionId stages acknowledged) :
    objects.Tracked sessionId (.lookUp :: stages) acknowledged where
  running := List.forall_mem_cons.mpr ⟨rfl, tracked.running⟩
  counted := tracked.counted
  distinct := tracked.distinct
  taken := tracked.taken
  held := fun state staged kept =>
    tracked.held state staged (List.forall_mem_cons.mp kept).2
  gone := List.forall_mem_cons.mpr ⟨nofun, tracked.gone⟩
  removed := tracked.removed
  recorded := fun session found settled =>
    tracked.recorded session found (List.forall_mem_cons.mp settled).2

/-- A request that is not midway ends; what it has claimed is acknowledged or forgotten. -/
theorem Tracked.ends {after : List StagedChunk}
    (tracked : objects.Tracked sessionId (stage :: others) acknowledged)
    (settled : ¬ objects.Midway stage)
    (known : (after ++ others.filterMap UploadStage.claim).Subperm
      (acknowledged ++ (stage :: others).filterMap UploadStage.claim)) :
    objects.Tracked sessionId others after where
  running := (List.forall_mem_cons.mp tracked.running).2
  counted := tracked.counted
  distinct := by
    obtain ⟨middle, same, part⟩ := known
    exact (same.map Prod.fst).nodup_iff.mp ((part.map Prod.fst).nodup tracked.distinct)
  taken := fun state staged chunk member =>
    tracked.taken state staged chunk (known.subset member)
  held := by
    intro state staged kept chunk member
    refine tracked.held state staged (List.forall_mem_cons.mpr ⟨?_, kept⟩) chunk
      (known.subset member)
    refine Bool.eq_false_iff.mpr fun discards => ?_
    -- a discarding request is midway, unless the session is gone and the staged state with it
    obtain absent | ⟨session, found⟩ := Option.eq_none_or_eq_some objects.session
    · exact absurd ((tracked.removed absent).symm.trans staged) nofun
    · exact settled ⟨Option.isSome_of_eq_some found, Or.inr (Or.inr discards)⟩
  gone := (List.forall_mem_cons.mp tracked.gone).2
  removed := tracked.removed
  recorded := fun session found othersSettled =>
    tracked.recorded session found (List.forall_mem_cons.mpr ⟨settled, othersSettled⟩)

/-- When no request is midway, the offset and the chunks are as they should be. -/
theorem Tracked.consistent {requests : BTreeMap Nat (UploadRequest × UploadStage)}
    (tracked : objects.Tracked sessionId stages acknowledged)
    (settled : ∀ stage ∈ stages, ¬ objects.Midway stage) :
    UploadSystem.Consistent ⟨objects, requests, acknowledged⟩ := by
  intro session found
  obtain ⟨state, staged, offset⟩ :=
    Option.map_eq_some_iff.mp (tracked.recorded session found settled)
  have kept : ∀ stage ∈ stages, stage.discards = false := fun stage member =>
    Bool.eq_false_iff.mpr fun discards =>
      settled stage member ⟨Option.isSome_of_eq_some found, Or.inr (Or.inr discards)⟩
  have once : acknowledged.Nodup := by
    have distinct := tracked.distinct
    rw [List.map_append] at distinct
    exact List.Nodup.of_map Prod.fst distinct.of_append_left
  have among : acknowledged.Subperm (state.chunks objects.parts) :=
    List.subperm_of_subset once fun chunk member =>
      tracked.held state staged kept chunk (List.mem_append_left _ member)
  refine ⟨state, staged, offset.symm, (tracked.counted state staged).total, ?_⟩
  obtain ⟨middle, same, part⟩ := among
  exact ⟨middle.map Prod.snd, same.map Prod.snd, part.map Prod.snd⟩

theorem Unopened.arrive (unopened : objects.Unopened stages acknowledged) :
    objects.Unopened (.lookUp :: stages) acknowledged where
  session := unopened.session
  acknowledged := unopened.acknowledged
  waiting := List.forall_mem_cons.mpr ⟨Or.inr rfl, unopened.waiting⟩
  alone := unopened.alone
  staged := fun member => unopened.staged ((List.mem_cons.mp member).resolve_left nofun)

theorem Unopened.ends (unopened : objects.Unopened (stage :: others) acknowledged) :
    objects.Unopened others acknowledged where
  session := unopened.session
  acknowledged := unopened.acknowledged
  waiting := (List.forall_mem_cons.mp unopened.waiting).2
  alone := ((List.sublist_cons_self stage others).filter _).length_le.trans unopened.alone
  staged := fun member => unopened.staged (List.mem_cons_of_mem stage member)

/-- While one request makes the session, the others look it up. -/
theorem Unopened.others_lookUp (unopened : objects.Unopened (stage :: others) acknowledged)
    (starting : stage.starting = true) : ∀ other ∈ others, other = .lookUp := by
  intro other member
  refine (unopened.waiting other (List.mem_cons_of_mem stage member)).resolve_left ?_
  intro alsoStarting
  have alone := unopened.alone
  rw [List.filter_cons_of_pos starting, List.length_cons] at alone
  have present := List.length_pos_of_mem (List.mem_filter.mpr ⟨member, alsoStarting⟩)
  omega

theorem Unopened.startState (unopened : objects.Unopened (.startState :: others) acknowledged) :
    Unopened { objects with staged := some .started } (.startSession :: others) acknowledged where
  session := unopened.session
  acknowledged := unopened.acknowledged
  waiting :=
    List.forall_mem_cons.mpr ⟨Or.inl rfl, (List.forall_mem_cons.mp unopened.waiting).2⟩
  alone := unopened.alone
  staged := fun _ => rfl

/-- The new session has offset zero and nothing is staged. -/
theorem Unopened.startSession (name : String)
    (unopened : objects.Unopened (.startSession :: others) acknowledged) :
    Tracked { objects with session := some ⟨name, 0⟩ } sessionId (.respond none :: others)
      acknowledged := by
  have staged := unopened.staged List.mem_cons_self
  have lookUp := unopened.others_lookUp rfl
  have claims : (UploadStage.respond none :: others).filterMap UploadStage.claim = [] := by
    refine List.filterMap_eq_nil_iff.mpr (List.forall_mem_cons.mpr ⟨rfl, fun other member => ?_⟩)
    rw [lookUp other member]
    rfl
  obtain rfl := unopened.acknowledged
  constructor
  case running =>
    refine List.forall_mem_cons.mpr ⟨rfl, fun other member => ?_⟩
    rw [lookUp other member]
    rfl
  case counted =>
    intro state found
    obtain rfl := Option.some.inj (staged.symm.trans found)
    exact StagedUploadState.counted_started
  case distinct =>
    rw [claims]
    exact List.nodup_nil
  case taken =>
    rw [claims]
    exact fun _ _ _ member => nomatch member
  case held =>
    rw [claims]
    exact fun _ _ _ _ member => nomatch member
  case gone =>
    refine List.forall_mem_cons.mpr ⟨nofun, fun other member => ?_⟩
    rw [lookUp other member]
    exact nofun
  case removed => exact nofun
  case recorded =>
    intro session found _
    obtain rfl := Option.some.inj found
    show objects.staged.map _ = _
    rw [staged]
    rfl

/-! ### Accesses -/

/-- The next stage owes what the stage owes. -/
structure Follows (stage next : UploadStage) : Prop where
  running : next.starting = false
  claim : next.claim = stage.claim
  owes : stage.owes = none ∨ next.owes = stage.owes
  removes : next.removes = stage.removes
  discards : stage.discards = true → next.discards = true

theorem Follows.passes (follows : Follows stage next) : objects.Passes stage next where
  running := follows.running
  claim := follows.claim
  removes := fun removes => Or.inl (follows.removes.symm.trans removes)
  discards := follows.discards

theorem Tracked.follows (tracked : objects.Tracked sessionId (stage :: others) acknowledged)
    (follows : Follows stage next) :
    objects.Tracked sessionId (next :: others) acknowledged := by
  refine tracked.passes follows.passes ?_
  rintro ⟨present, ⟨owing, total⟩ | removes | discards⟩
  · obtain nothing | same := follows.owes
    · rw [nothing] at owing
      exact nomatch owing
    · exact ⟨present, Or.inl ⟨same.symm ▸ owing, same.trans total⟩⟩
  · exact ⟨present, Or.inr (Or.inl (follows.removes.trans removes))⟩
  · exact ⟨present, Or.inr (Or.inr (follows.discards discards))⟩

variable {request : UploadRequest} {sha256 : List UInt8 → Vector UInt8 32}
  {after : UploadObjects}

/-- A request that has found its session has nothing staged of its own. -/
theorem follows_begin {session : UploadSession}
    (begun : request.begin session = .continues next) : Follows .lookUp next := by
  unfold UploadRequest.begin at begun
  split at begun
  all_goals repeat' split at begun
  all_goals cases begun
  all_goals exact ⟨rfl, rfl, Or.inl rfl, rfl, nofun⟩

theorem afterPush_eq {total : Nat} {chunk : Option StagedChunk}
    (continued : request.afterPush total chunk = .continues next) :
    next = .completeRead (some total) ∨ next = .offsetRead total chunk := by
  unfold UploadRequest.afterPush at continued
  split at continued
  · exact Or.inl (UploadProgress.continues.inj continued).symm
  · exact Or.inr (UploadProgress.continues.inj continued).symm

/-- A fresh access keeps the invariant. -/
theorem Tracked.access (tracked : objects.Tracked sessionId (stage :: others) acknowledged)
    (fresh : objects.Fresh sessionId request stage)
    (accessed : objects.access sessionId sha256 request stage = (after, .continues next)) :
    after.Tracked sessionId (next :: others) acknowledged := by
  -- in each case the access is computed, and a lemma above says what it does
  cases stage
  case startState | startSession =>
    exact nomatch tracked.running _ List.mem_cons_self
  case lookUp =>
    simp only [UploadObjects.access] at accessed
    split at accessed
    · exact nomatch accessed
    · split at accessed
      · obtain ⟨rfl, begun⟩ := Prod.mk.inj accessed
        exact tracked.follows (follows_begin begun)
      · exact nomatch accessed
  case pushRead =>
    simp only [UploadObjects.access] at accessed
    split at accessed
    · exact nomatch accessed
    · split at accessed
      · obtain ⟨rfl, pushed⟩ := Prod.mk.inj accessed
        obtain rfl | rfl := afterPush_eq pushed
        · exact tracked.follows ⟨rfl, rfl, Or.inl rfl, rfl, nofun⟩
        · exact tracked.follows ⟨rfl, rfl, Or.inl rfl, rfl, nofun⟩
      · cases accessed
        exact tracked.follows ⟨rfl, rfl, Or.inl rfl, rfl, nofun⟩
  case pushPart state =>
    cases accessed
    exact (tracked.insertPart fresh request.body).follows ⟨rfl, rfl, Or.inl rfl, rfl, nofun⟩
  case pushState state =>
    obtain ⟨rfl, pushed⟩ := Prod.mk.inj accessed
    obtain ⟨staged, written⟩ := fresh
    obtain rfl | rfl := afterPush_eq pushed
    · exact tracked.pushState staged written rfl rfl rfl nofun
    · exact tracked.pushState staged written rfl rfl rfl fun chunk claimed =>
        (Option.some.inj claimed).symm
  case offsetRead newOffset chunk =>
    simp only [UploadObjects.access] at accessed
    split at accessed
    · rename_i absent
      cases accessed
      refine tracked.passes ⟨rfl, rfl, nofun, nofun⟩ fun midway => ?_
      rw [Midway, absent] at midway
      exact nomatch midway.1
    · cases accessed
      refine tracked.follows ⟨rfl, rfl, Or.inr ?_, rfl, nofun⟩
      obtain rfl | ⟨staged, rfl⟩ := Option.eq_none_or_eq_some chunk <;> rfl
  case offsetWrite newOffset chunk session =>
    cases accessed
    refine tracked.moves ⟨rfl, rfl, nofun, nofun⟩ nofun fun found same _ => ?_
    obtain rfl := Option.some.inj same
    exact fresh
  case completeRead pushed =>
    simp only [UploadObjects.access] at accessed
    split at accessed
    · exact nomatch accessed
    · cases accessed
      exact tracked.follows ⟨rfl, rfl, Or.inr rfl, rfl, nofun⟩
  case assemble pushed parts remaining hashed =>
    obtain _ | ⟨part, rest⟩ := remaining
    · simp only [UploadObjects.access] at accessed
      split at accessed
      · cases accessed
        exact tracked.follows ⟨rfl, rfl, Or.inr rfl, rfl, nofun⟩
      · exact nomatch accessed
    · simp only [UploadObjects.access] at accessed
      split at accessed
      · exact nomatch accessed
      · split at accessed
        · exact nomatch accessed
        · cases accessed
          exact tracked.follows ⟨rfl, rfl, Or.inr rfl, rfl, nofun⟩
  case completeState pushed parts =>
    cases accessed
    exact tracked.unstage rfl rfl rfl
  case deleteParts remaining =>
    have unstaged := tracked.gone _ List.mem_cons_self rfl
    obtain _ | ⟨part, rest⟩ := remaining
    · cases accessed
      exact tracked.follows ⟨rfl, rfl, Or.inl rfl, rfl, nofun⟩
    · cases accessed
      exact (tracked.setParts (Or.inl unstaged) _).follows ⟨rfl, rfl, Or.inl rfl, rfl, nofun⟩
  case clearDeleteRequest =>
    cases accessed
    exact tracked.follows ⟨rfl, rfl, Or.inl rfl, rfl, nofun⟩
  case removeSession =>
    have unstaged := tracked.gone _ List.mem_cons_self rfl
    cases accessed
    exact tracked.moves ⟨rfl, rfl, nofun, nofun⟩ (fun _ => unstaged) nofun
  case cancelRead =>
    simp only [UploadObjects.access] at accessed
    split at accessed
    all_goals
      cases accessed
      exact tracked.follows ⟨rfl, rfl, Or.inl rfl, rfl, nofun⟩
  case cancelParts begun remaining =>
    obtain _ | ⟨part, rest⟩ := remaining
    · cases accessed
      exact tracked.follows ⟨rfl, rfl, Or.inl rfl, rfl, by cases begun <;> exact id⟩
    · cases accessed
      have discarding : objects.Tracked sessionId (.cancelParts true rest :: others)
          acknowledged := tracked.follows ⟨rfl, rfl, Or.inl rfl, rfl, fun _ => rfl⟩
      exact discarding.setParts (Or.inr ⟨_, List.mem_cons_self, rfl⟩) _
  case cancelState begun =>
    cases accessed
    exact tracked.unstage rfl rfl rfl
  case respond chunk => exact nomatch accessed

/-- A request ends without an effect, and its response acknowledges what it has claimed. -/
theorem access_ends (accessed : objects.access sessionId sha256 request stage = (after, .ends)) :
    after = objects ∧ UploadSystem.acknowledges stage = stage.claim.toList := by
  cases stage
  case respond chunk =>
    cases accessed
    refine ⟨rfl, ?_⟩
    obtain rfl | ⟨staged, rfl⟩ := Option.eq_none_or_eq_some chunk <;> rfl
  case pushState state =>
    obtain ⟨_, pushed⟩ := Prod.mk.inj accessed
    unfold UploadRequest.afterPush at pushed
    split at pushed <;> exact nomatch pushed
  case offsetRead newOffset chunk =>
    simp only [UploadObjects.access] at accessed
    split at accessed <;> exact nomatch accessed
  case cancelRead =>
    simp only [UploadObjects.access] at accessed
    split at accessed <;> exact nomatch accessed
  case deleteParts remaining | cancelParts begun remaining =>
    obtain _ | ⟨part, rest⟩ := remaining <;> exact nomatch accessed
  case startState | startSession | pushPart | offsetWrite | completeState | clearDeleteRequest |
      removeSession | cancelState =>
    exact nomatch accessed
  case lookUp | pushRead | completeRead =>
    simp only [UploadObjects.access] at accessed
    repeat' split at accessed
    all_goals exact ⟨(congrArg Prod.fst accessed).symm, rfl⟩
  case assemble pushed parts remaining hashed =>
    obtain _ | ⟨part, rest⟩ := remaining
    all_goals
      simp only [UploadObjects.access] at accessed
      repeat' split at accessed
      all_goals exact ⟨(congrArg Prod.fst accessed).symm, rfl⟩

/-- Before there is a session or after. -/
def Followed (objects : UploadObjects) (sessionId : String) (stages : List UploadStage)
    (acknowledged : List StagedChunk) : Prop :=
  objects.Unopened stages acknowledged ∨ objects.Tracked sessionId stages acknowledged

theorem Followed.perm (followed : objects.Followed sessionId stages acknowledged)
    (same : stages.Perm others) : objects.Followed sessionId others acknowledged :=
  followed.imp (Unopened.perm · same) (Tracked.perm · same)

theorem Followed.arrive (followed : objects.Followed sessionId stages acknowledged) :
    objects.Followed sessionId (.lookUp :: stages) acknowledged :=
  followed.imp Unopened.arrive Tracked.arrive

/-- Before there is a session the first request makes it and the others end. -/
theorem Followed.access (followed : objects.Followed sessionId (stage :: others) acknowledged)
    (fresh : objects.Fresh sessionId request stage)
    (accessed : objects.access sessionId sha256 request stage = (after, .continues next)) :
    after.Followed sessionId (next :: others) acknowledged := by
  obtain unopened | tracked := followed
  · obtain starting | rfl := unopened.waiting stage List.mem_cons_self
    · cases stage
      case startState =>
        cases accessed
        exact Or.inl unopened.startState
      case startSession =>
        cases accessed
        exact Or.inr (unopened.startSession request.name)
      all_goals exact nomatch starting
    · simp only [UploadObjects.access, unopened.session] at accessed
      exact nomatch accessed
  · exact Or.inr (tracked.access fresh accessed)

/-- The request fails or is dropped while it is not midway. -/
theorem Followed.fail (followed : objects.Followed sessionId (stage :: others) acknowledged)
    (settled : ¬ objects.Midway stage) : objects.Followed sessionId others acknowledged := by
  refine followed.imp Unopened.ends fun tracked => tracked.ends settled ?_
  exact ((List.sublist_cons_self stage others).filterMap _).append_left acknowledged |>.subperm

theorem Followed.ends (followed : objects.Followed sessionId (stage :: others) acknowledged)
    (settled : ¬ objects.Midway stage)
    (accessed : objects.access sessionId sha256 request stage = (after, .ends)) :
    objects.Followed sessionId others (UploadSystem.acknowledges stage ++ acknowledged) := by
  obtain ⟨_, claimed⟩ := access_ends accessed
  obtain unopened | tracked := followed
  · have unclaimed : UploadSystem.acknowledges stage = [] := by
      obtain starting | rfl := unopened.waiting stage List.mem_cons_self
      · cases stage <;> first | rfl | exact nomatch starting
      · rfl
    rw [unclaimed]
    exact Or.inl unopened.ends
  · refine Or.inr (tracked.ends settled (List.Perm.subperm ?_))
    rw [claimed, List.append_assoc]
    refine (List.perm_append_comm_assoc _ _ _).trans (List.Perm.append_left acknowledged ?_)
    obtain none | ⟨chunk, made⟩ := Option.eq_none_or_eq_some stage.claim
    · rw [List.filterMap_cons, none]
      exact List.Perm.refl _
    · rw [List.filterMap_cons, made]
      exact List.Perm.refl _

theorem Followed.consistent {requests : BTreeMap Nat (UploadRequest × UploadStage)}
    (followed : objects.Followed sessionId stages acknowledged)
    (settled : ∀ stage ∈ stages, ¬ objects.Midway stage) :
    UploadSystem.Consistent ⟨objects, requests, acknowledged⟩ := by
  obtain unopened | tracked := followed
  · intro session found
    exact absurd (unopened.session.symm.trans found) nofun
  · exact tracked.consistent settled

end UploadObjects

/-! ### Runs -/

namespace UploadSystem

variable {requests : BTreeMap Nat (UploadRequest × UploadStage)} {id : Nat}
  {request : UploadRequest} {stage : UploadStage} {sessionId : String}
  {sha256 : List UInt8 → Vector UInt8 32} {system next : UploadSystem} {label : UploadLabel}

theorem stages_of_found (found : requests[id]? = some (request, stage)) :
    (stages requests).Perm (stage :: stages (requests.erase id)) :=
  (BTreeMap.toList_perm_erase found).map _

theorem stages_insert (requests : BTreeMap Nat (UploadRequest × UploadStage)) (id : Nat)
    (request : UploadRequest) (stage : UploadStage) :
    (stages (requests.insert id (request, stage))).Perm (stage :: stages (requests.erase id)) := by
  have stored : (requests.insert id (request, stage))[id]? = some (request, stage) := by
    rw [BTreeMap.getElem?_insert, if_pos rfl]
  have others : (requests.insert id (request, stage)).erase id = requests.erase id := by
    refine BTreeMap.ext_getElem? fun other => ?_
    rw [BTreeMap.getElem?_erase, BTreeMap.getElem?_erase, BTreeMap.getElem?_insert]
    by_cases same : id = other
    · rw [if_pos same, if_pos same]
    · rw [if_neg same, if_neg same, if_neg same]
  rw [← others]
  exact stages_of_found stored

/-- The objects, the requests and the acknowledged chunks fit together. -/
def Followed (sessionId : String) (system : UploadSystem) : Prop :=
  system.objects.Followed sessionId (stages system.requests) system.acknowledged

theorem followed_initial (name : String) : (initial name).Followed sessionId := by
  have starting : (initial name).objects.Unopened [.startState] [] := by
    constructor
    case session => rfl
    case acknowledged => rfl
    case waiting => exact List.forall_mem_singleton.mpr (Or.inl rfl)
    case alone => exact Nat.le_refl 1
    case staged => exact nofun
  exact UploadObjects.Followed.perm (Or.inl starting)
    (stages_insert ∅ 0 (.start name) .startState).symm

/-- What a step can do. -/
inductive Move (sessionId : String) (sha256 : List UInt8 → Vector UInt8 32)
    (system : UploadSystem) : UploadLabel → UploadSystem → Prop
  | arrives (id : Nat) (request : UploadRequest) (free : system.requests[id]? = none) :
      Move sessionId sha256 system (.arrive id request)
        { system with requests := system.requests.insert id (request, .lookUp) }
  | continues (id : Nat) (request : UploadRequest) (stage next : UploadStage)
      (objects : UploadObjects) (found : system.requests[id]? = some (request, stage))
      (accessed : system.objects.access sessionId sha256 request stage =
        (objects, .continues next)) :
      Move sessionId sha256 system (.advance id)
        { system with
          objects := objects
          requests := system.requests.insert id (request, next) }
  | ends (id : Nat) (request : UploadRequest) (stage : UploadStage)
      (found : system.requests[id]? = some (request, stage))
      (accessed : system.objects.access sessionId sha256 request stage =
        (system.objects, .ends)) :
      Move sessionId sha256 system (.advance id)
        { system with
          requests := system.requests.erase id
          acknowledged := acknowledges stage ++ system.acknowledged }
  | fails (id : Nat) (request : UploadRequest) (stage : UploadStage)
      (found : system.requests[id]? = some (request, stage)) :
      Move sessionId sha256 system (.fail id)
        { system with requests := system.requests.erase id }

theorem move_of_uploadStep (stepped : uploadStep sessionId sha256 system label = some next) :
    Move sessionId sha256 system label next := by
  cases label with
  | arrive id request =>
    simp only [uploadStep] at stepped
    split at stepped
    · exact nomatch stepped
    · split at stepped
      · rename_i free
        obtain rfl := Option.some.inj stepped
        exact .arrives id request free
      · exact nomatch stepped
  | advance id =>
    simp only [uploadStep] at stepped
    split at stepped
    · exact nomatch stepped
    · rename_i request stage found
      split at stepped
      · rename_i objects following accessed
        obtain rfl := Option.some.inj stepped
        exact .continues id request stage following objects found accessed
      · rename_i objects accessed
        obtain ⟨rfl, _⟩ := UploadObjects.access_ends accessed
        obtain rfl := Option.some.inj stepped
        exact .ends id request stage found accessed
  | fail id =>
    simp only [uploadStep] at stepped
    split at stepped
    · exact nomatch stepped
    · rename_i call found
      obtain rfl := Option.some.inj stepped
      exact .fails id call.1 call.2 found

theorem completes_advance {objects : UploadObjects}
    (found : system.requests[id]? = some (request, stage))
    (accessed : system.objects.access sessionId sha256 request stage = (objects, .ends)) :
    system.Completes sessionId sha256 (.advance id) := by
  simp only [Completes, found, Option.any_some, accessed, decide_true]

theorem completes_fail (found : system.requests[id]? = some (request, stage)) :
    system.Completes sessionId sha256 (.fail id) :=
  Option.isSome_of_eq_some found

theorem Followed.step (stepped : uploadStep sessionId sha256 system label = some next)
    (orderly : system.Orderly sessionId sha256 label) (followed : system.Followed sessionId) :
    next.Followed sessionId := by
  obtain ⟨fresh, settled⟩ := orderly
  cases move_of_uploadStep stepped with
  | arrives id request free =>
    have unchanged := BTreeMap.erase_of_absent free
    refine UploadObjects.Followed.perm followed.arrive ?_
    have inserted := stages_insert system.requests id request .lookUp
    rw [unchanged] at inserted
    exact inserted.symm
  | continues id request stage following objects found accessed =>
    have here := UploadObjects.Followed.perm followed (stages_of_found found)
    exact (here.access (fresh id rfl _ found) accessed).perm
      (stages_insert system.requests id request following).symm
  | ends id request stage found accessed =>
    have here := UploadObjects.Followed.perm followed (stages_of_found found)
    refine here.ends (settled (completes_advance found accessed) stage ?_) accessed
    exact (stages_of_found found).mem_iff.mpr List.mem_cons_self
  | fails id request stage found =>
    have here := UploadObjects.Followed.perm followed (stages_of_found found)
    refine here.fail (settled (completes_fail found) stage ?_)
    exact (stages_of_found found).mem_iff.mpr List.mem_cons_self

/-- A request that ends while none is midway leaves the objects as they are. -/
theorem settled_after (stepped : uploadStep sessionId sha256 system label = some next)
    (completes : system.Completes sessionId sha256 label)
    (settled : ∀ stage ∈ stages system.requests, ¬ system.objects.Midway stage) :
    ∀ stage ∈ stages next.requests, ¬ next.objects.Midway stage := by
  cases move_of_uploadStep stepped with
  | arrives => exact completes.elim
  | continues id request stage following objects found accessed =>
    simp only [Completes, found, Option.any_some, accessed, decide_eq_true_eq,
      reduceCtorEq] at completes
  | ends id request stage found accessed | fails id request stage found =>
    intro other member
    exact settled other ((stages_of_found found).mem_iff.mpr (List.mem_cons_of_mem stage member))

end UploadSystem

/-- In every run, from the request that makes the session on, with any interleaving of requests
that fail anywhere: if no request writes what is outdated and none ends while one is midway, then
each time a request ends and the session is there, the offset is the staged total and the sum of
the sizes of the staged parts, and each acknowledged chunk is a staged part. -/
theorem completed_uploads_are_consistent (sessionId name : String)
    (sha256 : List UInt8 → Vector UInt8 32) (labels : List UploadLabel)
    (orderly : Along (uploadStep sessionId sha256) (UploadSystem.Orderly sessionId sha256)
      (.initial name) labels) :
    Along (uploadStep sessionId sha256) (UploadSystem.EndsConsistent sessionId sha256)
      (.initial name) labels := by
  refine orderly.derive (UploadSystem.Followed sessionId) ?_ ?_
    (UploadSystem.followed_initial name)
  · intro system label next stepped orderly followed
    exact followed.step stepped orderly
  · intro system label followed orderly completes next stepped
    have settled := UploadSystem.settled_after stepped completes (orderly.2 completes)
    exact UploadObjects.Followed.consistent (followed.step stepped orderly) settled

/-- SHA-256 of the empty list and of the byte one. -/
def sampleUploadHash (bytes : List UInt8) : Vector UInt8 32 :=
  if bytes = [1] then
    #v[0x4b, 0xf5, 0x12, 0x2f, 0x34, 0x45, 0x54, 0xc5, 0x3b, 0xde, 0x2e, 0xbb, 0x8c, 0xd2, 0xb7,
      0xe3, 0xd1, 0x60, 0x0a, 0xd6, 0x31, 0xc3, 0x85, 0xa5, 0xd7, 0xcc, 0xe2, 0x3c, 0x77, 0x85,
      0x45, 0x9a]
  else
    Digest.emptyTextHash

/-- A session is made and nothing else happens. -/
def sampleUploadStart : List UploadLabel := [.advance 0, .advance 0, .advance 0]

/-- A PATCH that runs to its end, with a status request in between, and a PUT that completes the
upload. -/
def sampleUploadRun : List UploadLabel :=
  sampleUploadStart ++
    [.arrive 1 (.patch "team/app" none [1]), .arrive 2 (.status "team/app"), .advance 1,
      .advance 2, .advance 2] ++ List.replicate 6 (.advance 1) ++
    [.arrive 3 (.put "team/app"
      (some "sha256:4bf5122f344554c53bde2ebb8cd2b7e3d1600ad631c385a5d7cce23c7785459a") [])] ++
    List.replicate 10 (.advance 3)

/-- The upload is one of the runs in which the offset is right. -/
theorem completed_uploads_are_consistent_sample :
    Along (uploadStep "1" sampleUploadHash) (UploadSystem.EndsConsistent "1" sampleUploadHash)
        (.initial "team/app") sampleUploadRun ∧
      (run (uploadStep "1" sampleUploadHash) (.initial "team/app") sampleUploadRun).any
        fun system => system.acknowledged = [(1, [1])] ∧ system.objects.session = none :=
  ⟨completed_uploads_are_consistent "1" "team/app" sampleUploadHash sampleUploadRun
    (by decide +kernel), by decide +kernel⟩

/-- A PUT with one byte and the digest of the empty blob: the byte is staged, the digest does not
match, and the offset stays zero. -/
def samplePutMismatch : List UploadLabel :=
  sampleUploadStart ++
    .arrive 1 (.put "team/app"
      (some "sha256:e3b0c44298fc1c149afbf4c8996fb92427ae41e4649b934ca495991b7852b855") [1]) ::
    List.replicate 7 (.advance 1)

/-- Two PATCHes that have read the same staged state: the second takes the place of the first,
whose chunk has been acknowledged. -/
def samplePatchRace : List UploadLabel :=
  sampleUploadStart ++
    [.arrive 1 (.patch "team/app" none [1]), .arrive 2 (.patch "team/app" none [2]), .advance 1,
      .advance 1, .advance 2, .advance 2] ++
    List.replicate 5 (.advance 1) ++ List.replicate 5 (.advance 2)

theorem uploads_lose_track :
    ¬ Along (uploadStep "1" sampleUploadHash) (UploadSystem.EndsConsistent "1" sampleUploadHash)
        (.initial "team/app") samplePutMismatch ∧
      ¬ Along (uploadStep "1" sampleUploadHash)
        (UploadSystem.EndsConsistent "1" sampleUploadHash) (.initial "team/app")
        samplePatchRace := by
  constructor <;> decide +kernel

end Layerhouse
