/-
This file is the abstract core of logs replicated under ballots. A node promises a
ballot and from then on serves no lower one. A candidate stands under a fresh
ballot with the log it has; a node grants the ballot when the candidate's log is
not behind its own. A ballot granted by a deciding set of nodes is elected: its
ledger starts as the candidate's log and grows by entries of its own ballot, and
nodes take over prefixes of the ledger and acknowledge them.

A prefix that ends in an entry of the ballot itself is committed once a deciding
set of nodes has acknowledged it. The result is leader completeness: the ledger of
every higher elected ballot extends every committed prefix. The invariant behind it
speaks of the prefixes that can still be committed (each node of some deciding set
has acknowledged the prefix or may still do so), because a node must not drop one
before its fate is known.
-/

import Mathlib

namespace Layerhouse.Ballots

/-- Which sets of nodes decide, and the ballot an entry was proposed under. Any two deciding
sets share a node. -/
structure Scheme (Node Ballot Entry : Type) where
  quorum : Set Node → Prop
  meet : ∀ first second, quorum first → quorum second → ∃ node, node ∈ first ∧ node ∈ second
  ballotOf : Entry → Ballot

structure State (Node Ballot Entry : Type) where
  /-- The highest ballot each node serves. -/
  promised : Node → Ballot
  log : Node → List Entry
  /-- The log the candidate of a ballot stood with. -/
  offer : Ballot → Option (List Entry)
  /-- The log of an elected ballot. -/
  ledger : Ballot → Option (List Entry)
  granted : Ballot → Node → Prop
  /-- The prefixes of its ledger that the nodes acknowledged to a ballot. -/
  acked : Ballot → Node → List Entry → Prop

section Steps

variable {Node Ballot Entry : Type} [DecidableEq Node] [LinearOrder Ballot]

/-- The ballot of the last entry of a log; the empty log is below every ballot. -/
def Scheme.lastBallot (scheme : Scheme Node Ballot Entry) (log : List Entry) : WithBot Ballot :=
  log.getLast?.elim ⊥ fun entry => (scheme.ballotOf entry : WithBot Ballot)

/-- The offered log is not behind the other one. -/
def Scheme.UpToDate (scheme : Scheme Node Ballot Entry) (log offered : List Entry) : Prop :=
  scheme.lastBallot log < scheme.lastBallot offered ∨
    scheme.lastBallot log = scheme.lastBallot offered ∧ log.length ≤ offered.length

open Classical in
/-- A log after it took over a prefix: unchanged when it already holds the prefix. -/
noncomputable def takeOver (log taken : List Entry) : List Entry :=
  if taken <+: log then log else taken

inductive Step (scheme : Scheme Node Ballot Entry) (state : State Node Ballot Entry) :
    State Node Ballot Entry → Prop
  | promise (node : Node) (ballot : Ballot) (notBelow : state.promised node ≤ ballot) :
    Step scheme state
      { state with promised := Function.update state.promised node ballot }
  | stand (node : Node) (ballot : Ballot) (fresh : state.offer ballot = none)
      (above : ∀ entry ∈ state.log node, scheme.ballotOf entry < ballot) :
    Step scheme state
      { state with offer := Function.update state.offer ballot (some (state.log node)) }
  | grant (node : Node) (ballot : Ballot) (offered : List Entry)
      (stood : state.offer ballot = some offered) (serves : state.promised node = ballot)
      (upToDate : scheme.UpToDate (state.log node) offered) :
    Step scheme state
      { state with
        granted := fun other voter => state.granted other voter ∨ other = ballot ∧ voter = node }
  | elect (ballot : Ballot) (offered : List Entry) (stood : state.offer ballot = some offered)
      (fresh : state.ledger ballot = none)
      (won : scheme.quorum {node | state.granted ballot node}) :
    Step scheme state
      { state with ledger := Function.update state.ledger ballot (some offered) }
  | propose (ballot : Ballot) (history : List Entry) (entry : Entry)
      (elected : state.ledger ballot = some history) (own : scheme.ballotOf entry = ballot) :
    Step scheme state
      { state with ledger := Function.update state.ledger ballot (some (history ++ [entry])) }
  | accept (node : Node) (ballot : Ballot) (history taken : List Entry)
      (elected : state.ledger ballot = some history) (serves : state.promised node = ballot)
      (within : taken <+: history) :
    Step scheme state
      { state with
        log := Function.update state.log node (takeOver (state.log node) taken)
        acked := fun other acker acknowledged => state.acked other acker acknowledged ∨
          other = ballot ∧ acker = node ∧ acknowledged = taken }
  | truncate (node : Node) (ballot : Ballot) (history : List Entry) (length : Nat)
      (elected : state.ledger ballot = some history) (serves : state.promised node = ballot)
      (conflict : ¬ history.take (length + 1) <+: state.log node) :
    Step scheme state
      { state with log := Function.update state.log node ((state.log node).take length) }

/-- What steps never take back. -/
structure Grows (state next : State Node Ballot Entry) : Prop where
  promised : ∀ node, state.promised node ≤ next.promised node
  offer : ∀ ballot offered, state.offer ballot = some offered → next.offer ballot = some offered
  ledger : ∀ ballot history, state.ledger ballot = some history →
    ∃ longer, next.ledger ballot = some longer ∧ history <+: longer
  granted : ∀ ballot node, state.granted ballot node → next.granted ballot node
  acked : ∀ ballot node taken, state.acked ballot node taken → next.acked ballot node taken

end Steps

section Completeness

variable {Node Ballot Entry : Type} [DecidableEq Node] [LinearOrder Ballot]
  {scheme : Scheme Node Ballot Entry} {state next : State Node Ballot Entry}
  {ballot higher : Ballot} {node : Node} {taken log : List Entry}

omit [DecidableEq Node] [LinearOrder Ballot] in
/-- A table after one entry is set. -/
theorem update_eq_some [DecidableEq Ballot] {table : Ballot → Option (List Entry)}
    {other : Ballot} {found : List Entry}
    (lookup : Function.update table ballot (some log) other = some found) :
    other = ballot ∧ found = log ∨ table other = some found := by
  by_cases same : other = ballot
  · rw [same, Function.update_self, Option.some.injEq] at lookup
    exact Or.inl ⟨same, lookup.symm⟩
  · rw [Function.update_of_ne same] at lookup
    exact Or.inr lookup

omit [DecidableEq Node] in
theorem Grows.refl (state : State Node Ballot Entry) : Grows state state where
  promised _ := le_rfl
  offer _ _ := id
  ledger _ history elected := ⟨history, elected, List.prefix_rfl⟩
  granted _ _ := id
  acked _ _ _ := id

omit [DecidableEq Node] in
theorem Grows.trans {last : State Node Ballot Entry} (first : Grows state next)
    (second : Grows next last) : Grows state last where
  promised node := (first.promised node).trans (second.promised node)
  offer ballot offered stood := second.offer ballot offered (first.offer ballot offered stood)
  ledger ballot history elected := by
    obtain ⟨longer, later, extended⟩ := first.ledger ballot history elected
    obtain ⟨longest, last, extendedAgain⟩ := second.ledger ballot longer later
    exact ⟨longest, last, extended.trans extendedAgain⟩
  granted ballot node grant := second.granted ballot node (first.granted ballot node grant)
  acked ballot node taken ack := second.acked ballot node taken (first.acked ballot node taken ack)

theorem Step.grows (step : Step scheme state next) : Grows state next := by
  cases step with
  | promise node ballot notBelow =>
    refine { Grows.refl state with promised := fun other => ?_ }
    show state.promised other ≤ Function.update state.promised node ballot other
    by_cases same : other = node
    · rw [same, Function.update_self]
      exact notBelow
    · rw [Function.update_of_ne same]
  | stand node ballot fresh above =>
    refine { Grows.refl state with offer := fun other offered stood => ?_ }
    have different : other ≠ ballot := fun same => by rw [same, fresh] at stood; cases stood
    exact (Function.update_of_ne different _ _).trans stood
  | grant node ballot offered stood serves upToDate =>
    exact { Grows.refl state with granted := fun _ _ => Or.inl }
  | elect ballot offered stood fresh won =>
    refine { Grows.refl state with ledger := fun other history elected => ?_ }
    have different : other ≠ ballot := fun same => by rw [same, fresh] at elected; cases elected
    exact ⟨history, (Function.update_of_ne different _ _).trans elected, List.prefix_rfl⟩
  | propose ballot history entry elected own =>
    refine { Grows.refl state with ledger := fun other held found => ?_ }
    by_cases same : other = ballot
    · rw [same, elected, Option.some.injEq] at found
      refine ⟨history ++ [entry], ?_, found ▸ List.prefix_append _ _⟩
      rw [same]
      exact Function.update_self _ _ _
    · exact ⟨held, (Function.update_of_ne same _ _).trans found, List.prefix_rfl⟩
  | accept node ballot history taken elected serves within =>
    exact { Grows.refl state with acked := fun _ _ _ => Or.inl }
  | truncate node ballot history length elected serves conflict =>
    exact { Grows.refl state with }

/-! ### Committed prefixes -/

/-- The node has acknowledged the prefix, possibly within a longer one. -/
def State.Acked (state : State Node Ballot Entry) (ballot : Ballot) (node : Node)
    (taken : List Entry) : Prop :=
  ∃ longer, state.acked ballot node longer ∧ taken <+: longer

/-- The prefix ends in an entry of the ballot. -/
def Scheme.Own (scheme : Scheme Node Ballot Entry) (ballot : Ballot) (taken : List Entry) : Prop :=
  ∃ entry ∈ taken.getLast?, scheme.ballotOf entry = ballot

/-- The prefix was, or can still be, acknowledged by a deciding set. -/
def State.Choosable (scheme : Scheme Node Ballot Entry) (state : State Node Ballot Entry)
    (ballot : Ballot) (taken : List Entry) : Prop :=
  ∃ nodes, scheme.quorum nodes ∧
    ∀ node ∈ nodes, state.Acked ballot node taken ∨ state.promised node ≤ ballot

def State.Committed (scheme : Scheme Node Ballot Entry) (state : State Node Ballot Entry)
    (ballot : Ballot) (taken : List Entry) : Prop :=
  scheme.Own ballot taken ∧ ∃ nodes, scheme.quorum nodes ∧
    ∀ node ∈ nodes, state.Acked ballot node taken

/-- The log is part of a prefix committed under a ballot up to the given one. -/
def State.Chosen (scheme : Scheme Node Ballot Entry) (state : State Node Ballot Entry)
    (bound : Ballot) (log : List Entry) : Prop :=
  log = [] ∨ ∃ ballot ≤ bound, ∃ taken, state.Committed scheme ballot taken ∧ log <+: taken

/-- Each prefix of the log is a prefix of the ledger of its last entry's ballot. -/
def State.Traced (scheme : Scheme Node Ballot Entry) (state : State Node Ballot Entry)
    (log : List Entry) : Prop :=
  ∀ initial entry, initial ++ [entry] <+: log →
    ∃ history, state.ledger (scheme.ballotOf entry) = some history ∧ initial ++ [entry] <+: history

structure Invariant (scheme : Scheme Node Ballot Entry) (state : State Node Ballot Entry) :
    Prop where
  logTraced : ∀ node, state.Traced scheme (state.log node)
  logPromised : ∀ node, ∀ entry ∈ state.log node, scheme.ballotOf entry ≤ state.promised node
  offerTraced : ∀ ballot offered, state.offer ballot = some offered → state.Traced scheme offered
  offerBelow : ∀ ballot offered, state.offer ballot = some offered →
    ∀ entry ∈ offered, scheme.ballotOf entry < ballot
  ledgerTraced : ∀ ballot history, state.ledger ballot = some history →
    state.Traced scheme history
  ledgerBelow : ∀ ballot history, state.ledger ballot = some history →
    ∀ entry ∈ history, scheme.ballotOf entry ≤ ballot
  /-- Every deciding set has a node that promised the elected ballot. -/
  ledgerPromised : ∀ ballot history, state.ledger ballot = some history →
    ∀ nodes, scheme.quorum nodes → ∃ node ∈ nodes, ballot ≤ state.promised node
  grantedPromised : ∀ ballot node, state.granted ballot node → ballot ≤ state.promised node
  grantedStood : ∀ ballot node, state.granted ballot node → state.offer ballot ≠ none
  ackedPromised : ∀ ballot node taken, state.acked ballot node taken →
    ballot ≤ state.promised node
  ackedHeld : ∀ ballot node taken, state.acked ballot node taken →
    ∃ history, state.ledger ballot = some history ∧ taken <+: history
  /-- A node keeps what it acknowledged for as long as it can be committed. -/
  kept : ∀ ballot node taken, state.Acked ballot node taken → scheme.Own ballot taken →
    state.Choosable scheme ballot taken → taken <+: state.log node
  /-- A node grants a ballot to candidates only that hold what it acknowledged. -/
  carried : ∀ ballot higher node taken offered, ballot < higher → state.granted higher node →
    state.Acked ballot node taken → scheme.Own ballot taken →
    state.Choosable scheme ballot taken → state.offer higher = some offered → taken <+: offered
  safe : ∀ ballot higher history longer taken, ballot < higher →
    state.ledger ballot = some history → state.ledger higher = some longer →
    taken <+: history → scheme.Own ballot taken → state.Choosable scheme ballot taken →
    taken <+: longer

/-! ### What steps keep -/

omit [DecidableEq Node] in
theorem State.Traced.grows (traced : state.Traced scheme log) (grows : Grows state next) :
    next.Traced scheme log := by
  intro initial entry held
  obtain ⟨history, elected, within⟩ := traced initial entry held
  obtain ⟨longer, later, extended⟩ := grows.ledger _ _ elected
  exact ⟨longer, later, within.trans extended⟩

omit [DecidableEq Node] [LinearOrder Ballot] in
theorem State.Traced.ofPrefix (traced : state.Traced scheme log) (part : taken <+: log) :
    state.Traced scheme taken :=
  fun initial entry held => traced initial entry (held.trans part)

omit [DecidableEq Node] in
theorem State.Acked.grows (acked : state.Acked ballot node taken) (grows : Grows state next) :
    next.Acked ballot node taken := by
  obtain ⟨longer, ack, part⟩ := acked
  exact ⟨longer, grows.acked _ _ _ ack, part⟩

omit [DecidableEq Node] in
theorem State.Committed.grows (committed : state.Committed scheme ballot taken)
    (grows : Grows state next) : next.Committed scheme ballot taken := by
  obtain ⟨own, nodes, decides, acked⟩ := committed
  exact ⟨own, nodes, decides, fun node member => (acked node member).grows grows⟩

omit [DecidableEq Node] in
theorem State.Chosen.grows (chosen : state.Chosen scheme ballot log) (grows : Grows state next)
    (notBelow : ballot ≤ higher) : next.Chosen scheme higher log := by
  obtain rfl | ⟨lower, below, taken, committed, part⟩ := chosen
  · exact Or.inl rfl
  · exact Or.inr ⟨lower, below.trans notBelow, taken, committed.grows grows, part⟩

omit [DecidableEq Node] in
theorem State.Chosen.ofPrefix (chosen : state.Chosen scheme ballot log) (part : taken <+: log) :
    state.Chosen scheme ballot taken := by
  obtain rfl | ⟨lower, below, whole, committed, within⟩ := chosen
  · exact Or.inl (List.prefix_nil.mp part)
  · exact Or.inr ⟨lower, below, whole, committed, part.trans within⟩

omit [DecidableEq Node] in
theorem State.Committed.choosable (committed : state.Committed scheme ballot taken) :
    state.Choosable scheme ballot taken := by
  obtain ⟨_, nodes, decides, acked⟩ := committed
  exact ⟨nodes, decides, fun node member => Or.inl (acked node member)⟩

/-- A step makes no prefix choosable: it raises promises, and a new acknowledgement comes from
a node that could still give it. -/
theorem Step.choosable (step : Step scheme state next)
    (choosable : next.Choosable scheme ballot taken) : state.Choosable scheme ballot taken := by
  obtain ⟨nodes, decides, each⟩ := choosable
  refine ⟨nodes, decides, fun node member => ?_⟩
  rcases each node member with ⟨longer, acked, part⟩ | below
  · cases step with
    | accept acker other history accepted elected serves within =>
      rcases acked with earlier | ⟨rfl, rfl, rfl⟩
      · exact Or.inl ⟨longer, earlier, part⟩
      · exact Or.inr serves.le
    | promise | stand | grant | elect | propose | truncate => exact Or.inl ⟨longer, acked, part⟩
  · exact Or.inr ((step.grows.promised node).trans below)

/-! ### The invariant is kept -/

omit [DecidableEq Node] [LinearOrder Ballot] in
theorem lastBallot_concat (initial : List Entry) (entry : Entry) :
    scheme.lastBallot (initial ++ [entry]) = (scheme.ballotOf entry : WithBot Ballot) := by
  rw [Scheme.lastBallot, List.getLast?_concat]
  rfl

omit [DecidableEq Node] in
/-- A log that is not behind a log with a choosable prefix has that prefix too: the last
entries place both logs in ledgers, and the ledgers have it. -/
theorem Invariant.prefix_of_upToDate (inv : Invariant scheme state) {history offered : List Entry}
    (logTraced : state.Traced scheme log) (offerTraced : state.Traced scheme offered)
    (upToDate : scheme.UpToDate log offered) (elected : state.ledger ballot = some history)
    (within : taken <+: history) (held : taken <+: log) (own : scheme.Own ballot taken)
    (choosable : state.Choosable scheme ballot taken) : taken <+: offered := by
  obtain ⟨entry, ends, ofBallot⟩ := own
  have member : entry ∈ taken := List.mem_of_getLast? ends
  obtain rfl | ⟨initial, last, rfl⟩ := log.eq_nil_or_concat'
  · rw [List.prefix_nil.mp held] at member
    cases member
  obtain ⟨logLedger, logElected, logWithin⟩ := logTraced initial last List.prefix_rfl
  have notAbove : ballot ≤ scheme.ballotOf last := by
    rw [← ofBallot]
    exact inv.ledgerBelow _ _ logElected entry (logWithin.subset (held.subset member))
  obtain rfl | ⟨offeredInitial, offeredLast, rfl⟩ := offered.eq_nil_or_concat'
  · rw [Scheme.UpToDate, lastBallot_concat] at upToDate
    simp [Scheme.lastBallot] at upToDate
  obtain ⟨offerLedger, offerElected, offerWithin⟩ :=
    offerTraced offeredInitial offeredLast List.prefix_rfl
  rw [Scheme.UpToDate, lastBallot_concat, lastBallot_concat, WithBot.coe_lt_coe,
    WithBot.coe_inj] at upToDate
  rcases upToDate with later | ⟨same, notLonger⟩
  · -- The offered log ends under a later ballot, whose ledger has the prefix.
    have reached := inv.safe ballot _ _ _ taken (notAbove.trans_lt later) elected offerElected
      within ⟨entry, ends, ofBallot⟩ choosable
    rcases List.prefix_or_prefix_of_prefix reached offerWithin with shorter | longer
    · exact shorter
    · have lastBelow := inv.ledgerBelow _ _ elected offeredLast
        (within.subset (longer.subset List.mem_concat_self))
      exact absurd (notAbove.trans_lt later) (not_lt.mpr lastBelow)
  · -- Both logs end under one ballot, so both are prefixes of its ledger.
    rw [same, offerElected, Option.some.injEq] at logElected
    subst logElected
    exact held.trans (List.prefix_of_prefix_length_le logWithin offerWithin notLonger)

theorem Invariant.promise (inv : Invariant scheme state)
    (notBelow : state.promised node ≤ ballot) :
    Invariant scheme { state with promised := Function.update state.promised node ballot } := by
  have step : Step scheme state _ := Step.promise node ballot notBelow
  have grows := step.grows
  exact { inv with
    logPromised := fun other entry member =>
      (inv.logPromised other entry member).trans (grows.promised other)
    ledgerPromised := fun other history elected nodes decides => by
      obtain ⟨voter, member, promised⟩ := inv.ledgerPromised other history elected nodes decides
      exact ⟨voter, member, promised.trans (grows.promised voter)⟩
    grantedPromised := fun other voter granted =>
      (inv.grantedPromised other voter granted).trans (grows.promised voter)
    ackedPromised := fun other acker taken acked =>
      (inv.ackedPromised other acker taken acked).trans (grows.promised acker)
    kept := fun other acker taken acked own choosable =>
      inv.kept other acker taken acked own (step.choosable choosable)
    carried := fun other higher voter taken offered below granted acked own choosable =>
      inv.carried other higher voter taken offered below granted acked own
        (step.choosable choosable)
    safe := fun other higher history longer taken below elected later within own choosable =>
      inv.safe other higher history longer taken below elected later within own
        (step.choosable choosable) }

theorem Invariant.stand (inv : Invariant scheme state) (fresh : state.offer ballot = none)
    (above : ∀ entry ∈ state.log node, scheme.ballotOf entry < ballot) :
    Invariant scheme
      { state with offer := Function.update state.offer ballot (some (state.log node)) } := by
  have step : Step scheme state _ := Step.stand node ballot fresh above
  exact { inv with
    offerTraced := fun other offered stood => by
      rcases update_eq_some stood with ⟨_, rfl⟩ | earlier
      · exact inv.logTraced node
      · exact inv.offerTraced other offered earlier
    offerBelow := fun other offered stood => by
      rcases update_eq_some stood with ⟨rfl, rfl⟩ | earlier
      · exact above
      · exact inv.offerBelow other offered earlier
    grantedStood := fun other voter granted => by
      obtain ⟨offered, stood⟩ :=
        Option.ne_none_iff_exists'.mp (inv.grantedStood other voter granted)
      exact Option.ne_none_iff_exists'.mpr ⟨offered, step.grows.offer other offered stood⟩
    kept := fun other acker taken acked own choosable =>
      inv.kept other acker taken acked own (step.choosable choosable)
    carried := fun other higher voter taken offered below granted acked own choosable stood => by
      rcases update_eq_some stood with ⟨rfl, _⟩ | earlier
      · exact absurd fresh (inv.grantedStood higher voter granted)
      · exact inv.carried other higher voter taken offered below granted acked own
          (step.choosable choosable) earlier
    safe := fun other higher history longer taken below elected later within own choosable =>
      inv.safe other higher history longer taken below elected later within own
        (step.choosable choosable) }

theorem Invariant.grant (inv : Invariant scheme state) {offered : List Entry}
    (stood : state.offer ballot = some offered) (serves : state.promised node = ballot)
    (upToDate : scheme.UpToDate (state.log node) offered) :
    Invariant scheme { state with
      granted := fun other voter =>
        state.granted other voter ∨ other = ballot ∧ voter = node } := by
  have step : Step scheme state _ := Step.grant node ballot offered stood serves upToDate
  exact { inv with
    grantedPromised := fun other voter granted => by
      rcases granted with earlier | ⟨rfl, rfl⟩
      · exact inv.grantedPromised other voter earlier
      · exact serves.ge
    grantedStood := fun other voter granted => by
      rcases granted with earlier | ⟨rfl, rfl⟩
      · exact inv.grantedStood other voter earlier
      · exact Option.ne_none_iff_exists'.mpr ⟨offered, stood⟩
    kept := fun other acker taken acked own choosable =>
      inv.kept other acker taken acked own (step.choosable choosable)
    carried := fun other higher voter taken held below granted acked own choosable found => by
      have before := step.choosable choosable
      rcases granted with earlier | ⟨rfl, rfl⟩
      · exact inv.carried other higher voter taken held below earlier acked own before found
      · rw [stood, Option.some.injEq] at found
        subst found
        obtain ⟨longer, ack, part⟩ := acked
        obtain ⟨history, elected, within⟩ := inv.ackedHeld other voter longer ack
        exact inv.prefix_of_upToDate (inv.logTraced voter) (inv.offerTraced _ _ stood) upToDate
          elected (part.trans within) (inv.kept other voter taken ⟨longer, ack, part⟩ own before)
          own before
    safe := fun other higher history longer taken below elected later within own choosable =>
      inv.safe other higher history longer taken below elected later within own
        (step.choosable choosable) }

theorem Invariant.elect (inv : Invariant scheme state) {offered : List Entry}
    (stood : state.offer ballot = some offered) (fresh : state.ledger ballot = none)
    (won : scheme.quorum {node | state.granted ballot node}) :
    Invariant scheme
      { state with ledger := Function.update state.ledger ballot (some offered) } := by
  have step : Step scheme state _ := Step.elect ballot offered stood fresh won
  have grows := step.grows
  exact { inv with
    logTraced := fun node => (inv.logTraced node).grows grows
    offerTraced := fun other found stood => (inv.offerTraced other found stood).grows grows
    ledgerTraced := fun other history elected => by
      rcases update_eq_some elected with ⟨_, rfl⟩ | earlier
      · exact (inv.offerTraced _ _ stood).grows grows
      · exact (inv.ledgerTraced other history earlier).grows grows
    ledgerBelow := fun other history elected entry member => by
      rcases update_eq_some elected with ⟨rfl, rfl⟩ | earlier
      · exact (inv.offerBelow _ _ stood entry member).le
      · exact inv.ledgerBelow other history earlier entry member
    ledgerPromised := fun other history elected nodes decides => by
      rcases update_eq_some elected with ⟨rfl, rfl⟩ | earlier
      · obtain ⟨node, granted, member⟩ := scheme.meet _ _ won decides
        exact ⟨node, member, inv.grantedPromised _ node granted⟩
      · exact inv.ledgerPromised other history earlier nodes decides
    ackedHeld := fun other acker taken acked => by
      obtain ⟨history, elected, within⟩ := inv.ackedHeld other acker taken acked
      obtain ⟨longer, later, extended⟩ := grows.ledger other history elected
      exact ⟨longer, later, within.trans extended⟩
    kept := fun other acker taken acked own choosable =>
      inv.kept other acker taken acked own (step.choosable choosable)
    carried := fun other higher voter taken held below granted acked own choosable =>
      inv.carried other higher voter taken held below granted acked own (step.choosable choosable)
    safe := fun other higher history longer taken below elected later within own choosable => by
      have before := step.choosable choosable
      rcases update_eq_some elected with ⟨rfl, rfl⟩ | earlier
      · -- A candidate's log has no entry of its own ballot.
        obtain ⟨entry, ends, ofBallot⟩ := own
        exact absurd ofBallot
          (inv.offerBelow _ _ stood entry (within.subset (List.mem_of_getLast? ends))).ne
      · rcases update_eq_some later with ⟨rfl, rfl⟩ | laterEarlier
        · -- A node of the deciding set that could choose the prefix has granted the ballot.
          obtain ⟨nodes, decides, each⟩ := before
          obtain ⟨node, granted, member⟩ := scheme.meet _ _ won decides
          rcases each node member with acked | notPromised
          · exact inv.carried other _ node taken _ below granted acked own ⟨nodes, decides, each⟩
              stood
          · have promised := inv.grantedPromised _ node granted
            exact absurd (promised.trans notPromised) (not_le.mpr below)
        · exact inv.safe other higher history longer taken below earlier laterEarlier within own
            before }

theorem Invariant.propose (inv : Invariant scheme state) {history : List Entry} {entry : Entry}
    (elected : state.ledger ballot = some history) (own : scheme.ballotOf entry = ballot) :
    Invariant scheme
      { state with ledger := Function.update state.ledger ballot (some (history ++ [entry])) } := by
  have step : Step scheme state _ := Step.propose ballot history entry elected own
  have grows := step.grows
  exact { inv with
    logTraced := fun node => (inv.logTraced node).grows grows
    offerTraced := fun other offered stood => (inv.offerTraced other offered stood).grows grows
    ledgerTraced := fun other found lookup => by
      rcases update_eq_some lookup with ⟨_, rfl⟩ | earlier
      · intro initial last held
        rcases List.prefix_concat_iff.mp held with whole | part
        · obtain ⟨rfl, lastEq⟩ := List.append_inj' whole rfl
          obtain rfl : last = entry := by simpa using lastEq
          refine ⟨initial ++ [last], ?_, List.prefix_rfl⟩
          show Function.update state.ledger ballot _ _ = _
          rw [own, Function.update_self]
        · exact ((inv.ledgerTraced _ _ elected).grows grows) initial last part
      · exact (inv.ledgerTraced other found earlier).grows grows
    ledgerBelow := fun other found lookup member present => by
      rcases update_eq_some lookup with ⟨rfl, rfl⟩ | earlier
      · rcases List.mem_append.mp present with older | newest
        · exact inv.ledgerBelow _ _ elected member older
        · rw [List.mem_singleton.mp newest, own]
      · exact inv.ledgerBelow other found earlier member present
    ledgerPromised := fun other found lookup => by
      rcases update_eq_some lookup with ⟨rfl, _⟩ | earlier
      · exact inv.ledgerPromised _ _ elected
      · exact inv.ledgerPromised other found earlier
    ackedHeld := fun other acker taken acked => by
      obtain ⟨found, lookup, within⟩ := inv.ackedHeld other acker taken acked
      obtain ⟨longer, later, extended⟩ := grows.ledger other found lookup
      exact ⟨longer, later, within.trans extended⟩
    kept := fun other acker taken acked own choosable =>
      inv.kept other acker taken acked own (step.choosable choosable)
    carried := fun other higher voter taken offered below granted acked own choosable =>
      inv.carried other higher voter taken offered below granted acked own
        (step.choosable choosable)
    safe := fun other higher found longer taken below lookup later within ownTaken choosable => by
      have before := step.choosable choosable
      obtain ⟨laterHistory, laterElected, laterWithin⟩ : ∃ laterHistory,
          state.ledger higher = some laterHistory ∧ laterHistory <+: longer := by
        rcases update_eq_some later with ⟨rfl, rfl⟩ | earlier
        · exact ⟨history, elected, List.prefix_append _ _⟩
        · exact ⟨longer, earlier, List.prefix_rfl⟩
      rcases update_eq_some lookup with ⟨rfl, rfl⟩ | earlier
      · rcases List.prefix_concat_iff.mp within with whole | part
        · -- Some node of the deciding set has promised the higher ballot, so it must have
          -- acknowledged the new entry, which no node has.
          obtain ⟨nodes, decides, each⟩ := before
          obtain ⟨node, member, promised⟩ :=
            inv.ledgerPromised higher laterHistory laterElected nodes decides
          rcases each node member with ⟨acknowledged, ack, extended⟩ | notPromised
          · obtain ⟨held, heldElected, ackWithin⟩ := inv.ackedHeld _ node acknowledged ack
            rw [elected, Option.some.injEq] at heldElected
            have shorter := (extended.trans ackWithin).length_le
            rw [whole, ← heldElected, List.length_append, List.length_singleton] at shorter
            omega
          · exact absurd (promised.trans notPromised) (not_le.mpr below)
        · exact (inv.safe _ higher history laterHistory taken below elected laterElected part
            ownTaken before).trans laterWithin
      · exact (inv.safe other higher found laterHistory taken below earlier laterElected within
          ownTaken before).trans laterWithin }

omit [DecidableEq Node] in
/-- What a node of a ballot acknowledged and can still be committed is in the ledger of that
ballot. -/
theorem Invariant.acked_within (inv : Invariant scheme state) {history : List Entry}
    (elected : state.ledger higher = some history) (notAbove : ballot ≤ higher)
    (acked : state.Acked ballot node taken) (own : scheme.Own ballot taken)
    (choosable : state.Choosable scheme ballot taken) : taken <+: history := by
  obtain ⟨longer, ack, part⟩ := acked
  obtain ⟨held, heldElected, within⟩ := inv.ackedHeld ballot node longer ack
  rcases notAbove.lt_or_eq with below | rfl
  · exact inv.safe ballot higher held history taken below heldElected elected (part.trans within)
      own choosable
  · rw [elected, Option.some.injEq] at heldElected
    exact heldElected ▸ part.trans within

omit [DecidableEq Node] [LinearOrder Ballot] in
theorem takeOver_eq (log taken : List Entry) :
    takeOver log taken = log ∨ takeOver log taken = taken ∧ ¬ taken <+: log := by
  unfold takeOver
  split
  · exact Or.inl rfl
  · rename_i notHeld
    exact Or.inr ⟨rfl, notHeld⟩

theorem prefix_takeOver (log taken : List Entry) : taken <+: takeOver log taken := by
  unfold takeOver
  split
  · assumption
  · exact List.prefix_rfl

theorem Invariant.accept (inv : Invariant scheme state) {history taken : List Entry}
    (elected : state.ledger ballot = some history) (serves : state.promised node = ballot)
    (within : taken <+: history) :
    Invariant scheme { state with
      log := Function.update state.log node (takeOver (state.log node) taken)
      acked := fun other acker acknowledged => state.acked other acker acknowledged ∨
        other = ballot ∧ acker = node ∧ acknowledged = taken } := by
  have step : Step scheme state _ := Step.accept node ballot history taken elected serves within
  exact { inv with
    logTraced := fun other => by
      show state.Traced scheme (Function.update state.log node _ other)
      by_cases same : other = node
      · rw [same, Function.update_self]
        rcases takeOver_eq (state.log node) taken with kept | ⟨replaced, _⟩
        · rw [kept]
          exact inv.logTraced node
        · rw [replaced]
          exact (inv.ledgerTraced _ _ elected).ofPrefix within
      · rw [Function.update_of_ne same]
        exact inv.logTraced other
    logPromised := fun other entry => by
      show entry ∈ Function.update state.log node _ other → _
      by_cases same : other = node
      · rw [same, Function.update_self]
        rcases takeOver_eq (state.log node) taken with kept | ⟨replaced, _⟩
        · rw [kept]
          exact inv.logPromised node entry
        · rw [replaced]
          intro member
          exact (inv.ledgerBelow _ _ elected entry (within.subset member)).trans serves.ge
      · rw [Function.update_of_ne same]
        exact inv.logPromised other entry
    ackedPromised := fun other acker acknowledged acked => by
      rcases acked with earlier | ⟨rfl, rfl, rfl⟩
      · exact inv.ackedPromised other acker acknowledged earlier
      · exact serves.ge
    ackedHeld := fun other acker acknowledged acked => by
      rcases acked with earlier | ⟨rfl, rfl, rfl⟩
      · exact inv.ackedHeld other acker acknowledged earlier
      · exact ⟨history, elected, within⟩
    kept := fun other acker acknowledged acked own choosable => by
      have before := step.choosable choosable
      show acknowledged <+: Function.update state.log node _ acker
      obtain ⟨longer, earlier | ⟨rfl, rfl, rfl⟩, part⟩ := acked
      · have held := inv.kept other acker acknowledged ⟨longer, earlier, part⟩ own before
        by_cases same : acker = node
        · subst same
          rw [Function.update_self]
          rcases takeOver_eq (state.log acker) taken with kept | ⟨replaced, conflict⟩
          · rw [kept]
            exact held
          · -- Both are prefixes of the ledger, and the one taken over is not in the log.
            rw [replaced]
            have notAbove := (inv.ackedPromised other acker longer earlier).trans serves.le
            have reached := inv.acked_within elected notAbove ⟨longer, earlier, part⟩ own before
            rcases List.prefix_or_prefix_of_prefix reached within with shorter | longer
            · exact shorter
            · exact absurd (longer.trans held) conflict
        · rw [Function.update_of_ne same]
          exact held
      · rw [Function.update_self]
        exact part.trans (prefix_takeOver _ _)
    carried := fun other higher voter acknowledged offered below granted acked own choosable
        stood => by
      have before := step.choosable choosable
      obtain ⟨longer, earlier | ⟨rfl, rfl, rfl⟩, part⟩ := acked
      · exact inv.carried other higher voter acknowledged offered below granted
          ⟨longer, earlier, part⟩ own before stood
      · have promised := inv.grantedPromised higher voter granted
        exact absurd (promised.trans serves.le) (not_le.mpr below)
    safe := fun other higher found longer acknowledged below lookup later part own choosable =>
      inv.safe other higher found longer acknowledged below lookup later part own
        (step.choosable choosable) }

theorem Invariant.truncate (inv : Invariant scheme state) {history : List Entry} {length : Nat}
    (elected : state.ledger ballot = some history) (serves : state.promised node = ballot)
    (conflict : ¬ history.take (length + 1) <+: state.log node) :
    Invariant scheme
      { state with log := Function.update state.log node ((state.log node).take length) } := by
  have step : Step scheme state _ :=
    Step.truncate node ballot history length elected serves conflict
  exact { inv with
    logTraced := fun other => by
      show state.Traced scheme (Function.update state.log node _ other)
      by_cases same : other = node
      · rw [same, Function.update_self]
        exact (inv.logTraced node).ofPrefix (List.take_prefix _ _)
      · rw [Function.update_of_ne same]
        exact inv.logTraced other
    logPromised := fun other entry => by
      show entry ∈ Function.update state.log node _ other → _
      by_cases same : other = node
      · rw [same, Function.update_self]
        exact fun member => inv.logPromised node entry (List.mem_of_mem_take member)
      · rw [Function.update_of_ne same]
        exact inv.logPromised other entry
    kept := fun other acker acknowledged acked own choosable => by
      have before := step.choosable choosable
      show acknowledged <+: Function.update state.log node _ acker
      have held := inv.kept other acker acknowledged acked own before
      by_cases same : acker = node
      · subst same
        rw [Function.update_self, List.prefix_take_iff]
        refine ⟨held, Nat.le_of_not_lt fun longer => conflict ?_⟩
        -- A longer prefix would hold the conflicting entry of the ledger.
        have notAbove : other ≤ ballot := by
          obtain ⟨whole, ack, _⟩ := acked
          exact (inv.ackedPromised other acker whole ack).trans serves.le
        have reached := inv.acked_within elected notAbove acked own before
        refine (List.prefix_of_prefix_length_le (List.take_prefix _ _) reached ?_).trans held
        exact (List.length_take_le _ _).trans longer
      · rw [Function.update_of_ne same]
        exact held
    carried := fun other higher voter taken offered below granted acked own choosable =>
      inv.carried other higher voter taken offered below granted acked own
        (step.choosable choosable)
    safe := fun other higher found longer taken below lookup later part own choosable =>
      inv.safe other higher found longer taken below lookup later part own
        (step.choosable choosable) }

theorem Invariant.step (inv : Invariant scheme state) (step : Step scheme state next) :
    Invariant scheme next := by
  cases step with
  | promise node ballot notBelow => exact inv.promise notBelow
  | stand node ballot fresh above => exact inv.stand fresh above
  | grant node ballot offered stood serves upToDate => exact inv.grant stood serves upToDate
  | elect ballot offered stood fresh won => exact inv.elect stood fresh won
  | propose ballot history entry elected own => exact inv.propose elected own
  | accept node ballot history taken elected serves within => exact inv.accept elected serves within
  | truncate node ballot history length elected serves conflict =>
    exact inv.truncate elected serves conflict

/-! ### Leader completeness -/

omit [DecidableEq Node] in
/-- The ledger of a ballot holds everything that was committed up to it. -/
theorem Invariant.chosen_within (inv : Invariant scheme state) {history : List Entry}
    (chosen : state.Chosen scheme ballot log) (elected : state.ledger higher = some history)
    (notAbove : ballot ≤ higher) : log <+: history := by
  obtain rfl | ⟨lower, below, taken, committed, part⟩ := chosen
  · exact List.nil_prefix
  obtain ⟨own, nodes, decides, acked⟩ := id committed
  obtain ⟨node, member, _⟩ := scheme.meet nodes nodes decides decides
  exact part.trans (inv.acked_within elected (below.trans notAbove) (acked node member) own
    committed.choosable)

omit [DecidableEq Node] [LinearOrder Ballot] in
/-- Log matching: two logs with an entry of one ballot at one position agree up to it. -/
theorem State.Traced.take_eq (first : state.Traced scheme log) {other : List Entry}
    (second : state.Traced scheme other) {position : Nat} {entry otherEntry : Entry}
    (found : log[position]? = some entry) (otherFound : other[position]? = some otherEntry)
    (same : scheme.ballotOf entry = scheme.ballotOf otherEntry) :
    log.take (position + 1) = other.take (position + 1) := by
  have split : ∀ {entries : List Entry} {last : Entry}, entries[position]? = some last →
      entries.take (position + 1) = entries.take position ++ [last] := by
    intro entries last lookup
    rw [List.take_add_one, lookup]
    rfl
  obtain ⟨history, elected, within⟩ :=
    first (log.take position) entry (split found ▸ List.take_prefix _ _)
  obtain ⟨otherHistory, otherElected, otherWithin⟩ :=
    second (other.take position) otherEntry (split otherFound ▸ List.take_prefix _ _)
  rw [same, otherElected, Option.some.injEq] at elected
  subst elected
  rw [← split found] at within
  rw [← split otherFound] at otherWithin
  have inside := List.getElem?_eq_some_iff.mp found |>.1
  have otherInside := List.getElem?_eq_some_iff.mp otherFound |>.1
  refine List.IsPrefix.eq_of_length (List.prefix_of_prefix_length_le within otherWithin ?_) ?_
  · rw [List.length_take, List.length_take]
    omega
  · rw [List.length_take, List.length_take]
    omega

/-- The state in which every node holds one log of a founding ballot. -/
def founded (founding : Ballot) (log : List Entry) : State Node Ballot Entry where
  promised _ := founding
  log _ := log
  offer _ := none
  ledger ballot := if ballot = founding then some log else none
  granted _ _ := False
  acked _ _ _ := False

omit [DecidableEq Node] in
theorem Invariant.founded {founding : Ballot}
    (own : ∀ entry ∈ log, scheme.ballotOf entry = founding) :
    Invariant scheme (Ballots.founded founding log) where
  logTraced _ initial entry held := by
    refine ⟨log, ?_, held⟩
    exact if_pos (own entry (held.subset List.mem_concat_self))
  logPromised _ entry member := (own entry member).le
  offerTraced _ _ stood := by cases stood
  offerBelow _ _ stood := by cases stood
  ledgerTraced ballot history elected := by
    obtain ⟨rfl, found⟩ := Option.ite_none_right_eq_some.mp elected
    cases found
    intro initial entry held
    exact ⟨log, if_pos (own entry (held.subset List.mem_concat_self)), held⟩
  ledgerBelow ballot history elected entry member := by
    obtain ⟨rfl, found⟩ := Option.ite_none_right_eq_some.mp elected
    cases found
    exact (own entry member).le
  ledgerPromised ballot history elected nodes decides := by
    obtain ⟨rfl, _⟩ := Option.ite_none_right_eq_some.mp elected
    obtain ⟨node, member, _⟩ := scheme.meet nodes nodes decides decides
    exact ⟨node, member, le_rfl⟩
  grantedPromised _ _ granted := granted.elim
  grantedStood _ _ granted := granted.elim
  ackedPromised _ _ _ acked := acked.elim
  ackedHeld _ _ _ acked := acked.elim
  kept _ _ _ acked := by
    obtain ⟨_, impossible, _⟩ := acked
    exact impossible.elim
  carried _ _ _ _ _ _ granted := granted.elim
  safe ballot higher history longer taken below elected later := by
    obtain ⟨rfl, _⟩ := Option.ite_none_right_eq_some.mp elected
    obtain ⟨same, _⟩ := Option.ite_none_right_eq_some.mp later
    exact absurd same below.ne'

end Completeness

/-! ### Majorities -/

section Majorities

variable {Node : Type}

/-- The set holds more than half of the voters. -/
def Majority (voters : List Node) (nodes : Set Node) : Prop :=
  ∃ members : Node → Bool, (∀ node, members node = true → node ∈ nodes) ∧
    voters.length < 2 * voters.countP members

theorem exists_of_length_lt_countP {voters : List Node} {first second : Node → Bool}
    (many : voters.length < voters.countP first + voters.countP second) :
    ∃ node, first node = true ∧ second node = true := by
  by_contra separate
  have others : voters.countP second ≤ voters.countP fun node => !first node := by
    refine List.countP_mono_left fun node _ inSecond => ?_
    cases inFirst : first node with
    | true => exact absurd ⟨node, inFirst, inSecond⟩ separate
    | false => rfl
  have split := List.length_eq_countP_add_countP first (l := voters)
  simp only [Bool.not_eq_true, Bool.decide_eq_false] at split
  omega

theorem majority_meet {voters : List Node} {first second : Set Node}
    (firstDecides : Majority voters first) (secondDecides : Majority voters second) :
    ∃ node, node ∈ first ∧ node ∈ second := by
  obtain ⟨firstMembers, ofFirst, firstMany⟩ := firstDecides
  obtain ⟨secondMembers, ofSecond, secondMany⟩ := secondDecides
  have many : voters.length < voters.countP firstMembers + voters.countP secondMembers := by omega
  obtain ⟨node, inFirst, inSecond⟩ := exists_of_length_lt_countP many
  exact ⟨node, ofFirst node inFirst, ofSecond node inSecond⟩

end Majorities

end Layerhouse.Ballots
