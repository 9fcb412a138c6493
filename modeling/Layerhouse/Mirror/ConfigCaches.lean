/-
This file is the two configuration caches of a node: `get_rules`, `get_proxy_caches`
and their invalidations in `mirror/mod.rs`, with the administrative calls of
`routes/admin.rs` that use them. A lookup checks the cache, and when it finds nothing
usable it reads the node's metadata and writes the list to the cache, each in a step
of its own. An administrative call commits its change and then clears the cache. The
node applies the committed changes in its own time.

What is asked is that a lookup which starts after a change was applied by the node and
the cache was cleared for it answers with a list that was read after the change. It
fails when a lookup read the metadata before the change and writes its list back after
the clearing, and when the clearing comes before the node applies the change and a
lookup fills the cache in between. The file proves that it holds as long as neither
happens.
-/

import Layerhouse.Mirror.Claims

namespace Layerhouse

def rulesCacheTtlSecs : Nat := 30

/-! ### Two caches of one kind -/

/-- What a cache holds: what it lists of the metadata, and the requests after which it is
cleared. -/
structure ConfigKind (Value : Type) where
  list : StateMachineData → List Value
  updates : MirrorConfigRequest → Bool

/-- `rules_cache`, cleared by `invalidate_rules_cache`. -/
def rulesCache : ConfigKind MirrorRule where
  list := StateMachineData.listMirrorRules
  updates
    | .putMirrorRule _ | .deleteMirrorRule _ => true
    | _ => false

/-- `proxy_cache`, cleared by `invalidate_proxy_cache`. -/
def proxyCache : ConfigKind ProxyCache where
  list := StateMachineData.listProxyCaches
  updates
    | .putProxyCache _ | .deleteProxyCache _ => true
    | _ => false

/-- The list and when it was written, in nanoseconds. -/
structure ConfigCache (Value : Type) where
  values : List Value
  written : Nat

/-- The cached list, when it can be used. -/
def ConfigCache.usable {Value : Type} (cache : ConfigCache Value) (now : Nat) :
    Option (List Value) :=
  if !cache.values.isEmpty && (now - cache.written) / 10 ^ 9 < rulesCacheTtlSecs then
    some cache.values
  else none

/-! ### Lookups and updates on one node -/

/-- How far a lookup is. Kept to speak about it: the changes it has to include, and how many
requests the node had applied when it read. -/
inductive ConfigLookup (Value : Type) where
  | started (owed : List Nat)
  | missed (owed : List Nat)
  | read (owed : List Nat) (version : Nat) (values : List Value)
  | answered (owed : List Nat) (values : List Value)

/-- How many requests the node had applied when a list was read that is yet to be written. -/
def ConfigLookup.version {Value : Type} : ConfigLookup Value → Option Nat
  | .read _ version _ => some version
  | _ => none

/-- A node of the cluster. The states are those after each committed request, the first one first;
a change is named by the number of requests committed with it. -/
structure ConfigNode (Value : Type) where
  states : List StateMachineData
  applied : Nat
  now : Nat
  cache : ConfigCache Value
  lookups : Nat → Option (ConfigLookup Value)
  /-- The administrative calls whose change is committed and the cache not yet cleared. -/
  updates : Nat → Option Nat
  /-- The changes for which the cache was cleared. -/
  invalidated : List Nat

inductive ConfigLabel where
  | commit (now : Nat) (request : Request)
  | update (id now : Nat) (request : MirrorConfigRequest)
  | apply (upTo : Nat)
  | tick (now : Nat)
  | invalidate (id : Nat)
  | clear
  | start (id : Nat)
  | check (id : Nat)
  | list (id : Nat)
  | write (id : Nat)

namespace ConfigNode

variable {Value : Type}

def initial (now : Nat) : ConfigNode Value where
  states := [StateMachineData.empty]
  applied := 0
  now := now
  cache := ⟨[], now⟩
  lookups := fun _ => none
  updates := fun _ => none
  invalidated := []

/-- The changes that the node has applied and for which the cache was cleared. -/
def settled (node : ConfigNode Value) : List Nat :=
  node.invalidated.filter (· ≤ node.applied)

def setLookup (node : ConfigNode Value) (id : Nat) (lookup : ConfigLookup Value) :
    ConfigNode Value :=
  { node with lookups := Function.update node.lookups id (some lookup) }

/-- The data that the node reads. -/
def data (node : ConfigNode Value) : StateMachineData :=
  node.states.getD node.applied StateMachineData.empty

def committed (node : ConfigNode Value) : StateMachineData :=
  node.states.getLastD StateMachineData.empty

/-- `clear` is the refresh before a warm-up, which clears the cache after no change. -/
def step (externals : Externals) (kind : ConfigKind Value) (node : ConfigNode Value) :
    ConfigLabel → Option (ConfigNode Value)
  | .commit now request =>
    (requestStep externals node.committed (now, request)).map fun next =>
      { node with states := node.states ++ [next] }
  | .update id now request =>
    if kind.updates request ∧ node.updates id = none then
      (requestStep externals node.committed (now, .mirrorConfig request)).map fun next =>
        { node with
          states := node.states ++ [next]
          updates := Function.update node.updates id (some node.states.length) }
    else none
  | .apply upTo =>
    if node.applied ≤ upTo ∧ upTo < node.states.length then some { node with applied := upTo }
    else none
  | .tick now => if node.now ≤ now then some { node with now := now } else none
  | .invalidate id =>
    match node.updates id with
    | none => none
    | some change =>
      some { node with
        cache := ⟨[], node.cache.written⟩
        updates := Function.update node.updates id none
        invalidated := change :: node.invalidated }
  | .clear => some { node with cache := ⟨[], node.cache.written⟩ }
  | .start id =>
    match node.lookups id with
    | none => some (node.setLookup id (.started node.settled))
    | some _ => none
  | .check id =>
    match node.lookups id with
    | some (.started owed) =>
      some (node.setLookup id (match node.cache.usable node.now with
        | some values => .answered owed values
        | none => .missed owed))
    | _ => none
  | .list id =>
    match node.lookups id with
    | some (.missed owed) =>
      some (node.setLookup id (.read owed node.applied (kind.list node.data)))
    | _ => none
  | .write id =>
    match node.lookups id with
    | some (.read owed _ values) =>
      some { node.setLookup id (.answered owed values) with cache := ⟨values, node.now⟩ }
    | _ => none

/-! ### What is asked of a lookup -/

/-- The list was read after the change. -/
def Includes (kind : ConfigKind Value) (node : ConfigNode Value) (change : Nat)
    (values : List Value) : Prop :=
  ∃ version data, change ≤ version ∧ node.states[version]? = some data ∧ values = kind.list data

/-- Every lookup is answered with a list that was read after the changes which were applied, and
for which the cache was cleared, before it started. -/
def HonoursInvalidation (kind : ConfigKind Value) (node : ConfigNode Value) : Prop :=
  ∀ id owed values, node.lookups id = some (.answered owed values) →
    ∀ change ∈ owed, node.Includes kind change values

/-- A list is not written back after a change settled that it was read before, and the cache is
empty when the node applies a change for which it was cleared already. -/
def KeepsUp (node : ConfigNode Value) : ConfigLabel → Prop
  | .write id =>
    ∀ lookup ∈ node.lookups id, ∀ version ∈ lookup.version,
      ∀ change ∈ node.settled, change ≤ version
  | .apply upTo =>
    (∃ change ∈ node.invalidated, node.applied < change ∧ change ≤ upTo) → node.cache.values = []
  | _ => True

instance (node : ConfigNode Value) (label : ConfigLabel) : Decidable (node.KeepsUp label) :=
  match label with
  | .write id => inferInstanceAs (Decidable (∀ lookup ∈ node.lookups id,
      ∀ version ∈ lookup.version, ∀ change ∈ node.settled, change ≤ version))
  | .apply _ => inferInstanceAs (Decidable ((∃ change ∈ node.invalidated, _) → _))
  | .commit .. | .update .. | .tick .. | .invalidate .. | .clear | .start .. | .check ..
  | .list .. => isTrue trivial

/-! ### The invariant -/

variable {kind : ConfigKind Value} {node next : ConfigNode Value}

/-- The list was read when the node had applied `version` requests. -/
def ReadAt (kind : ConfigKind Value) (node : ConfigNode Value) (version : Nat)
    (values : List Value) : Prop :=
  ∃ data, node.states[version]? = some data ∧ values = kind.list data

/-- What holds of a lookup. -/
def LookupSound (kind : ConfigKind Value) (node : ConfigNode Value) :
    ConfigLookup Value → Prop
  | .started owed | .missed owed => ∀ change ∈ owed, change ∈ node.settled
  | .read owed version values => node.ReadAt kind version values ∧ ∀ change ∈ owed, change ≤ version
  | .answered owed values => ∀ change ∈ owed, node.Includes kind change values

structure Sound (kind : ConfigKind Value) (node : ConfigNode Value) : Prop where
  inside : node.applied < node.states.length
  cache : node.cache.values = [] ∨ ∃ version, node.ReadAt kind version node.cache.values ∧
    ∀ change ∈ node.settled, change ≤ version
  lookups : ∀ id lookup, node.lookups id = some lookup → node.LookupSound kind lookup

theorem sound_initial (kind : ConfigKind Value) (now : Nat) : (initial now).Sound kind where
  inside := Nat.zero_lt_one
  cache := Or.inl rfl
  lookups := fun _ _ impossible => by cases impossible

/-- The cluster goes on: more states, and more changes settled. -/
structure Extends (node next : ConfigNode Value) : Prop where
  states : node.states <+: next.states
  settled : ∀ change ∈ node.settled, change ∈ next.settled

theorem ReadAt.mono (goesOn : node.Extends next) {version : Nat} {values : List Value}
    (read : node.ReadAt kind version values) : next.ReadAt kind version values := by
  obtain ⟨data, found, same⟩ := read
  obtain ⟨more, states⟩ := goesOn.states
  refine ⟨data, ?_, same⟩
  rw [← states, List.getElem?_append_left (List.getElem?_eq_some_iff.mp found).1, found]

theorem includes_iff {change : Nat} {values : List Value} :
    node.Includes kind change values ↔
      ∃ version, change ≤ version ∧ node.ReadAt kind version values := by
  constructor
  · rintro ⟨version, data, after, found, same⟩
    exact ⟨version, after, data, found, same⟩
  · rintro ⟨version, after, data, found, same⟩
    exact ⟨version, data, after, found, same⟩

theorem LookupSound.mono (goesOn : node.Extends next) {lookup : ConfigLookup Value}
    (sound : node.LookupSound kind lookup) : next.LookupSound kind lookup := by
  cases lookup with
  | started owed => exact fun change member => goesOn.settled change (sound change member)
  | missed owed => exact fun change member => goesOn.settled change (sound change member)
  | read owed version values => exact ⟨sound.1.mono goesOn, sound.2⟩
  | answered owed values =>
    intro change member
    obtain ⟨version, after, read⟩ := includes_iff.mp (sound change member)
    exact includes_iff.mpr ⟨version, after, read.mono goesOn⟩

namespace Sound

theorem readAt_applied (holds : node.Sound kind) :
    node.ReadAt kind node.applied (kind.list node.data) := by
  refine ⟨node.data, ?_, rfl⟩
  rw [data, List.getD_eq_getElem _ _ holds.inside, List.getElem?_eq_getElem holds.inside]

theorem le_applied {change : Nat} (settled : change ∈ node.settled) : change ≤ node.applied := by
  rw [ConfigNode.settled, List.mem_filter, decide_eq_true_eq] at settled
  exact settled.2

/-- More requests are committed. -/
theorem commit (holds : node.Sound kind) {states : List StateMachineData}
    (longer : node.states <+: states) (updates : Nat → Option Nat) :
    Sound kind { node with states := states, updates := updates } := by
  have goesOn : node.Extends { node with states := states, updates := updates } :=
    ⟨longer, fun _ member => member⟩
  refine ⟨lt_of_lt_of_le holds.inside longer.length_le, ?_, fun id lookup found =>
    (holds.lookups id lookup found).mono goesOn⟩
  exact holds.cache.imp_right fun ⟨version, read, after⟩ => ⟨version, read.mono goesOn, after⟩

/-- One lookup goes on. -/
theorem setLookup (holds : node.Sound kind) (id : Nat) {lookup : ConfigLookup Value}
    (sound : node.LookupSound kind lookup) : (node.setLookup id lookup).Sound kind := by
  have goesOn : node.Extends (node.setLookup id lookup) :=
    ⟨List.prefix_rfl, fun _ member => member⟩
  refine ⟨holds.inside, ?_, fun other found lookedUp => ?_⟩
  · exact holds.cache.imp_right fun ⟨version, read, after⟩ => ⟨version, read.mono goesOn, after⟩
  · simp only [ConfigNode.setLookup, Function.update_apply] at lookedUp
    split at lookedUp
    · cases lookedUp
      exact sound.mono goesOn
    · exact (holds.lookups other found lookedUp).mono goesOn

/-- The cache is cleared, for a change or for none. -/
theorem clear (holds : node.Sound kind) {updates : Nat → Option Nat} {invalidated : List Nat}
    (more : ∀ change ∈ node.invalidated, change ∈ invalidated) (written : Nat) :
    Sound kind { node with
      cache := ⟨[], written⟩, updates := updates, invalidated := invalidated } := by
  have goesOn : node.Extends { node with
      cache := ⟨[], written⟩, updates := updates, invalidated := invalidated } := by
    refine ⟨List.prefix_rfl, fun change member => ?_⟩
    rw [settled, List.mem_filter] at member ⊢
    exact ⟨more change member.1, member.2⟩
  exact ⟨holds.inside, Or.inl rfl, fun id lookup found =>
    (holds.lookups id lookup found).mono goesOn⟩

/-- A usable cached list includes every settled change. -/
theorem includes_of_usable (holds : node.Sound kind) {values : List Value}
    (usable : node.cache.usable node.now = some values) {change : Nat}
    (settled : change ∈ node.settled) : node.Includes kind change values := by
  rw [ConfigCache.usable] at usable
  split at usable
  · rename_i checked
    cases usable
    rcases holds.cache with empty | ⟨version, read, after⟩
    · rw [empty] at checked
      cases checked
    · exact includes_iff.mpr ⟨version, after change settled, read⟩
  · cases usable

theorem apply (holds : node.Sound kind) {upTo : Nat} (later : node.applied ≤ upTo)
    (inside : upTo < node.states.length) (keepsUp : node.KeepsUp (.apply upTo)) :
    Sound kind { node with applied := upTo } := by
  have goesOn : node.Extends { node with applied := upTo } := by
    refine ⟨List.prefix_rfl, fun change member => ?_⟩
    have before := le_applied member
    rw [settled, List.mem_filter, decide_eq_true_eq] at member ⊢
    exact ⟨member.1, before.trans later⟩
  refine ⟨inside, ?_, fun id lookup found => (holds.lookups id lookup found).mono goesOn⟩
  rcases holds.cache with empty | ⟨version, read, after⟩
  · exact Or.inl empty
  by_cases early : ∃ change ∈ node.invalidated, node.applied < change ∧ change ≤ upTo
  · exact Or.inl (keepsUp early)
  · refine Or.inr ⟨version, read.mono goesOn, fun change member => after change ?_⟩
    rw [settled, List.mem_filter, decide_eq_true_eq] at member ⊢
    refine ⟨member.1, not_lt.mp fun beyond => early ⟨change, member.1, beyond, member.2⟩⟩

theorem step {externals : Externals} {label : ConfigLabel} (holds : node.Sound kind)
    (keepsUp : node.KeepsUp label)
    (stepped : ConfigNode.step externals kind node label = some next) : next.Sound kind := by
  cases label with
  | commit now request =>
    obtain ⟨after, _, rfl⟩ := Option.map_eq_some_iff.mp stepped
    exact holds.commit (List.prefix_append _ _) node.updates
  | update id now request =>
    obtain ⟨_, stepped⟩ := Option.ite_none_right_eq_some.mp stepped
    obtain ⟨after, _, rfl⟩ := Option.map_eq_some_iff.mp stepped
    exact holds.commit (List.prefix_append _ _) _
  | apply upTo =>
    obtain ⟨bounds, stepped⟩ := Option.ite_none_right_eq_some.mp stepped
    cases stepped
    exact holds.apply bounds.1 bounds.2 keepsUp
  | tick now =>
    obtain ⟨_, stepped⟩ := Option.ite_none_right_eq_some.mp stepped
    cases stepped
    exact ⟨holds.inside, holds.cache, holds.lookups⟩
  | invalidate id =>
    rw [ConfigNode.step] at stepped
    split at stepped
    · cases stepped
    · cases stepped
      exact holds.clear (fun _ member => List.mem_cons_of_mem _ member) _
  | clear =>
    cases stepped
    exact holds.clear (fun _ member => member) _
  | start id =>
    rw [ConfigNode.step] at stepped
    split at stepped
    · cases stepped
      exact holds.setLookup id fun _ member => member
    · cases stepped
  | check id =>
    rw [ConfigNode.step] at stepped
    split at stepped
    · rename_i owed found
      cases stepped
      have owes := holds.lookups id _ found
      refine holds.setLookup id ?_
      split
      · rename_i values usable
        exact fun change member => holds.includes_of_usable usable (owes change member)
      · exact owes
    · cases stepped
  | list id =>
    rw [ConfigNode.step] at stepped
    split at stepped
    · rename_i owed found
      cases stepped
      have owes := holds.lookups id _ found
      exact holds.setLookup id
        ⟨holds.readAt_applied, fun change member => le_applied (owes change member)⟩
    · cases stepped
  | write id =>
    rw [ConfigNode.step] at stepped
    split at stepped
    · rename_i owed version values found
      cases stepped
      have sound := holds.lookups id _ found
      have written := holds.setLookup id
        (show node.LookupSound kind (.answered owed values) from fun change member =>
          includes_iff.mpr ⟨version, sound.2 change member, sound.1⟩)
      exact ⟨written.inside, Or.inr ⟨version, sound.1, keepsUp _ found _ rfl⟩,
        written.lookups⟩
    · cases stepped

end Sound

/-- The lookups of one cache, in every run that keeps up. -/
theorem honoursInvalidation_of_keepsUp {externals : Externals} {now : Nat}
    {labels : List ConfigLabel}
    (reached : run (ConfigNode.step externals kind) (.initial now) labels = some node)
    (keepsUp : Along (ConfigNode.step externals kind) KeepsUp (.initial now) labels) :
    node.HonoursInvalidation kind := by
  have holds := run_invariant_along (Sound kind)
    (fun _ _ _ stepped met holds => holds.step met stepped) reached keepsUp
    (sound_initial kind now)
  exact fun id owed values found => holds.lookups id _ found

end ConfigNode

/-- On a node whose lookups write no list back after a change settled that it was read before, and
which fills no cache between the clearing for a change and its application, every lookup is
answered with a list that includes the changes settled before it started. -/
theorem config_caches_honour_invalidation (externals : Externals) (now : Nat)
    (labels : List ConfigLabel) :
    (∀ node, run (ConfigNode.step externals rulesCache) (.initial now) labels = some node →
      Along (ConfigNode.step externals rulesCache) ConfigNode.KeepsUp (.initial now) labels →
        node.HonoursInvalidation rulesCache) ∧
    (∀ node, run (ConfigNode.step externals proxyCache) (.initial now) labels = some node →
      Along (ConfigNode.step externals proxyCache) ConfigNode.KeepsUp (.initial now) labels →
        node.HonoursInvalidation proxyCache) :=
  ⟨fun _ => ConfigNode.honoursInvalidation_of_keepsUp,
    fun _ => ConfigNode.honoursInvalidation_of_keepsUp⟩

/-- A rule is stored and applied. -/
def sampleConfigured : List ConfigLabel :=
  [.commit 0 (.mirrorConfig (.putMirrorRule (sampleRule .all))), .apply 1]

/-- A lookup up to its read of the metadata. -/
def sampleLookup (id : Nat) : List ConfigLabel :=
  [.start id, .check id, .list id]

/-- The rule is deleted after a lookup filled the cache, and looked up again. -/
def sampleDeletion : List ConfigLabel :=
  sampleConfigured ++ sampleLookup 0 ++ [.write 0, .update 0 0 (.deleteMirrorRule "nginx"),
    .apply 2, .invalidate 0] ++ sampleLookup 1 ++ [.write 1]

theorem config_caches_honour_invalidation_sample :
    ∃ node, run (ConfigNode.step sampleExternals rulesCache) (.initial 0) sampleDeletion =
        some node ∧
      node.lookups 1 = some (.answered [2] []) ∧ node.HonoursInvalidation rulesCache :=
  ⟨_, rfl, rfl, (config_caches_honour_invalidation sampleExternals 0 sampleDeletion).1 _ rfl
    (by decide +kernel)⟩

/-- A lookup that read before the deletion writes back after the cache was cleared; or the cache
is cleared before the node applies the deletion, and a lookup fills it in between. Either way a
later lookup answers with the deleted rule. -/
theorem config_caches_serve_deleted_rules :
    (∃ node, run (ConfigNode.step sampleExternals rulesCache) (.initial 0)
        (sampleConfigured ++ sampleLookup 0 ++ [.update 0 0 (.deleteMirrorRule "nginx"), .apply 2,
          .invalidate 0, .write 0, .start 1, .check 1]) = some node ∧
      ¬ node.HonoursInvalidation rulesCache) ∧
    ∃ node, run (ConfigNode.step sampleExternals rulesCache) (.initial 0)
        (sampleConfigured ++ [.update 0 0 (.deleteMirrorRule "nginx"), .invalidate 0] ++
          sampleLookup 0 ++ [.write 0, .apply 2, .start 1, .check 1]) = some node ∧
      ¬ node.HonoursInvalidation rulesCache := by
  have deleted : ∀ {node : ConfigNode MirrorRule}, node.states.length = 3 →
      (node.states[2]?).map StateMachineData.listMirrorRules = some [] →
        ¬ node.Includes rulesCache 2 [sampleRule .all] := by
    rintro node bounded last ⟨version, data, after, found, same⟩
    have inside := (List.getElem?_eq_some_iff.mp found).1
    obtain rfl : version = 2 := by omega
    rw [found] at last
    have none : data.listMirrorRules = [] := Option.some.inj last
    exact absurd (same.trans none) (List.cons_ne_nil _ _)
  refine ⟨⟨_, rfl, fun honours => ?_⟩, ⟨_, rfl, fun honours => ?_⟩⟩
  · exact deleted rfl rfl (honours 1 [2] _ rfl 2 List.mem_cons_self)
  · exact deleted rfl rfl (honours 1 [2] _ rfl 2 List.mem_cons_self)

end Layerhouse
