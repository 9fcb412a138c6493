/-
This file settles for which paths the authorized repository is the dispatched one, by
what stands in the path. The middleware cuts the path at the markers it shows, the
dispatcher at those it spells: a marker that is spelled may have escaped characters,
and slashes at the end of the path, escaped or not, do not count.

So the middleware is misled in four ways. An escape may hide a marker from it that is
tried before the ones at its cut, or stands behind them. Slashes behind `/tags/list`
or `/blobs/uploads` hide these. A marker in front of nothing but slashes is one that
the dispatcher does not see, and another one decides. And an escape with a plus sign
is read by the server's own decoder only. On every other path the names are the same.
-/

import Layerhouse.Routes.Names

namespace Layerhouse

/-! ### Markers in a path -/

/-- The markers of the routes. -/
inductive Marker where
  | uploadSession
  | uploadStart
  | manifests
  | tagsList
  | referrers
  | blobs
deriving DecidableEq

namespace Marker

def text : Marker → String
  | uploadSession => "/blobs/uploads/"
  | uploadStart => "/blobs/uploads"
  | manifests => "/manifests/"
  | tagsList => "/tags/list"
  | referrers => "/referrers/"
  | blobs => "/blobs/"

/-- The marker counts only at the end. -/
def ends : Marker → Bool
  | uploadStart | tagsList => true
  | _ => false

/-- When the marker is tried. -/
def rank : Marker → Nat
  | uploadSession => 0
  | uploadStart => 1
  | manifests => 2
  | tagsList => 3
  | referrers => 4
  | blobs => 5

theorem rank_inj {first second : Marker} (same : first.rank = second.rank) : first = second := by
  cases first <;> cases second <;> first | rfl | cases same

end Marker

/-- The bytes of a text once its escapes are read. -/
def spelled (text : List Char) : List UInt8 :=
  Escapes.decode 0x25 hexPair (Text.utf8 text)

/-- The tail holds the marker, character by character, behind `before`. -/
def Shows (tail : List Char) (marker : Marker) (before : List Char) : Prop :=
  ∃ after, tail = before ++ marker.text.toList ++ after ∧ (marker.ends = true → after = [])

/-- The tail holds a spelling of the marker, with something other than slashes behind it, or with
nothing else if the marker counts only at the end. -/
structure Spells (tail : List Char) (marker : Marker) (before spelling after : List Char) :
    Prop where
  tail_eq : tail = before ++ spelling ++ after
  marker_eq : spelled spelling = Text.utf8 marker.text.toList
  ends_iff : marker.ends = true ↔ ∀ byte ∈ spelled after, byte = 0x2F

/-- The marker at the first place is tried before the one at the second, or stands behind it. -/
def Precedes (marker : Marker) (place : List Char) (other : Marker) (otherPlace : List Char) :
    Prop :=
  marker.rank < other.rank ∨ (marker = other ∧ otherPlace.length < place.length)

/-- The marker occurs at the place, and none that occurs precedes it. -/
structure Decides (occurs : Marker → List Char → Prop) (marker : Marker) (place : List Char) :
    Prop where
  here : occurs marker place
  first : ∀ other otherPlace, occurs other otherPlace → ¬ Precedes other otherPlace marker place

/-- The tail is cut at the deciding one of the markers it shows, or at its beginning. -/
def CutAt (tail cut : List Char) : Prop :=
  (∃ marker, Decides (Shows tail) marker cut) ∨ (∀ marker place, ¬ Shows tail marker place) ∧
    cut = []

/-- A marker that the tail spells elsewhere precedes all that it spells at the cut. -/
structure Overrides (tail cut : List Char) (marker : Marker) (before spelling after : List Char) :
    Prop where
  spells : Spells tail marker before spelling after
  elsewhere : before ≠ cut
  precedes : ∀ other otherSpelling otherAfter, Spells tail other cut otherSpelling otherAfter →
    Precedes marker before other cut

/-- The ways in which a tail is misread that is cut at `cut`. -/
inductive Misread (tail cut : List Char) : Prop
  | plusEscape (plus : PlusEscaped (String.ofList cut))
  | escapedMarker {marker : Marker} {before spelling after : List Char}
      (overrides : Overrides tail cut marker before spelling after)
      (escaped : spelling ≠ marker.text.toList)
  | slashesBehind {marker : Marker} {before spelling after : List Char}
      (overrides : Overrides tail cut marker before spelling after)
      (ends : marker.ends = true) (slashes : after ≠ [])
  | nothingBehind {marker cutMarker : Marker} {before spelling after rest : List Char}
      (overrides : Overrides tail cut marker before spelling after)
      (shown : tail = cut ++ cutMarker.text.toList ++ rest) (inner : cutMarker.ends = false)
      (slashes : ∀ byte ∈ spelled rest, byte = 0x2F)

/-! ### The deciding marker -/

/-- What the scan for one marker finds. -/
def partAt (tail : String) (marker : Marker) : Option String :=
  if marker.ends then stripSuffix tail marker.text
  else (splitAtLast tail marker.text).map (·.1)

theorem partAt_eq_none {tail : String} {marker : Marker} :
    partAt tail marker = none ↔ ∀ place, ¬ Shows tail.toList marker place := by
  rw [partAt]
  cases ends : marker.ends with
  | true =>
    rw [if_pos rfl, stripSuffix, Option.map_eq_none_iff, Option.eq_none_iff_forall_ne_some]
    refine forall_congr' fun place => not_congr ?_
    rw [Text.stripSuffix_eq_some, Shows]
    constructor
    · intro found
      exact ⟨[], by rw [found, List.append_nil], fun _ => rfl⟩
    · rintro ⟨after, found, nothing⟩
      rw [found, nothing ends, List.append_nil]
  | false =>
    rw [if_neg Bool.false_ne_true, splitAtLast, Option.map_map, Option.map_eq_none_iff,
      Text.rsplitOnce_eq_none]
    constructor
    · rintro absent place ⟨after, found, _⟩
      exact absent place after found
    · intro absent before after found
      exact absent before ⟨after, found, fun impossible => absurd (ends.symm.trans impossible)
        Bool.false_ne_true⟩

theorem partAt_eq_some {tail name : String} {marker : Marker}
    (found : partAt tail marker = some name) :
    Shows tail.toList marker name.toList ∧
      ∀ place, Shows tail.toList marker place → place.length ≤ name.toList.length := by
  rw [partAt] at found
  cases ends : marker.ends with
  | true =>
    rw [ends, if_pos rfl, stripSuffix, Option.map_eq_some_iff] at found
    obtain ⟨part, stripped, rfl⟩ := found
    rw [String.toList_ofList]
    have tailEq := Text.stripSuffix_eq_some.mp stripped
    refine ⟨⟨[], by rw [tailEq, List.append_nil], fun _ => rfl⟩, ?_⟩
    rintro place ⟨after, placed, nothing⟩
    rw [nothing ends, List.append_nil, tailEq] at placed
    rw [List.append_cancel_right placed]
  | false =>
    rw [ends, if_neg Bool.false_ne_true, splitAtLast, Option.map_map,
      Option.map_eq_some_iff] at found
    obtain ⟨halves, split, rfl⟩ := found
    obtain ⟨tailEq, last⟩ := Text.rsplitOnce_eq_some.mp split
    simp only [Function.comp_apply, String.toList_ofList]
    refine ⟨⟨halves.2, tailEq, fun impossible => absurd (ends.symm.trans impossible)
      Bool.false_ne_true⟩, ?_⟩
    rintro place ⟨after, placed, _⟩
    exact last place after placed

theorem repositoryPart_eq (tail : String) :
    repositoryPart tail = (partAt tail .uploadSession).or ((partAt tail .uploadStart).or
      ((partAt tail .manifests).or ((partAt tail .tagsList).or ((partAt tail .referrers).or
        (partAt tail .blobs))))) :=
  rfl

/-- The scans are made in the order of the markers. -/
theorem repositoryPart_scans {tail name : String} (found : repositoryPart tail = some name) :
    ∃ marker, partAt tail marker = some name ∧
      ∀ other : Marker, other.rank < marker.rank → partAt tail other = none := by
  rw [repositoryPart_eq] at found
  simp only [Option.or_eq_some_iff] at found
  obtain found | ⟨session, found | ⟨start, found | ⟨manifests, found | ⟨tags, found |
    ⟨referrers, found⟩⟩⟩⟩⟩ := found
  · exact ⟨.uploadSession, found, fun other earlier => absurd earlier (Nat.not_lt_zero _)⟩
  · refine ⟨.uploadStart, found, fun other earlier => ?_⟩
    cases other with
    | uploadSession => exact session
    | _ => exact absurd earlier (by decide)
  · refine ⟨.manifests, found, fun other earlier => ?_⟩
    cases other with
    | uploadSession => exact session
    | uploadStart => exact start
    | _ => exact absurd earlier (by decide)
  · refine ⟨.tagsList, found, fun other earlier => ?_⟩
    cases other with
    | uploadSession => exact session
    | uploadStart => exact start
    | manifests => exact manifests
    | _ => exact absurd earlier (by decide)
  · refine ⟨.referrers, found, fun other earlier => ?_⟩
    cases other with
    | uploadSession => exact session
    | uploadStart => exact start
    | manifests => exact manifests
    | tagsList => exact tags
    | _ => exact absurd earlier (by decide)
  · refine ⟨.blobs, found, fun other earlier => ?_⟩
    cases other with
    | uploadSession => exact session
    | uploadStart => exact start
    | manifests => exact manifests
    | tagsList => exact tags
    | referrers => exact referrers
    | _ => exact absurd earlier (by decide)

theorem decides_of_repositoryPart {tail name : String} (found : repositoryPart tail = some name) :
    ∃ marker, Decides (Shows tail.toList) marker name.toList := by
  obtain ⟨marker, part, earlier⟩ := repositoryPart_scans found
  obtain ⟨shows, last⟩ := partAt_eq_some part
  refine ⟨marker, shows, ?_⟩
  rintro other place otherShows (before | ⟨rfl, behind⟩)
  · exact partAt_eq_none.mp (earlier other before) place otherShows
  · exact absurd (last place otherShows) (Nat.not_le.mpr behind)

theorem cutAt_rawName (rest : String) : CutAt rest.toList (rawName rest).toList := by
  obtain absent | ⟨name, found⟩ := Option.eq_none_or_eq_some (repositoryPart rest)
  · refine Or.inr ⟨fun marker => partAt_eq_none.mp ?_, by rw [rawName, absent]; rfl⟩
    rw [repositoryPart_eq] at absent
    simp only [Option.or_eq_none_iff] at absent
    obtain ⟨session, start, manifests, tags, referrers, blobs⟩ := absent
    cases marker with
    | uploadSession => exact session
    | uploadStart => exact start
    | manifests => exact manifests
    | tagsList => exact tags
    | referrers => exact referrers
    | blobs => exact blobs
  · rw [rawName, found, Option.getD_some]
    exact Or.inl (decides_of_repositoryPart found)

/-- Two markers at different places of one tail are tried one after the other. -/
theorem precedes_or_precedes {tail place otherPlace : List Char} (marker other : Marker)
    (leads : place <+: tail) (otherLeads : otherPlace <+: tail) (different : place ≠ otherPlace) :
    Precedes marker place other otherPlace ∨ Precedes other otherPlace marker place := by
  rcases Nat.lt_trichotomy marker.rank other.rank with earlier | same | later
  · exact Or.inl (Or.inl earlier)
  · have lengths : place.length ≠ otherPlace.length := fun equal =>
      different ((List.prefix_of_prefix_length_le leads otherLeads equal.le).eq_of_length equal)
    rcases Nat.lt_or_gt_of_ne lengths with shorter | longer
    · exact Or.inr (Or.inr ⟨(Marker.rank_inj same).symm, shorter⟩)
    · exact Or.inl (Or.inr ⟨Marker.rank_inj same, longer⟩)
  · exact Or.inr (Or.inl later)

theorem Shows.leads {tail before : List Char} {marker : Marker} (shows : Shows tail marker before) :
    before <+: tail := by
  obtain ⟨after, rfl, _⟩ := shows
  rw [List.append_assoc]
  exact List.prefix_append _ _

/-- A tail is cut at one place. -/
theorem CutAt.unique {tail first second : List Char} (cut : CutAt tail first)
    (other : CutAt tail second) : first = second := by
  rcases cut with ⟨marker, decides⟩ | ⟨absent, rfl⟩
  · rcases other with ⟨otherMarker, otherDecides⟩ | ⟨absent, _⟩
    · by_contra different
      rcases precedes_or_precedes marker otherMarker decides.here.leads otherDecides.here.leads
        different with precedes | precedes
      · exact otherDecides.first _ _ decides.here precedes
      · exact decides.first _ _ otherDecides.here precedes
    · exact absurd decides.here (absent _ _)
  · rcases other with ⟨otherMarker, otherDecides⟩ | ⟨_, rfl⟩
    · exact absurd otherDecides.here (absent _ _)
    · rfl

/-! ### Spelled markers are those of the decoded tail -/

theorem Marker.text_cons (marker : Marker) : ∃ more, marker.text.toList = '/' :: more := by
  cases marker <;> exact ⟨_, rfl⟩

theorem Marker.ascii (marker : Marker) :
    ∀ byte ∈ Text.utf8 marker.text.toList, byte < 0x80 ∧ byte ≠ 0x25 := by
  cases marker <;> decide +kernel

theorem spelled_nil : spelled [] = [] :=
  rfl

theorem Marker.spelled_text (marker : Marker) :
    spelled marker.text.toList = Text.utf8 marker.text.toList := by
  cases marker <;> decide +kernel

/-- A spelling starts with a slash or with an escape. -/
theorem spelling_cons {spelling : List Char} {marker : Marker}
    (spells : spelled spelling = Text.utf8 marker.text.toList) :
    ∃ first more, spelling = first :: more ∧ (first = '/' ∨ first = '%') := by
  obtain ⟨rest, textEq⟩ := marker.text_cons
  have slash : String.utf8EncodeChar '/' = [0x2F] := by decide
  rw [textEq, Text.utf8_cons, slash, List.singleton_append] at spells
  obtain ⟨byte, behind, bytesEq, kind⟩ := Escapes.head_of_decode spells
  have ascii : byte < 0x80 := by rcases kind with rfl | rfl <;> decide
  have atOnce : Text.utf8 spelling = [] ++ byte :: behind := bytesEq
  obtain ⟨before, more, beforeEq, rfl⟩ := Text.utf8_split ascii atOnce
  have emptyBefore : before = [] := Text.utf8_inj (beforeEq.symm.trans rfl)
  refine ⟨Char.ofNat byte.toNat, more, Text.utf8_inj ?_, ?_⟩
  · rw [bytesEq, Text.utf8_cons, Text.utf8EncodeChar_ascii ascii]
    rfl
  · exact kind.imp (fun same => by rw [same]; rfl) fun same => by rw [same]; rfl

/-- In front of a slash or an escape a text can be decoded on its own. -/
theorem spelled_append {first : Char} (boundary : first = '/' ∨ first = '%')
    (before more : List Char) :
    spelled (before ++ first :: more) = spelled before ++ spelled (first :: more) := by
  have percentLeft : ∀ symbol, hexPair 0x25 symbol = none := fun symbol => by
    rw [hexPair, hexValue_percent]
  have percentRight : ∀ symbol, hexPair symbol 0x25 = none := fun symbol => by
    rw [hexPair, hexValue_percent]
    cases hexValue symbol <;> rfl
  rw [spelled, spelled, spelled, Text.utf8_append]
  rcases boundary with rfl | rfl
  · have slash : Text.utf8 ('/' :: more) = 0x2F :: Text.utf8 more := by
      rw [Text.utf8_cons]
      rfl
    rw [slash, Escapes.decode_append hexPair_slash_left hexPair_slash_right]
  · have percent : Text.utf8 ('%' :: more) = 0x25 :: Text.utf8 more := by
      rw [Text.utf8_cons]
      rfl
    rw [percent, Escapes.decode_append percentLeft percentRight]

theorem spelled_ne_nil {first : Char} (boundary : first = '/' ∨ first = '%')
    (more : List Char) : spelled (first :: more) ≠ [] := by
  rw [spelled, Text.utf8_cons]
  rcases boundary with rfl | rfl
  · exact Escapes.decode_ne_nil
  · exact Escapes.decode_ne_nil

/-- A marker's spelling holds no percent sign once it is read, so that what follows is read on its
own. -/
theorem spelled_spelling_append {spelling : List Char} {marker : Marker}
    (spells : spelled spelling = Text.utf8 marker.text.toList) (after : List Char) :
    spelled (spelling ++ after) = spelled spelling ++ spelled after := by
  rw [spelled, Text.utf8_append]
  refine Escapes.decode_append_of_unmarked (fun percent => ?_) _
  have plain := (marker.ascii 0x25 (spells ▸ percent)).2
  exact plain rfl

namespace Spells

variable {tail before spelling after : List Char} {marker : Marker}

theorem decoded (spells : Spells tail marker before spelling after) :
    spelled tail = spelled before ++ (Text.utf8 marker.text.toList ++ spelled after) := by
  obtain ⟨first, more, spellingEq, boundary⟩ := spelling_cons spells.marker_eq
  rw [spells.tail_eq, List.append_assoc, ← spells.marker_eq,
    ← spelled_spelling_append spells.marker_eq, spellingEq, List.cons_append,
    spelled_append boundary]

theorem leads (spells : Spells tail marker before spelling after) : before <+: tail := by
  rw [spells.tail_eq, List.append_assoc]
  exact List.prefix_append _ _

/-- A longer part of the tail that starts it is longer once it is read. -/
theorem longer (spells : Spells tail marker before spelling after) {other : List Char}
    (otherLeads : other <+: tail) (longer : before.length < other.length) :
    ∃ more, more ≠ [] ∧ spelled other = spelled before ++ more := by
  obtain ⟨first, more, spellingEq, boundary⟩ := spelling_cons spells.marker_eq
  obtain ⟨middle, otherEq⟩ := List.prefix_of_prefix_length_le spells.leads otherLeads longer.le
  obtain ⟨behind, tailEq⟩ := otherLeads
  cases middle with
  | nil =>
    rw [List.append_nil] at otherEq
    exact absurd longer (by rw [otherEq]; exact Nat.lt_irrefl _)
  | cons char middle =>
    have firstEq : char = first := by
      have bothTails := tailEq.trans spells.tail_eq
      rw [← otherEq, List.append_assoc, List.append_assoc, List.append_cancel_left_eq,
        spellingEq] at bothTails
      exact List.head_eq_of_cons_eq bothTails
    subst firstEq
    refine ⟨spelled (char :: middle), spelled_ne_nil boundary middle, ?_⟩
    rw [← otherEq, spelled_append boundary]

end Spells

theorem slashes_iff {text : List Char} {after : List UInt8} (valid : after = Text.utf8 text) :
    (∀ byte ∈ after, byte = 0x2F) ↔ ∀ char ∈ text, char = '/' := by
  rw [valid]
  exact Text.forall_mem_utf8_iff (by decide) (by decide) text

/-- Dropping symbols from the end goes no further than the last one that is kept. -/
theorem rdropWhile_append {Symbol : Type} (drops : Symbol → Bool) (before after : List Symbol) :
    (before ++ after).rdropWhile drops =
      if after.all drops then before.rdropWhile drops else before ++ after.rdropWhile drops := by
  induction after using List.reverseRecOn with
  | nil => rw [List.append_nil, List.all_nil, if_pos rfl]
  | append_singleton after last inductionHypothesis =>
    rw [← List.append_assoc, List.all_append, List.all_cons, List.all_nil, Bool.and_true]
    by_cases dropped : drops last = true
    · rw [List.rdropWhile_concat_pos _ _ _ dropped, List.rdropWhile_concat_pos _ _ _ dropped,
        inductionHypothesis, dropped, Bool.and_true]
    · rw [List.rdropWhile_concat_neg _ _ _ dropped, List.rdropWhile_concat_neg _ _ _ dropped,
        if_neg (by simp [dropped]), List.append_assoc]

/-- A marker that counts only at the end does not end with a slash, and every other one does. -/
theorem Marker.text_concat (marker : Marker) :
    ∃ most last, marker.text.toList = most ++ [last] ∧ (marker.ends = true ↔ last ≠ '/') := by
  cases marker
  · exact ⟨"/blobs/uploads".toList, '/', rfl, by decide⟩
  · exact ⟨"/blobs/upload".toList, 's', rfl, by decide⟩
  · exact ⟨"/manifests".toList, '/', rfl, by decide⟩
  · exact ⟨"/tags/lis".toList, 't', rfl, by decide⟩
  · exact ⟨"/referrers".toList, '/', rfl, by decide⟩
  · exact ⟨"/blobs".toList, '/', rfl, by decide⟩

/-- The dispatcher's text shows the marker if the decoded tail holds it, behind it only slashes if
it counts only at the end and something else otherwise. -/
theorem shows_trimEndSlashes {decoded : String} {marker : Marker} {name after : List Char}
    (decodedEq : decoded.toList = name ++ marker.text.toList ++ after)
    (ends : marker.ends = true ↔ ∀ char ∈ after, char = '/') :
    Shows (trimEndSlashes decoded).toList marker name := by
  obtain ⟨most, last, textEq, lastEnds⟩ := marker.text_concat
  rw [trimEndSlashes, String.toList_ofList, decodedEq, rdropWhile_append]
  by_cases slashes : ∀ char ∈ after, char = '/'
  · rw [if_pos (by simpa using slashes), textEq, ← List.append_assoc,
      List.rdropWhile_concat_neg _ _ _ (by simpa using lastEnds.mp (ends.mpr slashes))]
    exact ⟨[], by rw [textEq, List.append_nil, List.append_assoc], fun _ => rfl⟩
  · rw [if_neg (by simpa using slashes)]
    exact ⟨_, rfl, fun atEnd => absurd (ends.mp atEnd) slashes⟩

theorem exists_of_shows_trimEndSlashes {decoded : String} {marker : Marker} {name : List Char}
    (shows : Shows (trimEndSlashes decoded).toList marker name) :
    ∃ after, decoded.toList = name ++ marker.text.toList ++ after ∧
      (marker.ends = true ↔ ∀ char ∈ after, char = '/') := by
  obtain ⟨most, last, textEq, lastEnds⟩ := marker.text_concat
  obtain ⟨after, shown, nothing⟩ := shows
  rw [trimEndSlashes, String.toList_ofList] at shown
  have whole : decoded.toList.rdropWhile (· = '/') ++ decoded.toList.rtakeWhile (· = '/') =
      decoded.toList := List.rdropWhile_append_rtakeWhile
  have slashes : ∀ char ∈ decoded.toList.rtakeWhile (· = '/'), char = '/' := by
    intro char member
    have dropped := List.mem_rtakeWhile_imp member
    exact of_decide_eq_true dropped
  rw [shown] at whole
  refine ⟨after ++ decoded.toList.rtakeWhile (· = '/'), by rw [← List.append_assoc, whole],
    fun atEnd => ?_, fun all => ?_⟩
  · rw [nothing atEnd]
    exact slashes
  · by_contra inner
    have lastSlash : last = '/' := not_not.mp fun other => inner (lastEnds.mpr other)
    have again := List.rdropWhile_idempotent (fun char => decide (char = '/')) decoded.toList
    have allBehind : (last :: after).all (fun char => decide (char = '/')) = true := by
      rw [lastSlash, List.all_cons, decide_eq_true rfl, Bool.true_and, List.all_eq_true]
      exact fun char member => decide_eq_true (all char (List.mem_append_left _ member))
    have regrouped : name ++ marker.text.toList ++ after = name ++ most ++ (last :: after) := by
      rw [textEq]
      simp
    rw [shown, regrouped, rdropWhile_append, if_pos allBehind] at again
    have shorter := (List.rdropWhile_prefix (fun char => decide (char = '/'))
      (name ++ most)).length_le
    rw [again, List.length_append, List.length_cons] at shorter
    omega

/-- A marker that the dispatcher's text shows is spelled in the tail, behind what decodes to the
name. -/
theorem exists_spells {tail : List Char} {decoded : String}
    (received : spelled tail = Text.utf8 decoded.toList) {marker : Marker} {name : List Char}
    (shows : Shows (trimEndSlashes decoded).toList marker name) :
    ∃ before spelling after, Spells tail marker before spelling after ∧
      spelled before = Text.utf8 name := by
  obtain ⟨behind, decodedEq, ends⟩ := exists_of_shows_trimEndSlashes shows
  rw [decodedEq, List.append_assoc, Text.utf8_append, Text.utf8_append] at received
  obtain ⟨lead, trail, tailEq, ofLead, ofTrail⟩ := Escapes.decode_split received
  obtain ⟨middle, rest, rfl, ofMiddle, ofRest⟩ := Escapes.decode_split ofTrail
  have small : ∀ byte ∈ middle, byte < 0x80 := by
    refine Escapes.forall_mem_of_decode (by decide) (fun second third symbol read => ?_)
      fun byte member => (marker.ascii byte (ofMiddle ▸ member)).1
    obtain ⟨⟨_, high⟩, _, low⟩ := hexPair_eq_some read
    exact ⟨(hexValue_lt high).1, (hexValue_lt low).1⟩
  have nonempty : middle ≠ [] := by
    rintro rfl
    obtain ⟨more, textEq⟩ := marker.text_cons
    have impossible := Text.utf8_inj (ofMiddle.symm.trans rfl : Text.utf8 _ = Text.utf8 [])
    rw [textEq] at impossible
    cases impossible
  rw [← List.append_assoc] at tailEq
  obtain ⟨before, spelling, after, split, rfl, rfl, rfl⟩ :=
    Text.utf8_split_ascii small nonempty tailEq
  exact ⟨before, spelling, after, ⟨split, ofMiddle, ends.trans (slashes_iff ofRest).symm⟩, ofLead⟩

/-- A marker that the tail spells is shown by the dispatcher's text. -/
theorem Spells.shows {tail before spelling after : List Char} {marker : Marker} {decoded : String}
    (spells : Spells tail marker before spelling after)
    (received : spelled tail = Text.utf8 decoded.toList) :
    ∃ name, Shows (trimEndSlashes decoded).toList marker name ∧
      spelled before = Text.utf8 name := by
  have split : Text.utf8 decoded.toList =
      spelled before ++ Text.utf8 marker.text.toList ++ spelled after := by
    rw [← received, spells.decoded, List.append_assoc]
  have nonempty : Text.utf8 marker.text.toList ≠ [] := by
    obtain ⟨more, textEq⟩ := marker.text_cons
    rw [textEq]
    intro impossible
    have empty : Text.utf8 ('/' :: more) = Text.utf8 [] := impossible
    cases Text.utf8_inj empty
  obtain ⟨name, text, rest, decodedEq, ofBefore, textEq, ofAfter⟩ :=
    Text.utf8_split_ascii (fun byte member => (marker.ascii byte member).1) nonempty split
  rw [← Text.utf8_inj textEq] at decodedEq
  exact ⟨name, shows_trimEndSlashes decodedEq (spells.ends_iff.trans (slashes_iff ofAfter)),
    ofBefore⟩

/-! ### The two cuts -/

/-- Among the markers that the tail spells one decides, behind what decodes to the dispatched
name. -/
structure Dispatched (tail name : List Char) (marker : Marker) (before spelling after : List Char) :
    Prop where
  spells : Spells tail marker before spelling after
  name_eq : spelled before = Text.utf8 name
  first : ∀ other place otherSpelling otherAfter,
    Spells tail other place otherSpelling otherAfter → ¬ Precedes other place marker before

theorem exists_dispatched {tail : List Char} {decoded name : String}
    (received : spelled tail = Text.utf8 decoded.toList)
    (part : repositoryPart (trimEndSlashes decoded) = some name) :
    ∃ marker before spelling after,
      Dispatched tail name.toList marker before spelling after := by
  obtain ⟨marker, here, first⟩ := decides_of_repositoryPart part
  obtain ⟨before, spelling, after, spells, nameEq⟩ := exists_spells received here
  refine ⟨marker, before, spelling, after, spells, nameEq, ?_⟩
  rintro other place otherSpelling otherAfter otherSpells precedes
  obtain ⟨otherName, otherShows, otherNameEq⟩ := otherSpells.shows received
  rcases precedes with earlier | ⟨rfl, behind⟩
  · exact first other otherName otherShows (Or.inl earlier)
  · refine first other otherName otherShows (Or.inr ⟨rfl, ?_⟩)
    -- the place further right stands behind a longer name
    obtain ⟨more, nonempty, longer⟩ := spells.longer otherSpells.leads behind
    rw [otherNameEq, nameEq] at longer
    by_contra notLonger
    have leads := List.prefix_of_prefix_length_le otherShows.leads here.leads
      (Nat.not_lt.mp notLonger)
    obtain ⟨rest, nameSplit⟩ := leads
    rw [← nameSplit, Text.utf8_append, List.append_assoc] at longer
    have nothing := List.self_eq_append_right.mp longer
    exact nonempty (List.append_eq_nil_iff.mp nothing).2

/-- Where the tail is cut, a slash follows, or the tail begins. -/
theorem CutAt.boundary {tail cut : List Char} (cutAt : CutAt tail cut) :
    cut <+: tail ∧ ∀ place, place <+: tail → cut.length < place.length →
      spelled cut ≠ spelled place := by
  rcases cutAt with ⟨marker, decides⟩ | ⟨_, rfl⟩
  · refine ⟨decides.here.leads, fun place leads longer same => ?_⟩
    obtain ⟨after, tailEq, _⟩ := decides.here
    obtain ⟨more, textEq⟩ := marker.text_cons
    obtain ⟨middle, placeEq⟩ := List.prefix_of_prefix_length_le decides.here.leads leads longer.le
    obtain ⟨behind, placed⟩ := leads
    cases middle with
    | nil =>
      rw [List.append_nil] at placeEq
      exact absurd longer (by rw [placeEq]; exact Nat.lt_irrefl _)
    | cons char middle =>
      have slash : char = '/' := by
        have bothTails := placed.trans tailEq
        rw [← placeEq, List.append_assoc, List.append_assoc, List.append_cancel_left_eq,
          textEq] at bothTails
        exact List.head_eq_of_cons_eq bothTails
      subst slash
      rw [← placeEq, spelled_append (Or.inl rfl)] at same
      exact spelled_ne_nil (Or.inl rfl) middle (List.self_eq_append_right.mp same)
  · refine ⟨List.nil_prefix, fun place _ longer same => ?_⟩
    obtain ⟨char, more, rfl⟩ := List.exists_cons_of_length_pos longer
    rw [spelled_nil] at same
    have encoded : Text.utf8 (char :: more) ≠ [] := by
      intro nothing
      have empty : Text.utf8 (char :: more) = Text.utf8 [] := nothing
      cases Text.utf8_inj empty
    obtain ⟨byte, bytes, bytesEq⟩ := List.exists_cons_of_ne_nil encoded
    rw [spelled, bytesEq] at same
    exact Escapes.decode_ne_nil same.symm

/-- The two cuts decode alike only if they are one. -/
theorem Dispatched.eq_cut_iff {tail name cut before spelling after : List Char} {marker : Marker}
    (dispatched : Dispatched tail name marker before spelling after) (cutAt : CutAt tail cut) :
    spelled cut = Text.utf8 name ↔ before = cut := by
  rw [← dispatched.name_eq]
  constructor
  · intro same
    rcases Nat.lt_trichotomy before.length cut.length with longer | equal | shorter
    · obtain ⟨more, nonempty, decodedEq⟩ :=
        dispatched.spells.longer cutAt.boundary.1 longer
      rw [decodedEq] at same
      exact absurd (List.self_eq_append_right.mp same.symm) nonempty
    · exact (List.prefix_of_prefix_length_le dispatched.spells.leads cutAt.boundary.1
        equal.le).eq_of_length equal
    · exact absurd same (cutAt.boundary.2 before dispatched.spells.leads shorter)
  · rintro rfl
    rfl

/-- Where the two cuts differ, the dispatcher's marker overrides the cut, and it is hidden from
the middleware or the middleware's marker from the dispatcher. -/
theorem Dispatched.misread {tail name cut before spelling after : List Char} {marker : Marker}
    (dispatched : Dispatched tail name marker before spelling after) (cutAt : CutAt tail cut)
    (different : before ≠ cut) : Misread tail cut := by
  have overrides : Overrides tail cut marker before spelling after := by
    refine ⟨dispatched.spells, different, fun other otherSpelling otherAfter otherSpells => ?_⟩
    rcases precedes_or_precedes marker other dispatched.spells.leads otherSpells.leads
      different with precedes | precedes
    · exact precedes
    · exact absurd precedes (dispatched.first _ _ _ _ otherSpells)
  by_cases literal : spelling = marker.text.toList
  · subst literal
    by_cases hidden : marker.ends = true ∧ after ≠ []
    · exact .slashesBehind overrides hidden.1 hidden.2
    · -- the middleware sees the marker as well, and cuts at another one
      have shows : Shows tail marker before :=
        ⟨after, dispatched.spells.tail_eq, fun ends => not_not.mp fun slashes =>
          hidden ⟨ends, slashes⟩⟩
      rcases cutAt with ⟨cutMarker, decides⟩ | ⟨absent, _⟩
      · obtain ⟨rest, shown, nothing⟩ := decides.here
        by_cases agrees : cutMarker.ends = true ↔ ∀ byte ∈ spelled rest, byte = 0x2F
        · have precedes :=
            overrides.precedes cutMarker _ rest ⟨shown, cutMarker.spelled_text, agrees⟩
          exact absurd precedes (decides.first _ _ shows)
        · cases ends : cutMarker.ends with
          | true =>
            refine absurd (iff_of_true ends ?_) agrees
            rw [nothing ends]
            exact nofun
          | false =>
            refine .nothingBehind overrides shown ends ?_
            by_contra other
            exact agrees (iff_of_false (by rw [ends]; exact Bool.false_ne_true) other)
      · exact absurd shows (absent _ _)
  · exact .escapedMarker overrides literal

/-- For every tail that the dispatcher routes: the name that is authorized is the name that the
handler gets, exactly if the tail is not misread where it is cut. -/
theorem authorized_name_is_dispatched_iff (rest decoded : String) (route : Route)
    (received : axumPath rest = some decoded) (routed : dispatch decoded = some route) :
    extractRepositoryFromPath ("/v2/" ++ rest) = route.name ↔
      ∀ cut, CutAt rest.toList cut → ¬ Misread rest.toList cut := by
  have part : repositoryPart (trimEndSlashes decoded) = some route.name := by
    rw [← dispatch_name, routed, Option.map_some]
  obtain ⟨marker, before, spelling, after, dispatched⟩ :=
    exists_dispatched (axumPath_eq_some.mp received) part
  have cutAt := cutAt_rawName rest
  have same : unescape hexPair (rawName rest) = Text.utf8 route.name.toList ↔
      before = (rawName rest).toList := dispatched.eq_cut_iff cutAt
  rw [authorized_iff received (utf8_repositoryPart_leads part), same]
  constructor
  · rintro ⟨plain, sameCut⟩ cut otherCut misread
    obtain rfl := cutAt.unique otherCut
    -- every way to override the cut would override the dispatcher's marker, which decides
    have decided {other place otherSpelling otherAfter}
        (overrides : Overrides rest.toList (rawName rest).toList other place otherSpelling
          otherAfter) : False := by
      have precedes := overrides.precedes marker spelling after (sameCut ▸ dispatched.spells)
      rw [← sameCut] at precedes
      exact dispatched.first _ _ _ _ overrides.spells precedes
    cases misread with
    | plusEscape plus => exact plain (by rwa [String.ofList_toList] at plus)
    | escapedMarker overrides => exact decided overrides
    | slashesBehind overrides => exact decided overrides
    | nothingBehind overrides => exact decided overrides
  · intro read
    refine ⟨fun plus => read _ cutAt (.plusEscape ?_), ?_⟩
    · rwa [String.ofList_toList]
    · by_contra different
      exact read _ cutAt (dispatched.misread cutAt different)

/-- A plain path, and one with an escaped colon behind the marker, are read alike. -/
theorem authorized_name_is_dispatched_sample :
    (∀ cut, CutAt "alice/app/manifests/latest".toList cut →
      ¬ Misread "alice/app/manifests/latest".toList cut) ∧
    ∀ cut, CutAt "alice/app/blobs/sha256%3Aabc".toList cut →
      ¬ Misread "alice/app/blobs/sha256%3Aabc".toList cut := by
  constructor
  · exact (authorized_name_is_dispatched_iff "alice/app/manifests/latest"
      "alice/app/manifests/latest" (.manifests "alice/app" "latest") (by decide +kernel)
      (by decide +kernel)).mp (by decide +kernel)
  · exact (authorized_name_is_dispatched_iff "alice/app/blobs/sha256%3Aabc"
      "alice/app/blobs/sha256:abc" (.blobs "alice/app" "sha256:abc") (by decide +kernel)
      (by decide +kernel)).mp (by decide +kernel)

/-- An escaped slash moves the deciding marker, a trailing slash hides it from the middleware or
from the dispatcher, and a plus sign is read as a digit. -/
theorem authorized_name_is_not_dispatched :
    (∃ decoded route, axumPath "alice/app/manifests/x%2Fmanifests%2Fy" = some decoded ∧
      dispatch decoded = some route ∧ route.name = "alice/app/manifests/x" ∧
      extractRepositoryFromPath "/v2/alice/app/manifests/x%2Fmanifests%2Fy" = "alice/app") ∧
    (∃ decoded route, axumPath "alice/app/tags/list/" = some decoded ∧
      dispatch decoded = some route ∧ route.name = "alice/app" ∧
      extractRepositoryFromPath "/v2/alice/app/tags/list/" = "") ∧
    (∃ decoded route, axumPath "alice/app/manifests/x/manifests/" = some decoded ∧
      dispatch decoded = some route ∧ route.name = "alice/app" ∧
      extractRepositoryFromPath "/v2/alice/app/manifests/x/manifests/" =
        "alice/app/manifests/x") ∧
    ∃ decoded route, axumPath "alice/a%+41/manifests/x" = some decoded ∧
      dispatch decoded = some route ∧ route.name = "alice/a%+41" ∧
      extractRepositoryFromPath "/v2/alice/a%+41/manifests/x" ≠ route.name :=
  ⟨⟨"alice/app/manifests/x/manifests/y", .manifests "alice/app/manifests/x" "y", by decide +kernel,
      by decide +kernel, rfl, by decide +kernel⟩,
    ⟨"alice/app/tags/list/", .tagsList "alice/app", by decide +kernel, by decide +kernel, rfl,
      by decide +kernel⟩,
    ⟨"alice/app/manifests/x/manifests/", .manifests "alice/app" "x/manifests", by decide +kernel,
      by decide +kernel, rfl, by decide +kernel⟩,
    "alice/a%+41/manifests/x", .manifests "alice/a%+41" "x", by decide +kernel,
    by decide +kernel, rfl, by decide +kernel⟩

end Layerhouse
