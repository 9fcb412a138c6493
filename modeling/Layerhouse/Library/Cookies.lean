/-
This file is cookies as the standard for them has a browser keep them: the lines
a server sets them with, the jar they are kept in, and the header they are sent
back in. A cookie is named by its name and its path; it is sent to the paths
under its own until it expires, and over secure connections only if it says so.

A name or a value of visible characters without separators is not changed on the way.
Attributes other than the path, the age and the security are not kept; a browser
that minds them sends fewer cookies.
-/

import Layerhouse.Library.Text

namespace Layerhouse.Cookies

structure Cookie where
  name : List Char
  value : List Char
  path : List Char
  /-- The second it expires in; without one it lasts as long as the browser. -/
  expiry : Option Nat
  secure : Bool
deriving DecidableEq

/-! ### Lines that set a cookie -/

structure Attributes where
  path : Option (List Char)
  maxAge : Option Nat
  secure : Bool

/-- The number of seconds of an age; a negative age is as good as none. -/
def seconds : List Char → Option Nat
  | '-' :: digits => if digits.all Char.isDigit then some 0 else none
  | digits =>
    if digits ≠ [] ∧ digits.all Char.isDigit then some (Nat.ofDigitChars 10 digits 0) else none

/-- One attribute; a later one replaces an earlier one. -/
def readAttribute (attributes : Attributes) (piece : List Char) : Attributes :=
  let (key, value) := (Text.splitOnce '=' piece).getD (piece, [])
  let value := Text.trim value
  let key := Text.toAsciiLowercase (Text.trim key)
  if key = "max-age".toList then
    match seconds value with
    | some age => { attributes with maxAge := some age }
    | none => attributes
  else if key = "path".toList then
    { attributes with path := if value.head? = some '/' then some value else none }
  else if key = "secure".toList then { attributes with secure := true }
  else attributes

/-- The cookie that a line sets at a time, on a page whose cookies belong to `defaultPath`. -/
def parse (now : Nat) (defaultPath line : List Char) : Option Cookie :=
  match line.splitOn ';' with
  | [] => none
  | head :: pieces =>
    match Text.splitOnce '=' head with
    | none => none
    | some (name, value) =>
      if Text.trim name = [] then none
      else
        let attributes := pieces.foldl readAttribute ⟨none, none, false⟩
        some
          { name := Text.trim name
            value := Text.trim value
            path := attributes.path.getD defaultPath
            expiry := attributes.maxAge.map (now + ·)
            secure := attributes.secure }

/-! ### Jars -/

abbrev Jar := List Cookie

/-- The cookie takes the place of the one with its name and path. -/
def Jar.store (jar : Jar) (cookie : Cookie) : Jar :=
  jar.filter (fun other => ¬ (other.name = cookie.name ∧ other.path = cookie.path)) ++ [cookie]

/-- The jar after the lines of an answer. -/
def Jar.receive (now : Nat) (defaultPath : List Char) (jar : Jar) (lines : List (List Char)) :
    Jar :=
  (lines.filterMap (parse now defaultPath)).foldl Jar.store jar

/-- A request for a path goes to the part of the site that a cookie belongs to. -/
def PathMatches (requested path : List Char) : Prop :=
  requested = path ∨
    path <+: requested ∧ (path.getLast? = some '/' ∨ requested[path.length]? = some '/')

instance (requested path : List Char) : Decidable (PathMatches requested path) :=
  inferInstanceAs (Decidable (_ ∨ _))

/-- The cookie is sent with a request. -/
structure Cookie.Sent (now : Nat) (https : Bool) (requested : List Char) (cookie : Cookie) :
    Prop where
  live : ∀ expiry ∈ cookie.expiry, now < expiry
  connected : cookie.secure = true → https = true
  under : PathMatches requested cookie.path

instance (now : Nat) (https : Bool) (requested : List Char) (cookie : Cookie) :
    Decidable (cookie.Sent now https requested) :=
  decidable_of_iff ((∀ expiry ∈ cookie.expiry, now < expiry) ∧
      (cookie.secure = true → https = true) ∧ PathMatches requested cookie.path)
    ⟨fun known => ⟨known.1, known.2.1, known.2.2⟩,
      fun sent => ⟨sent.live, sent.connected, sent.under⟩⟩

/-- The cookies of a request, those with the longer paths first. -/
def Jar.sent (now : Nat) (https : Bool) (requested : List Char) (jar : Jar) : List Cookie :=
  (jar.filter (·.Sent now https requested)).insertionSort
    fun first second => second.path.length ≤ first.path.length

/-! ### The header -/

def header (cookies : List Cookie) : List Char :=
  "; ".toList.intercalate (cookies.map fun cookie => cookie.name ++ '=' :: cookie.value)

/-- The names and values in a header, as a server takes it apart. -/
def pairs (header : List Char) : List (List Char × List Char) :=
  (header.splitOn ';').filterMap fun piece => Text.splitOnce '=' (Text.trim piece)

/-- A text that can be a cookie's value: visible characters that do not separate cookies. -/
def Plain (text : List Char) : Prop :=
  ∀ char ∈ text, 33 ≤ char.toNat ∧ char.toNat ≤ 126 ∧ char ≠ ';'

instance (text : List Char) : Decidable (Plain text) :=
  decidable_of_iff
    (text.all (fun char => 33 ≤ char.toNat ∧ char.toNat ≤ 126 ∧ char ≠ ';') = true)
    (by simp only [List.all_eq_true, decide_eq_true_eq, Plain])

structure Cookie.WellFormed (cookie : Cookie) : Prop where
  plainName : Plain cookie.name
  named : cookie.name ≠ []
  unequal : '=' ∉ cookie.name
  plainValue : Plain cookie.value

/-! ### Plain texts -/

theorem Plain.trim {text : List Char} (plain : Plain text) : Text.trim text = text := by
  refine Text.trim_eq_self fun char member => ?_
  obtain ⟨low, high, _⟩ := plain char member
  simp only [Text.isWhitespace, decide_eq_false_iff_not]
  omega

theorem Plain.notMem {text : List Char} (plain : Plain text) : ';' ∉ text :=
  fun member => (plain ';' member).2.2 rfl

theorem Plain.append {first second : List Char} (plainFirst : Plain first)
    (plainSecond : Plain second) : Plain (first ++ second) := fun char member =>
  (List.mem_append.mp member).elim (plainFirst char) (plainSecond char)

theorem trim_cons_space (text : List Char) : Text.trim (' ' :: text) = Text.trim text := by
  rw [Text.trim, List.dropWhile_cons_of_pos (by decide), Text.trim]

theorem splitOnce_append {separator : Char} {head : List Char} (rest : List Char)
    (absent : separator ∉ head) :
    Text.splitOnce separator (head ++ separator :: rest) = some (head, rest) :=
  Text.splitOnce_eq_some.mpr ⟨rfl, absent⟩

namespace Cookie

variable {cookie : Cookie}

/-- A cookie as it stands in a header. -/
theorem WellFormed.plain (wellFormed : cookie.WellFormed) :
    Plain (cookie.name ++ '=' :: cookie.value) := by
  refine wellFormed.plainName.append fun char member => ?_
  rcases List.mem_cons.mp member with rfl | inValue
  · decide
  · exact wellFormed.plainValue char inValue

theorem WellFormed.splitOnce (wellFormed : cookie.WellFormed) :
    Text.splitOnce '=' (cookie.name ++ '=' :: cookie.value) = some (cookie.name, cookie.value) :=
  splitOnce_append cookie.value wellFormed.unequal

end Cookie

/-! ### What a server reads -/

theorem intercalate_semicolon (first : List Char) (rest : List (List Char)) :
    "; ".toList.intercalate (first :: rest) =
      [';'].intercalate (first :: rest.map (' ' :: ·)) := by
  induction rest generalizing first with
  | nil => rfl
  | cons second rest inductionHypothesis =>
    rw [List.intercalate_cons_cons, inductionHypothesis second, List.map_cons,
      List.intercalate_cons_cons]
    cases rest with
    | nil => simp
    | cons third rest => simp [List.intercalate_cons_cons]

/-- A server reads from a header the names and values that the browser wrote to it. -/
theorem pairs_header {cookies : List Cookie} (wellFormed : ∀ cookie ∈ cookies, cookie.WellFormed) :
    pairs (header cookies) = cookies.map fun cookie => (cookie.name, cookie.value) := by
  cases cookies with
  | nil => decide
  | cons first rest =>
    have plain : ∀ cookie ∈ first :: rest, Plain (cookie.name ++ '=' :: cookie.value) :=
      fun cookie member => (wellFormed cookie member).plain
    rw [header, List.map_cons, intercalate_semicolon, pairs, List.splitOn_intercalate _ _ (by simp)]
    · rw [List.filterMap_cons, (plain first List.mem_cons_self).trim,
        (wellFormed first List.mem_cons_self).splitOnce, List.map_cons, List.map_map,
        List.filterMap_map, List.cons.injEq]
      refine ⟨rfl, ?_⟩
      rw [← List.filterMap_eq_map]
      refine List.filterMap_congr fun cookie member => ?_
      have known := wellFormed cookie (List.mem_cons_of_mem first member)
      rw [Function.comp_apply, Function.comp_apply, trim_cons_space, known.plain.trim,
        known.splitOnce, Function.comp_apply]
    · intro piece member
      rcases List.mem_cons.mp member with rfl | later
      · exact (plain first List.mem_cons_self).notMem
      · obtain ⟨text, listed, rfl⟩ := List.mem_map.mp later
        obtain ⟨cookie, inRest, rfl⟩ := List.mem_map.mp listed
        rw [List.mem_cons, not_or]
        exact ⟨by decide, (plain cookie (List.mem_cons_of_mem first inRest)).notMem⟩

/-- A header is written in blanks and visible characters. -/
theorem visible_header {cookies : List Cookie} (wellFormed : ∀ cookie ∈ cookies, cookie.WellFormed)
    {char : Char} (member : char ∈ header cookies) : 32 ≤ char.toNat ∧ char.toNat < 127 := by
  have visible : ∀ pieces : List (List Char), (∀ piece ∈ pieces, Plain piece) →
      ∀ char ∈ "; ".toList.intercalate pieces, 32 ≤ char.toNat ∧ char.toNat < 127 := by
    intro pieces plain
    induction pieces with
    | nil => simp [List.intercalate]
    | cons first rest inductionHypothesis =>
      have inFirst : ∀ char ∈ first, 32 ≤ char.toNat ∧ char.toNat < 127 := fun char member => by
        obtain ⟨low, high, _⟩ := plain first List.mem_cons_self char member
        omega
      cases rest with
      | nil => simpa [List.intercalate] using inFirst
      | cons second rest =>
        rw [List.intercalate_cons_cons]
        intro char member
        rcases List.mem_append.mp member with inFirstPiece | later
        · rcases List.mem_append.mp inFirstPiece with inPiece | inSeparator
          · exact inFirst char inPiece
          · rcases List.mem_pair.mp inSeparator with rfl | rfl
            · decide
            · decide
        · exact inductionHypothesis
            (fun piece listed => plain piece (List.mem_cons_of_mem first listed)) char later
  refine visible _ (fun piece listed => ?_) char member
  obtain ⟨cookie, inCookies, rfl⟩ := List.mem_map.mp listed
  exact (wellFormed cookie inCookies).plain

/-! ### What a jar holds -/

namespace Jar

variable {jar : Jar} {cookie : Cookie} {now : Nat} {https : Bool}
  {requested defaultPath : List Char}

theorem mem_sent :
    cookie ∈ jar.sent now https requested ↔ cookie ∈ jar ∧ cookie.Sent now https requested := by
  rw [sent, List.mem_insertionSort, List.mem_filter, decide_eq_true_eq]

theorem mem_store {other : Cookie} :
    cookie ∈ jar.store other ↔
      cookie = other ∨ cookie ∈ jar ∧ ¬ (cookie.name = other.name ∧ cookie.path = other.path) := by
  rw [store, List.mem_append, List.mem_filter, List.mem_singleton, decide_eq_true_eq]
  exact or_comm

/-- No two cookies of a jar have the same name and path. -/
def Distinct (jar : Jar) : Prop :=
  jar.Pairwise fun first second => ¬ (first.name = second.name ∧ first.path = second.path)

theorem Distinct.store (distinct : jar.Distinct) (cookie : Cookie) :
    (jar.store cookie).Distinct := by
  refine List.pairwise_append.mpr ⟨List.Pairwise.filter _ distinct, List.pairwise_singleton _ _, ?_⟩
  intro other member new isNew
  rw [List.mem_singleton.mp isNew]
  exact of_decide_eq_true (List.mem_filter.mp member).2

theorem Distinct.receive (distinct : jar.Distinct) (lines : List (List Char)) :
    (jar.receive now defaultPath lines).Distinct := by
  rw [Jar.receive]
  induction lines.filterMap (parse now defaultPath) generalizing jar with
  | nil => exact distinct
  | cons cookie cookies inductionHypothesis => exact inductionHypothesis (distinct.store cookie)

/-- Two cookies of a jar with one name and path are the same. -/
theorem Distinct.eq (distinct : jar.Distinct) {first second : Cookie} (inFirst : first ∈ jar)
    (inSecond : second ∈ jar) (sameName : first.name = second.name)
    (samePath : first.path = second.path) : first = second := by
  by_contra different
  have symmetric : Std.Symm fun first second : Cookie =>
      ¬ (first.name = second.name ∧ first.path = second.path) :=
    ⟨fun _ _ apart same => apart ⟨same.1.symm, same.2.symm⟩⟩
  exact distinct.forall inFirst inSecond different ⟨sameName, samePath⟩

/-- A cookie of the jar after an answer was set by one of its lines, or was there before and is
not replaced by any. -/
theorem mem_receive {lines : List (List Char)} :
    cookie ∈ jar.receive now defaultPath lines →
      (∃ line ∈ lines, parse now defaultPath line = some cookie) ∨
      cookie ∈ jar ∧ ∀ line ∈ lines, ∀ other, parse now defaultPath line = some other →
        ¬ (cookie.name = other.name ∧ cookie.path = other.path) := by
  rw [receive]
  induction lines generalizing jar with
  | nil =>
    intro member
    exact Or.inr ⟨member, fun line listed => absurd listed List.not_mem_nil⟩
  | cons line lines inductionHypothesis =>
    intro member
    cases parsed : parse now defaultPath line with
    | none =>
      rw [List.filterMap_cons_none parsed] at member
      rcases inductionHypothesis member with ⟨setting, listed, set⟩ | ⟨before, kept⟩
      · exact Or.inl ⟨setting, List.mem_cons_of_mem line listed, set⟩
      · refine Or.inr ⟨before, fun setting listed other set => ?_⟩
        rcases List.mem_cons.mp listed with rfl | later
        · rw [parsed] at set
          cases set
        · exact kept setting later other set
    | some first =>
      rw [List.filterMap_cons_some parsed, List.foldl_cons] at member
      rcases inductionHypothesis member with ⟨setting, listed, set⟩ | ⟨before, kept⟩
      · exact Or.inl ⟨setting, List.mem_cons_of_mem line listed, set⟩
      · rcases mem_store.mp before with rfl | ⟨inJar, different⟩
        · exact Or.inl ⟨line, List.mem_cons_self, parsed⟩
        · refine Or.inr ⟨inJar, fun setting listed other set => ?_⟩
          rcases List.mem_cons.mp listed with rfl | later
          · rw [parsed] at set
            exact Option.some.inj set ▸ different
          · exact kept setting later other set

end Jar

end Layerhouse.Cookies
