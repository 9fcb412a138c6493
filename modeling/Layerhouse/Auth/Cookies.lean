/-
This file is the cookies of the dashboard login: how `auth/oauth2.rs`,
`auth/middleware.rs` and `routes/session_api.rs` write and read them, with the
flags of `auth/mod.rs`.

There are two readers. The login and the logout look at the first cookie header
only, and in it at the first cookie of a name; the middleware collects every
cookie of the name from all headers. What a browser keeps of a line that the
server writes is the cookie the line is about.
-/

import Layerhouse.Directory.HttpHost
import Layerhouse.Library.Cookies

namespace Layerhouse

/-! ### Header values -/

namespace HeaderValue

def isVisibleAscii (byte : UInt8) : Bool :=
  0x20 ≤ byte ∧ byte < 0x7F ∨ byte = 0x09

/-- The text of a value, which is in visible ASCII and tabs only. -/
def toStr (value : HeaderValue) : Option (List Char) :=
  if value.all isVisibleAscii then some (value.map fun byte => Char.ofNat byte.toNat) else none

def isValid (byte : UInt8) : Bool :=
  0x20 ≤ byte ∧ byte ≠ 0x7F ∨ byte = 0x09

def fromStr (text : List Char) : Option HeaderValue :=
  if (Text.utf8 text).all isValid then some (Text.utf8 text) else none

end HeaderValue

/-! ### Flags -/

structure CookieFlags where
  secure : Bool
  sameSite : String
deriving DecidableEq

def CookieFlags.attributes (flags : CookieFlags) : String :=
  "; ".intercalate
    (["HttpOnly"] ++ (if flags.secure then ["Secure"] else []) ++ [flags.sameSite])

inductive CookieSecureMode where
  | auto
  | enabled
  | disabled
deriving DecidableEq

def cookieSecureFlag (headers : HeaderMap) (cookieSecureMode : CookieSecureMode)
    (serverTlsEnabled : Bool) : CookieFlags :=
  match cookieSecureMode with
  | .disabled => ⟨false, "SameSite=Lax"⟩
  | .enabled => ⟨true, "SameSite=Lax"⟩
  | .auto =>
    let https := ((headers.get "x-forwarded-proto").bind HeaderValue.toStr).any
      (Text.EqIgnoreAsciiCase · "https".toList) || serverTlsEnabled
    if https then ⟨true, "SameSite=Lax"⟩ else ⟨false, "SameSite=Lax"⟩

/-! ### Reading -/

/-- The first cookie of a name. -/
def extractCookie (cookie : List Char) (name : String) : Option (List Char) :=
  (cookie.splitOn ';').findSome? fun part =>
    (Text.splitOnce '=' (Text.trim part)).bind fun (key, value) =>
      if key = name.toList then some value else none

/-- The first cookie of a name in the first cookie header. -/
def firstCookie (headers : HeaderMap) (name : String) : Option (List Char) :=
  ((headers.get "cookie").bind HeaderValue.toStr).bind (extractCookie · name)

/-- All cookies of a name, in the order of the headers. -/
def extractCookies (headers : HeaderMap) (name : String) : List (List Char) :=
  ((headers.getAll "cookie").filterMap HeaderValue.toStr).flatMap fun cookie =>
    (cookie.splitOn ';').filterMap fun part =>
      (Text.splitOnce '=' (Text.trim part)).bind fun (key, value) =>
        if key = name.toList then some value else none

/-! ### Writing -/

/-- The common form of the lines: a name and a value, the flags, a path and an age. -/
def setCookieLine (flags : CookieFlags) (name : String) (value : List Char) (path : String)
    (maxAge : Nat) : List Char :=
  name.toList ++ "=".toList ++ value ++ "; ".toList ++ flags.attributes.toList ++
    "; Path=".toList ++ path.toList ++ "; Max-Age=".toList ++ (toString maxAge).toList

def clearSessionCookieStr (flags : CookieFlags) : List Char :=
  setCookieLine flags "layerhouse_session" [] "/" 0

def oauth2CookieClearStr (flags : CookieFlags) : List Char :=
  setCookieLine flags "layerhouse_oauth2" [] "/oauth2" 0

def clearLogoutHintCookie (flags : CookieFlags) : List Char :=
  setCookieLine flags "layerhouse_logout_hint" [] "/api/v1/session/logout" 0

def loggedOutCookie (flags : CookieFlags) : List Char :=
  setCookieLine flags "layerhouse_logged_out" "1".toList "/" 300

def clearLoggedOutCookie (flags : CookieFlags) : List Char :=
  setCookieLine flags "layerhouse_logged_out" [] "/" 0

def oauth2Cookie (flags : CookieFlags) (state codeVerifier : List Char) : List Char :=
  setCookieLine flags "layerhouse_oauth2" (state ++ '.' :: codeVerifier) "/oauth2" 600

def sessionCookie (flags : CookieFlags) (value : List Char) (maxAge : Nat) : List Char :=
  setCookieLine flags "layerhouse_session" value "/" maxAge

def logoutHintCookie (flags : CookieFlags) (idToken : List Char) (maxAge : Nat) : List Char :=
  setCookieLine flags "layerhouse_logout_hint" idToken "/api/v1/session/logout" maxAge

/-! ### What the readers find -/

/-- Of the cookies of a header, those of a name. -/
theorem filterMap_pairs (cookie : List Char) (name : String) :
    ((cookie.splitOn ';').filterMap fun part =>
      (Text.splitOnce '=' (Text.trim part)).bind fun (key, value) =>
        if key = name.toList then some value else none) =
      ((Cookies.pairs cookie).filter (·.1 = name.toList)).map (·.2) := by
  rw [Cookies.pairs, List.filter_filterMap, List.map_filterMap]
  refine List.filterMap_congr fun part _ => ?_
  cases Text.splitOnce '=' (Text.trim part) with
  | none => rfl
  | some found =>
    obtain ⟨key, value⟩ := found
    by_cases same : key = name.toList
    · simp [same]
    · simp [same]

theorem extractCookie_eq (cookie : List Char) (name : String) :
    extractCookie cookie name =
      (((Cookies.pairs cookie).filter (·.1 = name.toList)).map (·.2)).head? := by
  rw [← filterMap_pairs, List.head?_filterMap, extractCookie]

/-- The first cookie of a name is one of its cookies. -/
theorem firstCookie_mem {headers : HeaderMap} {name : String} {value : List Char}
    (found : firstCookie headers name = some value) : value ∈ extractCookies headers name := by
  obtain ⟨cookie, sent, read⟩ := Option.bind_eq_some_iff.mp found
  obtain ⟨bytes, first, text⟩ := Option.bind_eq_some_iff.mp sent
  rw [extractCookies, List.mem_flatMap]
  refine ⟨cookie, List.mem_filterMap.mpr ⟨bytes, ?_, text⟩, ?_⟩
  · rw [HeaderMap.get_eq_head?] at first
    exact List.mem_of_head? first
  · rw [filterMap_pairs]
    rw [extractCookie_eq] at read
    exact List.mem_of_head? read

/-! ### Values of ASCII text -/

theorem ascii_utf8 {text : List Char} (ascii : ∀ char ∈ text, char.toNat < 128) :
    Text.utf8 text = text.map fun char => UInt8.ofNat char.toNat := by
  induction text with
  | nil => rfl
  | cons char text inductionHypothesis =>
    have small := ascii char List.mem_cons_self
    rw [Text.utf8_cons, inductionHypothesis fun other member =>
      ascii other (List.mem_cons_of_mem char member), List.map_cons]
    have alone : String.utf8EncodeChar char = [UInt8.ofNat char.toNat] := by
      have encoded := @Text.utf8EncodeChar_ascii (UInt8.ofNat char.toNat)
        (by rw [UInt8.lt_iff_toNat_lt, UInt8.toNat_ofNat_of_lt' (by simp only [UInt8.size]; omega)]
            exact small)
      rw [UInt8.toNat_ofNat_of_lt' (by simp only [UInt8.size]; omega), Char.ofNat_toNat] at encoded
      exact encoded
    rw [alone]
    rfl

/-- A visible text is a value, and is read back from it. -/
theorem toStr_utf8 {text : List Char}
    (visible : ∀ char ∈ text, 32 ≤ char.toNat ∧ char.toNat < 127) :
    HeaderValue.toStr (Text.utf8 text) = some text := by
  have ascii : ∀ char ∈ text, char.toNat < 128 := fun char member => by
    have bounds := visible char member
    omega
  rw [HeaderValue.toStr, ascii_utf8 ascii, if_pos, List.map_map]
  · congr 1
    refine (List.map_congr_left fun char member => ?_).trans (List.map_id text)
    have small := ascii char member
    rw [Function.comp_apply, UInt8.toNat_ofNat_of_lt' (by simp only [UInt8.size]; omega),
      Char.ofNat_toNat, id]
  · rw [List.all_map, List.all_eq_true]
    intro char member
    have bounds := visible char member
    rw [Function.comp_apply, HeaderValue.isVisibleAscii, decide_eq_true_eq]
    refine Or.inl ⟨?_, ?_⟩
    · rw [UInt8.le_iff_toNat_le, UInt8.toNat_ofNat_of_lt' (by simp only [UInt8.size]; omega)]
      exact bounds.1
    · rw [UInt8.lt_iff_toNat_lt, UInt8.toNat_ofNat_of_lt' (by simp only [UInt8.size]; omega)]
      exact bounds.2

/-- What is read from the value of a text is the text. -/
theorem eq_of_toStr_utf8 {text read : List Char}
    (visible : HeaderValue.toStr (Text.utf8 text) = some read) : read = text := by
  rw [HeaderValue.toStr] at visible
  obtain ⟨all, same⟩ := Option.ite_none_right_eq_some.mp visible
  obtain rfl := Option.some.inj same
  have ascii : (Text.utf8 text).all (· < 0x80) = true := by
    refine List.all_eq_true.mpr fun byte member => decide_eq_true ?_
    have inRange := List.all_eq_true.mp all byte member
    rw [HeaderValue.isVisibleAscii, decide_eq_true_eq] at inRange
    rcases inRange with ⟨_, high⟩ | rfl
    · exact UInt8.lt_trans high (by decide)
    · decide
  exact Text.utf8_inj (Text.utf8_ascii ascii)

/-- The middleware reads the cookies that the browser put into its header. -/
theorem extractCookies_header {headers : HeaderMap} {cookies : List Cookies.Cookie}
    (wellFormed : ∀ cookie ∈ cookies, cookie.WellFormed)
    (sent : headers.getAll "cookie" = [Text.utf8 (Cookies.header cookies)]) (name : String) :
    extractCookies headers name =
      (cookies.filter (·.name = name.toList)).map (·.value) := by
  have visible := toStr_utf8 fun char member => Cookies.visible_header wellFormed member
  rw [extractCookies, sent, List.filterMap_cons_some visible, List.filterMap_nil,
    List.flatMap_singleton, filterMap_pairs, Cookies.pairs_header wellFormed, List.filter_map,
    List.map_map]
  rfl

/-! ### What a browser keeps -/

theorem cookieSecureFlag_sameSite (headers : HeaderMap) (mode : CookieSecureMode)
    (serverTlsEnabled : Bool) :
    (cookieSecureFlag headers mode serverTlsEnabled).sameSite = "SameSite=Lax" := by
  cases mode with
  | disabled => rfl
  | enabled => rfl
  | auto =>
    unfold cookieSecureFlag
    dsimp only
    split
    · rfl
    · rfl

theorem seconds_toString (number : Nat) :
    Cookies.seconds (toString number).toList = some number := by
  have digits : (toString number).toList.all Char.isDigit = true :=
    List.all_eq_true.mpr fun char member => Text.isDigit_of_mem_toString member
  have value : Nat.ofDigitChars 10 (toString number).toList 0 = number := by
    rw [Text.toList_toString, Nat.ofDigitChars_ten_toDigits]
  have present : (toString number).toList ≠ [] := by
    rw [Text.toList_toString]
    exact Nat.toDigits_ne_nil
  rw [Cookies.seconds]
  · rw [if_pos ⟨present, digits⟩, value]
  · intro rest same
    exact Text.dash_notMem_toString number (same ▸ List.mem_cons_self)

theorem plain_digits (number : Nat) : Cookies.Plain (toString number).toList := by
  intro char member
  have digit := Text.isDigit_of_mem_toString member
  simp only [Char.isDigit, Bool.and_eq_true, decide_eq_true_eq, ge_iff_le, UInt32.le_iff_toNat_le,
    Char.toNat_val] at digit
  have low : 48 ≤ char.toNat := digit.1
  have high : char.toNat ≤ 57 := digit.2
  refine ⟨by omega, by omega, ?_⟩
  rintro rfl
  exact absurd high (by decide)

theorem readAttribute_maxAge (attributes : Cookies.Attributes) (maxAge : Nat) :
    Cookies.readAttribute attributes (" Max-Age=".toList ++ (toString maxAge).toList) =
      { attributes with maxAge := some maxAge } := by
  have halves : Text.splitOnce '=' (" Max-Age=".toList ++ (toString maxAge).toList) =
      some (" Max-Age".toList, (toString maxAge).toList) :=
    @Cookies.splitOnce_append _ " Max-Age".toList _ (by decide)
  have key : Text.toAsciiLowercase (Text.trim " Max-Age".toList) = "max-age".toList := by decide
  rw [Cookies.readAttribute, halves, Option.getD_some]
  dsimp only
  rw [key, if_pos rfl, (plain_digits maxAge).trim, seconds_toString]

theorem readAttribute_path (attributes : Cookies.Attributes) {path : List Char}
    (plain : Cookies.Plain path) (rooted : path.head? = some '/') :
    Cookies.readAttribute attributes (" Path=".toList ++ path) =
      { attributes with path := some path } := by
  have halves : Text.splitOnce '=' (" Path=".toList ++ path) = some (" Path".toList, path) :=
    @Cookies.splitOnce_append _ " Path".toList _ (by decide)
  have key : Text.toAsciiLowercase (Text.trim " Path".toList) = "path".toList := by decide
  rw [Cookies.readAttribute, halves, Option.getD_some]
  dsimp only
  rw [key, if_neg (by decide), if_pos rfl, plain.trim, if_pos rooted]

/-- A browser keeps the cookie that a line is about. -/
theorem parse_setCookieLine {flags : CookieFlags} {name path : String} {value : List Char}
    (now maxAge : Nat) (defaultPath : List Char) (lax : flags.sameSite = "SameSite=Lax")
    (wellFormed : (Cookies.Cookie.mk name.toList value path.toList none false).WellFormed)
    (plainPath : Cookies.Plain path.toList) (rooted : path.toList.head? = some '/') :
    Cookies.parse now defaultPath (setCookieLine flags name value path maxAge) =
      some
        { name := name.toList
          value := value
          path := path.toList
          expiry := some (now + maxAge)
          secure := flags.secure } := by
  obtain ⟨secure, sameSite⟩ := flags
  obtain rfl : sameSite = "SameSite=Lax" := lax
  let pieces : List (List Char) :=
    " HttpOnly".toList :: (if secure then [" Secure".toList] else []) ++
      [" SameSite=Lax".toList, " Path=".toList ++ path.toList,
        " Max-Age=".toList ++ (toString maxAge).toList]
  have line : setCookieLine ⟨secure, "SameSite=Lax"⟩ name value path maxAge =
      [';'].intercalate ((name.toList ++ '=' :: value) :: pieces) := by
    cases secure with
    | false =>
      simp [pieces, setCookieLine, CookieFlags.attributes, List.intercalate_cons_cons,
        List.append_assoc]
    | true =>
      simp [pieces, setCookieLine, CookieFlags.attributes, List.intercalate_cons_cons,
        List.append_assoc]
  have apart : ∀ piece ∈ (name.toList ++ '=' :: value) :: pieces, ';' ∉ piece := by
    have pathPiece : ';' ∉ " Path=".toList ++ path.toList := by
      rw [List.mem_append, not_or]
      exact ⟨by decide, plainPath.notMem⟩
    have agePiece : ';' ∉ " Max-Age=".toList ++ (toString maxAge).toList := by
      rw [List.mem_append, not_or]
      exact ⟨by decide, (plain_digits maxAge).notMem⟩
    refine List.forall_mem_cons.mpr ⟨wellFormed.plain.notMem, ?_⟩
    cases secure with
    | false =>
      refine List.forall_mem_cons.mpr ⟨by decide, List.forall_mem_cons.mpr ⟨by decide, ?_⟩⟩
      exact List.forall_mem_cons.mpr ⟨pathPiece, List.forall_mem_singleton.mpr agePiece⟩
    | true =>
      refine List.forall_mem_cons.mpr ⟨by decide, List.forall_mem_cons.mpr ⟨by decide, ?_⟩⟩
      refine List.forall_mem_cons.mpr ⟨by decide, ?_⟩
      exact List.forall_mem_cons.mpr ⟨pathPiece, List.forall_mem_singleton.mpr agePiece⟩
  have attributes : pieces.foldl Cookies.readAttribute ⟨none, none, false⟩ =
      ⟨some path.toList, some maxAge, secure⟩ := by
    cases secure with
    | false =>
      change List.foldl Cookies.readAttribute ⟨none, none, false⟩
        [" HttpOnly".toList, " SameSite=Lax".toList, " Path=".toList ++ path.toList,
          " Max-Age=".toList ++ (toString maxAge).toList] = _
      rw [List.foldl_cons, List.foldl_cons, List.foldl_cons, List.foldl_cons, List.foldl_nil,
        readAttribute_maxAge, readAttribute_path _ plainPath rooted]
      rfl
    | true =>
      change List.foldl Cookies.readAttribute ⟨none, none, false⟩
        [" HttpOnly".toList, " Secure".toList, " SameSite=Lax".toList,
          " Path=".toList ++ path.toList, " Max-Age=".toList ++ (toString maxAge).toList] = _
      rw [List.foldl_cons, List.foldl_cons, List.foldl_cons, List.foldl_cons, List.foldl_cons,
        List.foldl_nil, readAttribute_maxAge, readAttribute_path _ plainPath rooted]
      rfl
  have plainValue : Cookies.Plain value := wellFormed.plainValue
  have plainName : Cookies.Plain name.toList := wellFormed.plainName
  have split : Text.splitOnce '=' (name.toList ++ '=' :: value) = some (name.toList, value) :=
    wellFormed.splitOnce
  have named : name.toList ≠ [] := wellFormed.named
  rw [Cookies.parse, line, List.splitOn_intercalate _ apart (List.cons_ne_nil _ _)]
  dsimp only
  rw [split]
  dsimp only
  rw [plainName.trim, if_neg named, attributes, plainValue.trim]
  rfl

end Layerhouse
