/-
This file is the session of the dashboard: `auth/session.rs`, and the part of
`auth/middleware.rs` that finds a session among the cookies of a request. A session
is a record in a cookie, encrypted under a key of the registry; nothing is kept of
it on the server.

AES-256-GCM under the configured key and the JSON coding are parameters with the
laws the code relies on: what was encrypted decrypts, and what was written is read
back. That nobody else can encrypt is not a law of the functions, and is stated
where runs are.
-/

import Layerhouse.Auth.Cookies
import Layerhouse.Auth.PrincipalIds
import Layerhouse.Auth.Token
import Layerhouse.Library.Base64

namespace Layerhouse

structure DashboardSession where
  subject : String
  principal : String
  username : Option String
  displayName : Option String
  email : Option String
  groups : List String
  groupIds : List String
  expiresAt : Nat
deriving DecidableEq

/-- The random bytes of one encryption. -/
structure Nonce where
  bytes : List UInt8
  length : bytes.length = 12
deriving DecidableEq

/-- AES-256-GCM under the session key, the JSON coding of sessions, and the messages of the
base64 decoder. -/
structure SessionCodec where
  encrypt : List UInt8 → List UInt8 → Except String (List UInt8)
  decrypt : List UInt8 → List UInt8 → Option (List UInt8)
  toVec : DashboardSession → Except String (List UInt8)
  fromSlice : List UInt8 → Except String DashboardSession
  base64Error : List Char → String
  decrypt_encrypt : ∀ {nonce plaintext ciphertext : List UInt8},
    encrypt nonce plaintext = .ok ciphertext → decrypt nonce ciphertext = some plaintext
  fromSlice_toVec : ∀ {session : DashboardSession} {plaintext : List UInt8},
    toVec session = .ok plaintext → fromSlice plaintext = .ok session

namespace DashboardSession

def encrypt (codec : SessionCodec) (nonce : Nonce) (session : DashboardSession) :
    Except LayerhouseError (List Char) :=
  match codec.toVec session with
  | .error message => .error (.serialization message)
  | .ok plaintext =>
    match codec.encrypt nonce.bytes plaintext with
    | .error message => .error (.internal ("encryption failed: " ++ message))
    | .ok ciphertext => .ok (Base64.standard.encodePadded (nonce.bytes ++ ciphertext))

def decrypt (codec : SessionCodec) (encrypted : List Char) :
    Except LayerhouseError DashboardSession :=
  match Base64.standard.decodePadded encrypted with
  | none => .error (.internal ("base64 decode failed: " ++ codec.base64Error encrypted))
  | some data =>
    if data.length < 12 then .error (.internal "invalid session data")
    else
      match codec.decrypt (data.take 12) (data.drop 12) with
      | none => .error (.internal "session decryption failed")
      | some plaintext =>
        match codec.fromSlice plaintext with
        | .error message => .error (.serialization message)
        | .ok session => .ok session

/-- The identity of a session, whose ids are parsed in the order they are stored in. -/
def identity (session : DashboardSession) : Except LayerhouseError AuthIdentity :=
  match ProviderQualifiedId.parse session.principal with
  | .error error => .error error
  | .ok principal =>
    match session.groupIds.mapM ProviderQualifiedId.parse with
    | .error error => .error error
    | .ok groupIds =>
      .ok
        { subject := session.subject
          principal := principal
          username := session.username
          displayName := session.displayName
          email := session.email
          groups := session.groups
          groupIds := groupIds
          scopes := []
          namespaceEpochs := []
          tokenType := .session }

end DashboardSession

/-- The first session that can be read and has not expired; an error of its ids is the answer. -/
def authenticateSessionCookies (codec : SessionCodec) (now : Nat) :
    List (List Char) → (lastErrorMessage : String) → Except LayerhouseError AuthIdentity
  | [], lastErrorMessage => .error (unauthorized lastErrorMessage)
  | cookieValue :: rest, _ =>
    match DashboardSession.decrypt codec cookieValue with
    | .error _ => authenticateSessionCookies codec now rest "invalid session"
    | .ok session =>
      if session.expiresAt ≤ now then
        authenticateSessionCookies codec now rest "session expired"
      else session.identity

/-! ### Encryption -/

namespace DashboardSession

variable {codec : SessionCodec} {session : DashboardSession} {nonce : Nonce}
  {encrypted : List Char}

theorem decrypt_encrypt (sealed : encrypt codec nonce session = .ok encrypted) :
    decrypt codec encrypted = .ok session := by
  rw [encrypt] at sealed
  cases written : codec.toVec session with
  | error message => simp [written] at sealed
  | ok plaintext =>
    cases ciphered : codec.encrypt nonce.bytes plaintext with
    | error message => simp [written, ciphered] at sealed
    | ok ciphertext =>
      simp only [written, ciphered, Except.ok.injEq] at sealed
      subst sealed
      rw [decrypt, Base64.Alphabet.decodePadded_encodePadded]
      dsimp only
      rw [if_neg (by rw [List.length_append, nonce.length]; omega),
        List.take_left' nonce.length, List.drop_left' nonce.length,
        codec.decrypt_encrypt ciphered]
      dsimp only
      rw [codec.fromSlice_toVec written]

/-- An encrypted session is written in base64 characters. -/
theorem mem_encrypted (sealed : encrypt codec nonce session = .ok encrypted) {char : Char}
    (member : char ∈ encrypted) : char ∈ Base64.standard.symbols ∨ char = '=' := by
  rw [encrypt] at sealed
  cases written : codec.toVec session with
  | error message => simp [written] at sealed
  | ok plaintext =>
    cases ciphered : codec.encrypt nonce.bytes plaintext with
    | error message => simp [written, ciphered] at sealed
    | ok ciphertext =>
      simp only [written, ciphered, Except.ok.injEq] at sealed
      subst sealed
      exact Base64.Alphabet.mem_of_mem_encodePadded member

end DashboardSession

/-! ### Identities -/

theorem mapM_eq_ok {Failure Value Result : Type} {f : Value → Except Failure Result}
    {values : List Value} {results : List Result} :
    values.mapM f = .ok results ↔
      List.Forall₂ (fun value result => f value = .ok result) values results := by
  induction values generalizing results with
  | nil =>
    rw [List.mapM_nil]
    constructor
    · intro same
      obtain rfl := Except.ok.inj same
      exact .nil
    · intro related
      cases related
      rfl
  | cons value values inductionHypothesis =>
    rw [List.mapM_cons]
    constructor
    · intro collected
      obtain ⟨first, read, continued⟩ := exceptBind_eq_ok.mp collected
      obtain ⟨rest, readRest, same⟩ := exceptBind_eq_ok.mp continued
      obtain rfl := Except.ok.inj same
      exact .cons read (inductionHypothesis.mp readRest)
    · intro related
      cases related with
      | cons read readRest =>
        exact exceptBind_eq_ok.mpr ⟨_, read,
          exceptBind_eq_ok.mpr ⟨_, inductionHypothesis.mpr readRest, rfl⟩⟩

/-- The session of this identity. -/
structure DashboardSession.Carries (session : DashboardSession) (identity : AuthIdentity) :
    Prop where
  principal : ProviderQualifiedId.parse session.principal = .ok identity.principal
  groupIds : List.Forall₂ (fun text id => ProviderQualifiedId.parse text = .ok id)
    session.groupIds identity.groupIds
  subject : identity.subject = session.subject
  username : identity.username = session.username
  displayName : identity.displayName = session.displayName
  email : identity.email = session.email
  groups : identity.groups = session.groups
  unscoped : identity.scopes = [] ∧ identity.namespaceEpochs = []
  tokenType : identity.tokenType = .session

theorem DashboardSession.identity_eq_ok {session : DashboardSession} {identity : AuthIdentity} :
    session.identity = .ok identity ↔ session.Carries identity := by
  rw [DashboardSession.identity]
  constructor
  · intro carried
    cases parsed : ProviderQualifiedId.parse session.principal with
    | error error => simp [parsed] at carried
    | ok principal =>
      cases collected : session.groupIds.mapM ProviderQualifiedId.parse with
      | error error => simp [parsed, collected] at carried
      | ok groupIds =>
        simp only [parsed, collected, Except.ok.injEq] at carried
        subst carried
        exact
          { principal := parsed
            groupIds := mapM_eq_ok.mp collected
            subject := rfl
            username := rfl
            displayName := rfl
            email := rfl
            groups := rfl
            unscoped := ⟨rfl, rfl⟩
            tokenType := rfl }
  · intro carries
    have collected := mapM_eq_ok.mpr carries.groupIds
    rw [carries.principal]
    dsimp only
    rw [collected]
    obtain ⟨subject, principal, username, displayName, email, groups, groupIds, scopes, epochs,
      tokenType⟩ := identity
    obtain rfl := carries.subject
    obtain rfl := carries.username
    obtain rfl := carries.displayName
    obtain rfl := carries.email
    obtain rfl := carries.groups
    obtain ⟨rfl, rfl⟩ := carries.unscoped
    obtain rfl := carries.tokenType
    rfl

/-! ### Requests -/

/-- A request authenticates by the first of its cookies that holds a session in force. -/
theorem authenticateSessionCookies_eq_ok {codec : SessionCodec} {now : Nat}
    {cookieValues : List (List Char)} {message : String} {identity : AuthIdentity} :
    authenticateSessionCookies codec now cookieValues message = .ok identity ↔
      ∃ before cookieValue after session, cookieValues = before ++ cookieValue :: after ∧
        (∀ earlier ∈ before, ∀ other, DashboardSession.decrypt codec earlier = .ok other →
          other.expiresAt ≤ now) ∧
        DashboardSession.decrypt codec cookieValue = .ok session ∧ now < session.expiresAt ∧
        session.Carries identity := by
  induction cookieValues generalizing message with
  | nil =>
    rw [authenticateSessionCookies]
    constructor
    · intro impossible
      cases impossible
    · rintro ⟨before, cookieValue, after, session, impossible, _⟩
      exact absurd impossible.symm (by simp)
  | cons first rest inductionHypothesis =>
    -- The first cookie is passed over exactly if it holds no session in force.
    have passed (unusable : ∀ other, DashboardSession.decrypt codec first = .ok other →
        other.expiresAt ≤ now) {later : String} :
        authenticateSessionCookies codec now rest later = .ok identity ↔
          ∃ before cookieValue after session, first :: rest = before ++ cookieValue :: after ∧
            (∀ earlier ∈ before, ∀ other, DashboardSession.decrypt codec earlier = .ok other →
              other.expiresAt ≤ now) ∧
            DashboardSession.decrypt codec cookieValue = .ok session ∧ now < session.expiresAt ∧
            session.Carries identity := by
      rw [inductionHypothesis]
      constructor
      · rintro ⟨before, cookieValue, after, session, rfl, skipped, read, inForce, carries⟩
        exact ⟨first :: before, cookieValue, after, session, rfl,
          List.forall_mem_cons.mpr ⟨unusable, skipped⟩, read, inForce, carries⟩
      · rintro ⟨before, cookieValue, after, session, same, skipped, read, inForce, carries⟩
        cases before with
        | nil =>
          obtain ⟨rfl, rfl⟩ := List.cons.inj same
          exact absurd (unusable session read) (Nat.not_le.mpr inForce)
        | cons earlier before =>
          obtain ⟨rfl, rfl⟩ := List.cons.inj same
          exact ⟨before, cookieValue, after, session, rfl,
            (List.forall_mem_cons.mp skipped).2, read, inForce, carries⟩
    rw [authenticateSessionCookies]
    cases read : DashboardSession.decrypt codec first with
    | error error =>
      exact passed fun other impossible => by rw [read] at impossible; cases impossible
    | ok session =>
      by_cases expired : session.expiresAt ≤ now
      · dsimp only
        rw [if_pos expired]
        refine passed fun other same => ?_
        rw [read] at same
        exact Except.ok.inj same ▸ expired
      · dsimp only
        rw [if_neg expired, DashboardSession.identity_eq_ok]
        constructor
        · intro carries
          exact ⟨[], first, rest, session, rfl,
            fun earlier impossible => absurd impossible List.not_mem_nil, read,
            Nat.not_le.mp expired, carries⟩
        · rintro ⟨before, cookieValue, after, other, same, skipped, readOther, inForce, carries⟩
          cases before with
          | nil =>
            obtain ⟨rfl, rfl⟩ := List.cons.inj same
            rw [read] at readOther
            exact Except.ok.inj readOther ▸ carries
          | cons earlier before =>
            obtain ⟨rfl, rfl⟩ := List.cons.inj same
            exact absurd (skipped first List.mem_cons_self session read) expired

end Layerhouse
