/-
  PrintLatch.Auth.Credentials

  Where credentials come from (`src/auth.rs`): pairing grants and their
  redemption, local tokens, rotation and revocation, as a machine over the
  database.

  One input is one transaction.  It carries what the call cannot choose: the
  random bytes, the fresh client id, what each `Utc::now()` returned, and whether
  a step fails.  A redemption is two transactions, which other calls can come
  between: the first uses up the code and leaves the redemption `pending`, the
  second sets the token.

  The `url` crate is `parse` and SHA-256 is `sha256Hex`.
-/

import PrintLatch.Auth.Authenticate
import PrintLatch.Auth.Origin
import PrintLatch.Reactive.Machine
import Mathlib.Logic.Function.Basic

namespace PrintLatch

open Text

/-- `PairingGrant`. -/
structure PairingGrant where
  code : String
  origin : String
  expiresAt : Int
  deriving DecidableEq, Repr

/-- `IssuedToken`. -/
structure IssuedToken where
  clientId : String
  token : String
  expiresAt : Int
  deriving DecidableEq, Repr

/-- `PAIRING_TTL` in seconds. -/
def pairingTtl : Int := 5 * 60

/-- `MAX_CLIENT_DAYS`. -/
def maxClientDays : Int := 90

/-- `DASHBOARD_STABLE_KEY`. -/
def dashboardStableKey : String := "operator-dashboard-v1"

/-! ## Random text -/

/-- The digit of the `HEX` table. -/
def hexDigit (n : Nat) : Char := "0123456789ABCDEF".toList.getD n '0'

/-- `format_pairing_code`. -/
def formatPairingCode (bytes : List UInt8) : String :=
  let encoded := bytes.flatMap fun b => [hexDigit (b.toNat / 16), hexDigit (b.toNat % 16)]
  let group (n : Nat) := String.ofList ((encoded.drop (8 * n)).take 8)
  s!"PL-{group 0}-{group 1}-{group 2}-{group 3}"

/-- `new_token`: the prefix and the encoded random bytes. -/
def newToken (secret : String) : String := tokenPrefix ++ secret

/-- `valid_agent_session`. -/
def validAgentSession (value : String) : Bool :=
  (utf8 value).length = 43 ∧ (utf8 value).all fun b =>
    (48 ≤ b ∧ b ≤ 57) ∨ (65 ≤ b ∧ b ≤ 90) ∨ (97 ≤ b ∧ b ≤ 122) ∨ b = 95 ∨ b = 45

/-! ## The calls -/

section

variable (parse : String → Option Url) (sha256Hex : List UInt8 → String)

/-- `hash_secret`. -/
def hashSecret (value : String) : String := sha256Hex (utf8 value)

/-- `new_pairing_grant_for_session`; `clock` and `now` are the two readings of
    the time. -/
def newPairingGrantForSession (db : Database) (origin name : String)
    (instanceSession : Option String) (reuseClient : Bool) (bytes : List UInt8)
    (clock now : Int) : Except DbError (Database × PairingGrant) :=
  match normalizeOrigin parse origin with
  | .error message => .error (.message message)
  | .ok origin =>
      let code := formatPairingCode bytes
      let expiresAt := clock + pairingTtl
      match db.insertPairingCode (hashSecret sha256Hex code) origin name expiresAt
          instanceSession reuseClient now with
      | .error error => .error error
      | .ok db' => .ok (db', ⟨code, origin, expiresAt⟩)

/-- `new_pairing_grant`. -/
def newPairingGrant (db : Database) (origin name : String) (bytes : List UInt8)
    (clock now : Int) : Except DbError (Database × PairingGrant) :=
  newPairingGrantForSession parse sha256Hex db origin name none false bytes clock now

/-- `new_dashboard_pairing_grant`. -/
def newDashboardPairingGrant (db : Database) (origin name instanceSession : String)
    (bytes : List UInt8) (clock now : Int) : Except DbError (Database × PairingGrant) :=
  if validAgentSession instanceSession then
    newPairingGrantForSession parse sha256Hex db origin name (some instanceSession) true bytes
      clock now
  else .error (.message "agent session has an invalid shape")

/-- `issue_token`. -/
def issueToken (db : Database) (name : String) (kind : ClientKind) (origin : Option String)
    (days : Int) (secret id : String) (clock now : Int) :
    Except DbError (Database × IssuedToken) :=
  let token := newToken secret
  let expiresAt := clock + days * 86400
  match db.insertClient id name kind origin (hashSecret sha256Hex token) expiresAt now with
  | .error error => .error error
  | .ok db' => .ok (db', ⟨id, token, expiresAt⟩)

/-- `issue_stable_browser_token`. -/
def issueStableBrowserToken (db : Database) (name origin : String) (days : Int)
    (secret candidateId : String) (clock now : Int) : Except DbError (Database × IssuedToken) :=
  let token := newToken secret
  let expiresAt := clock + days * 86400
  match db.rotateOrInsertStableBrowserClient candidateId dashboardStableKey name origin
      (hashSecret sha256Hex token) expiresAt now with
  | .error error => .error error
  | .ok (db', clientId) => .ok (db', ⟨clientId, token, expiresAt⟩)

/-- `issue_local_token`. -/
def issueLocalToken (db : Database) (name : String) (days : Int) (secret id : String)
    (clock now : Int) : Except DbError (Database × IssuedToken) :=
  if 1 ≤ days ∧ days ≤ maxClientDays then
    issueToken sha256Hex db name .localProcess none days secret id clock now
  else .error (.message "token lifetime must be between 1 and 90 days")

/-- `rotate_token`. -/
def rotateToken (db : Database) (clientId : String) (days : Int) (secret : String)
    (clock : Int) : Except DbError (Database × IssuedToken) :=
  if 1 ≤ days ∧ days ≤ maxClientDays then
    match db.getClient clientId with
    | none => .error (.message "client does not exist")
    | some client =>
        let token := newToken secret
        let expiresAt := clock + days * 86400
        match db.rotateClientToken clientId (hashSecret sha256Hex token) expiresAt with
        | .error error => .error error
        | .ok db' => .ok (db', ⟨client.id, token, expiresAt⟩)
  else .error (.message "token lifetime must be between 1 and 90 days")

/-- The first half of `consume_pairing_code`: the record of the code, when it can
    be redeemed, with the normalized origin. -/
def redeemCode (db : Database) (code requestOrigin instanceSession : String) (now : Int) :
    Database × Except AppError (PairingRecord × String) :=
  match normalizeOrigin parse requestOrigin with
  | .error _ => (db, .error .forbidden)
  | .ok origin =>
      match db.consumePairingCode (hashSecret sha256Hex code) origin now instanceSession with
      | (db', none) => (db', .error .unauthorized)
      | (db', some record) => (db', .ok (record, origin))

/-- The second half: the token, for the stable client or for a new one. -/
def issueForRecord (db : Database) (record : PairingRecord) (origin secret candidateId : String)
    (clock now : Int) : Except DbError (Database × IssuedToken) :=
  if record.reuseClient then
    issueStableBrowserToken sha256Hex db record.name origin 30 secret candidateId clock now
  else
    issueToken sha256Hex db record.name .browser (some origin) 30 secret candidateId clock now

/-! ## The machine -/

/-- A redemption between its two transactions. -/
structure PendingToken where
  code : String
  record : PairingRecord
  origin : String
  deriving DecidableEq, Repr

/-- The database and the redemptions under way. -/
structure Credentials where
  db : Database
  pending : Nat → Option PendingToken

/-- No redemption is under way. -/
def Credentials.ofDatabase (db : Database) : Credentials := ⟨db, fun _ => none⟩

/-- The next transaction. -/
inductive CredentialInput where
  | grant (origin name : String) (bytes : List UInt8) (clock now : Int) (fails : Bool)
  | dashboardGrant (origin name instanceSession : String) (bytes : List UInt8) (clock now : Int)
      (fails : Bool)
  | redeem (attempt : Nat) (code requestOrigin instanceSession : String) (now : Int)
      (fails : Bool)
  | issue (attempt : Nat) (secret candidateId : String) (clock now : Int) (fails : Bool)
  | issueLocal (name : String) (days : Int) (secret id : String) (clock now : Int)
      (fails : Bool)
  | rotate (clientId : String) (days : Int) (secret : String) (clock : Int) (fails : Bool)
  | revoke (clientId : String) (now : Int) (fails : Bool)
  deriving DecidableEq, Repr

/-- What has happened to credentials. -/
inductive CredentialObs where
  | granted (code origin : String) (expiresAt : Int) (instanceSession : Option String)
  /-- `Database::consume_pairing_code` returned a record. -/
  | redeemed (code : String)
  /-- A token was set for a client, at that time, for a code or not. -/
  | issued (code : Option String) (clientId token : String) (clock expiresAt : Int)
  | revoked (clientId : String)
  deriving DecidableEq, Repr

/-- What a grant leaves behind and shows. -/
def afterGrant (s : Credentials) (instanceSession : Option String) :
    Except DbError (Database × PairingGrant) → Credentials × List CredentialObs
  | .error _ => (s, [])
  | .ok (db, g) => ({ s with db := db }, [.granted g.code g.origin g.expiresAt instanceSession])

/-- What setting a token leaves behind and shows. -/
def afterToken (s : Credentials) (code : Option String) (clock : Int) :
    Except DbError (Database × IssuedToken) → Credentials × List CredentialObs
  | .error _ => (s, [])
  | .ok (db, t) => ({ s with db := db }, [.issued code t.clientId t.token clock t.expiresAt])

/-- One transaction; a step that fails changes nothing, and ends a pending
    redemption. -/
def credentialStep (s : Credentials) : CredentialInput → Credentials × List CredentialObs
  | .grant origin name bytes clock now fails =>
      if fails then (s, [])
      else
        afterGrant s none (newPairingGrant parse sha256Hex s.db origin name bytes clock now)
  | .dashboardGrant origin name instanceSession bytes clock now fails =>
      if fails then (s, [])
      else
        afterGrant s (some instanceSession) (newDashboardPairingGrant parse sha256Hex s.db origin
          name instanceSession bytes clock now)
  | .redeem attempt code requestOrigin instanceSession now fails =>
      match s.pending attempt with
      | some _ => (s, [])
      | none =>
          if fails then (s, [])
          else
            match redeemCode parse sha256Hex s.db code requestOrigin instanceSession now with
            | (db, .error _) => ({ s with db := db }, [])
            | (db, .ok (record, origin)) =>
                (⟨db, Function.update s.pending attempt (some ⟨code, record, origin⟩)⟩,
                  [.redeemed code])
  | .issue attempt secret candidateId clock now fails =>
      match s.pending attempt with
      | none => (s, [])
      | some p =>
          let done : Credentials := ⟨s.db, Function.update s.pending attempt none⟩
          if fails then (done, [])
          else
            afterToken done (some p.code) clock (issueForRecord sha256Hex s.db p.record p.origin
              secret candidateId clock now)
  | .issueLocal name days secret id clock now fails =>
      if fails then (s, [])
      else
        afterToken s none clock (issueLocalToken sha256Hex s.db name days secret id clock now)
  | .rotate clientId days secret clock fails =>
      if fails then (s, [])
      else afterToken s none clock (rotateToken sha256Hex s.db clientId days secret clock)
  | .revoke clientId now fails =>
      if fails then (s, [])
      else
        match s.db.revokeClient clientId now with
        | .error _ => (s, [])
        | .ok db => ({ s with db := db }, [.revoked clientId])

/-- A grant that succeeds has stored the digest of its code. -/
theorem newPairingGrantForSession_ok {db db' : Database} {origin name : String}
    {session : Option String} {reuse : Bool} {bytes : List UInt8} {clock now : Int}
    {g : PairingGrant}
    (h : newPairingGrantForSession parse sha256Hex db origin name session reuse bytes clock now =
      .ok (db', g)) :
    g.code = formatPairingCode bytes ∧
      db.insertPairingCode (hashSecret sha256Hex g.code) g.origin name g.expiresAt session reuse
        now = .ok db' := by
  unfold newPairingGrantForSession at h
  split at h
  · cases h
  · dsimp only at h
    split at h
    · cases h
    · next db'' hins =>
        cases h
        exact ⟨rfl, hins⟩

end

end PrintLatch
