/-
  PrintLatch.Auth.Redemption

  `auth::consume_pairing_code` as one call, with every step that can fail.

  The call is two transactions with a random draw between them.  Each database
  call is all or nothing: when it fails, at its commit or before, the database is
  as it was.  The whole call is not, and `BurnsCode` says when it is not.
-/

import PrintLatch.Auth.Pairing
import PrintLatch.Auth.Tokens

namespace PrintLatch

open Reactive

/-- A step of `consume_pairing_code` that can fail. -/
inductive RedemptionFault where
  | consumeCall
  | consumeCommit
  | random
  | issueCall
  | issueCommit
  deriving DecidableEq, Repr

/-- The first transaction fails. -/
def consumeFails (faults : List RedemptionFault) : Prop :=
  .consumeCall ∈ faults ∨ .consumeCommit ∈ faults

/-- The draw or the second transaction fails. -/
def issueFails (faults : List RedemptionFault) : Prop :=
  .random ∈ faults ∨ .issueCall ∈ faults ∨ .issueCommit ∈ faults

instance (faults : List RedemptionFault) : Decidable (consumeFails faults) := by
  unfold consumeFails; infer_instance

instance (faults : List RedemptionFault) : Decidable (issueFails faults) := by
  unfold issueFails; infer_instance

section

variable (parse : String → Option Url) (sha256Hex : List UInt8 → String)

/-- `auth::consume_pairing_code`; `now`, `clock` and `issuedAt` are the readings of
    the time, in their order. -/
def consumePairingCode (db : Database) (code requestOrigin instanceSession : String) (now : Int)
    (secret candidateId : String) (clock issuedAt : Int) (faults : List RedemptionFault) :
    Database × Except AppError IssuedToken :=
  match normalizeOrigin parse requestOrigin with
  | .error _ => (db, .error .forbidden)
  | .ok origin =>
      if consumeFails faults then (db, .error .internal)
      else
        match db.consumePairingCode (hashSecret sha256Hex code) origin now instanceSession with
        | (db', none) => (db', .error .unauthorized)
        | (db', some record) =>
            if issueFails faults then (db', .error .internal)
            else
              match issueForRecord sha256Hex db' record origin secret candidateId clock
                issuedAt with
              | .error _ => (db', .error .internal)
              | .ok (db'', token) => (db'', .ok token)

/-! ## All or nothing -/

/-- The token is its client's until it expires. -/
def Works (db : Database) (t : IssuedToken) : Prop :=
  ∀ time, time ≤ t.expiresAt → ∃ client,
    db.findClientByTokenHash (hashSecret sha256Hex t.token) time = some client ∧
      client.id = t.clientId

/-- What a redemption of the code with digest `hash` may make of `db`:
    * with an error, the clients are as before and the code is as redeemable as
      before;
    * when the code becomes used, a working token has been returned. -/
structure AllOrNothing (hash : String) (db db' : Database) (result : Except AppError IssuedToken) :
    Prop where
  refused : ∀ error, result = .error error → db'.clients = db.clients ∧
    ∀ origin now session,
      db'.redeemableCode? hash origin now session = db.redeemableCode? hash origin now session
  redeemed : (∃ r, db.pairingCode? hash = some r ∧ r.consumedAt = none) →
    (∃ r, db'.pairingCode? hash = some r ∧ r.consumedAt ≠ none) →
    ∃ t, result = .ok t ∧ Works sha256Hex db' t

/-- The database takes the token that the record asks for. -/
def TokenFits (db : Database) (record : PairingRecord) (secret candidateId : String) : Prop :=
  if record.reuseClient then
    db.StableTokenFits candidateId dashboardStableKey (hashSecret sha256Hex (newToken secret))
  else db.ClientFree candidateId (hashSecret sha256Hex (newToken secret))

/-- The code can be redeemed, and a step after the first transaction fails. -/
def BurnsCode (db : Database) (code requestOrigin instanceSession : String) (now : Int)
    (secret candidateId : String) (faults : List RedemptionFault) : Prop :=
  ∃ origin r, normalizeOrigin parse requestOrigin = .ok origin ∧ ¬ consumeFails faults ∧
    db.redeemableCode? (hashSecret sha256Hex code) origin now instanceSession = some r ∧
    (issueFails faults ∨
      ¬ TokenFits sha256Hex db ⟨r.origin, r.name, r.reuseClient⟩ secret candidateId)

/-! ## The second transaction -/

theorem issueForRecord_isOk_iff (db : Database) (record : PairingRecord)
    (origin secret candidateId : String) (clock now : Int) :
    (∃ result, issueForRecord sha256Hex db record origin secret candidateId clock now =
      .ok result) ↔ TokenFits sha256Hex db record secret candidateId := by
  unfold issueForRecord TokenFits
  split
  · rw [← db.rotateOrInsertStableBrowserClient_isOk_iff candidateId dashboardStableKey record.name
      origin (hashSecret sha256Hex (newToken secret)) (clock + 30 * 86400) now]
    unfold issueStableBrowserToken
    dsimp only
    cases Database.rotateOrInsertStableBrowserClient _ _ _ _ _ _ _ _ with
    | error error => simp
    | ok result => simp
  · rw [← db.insertClient_isOk_iff candidateId record.name
      (hashSecret sha256Hex (newToken secret)) .browser (some origin) (clock + 30 * 86400) now]
    unfold issueToken
    dsimp only
    cases Database.insertClient _ _ _ _ _ _ _ _ with
    | error error => simp
    | ok db' => simp

/-- A row that holds the token's digest, unrevoked and with its expiry, makes the
    token work. -/
theorem works_of_row {db : Database} {t : IssuedToken} {r : ClientRow}
    (hrow : db.client? t.clientId = some r)
    (hhash : r.tokenHash = hashSecret sha256Hex t.token) (hexpiry : r.expiresAt = t.expiresAt)
    (hlive : r.revokedAt = none) : Works sha256Hex db t := by
  intro time htime
  exact ⟨clientFromRow r, Database.findClientByTokenHash_eq_some.mpr
    ⟨r, Database.mem_of_client? hrow, hhash, hexpiry ▸ htime, hlive, rfl⟩,
    Database.id_of_client? hrow⟩

/-- The token that the second transaction sets works. -/
theorem works_of_issueForRecord {db db' : Database} {record : PairingRecord}
    {origin secret candidateId : String} {clock now : Int} {t : IssuedToken}
    (h : issueForRecord sha256Hex db record origin secret candidateId clock now = .ok (db', t)) :
    Works sha256Hex db' t := by
  unfold issueForRecord at h
  split at h
  · unfold issueStableBrowserToken at h
    dsimp only at h
    split at h
    · cases h
    · next clientId hrotate =>
        cases h
        obtain ⟨r, -, hhash, hexpiry, hlive, hall, -⟩ :=
          Database.rotateOrInsertStableBrowserClient_ok hrotate
        exact works_of_row sha256Hex ((hall _).trans (if_pos rfl)) hhash hexpiry hlive
  · unfold issueToken Database.insertClient at h
    dsimp only at h
    split at h
    · cases h
    · next db'' hinsert =>
        cases h
        split at hinsert
        · cases hinsert
        · next clients hins =>
            cases hinsert
            have hall := (Database.client?_of_insert? hins).2
            exact works_of_row sha256Hex ((hall _).trans (if_pos rfl)) rfl rfl rfl

/-- The first transaction changes nothing that the second depends on. -/
theorem tokenFits_congr {db db' : Database} (h : db'.clients = db.clients)
    (record : PairingRecord) (secret candidateId : String) :
    TokenFits sha256Hex db' record secret candidateId ↔
      TokenFits sha256Hex db record secret candidateId := by
  unfold TokenFits Database.StableTokenFits Database.ClientFree Database.stableBrowserClient
  rw [h]

/-! ## The call -/

/-- With an error and the database as it was, nothing has happened. -/
theorem AllOrNothing.of_unchanged (hash : String) (db : Database) (error : AppError) :
    AllOrNothing sha256Hex hash db db (.error error) where
  refused _ _ := ⟨rfl, fun _ _ _ => rfl⟩
  redeemed := by
    rintro ⟨r, hr, hunused⟩ ⟨r', hr', hused⟩
    obtain rfl : r = r' := Option.some.inj (hr.symm.trans hr')
    exact absurd hunused hused

/-- A used code without a token is the loss of the code. -/
theorem not_allOrNothing_of_used {hash origin session : String} {now : Int} {db db' : Database}
    {r : PairingRow} (hrow : db.redeemableCode? hash origin now session = some r)
    (hafter : ∀ h, db'.pairingCode? h =
      if h = hash then some { r with consumedAt := some now } else db.pairingCode? h)
    (error : AppError) : ¬ AllOrNothing sha256Hex hash db db' (.error error) := by
  intro h
  have hsame := (h.refused error rfl).2 origin now session
  rw [hrow, Database.redeemableCode?, hafter, if_pos rfl] at hsame
  -- the row that is left is not unused
  obtain ⟨heq, hredeemable⟩ := Option.filter_eq_some_iff.mp hsame
  rw [← Option.some.inj heq] at hredeemable
  simp [Database.redeemable] at hredeemable

/-! ## The call and its transactions -/

/-- The call is the two transactions of a free attempt, with nothing between
    them: they leave the same database, and a token is returned exactly when it is
    issued. -/
theorem consumePairingCode_eq_run (s : Credentials) {attempt : Nat}
    (hfree : s.pending attempt = none) (code requestOrigin instanceSession : String) (now : Int)
    (secret candidateId : String) (clock issuedAt : Int) (faults : List RedemptionFault) :
    let step := credentialStep parse sha256Hex
    let transactions : List CredentialInput :=
      [.redeem attempt code requestOrigin instanceSession now (consumeFails faults),
        .issue attempt secret candidateId clock issuedAt (issueFails faults)]
    let call := consumePairingCode parse sha256Hex s.db code requestOrigin instanceSession now
      secret candidateId clock issuedAt faults
    (run step s transactions).db = call.1 ∧
      ∀ t, call.2 = .ok t ↔
        .issued (some code) t.clientId t.token clock t.expiresAt ∈ trace step s transactions := by
  intro step transactions call
  -- an attempt that stays free has nothing to issue
  have hidle : ∀ db, step ⟨db, s.pending⟩ (.issue attempt secret candidateId clock issuedAt
      (issueFails faults)) = (⟨db, s.pending⟩, []) := by
    intro db
    simp only [step, credentialStep, hfree]
  simp only [transactions, run_cons, trace_cons, run_nil, trace_nil, List.append_nil]
  by_cases hconsume : consumeFails faults
  · have hfirst : step s (.redeem attempt code requestOrigin instanceSession now
        (consumeFails faults)) = (s, []) := by
      simp only [step, credentialStep, hfree, hconsume, decide_true, if_true]
    rw [hfirst, hidle s.db]
    simp only [call, consumePairingCode]
    cases normalizeOrigin parse requestOrigin with
    | error message => simp
    | ok origin => simp [hconsume]
  · have hrefused : ∀ db error,
        redeemCode parse sha256Hex s.db code requestOrigin instanceSession now =
          (db, .error error) →
        step s (.redeem attempt code requestOrigin instanceSession now (consumeFails faults)) =
          (⟨db, s.pending⟩, []) := by
      intro db error hredeem
      simp only [step, credentialStep, hfree, hconsume, decide_false, Bool.false_eq_true,
        if_false, hredeem]
    have hredeemed : ∀ db record origin,
        redeemCode parse sha256Hex s.db code requestOrigin instanceSession now =
          (db, .ok (record, origin)) →
        step s (.redeem attempt code requestOrigin instanceSession now (consumeFails faults)) =
          (⟨db, Function.update s.pending attempt (some ⟨code, record, origin⟩)⟩,
            [.redeemed code]) := by
      intro db record origin hredeem
      simp only [step, credentialStep, hfree, hconsume, decide_false, Bool.false_eq_true,
        if_false, hredeem]
    have hsecond : ∀ db record origin, step
        ⟨db, Function.update s.pending attempt (some ⟨code, record, origin⟩)⟩
        (.issue attempt secret candidateId clock issuedAt (issueFails faults)) =
        if issueFails faults then (⟨db, Function.update
          (Function.update s.pending attempt (some ⟨code, record, origin⟩)) attempt none⟩, [])
        else afterToken ⟨db, Function.update
          (Function.update s.pending attempt (some ⟨code, record, origin⟩)) attempt none⟩
          (some code) clock (issueForRecord sha256Hex db record origin secret candidateId clock
            issuedAt) := by
      intro db record origin
      simp only [step, credentialStep, Function.update_self, decide_eq_true_eq]
    simp only [call, consumePairingCode]
    cases horigin : normalizeOrigin parse requestOrigin with
    | error message =>
        rw [hrefused s.db .forbidden (by simp only [redeemCode, horigin])]
        dsimp only
        rw [hidle s.db]
        simp
    | ok origin =>
        dsimp only
        rw [if_neg hconsume]
        rcases hcode : s.db.consumePairingCode (hashSecret sha256Hex code) origin now
          instanceSession with ⟨db', _ | record⟩
        · rw [hrefused db' .unauthorized (by simp only [redeemCode, horigin, hcode])]
          dsimp only
          rw [hidle db']
          simp
        · rw [hredeemed db' record origin (by simp only [redeemCode, horigin, hcode])]
          dsimp only
          rw [hsecond]
          by_cases hissue : issueFails faults
          · simp [hissue]
          · rw [if_neg hissue, if_neg hissue]
            cases issueForRecord sha256Hex db' record origin secret candidateId clock issuedAt with
            | error error => simp [afterToken]
            | ok issued =>
                obtain ⟨db'', id, token, expiresAt⟩ := issued
                refine ⟨rfl, fun t => ?_⟩
                obtain ⟨id', token', expiresAt'⟩ := t
                simp [afterToken, eq_comm]

end

/-- **When redeeming a pairing code is all or nothing.**  For every database, code,
    origin, session and failure, it is, unless the code can be redeemed and the
    draw or the second transaction fails after the first was committed. -/
theorem consumePairingCode_allOrNothing_iff (parse : String → Option Url)
    (sha256Hex : List UInt8 → String) (db : Database)
    (code requestOrigin instanceSession : String) (now : Int) (secret candidateId : String)
    (clock issuedAt : Int) (faults : List RedemptionFault) :
    AllOrNothing sha256Hex (hashSecret sha256Hex code) db
      (consumePairingCode parse sha256Hex db code requestOrigin instanceSession now secret
        candidateId clock issuedAt faults).1
      (consumePairingCode parse sha256Hex db code requestOrigin instanceSession now secret
        candidateId clock issuedAt faults).2 ↔
    ¬ BurnsCode parse sha256Hex db code requestOrigin instanceSession now secret candidateId
      faults := by
  have hunchanged := AllOrNothing.of_unchanged sha256Hex (hashSecret sha256Hex code) db
  unfold consumePairingCode BurnsCode
  -- the cases are the steps of the call, in their order
  cases hnormal : normalizeOrigin parse requestOrigin with
  | error message => exact iff_of_true (hunchanged _) (by rintro ⟨_, _, heq, -⟩; cases heq)
  | ok origin =>
      dsimp only
      by_cases hconsume : consumeFails faults
      · rw [if_pos hconsume]
        exact iff_of_true (hunchanged _) (by rintro ⟨_, _, -, hno, -⟩; exact hno hconsume)
      · rw [if_neg hconsume]
        cases hrow : db.redeemableCode? (hashSecret sha256Hex code) origin now
            instanceSession with
        | none =>
            rw [Database.consumePairingCode_of_none hrow]
            refine iff_of_true (hunchanged _) ?_
            rintro ⟨_, _, heq, -, hsome, -⟩
            cases heq
            rw [hrow] at hsome
            cases hsome
        | some r =>
            have hclients := Database.consumePairingCode_clients db (hashSecret sha256Hex code)
              origin now instanceSession
            obtain ⟨db', hcall, hafter⟩ := Database.consumePairingCode_of_some hrow
            rw [hcall] at hclients ⊢
            have hlost := not_allOrNothing_of_used sha256Hex hrow hafter .internal
            have hfits := tokenFits_congr sha256Hex hclients ⟨r.origin, r.name, r.reuseClient⟩
              secret candidateId
            dsimp only
            by_cases hissue : issueFails faults
            · rw [if_pos hissue]
              exact iff_of_false hlost fun h => h ⟨origin, r, rfl, hconsume, hrow, Or.inl hissue⟩
            · rw [if_neg hissue]
              have hok := issueForRecord_isOk_iff sha256Hex db'
                ⟨r.origin, r.name, r.reuseClient⟩ origin secret candidateId clock issuedAt
              cases hset : issueForRecord sha256Hex db' ⟨r.origin, r.name, r.reuseClient⟩ origin
                  secret candidateId clock issuedAt with
              | error error =>
                  refine iff_of_false hlost fun h => h ⟨origin, r, rfl, hconsume, hrow,
                    Or.inr fun hfit => ?_⟩
                  obtain ⟨result, hresult⟩ := hok.mpr (hfits.mpr hfit)
                  rw [hset] at hresult
                  cases hresult
              | ok issued =>
                  obtain ⟨db'', t⟩ := issued
                  refine iff_of_true ⟨nofun, fun _ _ => ⟨t, rfl, ?_⟩⟩ ?_
                  · exact works_of_issueForRecord sha256Hex hset
                  · rintro ⟨_, r', heq, -, hrow', hissue' | hunfit⟩
                    · exact hissue hissue'
                    · cases heq
                      obtain rfl : r = r' := Option.some.inj (hrow.symm.trans hrow')
                      exact hunfit (hfits.mp (hok.mp ⟨_, hset⟩))

/-- A database with the grant of the example code, and no client. -/
def exampleGranted : Database :=
  { Database.fresh with
    pairingCodes := ⟨[⟨hashSecret exampleCodeDigest exampleCode, "https://example.com", "Demo", 300,
      none, none, false⟩], by simp⟩ }

/-- The random generator fails after the code was used up: the code is gone, and
    nobody has a token. -/
theorem consumePairingCode_burns_code :
    let burned := consumePairingCode exampleParse exampleCodeDigest exampleGranted exampleCode
      "https://example.com" exampleSession 10 exampleSecretOne "c1" 10 10 [.random]
    let digest := hashSecret exampleCodeDigest exampleCode
    (exampleGranted.redeemableCode? digest "https://example.com" 10 exampleSession).isSome ∧
      burned.2 = .error .internal ∧
      burned.1.redeemableCode? digest "https://example.com" 10 exampleSession = none ∧
      ¬ AllOrNothing exampleCodeDigest digest exampleGranted burned.1 burned.2 := by
  intro burned digest
  have hbefore : (exampleGranted.redeemableCode? digest "https://example.com" 10
      exampleSession).isSome := by decide
  have herror : burned.2 = .error .internal := rfl
  have hafter : burned.1.redeemableCode? digest "https://example.com" 10 exampleSession = none := by
    decide
  refine ⟨hbefore, herror, hafter, fun h => ?_⟩
  have hsame := (h.refused _ herror).2 "https://example.com" 10 exampleSession
  rw [← hsame, hafter] at hbefore
  cases hbefore

end PrintLatch
