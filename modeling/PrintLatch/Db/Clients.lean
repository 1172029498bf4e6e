/-
  PrintLatch.Db.Clients

  The statements of `src/db.rs` over the tables `clients` and `pairing_codes`.

  As for the jobs, an `UPDATE clients SET f WHERE p` is `Database.updateClients?
  p f`; it can fail here, because the token digest is a unique column.  Every
  statement that names a client has one lemma that says what it does to
  `client?`.
-/

import PrintLatch.Db.Schema

namespace PrintLatch

open Relational

namespace Database

theorem mem_of_client? {db : Database} {id : String} {r : ClientRow}
    (h : db.client? id = some r) : r ∈ db.clients.rows := Table.mem_of_lookup _ h

theorem id_of_client? {db : Database} {id : String} {r : ClientRow}
    (h : db.client? id = some r) : r.id = id :=
  Table.key_of_lookup (fun r : ClientRow => r.id) h

theorem client?_of_mem {db : Database} {r : ClientRow} (h : r ∈ db.clients.rows) :
    db.client? r.id = some r :=
  Table.lookup_of_mem (fun r : ClientRow => r.id) (fun _ _ h => Or.inl h) h

/-! ## Pairing codes -/

/-- `insert_pairing_code`: the purge of expired and used codes and the insertion,
    in one transaction. -/
def insertPairingCode (db : Database) (codeHash origin name : String) (expiresAt : Int)
    (instanceSession : Option String) (reuseClient : Bool) (now : Int) :
    Except DbError Database :=
  match (db.pairingCodes.delete fun r => r.expiresAt < now ∨ r.consumedAt.isSome).insert?
      { codeHash := codeHash
        origin := origin
        name := name
        expiresAt := expiresAt
        consumedAt := none
        instanceSession := instanceSession
        reuseClient := reuseClient } with
  | none => .error .unique
  | some codes => .ok { db with pairingCodes := codes }

/-- The condition of the select of `consume_pairing_code`. -/
def redeemable (codeHash origin : String) (now : Int) (instanceSession : String)
    (r : PairingRow) : Bool :=
  r.codeHash = codeHash ∧ r.origin = origin ∧ now ≤ r.expiresAt ∧ r.consumedAt = none ∧
    (r.instanceSession = none ∨ r.instanceSession = some instanceSession)

/-- `SET consumed_at = ?3 WHERE code_hash = ?1 AND origin = ?2 AND consumed_at IS NULL`. -/
def consumeRow (codeHash origin : String) (now : Int) (r : PairingRow) : PairingRow :=
  if r.codeHash = codeHash ∧ r.origin = origin ∧ r.consumedAt = none then
    { r with consumedAt := some now }
  else r

theorem consumeRow_codeHash (codeHash origin : String) (now : Int) (r : PairingRow) :
    (consumeRow codeHash origin now r).codeHash = r.codeHash := by
  unfold consumeRow
  split <;> rfl

/-- `consume_pairing_code`: a select, and the update when it found a row, in one
    transaction. -/
def consumePairingCode (db : Database) (codeHash origin : String) (now : Int)
    (instanceSession : String) : Database × Option PairingRecord :=
  match db.pairingCodes.rows.find? (redeemable codeHash origin now instanceSession) with
  | none => (db, none)
  | some r =>
      ({ db with
          pairingCodes := db.pairingCodes.modify (consumeRow codeHash origin now) (by
            intro a b h
            simpa only [pairingClash, consumeRow_codeHash] using h) },
        some ⟨r.origin, r.name, r.reuseClient⟩)

/-- An inserted code changes no client and no job. -/
theorem insertPairingCode_clients {db db' : Database} {codeHash origin name : String}
    {expiresAt : Int} {instanceSession : Option String} {reuseClient : Bool} {now : Int}
    (h : db.insertPairingCode codeHash origin name expiresAt instanceSession reuseClient now =
      .ok db') : db'.clients = db.clients ∧ db'.jobs = db.jobs := by
  unfold insertPairingCode at h
  split at h
  · cases h
  · cases h
    exact ⟨rfl, rfl⟩

@[simp] theorem consumePairingCode_clients (db : Database) (codeHash origin : String) (now : Int)
    (instanceSession : String) :
    (db.consumePairingCode codeHash origin now instanceSession).1.clients = db.clients := by
  unfold consumePairingCode
  split <;> rfl

@[simp] theorem consumePairingCode_jobs (db : Database) (codeHash origin : String) (now : Int)
    (instanceSession : String) :
    (db.consumePairingCode codeHash origin now instanceSession).1.jobs = db.jobs := by
  unfold consumePairingCode
  split <;> rfl

/-! ## What each statement does to a code -/

/-- An inserted code is there, and every other code is, unless it was purged. -/
theorem insertPairingCode_ok {db db' : Database} {codeHash origin name : String}
    {expiresAt : Int} {instanceSession : Option String} {reuseClient : Bool} {now : Int}
    (h : db.insertPairingCode codeHash origin name expiresAt instanceSession reuseClient now =
      .ok db') :
    ∀ hash, db'.pairingCode? hash =
      if hash = codeHash then
        some ⟨codeHash, origin, name, expiresAt, none, instanceSession, reuseClient⟩
      else (db.pairingCode? hash).filter fun r => !(r.expiresAt < now ∨ r.consumedAt.isSome) := by
  unfold insertPairingCode at h
  split at h
  · cases h
  · next codes hins =>
      cases h
      intro hash
      have hkey : ∀ a b : PairingRow, a.codeHash = b.codeHash → pairingClash a b := fun _ _ h => h
      obtain ⟨-, hlook⟩ := Table.lookup_insert? (fun r : PairingRow => r.codeHash) hkey hins
      have hkept := Table.lookup_delete (fun r : PairingRow => r.codeHash) hkey
        (t := db.pairingCodes) (p := fun r => r.expiresAt < now ∨ r.consumedAt.isSome) hash
      show Table.lookup (fun r : PairingRow => r.codeHash) codes hash = _
      rw [hlook, hkept]
      rfl

/-- The row of a code, when the code can be redeemed. -/
def redeemableCode? (db : Database) (codeHash origin : String) (now : Int)
    (instanceSession : String) : Option PairingRow :=
  (db.pairingCode? codeHash).filter (redeemable codeHash origin now instanceSession)

/-- The digest is the primary key, so the select finds the code's row or none. -/
theorem find?_redeemable (db : Database) (codeHash origin : String) (now : Int)
    (instanceSession : String) :
    db.pairingCodes.rows.find? (redeemable codeHash origin now instanceSession) =
      db.redeemableCode? codeHash origin now instanceSession :=
  Table.find?_of_key (fun r : PairingRow => r.codeHash) (fun _ _ h => h) db.pairingCodes
    fun r hr => by
      simp only [redeemable, decide_eq_true_eq] at hr
      exact hr.1

theorem consumePairingCode_of_none {db : Database} {codeHash origin : String} {now : Int}
    {instanceSession : String}
    (h : db.redeemableCode? codeHash origin now instanceSession = none) :
    db.consumePairingCode codeHash origin now instanceSession = (db, none) := by
  unfold consumePairingCode
  rw [find?_redeemable, h]

/-- A code that can be redeemed is used up, and no other. -/
theorem consumePairingCode_of_some {db : Database} {codeHash origin : String} {now : Int}
    {instanceSession : String} {r : PairingRow}
    (h : db.redeemableCode? codeHash origin now instanceSession = some r) :
    ∃ db', db.consumePairingCode codeHash origin now instanceSession =
        (db', some ⟨r.origin, r.name, r.reuseClient⟩) ∧
      ∀ hash, db'.pairingCode? hash =
        if hash = codeHash then some { r with consumedAt := some now }
        else db.pairingCode? hash := by
  obtain ⟨hrow, hr⟩ := Option.filter_eq_some_iff.mp h
  simp only [redeemable, decide_eq_true_eq] at hr
  unfold consumePairingCode
  rw [find?_redeemable, h]
  refine ⟨_, rfl, fun hash => ?_⟩
  -- `consumed_at` is no unique column
  have hclash : ∀ a b, pairingClash (consumeRow codeHash origin now a)
      (consumeRow codeHash origin now b) → pairingClash a b := fun a b hab => by
    simpa only [pairingClash, consumeRow_codeHash] using hab
  refine (Table.lookup_modify (fun r : PairingRow => r.codeHash) hclash
    (consumeRow_codeHash codeHash origin now) hash).trans ?_
  show (db.pairingCode? hash).map _ = _
  by_cases hhash : hash = codeHash
  · rw [if_pos hhash, hhash, hrow]
    simp [consumeRow, hr]
  · rw [if_neg hhash]
    cases hother : db.pairingCode? hash with
    | none => rfl
    | some r' =>
        have hkey : r'.codeHash = hash :=
          Table.key_of_lookup (fun r : PairingRow => r.codeHash) hother
        simp [consumeRow, hkey, hhash]

/-! ## Clients -/

/-- `UPDATE clients SET f WHERE p`; `none` when a unique column would clash. -/
def updateClients? (db : Database) (p : ClientRow → Bool) (f : ClientRow → ClientRow) :
    Option Database :=
  (db.clients.update? fun r => if p r then f r else r).map fun clients =>
    { db with clients := clients }

/-- `insert_client`. -/
def insertClient (db : Database) (id name : String) (kind : ClientKind) (origin : Option String)
    (tokenHash : String) (expiresAt now : Int) : Except DbError Database :=
  match db.clients.insert?
      { id := id
        name := name
        kind := kind
        origin := origin
        stableKey := none
        tokenHash := tokenHash
        expiresAt := expiresAt
        createdAt := now
        revokedAt := none } with
  | none => .error .unique
  | some clients => .ok { db with clients := clients }

/-- `SELECT id FROM clients WHERE kind = 'browser' AND stable_key = ?1 AND
    revoked_at IS NULL ORDER BY created_at DESC LIMIT 1`. -/
def stableBrowserClient (db : Database) (stableKey : String) : Option String :=
  (((db.clients.rows.filter fun r =>
    r.kind = .browser ∧ r.stableKey = some stableKey ∧ r.revokedAt = none).mergeSort
      fun a b => b.createdAt ≤ a.createdAt).head?).map fun r => r.id

/-- `rotate_or_insert_stable_browser_client`, one immediate transaction: the id
    is the client's whose token was set. -/
def rotateOrInsertStableBrowserClient (db : Database)
    (newId stableKey name origin tokenHash : String) (expiresAt now : Int) :
    Except DbError (Database × String) :=
  -- the rotation keeps the id, the insertion takes the new one
  match db.stableBrowserClient stableKey with
  | some existingId =>
      let p : ClientRow → Bool := fun r =>
        r.id = existingId ∧ r.stableKey = some stableKey ∧ r.revokedAt = none
      match db.updateClients? p fun r =>
          { r with name := name, origin := some origin, tokenHash := tokenHash,
                   expiresAt := expiresAt } with
      | none => .error .unique
      | some db' =>
          if db.clients.rows.countP p = 1 then .ok (db', existingId)
          else .error (.message "stable browser client changed during token rotation")
  | none =>
      match db.clients.insert?
          { id := newId
            name := name
            kind := .browser
            origin := some origin
            stableKey := some stableKey
            tokenHash := tokenHash
            expiresAt := expiresAt
            createdAt := now
            revokedAt := none } with
      | none => .error .unique
      | some clients => .ok ({ db with clients := clients }, newId)

/-- `get_client`. -/
def getClient (db : Database) (id : String) : Option AuthenticatedClient :=
  (db.clients.rows.find? fun r => r.id = id ∧ r.revokedAt = none).map clientFromRow

/-- `find_client_by_token_hash`. -/
def findClientByTokenHash (db : Database) (tokenHash : String) (now : Int) :
    Option AuthenticatedClient :=
  (db.clients.rows.find? fun r =>
    r.tokenHash = tokenHash ∧ now ≤ r.expiresAt ∧ r.revokedAt = none).map clientFromRow

/-- `rotate_client_token`. -/
def rotateClientToken (db : Database) (id tokenHash : String) (expiresAt : Int) :
    Except DbError Database :=
  let p : ClientRow → Bool := fun r => r.id = id ∧ r.revokedAt = none
  match db.updateClients? p fun r => { r with tokenHash := tokenHash, expiresAt := expiresAt } with
  | none => .error .unique
  | some db' =>
      if db.clients.rows.countP p = 1 then .ok db'
      else .error (.message "client does not exist")

/-- `revoke_client`. -/
def revokeClient (db : Database) (id : String) (now : Int) : Except DbError Database :=
  let p : ClientRow → Bool := fun r => r.id = id ∧ r.revokedAt = none
  match db.updateClients? p fun r => { r with revokedAt := some now } with
  | none => .error .unique
  | some db' =>
      if db.clients.rows.countP p = 1 then .ok db'
      else .error (.message "client does not exist or is already revoked")

/-! ## What each statement does to a client -/

theorem client?_updateClients? {db db' : Database} {p : ClientRow → Bool}
    {f : ClientRow → ClientRow} (h : db.updateClients? p f = some db') (hf : ∀ r, (f r).id = r.id)
    (id : String) :
    db'.client? id = (db.client? id).map fun r => if p r then f r else r := by
  obtain ⟨clients, hclients, rfl⟩ := Option.map_eq_some_iff.mp h
  refine Table.lookup_of_update? (fun r : ClientRow => r.id) (fun r => ?_) hclients id
  split
  · exact hf r
  · rfl

/-- What a counted update with `WHERE id = ?1 AND ...` does: it changes exactly
    the row of that id. -/
theorem updateClients?_one {db db' : Database} {p : ClientRow → Bool}
    {f : ClientRow → ClientRow} (h : db.updateClients? p f = some db') (hf : ∀ r, (f r).id = r.id)
    (id : String) (hp : ∀ r, p r = true → r.id = id) (hcount : db.clients.rows.countP p = 1) :
    ∃ r, db.client? id = some r ∧ p r = true ∧
      ∀ id', db'.client? id' = if id' = id then some (f r) else db.client? id' := by
  have hone : db.clients.rows.countP p = if (db.client? id).any p then 1 else 0 :=
    Table.countP_eq_of_key (fun r : ClientRow => r.id) (fun _ _ h => Or.inl h) db.clients hp
  cases hr : db.client? id with
  | none =>
      rw [hcount, hr] at hone
      simp at hone
  | some r =>
      have hpr : p r = true := by
        by_contra hpr
        rw [hcount, hr] at hone
        simp [hpr] at hone
      refine ⟨r, rfl, hpr, fun id' => ?_⟩
      rw [client?_updateClients? h hf]
      -- the condition names the id, so no other row is touched
      by_cases hid : id' = id
      · simp [hid, hr, hpr]
      · rw [if_neg hid]
        cases hr' : db.client? id' with
        | none => rfl
        | some r' =>
            have hne : ¬ p r' = true := fun hpr' =>
              hid ((id_of_client? hr').symm.trans (hp r' hpr'))
            simp [hne]

/-- A counted update that succeeds has changed one row. -/
theorem update_of_counted {β : Type} {db : Database} {p : ClientRow → Bool}
    {f : ClientRow → ClientRow} {result : Database → β} {error : DbError} {b : β}
    (h : (match db.updateClients? p f with
      | none => .error .unique
      | some db' =>
          if db.clients.rows.countP p = 1 then .ok (result db') else .error error) =
        Except.ok (ε := DbError) b) :
    ∃ db', db.updateClients? p f = some db' ∧ db.clients.rows.countP p = 1 ∧ result db' = b := by
  cases hupdate : db.updateClients? p f with
  | none =>
      rw [hupdate] at h
      cases h
  | some db' =>
      rw [hupdate] at h
      dsimp only at h
      split at h
      · next hcount => exact ⟨db', rfl, hcount, Except.ok.inj h⟩
      · cases h

/-- A client row that could be inserted is there, and its id was not in use. -/
theorem client?_of_insert? {db : Database} {clients : ClientsTable} {r : ClientRow}
    (h : db.clients.insert? r = some clients) :
    db.client? r.id = none ∧
      ∀ id, ({ db with clients := clients } : Database).client? id =
        if id = r.id then some r else db.client? id :=
  Table.lookup_insert? (fun r : ClientRow => r.id) (fun _ _ h => Or.inl h) h

theorem rotateClientToken_ok {db db' : Database} {id tokenHash : String} {expiresAt : Int}
    (h : db.rotateClientToken id tokenHash expiresAt = .ok db') :
    ∃ r, db.client? id = some r ∧ r.revokedAt = none ∧
      ∀ id', db'.client? id' =
        if id' = id then some { r with tokenHash := tokenHash, expiresAt := expiresAt }
        else db.client? id' := by
  obtain ⟨db'', hupdate, hcount, rfl⟩ := update_of_counted h
  obtain ⟨r, hr, hp, hall⟩ := updateClients?_one hupdate (fun _ => rfl) id
    (by simp +contextual) hcount
  exact ⟨r, hr, by simpa [id_of_client? hr] using hp, hall⟩

theorem revokeClient_ok {db db' : Database} {id : String} {now : Int}
    (h : db.revokeClient id now = .ok db') :
    ∃ r, db.client? id = some r ∧ r.revokedAt = none ∧
      ∀ id', db'.client? id' =
        if id' = id then some { r with revokedAt := some now } else db.client? id' := by
  obtain ⟨db'', hupdate, hcount, rfl⟩ := update_of_counted h
  obtain ⟨r, hr, hp, hall⟩ := updateClients?_one hupdate (fun _ => rfl) id
    (by simp +contextual) hcount
  exact ⟨r, hr, by simpa [id_of_client? hr] using hp, hall⟩

/-- The select finds an active browser client with the stable key. -/
theorem stableBrowserClient_eq_some {db : Database} {stableKey id : String}
    (h : db.stableBrowserClient stableKey = some id) :
    ∃ r, db.client? id = some r ∧ r.kind = .browser ∧ r.stableKey = some stableKey ∧
      r.revokedAt = none := by
  obtain ⟨r, hr, rfl⟩ := Option.map_eq_some_iff.mp h
  have hmem := List.mem_mergeSort.mp (List.mem_of_mem_head? hr)
  simp only [List.mem_filter, decide_eq_true_eq] at hmem
  exact ⟨r, client?_of_mem hmem.1, hmem.2⟩

/-- What a rotation or insertion of the stable client does: the one active client
    of the key gets the token and keeps its id, or there is none and a new client
    gets it. -/
theorem rotateOrInsertStableBrowserClient_cases {db db' : Database}
    {newId stableKey name origin tokenHash id : String} {expiresAt now : Int}
    (h : db.rotateOrInsertStableBrowserClient newId stableKey name origin tokenHash expiresAt now =
      .ok (db', id)) :
    (∃ r, db.client? id = some r ∧ r.kind = .browser ∧ r.stableKey = some stableKey ∧
      r.revokedAt = none ∧ ∀ id', db'.client? id' = if id' = id then
        some { r with name := name, origin := some origin, tokenHash := tokenHash,
                      expiresAt := expiresAt }
      else db.client? id') ∨
    (id = newId ∧ db.client? id = none ∧
      (∀ r ∈ db.clients.rows, r.stableKey = some stableKey → r.revokedAt ≠ none) ∧
      ∀ id', db'.client? id' = if id' = id then
        some ⟨id, name, .browser, some origin, some stableKey, tokenHash, expiresAt, now, none⟩
      else db.client? id') := by
  unfold rotateOrInsertStableBrowserClient at h
  split at h
  · next existingId hstable =>
      obtain ⟨db'', hupdate, hcount, heq⟩ := update_of_counted h
      obtain ⟨rfl, rfl⟩ : db'' = db' ∧ existingId = id := by simpa using heq
      obtain ⟨r, hr, hp, hall⟩ := updateClients?_one hupdate (fun _ => rfl) existingId
        (by simp +contextual) hcount
      have hp' : r.stableKey = some stableKey ∧ r.revokedAt = none := by
        simpa [id_of_client? hr] using hp
      -- the update names no kind, the select does
      obtain ⟨r', hr', hkind, -⟩ := stableBrowserClient_eq_some hstable
      obtain rfl : r = r' := Option.some.inj (hr.symm.trans hr')
      exact Or.inl ⟨r, hr, hkind, hp'.1, hp'.2, hall⟩
  · split at h
    · cases h
    · next clients hins =>
        cases h
        obtain ⟨hfree, hall⟩ := client?_of_insert? hins
        refine Or.inr ⟨rfl, hfree, fun r hr hkey hlive => ?_, hall⟩
        -- the index would refuse a second active row
        have hno := Table.insert?_isSome.mp (Option.isSome_of_eq_some hins) r hr
        exact hno (Or.inr (Or.inr ⟨by simp [hkey], hkey, hlive, rfl⟩))

/-- The client whose token a rotation or insertion set. -/
theorem rotateOrInsertStableBrowserClient_ok {db db' : Database}
    {newId stableKey name origin tokenHash id : String} {expiresAt now : Int}
    (h : db.rotateOrInsertStableBrowserClient newId stableKey name origin tokenHash expiresAt now =
      .ok (db', id)) :
    ∃ r', r'.id = id ∧ r'.tokenHash = tokenHash ∧ r'.expiresAt = expiresAt ∧
      r'.revokedAt = none ∧
      (∀ id', db'.client? id' = if id' = id then some r' else db.client? id') ∧
      ((id = newId ∧ db.client? id = none) ∨ ∃ r, db.client? id = some r ∧ r.revokedAt = none) := by
  rcases rotateOrInsertStableBrowserClient_cases h with
    ⟨r, hr, -, -, hlive, hall⟩ | ⟨hid, hfree, -, hall⟩
  · have hid : r.id = id := id_of_client? hr
    exact ⟨{ r with name := name, origin := some origin, tokenHash := tokenHash,
                    expiresAt := expiresAt }, hid, rfl, rfl, hlive, hall, Or.inr ⟨r, hr, hlive⟩⟩
  · exact ⟨_, rfl, rfl, rfl, rfl, hall, Or.inl ⟨hid, hfree⟩⟩

/-! ## When a token can be set -/

/-- No client has the id or the token digest. -/
def ClientFree (db : Database) (id tokenHash : String) : Prop :=
  ∀ r ∈ db.clients.rows, r.id ≠ id ∧ r.tokenHash ≠ tokenHash

/-- The stable client can take the digest: no other client has it, or nothing is in
    the way of a new stable client. -/
def StableTokenFits (db : Database) (newId stableKey tokenHash : String) : Prop :=
  match db.stableBrowserClient stableKey with
  | some id => ∀ r ∈ db.clients.rows, r.id ≠ id → r.tokenHash ≠ tokenHash
  | none => db.ClientFree newId tokenHash ∧
      ∀ r ∈ db.clients.rows, r.stableKey = some stableKey → r.revokedAt ≠ none

theorem clientsClash_symm {a b : ClientRow} (h : clientsClash a b) : clientsClash b a := by
  rcases h with h | h | ⟨hsome, hkey, ha, hb⟩
  · exact Or.inl h.symm
  · exact Or.inr (Or.inl h.symm)
  · exact Or.inr (Or.inr ⟨hkey ▸ hsome, hkey.symm, hb, ha⟩)

/-- Two clients of one database that share an active stable key are the same. -/
theorem eq_of_sameActiveStableKey {db : Database} {a b : ClientRow} (ha : a ∈ db.clients.rows)
    (hb : b ∈ db.clients.rows) (h : sameActiveStableKey a b) : a = b := by
  by_contra hne
  have : Std.Symm fun a b => ¬ clientsClash a b := ⟨fun _ _ hab hba => hab (clientsClash_symm hba)⟩
  exact db.clients.distinct.forall ha hb hne (Or.inr (Or.inr h))

theorem insertClient_isOk_iff (db : Database) (id name tokenHash : String) (kind : ClientKind)
    (origin : Option String) (expiresAt now : Int) :
    (∃ db', db.insertClient id name kind origin tokenHash expiresAt now = .ok db') ↔
      db.ClientFree id tokenHash := by
  have hsome := Table.insert?_isSome (t := db.clients)
    (a := ⟨id, name, kind, origin, none, tokenHash, expiresAt, now, none⟩)
  unfold insertClient
  constructor
  · rintro ⟨db', h⟩
    split at h
    · cases h
    · next hins =>
        rw [hins] at hsome
        intro r hr
        have hno := hsome.mp rfl r hr
        exact ⟨fun hid => hno (Or.inl hid), fun hhash => hno (Or.inr (Or.inl hhash))⟩
  · intro hfree
    -- a client without a stable key can only clash by its id or its digest
    have hins := hsome.mpr fun r hr hclash => by
      rcases hclash with hid | hhash | ⟨hkey, heq, -⟩
      · exact (hfree r hr).1 hid
      · exact (hfree r hr).2 hhash
      · rw [heq] at hkey
        cases hkey
    obtain ⟨clients, hins⟩ := Option.isSome_iff_exists.mp hins
    rw [hins]
    exact ⟨_, rfl⟩

theorem rotateOrInsertStableBrowserClient_isOk_iff (db : Database)
    (newId stableKey name origin tokenHash : String) (expiresAt now : Int) :
    (∃ result, db.rotateOrInsertStableBrowserClient newId stableKey name origin tokenHash
      expiresAt now = .ok result) ↔ db.StableTokenFits newId stableKey tokenHash := by
  unfold rotateOrInsertStableBrowserClient StableTokenFits
  cases hstable : db.stableBrowserClient stableKey with
  | some existingId =>
      obtain ⟨r, hr, -, hkey, hlive⟩ := stableBrowserClient_eq_some hstable
      have hid : r.id = existingId := id_of_client? hr
      have hmem := mem_of_client? hr
      dsimp only
      -- one row is updated, and the digest is the only unique column that changes
      have hcount : db.clients.rows.countP (fun r => r.id = existingId ∧
          r.stableKey = some stableKey ∧ r.revokedAt = none) = 1 := by
        rw [Table.countP_eq_of_key (fun r : ClientRow => r.id) (fun _ _ h => Or.inl h) db.clients
          (k := existingId) (by simp +contextual)]
        show (if (db.client? existingId).any _ then 1 else 0) = 1
        rw [hr]
        simp [hid, hkey, hlive]
      have hupdate : (db.clients.update? fun r =>
          if r.id = existingId ∧ r.stableKey = some stableKey ∧ r.revokedAt = none then
            { r with name := name, origin := some origin, tokenHash := tokenHash,
                     expiresAt := expiresAt }
          else r).isSome ↔
          ∀ a ∈ db.clients.rows, a.id ≠ existingId → a.tokenHash ≠ tokenHash := by
        refine (Table.update?_isSome_of_key (fun _ _ h => Or.inl h)
          (fun _ _ h => clientsClash_symm h) hmem hid
          fun a ha => if_neg fun h => ha h.1).trans ?_
        rw [if_pos ⟨hid, hkey, hlive⟩]
        refine forall₃_congr fun a ha hne => not_congr ?_
        constructor
        · rintro (heq | hhash | hsame)
          · exact absurd (heq.symm.trans hid) hne
          · exact hhash.symm
          · have hsame : sameActiveStableKey r a := hsame
            obtain rfl := eq_of_sameActiveStableKey hmem ha hsame
            exact absurd hid hne
        · intro hhash
          exact Or.inr (Or.inl hhash.symm)
      rw [← hupdate]
      unfold updateClients?
      simp only [hcount, decide_eq_true_eq]
      cases db.clients.update? _ with
      | none => simp
      | some clients => simp
  | none =>
      have hsome := Table.insert?_isSome (t := db.clients)
        (a := ⟨newId, name, .browser, some origin, some stableKey, tokenHash, expiresAt, now,
          none⟩)
      dsimp only
      have hclash : (∀ r ∈ db.clients.rows, ¬ clientsClash r
          ⟨newId, name, .browser, some origin, some stableKey, tokenHash, expiresAt, now, none⟩) ↔
          db.ClientFree newId tokenHash ∧
            ∀ r ∈ db.clients.rows, r.stableKey = some stableKey → r.revokedAt ≠ none := by
        constructor
        · intro h
          refine ⟨fun r hr => ⟨fun hid => h r hr (Or.inl hid),
            fun hhash => h r hr (Or.inr (Or.inl hhash))⟩, fun r hr hkey hlive => ?_⟩
          exact h r hr (Or.inr (Or.inr ⟨by simp [hkey], hkey, hlive, rfl⟩))
        · rintro ⟨hfree, hkeys⟩ r hr (hid | hhash | ⟨-, hkey, hlive, -⟩)
          · exact (hfree r hr).1 hid
          · exact (hfree r hr).2 hhash
          · exact hkeys r hr hkey hlive
      rw [← hclash, ← hsome]
      cases db.clients.insert? _ with
      | none => simp
      | some clients => simp

/-- A token is found exactly for the row that holds its digest. -/
theorem findClientByTokenHash_eq_some {db : Database} {tokenHash : String} {now : Int}
    {c : AuthenticatedClient} :
    db.findClientByTokenHash tokenHash now = some c ↔
      ∃ r ∈ db.clients.rows, r.tokenHash = tokenHash ∧ now ≤ r.expiresAt ∧
        r.revokedAt = none ∧ clientFromRow r = c := by
  unfold findClientByTokenHash
  rw [Option.map_eq_some_iff]
  constructor
  · rintro ⟨r, hfind, rfl⟩
    have hp := List.find?_some hfind
    simp only [decide_eq_true_eq] at hp
    exact ⟨r, List.mem_of_find?_eq_some hfind, hp.1, hp.2.1, hp.2.2, rfl⟩
  · rintro ⟨r, hmem, hhash, hnow, hlive, rfl⟩
    cases hfind : db.clients.rows.find? fun r =>
        r.tokenHash = tokenHash ∧ now ≤ r.expiresAt ∧ r.revokedAt = none with
    | none =>
        have hno := List.find?_eq_none.mp hfind r hmem
        simp [hhash, hnow, hlive] at hno
    | some r' =>
        have hp := List.find?_some hfind
        simp only [decide_eq_true_eq] at hp
        -- the digest is a unique column
        obtain rfl : r' = r := Table.eq_of_key_eq (fun r : ClientRow => r.tokenHash)
          (fun _ _ h => Or.inr (Or.inl h)) (List.mem_of_find?_eq_some hfind) hmem
          (hp.1.trans hhash.symm)
        exact ⟨r', rfl, rfl⟩

/-! ## Statements on clients change nothing else -/

/-- The clients may differ, the codes and the jobs do not. -/
structure OnlyClients (db db' : Database) : Prop where
  pairingCodes : db'.pairingCodes = db.pairingCodes
  jobs : db'.jobs = db.jobs

theorem updateClients?_onlyClients {db db' : Database} {p : ClientRow → Bool}
    {f : ClientRow → ClientRow} (h : db.updateClients? p f = some db') : db.OnlyClients db' := by
  obtain ⟨clients, -, rfl⟩ := Option.map_eq_some_iff.mp h
  exact ⟨rfl, rfl⟩

theorem insertClient_onlyClients {db db' : Database} {id name tokenHash : String}
    {kind : ClientKind} {origin : Option String} {expiresAt now : Int}
    (h : db.insertClient id name kind origin tokenHash expiresAt now = .ok db') :
    db.OnlyClients db' := by
  unfold insertClient at h
  split at h
  · cases h
  · cases h
    exact ⟨rfl, rfl⟩

theorem rotateOrInsertStableBrowserClient_onlyClients {db db' : Database}
    {newId stableKey name origin tokenHash id : String} {expiresAt now : Int}
    (h : db.rotateOrInsertStableBrowserClient newId stableKey name origin tokenHash expiresAt now =
      .ok (db', id)) : db.OnlyClients db' := by
  unfold rotateOrInsertStableBrowserClient at h
  split at h
  · obtain ⟨db'', hupdate, -, heq⟩ := update_of_counted h
    obtain ⟨rfl, -⟩ := Prod.mk.inj heq
    exact updateClients?_onlyClients hupdate
  · split at h
    · cases h
    · cases h
      exact ⟨rfl, rfl⟩

theorem rotateClientToken_onlyClients {db db' : Database} {id tokenHash : String}
    {expiresAt : Int} (h : db.rotateClientToken id tokenHash expiresAt = .ok db') :
    db.OnlyClients db' := by
  obtain ⟨db'', hupdate, -, rfl⟩ := update_of_counted h
  exact updateClients?_onlyClients hupdate

theorem revokeClient_onlyClients {db db' : Database} {id : String} {now : Int}
    (h : db.revokeClient id now = .ok db') : db.OnlyClients db' := by
  obtain ⟨db'', hupdate, -, rfl⟩ := update_of_counted h
  exact updateClients?_onlyClients hupdate

end Database

end PrintLatch
