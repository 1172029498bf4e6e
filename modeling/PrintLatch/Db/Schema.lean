/-
  PrintLatch.Db.Schema

  The tables of `printlatch.sqlite3` (`src/db.rs`, `Database::initialize`) and
  the records the code reads from them.

  Each `CREATE TABLE` is one row type and one `clash` relation, which holds the
  table's `PRIMARY KEY`, `UNIQUE` columns and unique indexes.  Columns that a
  `CHECK (... IN ...)` limits to fixed words, and the job state, whose words
  are only ever written by this code, are enumerations; the other text columns
  are strings, the integer columns that hold times are `Int`.
-/

import PrintLatch.Relational.Table

namespace PrintLatch

open Relational

/-! ## Clients -/

/-- `ClientKind`: a token of a browser origin or of a local process. -/
inductive ClientKind where
  | browser
  | localProcess
  deriving DecidableEq, Repr

/-- A row of `clients`. -/
structure ClientRow where
  id : String
  name : String
  kind : ClientKind
  origin : Option String
  stableKey : Option String
  tokenHash : String
  expiresAt : Int
  createdAt : Int
  revokedAt : Option Int
  deriving DecidableEq, Repr

/-- `AuthenticatedClient`: the columns `client_from_row` reads. -/
structure AuthenticatedClient where
  id : String
  name : String
  kind : ClientKind
  origin : Option String
  deriving DecidableEq, Repr

/-- `client_from_row`. -/
def clientFromRow (r : ClientRow) : AuthenticatedClient :=
  ⟨r.id, r.name, r.kind, r.origin⟩

/-- Both rows are in the partial index `clients_active_stable_key`
    (`WHERE stable_key IS NOT NULL AND revoked_at IS NULL`) with one key. -/
def sameActiveStableKey (a b : ClientRow) : Prop :=
  a.stableKey.isSome ∧ a.stableKey = b.stableKey ∧ a.revokedAt = none ∧ b.revokedAt = none

instance : DecidableRel sameActiveStableKey := fun a b => by
  unfold sameActiveStableKey; infer_instance

/-- The uniqueness constraints of `clients`: the primary key, `token_hash
    UNIQUE` and the index on active stable keys. -/
def clientsClash (a b : ClientRow) : Prop :=
  a.id = b.id ∨ a.tokenHash = b.tokenHash ∨ sameActiveStableKey a b

instance : DecidableRel clientsClash := fun a b => by
  unfold clientsClash; infer_instance

abbrev ClientsTable := Table clientsClash

/-! ## Pairing codes -/

/-- A row of `pairing_codes`. -/
structure PairingRow where
  codeHash : String
  origin : String
  name : String
  expiresAt : Int
  consumedAt : Option Int
  instanceSession : Option String
  reuseClient : Bool
  deriving DecidableEq, Repr

/-- `PairingRecord`: what a redeemed code grants. -/
structure PairingRecord where
  origin : String
  name : String
  reuseClient : Bool
  deriving DecidableEq, Repr

/-- The primary key of `pairing_codes`. -/
def pairingClash (a b : PairingRow) : Prop := a.codeHash = b.codeHash

instance : DecidableRel pairingClash := fun a b => by
  unfold pairingClash; infer_instance

abbrev PairingTable := Table pairingClash

/-! ## Jobs -/

/-- The words of the column `jobs.state`. -/
inductive JobState where
  | previewReady
  | queued
  | printing
  | succeeded
  | failed
  | unknown
  | canceled
  deriving DecidableEq, Repr

/-- The words of the column `jobs.mode`. -/
inductive JobMode where
  | preview
  | print
  deriving DecidableEq, Repr

/-- `Job`: the columns `job_from_row` reads. -/
structure Job where
  id : String
  clientId : String
  printerId : String
  state : JobState
  mode : JobMode
  copies : Nat
  pageCount : Nat
  byteCount : Nat
  sha256 : String
  attempts : Nat
  detail : Option String
  createdAt : Int
  updatedAt : Int
  deriving DecidableEq, Repr

/-- A row of `jobs`: a `Job` and the column `file_path`. -/
structure JobRow extends Job where
  filePath : String
  deriving DecidableEq, Repr

/-- `NewJob`: the columns `insert_job` is given. -/
structure NewJob where
  id : String
  clientId : String
  printerId : String
  state : JobState
  mode : JobMode
  copies : Nat
  pageCount : Nat
  byteCount : Nat
  sha256 : String
  filePath : String
  deriving DecidableEq, Repr

/-- The primary key of `jobs`. -/
def jobsClash (a b : JobRow) : Prop := a.id = b.id

instance : DecidableRel jobsClash := fun a b => by
  unfold jobsClash; infer_instance

abbrev JobsTable := Table jobsClash

/-! ## The database -/

/-- Why a database call returned an error: a constraint of the schema, or a
    check of the code with its message. -/
inductive DbError where
  | unique
  | foreignKey
  | check
  | message (text : String)
  deriving DecidableEq, Repr

/-- The tables of one data directory. -/
structure Database where
  clients : ClientsTable
  pairingCodes : PairingTable
  jobs : JobsTable

/-- A database straight after `Database::open` made it. -/
def Database.fresh : Database :=
  ⟨Table.empty _, Table.empty _, Table.empty _⟩

/-- The row of job `id`. -/
def Database.job? (db : Database) (id : String) : Option JobRow :=
  db.jobs.lookup (fun r => r.id) id

/-- The row of client `id`. -/
def Database.client? (db : Database) (id : String) : Option ClientRow :=
  db.clients.lookup (fun r => r.id) id

/-- The row of the pairing code with digest `codeHash`. -/
def Database.pairingCode? (db : Database) (codeHash : String) : Option PairingRow :=
  db.pairingCodes.lookup (fun r => r.codeHash) codeHash

theorem Database.mem_of_job? {db : Database} {id : String} {r : JobRow}
    (h : db.job? id = some r) : r ∈ db.jobs.rows := Table.mem_of_lookup _ h

theorem Database.id_of_job? {db : Database} {id : String} {r : JobRow}
    (h : db.job? id = some r) : r.id = id :=
  Table.key_of_lookup (fun r : JobRow => r.id) h

theorem Database.job?_of_mem {db : Database} {r : JobRow} (h : r ∈ db.jobs.rows) :
    db.job? r.id = some r :=
  Table.lookup_of_mem (fun r : JobRow => r.id) (fun _ _ h => h) h

theorem Database.job?_eq_some_iff {db : Database} {id : String} {r : JobRow} :
    db.job? id = some r ↔ r ∈ db.jobs.rows ∧ r.id = id :=
  Table.lookup_eq_some_iff _ (fun _ _ h => h)

/-! ## An example data directory -/

/-- A local client whose token is `pl_live_demo`. -/
def exampleClient : ClientRow where
  id := "c1"
  name := "Demo"
  kind := .localProcess
  origin := none
  stableKey := none
  tokenHash := "46260ef41989ec83a4f779b4f7ca75f9220fefd82f7673954faedab0476a1bda"
  expiresAt := 7776000
  createdAt := 0
  revokedAt := none

/-- One client, no jobs. -/
def exampleDatabase : Database :=
  { Database.fresh with clients := ⟨[exampleClient], by simp⟩ }

end PrintLatch
