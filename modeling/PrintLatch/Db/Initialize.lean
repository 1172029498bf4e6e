/-
  PrintLatch.Db.Initialize

  `Database::initialize`, which every `Database::open` runs, as its statements.

  Each `ALTER TABLE` stands behind a check of its own, and no transaction holds the
  two together.  `Upgradable` is what a database of an earlier version has;
  `OpenedSafely` is what opening it should give, whoever else opens it.
-/

import PrintLatch.Relational.Migration
import Mathlib.Tactic.IntervalCases

namespace PrintLatch

open Relational Reactive

/-! ## The statements -/

/-- `CREATE TABLE clients`. -/
def clientsColumns : List Column :=
  [⟨"id", "TEXT PRIMARY KEY", .null⟩,
    ⟨"name", "TEXT NOT NULL", .null⟩,
    ⟨"kind", "TEXT NOT NULL CHECK (kind IN ('browser', 'local'))", .null⟩,
    ⟨"origin", "TEXT", .null⟩,
    ⟨"stable_key", "TEXT", .null⟩,
    ⟨"token_hash", "TEXT NOT NULL UNIQUE", .null⟩,
    ⟨"expires_at", "INTEGER NOT NULL", .null⟩,
    ⟨"created_at", "INTEGER NOT NULL", .null⟩,
    ⟨"revoked_at", "INTEGER", .null⟩]

/-- `CREATE TABLE pairing_codes`. -/
def pairingCodesColumns : List Column :=
  [⟨"code_hash", "TEXT PRIMARY KEY", .null⟩,
    ⟨"origin", "TEXT NOT NULL", .null⟩,
    ⟨"name", "TEXT NOT NULL", .null⟩,
    ⟨"expires_at", "INTEGER NOT NULL", .null⟩,
    ⟨"consumed_at", "INTEGER", .null⟩,
    ⟨"instance_session", "TEXT", .null⟩,
    ⟨"reuse_client", "INTEGER NOT NULL DEFAULT 0", .int 0⟩]

/-- `CREATE TABLE instance_identity`. -/
def instanceIdentityColumns : List Column :=
  [⟨"slot", "INTEGER PRIMARY KEY CHECK (slot = 1)", .null⟩,
    ⟨"secret", "TEXT NOT NULL", .null⟩]

/-- `CREATE TABLE jobs`. -/
def jobsColumns : List Column :=
  [⟨"id", "TEXT PRIMARY KEY", .null⟩,
    ⟨"client_id", "TEXT NOT NULL REFERENCES clients(id)", .null⟩,
    ⟨"printer_id", "TEXT NOT NULL", .null⟩,
    ⟨"state", "TEXT NOT NULL", .null⟩,
    ⟨"mode", "TEXT NOT NULL CHECK (mode IN ('preview', 'print'))", .null⟩,
    ⟨"copies", "INTEGER NOT NULL CHECK (copies BETWEEN 1 AND 10)", .null⟩,
    ⟨"page_count", "INTEGER NOT NULL", .null⟩,
    ⟨"byte_count", "INTEGER NOT NULL", .null⟩,
    ⟨"sha256", "TEXT NOT NULL", .null⟩,
    ⟨"file_path", "TEXT NOT NULL", .null⟩,
    ⟨"attempts", "INTEGER NOT NULL DEFAULT 0", .int 0⟩,
    ⟨"detail", "TEXT", .null⟩,
    ⟨"created_at", "INTEGER NOT NULL", .null⟩,
    ⟨"updated_at", "INTEGER NOT NULL", .null⟩]

def jobsClientCreated : IndexDef :=
  ⟨"jobs_client_created", "jobs", ["client_id", "created_at"], false, [], []⟩

def jobsQueue : IndexDef := ⟨"jobs_queue", "jobs", ["state", "created_at"], false, [], []⟩

def clientsActiveStableKey : IndexDef :=
  ⟨"clients_active_stable_key", "clients", ["stable_key"], true, ["stable_key"], ["revoked_at"]⟩

/-- `ADD COLUMN stable_key TEXT`. -/
def stableKeyColumn : Column := ⟨"stable_key", "TEXT", .null⟩

/-- `ADD COLUMN instance_session TEXT`. -/
def instanceSessionColumn : Column := ⟨"instance_session", "TEXT", .null⟩

/-- `ADD COLUMN reuse_client INTEGER NOT NULL DEFAULT 0`. -/
def reuseClientColumn : Column := ⟨"reuse_client", "INTEGER NOT NULL DEFAULT 0", .int 0⟩

/-- `initialize`: `execute_batch`, and then the three checks with their
    statements. -/
def initializeScript : List Statement :=
  [.createTable "clients" clientsColumns,
    .createTable "pairing_codes" pairingCodesColumns,
    .createTable "instance_identity" instanceIdentityColumns,
    .createTable "jobs" jobsColumns,
    .createIndex jobsClientCreated,
    .createIndex jobsQueue,
    .checkColumn "clients" "stable_key",
    .addColumn "clients" stableKeyColumn,
    .createIndex clientsActiveStableKey,
    .checkColumn "pairing_codes" "instance_session",
    .addColumn "pairing_codes" instanceSessionColumn,
    .checkColumn "pairing_codes" "reuse_client",
    .addColumn "pairing_codes" reuseClientColumn]

theorem initializeScript_checked : Checked initializeScript := by
  intro k table column hst
  have hk : k < 13 := (List.getElem?_eq_some_iff.mp hst).1
  interval_cases k <;> cases hst
  · exact ⟨6, rfl, rfl⟩
  · exact ⟨9, rfl, rfl⟩
  · exact ⟨11, rfl, rfl⟩

/-! ## What an earlier version leaves -/

/-- A database of an earlier version: its tables may lack the columns that were
    added later, and may be missing; they have the columns that the indexes name,
    and no two active clients share a stable key. -/
structure Upgradable (c : Catalog) : Prop where
  rows_fit : ∀ name t, c.table? name = some t → ∀ row ∈ t.rows, row.length ≤ t.columns.length
  clients : ∀ t, c.table? "clients" = some t →
    t.has "revoked_at" = true ∧ (clientsActiveStableKey.entries t).Nodup
  jobs : ∀ t, c.table? "jobs" = some t →
    t.has "client_id" = true ∧ t.has "created_at" = true ∧ t.has "state" = true

/-- The table that a statement needs. -/
def Statement.needs : Statement → Option String
  | .createIndex i => some i.table
  | .addColumn table _ => some table
  | _ => none

theorem upgradable_createTable {c : Catalog} (h : Upgradable c) {name : String}
    {columns : List Column}
    (hclients : name = "clients" → columns.any (·.name = "revoked_at") = true)
    (hjobs : name = "jobs" → columns.any (·.name = "client_id") = true ∧
      columns.any (·.name = "created_at") = true ∧ columns.any (·.name = "state") = true) :
    ∃ c', (Statement.createTable name columns).alone c = some c' ∧ Upgradable c' := by
  unfold Statement.alone Statement.exec
  cases hfree : c.table? name with
  | some t => exact ⟨c, by simp [hfree], h⟩
  | none =>
      refine ⟨{ c with tables := c.tables ++ [⟨name, columns, []⟩] }, by simp [hfree], ?_⟩
      have htable := Catalog.table?_create (t := ⟨name, columns, []⟩) hfree
      refine ⟨fun name' t ht => ?_, fun t ht => ?_, fun t ht => ?_⟩
      · rw [htable] at ht
        by_cases hname : name' = name
        · rw [if_pos hname] at ht
          cases ht
          simp
        · rw [if_neg hname] at ht
          exact h.rows_fit name' t ht
      · rw [htable] at ht
        by_cases hname : "clients" = name
        · rw [if_pos hname] at ht
          cases ht
          exact ⟨hclients hname.symm, by simp [IndexDef.entries]⟩
        · rw [if_neg hname] at ht
          exact h.clients t ht
      · rw [htable] at ht
        by_cases hname : "jobs" = name
        · rw [if_pos hname] at ht
          cases ht
          exact hjobs hname.symm
        · rw [if_neg hname] at ht
          exact h.jobs t ht

theorem upgradable_createIndex {c : Catalog} (h : Upgradable c) {i : IndexDef} {t : TableDef}
    (ht : c.table? i.table = some t) (hfits : i.fits t) :
    ∃ c', (Statement.createIndex i).alone c = some c' ∧ Upgradable c' := by
  unfold Statement.alone Statement.exec
  cases hthere : c.indexes.any (·.name = i.name) with
  | true => exact ⟨c, by simp [hthere], h⟩
  | false =>
      exact ⟨{ c with indexes := c.indexes ++ [i] }, by simp [hthere, ht, hfits],
        h.rows_fit, h.clients, h.jobs⟩

/-- Rows without a stable key have no entry in the index. -/
theorem entries_eq_nil {t : TableDef}
    (h : ∀ row ∈ t.rows, (t.read row "stable_key").any (· ≠ .null) = false) :
    clientsActiveStableKey.entries t = [] := by
  unfold IndexDef.entries
  rw [List.map_eq_nil_iff, List.filter_eq_nil_iff]
  intro row hrow hcovers
  obtain ⟨hkey, -⟩ := of_decide_eq_true hcovers
  have hkey : (t.read row "stable_key").any (· ≠ .null) = true := by
    simpa [clientsActiveStableKey] using hkey
  rw [h row hrow] at hkey
  cases hkey

/-- A column that clients did not have leaves the index without entries. -/
theorem entries_of_addColumn {t : TableDef} (hrows : ∀ row ∈ t.rows, row.length ≤ t.columns.length)
    (hnot : t.has "stable_key" = false) :
    clientsActiveStableKey.entries { t with columns := t.columns ++ [stableKeyColumn] } = [] := by
  refine entries_eq_nil fun row hrow => ?_
  have hcolumns : ({ t with columns := t.columns ++ [stableKeyColumn] } : TableDef).columns =
      t.columns ++ [stableKeyColumn] := rfl
  obtain ⟨column, hmem, -, hread⟩ := Catalog.Extends.read_new hcolumns (hrows row hrow) hnot
    (by simp [TableDef.has, stableKeyColumn])
  rw [hread, List.mem_singleton.mp hmem]
  rfl

theorem upgradable_addColumn {c : Catalog} (h : Upgradable c) {table : String} {column : Column}
    {t : TableDef} (ht : c.table? table = some t)
    (hclients : table = "clients" → column = stableKeyColumn) (hjobs : table ≠ "jobs") :
    ∃ c', (Statement.addColumn table column).alone c = some c' ∧ Upgradable c' := by
  unfold Statement.alone Statement.exec Statement.found
  cases hhas : c.has table column.name with
  | true => exact ⟨c, by simp [hhas], h⟩
  | false =>
      refine ⟨c.addColumn table column, by simp [ht, hhas], ?_, ?_, ?_⟩
      · intro name t' ht' row hrow
        rw [Catalog.table?_addColumn] at ht'
        obtain ⟨t₀, ht₀, rfl⟩ := Option.map_eq_some_iff.mp ht'
        by_cases hname : name = table
        · rw [if_pos hname] at hrow ⊢
          have := h.rows_fit name t₀ ht₀ row hrow
          simp only [List.length_append]
          omega
        · rw [if_neg hname] at hrow ⊢
          exact h.rows_fit name t₀ ht₀ row hrow
      · intro t' ht'
        rw [Catalog.table?_addColumn] at ht'
        obtain ⟨t₀, ht₀, rfl⟩ := Option.map_eq_some_iff.mp ht'
        obtain ⟨hrevoked, hkeys⟩ := h.clients t₀ ht₀
        by_cases hname : "clients" = table
        · rw [if_pos hname, hclients hname.symm]
          rw [hclients hname.symm, ← hname, Catalog.has, ht₀] at hhas
          refine ⟨?_, ?_⟩
          · simp only [TableDef.has, List.any_append, Bool.or_eq_true]
            exact Or.inl hrevoked
          · rw [entries_of_addColumn (h.rows_fit "clients" t₀ ht₀) hhas]
            exact List.nodup_nil
        · rw [if_neg hname]
          exact ⟨hrevoked, hkeys⟩
      · intro t' ht'
        rw [Catalog.table?_addColumn] at ht'
        obtain ⟨t₀, ht₀, rfl⟩ := Option.map_eq_some_iff.mp ht'
        rw [if_neg (Ne.symm hjobs)]
        exact h.jobs t₀ ht₀

/-! ## One open -/

/-- Every statement that needs a table comes after the statement that creates it,
    and the index on stable keys after the column. -/
theorem created_before {pre rest : List Statement} {st : Statement}
    (h : initializeScript = pre ++ st :: rest) :
    (∀ table, Statement.needs st = some table → ∃ columns, .createTable table columns ∈ pre) ∧
      (st = .createIndex clientsActiveStableKey → .addColumn "clients" stableKeyColumn ∈ pre) := by
  have hst : initializeScript[pre.length]? = some st := by
    rw [h]
    simp
  have hpre : pre = initializeScript.take pre.length := by
    rw [h]
    simp
  have hlen : pre.length < 13 := (List.getElem?_eq_some_iff.mp hst).1
  rw [hpre]
  generalize pre.length = k at hst hlen
  constructor
  · intro table hneeds
    interval_cases k <;> cases hst <;> cases hneeds
    · exact ⟨jobsColumns, by decide⟩
    · exact ⟨jobsColumns, by decide⟩
    · exact ⟨clientsColumns, by decide⟩
    · exact ⟨clientsColumns, by decide⟩
    · exact ⟨pairingCodesColumns, by decide⟩
    · exact ⟨pairingCodesColumns, by decide⟩
  · rintro rfl
    interval_cases k <;> first | exact absurd hst (by decide) | decide

/-- A statement of the script succeeds on a database that can be upgraded and has
    the table it needs. -/
theorem upgradable_alone {c : Catalog} (h : Upgradable c) {st : Statement}
    (hst : st ∈ initializeScript)
    (hneeds : ∀ table, Statement.needs st = some table → ∃ t, c.table? table = some t)
    (hkey : st = .createIndex clientsActiveStableKey → c.has "clients" "stable_key" = true) :
    ∃ c', st.alone c = some c' ∧ Upgradable c' := by
  simp only [initializeScript, List.mem_cons, List.not_mem_nil, or_false] at hst
  rcases hst with rfl | rfl | rfl | rfl | rfl | rfl | rfl | rfl | rfl | rfl | rfl | rfl | rfl
  · exact upgradable_createTable h (by decide) (by decide)
  · exact upgradable_createTable h (by decide) (by decide)
  · exact upgradable_createTable h (by decide) (by decide)
  · exact upgradable_createTable h (by decide) (by decide)
  · obtain ⟨t, ht⟩ := hneeds "jobs" rfl
    obtain ⟨hclient, hcreated, -⟩ := h.jobs t ht
    exact upgradable_createIndex h ht ⟨by simp [jobsClientCreated, hclient, hcreated], nofun⟩
  · obtain ⟨t, ht⟩ := hneeds "jobs" rfl
    obtain ⟨-, hcreated, hstate⟩ := h.jobs t ht
    exact upgradable_createIndex h ht ⟨by simp [jobsQueue, hstate, hcreated], nofun⟩
  · exact ⟨c, rfl, h⟩
  · obtain ⟨t, ht⟩ := hneeds "clients" rfl
    exact upgradable_addColumn h ht (fun _ => rfl) (by decide)
  · obtain ⟨t, ht⟩ := hneeds "clients" rfl
    obtain ⟨hrevoked, hkeys⟩ := h.clients t ht
    have hthere : t.has "stable_key" = true := by
      have hhas := hkey rfl
      rw [Catalog.has, ht] at hhas
      exact hhas
    exact upgradable_createIndex h ht
      ⟨by simp [clientsActiveStableKey, hrevoked, hthere], fun _ => hkeys⟩
  · exact ⟨c, rfl, h⟩
  · obtain ⟨t, ht⟩ := hneeds "pairing_codes" rfl
    exact upgradable_addColumn h ht (by decide) (by decide)
  · exact ⟨c, rfl, h⟩
  · obtain ⟨t, ht⟩ := hneeds "pairing_codes" rfl
    exact upgradable_addColumn h ht (by decide) (by decide)

/-- What is left of the script succeeds once the statements before it are done. -/
theorem upgradable_rest {pre rest : List Statement} (h : initializeScript = pre ++ rest)
    {c : Catalog} (hc : Upgradable c) (hpre : ∀ st ∈ pre, st.Done c) :
    ∃ c', rest.foldlM (fun c st => st.alone c) c = some c' := by
  induction rest generalizing pre c with
  | nil => exact ⟨c, rfl⟩
  | cons st rest ih =>
      have hmem : st ∈ initializeScript := by
        rw [h]
        simp
      obtain ⟨hcreated, hkey⟩ := created_before h
      obtain ⟨c', halone, hc'⟩ := upgradable_alone hc hmem
        (fun table hneeds => by
          obtain ⟨columns, hcreate⟩ := hcreated table hneeds
          exact Option.isSome_iff_exists.mp (hpre _ hcreate))
        (fun heq => hpre _ (hkey heq))
      obtain ⟨⟨c'', found'⟩, hexec, rfl⟩ := Option.map_eq_some_iff.mp halone
      have hext := Statement.extends_of_exec hmem hexec
      have hdone := Statement.done_of_exec (fun table column heq hfound => by
        rw [heq] at hfound
        exact hfound) hexec
      have hsplit : initializeScript = (pre ++ [st]) ++ rest := by simp [h]
      obtain ⟨c₁, hrest⟩ := ih hsplit hc' (fun st' hst' => by
        rcases List.mem_append.mp hst' with hold | hnew
        · exact hext.done (hpre st' hold)
        · rw [List.mem_singleton.mp hnew]
          exact hdone)
      exact ⟨c₁, by rw [List.foldlM_cons, halone]; exact hrest⟩

/-- One open alone upgrades the database. -/
theorem initializeScript_alone {c : Catalog} (h : Upgradable c) :
    ∃ c', aloneUpTo initializeScript c initializeScript.length = some c' := by
  unfold aloneUpTo
  rw [List.take_length]
  have hall : initializeScript = [] ++ initializeScript := rfl
  exact upgradable_rest hall h (by simp)

/-! ## Opens at once -/

/-- The next statement of open `n`. -/
def openStep (s : Race) (n : Nat) : Race × List OpenObs := raceStep initializeScript s n

/-- The columns that are added later, and what they read in older rows. -/
def addedColumns : List (String × String × Value) :=
  [("clients", "stable_key", .null), ("pairing_codes", "instance_session", .null),
    ("pairing_codes", "reuse_client", .int 0)]

/-- Opening the database at once, from any number of processes, does what opening
    it should do. -/
structure OpenedSafely (c₀ : Catalog) (is : List Nat) : Prop where
  succeeds : ∀ n, .failed n ∉ trace openStep (.start c₀) is ∧
    (initializeScript.length ≤ is.count n → .opened n ∈ trace openStep (.start c₀) is)
  kept : ∀ name t, c₀.table? name = some t →
    ∃ t', (run openStep (.start c₀) is).catalog.table? name = some t' ∧ t'.rows = t.rows ∧
      ∀ row ∈ t.rows, ∀ column, t.has column = true → t'.read row column = t.read row column
  added : ∀ n, .opened n ∈ trace openStep (.start c₀) is →
    ∀ table column value, (table, column, value) ∈ addedColumns →
    ∀ t, c₀.table? table = some t → t.has column = false →
    ∃ t', (run openStep (.start c₀) is).catalog.table? table = some t' ∧
      ∀ row ∈ t.rows, t'.read row column = some value
  schema : ∀ n, .opened n ∈ trace openStep (.start c₀) is →
    (run openStep (.start c₀) is).catalog =
      (run openStep (.start c₀) (List.replicate initializeScript.length 0)).catalog

/-- The script adds one column under each name, with the default that older rows
    should read. -/
theorem default_of_added {table column : String} {value : Value}
    (hadded : (table, column, value) ∈ addedColumns) {c : Column}
    (hmem : .addColumn table c ∈ initializeScript) (hname : c.name = column) :
    c.default = value := by
  simp only [initializeScript, List.mem_cons, reduceCtorEq, Statement.addColumn.injEq,
    List.not_mem_nil, or_false, false_or] at hmem
  simp only [addedColumns, List.mem_cons, Prod.mk.injEq, List.not_mem_nil, or_false] at hadded
  rcases hmem with ⟨rfl, rfl⟩ | ⟨rfl, rfl⟩ | ⟨rfl, rfl⟩ <;>
    rcases hadded with ⟨htable, rfl, rfl⟩ | ⟨htable, rfl, rfl⟩ | ⟨htable, rfl, rfl⟩ <;>
    first
    | rfl
    | exact absurd htable (by decide)
    | exact absurd hname (by decide)

/-- The script adds every column that is added later. -/
theorem done_of_added {table column : String} {value : Value}
    (hadded : (table, column, value) ∈ addedColumns) {c : Catalog}
    (hdone : ∀ st ∈ initializeScript, st.Done c) : c.has table column = true := by
  simp only [addedColumns, List.mem_cons, Prod.mk.injEq, List.not_mem_nil, or_false] at hadded
  rcases hadded with ⟨rfl, rfl, rfl⟩ | ⟨rfl, rfl, rfl⟩ | ⟨rfl, rfl, rfl⟩
  · exact hdone (.addColumn "clients" stableKeyColumn) (by decide)
  · exact hdone (.addColumn "pairing_codes" instanceSessionColumn) (by decide)
  · exact hdone (.addColumn "pairing_codes" reuseClientColumn) (by decide)

/-- **When opening an older database at once is safe.**  For every database that an
    earlier version left and every order of the statements of any number of opens,
    all is well exactly when no open adds a column that another has added since its
    check. -/
theorem opened_safely_iff (c₀ : Catalog) (h : Upgradable c₀) (is : List Nat) :
    OpenedSafely c₀ is ↔
      Along openStep (fun _ s n => ¬ Late initializeScript s n) (.start c₀) is := by
  obtain ⟨hiff, hends, hschema, hext, hdone⟩ := race_ends_well (by decide)
    initializeScript_checked (initializeScript_alone h) is
  constructor
  · intro hsafe
    exact hiff.mp fun n => (hsafe.succeeds n).1
  · intro halong
    have hno := hiff.mpr halong
    refine ⟨fun n => ⟨hno n, hends n (hno n)⟩, fun name t ht => ?_, ?_,
      fun n hopened => hschema n 0 hopened⟩
    · obtain ⟨t', ht', hrows, more, hcolumns, -⟩ := hext.tables name t ht
      exact ⟨t', ht', hrows, fun row _ column hhas => Catalog.Extends.read_old hcolumns row hhas⟩
    · intro n hopened table column value hadded t ht hnot
      obtain ⟨t', ht', -, more, hcolumns, hmore⟩ := hext.tables table t ht
      have hhas : t'.has column = true := by
        have hall := done_of_added hadded (hdone n hopened)
        rw [Catalog.has, ht'] at hall
        exact hall
      refine ⟨t', ht', fun row hrow => ?_⟩
      -- a row of before stores nothing for the column
      obtain ⟨c, hmem, hname, hread⟩ := Catalog.Extends.read_new hcolumns
        (h.rows_fit table t ht row hrow) hnot hhas
      rw [hread, default_of_added hadded (hmore c hmem) hname]

/-! ## The shapes of earlier versions -/

/-- A database of an earlier version, with or without each later column. -/
def olderCatalog (hasKey hasSession hasReuse : Bool)
    (clients codes secrets jobs : List (List Value)) : Catalog :=
  ⟨[⟨"clients", clientsColumns.filter fun c => hasKey ∨ c.name ≠ "stable_key", clients⟩,
      ⟨"pairing_codes", pairingCodesColumns.filter fun c =>
        (hasSession ∨ c.name ≠ "instance_session") ∧ (hasReuse ∨ c.name ≠ "reuse_client"), codes⟩,
      ⟨"instance_identity", instanceIdentityColumns, secrets⟩,
      ⟨"jobs", jobsColumns, jobs⟩],
    [jobsClientCreated, jobsQueue] ++ if hasKey then [clientsActiveStableKey] else []⟩

/-- Every combination of missing columns, with any rows of their width, can be
    upgraded; the index guards the stable keys where they are there. -/
theorem upgradable_olderCatalog (hasKey hasSession hasReuse : Bool)
    (clients codes secrets jobs : List (List Value))
    (hfit : ∀ t ∈ (olderCatalog hasKey hasSession hasReuse clients codes secrets jobs).tables,
      ∀ row ∈ t.rows, row.length ≤ t.columns.length)
    (hkeys : hasKey = true →
      (clientsActiveStableKey.entries ⟨"clients", clientsColumns, clients⟩).Nodup) :
    Upgradable (olderCatalog hasKey hasSession hasReuse clients codes secrets jobs) := by
  refine ⟨fun name t ht => hfit t (List.mem_of_find?_eq_some ht), fun t ht => ?_, fun t ht => ?_⟩
  · cases ht
    cases hasKey with
    | true => exact ⟨rfl, hkeys rfl⟩
    | false =>
        refine ⟨rfl, ?_⟩
        have hnil : clientsActiveStableKey.entries ⟨"clients",
            clientsColumns.filter fun c => false ∨ c.name ≠ "stable_key", clients⟩ = [] := by
          refine entries_eq_nil fun row _ => ?_
          rw [TableDef.read_of_not_has rfl row]
          rfl
        have hnodup : (clientsActiveStableKey.entries ⟨"clients",
            clientsColumns.filter fun c => false ∨ c.name ≠ "stable_key", clients⟩).Nodup := by
          rw [hnil]
          exact List.nodup_nil
        exact hnodup
  · cases ht
    exact ⟨rfl, rfl, rfl⟩

/-! ## Two opens after an upgrade -/

/-- A database without any of the later columns, with a row in each table. -/
def exampleOlder : Catalog :=
  olderCatalog false false false
    [[.text "legacy-client", .text "PrintLatch dashboard", .text "browser",
      .text "http://127.0.0.1:32191", .text "legacy-token", .int 1, .int 1]]
    [[.text "legacy", .text "https://app.example", .text "Browser app", .int 1, .null]] [] []

theorem upgradable_exampleOlder : Upgradable exampleOlder :=
  upgradable_olderCatalog false false false _ _ _ _ (by decide) nofun

/-- `serve`, and `pair` after it. -/
theorem opened_safely_of_exampleOlder :
    OpenedSafely exampleOlder (List.replicate 13 0 ++ List.replicate 13 1) := by
  refine (opened_safely_iff exampleOlder upgradable_exampleOlder _).mpr ?_
  refine (not_failed_iff initializeScript_checked
    (initializeScript_alone upgradable_exampleOlder) _).mp fun n => ?_
  have htrace : trace (raceStep initializeScript) (.start exampleOlder)
      (List.replicate 13 0 ++ List.replicate 13 1) = [.opened 0, .opened 1] := by decide
  rw [htrace]
  simp

/-- `serve` and `pair` at once: both find `stable_key` missing, and the one that adds
    it second fails. -/
theorem open_fails_after_check :
    Upgradable exampleOlder ∧
      ¬ OpenedSafely exampleOlder (List.replicate 7 0 ++ List.replicate 7 1 ++ [0, 1]) := by
  refine ⟨upgradable_exampleOlder, fun h => (h.succeeds 1).1 ?_⟩
  have htrace : trace openStep (.start exampleOlder)
      (List.replicate 7 0 ++ List.replicate 7 1 ++ [0, 1]) = [.failed 1] := by decide
  rw [htrace]
  simp

end PrintLatch
