/-
  PrintLatch.Relational.Catalog

  Schemas that change: tables with named columns, and the statements that create
  and extend them.

  A row stores a value for each column its table had when it was written.  A
  column added later reads its default in it, so `ALTER TABLE ... ADD COLUMN`
  touches no row.  `Extends` is what every statement does to a catalog: a table
  keeps its rows, and its columns are a prefix of the new ones.
-/

import Mathlib.Data.List.Nodup

namespace Relational

/-- A stored value. -/
inductive Value where
  | null
  | int (n : Int)
  | text (s : String)
  deriving DecidableEq, Repr

/-- A column: its name, the rest of its definition, and its default. -/
structure Column where
  name : String
  decl : String
  default : Value
  deriving DecidableEq, Repr

/-- A table with its rows. -/
structure TableDef where
  name : String
  columns : List Column
  rows : List (List Value)
  deriving DecidableEq, Repr

/-- `CREATE INDEX`: on some columns of a table, over the rows in which the columns
    `notNull` are not null and the columns `isNull` are. -/
structure IndexDef where
  name : String
  table : String
  columns : List String
  unique : Bool
  notNull : List String
  isNull : List String
  deriving DecidableEq, Repr

/-- The tables and indexes of a database. -/
structure Catalog where
  tables : List TableDef
  indexes : List IndexDef
  deriving DecidableEq, Repr

/-! ## Reading -/

/-- The value of a column in a row that may be shorter than the columns. -/
def readColumn : List Column → List Value → String → Option Value
  | [], _, _ => none
  | c :: cs, row, name =>
      if c.name = name then some (row.headD c.default) else readColumn cs row.tail name

theorem readColumn_append (cs ds : List Column) (row : List Value) (name : String) :
    readColumn (cs ++ ds) row name =
      (readColumn cs row name).or (readColumn ds (row.drop cs.length) name) := by
  induction cs generalizing row with
  | nil => rfl
  | cons c cs ih =>
      simp only [List.cons_append, readColumn]
      by_cases h : c.name = name
      · simp [h]
      · rw [if_neg h, if_neg h, ih, List.length_cons, List.drop_tail]

theorem readColumn_isSome (cs : List Column) (row : List Value) (name : String) :
    (readColumn cs row name).isSome = cs.any (·.name = name) := by
  induction cs generalizing row with
  | nil => rfl
  | cons c cs ih =>
      unfold readColumn
      by_cases h : c.name = name <;> simp [h, ih]

/-- A row that stores nothing reads the default of a column. -/
theorem readColumn_nil {cs : List Column} {name : String} {v : Value}
    (h : readColumn cs [] name = some v) : ∃ c ∈ cs, c.name = name ∧ c.default = v := by
  induction cs with
  | nil => cases h
  | cons c cs ih =>
      unfold readColumn at h
      by_cases hc : c.name = name
      · rw [if_pos hc] at h
        exact ⟨c, List.mem_cons_self, hc, Option.some.inj h⟩
      · rw [if_neg hc] at h
        obtain ⟨c', hmem, hname, hdefault⟩ := ih h
        exact ⟨c', List.mem_cons_of_mem _ hmem, hname, hdefault⟩

namespace TableDef

/-- The table has a column of that name. -/
def has (t : TableDef) (column : String) : Bool := t.columns.any (·.name = column)

/-- The value of a column in a row. -/
def read (t : TableDef) (row : List Value) (column : String) : Option Value :=
  readColumn t.columns row column

theorem read_isSome (t : TableDef) (row : List Value) (column : String) :
    (t.read row column).isSome = t.has column := readColumn_isSome ..

theorem read_of_not_has {t : TableDef} {column : String} (h : t.has column = false)
    (row : List Value) : t.read row column = none := by
  rw [← Option.not_isSome_iff_eq_none, read_isSome, h]
  exact Bool.false_ne_true

end TableDef

namespace IndexDef

/-- The row has an entry in the index. -/
def covers (i : IndexDef) (t : TableDef) (row : List Value) : Bool :=
  (i.notNull.all fun c => (t.read row c).any (· ≠ .null)) ∧
    i.isNull.all fun c => t.read row c = some .null

/-- The entries of the index. -/
def entries (i : IndexDef) (t : TableDef) : List (List (Option Value)) :=
  (t.rows.filter (i.covers t)).map fun row => i.columns.map (t.read row)

/-- The index can be created: its columns are there, and a unique one has no entry
    twice. -/
def fits (i : IndexDef) (t : TableDef) : Prop :=
  (∀ c ∈ i.columns ++ i.notNull ++ i.isNull, t.has c = true) ∧
    (i.unique = true → (i.entries t).Nodup)

instance (i : IndexDef) (t : TableDef) : Decidable (i.fits t) := by
  unfold fits; infer_instance

end IndexDef

namespace Catalog

/-- The table of that name. -/
def table? (c : Catalog) (name : String) : Option TableDef := c.tables.find? (·.name = name)

/-- `SELECT 1 FROM pragma_table_info(table) WHERE name = column` finds a row. -/
def has (c : Catalog) (table column : String) : Bool := (c.table? table).any (·.has column)

/-- The catalog with a column at the end of a table. -/
def addColumn (c : Catalog) (table : String) (column : Column) : Catalog :=
  { c with
    tables := c.tables.map fun t =>
      if t.name = table then { t with columns := t.columns ++ [column] } else t }

theorem table?_addColumn (c : Catalog) (table : String) (column : Column) (name : String) :
    (c.addColumn table column).table? name = (c.table? name).map fun t =>
      if name = table then { t with columns := t.columns ++ [column] } else t := by
  unfold table? addColumn
  rw [List.find?_map]
  have hname : ((fun t : TableDef => decide (t.name = name)) ∘ fun t : TableDef =>
      if t.name = table then { t with columns := t.columns ++ [column] } else t) =
      fun t => decide (t.name = name) := by
    funext t
    by_cases h : t.name = table <;> simp [h]
  rw [hname]
  cases hfind : c.tables.find? fun t => decide (t.name = name) with
  | none => rfl
  | some t =>
      have hname : t.name = name := by simpa using List.find?_some hfind
      simp [hname]

theorem table?_create {c : Catalog} {t : TableDef} (hfree : c.table? t.name = none)
    (name : String) :
    ({ c with tables := c.tables ++ [t] } : Catalog).table? name =
      if name = t.name then some t else c.table? name := by
  unfold table? at hfree ⊢
  rw [List.find?_append]
  by_cases h : name = t.name
  · rw [h, hfree]
    simp
  · simp [h, Ne.symm h]

end Catalog

/-! ## Statements -/

/-- The statements of a schema script.  `addColumn` is the `ALTER TABLE` behind an
    `if` on what the check before it found. -/
inductive Statement where
  | createTable (name : String) (columns : List Column)
  | createIndex (i : IndexDef)
  | checkColumn (table column : String)
  | addColumn (table : String) (column : Column)
  deriving DecidableEq, Repr

namespace Statement

/-- One statement, after a check that found its column or not; `none` when it
    fails. -/
def exec (found : Bool) : Statement → Catalog → Option (Catalog × Bool)
  | createTable name columns, c =>
      if (c.table? name).isSome then some (c, found)
      else some ({ c with tables := c.tables ++ [⟨name, columns, []⟩] }, found)
  | createIndex i, c =>
      if c.indexes.any (·.name = i.name) then some (c, found)
      else
        match c.table? i.table with
        | none => none
        | some t => if i.fits t then some ({ c with indexes := c.indexes ++ [i] }, found) else none
  | checkColumn table column, c => some (c, c.has table column)
  | addColumn table column, c =>
      if found then some (c, found)
      else if (c.table? table).isSome ∧ c.has table column.name = false then
        some (c.addColumn table column, found)
      else none

/-- What the statement is for is there. -/
def Done (c : Catalog) : Statement → Prop
  | createTable name _ => (c.table? name).isSome = true
  | createIndex i => c.indexes.any (·.name = i.name) = true
  | checkColumn _ _ => True
  | addColumn table column => c.has table column.name = true

end Statement

/-! ## What statements keep -/

/-- Every table keeps its rows and its columns, and gets no columns but those that
    the script adds to it; every index stays. -/
structure Catalog.Extends (script : List Statement) (c c' : Catalog) : Prop where
  tables : ∀ name t, c.table? name = some t → ∃ t', c'.table? name = some t' ∧ t'.rows = t.rows ∧
    ∃ more, t'.columns = t.columns ++ more ∧ ∀ column ∈ more, .addColumn name column ∈ script
  indexes : ∀ i ∈ c.indexes, i ∈ c'.indexes

namespace Catalog.Extends

variable {script : List Statement} {c c' c'' : Catalog}

theorem refl (script : List Statement) (c : Catalog) : c.Extends script c :=
  ⟨fun _ t h => ⟨t, h, rfl, [], by simp, by simp⟩, fun _ h => h⟩

theorem trans (h : c.Extends script c') (h' : c'.Extends script c'') : c.Extends script c'' := by
  refine ⟨fun name t ht => ?_, fun i hi => h'.indexes i (h.indexes i hi)⟩
  obtain ⟨t', ht', hrows, more, hcolumns, hmore⟩ := h.tables name t ht
  obtain ⟨t'', ht'', hrows', more', hcolumns', hmore'⟩ := h'.tables name t' ht'
  refine ⟨t'', ht'', hrows'.trans hrows, more ++ more', ?_, ?_⟩
  · rw [hcolumns', hcolumns, List.append_assoc]
  · intro column hmem
    rcases List.mem_append.mp hmem with hleft | hright
    · exact hmore column hleft
    · exact hmore' column hright

theorem has (h : c.Extends script c') {table column : String} (hc : c.has table column = true) :
    c'.has table column = true := by
  unfold Catalog.has at hc ⊢
  cases ht : c.table? table with
  | none =>
      rw [ht] at hc
      cases hc
  | some t =>
      rw [ht] at hc
      obtain ⟨t', ht', -, more, hcolumns, -⟩ := h.tables table t ht
      rw [ht']
      show t'.columns.any _ = true
      rw [hcolumns, List.any_append, Bool.or_eq_true]
      exact Or.inl hc

/-- What is done stays done. -/
theorem done (h : c.Extends script c') {st : Statement} (hst : st.Done c) : st.Done c' := by
  cases st with
  | createTable name columns =>
      obtain ⟨t, ht⟩ := Option.isSome_iff_exists.mp hst
      obtain ⟨t', ht', -⟩ := h.tables name t ht
      exact Option.isSome_of_eq_some ht'
  | createIndex i =>
      obtain ⟨j, hj, hname⟩ := List.any_eq_true.mp hst
      exact List.any_eq_true.mpr ⟨j, h.indexes j hj, hname⟩
  | checkColumn table column => trivial
  | addColumn table column => exact h.has hst

/-- A column that a table had reads as before. -/
theorem read_old {t t' : TableDef} {more : List Column} (hcolumns : t'.columns = t.columns ++ more)
    (row : List Value) {column : String} (hhas : t.has column = true) :
    t'.read row column = t.read row column := by
  have hsome := t.read_isSome row column
  rw [hhas] at hsome
  obtain ⟨v, hv⟩ := Option.isSome_iff_exists.mp hsome
  unfold TableDef.read at hv ⊢
  rw [hcolumns, readColumn_append, hv]
  rfl

/-- A column that a table did not have reads its default in the rows of before. -/
theorem read_new {t t' : TableDef} {more : List Column} (hcolumns : t'.columns = t.columns ++ more)
    {row : List Value} (hrow : row.length ≤ t.columns.length) {column : String}
    (hnot : t.has column = false) (hhas : t'.has column = true) :
    ∃ c ∈ more, c.name = column ∧ t'.read row column = some c.default := by
  have hnone : readColumn t.columns row column = none := TableDef.read_of_not_has hnot row
  have hread : t'.read row column = readColumn more [] column := by
    unfold TableDef.read
    rw [hcolumns, readColumn_append, hnone, List.drop_of_length_le hrow, Option.none_or]
  have hsome := t'.read_isSome row column
  rw [hhas, hread] at hsome
  obtain ⟨v, hv⟩ := Option.isSome_iff_exists.mp hsome
  obtain ⟨c, hmem, hname, hdefault⟩ := readColumn_nil hv
  exact ⟨c, hmem, hname, by rw [hread, hv, hdefault]⟩

end Catalog.Extends

namespace Statement

variable {script : List Statement} {st : Statement} {c c' : Catalog} {found found' : Bool}

/-- A statement of the script that succeeds extends the catalog. -/
theorem extends_of_exec (hst : st ∈ script) (h : st.exec found c = some (c', found')) :
    c.Extends script c' := by
  cases st with
  | createTable name columns =>
      simp only [exec] at h
      split at h
      · cases h
        exact .refl script c
      · next hnone =>
          cases h
          have hfree : c.table? name = none := by simpa using hnone
          refine ⟨fun name' t ht => ⟨t, ?_, rfl, [], by simp, by simp⟩, fun i hi => hi⟩
          rw [Catalog.table?_create hfree]
          by_cases hname : name' = name
          · rw [hname, hfree] at ht
            cases ht
          · rw [if_neg hname]
            exact ht
  | createIndex i =>
      simp only [exec] at h
      split at h
      · cases h
        exact .refl script c
      · split at h
        · cases h
        · split at h
          · cases h
            exact ⟨fun name t ht => ⟨t, ht, rfl, [], by simp, by simp⟩,
              fun i hi => List.mem_append_left _ hi⟩
          · cases h
  | checkColumn table column =>
      cases h
      exact .refl script c
  | addColumn table column =>
      simp only [exec] at h
      split at h
      · cases h
        exact .refl script c
      · split at h
        · cases h
          refine ⟨fun name t ht => ?_, fun i hi => hi⟩
          rw [Catalog.table?_addColumn, ht]
          by_cases hname : name = table
          · refine ⟨_, rfl, by simp [hname], [column], by simp [hname], fun column' hmem => ?_⟩
            rw [List.mem_singleton.mp hmem, hname]
            exact hst
          · exact ⟨t, by simp [hname], rfl, [], by simp, by simp⟩
        · cases h

/-- What a statement is for is there once it has succeeded. -/
theorem done_of_exec (hfound : ∀ table column, st = .addColumn table column → found = true →
      c.has table column.name = true) (h : st.exec found c = some (c', found')) : st.Done c' := by
  cases st with
  | createTable name columns =>
      simp only [exec] at h
      split at h
      · next hsome =>
          cases h
          exact hsome
      · next hnone =>
          cases h
          have hfree : c.table? name = none := by simpa using hnone
          show (Catalog.table? _ name).isSome = true
          rw [Catalog.table?_create hfree, if_pos rfl]
          rfl
  | createIndex i =>
      simp only [exec] at h
      split at h
      · next hsome =>
          cases h
          exact hsome
      · split at h
        · cases h
        · split at h
          · cases h
            exact List.any_eq_true.mpr ⟨i, List.mem_append_right _ (List.mem_singleton_self i),
              by simp⟩
          · cases h
  | checkColumn table column => trivial
  | addColumn table column =>
      simp only [exec] at h
      split at h
      · next htrue =>
          cases h
          exact hfound table column rfl htrue
      · split at h
        · next hok =>
            cases h
            obtain ⟨t, ht⟩ := Option.isSome_iff_exists.mp hok.1
            show ((c.addColumn table column).table? table).any _ = true
            rw [Catalog.table?_addColumn, ht]
            simp [TableDef.has]
        · cases h

/-- A statement whose work is done does nothing, unless it adds a column that its
    check did not find. -/
theorem exec_of_done (hdone : st.Done c)
    (hfound : ∀ table column, st = .addColumn table column → found = true) :
    ∃ found', st.exec found c = some (c, found') := by
  cases st with
  | createTable name columns => exact ⟨found, if_pos hdone⟩
  | createIndex i => exact ⟨found, if_pos hdone⟩
  | checkColumn table column => exact ⟨_, rfl⟩
  | addColumn table column => exact ⟨found, if_pos (hfound table column rfl)⟩

end Statement

end Relational
