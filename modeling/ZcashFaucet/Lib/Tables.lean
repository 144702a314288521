/-
ZcashFaucet.Lib.Tables — SQL tables and the statements that change their
shape.

A database is a set of named tables and a set of named indexes. A table
carries the proof that each of its rows has one value per column, so a
statement that builds a table has to say why. A statement takes effect as
a whole or fails with SQLite's message, in the order SQLite makes its
checks.

Names are compared as they are spelled: SQLite ignores the case of ASCII
letters in them, and a schema that is spelled in lower case throughout
does not notice. Values are not converted to the affinity of a column
they are copied to.
-/
import Mathlib.Data.List.Basic
import Mathlib.Logic.Function.Basic

namespace ZcashFaucet.Lib.Tables

/-- A stored value. A real is kept by its IEEE 754 bits. -/
inductive Value
  | null
  | integer (value : Int)
  | real (bits : UInt64)
  | text (value : String)
  | blob (bytes : List UInt8)
  deriving DecidableEq, Repr

structure Column where
  name : String
  type : String
  notNull : Bool
  /-- The `DEFAULT`; a column without one defaults to NULL. -/
  default : Value
  primaryKey : Bool
  deriving DecidableEq, Repr

abbrev TableRow := List Value

structure Table where
  columns : List Column
  rows : List TableRow
  wide : ∀ r ∈ rows, r.length = columns.length

structure Index where
  table : String
  columns : List String
  deriving DecidableEq, Repr

structure Database where
  tables : String → Option Table
  indexes : String → Option Index

/-! ## Rows -/

/-- The value of a row in a column; `none` if there is no such column. -/
def cell : List Column → TableRow → String → Option Value
  | c :: cs, v :: vs, name => if c.name = name then some v else cell cs vs name
  | _, _, _ => none

theorem cell_append_left {cs ds : List Column} {r s : TableRow} {name : String}
    (hlen : r.length = cs.length) (hname : name ∈ cs.map (·.name)) :
    cell (cs ++ ds) (r ++ s) name = cell cs r name := by
  induction cs generalizing r with
  | nil => cases hname
  | cons c cs ih =>
    cases r with
    | nil => cases hlen
    | cons v r =>
      simp only [List.cons_append, cell]
      split
      · rfl
      · next hne =>
        refine ih (by simpa using hlen) ?_
        simp only [List.map_cons, List.mem_cons] at hname
        rcases hname with heq | hmem
        · exact absurd heq.symm hne
        · exact hmem

theorem cell_append_right {cs ds : List Column} {r s : TableRow} {name : String}
    (hlen : r.length = cs.length) (hname : name ∉ cs.map (·.name)) :
    cell (cs ++ ds) (r ++ s) name = cell ds s name := by
  induction cs generalizing r with
  | nil =>
    cases r with
    | nil => rfl
    | cons v r => cases hlen
  | cons c cs ih =>
    cases r with
    | nil => cases hlen
    | cons v r =>
      simp only [List.map_cons, List.mem_cons, not_or] at hname
      simp only [List.cons_append, cell]
      rw [if_neg (Ne.symm hname.1)]
      exact ih (by simpa using hlen) hname.2

theorem cell_isSome_iff {cs : List Column} {r : TableRow} {name : String} (hlen : r.length = cs.length) :
    (cell cs r name).isSome ↔ name ∈ cs.map (·.name) := by
  induction cs generalizing r with
  | nil =>
    cases r with
    | nil => simp [cell]
    | cons v r => cases hlen
  | cons c cs ih =>
    cases r with
    | nil => cases hlen
    | cons v r =>
      have htail := ih (r := r) (by simpa using hlen)
      simp only [cell, List.map_cons, List.mem_cons]
      by_cases heq : c.name = name
      · simp [heq]
      · rw [if_neg heq, htail]
        simp [Ne.symm heq]

/-- What a `SELECT` list may hold. -/
inductive Expr
  | literal (value : Value)
  | column (name : String)
  deriving DecidableEq, Repr

def Expr.eval (cs : List Column) (r : TableRow) : Expr → Option Value
  | .literal v => some v
  | .column name => cell cs r name

/-! ## Constraints -/

def keyColumns (cs : List Column) : List String :=
  (cs.filter (·.primaryKey)).map (·.name)

def keyOf (cs : List Column) (r : TableRow) : List (Option Value) :=
  (keyColumns cs).map (cell cs r)

/-- The first column whose NOT NULL a row breaks. -/
def nullViolation : List Column → TableRow → Option Column
  | c :: cs, v :: vs => if c.notNull = true ∧ v = .null then some c else nullViolation cs vs
  | _, _ => none

/-- Two rows with one primary key. A key with a NULL in it equals no key. -/
def SameKey (cs : List Column) (r s : TableRow) : Prop :=
  keyOf cs r = keyOf cs s ∧ keyOf cs r ≠ [] ∧ some Value.null ∉ keyOf cs r

instance (cs : List Column) (r s : TableRow) : Decidable (SameKey cs r s) :=
  inferInstanceAs (Decidable (_ ∧ _))

/-- No two rows share a primary key. -/
def KeysDiffer (cs : List Column) (rows : List TableRow) : Prop :=
  rows.Pairwise fun r s => ¬ SameKey cs r s

instance (cs : List Column) (rows : List TableRow) : Decidable (KeysDiffer cs rows) :=
  inferInstanceAs (Decidable (List.Pairwise _ _))

/-- The rows of a table keep its constraints. -/
structure Table.Constrained (t : Table) : Prop where
  noNull : ∀ r ∈ t.rows, nullViolation t.columns r = none
  keys : KeysDiffer t.columns t.rows

namespace Table

def empty (columns : List Column) : Table := ⟨columns, [], by simp⟩

def names (t : Table) : List String := t.columns.map (·.name)

/-- The column an expression names and the table does not have. -/
def missing (t : Table) : Expr → Option String
  | .literal _ => none
  | .column name => if name ∈ t.names then none else some name

/-- `ADD COLUMN`: each row gets the column's default. -/
def addColumn (t : Table) (c : Column) : Table where
  columns := t.columns ++ [c]
  rows := t.rows.map (· ++ [c.default])
  wide := by
    intro r hr
    obtain ⟨s, hs, rfl⟩ := List.mem_map.mp hr
    simp [t.wide s hs]

/-- The row an `INSERT INTO t (names) ...` stores for `values`: a column
that is not listed gets its default. -/
def inserted (columns : List Column) (names : List String) (values : List Value) : TableRow :=
  columns.map fun c => ((names.zip values).lookup c.name).getD c.default

def append (t : Table) (names : List String) (values : List (List Value)) : Table where
  columns := t.columns
  rows := t.rows ++ values.map (inserted t.columns names)
  wide := by
    intro r hr
    rcases List.mem_append.mp hr with hold | hnew
    · exact t.wide r hold
    · obtain ⟨v, -, rfl⟩ := List.mem_map.mp hnew
      simp [inserted]

end Table

/-! ## Statements -/

inductive Stmt
  | createTable (ifNotExists : Bool) (name : String) (columns : List Column)
  | addColumn (table : String) (column : Column)
  /-- `INSERT INTO into (columns) SELECT select FROM source` -/
  | insertSelect (into : String) (columns : List String) (select : List Expr) (source : String)
  | dropTable (name : String)
  | renameTable (name target : String)
  /-- `DROP INDEX IF EXISTS` -/
  | dropIndex (name : String)
  /-- `CREATE INDEX IF NOT EXISTS` -/
  | createIndex (name : String) (index : Index)
  deriving DecidableEq, Repr

namespace Database

def setTable (db : Database) (name : String) (t : Option Table) : Database :=
  { db with tables := Function.update db.tables name t }

def setIndex (db : Database) (name : String) (i : Option Index) : Database :=
  { db with indexes := Function.update db.indexes name i }

@[simp] theorem setTable_same (db : Database) (name : String) (t : Option Table) :
    (db.setTable name t).tables name = t := by
  simp [setTable]

theorem setTable_other (db : Database) {name other : String} (t : Option Table) (h : other ≠ name) :
    (db.setTable name t).tables other = db.tables other := by
  simp [setTable, h]

@[simp] theorem setTable_setTable (db : Database) (name : String) (t u : Option Table) :
    (db.setTable name t).setTable name u = db.setTable name u := by
  simp [setTable]

@[simp] theorem setTable_indexes (db : Database) (name : String) (t : Option Table) :
    (db.setTable name t).indexes = db.indexes := rfl

@[simp] theorem setIndex_same (db : Database) (name : String) (i : Option Index) :
    (db.setIndex name i).indexes name = i := by
  simp [setIndex]

theorem setIndex_other (db : Database) {name other : String} (i : Option Index) (h : other ≠ name) :
    (db.setIndex name i).indexes other = db.indexes other := by
  simp [setIndex, h]

def createTable (db : Database) (ifNotExists : Bool) (name : String) (columns : List Column) :
    Except String Database :=
  match db.tables name with
  | some _ => if ifNotExists then .ok db else .error ("table " ++ name ++ " already exists")
  | none =>
      match db.indexes name with
      | some _ => .error ("there is already an index named " ++ name)
      | none => .ok (db.setTable name (some (Table.empty columns)))

def addColumn (db : Database) (table : String) (c : Column) : Except String Database :=
  match db.tables table with
  | none => .error ("no such table: " ++ table)
  | some t =>
      if c.name ∈ t.names then .error ("duplicate column name: " ++ c.name)
      else if c.primaryKey then .error "Cannot add a PRIMARY KEY column"
      else if c.notNull ∧ c.default = .null ∧ t.rows ≠ [] then
        .error "Cannot add a NOT NULL column with default value NULL"
      else .ok (db.setTable table (some (t.addColumn c)))

/-- The rows a `SELECT` yields, or the message about a column it names. -/
def selectFrom (t : Table) (select : List Expr) : Except String (List (List Value)) :=
  match select.findSome? t.missing with
  | some name => .error ("no such column: " ++ name)
  | none => .ok (t.rows.map fun r => select.map fun e => (e.eval t.columns r).getD .null)

/-- The constraint that the rows of `t` break. -/
def violation (name : String) (t : Table) : Option String :=
  match t.rows.findSome? (nullViolation t.columns) with
  | some c => some ("NOT NULL constraint failed: " ++ name ++ "." ++ c.name)
  | none =>
      if KeysDiffer t.columns t.rows then none
      else some ("UNIQUE constraint failed: " ++
        String.intercalate ", " ((keyColumns t.columns).map (name ++ "." ++ ·)))

def insertSelect (db : Database) (into : String) (columns : List String) (select : List Expr)
    (source : String) : Except String Database :=
  match db.tables into, db.tables source with
  | none, _ => .error ("no such table: " ++ into)
  | some _, none => .error ("no such table: " ++ source)
  | some t, some s =>
      match columns.find? (· ∉ t.names) with
      | some c => .error ("table " ++ into ++ " has no column named " ++ c)
      | none =>
          match selectFrom s select with
          | .error e => .error e
          | .ok values =>
              if select.length ≠ columns.length then
                .error (toString select.length ++ " values for " ++ toString columns.length ++ " columns")
              else
                match violation into (t.append columns values) with
                | some e => .error e
                | none => .ok (db.setTable into (some (t.append columns values)))

/-- A dropped table takes its indexes along. -/
def dropTable (db : Database) (name : String) : Except String Database :=
  match db.tables name with
  | none => .error ("no such table: " ++ name)
  | some _ => .ok
      { tables := Function.update db.tables name none
        indexes := fun n => (db.indexes n).filter (·.table ≠ name) }

/-- A renamed table takes its indexes along. -/
def renameTable (db : Database) (name target : String) : Except String Database :=
  match db.tables name with
  | none => .error ("no such table: " ++ name)
  | some t =>
      if (db.tables target).isSome ∨ (db.indexes target).isSome then
        .error ("there is already another table or index with this name: " ++ target)
      else .ok
        { tables := Function.update (Function.update db.tables name none) target (some t)
          indexes := fun n => (db.indexes n).map fun i => if i.table = name then { i with table := target } else i }

def dropIndex (db : Database) (name : String) : Database :=
  db.setIndex name none

def createIndex (db : Database) (name : String) (i : Index) : Except String Database :=
  match db.tables i.table with
  | none => .error ("no such table: main." ++ i.table)
  | some t =>
      if (db.tables name).isSome then .error ("there is already a table named " ++ name)
      else if (db.indexes name).isSome then .ok db
      else
        match i.columns.find? (· ∉ t.names) with
        | some c => .error ("no such column: " ++ c)
        | none => .ok (db.setIndex name (some i))

end Database

def Stmt.exec : Stmt → Database → Except String Database
  | .createTable ifNotExists name columns, db => db.createTable ifNotExists name columns
  | .addColumn table c, db => db.addColumn table c
  | .insertSelect into columns select source, db => db.insertSelect into columns select source
  | .dropTable name, db => db.dropTable name
  | .renameTable name target, db => db.renameTable name target
  | .dropIndex name, db => .ok (db.dropIndex name)
  | .createIndex name i, db => db.createIndex name i

/-! ## What the statements do -/

namespace Database

variable {db db' : Database} {name : String}

theorem createTable_exists {t : Table} (columns : List Column) (ht : db.tables name = some t) :
    db.createTable true name columns = .ok db := by
  simp [createTable, ht]

theorem createTable_new (ifNotExists : Bool) (columns : List Column) (ht : db.tables name = none)
    (hi : db.indexes name = none) :
    db.createTable ifNotExists name columns = .ok (db.setTable name (some (Table.empty columns))) := by
  simp [createTable, ht, hi]

theorem createTable_clash (columns : List Column) (ht : (db.tables name).isSome) :
    db.createTable false name columns = .error ("table " ++ name ++ " already exists") := by
  obtain ⟨t, ht⟩ := Option.isSome_iff_exists.mp ht
  simp [createTable, ht]

theorem addColumn_ok {t : Table} {c : Column} (ht : db.tables name = some t) (hname : c.name ∉ t.names)
    (hkey : c.primaryKey = false) (hnull : c.notNull = true → c.default ≠ .null) :
    db.addColumn name c = .ok (db.setTable name (some (t.addColumn c))) := by
  have hok : ¬ (c.notNull = true ∧ c.default = .null ∧ t.rows ≠ []) := fun h => hnull h.1 h.2.1
  simp only [addColumn, ht]
  rw [if_neg hname, if_neg (by simp [hkey]), if_neg hok]

theorem violation_eq_none {t : Table} (ht : t.Constrained) : violation name t = none := by
  have hnull : t.rows.findSome? (nullViolation t.columns) = none := by
    rw [List.findSome?_eq_none_iff]
    exact ht.noNull
  simp [violation, hnull, ht.keys]

theorem insertSelect_ok {into source : String} {t s : Table} {columns : List String} {select : List Expr}
    {values : List (List Value)} (ht : db.tables into = some t) (hs : db.tables source = some s)
    (hcolumns : ∀ c ∈ columns, c ∈ t.names) (hselect : selectFrom s select = .ok values)
    (hlen : select.length = columns.length) (hkept : (t.append columns values).Constrained) :
    db.insertSelect into columns select source =
      .ok (db.setTable into (some (t.append columns values))) := by
  have hfind : columns.find? (· ∉ t.names) = none := by
    rw [List.find?_eq_none]
    intro c hc
    simpa using hcolumns c hc
  simp only [insertSelect, ht, hs, hfind, hselect, hlen, violation_eq_none hkept]
  simp

theorem dropTable_ok {t : Table} (ht : db.tables name = some t) :
    db.dropTable name = .ok
      { tables := Function.update db.tables name none
        indexes := fun n => (db.indexes n).filter (·.table ≠ name) } := by
  simp [dropTable, ht]

theorem renameTable_ok {target : String} {t : Table} (ht : db.tables name = some t)
    (htable : db.tables target = none) (hindex : db.indexes target = none) :
    db.renameTable name target = .ok
      { tables := Function.update (Function.update db.tables name none) target (some t)
        indexes := fun n => (db.indexes n).map fun i => if i.table = name then { i with table := target } else i } := by
  simp [renameTable, ht, htable, hindex]

theorem createIndex_exists {i : Index} {t : Table} (ht : db.tables i.table = some t)
    (hname : db.tables name = none) (hi : (db.indexes name).isSome) :
    db.createIndex name i = .ok db := by
  simp [createIndex, ht, hname, hi]

theorem createIndex_new {i : Index} {t : Table} (ht : db.tables i.table = some t)
    (hname : db.tables name = none) (hi : db.indexes name = none) (hcols : ∀ c ∈ i.columns, c ∈ t.names) :
    db.createIndex name i = .ok (db.setIndex name (some i)) := by
  have hfind : i.columns.find? (· ∉ t.names) = none := by
    rw [List.find?_eq_none]
    intro c hc
    simpa using hcols c hc
  simp only [createIndex, ht, hname, hi, hfind]
  simp

end Database

/-- The statement takes this table away. -/
def Stmt.Removes (name : String) : Stmt → Prop
  | .dropTable n => n = name
  | .renameTable n _ => n = name
  | _ => False

theorem Stmt.exec_keeps {s : Stmt} {db db' : Database} {name : String} (hs : ¬ s.Removes name)
    (ht : (db.tables name).isSome) (h : s.exec db = .ok db') : (db'.tables name).isSome := by
  have hset : ∀ (other : String) (t : Table), ((db.setTable other (some t)).tables name).isSome := by
    intro other t
    by_cases heq : name = other
    · simp [heq]
    · rw [Database.setTable_other _ _ heq]
      exact ht
  cases s with
  | createTable ifNotExists other columns =>
    simp only [Stmt.exec, Database.createTable] at h
    split at h
    · split at h <;> cases h
      exact ht
    · split at h <;> cases h
      exact hset _ _
  | addColumn other c =>
    simp only [Stmt.exec, Database.addColumn] at h
    split at h
    · cases h
    · split_ifs at h
      cases h
      exact hset _ _
  | insertSelect into columns select source =>
    simp only [Stmt.exec, Database.insertSelect] at h
    split at h
    · cases h
    · cases h
    · split at h
      · cases h
      · split at h
        · cases h
        · split_ifs at h
          split at h <;> cases h
          exact hset _ _
  | dropTable other =>
    simp only [Stmt.exec, Database.dropTable] at h
    split at h <;> cases h
    simpa [Function.update_of_ne (Ne.symm hs)] using ht
  | renameTable other target =>
    simp only [Stmt.exec, Database.renameTable] at h
    split at h
    · cases h
    · split_ifs at h
      cases h
      by_cases heq : name = target
      · simp [heq]
      · simpa [Function.update_of_ne heq, Function.update_of_ne (Ne.symm hs)] using ht
  | dropIndex other =>
    cases h
    exact ht
  | createIndex other i =>
    simp only [Stmt.exec, Database.createIndex] at h
    split at h
    · cases h
    · split_ifs at h
      · cases h
        exact ht
      · split at h <;> cases h
        exact ht

end ZcashFaucet.Lib.Tables
