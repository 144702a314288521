/-
ZcashFaucet.Db.Migrations — how the SQLite driver brings a ledger up to
the current schema (src/src/lib/db/driver.ts, src/src/lib/db/sql.ts).

A boot executes SCHEMA, then each migration whose column is missing, then
INDEXES. `db.exec` commits statement by statement, so a boot is a machine
with a budget of statements and a process that dies leaves the database
as the last statement left it.

`Legacy` describes the databases older releases have left behind.
-/
import ZcashFaucet.Lib.CrashStop
import ZcashFaucet.Lib.Tables

namespace ZcashFaucet.Db.Migrations

open ZcashFaucet.Lib ZcashFaucet.Lib.Tables

/-! ## The schema -/

def column (name type : String) (notNull : Bool) (default : Value) : Column :=
  ⟨name, type, notNull, default, false⟩

def keyColumn (name type : String) (notNull : Bool) : Column :=
  ⟨name, type, notNull, .null, true⟩

/-- The claims table before any migration. -/
def claimsBefore : List Column := [
  keyColumn "id" "INTEGER" false,
  column "address_hash" "TEXT" true .null,
  column "ip_hash" "TEXT" true .null,
  column "amount_zat" "INTEGER" true .null,
  column "txid" "TEXT" false .null,
  column "status" "TEXT" true (.text "pending"),
  column "created_at" "INTEGER" true .null]

def subnetHash : Column := column "subnet_hash" "TEXT" false .null

def network : Column := column "network" "TEXT" true (.text "taz")

def claimsColumns : List Column := claimsBefore ++ [subnetHash, network]

def usedChallengesColumns : List Column := [
  keyColumn "sig" "TEXT" false,
  column "exp" "INTEGER" true .null]

def dripDaysColumns : List Column := [
  keyColumn "network" "TEXT" true,
  keyColumn "day" "TEXT" true,
  column "sent" "INTEGER" true (.integer 0)]

/-- The drip counts before the network split, keyed on the day alone. -/
def dripDaysBefore : List Column := [
  keyColumn "day" "TEXT" true,
  column "sent" "INTEGER" true (.integer 0)]

def feedbackColumns : List Column := [
  keyColumn "id" "INTEGER" false,
  column "created_at" "INTEGER" true .null,
  column "body" "TEXT" true .null,
  column "reply_to" "TEXT" false .null,
  column "ip_hash" "TEXT" false .null,
  column "sent_at" "INTEGER" false .null,
  column "attempts" "INTEGER" true (.integer 0),
  column "last_error" "TEXT" false .null]

def SCHEMA : List Stmt := [
  .createTable true "claims" claimsColumns,
  .createTable true "used_challenges" usedChallengesColumns,
  .createTable true "drip_days" dripDaysColumns,
  .createTable true "feedback" feedbackColumns]

/-! ## Migrations and indexes -/

structure PresentWhen where
  table : String
  column : String
  deriving DecidableEq, Repr

/-- A schema change for databases that already exist; it is already
applied when its column is there. -/
structure Migration where
  id : String
  presentWhen : PresentWhen
  sql : List Stmt

/-- The rebuild of `drip_days`: its key has to change, which ADD COLUMN
cannot do. -/
def rebuildDripDays : List Stmt := [
  .createTable false "drip_days_rebuild" dripDaysColumns,
  .insertSelect "drip_days_rebuild" ["network", "day", "sent"]
    [.literal (.text "taz"), .column "day", .column "sent"] "drip_days",
  .dropTable "drip_days",
  .renameTable "drip_days_rebuild" "drip_days"]

def claimsSubnetHash : Migration :=
  ⟨"claims.subnet_hash", ⟨"claims", "subnet_hash"⟩, [.addColumn "claims" subnetHash]⟩

def claimsNetwork : Migration :=
  ⟨"claims.network", ⟨"claims", "network"⟩, [.addColumn "claims" network]⟩

def dripDaysNetwork : Migration :=
  ⟨"drip_days.network", ⟨"drip_days", "network"⟩, rebuildDripDays⟩

def MIGRATIONS : List Migration := [claimsSubnetHash, claimsNetwork, dripDaysNetwork]

/-- The indexes of the current schema. -/
def declaredIndexes : List (String × Index) := [
  ("idx_claims_addr_net", ⟨"claims", ["address_hash", "network", "created_at"]⟩),
  ("idx_claims_iphash", ⟨"claims", ["ip_hash", "created_at"]⟩),
  ("idx_claims_created", ⟨"claims", ["created_at"]⟩),
  ("idx_used_exp", ⟨"used_challenges", ["exp"]⟩),
  ("idx_feedback_undelivered", ⟨"feedback", ["sent_at", "created_at"]⟩)]

def INDEXES : List Stmt :=
  .dropIndex "idx_claims_addrhash" :: declaredIndexes.map fun i => .createIndex i.1 i.2

/-! ## A boot -/

/-- `PRAGMA table_info(table)`: no rows for a table that does not exist. -/
def tableColumns (db : Database) (table : String) : List String :=
  ((db.tables table).map Table.names).getD []

/-- One turn of the loop in `migrate`. -/
def migrateOne (m : Machine Database) (g : Migration) : Machine Database :=
  if g.presentWhen.column ∈ tableColumns m.state g.presentWhen.table then m
  else m.execAll Stmt.exec g.sql

def migrate (m : Machine Database) : Machine Database :=
  MIGRATIONS.foldl migrateOne m

/-- The constructor of `SqliteDriver`. The process gets to execute `cut`
statements before it dies; `none` for a boot that nothing interrupts. -/
def boot (cut : Option Nat) (db : Database) : Machine Database :=
  (migrate ((Machine.start db cut).execAll Stmt.exec SCHEMA)).execAll Stmt.exec INDEXES

/-- The database that boots, cut off as told, leave behind. -/
def reboots (db : Database) (cuts : List (Option Nat)) : Database :=
  cuts.foldl (fun db cut => (boot cut db).state) db

/-- No file yet. -/
def noDatabase : Database := ⟨fun _ => none, fun _ => none⟩

/-- What the current release creates where nothing was. -/
def fresh : Database := (boot none noDatabase).state

/-! ## The databases a boot may find -/

/-- The columns migrations may have added to `claims`, in the order they
were added. -/
def claimsAdditions : List (List Column) :=
  [[], [subnetHash], [network], [subnetHash, network], [network, subnetHash]]

/-- The index of older releases that INDEXES drops. -/
def staleIndex : String × Index := ("idx_claims_addrhash", ⟨"claims", ["address_hash", "created_at"]⟩)

/-- A table as some release has left it. -/
inductive LegacyTable : String → Table → Prop
  | claims {t : Table} (added : List Column) (hadded : added ∈ claimsAdditions)
      (columns : t.columns = claimsBefore ++ added) : LegacyTable "claims" t
  | usedChallenges {t : Table} (columns : t.columns = usedChallengesColumns) :
      LegacyTable "used_challenges" t
  | dripDaysBefore {t : Table} (columns : t.columns = dripDaysBefore) (constrained : t.Constrained) :
      LegacyTable "drip_days" t
  | dripDays {t : Table} (columns : t.columns = dripDaysColumns) (constrained : t.Constrained) :
      LegacyTable "drip_days" t
  | feedback {t : Table} (columns : t.columns = feedbackColumns) : LegacyTable "feedback" t

/-- A database the current release or one before it has left behind: any
of the tables, with any rows, and `claims` and `drip_days` possibly
without the columns of some migrations. -/
structure Legacy (db : Database) : Prop where
  tables : ∀ name, ∀ t ∈ db.tables name, LegacyTable name t
  indexes : ∀ name, ∀ i ∈ db.indexes name, (name, i) ∈ staleIndex :: declaredIndexes

/-- The migration of this column is still to be applied. -/
def Lacks (db : Database) (table column : String) : Prop :=
  ∃ t ∈ db.tables table, column ∉ t.names

instance (db : Database) (table column : String) : Decidable (Lacks db table column) :=
  match h : db.tables table with
  | none => isFalse (by rintro ⟨t, ht, -⟩; rw [h] at ht; cases ht)
  | some t => decidable_of_iff (column ∉ t.names) (by simp [Lacks, h])

/-! ## Where a boot must not be cut off -/

/-- How many statements a boot executes before the rebuild of `drip_days`. -/
def beforeRebuild (db : Database) : Nat :=
  SCHEMA.length + (if Lacks db "claims" "subnet_hash" then 1 else 0) +
    (if Lacks db "claims" "network" then 1 else 0)

/-- The boot rebuilds `drip_days` and dies after the CREATE and before the
RENAME. -/
def CutsRebuild (cut : Option Nat) (db : Database) : Prop :=
  Lacks db "drip_days" "network" ∧
    ∃ n ∈ cut, beforeRebuild db < n ∧ n < beforeRebuild db + rebuildDripDays.length

/-- No boot of the history is cut off inside the rebuild. -/
def SparesRebuild : List (Option Nat) → Database → Prop
  | [], _ => True
  | cut :: cuts, db => ¬ CutsRebuild cut db ∧ SparesRebuild cuts (boot cut db).state

/-! ## What a later boot should leave -/

/-- A row of `claims` as the current schema reads it. A row that is older
than a column has NULL there, and `network` is 'taz'. -/
def claimRow (columns : List Column) (r : TableRow) : List Value :=
  claimsColumns.map fun c => (cell columns r c.name).getD (if c.name = "network" then .text "taz" else .null)

def claimRows (db : Database) : List (List Value) :=
  match db.tables "claims" with
  | none => []
  | some t => t.rows.map (claimRow t.columns)

/-- A drip count as network, day and number; a count that is older than
the network split is under 'taz'. -/
def dripRow (columns : List Column) (r : TableRow) : List Value :=
  [(cell columns r "network").getD (.text "taz"), (cell columns r "day").getD .null,
    (cell columns r "sent").getD .null]

def dripRows (db : Database) : List (List Value) :=
  match db.tables "drip_days" with
  | none => []
  | some t => t.rows.map (dripRow t.columns)

/-- The columns of a table, if it exists. -/
def columnsOf (db : Database) (table : String) : Option (List Column) :=
  (db.tables table).map (·.columns)

/-- Same tables, each with the same columns, and same indexes. -/
def SameShape (db db' : Database) : Prop :=
  (∀ table, Option.Rel List.Perm (columnsOf db table) (columnsOf db' table)) ∧ db.indexes = db'.indexes

/-- The same columns in the same order as well. -/
def SameOrderedShape (db db' : Database) : Prop :=
  (∀ table, columnsOf db table = columnsOf db' table) ∧ db.indexes = db'.indexes

/-- A complete boot after `cuts` succeeds, leaves the shape of a fresh
database and keeps every claim and every drip count of `db`. -/
def Converges (shape : Database → Database → Prop) (db : Database) (cuts : List (Option Nat)) : Prop :=
  let last := boot none (reboots db cuts)
  last.halted = none ∧ shape last.state fresh ∧ claimRows last.state = claimRows db ∧
    dripRows last.state = dripRows db

/-- `claims` got its `network` column before `subnet_hash`. -/
def NetworkFirst (db : Database) : Prop :=
  ∃ t ∈ db.tables "claims", ∃ later, t.columns = claimsBefore ++ network :: later

end ZcashFaucet.Db.Migrations
