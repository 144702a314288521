/-
ZcashFaucet.Db.MigrationsTheorems — what boots do to the databases of
older releases.

A boot that is not cut off inside the rebuild of `drip_days` leaves a
`Legacy` database that reads the same (`kept_boot`), whatever statement it
is cut off at. A boot that is leaves the table `drip_days_rebuild` behind,
and no later boot takes it away (`boot_keeps_rebuild`). So a history of
boots converges exactly when it spares the rebuild.
-/
import ZcashFaucet.Db.Migrations

namespace ZcashFaucet.Db.Migrations

open ZcashFaucet.Lib ZcashFaucet.Lib.Machine ZcashFaucet.Lib.Tables

variable {db start : Database} {cut : Option Nat}

/-! ## Legacy databases -/

theorem LegacyTable.known {name : String} {t : Table} (h : LegacyTable name t) :
    name ∈ ["claims", "used_challenges", "drip_days", "feedback"] := by
  cases h <;> simp

theorem Legacy.unknown (h : Legacy db) {name : String}
    (hname : name ∉ ["claims", "used_challenges", "drip_days", "feedback"]) : db.tables name = none := by
  cases ht : db.tables name with
  | none => rfl
  | some t => exact absurd (h.tables name t ht).known hname

theorem Legacy.unindexed (h : Legacy db) {name : String}
    (hname : name ∉ (staleIndex :: declaredIndexes).map (·.1)) : db.indexes name = none := by
  cases hi : db.indexes name with
  | none => rfl
  | some i => exact absurd (List.mem_map.mpr ⟨_, h.indexes name i hi, rfl⟩) hname

theorem Legacy.setTable (h : Legacy db) {name : String} {t : Table} (ht : LegacyTable name t) :
    Legacy (db.setTable name (some t)) := by
  refine ⟨fun other s hs => ?_, h.indexes⟩
  by_cases heq : other = name
  · subst heq
    rw [Database.setTable_same] at hs
    cases hs
    exact ht
  · rw [Database.setTable_other _ _ heq] at hs
    exact h.tables other s hs

theorem LegacyTable.claims_columns {name : String} {t : Table} (h : LegacyTable name t) (hname : name = "claims") :
    ∃ added ∈ claimsAdditions, t.columns = claimsBefore ++ added := by
  cases h with
  | claims added hadded columns => exact ⟨added, hadded, columns⟩
  | _ => exact absurd hname (by decide)

theorem LegacyTable.dripDays_columns {name : String} {t : Table} (h : LegacyTable name t)
    (hname : name = "drip_days") :
    (t.columns = Migrations.dripDaysBefore ∨ t.columns = dripDaysColumns) ∧ t.Constrained := by
  cases h with
  | dripDaysBefore columns constrained => exact ⟨.inl columns, constrained⟩
  | dripDays columns constrained => exact ⟨.inr columns, constrained⟩
  | _ => exact absurd hname (by decide)

theorem LegacyTable.usedChallenges_columns {name : String} {t : Table} (h : LegacyTable name t)
    (hname : name = "used_challenges") : t.columns = usedChallengesColumns := by
  cases h with
  | usedChallenges columns => exact columns
  | _ => exact absurd hname (by decide)

theorem LegacyTable.feedback_columns {name : String} {t : Table} (h : LegacyTable name t)
    (hname : name = "feedback") : t.columns = feedbackColumns := by
  cases h with
  | feedback columns => exact columns
  | _ => exact absurd hname (by decide)

theorem legacy_noDatabase : Legacy noDatabase := by
  constructor
  · intro name t ht
    cases ht
  · intro name i hi
    cases hi

/-! ## What a statement must keep -/

/-- The database reads as the one the history began with. -/
structure Kept (start db : Database) : Prop where
  legacy : Legacy db
  claims : claimRows db = claimRows start
  drips : dripRows db = dripRows start
  order : NetworkFirst db ↔ NetworkFirst start

theorem kept_refl (h : Legacy db) : Kept db db := ⟨h, rfl, rfl, Iff.rfl⟩

/-- The migration is still to be applied. -/
def Waits (db : Database) (g : Migration) : Prop := Lacks db g.presentWhen.table g.presentWhen.column

def tableNames : List String := ["claims", "used_challenges", "drip_days", "feedback"]

/-- All tables are there. -/
def Created (db : Database) : Prop := ∀ name ∈ tableNames, (db.tables name).isSome

/-! ## SCHEMA -/

theorem claimRows_other {name : String} (t : Option Table) (h : name ≠ "claims") :
    claimRows (db.setTable name t) = claimRows db := by
  unfold claimRows
  rw [Database.setTable_other _ _ h.symm]

theorem dripRows_other {name : String} (t : Option Table) (h : name ≠ "drip_days") :
    dripRows (db.setTable name t) = dripRows db := by
  unfold dripRows
  rw [Database.setTable_other _ _ h.symm]

theorem networkFirst_other {name : String} (t : Option Table) (h : name ≠ "claims") :
    NetworkFirst (db.setTable name t) ↔ NetworkFirst db := by
  unfold NetworkFirst
  rw [Database.setTable_other _ _ h.symm]

/-- The statements of SCHEMA. -/
def schemaTables : List (String × List Column) := [
  ("claims", claimsColumns), ("used_challenges", usedChallengesColumns),
  ("drip_days", dripDaysColumns), ("feedback", feedbackColumns)]

theorem constrained_empty (columns : List Column) : (Table.empty columns).Constrained :=
  ⟨by simp [Table.empty], List.Pairwise.nil⟩

theorem legacyTable_empty {s : String × List Column} (hs : s ∈ schemaTables) :
    LegacyTable s.1 (Table.empty s.2) := by
  simp only [schemaTables, List.mem_cons, List.not_mem_nil, or_false] at hs
  rcases hs with rfl | rfl | rfl | rfl
  · exact .claims [subnetHash, network] (by simp [claimsAdditions]) rfl
  · exact .usedChallenges rfl
  · exact .dripDays rfl (constrained_empty _)
  · exact .feedback rfl

/-- A new table has the columns the migrations ask for. -/
theorem migrated_empty : ∀ s ∈ schemaTables, ∀ g ∈ MIGRATIONS,
    g.presentWhen.table = s.1 → g.presentWhen.column ∈ (Table.empty s.2).names := by
  decide

/-- No index has the name of a table. -/
theorem unindexed_table : ∀ s ∈ schemaTables, s.1 ∉ (staleIndex :: declaredIndexes).map (·.1) := by
  decide

theorem not_networkFirst_claimsColumns (later : List Column) :
    claimsColumns ≠ claimsBefore ++ network :: later := by
  intro h
  have hcons := List.append_cancel_left h
  exact absurd (List.cons.inj hcons).1 (by decide)

theorem columns_claims : ∀ s ∈ schemaTables, s.1 = "claims" → s.2 = claimsColumns := by
  decide

theorem create_kept {s : String × List Column} (hs : s ∈ schemaTables) (hdb : Kept start db) :
    ∃ db', Stmt.exec (.createTable true s.1 s.2) db = .ok db' ∧ Kept start db' ∧ (db'.tables s.1).isSome ∧
      (∀ name, (db.tables name).isSome → (db'.tables name).isSome) ∧
      ∀ g ∈ MIGRATIONS, Waits db' g ↔ Waits db g := by
  cases ht : db.tables s.1 with
  | some t =>
    refine ⟨db, Database.createTable_exists s.2 ht, hdb, by simp [ht], fun _ h => h, fun _ _ => Iff.rfl⟩
  | none =>
    have hindex : db.indexes s.1 = none := hdb.legacy.unindexed (unindexed_table s hs)
    refine ⟨_, Database.createTable_new true s.2 ht hindex, ⟨hdb.legacy.setTable (legacyTable_empty hs), ?_, ?_, ?_⟩,
      by simp, fun name hname => ?_, fun g hg => ?_⟩
    · rw [← hdb.claims]
      by_cases heq : s.1 = "claims"
      · rw [heq] at ht ⊢
        simp [claimRows, ht, Table.empty]
      · exact claimRows_other _ heq
    · rw [← hdb.drips]
      by_cases heq : s.1 = "drip_days"
      · rw [heq] at ht ⊢
        simp [dripRows, ht, Table.empty]
      · exact dripRows_other _ heq
    · rw [← hdb.order]
      by_cases heq : s.1 = "claims"
      · have hcolumns := columns_claims s hs heq
        rw [heq] at ht ⊢
        constructor
        · rintro ⟨t, hnew, later, hlater⟩
          rw [Database.setTable_same] at hnew
          cases hnew
          rw [hcolumns] at hlater
          exact absurd hlater (not_networkFirst_claimsColumns later)
        · rintro ⟨t, hold, -⟩
          rw [ht] at hold
          cases hold
      · exact networkFirst_other _ heq
    · by_cases heq : name = s.1
      · subst heq
        simp
      · rw [Database.setTable_other _ _ heq]
        exact hname
    · unfold Waits Lacks
      by_cases heq : g.presentWhen.table = s.1
      · rw [heq, Database.setTable_same, ht]
        simp [migrated_empty s hs g hg heq]
      · rw [Database.setTable_other _ _ heq]

/-- What is known of a database while a boot of `db0` works on it: the
tables `created` are there, and the migrations `applied` no longer wait. -/
structure Progress (db0 : Database) (created : List String) (applied : List PresentWhen) (db : Database) :
    Prop where
  created : ∀ name ∈ created, (db.tables name).isSome
  waits : ∀ g ∈ MIGRATIONS, Waits db g ↔ g.presentWhen ∉ applied ∧ Waits db0 g

theorem schema_step {db0 : Database} {names : List String} {m : Machine Database} {s : String × List Column}
    (hs : s ∈ schemaTables) (hm : Reaches (Kept start) (Progress db0 names []) m) :
    Reaches (Kept start) (Progress db0 (s.1 :: names) []) (m.exec Stmt.exec (.createTable true s.1 s.2)) := by
  refine hm.exec fun db hkept hprogress => ?_
  obtain ⟨db', hexec, hkept', hnew, hold, hwaits⟩ := create_kept hs hkept
  refine ⟨db', hexec, hkept', fun name hname => ?_, fun g hg => (hwaits g hg).trans (hprogress.waits g hg)⟩
  rcases List.mem_cons.mp hname with rfl | hmem
  · exact hnew
  · exact hold name (hprogress.created name hmem)

theorem schema_reaches (hdb : Kept start db) :
    Reaches (Kept start) (Progress db tableNames []) ((Machine.start db cut).execAll Stmt.exec SCHEMA) := by
  have hstart : Reaches (Kept start) (Progress db [] []) (Machine.start db cut) :=
    reaches_start cut hdb ⟨by simp, by simp⟩
  have hclaims := schema_step (s := ("claims", claimsColumns)) (by simp [schemaTables]) hstart
  have hused := schema_step (s := ("used_challenges", usedChallengesColumns)) (by simp [schemaTables]) hclaims
  have hdrip := schema_step (s := ("drip_days", dripDaysColumns)) (by simp [schemaTables]) hused
  have hfeedback := schema_step (s := ("feedback", feedbackColumns)) (by simp [schemaTables]) hdrip
  refine hfeedback.weaken fun _ h => ⟨fun name hname => h.created name ?_, h.waits⟩
  revert hname name
  decide

/-! ## The migrations of `claims` -/

/-- What `ALTER TABLE claims ADD COLUMN` may add. -/
def claimsMigrated : List Column := [subnetHash, network]

theorem additions_snoc : ∀ added ∈ claimsAdditions, ∀ c ∈ claimsMigrated,
    c.name ∉ (claimsBefore ++ added).map (·.name) → added ++ [c] ∈ claimsAdditions := by
  decide

theorem head_additions_snoc : ∀ added ∈ claimsAdditions, ∀ c ∈ claimsMigrated,
    c.name ∉ (claimsBefore ++ added).map (·.name) →
      (c = network → "subnet_hash" ∈ (claimsBefore ++ added).map (·.name)) →
        ((added ++ [c]).head? = some network ↔ added.head? = some network) := by
  decide

theorem networkFirst_iff {t : Table} {added : List Column} (ht : db.tables "claims" = some t)
    (hcolumns : t.columns = claimsBefore ++ added) : NetworkFirst db ↔ added.head? = some network := by
  constructor
  · rintro ⟨s, hs, later, hlater⟩
    rw [ht] at hs
    cases hs
    rw [hcolumns] at hlater
    rw [List.append_cancel_left hlater]
    rfl
  · intro hhead
    obtain ⟨later, rfl⟩ := List.head?_eq_some_iff.mp hhead
    exact ⟨t, ht, later, hcolumns⟩

/-- A new column does not change how the current schema reads a row: its
default is what the row was read with. -/
theorem claimRow_snoc {columns : List Column} {c : Column} {r : TableRow} (hc : c ∈ claimsMigrated)
    (hlen : r.length = columns.length) :
    claimRow (columns ++ [c]) (r ++ [c.default]) = claimRow columns r := by
  have hdefault : ∀ c ∈ claimsMigrated,
      c.default = if c.name = "network" then Value.text "taz" else .null := by
    decide
  unfold claimRow
  refine List.map_congr_left fun d _ => ?_
  by_cases hd : d.name ∈ columns.map (·.name)
  · rw [cell_append_left hlen hd]
  · have hnone : cell columns r d.name = none := by
      rw [← Option.not_isSome_iff_eq_none, cell_isSome_iff hlen]
      exact hd
    rw [cell_append_right hlen hd, hnone]
    by_cases heq : c.name = d.name
    · simp [cell, ← heq, hdefault c hc]
    · simp [cell, heq]

theorem addColumn_kept {c : Column} {t : Table} (hc : c ∈ claimsMigrated) (hdb : Kept start db)
    (ht : db.tables "claims" = some t) (hnew : c.name ∉ t.names)
    (hsubnet : c = network → "subnet_hash" ∈ t.names) :
    ∃ db', Stmt.exec (.addColumn "claims" c) db = .ok db' ∧ Kept start db' ∧
      db' = db.setTable "claims" (some (t.addColumn c)) := by
  obtain ⟨added, hadded, hcolumns⟩ := (hdb.legacy.tables _ t ht).claims_columns rfl
  have hplain : ∀ c ∈ claimsMigrated, c.primaryKey = false ∧ (c.notNull = true → c.default ≠ .null) := by
    decide
  have hcolumns' : (t.addColumn c).columns = claimsBefore ++ (added ++ [c]) := by
    simp [Table.addColumn, hcolumns]
  rw [Table.names, hcolumns] at hnew hsubnet
  refine ⟨_, Database.addColumn_ok ht (by rw [Table.names, hcolumns]; exact hnew) (hplain c hc).1 (hplain c hc).2,
    ⟨?_, ?_, ?_, ?_⟩, rfl⟩
  · exact hdb.legacy.setTable (.claims (added ++ [c]) (additions_snoc added hadded c hc hnew) hcolumns')
  · rw [← hdb.claims]
    unfold claimRows
    rw [Database.setTable_same, ht]
    simp only [Table.addColumn, List.map_map]
    exact List.map_congr_left fun r hr => claimRow_snoc hc (t.wide r hr)
  · rw [← hdb.drips]
    exact dripRows_other _ (by decide)
  · rw [← hdb.order, networkFirst_iff ht hcolumns, networkFirst_iff (Database.setTable_same _ _ _) hcolumns']
    exact head_additions_snoc added hadded c hc hnew hsubnet

/-- A migration of `claims`: one column, added when it is not there. -/
structure AddsToClaims (g : Migration) (c : Column) : Prop where
  column : c ∈ claimsMigrated
  sql : g.sql = [.addColumn "claims" c]
  presentWhen : g.presentWhen = ⟨"claims", c.name⟩

theorem addsToClaims_subnetHash : AddsToClaims claimsSubnetHash subnetHash := ⟨by decide, rfl, rfl⟩

theorem addsToClaims_network : AddsToClaims claimsNetwork network := ⟨by decide, rfl, rfl⟩

theorem tableColumns_of_some {name : String} {t : Table} (ht : db.tables name = some t) :
    tableColumns db name = t.names := by
  simp [tableColumns, ht]

theorem waits_iff {g : Migration} {t : Table} (ht : db.tables g.presentWhen.table = some t) :
    Waits db g ↔ g.presentWhen.column ∉ t.names := by
  simp [Waits, Lacks, ht]

theorem migrateOne_present {m : Machine Database} {g : Migration}
    (h : g.presentWhen.column ∈ tableColumns m.state g.presentWhen.table) : migrateOne m g = m :=
  if_pos h

theorem migrateOne_absent {m : Machine Database} {g : Migration}
    (h : g.presentWhen.column ∉ tableColumns m.state g.presentWhen.table) :
    migrateOne m g = m.execAll Stmt.exec g.sql :=
  if_neg h

theorem migrateOne_halted {m : Machine Database} {g : Migration} {h : Halt} (hm : m.halted = some h) :
    migrateOne m g = m := by
  unfold migrateOne
  split
  · rfl
  · exact execAll_halted hm _

theorem names_addColumn (t : Table) (c : Column) : (t.addColumn c).names = t.names ++ [c.name] := by
  simp [Table.names, Table.addColumn]

theorem waits_addColumn {g : Migration} {c : Column} {name : String} {t : Table} (ht : db.tables name = some t) :
    Waits (db.setTable name (some (t.addColumn c))) g ↔ g.presentWhen ≠ ⟨name, c.name⟩ ∧ Waits db g := by
  by_cases htable : g.presentWhen.table = name
  · have hnew : (db.setTable name (some (t.addColumn c))).tables g.presentWhen.table = some (t.addColumn c) := by
      rw [htable]
      exact Database.setTable_same _ _ _
    have hold : db.tables g.presentWhen.table = some t := by
      rw [htable]
      exact ht
    have hpresent : g.presentWhen = ⟨name, c.name⟩ ↔ g.presentWhen.column = c.name := by
      constructor
      · intro h
        rw [h]
      · intro h
        rw [← h, ← htable]
    rw [waits_iff hnew, waits_iff hold, names_addColumn, ne_eq, hpresent]
    simp [and_comm]
  · have hne : g.presentWhen ≠ ⟨name, c.name⟩ := fun h => htable (by rw [h])
    unfold Waits Lacks
    rw [Database.setTable_other _ _ htable]
    simp [hne]

/-- Adding the column of `g` applies `g` and no other migration. -/
theorem progress_addColumn {db0 : Database} {applied : List PresentWhen} {c : Column} {t : Table}
    (hdb : Progress db0 tableNames applied db) (ht : db.tables "claims" = some t) :
    Progress db0 tableNames (⟨"claims", c.name⟩ :: applied)
      (db.setTable "claims" (some (t.addColumn c))) := by
  constructor
  · intro name hname
    by_cases heq : name = "claims"
    · simp [heq]
    · rw [Database.setTable_other _ _ heq]
      exact hdb.created name hname
  · intro g hg
    rw [waits_addColumn ht, hdb.waits g hg, List.mem_cons, not_or, and_assoc]

/-- One of the two migrations of `claims`. The one for `network` comes
after the one for `subnet_hash`. -/
theorem migrateOne_claims {db0 : Database} {applied : List PresentWhen} {g : Migration} {c : Column}
    {m : Machine Database} (hg : AddsToClaims g c)
    (horder : c = network → claimsSubnetHash.presentWhen ∈ applied)
    (hm : Reaches (Kept start) (Progress db0 tableNames applied) m) :
    Reaches (Kept start) (Progress db0 tableNames (g.presentWhen :: applied)) (migrateOne m g) := by
  cases hrun : m.halted with
  | some halt =>
    rw [migrateOne_halted hrun]
    exact hm.halted hrun
  | none =>
    have hprogress := hm.here hrun
    obtain ⟨t, ht⟩ := Option.isSome_iff_exists.mp (hprogress.created "claims" (by decide))
    have hwaits : Waits m.state g ↔ c.name ∉ t.names := by
      rw [waits_iff (t := t) (by rw [hg.presentWhen]; exact ht), hg.presentWhen]
    have hcolumns : tableColumns m.state g.presentWhen.table = t.names := by
      rw [hg.presentWhen]
      exact tableColumns_of_some ht
    by_cases hpresent : c.name ∈ t.names
    · rw [migrateOne_present (by rw [hcolumns, hg.presentWhen]; exact hpresent)]
      refine hm.weaken fun _ h => ⟨h.created, fun g' hg' => ?_⟩
      rw [h.waits g' hg', List.mem_cons, not_or]
      refine ⟨fun h' => ⟨⟨fun heq => ?_, h'.1⟩, h'.2⟩, fun h' => ⟨h'.1.2, h'.2⟩⟩
      have hwaits' : Waits m.state g ↔ Waits m.state g' := by
        unfold Waits
        rw [heq]
      exact (hwaits.mp (hwaits'.mpr ((h.waits g' hg').mpr h'))) hpresent
    · rw [migrateOne_absent (by rw [hcolumns, hg.presentWhen]; exact hpresent), hg.sql]
      have hstate : Reaches (Kept start) (fun db => Progress db0 tableNames applied db ∧
          db.tables "claims" = some t) m := hm.weaken fun _ h => ⟨h, ht⟩
      refine hstate.exec fun db hkept hdb => ?_
      have hsubnet : c = network → "subnet_hash" ∈ t.names := by
        intro hc
        by_contra habsent
        have hold : db.tables claimsSubnetHash.presentWhen.table = some t := hdb.2
        have hwait := (hdb.1.waits claimsSubnetHash (by simp [MIGRATIONS])).mp ((waits_iff hold).mpr habsent)
        exact hwait.1 (horder hc)
      obtain ⟨db', hexec, hkept', rfl⟩ := addColumn_kept hg.column hkept hdb.2 hpresent hsubnet
      refine ⟨_, hexec, hkept', ?_⟩
      rw [hg.presentWhen]
      exact progress_addColumn hdb.1 hdb.2

/-- The statements of a migration count when it is applied. -/
theorem migrateOne_spent {k : Nat} {g : Migration} {m : Machine Database} {waits : Prop} [Decidable waits]
    (hm : Spent cut k m)
    (hwaits : m.halted = none → (g.presentWhen.column ∉ tableColumns m.state g.presentWhen.table ↔ waits)) :
    Spent cut (k + if waits then g.sql.length else 0) (migrateOne m g) := by
  cases hrun : m.halted with
  | some halt =>
    rw [migrateOne_halted hrun]
    exact hm.mono (Nat.le_add_right _ _) hrun
  | none =>
    by_cases h : waits
    · rw [if_pos h, migrateOne_absent ((hwaits hrun).mpr h)]
      exact hm.execAll g.sql
    · have hpresent := mt (hwaits hrun).mp h
      rw [if_neg h, migrateOne_present (not_not.mp hpresent)]
      exact hm

/-! ## The boot up to the rebuild -/

/-- A boot when it gets to the migration of `drip_days`. -/
def atRebuild (cut : Option Nat) (db : Database) : Machine Database :=
  migrateOne (migrateOne ((Machine.start db cut).execAll Stmt.exec SCHEMA) claimsSubnetHash) claimsNetwork

theorem boot_eq (cut : Option Nat) (db : Database) :
    boot cut db = (migrateOne (atRebuild cut db) dripDaysNetwork).execAll Stmt.exec INDEXES := by
  rw [boot, migrate, MIGRATIONS, List.foldl_cons, List.foldl_cons, List.foldl_cons, List.foldl_nil,
    atRebuild]

theorem afterSubnetHash_reaches (hdb : Kept start db) :
    Reaches (Kept start) (Progress db tableNames [claimsSubnetHash.presentWhen])
      (migrateOne ((Machine.start db cut).execAll Stmt.exec SCHEMA) claimsSubnetHash) :=
  migrateOne_claims addsToClaims_subnetHash (fun h => absurd h (by decide))
    (schema_reaches hdb)

theorem atRebuild_reaches (hdb : Kept start db) :
    Reaches (Kept start) (Progress db tableNames [claimsNetwork.presentWhen, claimsSubnetHash.presentWhen])
      (atRebuild cut db) :=
  migrateOne_claims addsToClaims_network (fun _ => by simp)
    (afterSubnetHash_reaches hdb)

/-- The column is missing in mid-boot just if the boot found it missing. -/
theorem absent_iff {db0 : Database} {applied : List PresentWhen} {g : Migration} {m : Machine Database}
    (hm : Reaches (Kept start) (Progress db0 tableNames applied) m) (hmem : g ∈ MIGRATIONS)
    (htable : g.presentWhen.table ∈ tableNames) (happlied : g.presentWhen ∉ applied) (hrun : m.halted = none) :
    g.presentWhen.column ∉ tableColumns m.state g.presentWhen.table ↔ Waits db0 g := by
  have hprogress := hm.here hrun
  obtain ⟨t, ht⟩ := Option.isSome_iff_exists.mp (hprogress.created _ htable)
  rw [tableColumns_of_some ht, ← waits_iff ht, hprogress.waits g hmem]
  simp [happlied]

instance (db : Database) (g : Migration) : Decidable (Waits db g) :=
  inferInstanceAs (Decidable (Lacks _ _ _))

theorem atRebuild_spent (hdb : Legacy db) : Spent cut (beforeRebuild db) (atRebuild cut db) := by
  have hschema : Spent cut (0 + SCHEMA.length) ((Machine.start db cut).execAll Stmt.exec SCHEMA) :=
    (spent_start db cut).execAll SCHEMA
  have hsubnet := migrateOne_spent hschema
    (absent_iff (g := claimsSubnetHash) (schema_reaches (kept_refl hdb)) (by simp [MIGRATIONS]) (by decide) (by simp))
  have hnetwork := migrateOne_spent hsubnet
    (absent_iff (g := claimsNetwork) (afterSubnetHash_reaches (kept_refl hdb)) (by simp [MIGRATIONS]) (by decide)
      (by decide))
  rw [Nat.zero_add] at hnetwork
  exact hnetwork

/-! ## The rebuild of `drip_days` -/

/-- What the copy selects from a row of the old table. -/
def copied (columns : List Column) (r : TableRow) : List Value :=
  [.text "taz", (cell columns r "day").getD .null, (cell columns r "sent").getD .null]

/-- The table the rebuild makes of `t`. -/
def rebuilt (t : Table) : Table :=
  (Table.empty dripDaysColumns).append ["network", "day", "sent"] (t.rows.map (copied t.columns))

/-- The rows of the old table are a day and a count, neither of them NULL. -/
theorem old_row {t : Table} (hcolumns : t.columns = dripDaysBefore) (ht : t.Constrained) {r : TableRow}
    (hr : r ∈ t.rows) : ∃ day sent, r = [day, sent] ∧ day ≠ .null ∧ sent ≠ .null := by
  have hlen := t.wide r hr
  have hnull := ht.noNull r hr
  rw [hcolumns] at hlen hnull
  match r, hlen with
  | [day, sent], _ =>
    refine ⟨day, sent, rfl, ?_, ?_⟩
    · rintro rfl
      exact absurd hnull (by simp [nullViolation, dripDaysBefore, keyColumn])
    · rintro rfl
      by_cases hday : day = .null <;>
        simp [nullViolation, dripDaysBefore, keyColumn, column, hday] at hnull

theorem copied_old (day sent : Value) : copied dripDaysBefore [day, sent] = [.text "taz", day, sent] := rfl

theorem rebuilt_rows (t : Table) :
    (rebuilt t).rows = t.rows.map (copied t.columns) := by
  have hrow : ∀ r ∈ t.rows, Table.inserted dripDaysColumns ["network", "day", "sent"] (copied t.columns r) =
      copied t.columns r := fun _ _ => rfl
  have happend : (rebuilt t).rows = [] ++ (t.rows.map (copied t.columns)).map
      (Table.inserted dripDaysColumns ["network", "day", "sent"]) := rfl
  rw [happend, List.nil_append, List.map_map]
  exact List.map_congr_left hrow

theorem rebuilt_constrained {t : Table} (hcolumns : t.columns = dripDaysBefore) (ht : t.Constrained) :
    (rebuilt t).Constrained := by
  have hnew : (rebuilt t).columns = dripDaysColumns := rfl
  constructor
  · intro r hr
    rw [rebuilt_rows] at hr
    obtain ⟨old, hold, rfl⟩ := List.mem_map.mp hr
    obtain ⟨day, sent, rfl, hday, hsent⟩ := old_row hcolumns ht hold
    rw [hnew, hcolumns, copied_old]
    simp [nullViolation, dripDaysColumns, keyColumn, column, hday, hsent]
  · rw [rebuilt_rows, hnew, KeysDiffer, List.pairwise_map]
    refine List.Pairwise.imp_of_mem ?_ ht.keys
    intro r s hr hs hdiffer hsame
    obtain ⟨day, sent, rfl, hday, -⟩ := old_row hcolumns ht hr
    obtain ⟨day', sent', rfl, -, -⟩ := old_row hcolumns ht hs
    rw [hcolumns, copied_old, copied_old] at hsame
    rw [hcolumns] at hdiffer
    -- the network is the same everywhere, so the key is the day as before
    have hkeys : some day = some day' := by
      have := hsame.1
      simp [keyOf, keyColumns, dripDaysColumns, keyColumn, column, cell] at this
      rw [this]
    refine hdiffer ⟨?_, ?_, ?_⟩
    · simpa [keyOf, keyColumns, dripDaysBefore, keyColumn, column, cell] using hkeys
    · simp [keyOf, keyColumns, dripDaysBefore, keyColumn, column]
    · simpa [keyOf, keyColumns, dripDaysBefore, keyColumn, column, cell] using hday.symm

theorem rebuilt_dripRows {t : Table} (hcolumns : t.columns = dripDaysBefore) (ht : t.Constrained) :
    (rebuilt t).rows.map (dripRow (rebuilt t).columns) = t.rows.map (dripRow t.columns) := by
  rw [rebuilt_rows, List.map_map]
  refine List.map_congr_left fun r hr => ?_
  obtain ⟨day, sent, rfl, -, -⟩ := old_row hcolumns ht hr
  rw [hcolumns]
  rfl

theorem selectFrom_old {t : Table} (hcolumns : t.columns = dripDaysBefore) :
    Database.selectFrom t [.literal (.text "taz"), .column "day", .column "sent"] =
      .ok (t.rows.map (copied t.columns)) := by
  have hmissing : [Expr.literal (.text "taz"), .column "day", .column "sent"].findSome? t.missing = none := by
    simp [Table.missing, Table.names, hcolumns, dripDaysBefore, keyColumn, column]
  simp only [Database.selectFrom, hmissing]
  rfl

theorem rebuild_create (hdb : Legacy db) :
    Stmt.exec (.createTable false "drip_days_rebuild" dripDaysColumns) db =
      .ok (db.setTable "drip_days_rebuild" (some (Table.empty dripDaysColumns))) :=
  Database.createTable_new false _ (hdb.unknown (by decide)) (hdb.unindexed (by decide))

theorem rebuild_copy {t : Table} (ht : db.tables "drip_days" = some t) (hcolumns : t.columns = dripDaysBefore)
    (hconstrained : t.Constrained) :
    Stmt.exec (.insertSelect "drip_days_rebuild" ["network", "day", "sent"]
        [.literal (.text "taz"), .column "day", .column "sent"] "drip_days")
      (db.setTable "drip_days_rebuild" (some (Table.empty dripDaysColumns))) =
      .ok (db.setTable "drip_days_rebuild" (some (rebuilt t))) := by
  have hempty : (db.setTable "drip_days_rebuild" (some (Table.empty dripDaysColumns))).tables "drip_days_rebuild" =
      some (Table.empty dripDaysColumns) := Database.setTable_same _ _ _
  have hold : (db.setTable "drip_days_rebuild" (some (Table.empty dripDaysColumns))).tables "drip_days" = some t :=
    (Database.setTable_other _ _ (by decide)).trans ht
  have hcopy := Database.insertSelect_ok hempty hold
    (show ∀ c ∈ ["network", "day", "sent"], c ∈ (Table.empty dripDaysColumns).names by decide)
    (selectFrom_old hcolumns) rfl (rebuilt_constrained hcolumns hconstrained)
  rw [Database.setTable_setTable] at hcopy
  exact hcopy

/-- Dropping the old table and giving its name to the new one. -/
theorem rebuild_swap (hdb : Legacy db) {t : Table} (ht : db.tables "drip_days" = some t) (new : Table) :
    sequence Stmt.exec [.dropTable "drip_days", .renameTable "drip_days_rebuild" "drip_days"]
      (db.setTable "drip_days_rebuild" (some new)) = .ok (db.setTable "drip_days" (some new)) := by
  have hindexes : ∀ name, ∀ i ∈ db.indexes name, i.table ≠ "drip_days" ∧ i.table ≠ "drip_days_rebuild" := by
    have hdeclared : ∀ i ∈ staleIndex :: declaredIndexes,
        i.2.table ≠ "drip_days" ∧ i.2.table ≠ "drip_days_rebuild" := by
      decide
    exact fun name i hi => hdeclared (name, i) (hdb.indexes name i hi)
  have hold : (db.setTable "drip_days_rebuild" (some new)).tables "drip_days" = some t :=
    (Database.setTable_other _ _ (by decide)).trans ht
  have hkept : ∀ name, (db.indexes name).filter (fun i => i.table ≠ "drip_days") = db.indexes name := by
    intro name
    cases hi : db.indexes name with
    | none => rfl
    | some i => simp [(hindexes name i hi).1]
  have hdrop : Stmt.exec (.dropTable "drip_days") (db.setTable "drip_days_rebuild" (some new)) =
      .ok ((db.setTable "drip_days_rebuild" (some new)).setTable "drip_days" none) := by
    rw [Stmt.exec, Database.dropTable_ok hold]
    simp only [Database.setTable_indexes, hkept]
    rfl
  have hnew : ((db.setTable "drip_days_rebuild" (some new)).setTable "drip_days" none).tables "drip_days_rebuild" =
      some new := by
    rw [Database.setTable_other _ _ (by decide), Database.setTable_same]
  have hfree : ((db.setTable "drip_days_rebuild" (some new)).setTable "drip_days" none).tables "drip_days" = none :=
    Database.setTable_same _ _ _
  have hunindexed : ((db.setTable "drip_days_rebuild" (some new)).setTable "drip_days" none).indexes "drip_days" =
      none := hdb.unindexed (by decide)
  rw [sequence_cons hdrop, sequence_cons (Database.renameTable_ok hnew hfree hunindexed)]
  have htables : Function.update (Function.update
      ((db.setTable "drip_days_rebuild" (some new)).setTable "drip_days" none).tables "drip_days_rebuild" none)
        "drip_days" (some new) = (db.setTable "drip_days" (some new)).tables := by
    funext name
    by_cases hdrip : name = "drip_days"
    · simp [hdrip]
    · by_cases hrebuild : name = "drip_days_rebuild"
      · subst hrebuild
        rw [Database.setTable_other _ _ (by decide), hdb.unknown (by decide)]
        simp
      · rw [Database.setTable_other _ _ hdrip]
        simp [hdrip, hrebuild, Database.setTable]
  have hmap : ∀ name, (db.indexes name).map
      (fun i => if i.table = "drip_days_rebuild" then { i with table := "drip_days" } else i) = db.indexes name := by
    intro name
    cases hi : db.indexes name with
    | none => rfl
    | some i => simp [(hindexes name i hi).2]
  simp only [htables, Database.setTable_indexes, hmap]
  rfl

/-- **The four statements of the rebuild, one after the other.** -/
theorem rebuild_sequence (hdb : Legacy db) {t : Table} (ht : db.tables "drip_days" = some t)
    (hcolumns : t.columns = dripDaysBefore) :
    sequence Stmt.exec rebuildDripDays db = .ok (db.setTable "drip_days" (some (rebuilt t))) := by
  have hconstrained := ((hdb.tables _ t ht).dripDays_columns rfl).2
  rw [rebuildDripDays, sequence_cons (rebuild_create hdb), sequence_cons (rebuild_copy ht hcolumns hconstrained)]
  exact rebuild_swap hdb ht _

theorem rebuild_kept (hdb : Kept start db) {t : Table} (ht : db.tables "drip_days" = some t)
    (hcolumns : t.columns = dripDaysBefore) : Kept start (db.setTable "drip_days" (some (rebuilt t))) := by
  have hconstrained := ((hdb.legacy.tables _ t ht).dripDays_columns rfl).2
  refine ⟨hdb.legacy.setTable (.dripDays rfl (rebuilt_constrained hcolumns hconstrained)), ?_, ?_, ?_⟩
  · rw [← hdb.claims]
    exact claimRows_other _ (by decide)
  · rw [← hdb.drips]
    unfold dripRows
    rw [Database.setTable_same, ht]
    exact rebuilt_dripRows hcolumns hconstrained
  · rw [← hdb.order]
    exact networkFirst_other _ (by decide)

theorem rebuild_progress {db0 : Database} {applied : List PresentWhen} (hdb : Progress db0 tableNames applied db)
    (t : Table) : Progress db0 tableNames (dripDaysNetwork.presentWhen :: applied)
      (db.setTable "drip_days" (some (rebuilt t))) := by
  constructor
  · intro name hname
    by_cases heq : name = "drip_days"
    · simp [heq]
    · rw [Database.setTable_other _ _ heq]
      exact hdb.created name hname
  · intro g hg
    by_cases heq : g.presentWhen = dripDaysNetwork.presentWhen
    · have hnew : (db.setTable "drip_days" (some (rebuilt t))).tables g.presentWhen.table = some (rebuilt t) := by
        rw [heq]
        exact Database.setTable_same _ _ _
      have hpresent : g.presentWhen.column ∈ (rebuilt t).names := by
        rw [heq]
        exact (by decide : "network" ∈ dripDaysColumns.map (·.name))
      rw [waits_iff hnew]
      exact ⟨fun h => absurd hpresent h, fun h => absurd (by rw [heq]; exact List.mem_cons_self) h.1⟩
    · have hother : ∀ g ∈ MIGRATIONS, g.presentWhen ≠ dripDaysNetwork.presentWhen →
          g.presentWhen.table ≠ "drip_days" := by
        decide
      have hsame : Waits (db.setTable "drip_days" (some (rebuilt t))) g ↔ Waits db g := by
        unfold Waits Lacks
        rw [Database.setTable_other _ _ (hother g hg heq)]
      rw [hsame, hdb.waits g hg, List.mem_cons, not_or]
      simp [heq]

/-- **The migration of `drip_days`**, when the process does not die inside
of it: either nothing of it was executed or all of it. -/
theorem migrateOne_dripDays {db0 : Database} {applied : List PresentWhen} {k : Nat} {m : Machine Database}
    (hm : Reaches (Kept start) (Progress db0 tableNames applied) m) (hspent : Spent cut k m)
    (hspares : Waits db0 dripDaysNetwork → ∀ n ∈ cut, ¬ (k < n ∧ n < k + rebuildDripDays.length)) :
    Reaches (Kept start) (Progress db0 tableNames (dripDaysNetwork.presentWhen :: applied))
      (migrateOne m dripDaysNetwork) := by
  cases hrun : m.halted with
  | some halt =>
    rw [migrateOne_halted hrun]
    exact hm.halted hrun
  | none =>
    have hprogress := hm.here hrun
    obtain ⟨t, ht⟩ := Option.isSome_iff_exists.mp (hprogress.created "drip_days" (by decide))
    have hwaits : Waits m.state dripDaysNetwork ↔ "network" ∉ t.names := waits_iff ht
    have hnames : tableColumns m.state "drip_days" = t.names := tableColumns_of_some ht
    by_cases hpresent : "network" ∈ t.names
    · have hskip : migrateOne m dripDaysNetwork = m := migrateOne_present (hnames ▸ hpresent)
      rw [hskip]
      refine hm.weaken fun _ h => ⟨h.created, fun g hg => ?_⟩
      rw [h.waits g hg, List.mem_cons, not_or]
      refine ⟨fun h' => ⟨⟨fun heq => ?_, h'.1⟩, h'.2⟩, fun h' => ⟨h'.1.2, h'.2⟩⟩
      have hsame : Waits m.state g ↔ Waits m.state dripDaysNetwork := by
        unfold Waits
        rw [heq]
      exact hwaits.mp (hsame.mp ((h.waits g hg).mpr h')) hpresent
    · have hrebuild : migrateOne m dripDaysNetwork = m.execAll Stmt.exec rebuildDripDays :=
        migrateOne_absent (hnames ▸ hpresent)
      obtain ⟨hleft, henough⟩ := hspent.running hrun
      have hcolumns : t.columns = dripDaysBefore := by
        refine ((hm.inv.legacy.tables _ t ht).dripDays_columns rfl).1.resolve_right fun hnew => hpresent ?_
        rw [Table.names, hnew]
        decide
      rw [hrebuild]
      by_cases hzero : m.left = some 0
      · have hcut : m.execAll Stmt.exec rebuildDripDays = ⟨m.state, some 0, some .cut⟩ := by
          rw [rebuildDripDays, execAll, List.foldl_cons, exec_cut hrun hzero]
          exact execAll_halted rfl _
        rw [hcut]
        exact ⟨hm.inv, by simp, by simp⟩
      · have hwhole := execAll_whole rebuildDripDays hrun (fun l hl => ?_)
          (rebuild_sequence hm.inv.legacy ht hcolumns)
        · rw [hwhole]
          exact ⟨rebuild_kept hm.inv ht hcolumns, fun _ => rebuild_progress hprogress t, by simp⟩
        · rw [hleft] at hl hzero
          obtain ⟨n, hn, rfl⟩ := Option.map_eq_some_iff.mp hl
          have hwaiting := ((hprogress.waits dripDaysNetwork (by simp [MIGRATIONS])).mp (hwaits.mpr hpresent)).2
          have hspare := hspares hwaiting n hn
          have hpos : n - k ≠ 0 := fun h => hzero (by rw [hn, Option.map_some, h])
          omega

/-! ## INDEXES -/

/-- Every table is there and no migration waits. -/
structure Complete (db : Database) : Prop where
  created : Created db
  applied : ∀ g ∈ MIGRATIONS, ¬ Waits db g

/-- INDEXES has got as far as `names`. -/
structure Indexed (names : List String) (db : Database) : Prop where
  complete : Complete db
  stale : db.indexes staleIndex.1 = none
  created : ∀ name ∈ names, (db.indexes name).isSome

/-- Both orders in which `claims` may have got its columns. -/
theorem complete_claims (hlegacy : Legacy db) (hdb : Complete db) : ∃ t, db.tables "claims" = some t ∧
    ∃ added ∈ [[subnetHash, network], [network, subnetHash]], t.columns = claimsBefore ++ added := by
  obtain ⟨t, ht⟩ := Option.isSome_iff_exists.mp (hdb.created "claims" (by decide))
  obtain ⟨added, hadded, hcolumns⟩ := (hlegacy.tables _ t ht).claims_columns rfl
  have hsubnet : ¬ Waits db claimsSubnetHash := hdb.applied _ (by simp [MIGRATIONS])
  have hnetwork : ¬ Waits db claimsNetwork := hdb.applied _ (by simp [MIGRATIONS])
  rw [waits_iff (g := claimsSubnetHash) ht, not_not, Table.names, hcolumns] at hsubnet
  rw [waits_iff (g := claimsNetwork) ht, not_not, Table.names, hcolumns] at hnetwork
  refine ⟨t, ht, added, ?_, hcolumns⟩
  revert hadded hsubnet hnetwork
  have hboth : ∀ added ∈ claimsAdditions, "subnet_hash" ∈ (claimsBefore ++ added).map (·.name) →
      "network" ∈ (claimsBefore ++ added).map (·.name) →
        added ∈ [[subnetHash, network], [network, subnetHash]] := by
    decide
  exact hboth added

theorem complete_dripDays (hlegacy : Legacy db) (hdb : Complete db) :
    columnsOf db "drip_days" = some dripDaysColumns := by
  obtain ⟨t, ht⟩ := Option.isSome_iff_exists.mp (hdb.created "drip_days" (by decide))
  have hnetwork : ¬ Waits db dripDaysNetwork := hdb.applied _ (by simp [MIGRATIONS])
  rw [waits_iff (g := dripDaysNetwork) ht, not_not] at hnetwork
  have hcolumns := ((hlegacy.tables _ t ht).dripDays_columns rfl).1.resolve_left fun hold => by
    rw [Table.names, hold] at hnetwork
    revert hnetwork
    decide
  simp [columnsOf, ht, hcolumns]

theorem indexed_columns (hlegacy : Legacy db) (hdb : Complete db) {i : String × Index} (hi : i ∈ declaredIndexes) :
    ∃ t, db.tables i.2.table = some t ∧ ∀ c ∈ i.2.columns, c ∈ t.names := by
  have htables : ∀ i ∈ declaredIndexes,
      i.2.table = "claims" ∨ i.2.table = "used_challenges" ∨ i.2.table = "feedback" := by
    decide
  rcases htables i hi with htable | htable | htable
  · obtain ⟨t, ht, added, hadded, hcolumns⟩ := complete_claims hlegacy hdb
    have hnames : ∀ i ∈ declaredIndexes, i.2.table = "claims" →
        ∀ added ∈ [[subnetHash, network], [network, subnetHash]], ∀ c ∈ i.2.columns,
          c ∈ (claimsBefore ++ added).map (·.name) := by
      decide
    refine ⟨t, by rw [htable]; exact ht, ?_⟩
    rw [Table.names, hcolumns]
    exact hnames i hi htable added hadded
  · obtain ⟨t, ht⟩ := Option.isSome_iff_exists.mp (hdb.created "used_challenges" (by decide))
    have hnames : ∀ i ∈ declaredIndexes, i.2.table = "used_challenges" → ∀ c ∈ i.2.columns,
        c ∈ usedChallengesColumns.map (·.name) := by
      decide
    refine ⟨t, by rw [htable]; exact ht, ?_⟩
    rw [Table.names, (hlegacy.tables _ t ht).usedChallenges_columns rfl]
    exact hnames i hi htable
  · obtain ⟨t, ht⟩ := Option.isSome_iff_exists.mp (hdb.created "feedback" (by decide))
    have hnames : ∀ i ∈ declaredIndexes, i.2.table = "feedback" → ∀ c ∈ i.2.columns,
        c ∈ feedbackColumns.map (·.name) := by
      decide
    refine ⟨t, by rw [htable]; exact ht, ?_⟩
    rw [Table.names, (hlegacy.tables _ t ht).feedback_columns rfl]
    exact hnames i hi htable

theorem complete_setIndex (hdb : Complete db) (name : String) (i : Option Index) :
    Complete (db.setIndex name i) :=
  ⟨hdb.created, hdb.applied⟩

theorem kept_setIndex (hdb : Kept start db) {name : String} {i : Option Index}
    (hi : ∀ j ∈ i, (name, j) ∈ staleIndex :: declaredIndexes) : Kept start (db.setIndex name i) := by
  refine ⟨⟨hdb.legacy.tables, fun other j hj => ?_⟩, hdb.claims, hdb.drips, hdb.order⟩
  by_cases heq : other = name
  · subst heq
    rw [Database.setIndex_same] at hj
    exact hi j hj
  · rw [Database.setIndex_other _ _ heq] at hj
    exact hdb.legacy.indexes other j hj

theorem dropIndex_step (hkept : Kept start db) (hdb : Complete db) :
    ∃ db', Stmt.exec (.dropIndex "idx_claims_addrhash") db = .ok db' ∧ Kept start db' ∧ Indexed [] db' :=
  ⟨_, rfl, kept_setIndex hkept (by simp), complete_setIndex hdb _ _, Database.setIndex_same _ _ _, by simp⟩

theorem createIndex_step {names : List String} {i : String × Index} (hi : i ∈ declaredIndexes)
    (hkept : Kept start db) (hdb : Indexed names db) :
    ∃ db', Stmt.exec (.createIndex i.1 i.2) db = .ok db' ∧ Kept start db' ∧ Indexed (i.1 :: names) db' := by
  obtain ⟨t, ht, hcolumns⟩ := indexed_columns hkept.legacy hdb.complete hi
  have hnames : ∀ i ∈ declaredIndexes, i.1 ∉ tableNames ∧ staleIndex.1 ≠ i.1 := by
    decide
  have htable : db.tables i.1 = none := hkept.legacy.unknown (hnames i hi).1
  cases hindex : db.indexes i.1 with
  | some j =>
    have hsome : (db.indexes i.1).isSome := by rw [hindex]; rfl
    refine ⟨db, Database.createIndex_exists ht htable hsome, hkept, hdb.complete, hdb.stale, fun name hname => ?_⟩
    rcases List.mem_cons.mp hname with rfl | hmem
    · exact hsome
    · exact hdb.created name hmem
  | none =>
    refine ⟨_, Database.createIndex_new ht htable hindex hcolumns, kept_setIndex hkept ?_,
      complete_setIndex hdb.complete _ _, ?_, fun name hname => ?_⟩
    · intro j hj
      cases hj
      exact List.mem_cons_of_mem _ hi
    · rw [Database.setIndex_other _ _ (hnames i hi).2]
      exact hdb.stale
    · by_cases heq : name = i.1
      · simp [heq]
      · rw [Database.setIndex_other _ _ heq]
        exact hdb.created name ((List.mem_cons.mp hname).resolve_left heq)

/-- The CREATE INDEX statements, one after the other. -/
theorem createIndexes_reaches : ∀ (is : List (String × Index)) {names : List String} {m : Machine Database},
    (∀ i ∈ is, i ∈ declaredIndexes) → Reaches (Kept start) (Indexed names) m →
      Reaches (Kept start) (Indexed (names ++ is.map (·.1)))
        (m.execAll Stmt.exec (is.map fun i => .createIndex i.1 i.2))
  | [], names, m, _, hm => by simpa [execAll] using hm
  | i :: is, names, m, his, hm => by
      have hstep : Reaches (Kept start) (Indexed (i.1 :: names)) (m.exec Stmt.exec (.createIndex i.1 i.2)) :=
        hm.exec fun db hkept hdb => createIndex_step (his i List.mem_cons_self) hkept hdb
      have hrest := createIndexes_reaches is (fun j hj => his j (List.mem_cons_of_mem _ hj)) hstep
      refine hrest.weaken fun _ h => ⟨h.complete, h.stale, fun name hname => h.created name ?_⟩
      simp only [List.map_cons, List.mem_append, List.mem_cons] at hname ⊢
      tauto

theorem indexes_reaches {m : Machine Database} (hm : Reaches (Kept start) Complete m) :
    Reaches (Kept start) (Indexed (declaredIndexes.map (·.1))) (m.execAll Stmt.exec INDEXES) :=
  createIndexes_reaches declaredIndexes (fun _ h => h)
    (hm.exec fun _ hkept hdb => dropIndex_step hkept hdb)

/-! ## One boot -/

/-- **A boot that is not cut off inside the rebuild.** -/
theorem boot_reaches (hdb : Kept start db) (hspares : ¬ CutsRebuild cut db) :
    Reaches (Kept start) (Indexed (declaredIndexes.map (·.1))) (boot cut db) := by
  have hat : Reaches (Kept start) (Progress db tableNames [claimsNetwork.presentWhen, claimsSubnetHash.presentWhen])
      (atRebuild cut db) := atRebuild_reaches hdb
  have hrebuild := migrateOne_dripDays hat (atRebuild_spent hdb.legacy)
    fun hwaits n hn hin => hspares ⟨hwaits, n, hn, hin⟩
  rw [boot_eq]
  refine indexes_reaches (hrebuild.weaken fun _ h => ⟨h.created, fun g hg hwaits => ?_⟩)
  have happlied : ∀ g ∈ MIGRATIONS, g.presentWhen ∈ [dripDaysNetwork.presentWhen, claimsNetwork.presentWhen,
      claimsSubnetHash.presentWhen] := by
    decide
  exact ((h.waits g hg).mp hwaits).1 (happlied g hg)

theorem not_cutsRebuild_none : ¬ CutsRebuild none db := by
  rintro ⟨-, n, hn, -⟩
  cases hn

theorem migrateOne_unbounded {m : Machine Database} {g : Migration} (hm : Unbounded m) :
    Unbounded (migrateOne m g) := by
  unfold migrateOne
  split
  · exact hm
  · exact hm.execAll g.sql

theorem boot_unbounded : Unbounded (boot none db) :=
  (migrateOne_unbounded (migrateOne_unbounded (migrateOne_unbounded
    ((unbounded_start db).execAll SCHEMA)))).execAll INDEXES

/-- A boot that nothing interrupts succeeds. -/
theorem boot_complete (hdb : Kept start db) : (boot none db).halted = none ∧ Kept start (boot none db).state ∧
    Indexed (declaredIndexes.map (·.1)) (boot none db).state :=
  (boot_reaches hdb not_cutsRebuild_none).done boot_unbounded

/-- **A history of boots that spares the rebuild.** -/
theorem kept_reboots : ∀ (cuts : List (Option Nat)) {db : Database}, Kept start db → SparesRebuild cuts db →
    Kept start (reboots db cuts)
  | [], _, hdb, _ => hdb
  | _ :: cuts, _, hdb, hspares => kept_reboots cuts (boot_reaches hdb hspares.1).inv hspares.2

/-! ## A boot that is cut off inside the rebuild -/

/-- No list of statements without a DROP or a RENAME of it takes
`drip_days_rebuild` away. -/
theorem execAll_keeps_rebuild {is : List Stmt} {m : Machine Database}
    (his : ∀ s ∈ is, ¬ s.Removes "drip_days_rebuild") (hm : (m.state.tables "drip_days_rebuild").isSome) :
    ((m.execAll Stmt.exec is).state.tables "drip_days_rebuild").isSome :=
  execAll_preserves (J := fun db => (db.tables "drip_days_rebuild").isSome) is hm
    fun s hs _ _ hdb h => Stmt.exec_keeps (his s hs) hdb h

theorem migrateOne_keeps_rebuild {g : Migration} {m : Machine Database}
    (hg : ∀ s ∈ g.sql, ¬ s.Removes "drip_days_rebuild") (hm : (m.state.tables "drip_days_rebuild").isSome) :
    ((migrateOne m g).state.tables "drip_days_rebuild").isSome := by
  unfold migrateOne
  split
  · exact hm
  · exact execAll_keeps_rebuild hg hm

theorem schema_keeps_rebuild : ∀ s ∈ SCHEMA, ¬ s.Removes "drip_days_rebuild" := by
  simp [SCHEMA, Stmt.Removes]

theorem indexes_keep_rebuild : ∀ s ∈ INDEXES, ¬ s.Removes "drip_days_rebuild" := by
  simp [INDEXES, declaredIndexes, Stmt.Removes]

/-- The rebuild does not start over: its CREATE is refused. -/
theorem rebuild_refused {m : Machine Database} (hm : (m.state.tables "drip_days_rebuild").isSome) :
    (migrateOne m dripDaysNetwork).state = m.state := by
  unfold migrateOne
  split
  · rfl
  · exact execAll_refused (Database.createTable_clash dripDaysColumns hm)

/-- **No later boot takes the table away.** -/
theorem boot_keeps_rebuild (hdb : (db.tables "drip_days_rebuild").isSome) :
    ((boot cut db).state.tables "drip_days_rebuild").isSome := by
  have hat : ((atRebuild cut db).state.tables "drip_days_rebuild").isSome :=
    migrateOne_keeps_rebuild (by simp [claimsNetwork, Stmt.Removes])
      (migrateOne_keeps_rebuild (by simp [claimsSubnetHash, Stmt.Removes])
        (execAll_keeps_rebuild schema_keeps_rebuild hdb))
  rw [boot_eq]
  refine execAll_keeps_rebuild indexes_keep_rebuild ?_
  rw [rebuild_refused hat]
  exact hat

theorem reboots_keep_rebuild : ∀ (cuts : List (Option Nat)) {db : Database},
    (db.tables "drip_days_rebuild").isSome → ((reboots db cuts).tables "drip_days_rebuild").isSome
  | [], _, hdb => hdb
  | _ :: cuts, _, hdb => reboots_keep_rebuild cuts (boot_keeps_rebuild hdb)

/-- The INSERT and the DROP of the rebuild. -/
def rebuildMiddle : List Stmt := [
  .insertSelect "drip_days_rebuild" ["network", "day", "sent"]
    [.literal (.text "taz"), .column "day", .column "sent"] "drip_days",
  .dropTable "drip_days"]

/-- A rebuild that gets past its CREATE and not to its RENAME. -/
theorem rebuild_leaves {m : Machine Database} {l : Nat} (hdb : Legacy m.state) (hrun : m.halted = none)
    (hleft : m.left = some l) (hcreate : 0 < l) (hrename : l < rebuildDripDays.length) :
    ((m.execAll Stmt.exec rebuildDripDays).state.tables "drip_days_rebuild").isSome := by
  have hfirst := exec_ok hrun (by rw [hleft]; simp; omega) (rebuild_create hdb)
  have hcreated : ((m.exec Stmt.exec (.createTable false "drip_days_rebuild" dripDaysColumns)).state.tables
      "drip_days_rebuild").isSome := by
    rw [hfirst]
    simp
  have hkeeps : ∀ s ∈ rebuildMiddle, ¬ s.Removes "drip_days_rebuild" := by
    simp [rebuildMiddle, Stmt.Removes]
  have hmiddle := execAll_keeps_rebuild hkeeps hcreated
  have hsplit : m.execAll Stmt.exec rebuildDripDays =
      ((m.exec Stmt.exec (.createTable false "drip_days_rebuild" dripDaysColumns)).execAll Stmt.exec
        rebuildMiddle).exec Stmt.exec (.renameTable "drip_days_rebuild" "drip_days") := rfl
  rw [hsplit]
  cases hlast : ((m.exec Stmt.exec (.createTable false "drip_days_rebuild" dripDaysColumns)).execAll Stmt.exec
      rebuildMiddle).halted with
  | some halt =>
    rw [exec_halted hlast]
    exact hmiddle
  | none =>
    -- three statements were executed, and there is no budget for a fourth
    obtain ⟨hleft3, henough⟩ := execAll_left rebuildMiddle hlast
    have hleft1 : (m.exec Stmt.exec (.createTable false "drip_days_rebuild" dripDaysColumns)).left =
        some (l - 1) := by
      rw [hfirst, hleft]
      rfl
    have hl := henough (l - 1) hleft1
    have hnothing : l - 1 - rebuildMiddle.length = 0 := by
      have hfour : rebuildDripDays.length = 4 := rfl
      have htwo : rebuildMiddle.length = 2 := rfl
      omega
    rw [hleft1, Option.map_some, hnothing] at hleft3
    rw [exec_cut hlast hleft3]
    exact hmiddle

/-- **A boot that dies inside the rebuild leaves its table behind.** -/
theorem boot_leaves_rebuild (hdb : Legacy db) (hcut : CutsRebuild cut db) :
    ((boot cut db).state.tables "drip_days_rebuild").isSome := by
  obtain ⟨hwaits, n, rfl, hlow, hhigh⟩ := hcut
  have hm : Reaches (Kept db) (Progress db tableNames [claimsNetwork.presentWhen, claimsSubnetHash.presentWhen])
      (atRebuild (some n) db) := atRebuild_reaches (kept_refl hdb)
  have hspent : Spent (some n) (beforeRebuild db) (atRebuild (some n) db) := atRebuild_spent hdb
  have hrun : (atRebuild (some n) db).halted = none := by
    cases hhalted : (atRebuild (some n) db).halted with
    | none => rfl
    | some halt =>
      cases halt with
      | cut =>
        obtain ⟨k, hk, hlt⟩ := hspent.cut hhalted
        cases hk
        omega
      | threw e => exact absurd hhalted (hm.unthrown e)
  obtain ⟨hleft, -⟩ := hspent.running hrun
  have habsent := (absent_iff (g := dripDaysNetwork) hm (by simp [MIGRATIONS]) (by decide) (by decide) hrun).mpr hwaits
  rw [boot_eq, migrateOne_absent habsent]
  have hbudget : (atRebuild (some n) db).left = some (n - beforeRebuild db) := hleft
  exact execAll_keeps_rebuild indexes_keep_rebuild
    (rebuild_leaves hm.inv.legacy hrun hbudget (by omega) (by omega))

theorem not_spares_leaves : ∀ (cuts : List (Option Nat)) {db : Database}, Legacy db → ¬ SparesRebuild cuts db →
    ((reboots db cuts).tables "drip_days_rebuild").isSome
  | [], _, _, hcut => absurd trivial hcut
  | cut :: cuts, db, hdb, hcut => by
      by_cases hfirst : CutsRebuild cut db
      · exact reboots_keep_rebuild cuts (boot_leaves_rebuild hdb hfirst)
      · have hlegacy := (boot_reaches (kept_refl hdb) hfirst).inv.legacy
        exact not_spares_leaves cuts hlegacy fun hspares => hcut ⟨hfirst, hspares⟩

/-! ## The shape a complete boot leaves -/

theorem indexed_indexes (hlegacy : Legacy db) (hdb : Indexed (declaredIndexes.map (·.1)) db) (name : String) :
    db.indexes name = (declaredIndexes.find? fun i => i.1 = name).map (·.2) := by
  by_cases hname : name ∈ declaredIndexes.map (·.1)
  · obtain ⟨i, hi⟩ := Option.isSome_iff_exists.mp (hdb.created name hname)
    have hmem := (List.mem_cons.mp (hlegacy.indexes name i hi)).resolve_left fun heq => by
      have hstale : name = staleIndex.1 := congrArg Prod.fst heq
      rw [hstale] at hname
      revert hname
      decide
    have hfind : ∀ i ∈ declaredIndexes, (declaredIndexes.find? fun j => j.1 = i.1).map (·.2) = some i.2 := by
      decide
    rw [hi, hfind (name, i) hmem]
  · have hnone : declaredIndexes.find? (fun i => i.1 = name) = none := by
      rw [List.find?_eq_none]
      intro i hi heq
      exact hname (List.mem_map.mpr ⟨i, hi, of_decide_eq_true heq⟩)
    rw [hnone]
    by_cases hstale : name = staleIndex.1
    · rw [hstale]
      exact hdb.stale
    · refine hlegacy.unindexed fun hmem => ?_
      rcases List.mem_cons.mp hmem with heq | hdeclared
      · exact hstale heq
      · exact hname hdeclared

/-- The columns of every table but `claims`. -/
theorem complete_columns (hlegacy : Legacy db) (hdb : Complete db) {name : String} (hname : name ≠ "claims") :
    columnsOf db name = (schemaTables.find? fun s => s.1 = name).map (·.2) := by
  by_cases hused : name = "used_challenges"
  · subst hused
    obtain ⟨t, ht⟩ := Option.isSome_iff_exists.mp (hdb.created "used_challenges" (by decide))
    simp [columnsOf, ht, (hlegacy.tables _ t ht).usedChallenges_columns rfl, schemaTables]
  by_cases hdrip : name = "drip_days"
  · subst hdrip
    rw [complete_dripDays hlegacy hdb]
    simp [schemaTables]
  by_cases hfeedback : name = "feedback"
  · subst hfeedback
    obtain ⟨t, ht⟩ := Option.isSome_iff_exists.mp (hdb.created "feedback" (by decide))
    simp [columnsOf, ht, (hlegacy.tables _ t ht).feedback_columns rfl, schemaTables]
  · have hnone : db.tables name = none := hlegacy.unknown (by simp [hname, hused, hdrip, hfeedback])
    simp [columnsOf, hnone, schemaTables, Ne.symm hname, Ne.symm hused, Ne.symm hdrip, Ne.symm hfeedback]

theorem complete_shape {db' : Database} (hlegacy : Legacy db) (hdb : Indexed (declaredIndexes.map (·.1)) db)
    (hlegacy' : Legacy db') (hdb' : Indexed (declaredIndexes.map (·.1)) db') : SameShape db db' := by
  constructor
  · intro name
    by_cases hname : name = "claims"
    · subst hname
      obtain ⟨t, ht, added, hadded, hcolumns⟩ := complete_claims hlegacy hdb.complete
      obtain ⟨t', ht', added', hadded', hcolumns'⟩ := complete_claims hlegacy' hdb'.complete
      have hperm : ∀ a ∈ [[subnetHash, network], [network, subnetHash]],
          ∀ b ∈ [[subnetHash, network], [network, subnetHash]], a.Perm b := by
        decide
      rw [columnsOf, ht, columnsOf, ht', Option.map_some, Option.map_some, hcolumns, hcolumns']
      exact .some ((hperm added hadded added' hadded').append_left claimsBefore)
    · rw [complete_columns hlegacy hdb.complete hname, complete_columns hlegacy' hdb'.complete hname]
      cases (schemaTables.find? fun s => s.1 = name).map (·.2) with
      | none => exact .none
      | some columns => exact .some (List.Perm.refl columns)
  · funext name
    rw [indexed_indexes hlegacy hdb, indexed_indexes hlegacy' hdb']

/-- In order, the columns of `claims` tell whether `network` came first. -/
theorem complete_claims_inOrder (hlegacy : Legacy db) (hdb : Complete db) :
    columnsOf db "claims" = some claimsColumns ↔ ¬ NetworkFirst db := by
  obtain ⟨t, ht, added, hadded, hcolumns⟩ := complete_claims hlegacy hdb
  have hhead : ∀ added ∈ [[subnetHash, network], [network, subnetHash]],
      added = [subnetHash, network] ↔ ¬ added.head? = some network := by
    decide
  rw [networkFirst_iff ht hcolumns, ← hhead added hadded, columnsOf, ht, Option.map_some, hcolumns,
    Option.some.injEq, claimsColumns, List.append_cancel_left_eq]

theorem fresh_complete : Legacy fresh ∧ Indexed (declaredIndexes.map (·.1)) fresh ∧ ¬ NetworkFirst fresh := by
  obtain ⟨-, hkept, hindexed⟩ := boot_complete (kept_refl legacy_noDatabase)
  refine ⟨hkept.legacy, hindexed, fun hfirst => ?_⟩
  obtain ⟨t, ht, -⟩ := hkept.order.mp hfirst
  cases ht

theorem complete_orderedShape (hlegacy : Legacy db) (hdb : Indexed (declaredIndexes.map (·.1)) db) :
    SameOrderedShape db fresh ↔ ¬ NetworkFirst db := by
  obtain ⟨hlegacy', hdb', hfirst⟩ := fresh_complete
  have hclaims := (complete_claims_inOrder hlegacy' hdb'.complete).mpr hfirst
  rw [← complete_claims_inOrder hlegacy hdb.complete]
  refine ⟨fun h => (h.1 "claims").trans hclaims, fun h => ⟨fun name => ?_, ?_⟩⟩
  · by_cases hname : name = "claims"
    · rw [hname, h, hclaims]
    · rw [complete_columns hlegacy hdb.complete hname, complete_columns hlegacy' hdb'.complete hname]
  · exact (complete_shape hlegacy hdb hlegacy' hdb').2

/-! ## Convergence -/

/-- A history that spares the rebuild, and the boot after it. -/
theorem last_boot {cuts : List (Option Nat)} (hstart : Legacy start) (hspares : SparesRebuild cuts start) :
    (boot none (reboots start cuts)).halted = none ∧ Kept start (boot none (reboots start cuts)).state ∧
      Indexed (declaredIndexes.map (·.1)) (boot none (reboots start cuts)).state :=
  boot_complete (kept_reboots cuts (kept_refl hstart) hspares)

/-- The table of an unfinished rebuild is no table of a fresh database. -/
theorem rebuild_not_fresh (hdb : (db.tables "drip_days_rebuild").isSome) :
    columnsOf fresh "drip_days_rebuild" = none ∧ (columnsOf db "drip_days_rebuild").isSome := by
  have hnone : fresh.tables "drip_days_rebuild" = none := fresh_complete.1.unknown (by decide)
  simp [columnsOf, hnone, hdb]

theorem spares_of_shape {cuts : List (Option Nat)} (hstart : Legacy start)
    (hcolumns : columnsOf fresh "drip_days_rebuild" = none →
      columnsOf (boot none (reboots start cuts)).state "drip_days_rebuild" = none) : SparesRebuild cuts start := by
  by_contra hcut
  have hlast : ((boot none (reboots start cuts)).state.tables "drip_days_rebuild").isSome :=
    boot_keeps_rebuild (not_spares_leaves cuts hstart hcut)
  obtain ⟨hfresh, hsome⟩ := rebuild_not_fresh hlast
  rw [hcolumns hfresh] at hsome
  cases hsome

/-- **Migrations converge, whatever statements the boots before were cut
off at, exactly when no boot was cut off inside the rebuild of
`drip_days`.** The columns come out in the order of a fresh database just
if `claims` did not have `network` first. -/
theorem migrations_converge_iff (start : Database) (hstart : Legacy start) (cuts : List (Option Nat)) :
    (Converges SameShape start cuts ↔ SparesRebuild cuts start) ∧
      (Converges SameOrderedShape start cuts ↔ SparesRebuild cuts start ∧ ¬ NetworkFirst start) := by
  constructor
  · constructor
    · rintro ⟨-, hshape, -, -⟩
      refine spares_of_shape hstart fun hfresh => ?_
      have hrel := hshape.1 "drip_days_rebuild"
      rw [hfresh] at hrel
      cases hcolumns : columnsOf (boot none (reboots start cuts)).state "drip_days_rebuild" with
      | none => rfl
      | some columns =>
        rw [hcolumns] at hrel
        cases hrel
    · intro hspares
      obtain ⟨hrun, hkept, hindexed⟩ := last_boot hstart hspares
      obtain ⟨hlegacy', hindexed', -⟩ := fresh_complete
      exact ⟨hrun, complete_shape hkept.legacy hindexed hlegacy' hindexed', hkept.claims, hkept.drips⟩
  · constructor
    · rintro ⟨-, hshape, -, -⟩
      have hspares : SparesRebuild cuts start :=
        spares_of_shape hstart fun hfresh => (hshape.1 "drip_days_rebuild").trans hfresh
      obtain ⟨-, hkept, hindexed⟩ := last_boot hstart hspares
      rw [← hkept.order]
      exact ⟨hspares, (complete_orderedShape hkept.legacy hindexed).mp hshape⟩
    · rintro ⟨hspares, hfirst⟩
      obtain ⟨hrun, hkept, hindexed⟩ := last_boot hstart hspares
      rw [← hkept.order] at hfirst
      exact ⟨hrun, (complete_orderedShape hkept.legacy hindexed).mpr hfirst, hkept.claims, hkept.drips⟩

/-! ## A ledger from before the migrations -/

/-- One claim and one day of drips. -/
def oldLedger : Database where
  tables name :=
    if name = "claims" then some ⟨claimsBefore, [[.integer 1, .text "addr-1", .text "ip-1", .integer 10000000,
      .null, .text "sent", .integer 1700000000]], by decide⟩
    else if name = "drip_days" then some ⟨dripDaysBefore, [[.text "2026-07-01", .integer 12]], by decide⟩
    else none
  indexes _ := none

theorem legacy_oldLedger : Legacy oldLedger := by
  refine ⟨fun name t ht => ?_, fun name i hi => by cases hi⟩
  by_cases hclaims : name = "claims"
  · subst hclaims
    cases ht
    exact .claims [] (by simp [claimsAdditions]) rfl
  · by_cases hdrip : name = "drip_days"
    · subst hdrip
      cases ht
      exact .dripDaysBefore rfl ⟨by decide, by decide⟩
    · simp [oldLedger, hclaims, hdrip] at ht

/-- The process dies just before the rebuild, and at the next boot just
after it. -/
theorem migrations_converge_iff_oldLedger : Converges SameOrderedShape oldLedger [some 6, some 8] := by
  refine (migrations_converge_iff oldLedger legacy_oldLedger [some 6, some 8]).2.mpr ⟨⟨?_, ?_, trivial⟩, ?_⟩
  · rintro ⟨-, n, hn, hlow, -⟩
    cases hn
    revert hlow
    decide +kernel
  · rintro ⟨-, n, hn, -, hhigh⟩
    cases hn
    revert hhigh
    decide +kernel
  · rintro ⟨t, ht, later, hlater⟩
    cases ht
    exact absurd (congrArg List.length hlater) (by simp [claimsBefore])

/-- The process dies right after the rebuild's CREATE (seven statements):
no later boot succeeds. It dies after the DROP (nine): the count of every
day is gone for good. -/
theorem migrations_diverge_oldLedger :
    Legacy oldLedger ∧
      (boot none (reboots oldLedger [some 7])).halted =
        some (.threw "table drip_days_rebuild already exists") ∧
      ¬ Converges SameShape oldLedger [some 7] ∧
      dripRows oldLedger = [[.text "taz", .text "2026-07-01", .integer 12]] ∧
      dripRows (boot none (reboots oldLedger [some 9])).state = [] := by
  have hthrew : (boot none (reboots oldLedger [some 7])).halted =
      some (.threw "table drip_days_rebuild already exists") := by
    decide +kernel
  refine ⟨legacy_oldLedger, hthrew, fun h => ?_, by decide +kernel, by decide +kernel⟩
  have hrun := h.1
  rw [hthrew] at hrun
  cases hrun

end ZcashFaucet.Db.Migrations
