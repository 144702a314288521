/-
ZcashFaucet.Db.DripCountTheorems — the drip counter counts every drip
once in every calm run.

The bookkeeping is by day. For a day, the bucket of `drip_days` is what
the bumps brought plus what the seeds brought, and the seeds should bring
the rows from before the run that fall on it: no more than `base` has
(`BucketsInv.taz_le`), and no fewer than `old` has once a seed is done
with the day (`BucketsInv.folded_ge`).

  §1 Days and rows  — what a seed counts, as rows from before and others.
  §2 Buckets        — the bump and the seed write, bucket by bucket.
  §3 Invariant      — in four parts, one for each kind of data.
  §4 Steps          — one lemma for each event.
  §5 Runs           — from the buckets to the totals.
-/
import Mathlib.Tactic.Linarith
import ZcashFaucet.Db.DripCount
import ZcashFaucet.Db.LedgerTheorems

namespace ZcashFaucet.Db

open Lib

/-! ## §1 Days and rows -/

theorem createdDay_eq_iff (r : ClaimRow) (day : Int) :
    r.createdDay = day ↔ (day : ℚ) * 86400 ≤ r.createdAt ∧ r.createdAt < day * 86400 + 86400 := by
  rw [ClaimRow.createdDay, Int.floor_eq_iff, le_div_iff₀ (by norm_num), div_lt_iff₀ (by norm_num),
    add_mul, one_mul]

/-- The rows of the table from before the run. -/
def Counter.oldHere (s : Counter) : List ClaimRow :=
  s.ledger.claims.filter fun r => decide (r ∈ s.base)

/-- The rows of a list that fall on a day. -/
def rowsOn (day : Int) (rows : List ClaimRow) : List ClaimRow :=
  rows.filter fun r => decide (r.createdDay = day)

theorem countP_split {α : Type} (p q : α → Bool) (rows : List α) :
    rows.countP p = rows.countP (fun a => p a && q a) + rows.countP fun a => p a && !q a := by
  induction rows with
  | nil => rfl
  | cons a rows ih =>
      simp only [List.countP_cons, ih]
      cases p a <;> cases q a <;> simp <;> omega

/-- What a seed counts for a day: the rows from before, and the claims
finalised since. -/
theorem seedCountSql_eq {s : Counter} (hbase : ∀ r ∈ s.base, r.status = .sent) (day : Int) :
    seedCountSql (day * 86400) s.ledger = (rowsOn day s.oldHere).length + s.finalisedOn day := by
  have hsplit : seedCountSql (day * 86400) s.ledger =
      s.ledger.claims.countP fun r => r.status == .sent && decide (r.createdDay = day) := by
    refine List.countP_congr fun r _ => ?_
    simp only [Bool.and_eq_true, decide_eq_true_eq, createdDay_eq_iff, and_assoc]
  have hold : (rowsOn day s.oldHere).length =
      s.ledger.claims.countP fun r =>
        (r.status == .sent && decide (r.createdDay = day)) && decide (r ∈ s.base) := by
    rw [rowsOn, Counter.oldHere, ← List.countP_eq_length_filter, List.countP_filter]
    refine List.countP_congr fun r _ => ?_
    simp only [Bool.and_eq_true, decide_eq_true_eq, beq_iff_eq]
    exact ⟨fun h => ⟨⟨hbase r h.2, h.1⟩, h.2⟩, fun h => ⟨h.1.2, h.2⟩⟩
  have hnew : s.finalisedOn day =
      s.ledger.claims.countP fun r =>
        (r.status == .sent && decide (r.createdDay = day)) && !decide (r ∈ s.base) := by
    refine List.countP_congr fun r _ => ?_
    simp only [Bool.and_eq_true, and_right_comm]
  rw [hsplit, hold, hnew]
  exact countP_split _ _ _

/-- The claims of a network finalised in the run that the table holds. -/
def Counter.newOn (s : Counter) (network : FaucetNetwork) : Nat :=
  s.ledger.claims.countP fun r =>
    r.status == .sent && !decide (r ∈ s.base) && decide (r.network = network)

/-- The claims of a network finalised in the run. -/
def Counter.finalisedFor (s : Counter) (network : FaucetNetwork) : Nat :=
  s.finalised.countP fun f => decide (f.2 = network)

/-- The claims table over a run. -/
structure RowsInv (s : Counter) : Prop where
  ids : (s.ledger.claims.map ClaimRow.id).Nodup
  ids_lt : ∀ r ∈ s.ledger.claims, r.id < s.ledger.nextId
  base_sent : ∀ r ∈ s.base, r.status = .sent
  base_left : s.oldHere.Sublist s.base
  old_sub : s.old.Sublist s.base
  old_all : s.ledger.dripDays = [] → s.oldHere = s.old
  old_owed : ∀ day, s.Owed day → rowsOn day s.oldHere = rowsOn day s.old
  new_le : ∀ network, s.newOn network ≤ s.finalisedFor network

/-- Steps that touch neither the claims nor what is said about them. -/
theorem RowsInv.congr {s s' : Counter} (h : RowsInv s) (hclaims : s'.ledger.claims = s.ledger.claims)
    (hnext : s'.ledger.nextId = s.ledger.nextId) (hbase : s'.base = s.base) (hold : s'.old = s.old)
    (hfin : s'.finalised = s.finalised)
    (hdays : s'.ledger.dripDays = [] → s.ledger.dripDays = [])
    (howed : ∀ day, s'.Owed day → s.Owed day) : RowsInv s' := by
  have hhere : s'.oldHere = s.oldHere := by simp only [Counter.oldHere, hclaims, hbase]
  exact
    { ids := hclaims ▸ h.ids
      ids_lt := by rw [hclaims, hnext]; exact h.ids_lt
      base_sent := hbase ▸ h.base_sent
      base_left := by rw [hhere, hbase]; exact h.base_left
      old_sub := by rw [hold, hbase]; exact h.old_sub
      old_all := fun hd => by rw [hhere, hold]; exact h.old_all (hdays hd)
      old_owed := fun day hd => by rw [hhere, hold]; exact h.old_owed day (howed day hd)
      new_le := fun network => by
        simp only [Counter.newOn, Counter.finalisedFor, hclaims, hbase, hfin]
        exact h.new_le network }

theorem rowsInv_reserve {s : Counter} (h : RowsInv s) (cfg : LedgerConfig) (o : ReserveOpts) :
    RowsInv { s with ledger := (reserveClaim cfg o s.ledger).1 } := by
  rcases reserveClaim_cases cfg o s.ledger with ⟨_, heq⟩ | ⟨_, heq⟩
  · have hnew : reservedRow (reserveClaimParams cfg o) s.ledger.nextId ∉ s.base := by
      intro hmem
      have := h.base_sent _ hmem
      cases this
    have hhere : (Counter.oldHere { s with ledger := (reserveClaim cfg o s.ledger).1 }) = s.oldHere := by
      rw [heq]
      simp [Counter.oldHere, hnew]
    rw [heq] at hhere ⊢
    exact
      { ids := by
          rw [List.map_cons, List.nodup_cons]
          refine ⟨fun hmem => ?_, h.ids⟩
          obtain ⟨r, hr, hid⟩ := List.mem_map.mp hmem
          exact absurd hid (Nat.ne_of_lt (h.ids_lt r hr))
        ids_lt := by
          intro r hr
          rcases List.mem_cons.mp hr with rfl | hr
          · exact Nat.lt_succ_self _
          · exact Nat.lt_succ_of_lt (h.ids_lt r hr)
        base_sent := h.base_sent
        base_left := hhere ▸ h.base_left
        old_sub := h.old_sub
        old_all := fun hd => hhere.trans (h.old_all hd)
        old_owed := fun day hd => by rw [hhere]; exact h.old_owed day hd
        new_le := fun network => by
          have hcount : Counter.newOn
              { s with
                ledger :=
                  { s.ledger with
                    claims := reservedRow (reserveClaimParams cfg o) s.ledger.nextId :: s.ledger.claims
                    nextId := s.ledger.nextId + 1 } } network = s.newOn network := by
            simp [Counter.newOn, reservedRow]
          rw [hcount]
          exact h.new_le network }
  · rw [heq]
    exact h

/-- What is left of the old rows after a purge. -/
theorem oldHere_purge (s : Counter) (cutoff : ℚ) (old : List ClaimRow) :
    Counter.oldHere { s with ledger := purgeSql cutoff s.ledger, old := old } =
      s.oldHere.filter fun r => !decide (r.createdAt < cutoff) := by
  simp only [Counter.oldHere, purgeSql, List.filter_filter, Bool.and_comm]

theorem rowsInv_purge {s : Counter} (h : RowsInv s) {cutoff : ℚ} (hcalm : s.Calm (.purge cutoff)) :
    RowsInv
      { s with
        ledger := purgeSql cutoff s.ledger
        old :=
          if s.ledger.dripDays = [] then s.old.filter fun r => !decide (r.createdAt < cutoff)
          else s.old } where
  ids := (List.Sublist.map _ List.filter_sublist).nodup h.ids
  ids_lt := fun r hr => h.ids_lt r (List.mem_of_mem_filter hr)
  base_sent := h.base_sent
  base_left := by
    rw [oldHere_purge]
    exact List.filter_sublist.trans h.base_left
  old_sub := by
    dsimp only
    split
    · exact List.filter_sublist.trans h.old_sub
    · exact h.old_sub
  old_all := by
    intro hd
    have hd' : s.ledger.dripDays = [] := hd
    rw [oldHere_purge, h.old_all hd']
    simp only [if_pos hd']
  old_owed := by
    intro day howed
    rw [oldHere_purge]
    by_cases hd : s.ledger.dripDays = []
    · simp only [if_pos hd, h.old_all hd]
    · simp only [if_neg hd] at howed ⊢
      have hkeep := hcalm.resolve_left hd
      have hrows := h.old_owed day howed
      -- the purge passes over the day
      have hnone : rowsOn day (s.oldHere.filter fun r => !decide (r.createdAt < cutoff)) =
          rowsOn day s.oldHere := by
        rw [rowsOn, rowsOn, List.filter_filter]
        refine List.filter_congr fun r hr => ?_
        by_cases hday : r.createdDay = day
        · have hmem : r ∈ s.old := by
            have : r ∈ rowsOn day s.old := hrows ▸ List.mem_filter.mpr ⟨hr, decide_eq_true hday⟩
            exact List.mem_of_mem_filter this
          have hlate := hkeep r hmem (hday ▸ howed)
          simp [hday, hlate]
        · simp [hday]
      rw [hnone, hrows]
  new_le := fun network => by
    refine le_trans ?_ (h.new_le network)
    exact List.Sublist.countP_le List.filter_sublist

theorem finalized_of_ne {status : ClaimStatus} {txid : Option JsString} {id : Nat} {r : ClaimRow}
    (h : r.id ≠ id) : r.finalized status txid id = r := if_neg h

/-- With distinct ids the UPDATE changes one row at most. -/
theorem countP_finalized_le_succ (status : ClaimStatus) (txid : Option JsString) (id : Nat)
    (p : ClaimRow → Bool) : ∀ {rows : List ClaimRow}, (rows.map ClaimRow.id).Nodup →
      (rows.map (ClaimRow.finalized status txid id)).countP p ≤ rows.countP p + 1
  | [], _ => by simp
  | r :: rows, hids => by
      rw [List.map_cons, List.nodup_cons] at hids
      simp only [List.map_cons, List.countP_cons]
      by_cases hid : r.id = id
      · -- the others keep their id and so themselves
        have hsame : rows.map (ClaimRow.finalized status txid id) = rows := by
          refine (List.map_congr_left fun r' hr' => finalized_of_ne ?_).trans (List.map_id rows)
          intro hid'
          exact hids.1 (List.mem_map.mpr ⟨r', hr', hid'.trans hid.symm⟩)
        rw [hsame]
        split <;> split <;> omega
      · rw [finalized_of_ne hid]
        have ih := countP_finalized_le_succ status txid id p hids.2
        split <;> omega

section
variable {s : Counter} {claimId : Nat} {network : FaucetNetwork}

/-- A claim that may be finalised is no row from before. -/
theorem mem_base_finalized (h : s.mayFinalize claimId network) (status : ClaimStatus)
    (txid : Option JsString) (r : ClaimRow) :
    r.finalized status txid claimId ∈ s.base ↔ r ∈ s.base := by
  by_cases hid : r.id = claimId
  · have hout : r.finalized status txid claimId ∉ s.base := fun hmem =>
      h.2.1 _ hmem (by rw [finalized_id, hid])
    have hout' : r ∉ s.base := fun hmem => h.2.1 r hmem hid
    simp [hout, hout']
  · rw [finalized_of_ne hid]

theorem oldHere_finalize (h : s.mayFinalize claimId network) (status : ClaimStatus)
    (txid : Option JsString) :
    ((s.ledger.claims.map (ClaimRow.finalized status txid claimId)).filter fun r =>
      decide (r ∈ s.base)) = s.oldHere := by
  rw [List.filter_map, Counter.oldHere]
  have hcomp : ((fun r => decide (r ∈ s.base)) ∘ ClaimRow.finalized status txid claimId) =
      fun r => decide (r ∈ s.base) := by
    funext r
    simp only [Function.comp_apply, mem_base_finalized h]
  rw [hcomp]
  refine (List.map_congr_left fun r hr => finalized_of_ne ?_).trans (List.map_id _)
  exact h.2.1 r (of_decide_eq_true (List.mem_filter.mp hr).2)

/-- The claims of the run that are 'sent', after one more was finalised:
one more at most, and none on the other network. -/
theorem newOn_finalize (hs : RowsInv s) (h : s.mayFinalize claimId network) (status : FinalStatus)
    (txid : Option JsString) (n : FaucetNetwork) :
    ((s.ledger.claims.map (ClaimRow.finalized status.toClaimStatus txid claimId)).countP fun r =>
      r.status == .sent && !decide (r ∈ s.base) && decide (r.network = n)) ≤
      s.newOn n + if status = .sent ∧ network = n then 1 else 0 := by
  by_cases hboth : status = .sent ∧ network = n
  · rw [if_pos hboth]
    exact countP_finalized_le_succ _ _ _ _ hs.ids
  · rw [if_neg hboth, Nat.add_zero, Counter.newOn, List.countP_map]
    refine List.countP_mono_left fun r hr hcounts => ?_
    by_cases hid : r.id = claimId
    · exfalso
      have hnet := (h.1 r hr hid).2
      simp only [Function.comp_apply, ClaimRow.finalized, if_pos hid, Bool.and_eq_true, beq_iff_eq,
        decide_eq_true_eq] at hcounts
      cases status with
      | sent => exact hboth ⟨rfl, hnet.symm.trans hcounts.2⟩
      | failed => cases hcounts.1.1
    · rw [Function.comp_apply, finalized_of_ne hid] at hcounts
      exact hcounts

/-- A claim that may be finalised is counted. -/
theorem note_of_mayFinalize (h : s.mayFinalize claimId network) :
    s.note claimId network =
      { s with
        finalised := (claimId, network) :: s.finalised
        began := s.began.map fun b => { b with since := network :: b.since } } := by
  refine if_neg ?_
  rintro (hfin | ⟨r, hr, hid, -⟩)
  · exact h.2.2 _ hfin rfl
  · exact h.2.1 r hr hid

/-- The two ways a finalisation ends: it threw, or the row is updated. -/
theorem finalize_cases (h : s.mayFinalize claimId network) (status : FinalStatus) (txid : Option JsString)
    (noTxid : Bool) (nowMs : ℚ) :
    s.finalize claimId status txid noTxid nowMs network = s ∨
    (status = .failed ∧ s.finalize claimId status txid noTxid nowMs network =
      { s with ledger := finalizeSql .failed (orNull txid) claimId s.ledger }) ∨
    (status = .sent ∧ s.finalize claimId status txid noTxid nowMs network =
      { s with
        ledger := finalizeSql .sent (orNull txid) claimId s.ledger
        bumps := (network, utcDay nowMs) :: s.bumps
        finalised := (claimId, network) :: s.finalised
        began := s.began.map fun b => { b with since := network :: b.since } }) := by
  unfold Counter.finalize finalizeRow
  by_cases hguard : status = .sent ∧ orNull txid = none ∧ noTxid = false
  · rw [if_pos hguard]
    exact Or.inl rfl
  · rw [if_neg hguard]
    cases status with
    | failed => exact Or.inr (Or.inl ⟨rfl, rfl⟩)
    | sent => exact Or.inr (Or.inr ⟨rfl, by simp only [note_of_mayFinalize h]; rfl⟩)

/-- The rows after the UPDATE, whatever else the step writes down. -/
theorem rowsInv_updated {s' : Counter} (hs : RowsInv s) (h : s.mayFinalize claimId network)
    (status : FinalStatus) (txid : Option JsString)
    (hledger : s'.ledger = finalizeSql status.toClaimStatus txid claimId s.ledger)
    (hbase : s'.base = s.base) (hold : s'.old = s.old) (hfolded : s'.folded = s.folded)
    (hfin : ∀ n, s.finalisedFor n + (if status = .sent ∧ network = n then 1 else 0) ≤
      s'.finalisedFor n) : RowsInv s' := by
  have hhere : s'.oldHere = s.oldHere := by
    rw [Counter.oldHere, hledger, hbase]
    exact oldHere_finalize h _ txid
  have howed : ∀ day, s'.Owed day → s.Owed day := fun day hd => by
    rw [Counter.Owed, hfolded, hold] at hd
    exact hd
  exact
    { ids := by
        rw [hledger, finalizeSql, List.map_map]
        refine (congrArg List.Nodup (List.map_congr_left fun r _ => ?_)).mpr hs.ids
        exact finalized_id _ txid claimId r
      ids_lt := by
        rw [hledger]
        intro r hr
        obtain ⟨r', hr', rfl⟩ := List.mem_map.mp hr
        rw [finalized_id]
        exact hs.ids_lt r' hr'
      base_sent := hbase ▸ hs.base_sent
      base_left := by rw [hhere, hbase]; exact hs.base_left
      old_sub := by rw [hold, hbase]; exact hs.old_sub
      old_all := fun hd => by
        rw [hledger] at hd
        rw [hhere, hold]
        exact hs.old_all hd
      old_owed := fun day hd => by rw [hhere, hold]; exact hs.old_owed day (howed day hd)
      new_le := fun n => by
        rw [Counter.newOn, hledger, hbase]
        have hnew := newOn_finalize hs h status txid n
        exact le_trans hnew (le_trans (Nat.add_le_add_right (hs.new_le n) _) (hfin n)) }

theorem rowsInv_finalize (hs : RowsInv s) (h : s.mayFinalize claimId network) (status : FinalStatus)
    (txid : Option JsString) (noTxid : Bool) (nowMs : ℚ) :
    RowsInv (s.finalize claimId status txid noTxid nowMs network) := by
  rcases finalize_cases h status txid noTxid nowMs with
    heq | ⟨rfl, heq⟩ | ⟨rfl, heq⟩
  · rw [heq]
    exact hs
  · rw [heq]
    exact rowsInv_updated hs h .failed (orNull txid) rfl rfl rfl rfl fun n => by
      simp [Counter.finalisedFor]
  · rw [heq]
    exact rowsInv_updated hs h .sent (orNull txid) rfl rfl rfl rfl fun n => by
      simp [Counter.finalisedFor, List.countP_cons]

end

/-! ## §2 Buckets -/

/-- The primary key of `drip_days`. -/
def DripDay.key (d : DripDay) : FaucetNetwork × Int := (d.network, d.day)

/-- What `drip_days` has for a network and a day. -/
def Counter.bucketOf (s : Counter) (network : FaucetNetwork) (day : Int) : Nat :=
  bucket DripDay.key DripDay.sent s.ledger.dripDays (network, day)

theorem dripBumpSql_eq (network : FaucetNetwork) (day : Int) (l : Ledger) :
    (dripBumpSql network day l).dripDays =
      upsert DripDay.key ⟨network, day, 1⟩ (fun d => { d with sent := d.sent + 1 }) l.dripDays := by
  simp [dripBumpSql, upsert, DripDay.key, Bool.decide_and, Bool.beq_eq_decide_eq]

theorem dripSeedSql_eq (network : FaucetNetwork) (day : Int) (sent : Nat) (l : Ledger) :
    (dripSeedSql network day sent l).dripDays =
      upsert DripDay.key ⟨network, day, sent⟩ (fun d => { d with sent := max d.sent sent })
        l.dripDays := by
  simp [dripSeedSql, upsert, DripDay.key, Bool.decide_and, Bool.beq_eq_decide_eq]

/-- One more in the bucket of the bump. -/
theorem bucket_dripBumpSql {l : Ledger} (hnodup : (l.dripDays.map DripDay.key).Nodup)
    (network : FaucetNetwork) (day : Int) (k : FaucetNetwork × Int) :
    bucket DripDay.key DripDay.sent (dripBumpSql network day l).dripDays k =
      bucket DripDay.key DripDay.sent l.dripDays k + if (network, day) = k then 1 else 0 := by
  have hrule := @bucket_upsert DripDay (FaucetNetwork × Int) _ DripDay.key DripDay.sent
    ⟨network, day, 1⟩ (fun d => { d with sent := d.sent + 1 }) (fun n => n + 1) (fun _ => rfl)
    (fun _ => rfl) rfl l.dripDays hnodup k
  rw [dripBumpSql_eq, hrule]
  by_cases hk : (network, day) = k
  · rw [if_pos hk, if_pos (show k = DripDay.key ⟨network, day, 1⟩ from hk.symm)]
  · rw [if_neg hk, if_neg (show ¬k = DripDay.key ⟨network, day, 1⟩ from Ne.symm hk), Nat.add_zero]

/-- The bucket of the seed's day is raised to what it counted. -/
theorem bucket_dripSeedSql {l : Ledger} (hnodup : (l.dripDays.map DripDay.key).Nodup)
    (network : FaucetNetwork) (day : Int) (sent : Nat) (k : FaucetNetwork × Int) :
    bucket DripDay.key DripDay.sent (dripSeedSql network day sent l).dripDays k =
      if k = (network, day) then max (bucket DripDay.key DripDay.sent l.dripDays k) sent
      else bucket DripDay.key DripDay.sent l.dripDays k := by
  rw [dripSeedSql_eq]
  exact @bucket_upsert DripDay (FaucetNetwork × Int) _ DripDay.key DripDay.sent
    ⟨network, day, sent⟩ (fun d => { d with sent := max d.sent sent }) (fun n => max n sent)
    (fun _ => rfl) (fun _ => rfl) (Nat.zero_max sent).symm l.dripDays hnodup k

theorem nodup_dripBumpSql {l : Ledger} (hnodup : (l.dripDays.map DripDay.key).Nodup)
    (network : FaucetNetwork) (day : Int) :
    ((dripBumpSql network day l).dripDays.map DripDay.key).Nodup := by
  rw [dripBumpSql_eq]
  exact @nodup_upsert DripDay (FaucetNetwork × Int) _ DripDay.key ⟨network, day, 1⟩
    (fun d => { d with sent := d.sent + 1 }) (fun _ => rfl) l.dripDays hnodup

theorem nodup_dripSeedSql {l : Ledger} (hnodup : (l.dripDays.map DripDay.key).Nodup)
    (network : FaucetNetwork) (day : Int) (sent : Nat) :
    ((dripSeedSql network day sent l).dripDays.map DripDay.key).Nodup := by
  rw [dripSeedSql_eq]
  exact @nodup_upsert DripDay (FaucetNetwork × Int) _ DripDay.key ⟨network, day, sent⟩
    (fun d => { d with sent := max d.sent sent }) (fun _ => rfl) l.dripDays hnodup

theorem upsert_ne_nil {α κ : Type} [DecidableEq κ] (key : α → κ) (new : α) (update : α → α)
    (rows : List α) : upsert key new update rows ≠ [] := by
  unfold upsert
  split
  · rename_i hany
    intro hnil
    rw [List.map_eq_nil_iff.mp hnil] at hany
    cases hany
  · exact List.cons_ne_nil _ _

/-- A table in which a day has something is not empty. -/
theorem bucketOf_pos {s : Counter} {network : FaucetNetwork} {day : Int}
    (h : 0 < s.bucketOf network day) : s.ledger.dripDays ≠ [] := by
  intro hnil
  rw [Counter.bucketOf, hnil, bucket_nil] at h
  exact absurd h (Nat.lt_irrefl 0)

/-- The TAZ rows from before that fall on a day. -/
def Counter.baseOn (s : Counter) (day : Int) : Nat :=
  s.base.countP fun r => decide (r.network = .taz) && decide (r.createdDay = day)

/-- The old rows that fall on a day. -/
def Counter.oldOn (s : Counter) (day : Int) : Nat := (rowsOn day s.old).length

/-- The bumps the bucket of a network and a day has had. -/
def Counter.landedAt (s : Counter) (network : FaucetNetwork) (day : Int) : Nat :=
  s.landed.countP fun b => decide (b = (network, day))

theorem owed_iff {s : Counter} {day : Int} : s.Owed day ↔ day ∉ s.folded ∧ 0 < s.oldOn day := by
  rw [Counter.Owed, Counter.oldOn, List.length_pos_iff_exists_mem]
  simp only [rowsOn, List.mem_filter, decide_eq_true_eq]

/-! ## §3 Invariant -/

/-- The buckets: bumps and rows from before, nothing else and nothing
twice. -/
structure BucketsInv (s : Counter) : Prop where
  days : (s.ledger.dripDays.map DripDay.key).Nodup
  taz_le : ∀ day, s.bucketOf .taz day ≤ s.baseOn day + s.landedAt .taz day
  taz_ge : ∀ day, s.landedAt .taz day ≤ s.bucketOf .taz day
  ctaz_eq : ∀ day, s.bucketOf .ctaz day = s.landedAt .ctaz day
  folded_ge : ∀ day ∈ s.folded, 0 < s.oldOn day →
    s.oldOn day + s.landedAt .taz day ≤ s.bucketOf .taz day

/-- The seeds under way: what they hold fits the bucket it will go into,
and every day that is still owed is left to one of them. -/
structure SeedsInv (s : Counter) : Prop where
  held : ∀ seed ∈ s.seeds, ∀ day sent, seed.left.head? = some day → seed.held = some sent →
    sent ≤ s.baseOn day + s.landedAt .taz day ∧
      (s.Owed day → s.oldOn day + s.landedAt .taz day ≤ sent)
  owed_left : s.ledger.dripDays = [] ∨ ∀ day, s.Owed day → ∃ seed ∈ s.seeds, day ∈ seed.left
  all_left : s.ledger.dripDays = [] → ∀ seed ∈ s.seeds, seed.left ≠ [] →
    ∀ r ∈ s.old, r.createdDay ∈ seed.left

/-- How many of the bumps under way are for a network. -/
def Counter.bumpsFor (s : Counter) (network : FaucetNetwork) : Nat :=
  s.bumps.countP fun b => decide (b.1 = network)

def Counter.landedFor (s : Counter) (network : FaucetNetwork) : Nat :=
  s.landed.countP fun b => decide (b.1 = network)

/-- How many rows of a list are of a network. -/
def rowsFor (network : FaucetNetwork) (rows : List ClaimRow) : Nat :=
  rows.countP fun r => decide (r.network = network)

/-- The totals: a finalised claim has its bump, and what was there when
counting began is accounted for. -/
structure TallyInv (s : Counter) : Prop where
  counted : ∀ network, s.finalisedFor network = s.landedFor network + s.bumpsFor network
  begins : s.began = none ↔ s.ledger.dripDays = []
  old_taz : s.ledger.dripDays ≠ [] → ∀ r ∈ s.old, r.network = .taz
  began_le : ∀ b ∈ s.began, ∀ network,
    rowsFor network b.present + b.since.countP (fun n => decide (n = network)) ≤
      rowsFor network s.old + s.finalisedFor network

structure CountInv (s : Counter) : Prop where
  rows : RowsInv s
  buckets : BucketsInv s
  seeds : SeedsInv s
  tally : TallyInv s

/-- Old rows only go. -/
theorem oldOn_le {s s' : Counter} (h : s'.old.Sublist s.old) (day : Int) : s'.oldOn day ≤ s.oldOn day :=
  (h.filter _).length_le

theorem owed_of_owed {s s' : Counter} (hold : s'.old.Sublist s.old) (hfolded : s.folded ⊆ s'.folded)
    {day : Int} (h : s'.Owed day) : s.Owed day := by
  rw [owed_iff] at h ⊢
  exact ⟨fun hmem => h.1 (hfolded hmem), Nat.lt_of_lt_of_le h.2 (oldOn_le hold day)⟩

/-- Steps that leave `drip_days` and the bumps on it alone. -/
theorem BucketsInv.congr {s s' : Counter} (h : BucketsInv s)
    (hdays : s'.ledger.dripDays = s.ledger.dripDays) (hbase : s'.base = s.base)
    (hold : s'.old.Sublist s.old) (hlanded : s'.landed = s.landed) (hfolded : s'.folded = s.folded) :
    BucketsInv s' := by
  have hbucket : ∀ network day, s'.bucketOf network day = s.bucketOf network day := fun _ _ => by
    rw [Counter.bucketOf, hdays, Counter.bucketOf]
  have hland : ∀ network day, s'.landedAt network day = s.landedAt network day := fun _ _ => by
    rw [Counter.landedAt, hlanded, Counter.landedAt]
  have hbaseOn : ∀ day, s'.baseOn day = s.baseOn day := fun _ => by
    rw [Counter.baseOn, hbase, Counter.baseOn]
  exact
    { days := hdays ▸ h.days
      taz_le := fun day => by rw [hbucket, hland, hbaseOn]; exact h.taz_le day
      taz_ge := fun day => by rw [hbucket, hland]; exact h.taz_ge day
      ctaz_eq := fun day => by rw [hbucket, hland]; exact h.ctaz_eq day
      folded_ge := fun day hday hpos => by
        have hle := oldOn_le hold day
        rw [hbucket, hland]
        exact le_trans (Nat.add_le_add_right hle _)
          (h.folded_ge day (hfolded ▸ hday) (Nat.lt_of_lt_of_le hpos hle)) }

/-- And the seeds. -/
theorem SeedsInv.congr {s s' : Counter} (h : SeedsInv s)
    (hdays : s'.ledger.dripDays = s.ledger.dripDays) (hbase : s'.base = s.base)
    (hold : s'.old.Sublist s.old) (hlanded : s'.landed = s.landed) (hfolded : s'.folded = s.folded)
    (hseeds : s'.seeds = s.seeds) : SeedsInv s' := by
  have hland : ∀ network day, s'.landedAt network day = s.landedAt network day := fun _ _ => by
    rw [Counter.landedAt, hlanded, Counter.landedAt]
  have hbaseOn : ∀ day, s'.baseOn day = s.baseOn day := fun _ => by
    rw [Counter.baseOn, hbase, Counter.baseOn]
  have howed : ∀ {day}, s'.Owed day → s.Owed day :=
    owed_of_owed hold (by rw [hfolded]; exact List.Subset.refl _)
  exact
    { held := fun seed hseed day sent hday hsent => by
        obtain ⟨hle, hge⟩ := h.held seed (hseeds ▸ hseed) day sent hday hsent
        rw [hbaseOn, hland]
        exact ⟨hle, fun ho => le_trans (Nat.add_le_add_right (oldOn_le hold day) _) (hge (howed ho))⟩
      owed_left := by
        rw [hdays, hseeds]
        exact h.owed_left.imp_right fun hleft day ho => hleft day (howed ho)
      all_left := by
        rw [hdays, hseeds]
        exact fun hd seed hseed hne r hr => h.all_left hd seed hseed hne r (hold.subset hr) }

/-- And the totals, which no seed is part of. -/
theorem TallyInv.seeds {s : Counter} (h : TallyInv s) (seeds : List Seed) (folded : List Int) :
    TallyInv { s with seeds := seeds, folded := folded } where
  counted := h.counted
  begins := h.begins
  old_taz := h.old_taz
  began_le := h.began_le

/-- A seed that has put down what it held brings no number of its own. -/
theorem SeedsInv.held_set {s : Counter} (h : SeedsInv s) {i : Nat} {rest : List Int} :
    ∀ seed ∈ s.seeds.set i ⟨rest, none⟩, ∀ day sent, seed.left.head? = some day →
      seed.held = some sent → sent ≤ s.baseOn day + s.landedAt .taz day ∧
        (s.Owed day → s.oldOn day + s.landedAt .taz day ≤ sent) := by
  intro seed hseed day sent hday hsent
  rcases List.mem_or_eq_of_mem_set hseed with hseed | rfl
  · exact h.held seed hseed day sent hday hsent
  · cases hsent

/-! ## §4 Steps -/

section
variable {cfg : LedgerConfig} {s s' : Counter}

theorem countInv_reserve (h : CountInv s) (o : ReserveOpts) :
    CountInv { s with ledger := (reserveClaim cfg o s.ledger).1 } := by
  have hdays : (reserveClaim cfg o s.ledger).1.dripDays = s.ledger.dripDays := by
    rcases reserveClaim_cases cfg o s.ledger with ⟨_, heq⟩ | ⟨_, heq⟩ <;> rw [heq]
  exact
    { rows := rowsInv_reserve h.rows cfg o
      buckets := h.buckets.congr hdays rfl (List.Sublist.refl _) rfl rfl
      seeds := h.seeds.congr hdays rfl (List.Sublist.refl _) rfl rfl rfl
      tally :=
        { counted := h.tally.counted
          begins := by
            dsimp only
            rw [hdays]
            exact h.tally.begins
          old_taz := by
            dsimp only
            rw [hdays]
            exact h.tally.old_taz
          began_le := h.tally.began_le } }

theorem countInv_purge (h : CountInv s) {cutoff : ℚ} (hcalm : s.Calm (.purge cutoff))
    (hstep : s.step cfg (.purge cutoff) = some s') : CountInv s' := by
  cases hstep
  have hold : (if s.ledger.dripDays = [] then s.old.filter fun r => !decide (r.createdAt < cutoff)
      else s.old).Sublist s.old := by
    split
    · exact List.filter_sublist
    · exact List.Sublist.refl _
  exact
    { rows := rowsInv_purge h.rows hcalm
      buckets := h.buckets.congr rfl rfl hold rfl rfl
      seeds := h.seeds.congr rfl rfl hold rfl rfl rfl
      tally :=
        { counted := h.tally.counted
          begins := h.tally.begins
          old_taz := fun hne r hr => h.tally.old_taz hne r (hold.subset hr)
          began_le := fun b hb network => by
            -- the old rows are settled once counting has begun
            have hne : s.ledger.dripDays ≠ [] := fun hd => by
              rw [h.tally.begins.mpr hd] at hb
              cases hb
            have hle := h.tally.began_le b hb network
            dsimp only
            rw [if_neg hne]
            exact hle } }

theorem countInv_finalize (h : CountInv s) {claimId : Nat} {network : FaucetNetwork}
    (hmay : s.mayFinalize claimId network) (status : FinalStatus) (txid : Option JsString)
    (noTxid : Bool) (nowMs : ℚ) :
    CountInv (s.finalize claimId status txid noTxid nowMs network) := by
  have hrows := rowsInv_finalize h.rows hmay status txid noTxid nowMs
  rcases finalize_cases hmay status txid noTxid nowMs with heq | ⟨_, heq⟩ | ⟨_, heq⟩
  · rw [heq]
    exact h
  · rw [heq] at hrows ⊢
    exact ⟨hrows, h.buckets.congr rfl rfl (List.Sublist.refl _) rfl rfl,
      h.seeds.congr rfl rfl (List.Sublist.refl _) rfl rfl rfl, ⟨h.tally.counted, h.tally.begins,
        h.tally.old_taz, h.tally.began_le⟩⟩
  · rw [heq] at hrows ⊢
    refine ⟨hrows, h.buckets.congr rfl rfl (List.Sublist.refl _) rfl rfl,
      h.seeds.congr rfl rfl (List.Sublist.refl _) rfl rfl rfl, ?_⟩
    exact
      { counted := fun n => by
          have hcounted := h.tally.counted n
          simp only [Counter.finalisedFor, Counter.landedFor, Counter.bumpsFor,
            List.countP_cons] at hcounted ⊢
          omega
        begins := by
          dsimp only
          rw [Option.map_eq_none_iff]
          exact h.tally.begins
        old_taz := h.tally.old_taz
        began_le := fun b hb n => by
          obtain ⟨b', hb', rfl⟩ := Option.map_eq_some_iff.mp hb
          have hle := h.tally.began_le b' hb' n
          simp only [Counter.finalisedFor, List.countP_cons] at hle ⊢
          omega }

/-- What is in the table when counting begins is old or was finalised in
the run. -/
theorem rowsFor_sentRows_le (h : RowsInv s) (hd : s.ledger.dripDays = []) (network : FaucetNetwork) :
    rowsFor network (sentRows s.ledger) ≤ rowsFor network s.old + s.finalisedFor network := by
  have hsplit := countP_split (fun r : ClaimRow => r.status == .sent && decide (r.network = network))
    (fun r => decide (r ∈ s.base)) s.ledger.claims
  have hall : rowsFor network (sentRows s.ledger) =
      s.ledger.claims.countP fun r => r.status == .sent && decide (r.network = network) := by
    rw [rowsFor, sentRows, List.countP_filter]
    exact List.countP_congr fun r _ => by rw [Bool.and_comm]
  have hold : (s.ledger.claims.countP fun r =>
      (r.status == .sent && decide (r.network = network)) && decide (r ∈ s.base)) =
        rowsFor network s.old := by
    rw [← h.old_all hd, rowsFor, Counter.oldHere, List.countP_filter]
    refine List.countP_congr fun r _ => ?_
    simp only [Bool.and_eq_true, decide_eq_true_eq, beq_iff_eq]
    exact ⟨fun hr => ⟨hr.1.2, hr.2⟩, fun hr => ⟨⟨h.base_sent r hr.2, hr.1⟩, hr.2⟩⟩
  have hnew : (s.ledger.claims.countP fun r =>
      (r.status == .sent && decide (r.network = network)) && !decide (r ∈ s.base)) =
        s.newOn network := by
    refine List.countP_congr fun r _ => ?_
    simp only [Bool.and_eq_true, and_right_comm]
  rw [hall, hsplit, hold, hnew]
  exact Nat.add_le_add_left (h.new_le network) _

/-- The first row of `drip_days`, or one more: the totals before it hold
after it. -/
theorem tallyInv_begin (h : CountInv s) (hbegins : s.BeginsCleanly)
    (hledger : s'.ledger.dripDays ≠ []) (hbegan : s'.began = s.begin.began) (hold : s'.old = s.old)
    (hfin : s'.finalised = s.finalised)
    (hcount : ∀ n, s'.landedFor n + s'.bumpsFor n = s.landedFor n + s.bumpsFor n) : TallyInv s' where
  counted := fun n => by
    have hcounted := h.tally.counted n
    rw [hcount, Counter.finalisedFor, hfin]
    exact hcounted
  begins := by
    rw [hbegan]
    exact ⟨fun hb => absurd hb (Option.some_ne_none _), fun hd => absurd hd hledger⟩
  old_taz := fun _ r hr => by
    rw [hold] at hr
    by_cases hd : s.ledger.dripDays = []
    · exact hbegins hd r hr
    · exact h.tally.old_taz hd r hr
  began_le := fun b hb n => by
    have hfor : s'.finalisedFor n = s.finalisedFor n := by
      rw [Counter.finalisedFor, hfin, Counter.finalisedFor]
    rw [hbegan] at hb
    rw [hold, hfor]
    cases hs : s.began with
    | some b₀ =>
        rw [Counter.begin, hs] at hb
        cases hb
        exact h.tally.began_le b₀ hs n
    | none =>
        rw [Counter.begin, hs] at hb
        cases hb
        exact rowsFor_sentRows_le h.rows (h.tally.begins.mp hs) n

theorem landedAt_bump {network : FaucetNetwork} {day : Int} (hlanded : s'.landed = (network, day) :: s.landed)
    (n : FaucetNetwork) (d : Int) :
    s'.landedAt n d = s.landedAt n d + if (network, day) = (n, d) then 1 else 0 := by
  simp only [Counter.landedAt, hlanded, List.countP_cons, decide_eq_true_eq]

/-- One more in the bucket, and one more bump that landed. -/
theorem bucketsInv_bump (h : BucketsInv s) {network : FaucetNetwork} {day : Int}
    (hledger : s'.ledger = dripBumpSql network day s.ledger) (hlanded : s'.landed = (network, day) :: s.landed)
    (hbase : s'.base = s.base) (hold : s'.old = s.old) (hfolded : s'.folded = s.folded) : BucketsInv s' := by
  have hbucket (n : FaucetNetwork) (d : Int) :
      s'.bucketOf n d = s.bucketOf n d + if (network, day) = (n, d) then 1 else 0 := by
    rw [Counter.bucketOf, hledger]
    exact bucket_dripBumpSql h.days network day (n, d)
  have hland := landedAt_bump hlanded
  exact
    { days := by
        rw [hledger]
        exact nodup_dripBumpSql h.days network day
      taz_le := fun d => by
        have hle := h.taz_le d
        have hbaseOn : s'.baseOn d = s.baseOn d := by rw [Counter.baseOn, hbase, Counter.baseOn]
        rw [hbucket, hland, hbaseOn]
        omega
      taz_ge := fun d => by
        rw [hbucket, hland]
        exact Nat.add_le_add_right (h.taz_ge d) _
      ctaz_eq := fun d => by rw [hbucket, hland, h.ctaz_eq d]
      folded_ge := fun d hd hpos => by
        have holdOn : s'.oldOn d = s.oldOn d := by rw [Counter.oldOn, hold, Counter.oldOn]
        rw [hfolded] at hd
        rw [holdOn] at hpos ⊢
        have hge := h.folded_ge d hd hpos
        rw [hbucket, hland]
        omega }

/-- A seed that holds a number for an owed day was not overtaken. -/
theorem seedsInv_bump (h : SeedsInv s) {network : FaucetNetwork} {day : Int}
    (hne : s'.ledger.dripDays ≠ []) (hlanded : s'.landed = (network, day) :: s.landed)
    (hbase : s'.base = s.base) (hold : s'.old = s.old) (hfolded : s'.folded = s.folded)
    (hseeds : s'.seeds = s.seeds)
    (hempty : s.ledger.dripDays = [] → s.old = [] ∨ ∃ seed ∈ s.seeds, seed.left ≠ [])
    (hheld : network = .taz → s.Owed day → ∀ seed ∈ s.seeds, ¬ seed.Holds day) : SeedsInv s' := by
  have hland := landedAt_bump hlanded
  have howed (d : Int) : s'.Owed d ↔ s.Owed d := by
    rw [Counter.Owed, hfolded, hold, Counter.Owed]
  exact
    { held := fun seed hseed d sent hd hsent => by
        rw [hseeds] at hseed
        obtain ⟨hle, hge⟩ := h.held seed hseed d sent hd hsent
        have hbaseOn : s'.baseOn d = s.baseOn d := by rw [Counter.baseOn, hbase, Counter.baseOn]
        have holdOn : s'.oldOn d = s.oldOn d := by rw [Counter.oldOn, hold, Counter.oldOn]
        rw [hland, hbaseOn, holdOn, howed]
        refine ⟨by omega, fun ho => ?_⟩
        by_cases hk : (network, day) = (.taz, d)
        · have hday : day = d := congrArg Prod.snd hk
          subst hday
          have hholds : seed.Holds day := ⟨by rw [hsent]; exact Option.some_ne_none _, hd⟩
          exact absurd hholds (hheld (congrArg Prod.fst hk) ho seed hseed)
        · rw [if_neg hk]
          exact hge ho
      owed_left := by
        rw [hseeds]
        refine Or.inr fun d ho => ?_
        rw [howed] at ho
        by_cases hd : s.ledger.dripDays = []
        · obtain ⟨r, hr, rfl⟩ := ho.2
          rcases hempty hd with hnil | ⟨seed, hseed, hleft⟩
          · rw [hnil] at hr
            cases hr
          · exact ⟨seed, hseed, h.all_left hd seed hseed hleft r hr⟩
        · exact h.owed_left.resolve_left hd d ho
      all_left := fun hd => absurd hd hne }

/-- A bump that lands is one less on its way. -/
theorem landedFor_bump {network : FaucetNetwork} {day : Int} (hmem : (network, day) ∈ s.bumps)
    (hlanded : s'.landed = (network, day) :: s.landed) (hbumps : s'.bumps = s.bumps.erase (network, day))
    (n : FaucetNetwork) : s'.landedFor n + s'.bumpsFor n = s.landedFor n + s.bumpsFor n := by
  have herase := List.countP_erase (fun b : FaucetNetwork × Int => decide (b.1 = n)) s.bumps
    (network, day)
  have hpos : network = n → 0 < s.bumpsFor n := fun hn =>
    List.countP_pos_iff.mpr ⟨_, hmem, decide_eq_true hn⟩
  rw [Counter.landedFor, Counter.bumpsFor, hlanded, hbumps]
  simp only [Counter.landedFor, Counter.bumpsFor, List.countP_cons, hmem, true_and,
    decide_eq_true_eq] at herase hpos ⊢
  rw [herase]
  split
  · rename_i hn
    have := hpos hn
    omega
  · omega

theorem countInv_bump (h : CountInv s) {network : FaucetNetwork} {day : Int}
    (hcalm : s.Calm (.bump network day)) (hstep : s.step cfg (.bump network day) = some s') :
    CountInv s' := by
  obtain ⟨hbegins, hempty, hheld⟩ := hcalm
  obtain ⟨hmem, heq⟩ := Option.ite_none_right_eq_some.mp hstep
  cases heq
  have hne : (dripBumpSql network day s.ledger).dripDays ≠ [] := by
    rw [dripBumpSql_eq]
    exact upsert_ne_nil _ _ _ _
  exact
    { rows := h.rows.congr rfl rfl rfl rfl rfl (fun hd => absurd hd hne) fun _ ho => ho
      buckets := bucketsInv_bump h.buckets rfl rfl rfl rfl rfl
      seeds := seedsInv_bump h.seeds hne rfl rfl rfl rfl rfl hempty hheld
      tally := tallyInv_begin h hbegins hne rfl rfl rfl (landedFor_bump hmem rfl rfl) }

theorem countInv_countDrips (h : CountInv s) {nowMs : ℚ} (hcalm : s.Calm (.countDrips nowMs)) :
    CountInv (s.countDrips nowMs) := by
  unfold Counter.countDrips
  split
  · exact h
  · rename_i hany
    have hd : s.ledger.dripDays = [] :=
      List.length_eq_zero_iff.mp (Nat.eq_zero_of_not_pos hany)
    exact
      { rows := h.rows.congr rfl rfl rfl rfl rfl id fun _ ho => ho
        buckets := h.buckets.congr rfl rfl (List.Sublist.refl _) rfl rfl
        seeds :=
          { held := fun seed hseed day sent hday hsent => by
              rcases List.mem_cons.mp hseed with rfl | hseed
              · cases hsent
              · exact h.seeds.held seed hseed day sent hday hsent
            owed_left := Or.inl hd
            all_left := fun _ seed hseed hne r hr => by
              rcases List.mem_cons.mp hseed with rfl | hseed
              · exact hcalm hd r hr
              · exact h.seeds.all_left hd seed hseed hne r hr }
        tally := h.tally.seeds _ _ }

/-- A seed among the others after one of them changed. -/
theorem exists_mem_set {seeds : List Seed} {i : Nat} {seed seed' : Seed} (hi : seeds[i]? = some seed)
    {P : Seed → Prop} (hP : P seed → P seed') (h : ∃ other ∈ seeds, P other) :
    ∃ other ∈ seeds.set i seed', P other := by
  obtain ⟨other, hother, hp⟩ := h
  obtain ⟨j, hj⟩ := List.mem_iff_getElem?.mp hother
  by_cases hij : i = j
  · subst hij
    rw [hi] at hj
    cases hj
    refine ⟨seed', List.mem_iff_getElem?.mpr ⟨i, ?_⟩, hP hp⟩
    rw [List.getElem?_set_self' , hi]
    rfl
  · exact ⟨other, List.mem_iff_getElem?.mpr ⟨j, by rw [List.getElem?_set_ne hij, hj]⟩, hp⟩

/-- A day that comes off the list of a seed had nothing owed on it, or is
folded now. -/
theorem owed_cons {day d : Int} (ho : s'.Owed day) (hold : s'.old = s.old)
    (hfolded : s'.folded = d :: s.folded) : s.Owed day ∧ day ≠ d := by
  rw [Counter.Owed, hfolded, hold, List.mem_cons, not_or] at ho
  exact ⟨⟨ho.1.2, ho.2⟩, ho.1.1⟩

/-- While the table is empty, a day with old rows is owed. -/
theorem owed_of_empty (h : BucketsInv s) (hd : s.ledger.dripDays = []) {r : ClaimRow} (hr : r ∈ s.old) :
    s.Owed r.createdDay := by
  refine ⟨fun hfolded => ?_, r, hr, rfl⟩
  have hpos : 0 < s.oldOn r.createdDay :=
    List.length_pos_of_mem (List.mem_filter.mpr ⟨hr, decide_eq_true rfl⟩)
  have hge := h.folded_ge _ hfolded hpos
  exact bucketOf_pos (lt_of_lt_of_le hpos (le_trans (Nat.le_add_right _ _) hge)) hd

/-- What a seed under way has left, after it is done with its first day. -/
theorem seedsInv_advance (h : CountInv s) {i : Nat} {day : Int} {rest : List Int} {held : Option Nat}
    (hi : s.seeds[i]? = some ⟨day :: rest, held⟩) :
    (∀ d, s.Owed d ∧ d ≠ day → s.ledger.dripDays ≠ [] →
      ∃ seed ∈ s.seeds.set i ⟨rest, none⟩, d ∈ seed.left) ∧
    ∀ d, s.Owed d → d ≠ day → s.ledger.dripDays = [] → d ∈ rest := by
  have hmem : (⟨day :: rest, held⟩ : Seed) ∈ s.seeds := List.mem_of_getElem? hi
  refine ⟨fun d ho hd => ?_, fun d ho hne hd => ?_⟩
  · refine exists_mem_set hi (fun hin => ?_) (h.seeds.owed_left.resolve_left hd d ho.1)
    exact (List.mem_cons.mp hin).resolve_left ho.2
  · obtain ⟨r, hr, rfl⟩ := ho.2
    have hin := h.seeds.all_left hd _ hmem (List.cons_ne_nil _ _) r hr
    exact (List.mem_cons.mp hin).resolve_left hne

/-- The rows from before that the table still has on a day, all of them
TAZ, are among the TAZ rows of the day. -/
theorem oldHere_le_baseOn (h : RowsInv s) {day : Int}
    (htaz : ∀ r ∈ s.ledger.claims, r ∈ s.base → r.createdDay = day → r.network = .taz) :
    (rowsOn day s.oldHere).length ≤ s.baseOn day := by
  rw [rowsOn, ← List.countP_eq_length_filter, Counter.baseOn]
  refine le_trans ?_ (h.base_left.countP_le)
  refine List.countP_mono_left fun r hr hday => ?_
  obtain ⟨hclaims, hbase⟩ := List.mem_filter.mp hr
  simp only [Bool.and_eq_true, decide_eq_true_eq] at hday hbase ⊢
  exact ⟨htaz r hclaims hbase hday, hday⟩

/-- A day folded with another one: its old rows are in the bucket, or it is
the other one and was owed. -/
theorem folded_cons_cases (h : BucketsInv s) {d day : Int} (hd : d ∈ day :: s.folded) (hpos : 0 < s.oldOn d) :
    s.oldOn d + s.landedAt .taz d ≤ s.bucketOf .taz d ∨ d = day ∧ s.Owed d := by
  by_cases hin : d ∈ s.folded
  · exact Or.inl (h.folded_ge d hin hpos)
  · rcases List.mem_cons.mp hd with rfl | hd
    · exact Or.inr ⟨rfl, owed_iff.mpr ⟨hin, hpos⟩⟩
    · exact absurd hd hin

/-- The held number of a day goes into its bucket, where that holds less. -/
theorem bucketsInv_seedWrite (h : BucketsInv s) {day : Int} {sent : Nat}
    (hup : sent ≤ s.baseOn day + s.landedAt .taz day)
    (hlow : s.Owed day → s.oldOn day + s.landedAt .taz day ≤ sent)
    (hledger : s'.ledger = dripSeedSql .taz day sent s.ledger) (hlanded : s'.landed = s.landed)
    (hbase : s'.base = s.base) (hold : s'.old = s.old) (hfolded : s'.folded = day :: s.folded) :
    BucketsInv s' := by
  have hbucket (n : FaucetNetwork) (d : Int) :
      s'.bucketOf n d = if (n, d) = (.taz, day) then max (s.bucketOf n d) sent else s.bucketOf n d := by
    rw [Counter.bucketOf, hledger]
    exact bucket_dripSeedSql h.days .taz day sent (n, d)
  have hland (n : FaucetNetwork) (d : Int) : s'.landedAt n d = s.landedAt n d := by
    rw [Counter.landedAt, hlanded, Counter.landedAt]
  exact
    { days := by
        rw [hledger]
        exact nodup_dripSeedSql h.days .taz day sent
      taz_le := fun d => by
        have hbaseOn : s'.baseOn d = s.baseOn d := by rw [Counter.baseOn, hbase, Counter.baseOn]
        rw [hbucket, hland, hbaseOn]
        split
        · rename_i hk
          have hd : d = day := congrArg Prod.snd hk
          subst hd
          exact max_le (h.taz_le d) hup
        · exact h.taz_le d
      taz_ge := fun d => by
        rw [hbucket, hland]
        split
        · exact le_max_of_le_left (h.taz_ge d)
        · exact h.taz_ge d
      ctaz_eq := fun d => by
        rw [hbucket, hland, if_neg (fun hk => by cases congrArg Prod.fst hk)]
        exact h.ctaz_eq d
      folded_ge := fun d hd hpos => by
        have holdOn : s'.oldOn d = s.oldOn d := by rw [Counter.oldOn, hold, Counter.oldOn]
        rw [hfolded] at hd
        rw [holdOn] at hpos
        rw [holdOn, hland, hbucket]
        rcases folded_cons_cases h hd hpos with hge | ⟨rfl, ho⟩
        · split
          · exact le_max_of_le_left hge
          · exact hge
        · -- the day was owed, and what the seed held covers it
          rw [if_pos rfl]
          exact le_max_of_le_right (hlow ho) }

/-- A seed that has read the number of its day holds it. -/
theorem seedsInv_hold (h : SeedsInv s) {i : Nat} {day : Int} {rest : List Int} {sent : Nat}
    (hi : s.seeds[i]? = some ⟨day :: rest, none⟩) (hup : sent ≤ s.baseOn day + s.landedAt .taz day)
    (hlow : s.Owed day → s.oldOn day + s.landedAt .taz day ≤ sent) :
    SeedsInv { s with seeds := s.seeds.set i ⟨day :: rest, some sent⟩ } where
  held := fun seed hseed d n hd hn => by
    rcases List.mem_or_eq_of_mem_set hseed with hseed | rfl
    · exact h.held seed hseed d n hd hn
    · cases hn
      cases hd
      exact ⟨hup, hlow⟩
  owed_left := h.owed_left.imp_right fun hleft d ho => exists_mem_set hi (fun hin => hin) (hleft d ho)
  all_left := fun hd seed hseed hne r hr => by
    rcases List.mem_or_eq_of_mem_set hseed with hseed | rfl
    · exact h.all_left hd seed hseed hne r hr
    · exact h.all_left hd _ (List.mem_of_getElem? hi) hne r hr

/-- A seed that found no rows goes on to its next day, which nothing is lost by. -/
theorem seedsInv_skip (h : CountInv s) {i : Nat} {day : Int} {rest : List Int}
    (hi : s.seeds[i]? = some ⟨day :: rest, none⟩) (hnot : ¬ s.Owed day) :
    SeedsInv { s with seeds := s.seeds.set i ⟨rest, none⟩, folded := day :: s.folded } := by
  obtain ⟨hleft, hrest⟩ := seedsInv_advance h hi
  exact
    { held := fun seed hseed d sent hd hsent => by
        obtain ⟨hup, hlow⟩ := h.seeds.held_set seed hseed d sent hd hsent
        exact ⟨hup, fun ho => hlow (owed_cons (s := s) ho rfl rfl).1⟩
      owed_left := by
        by_cases hd : s.ledger.dripDays = []
        · exact Or.inl hd
        · exact Or.inr fun d ho => hleft d (owed_cons (s := s) ho rfl rfl) hd
      all_left := fun hd seed hseed hne r hr => by
        rcases List.mem_or_eq_of_mem_set hseed with hseed | rfl
        · exact h.seeds.all_left hd seed hseed hne r hr
        · have ho := owed_of_empty h.buckets hd hr
          exact hrest _ ho (fun heq => hnot (heq ▸ ho)) hd }

theorem bucketsInv_skip (h : BucketsInv s) {i : Nat} {day : Int} {rest : List Int} (hnot : ¬ s.Owed day) :
    BucketsInv { s with seeds := s.seeds.set i ⟨rest, none⟩, folded := day :: s.folded } where
  days := h.days
  taz_le := h.taz_le
  taz_ge := h.taz_ge
  ctaz_eq := h.ctaz_eq
  folded_ge := fun _ hd hpos =>
    (folded_cons_cases h hd hpos).resolve_right fun hday => hnot (hday.1 ▸ hday.2)

theorem countInv_seedRead (h : CountInv s) {i : Nat} (hcalm : s.Calm (.seedRead i))
    (hstep : s.step cfg (.seedRead i) = some s') : CountInv s' := by
  simp only [Counter.step] at hstep
  split at hstep
  · rename_i day rest hi
    obtain ⟨hle, hge, htaz⟩ : s.ReadsCleanly day := hcalm _ hi day rfl
    have hcount := seedCountSql_eq h.rows.base_sent day
    have hbase := oldHere_le_baseOn h.rows htaz
    have howed : s.Owed day → s.oldOn day + s.landedAt .taz day = seedCountSql (day * 86400) s.ledger := by
      intro ho
      have hland : s.finalisedOn day = s.landedAt .taz day := hge ho
      rw [hcount, h.rows.old_owed day ho, hland, Counter.oldOn]
    split at hstep
    · -- there are rows: the seed holds their number
      cases hstep
      have hlanded : s.finalisedOn day ≤ s.landedAt .taz day := hle
      have hup : seedCountSql (day * 86400) s.ledger ≤ s.baseOn day + s.landedAt .taz day := by
        rw [hcount]
        exact Nat.add_le_add hbase hlanded
      exact
        { rows := h.rows.congr rfl rfl rfl rfl rfl id fun _ ho => ho
          buckets := h.buckets.congr rfl rfl (List.Sublist.refl _) rfl rfl
          seeds := seedsInv_hold h.seeds hi hup fun ho => (howed ho).le
          tally := h.tally.seeds _ _ }
    · -- there are none: it goes on to the next day
      rename_i hzero
      cases hstep
      have hnot : ¬ s.Owed day := fun ho => by
        have hpos := (owed_iff.mp ho).2
        have := howed ho
        omega
      exact
        { rows := h.rows.congr rfl rfl rfl rfl rfl id fun _ ho => (owed_cons (s := s) ho rfl rfl).1
          buckets := bucketsInv_skip h.buckets hnot
          seeds := seedsInv_skip h hi hnot
          tally := h.tally.seeds _ _ }
  · cases hstep

theorem countInv_seedWrite (h : CountInv s) {i : Nat} (hcalm : s.Calm (.seedWrite i))
    (hstep : s.step cfg (.seedWrite i) = some s') : CountInv s' := by
  simp only [Counter.step] at hstep
  split at hstep
  · rename_i day rest sent hi
    cases hstep
    obtain ⟨hup, hlow⟩ := h.seeds.held _ (List.mem_of_getElem? hi) day sent rfl rfl
    have hne : (dripSeedSql .taz day sent s.ledger).dripDays ≠ [] := by
      rw [dripSeedSql_eq]
      exact upsert_ne_nil _ _ _ _
    obtain ⟨hleft, hrest⟩ := seedsInv_advance h hi
    exact
      { rows := h.rows.congr rfl rfl rfl rfl rfl (fun hd => absurd hd hne) fun _ ho =>
          (owed_cons (s := s) ho rfl rfl).1
        buckets := bucketsInv_seedWrite h.buckets hup hlow rfl rfl rfl rfl rfl
        seeds :=
          { held := fun seed hseed d sent hd hsent => by
              obtain ⟨hup, hlow⟩ := h.seeds.held_set seed hseed d sent hd hsent
              exact ⟨hup, fun ho => hlow (owed_cons (s := s) ho rfl rfl).1⟩
            owed_left := by
              refine Or.inr fun d ho => ?_
              have ho' := owed_cons (s := s) ho rfl rfl
              by_cases hd : s.ledger.dripDays = []
              · exact ⟨⟨rest, none⟩, List.mem_set (List.getElem?_eq_some_iff.mp hi).1 _, hrest d ho'.1 ho'.2 hd⟩
              · exact hleft d ho' hd
            all_left := fun hd => absurd hd hne }
        tally := tallyInv_begin h hcalm hne rfl rfl rfl fun _ => rfl }
  · cases hstep

theorem countInv_seedFail (h : CountInv s) {i : Nat} (hcalm : s.Calm (.seedFail i))
    (hstep : s.step cfg (.seedFail i) = some s') : CountInv s' := by
  simp only [Counter.step] at hstep
  split at hstep
  · rename_i day rest held hi
    cases hstep
    exact
      { rows := h.rows.congr rfl rfl rfl rfl rfl id fun _ ho => ho
        buckets := h.buckets.congr rfl rfl (List.Sublist.refl _) rfl rfl
        seeds :=
          { held := h.seeds.held_set
            owed_left := by
              by_cases hd : s.ledger.dripDays = []
              · exact Or.inl hd
              · refine Or.inr fun d ho => ?_
                obtain ⟨seed, hseed, hin⟩ := h.seeds.owed_left.resolve_left hd d ho
                obtain ⟨j, hj⟩ := List.mem_iff_getElem?.mp hseed
                by_cases hij : i = j
                · -- the day goes to one of the others
                  subst hij
                  rw [hi] at hj
                  cases hj
                  obtain ⟨other, hother, hin'⟩ := hcalm.resolve_left hd _ hi d hin ho
                  obtain ⟨k, hki, hk⟩ := List.mem_eraseIdx_iff_getElem?.mp hother
                  exact ⟨other, List.mem_iff_getElem?.mpr
                    ⟨k, by rw [List.getElem?_set_ne (Ne.symm hki), hk]⟩, hin'⟩
                · exact ⟨seed, List.mem_iff_getElem?.mpr
                    ⟨j, by rw [List.getElem?_set_ne hij, hj]⟩, hin⟩
            all_left := fun hd seed hseed hne r hr => by
              rcases List.mem_or_eq_of_mem_set hseed with hseed | rfl
              · exact h.seeds.all_left hd seed hseed hne r hr
              · exact absurd rfl hne }
        tally := h.tally.seeds _ _ }
  · cases hstep

theorem countInv_step (h : CountInv s) {ev : CountEvent} (hstep : s.calmStep cfg ev = some s') :
    CountInv s' := by
  obtain ⟨hcalm, hstep⟩ := Option.ite_none_right_eq_some.mp hstep
  cases ev with
  | reserve o =>
      cases hstep
      exact countInv_reserve h o
  | purge cutoff => exact countInv_purge h hcalm hstep
  | finalize claimId status txid noTxid nowMs network =>
      cases hstep
      exact countInv_finalize h hcalm status txid noTxid nowMs
  | bump network day => exact countInv_bump h hcalm hstep
  | countDrips nowMs =>
      cases hstep
      exact countInv_countDrips h hcalm
  | seedRead i => exact countInv_seedRead h hcalm hstep
  | seedWrite i => exact countInv_seedWrite h hcalm hstep
  | seedFail i => exact countInv_seedFail h hcalm hstep

end

/-! ## §5 Runs -/

/-- The ids of a claims table, which AUTOINCREMENT hands out. -/
def Keyed (claims : List ClaimRow) (nextId : Nat) : Prop :=
  (claims.map ClaimRow.id).Nodup ∧ ∀ r ∈ claims, r.id < nextId

instance (claims : List ClaimRow) (nextId : Nat) : Decidable (Keyed claims nextId) :=
  inferInstanceAs (Decidable (_ ∧ _))

theorem countInv_start {claims : List ClaimRow} {nextId : Nat} (h : Keyed claims nextId) :
    CountInv (.start claims nextId) := by
  have hhere : (Counter.start claims nextId).oldHere = (Counter.start claims nextId).base := by
    refine List.filter_congr fun r hr => ?_
    simp only [Counter.start, sentRows, List.mem_filter, Bool.decide_and, Bool.decide_eq_true]
    have hmem : r ∈ claims := hr
    simp [hmem]
  exact
    { rows :=
        { ids := h.1
          ids_lt := h.2
          base_sent := fun r hr => by simpa [Counter.start, sentRows] using (List.mem_filter.mp hr).2
          base_left := hhere ▸ List.Sublist.refl _
          old_sub := List.Sublist.refl _
          old_all := fun _ => hhere
          old_owed := fun day _ => congrArg (rowsOn day) hhere
          new_le := fun network => by
            refine Nat.le_of_eq (List.countP_eq_zero.mpr fun r hr hnew => ?_)
            simp only [Counter.start, sentRows, List.mem_filter, Bool.and_eq_true,
              decide_eq_true_eq, Bool.not_eq_true', decide_eq_false_iff_not] at hnew
            exact hnew.1.2 ⟨hr, hnew.1.1⟩ }
      buckets :=
        { days := List.nodup_nil
          taz_le := fun _ => Nat.zero_le _
          taz_ge := fun _ => Nat.le_refl 0
          ctaz_eq := fun _ => rfl
          folded_ge := fun d hd => by cases hd }
      seeds :=
        { held := fun seed hseed => by cases hseed
          owed_left := Or.inl rfl
          all_left := fun _ seed hseed => by cases hseed }
      tally :=
        { counted := fun _ => rfl
          begins := ⟨fun _ => rfl, fun _ => rfl⟩
          old_taz := fun hne => absurd rfl hne
          began_le := fun b hb => by cases hb } }

/-- A network's total, day by day. -/
theorem bucket_day_eq (network : FaucetNetwork) (day : Int) (days : List DripDay) :
    bucket DripDay.day DripDay.sent (days.filter fun d => decide (d.network = network)) day =
      bucket DripDay.key DripDay.sent days (network, day) := by
  rw [bucket, bucket, List.filter_filter]
  congr 2
  refine List.filter_congr fun d _ => ?_
  simp only [DripDay.key, Prod.mk.injEq, Bool.decide_and, Bool.and_comm]

theorem bucket_landed_eq (s : Counter) (network : FaucetNetwork) (day : Int) :
    bucket Prod.snd (fun _ => 1) (s.landed.filter fun b => decide (b.1 = network)) day =
      s.landedAt network day := by
  rw [bucket_ones, List.countP_filter, Counter.landedAt]
  refine List.countP_congr fun b _ => ?_
  simp only [Bool.and_eq_true, decide_eq_true_eq, Prod.ext_iff, and_comm]

/-- **The upper bound**, bucket by bucket. -/
theorem totalSent_le {s : Counter} (h : CountInv s) (network : FaucetNetwork) :
    totalSent network s.ledger.dripDays ≤ rowsFor network s.base + s.landedFor network := by
  have hle := @sum_le_of_bucket_le DripDay ClaimRow (FaucetNetwork × Int) Int _ DripDay.day
    ClaimRow.createdDay Prod.snd DripDay.sent (fun _ => 1) (fun _ => 1)
    (s.ledger.dripDays.filter fun d => decide (d.network = network))
    (s.base.filter fun r => decide (r.network = network))
    (s.landed.filter fun b => decide (b.1 = network)) ?_
  · rw [totalSent, rowsFor, Counter.landedFor, List.countP_eq_length_filter,
      List.countP_eq_length_filter]
    simpa using hle
  · intro day
    rw [bucket_day_eq, bucket_landed_eq, bucket_ones, List.countP_filter]
    cases network with
    | ctaz => exact le_trans (h.buckets.ctaz_eq day).le (Nat.le_add_left _ _)
    | taz =>
        refine le_trans (h.buckets.taz_le day) (Nat.add_le_add_right (Nat.le_of_eq ?_) _)
        exact List.countP_congr fun r _ => by rw [Bool.and_comm]

/-- **The lower bound**, at rest. -/
theorem le_totalSent {s : Counter} (h : CountInv s) (hrest : ∀ seed ∈ s.seeds, seed.left = [])
    (hd : s.ledger.dripDays ≠ []) (network : FaucetNetwork) :
    rowsFor network s.old + s.landedFor network ≤ totalSent network s.ledger.dripDays := by
  have hle := @le_sum_of_le_bucket DripDay ClaimRow (FaucetNetwork × Int) Int _ DripDay.day
    ClaimRow.createdDay Prod.snd DripDay.sent (fun _ => 1) (fun _ => 1)
    (s.ledger.dripDays.filter fun d => decide (d.network = network))
    (s.old.filter fun r => decide (r.network = network))
    (s.landed.filter fun b => decide (b.1 = network)) ?_
  · rw [totalSent, rowsFor, Counter.landedFor, List.countP_eq_length_filter,
      List.countP_eq_length_filter]
    simpa using hle
  · intro day
    rw [bucket_day_eq, bucket_landed_eq, bucket_ones, List.countP_filter]
    cases network with
    | ctaz =>
        have hnone : (s.old.countP fun r => decide (r.createdDay = day) && decide (r.network = .ctaz)) =
            0 := by
          refine List.countP_eq_zero.mpr fun r hr hboth => ?_
          rw [Bool.and_eq_true, decide_eq_true_eq, decide_eq_true_eq] at hboth
          rw [h.tally.old_taz hd r hr] at hboth
          cases hboth.2
        rw [hnone, Nat.zero_add]
        exact (h.buckets.ctaz_eq day).ge
    | taz =>
        have hold : (s.old.countP fun r => decide (r.createdDay = day) && decide (r.network = .taz)) ≤
            s.oldOn day := by
          rw [Counter.oldOn, rowsOn, ← List.countP_eq_length_filter]
          exact List.countP_mono_left fun r _ hboth => (Bool.and_eq_true_iff.mp hboth).1
        rcases Nat.eq_zero_or_pos (s.oldOn day) with hzero | hpos
        · rw [hzero] at hold
          rw [Nat.le_zero.mp hold, Nat.zero_add]
          exact h.buckets.taz_ge day
        · -- no seed is left to fold the day, so one has
          have hfolded : day ∈ s.folded := by
            by_contra hnot
            obtain ⟨seed, hseed, hin⟩ :=
              h.seeds.owed_left.resolve_left hd day (owed_iff.mpr ⟨hnot, hpos⟩)
            rw [hrest seed hseed] at hin
            cases hin
          exact le_trans (Nat.add_le_add_right hold _) (h.buckets.folded_ge day hfolded hpos)

theorem countInv_run {cfg : LedgerConfig} {claims : List ClaimRow} {nextId : Nat}
    (hkeyed : Keyed claims nextId) {es : List CountEvent} {s : Counter}
    (h : run (Counter.calmStep cfg) (.start claims nextId) es = some s) : CountInv s :=
  run_invariant CountInv (fun _ _ _ hinv hstep => countInv_step hinv hstep) (countInv_start hkeyed) h

/-- **The drip counter neither over- nor under-counts**, in every calm
run, whenever it is at rest. -/
theorem calm_run_counts_every_drip {cfg : LedgerConfig} {claims : List ClaimRow} {nextId : Nat}
    (hkeyed : Keyed claims nextId) {es : List CountEvent} {s : Counter}
    (h : run (Counter.calmStep cfg) (.start claims nextId) es = some s) (hq : s.Quiescent) :
    s.CountsEveryDrip := by
  have hinv := countInv_run hkeyed h
  intro network
  -- with no bump under way, every finalised claim has landed
  have hlanded : s.finalisedFor network = s.landedFor network := by
    have hcounted := hinv.tally.counted network
    rwa [Counter.bumpsFor, hq.1, List.countP_nil, Nat.add_zero] at hcounted
  refine ⟨?_, fun b hb => ?_⟩
  · have hle := totalSent_le hinv network
    rw [← hlanded] at hle
    exact hle
  · have hd : s.ledger.dripDays ≠ [] := fun hd => by
      rw [hinv.tally.begins.mpr hd] at hb
      cases hb
    have hge := le_totalSent hinv hq.2 hd network
    rw [← hlanded] at hge
    exact le_trans (hinv.tally.began_le b hb network) hge

/-- Two days in September: a claim from before the run, and one in it. -/
def countedClaim (address : String) (now : ℚ) : ReserveOpts where
  address := address
  ipHash := none
  subnetHash := none
  amountZat := 10000000
  now := now
  cooldownSeconds := 86400
  dailyCapZat := 10000000000
  subnetDailyMax := 20

def sentBefore : ClaimRow where
  id := 1
  addressHash := "a"
  ipHash := ""
  amountZat := 10000000
  txid := some (js "t1")
  status := .sent
  createdAt := 1799990000
  subnetHash := none
  network := .taz

/-- The seed folds the old row, then a new claim is paid and counted. -/
def calmRun : List CountEvent :=
  [.countDrips 1800000000000, .seedRead 0, .seedRead 0, .seedRead 0, .seedWrite 0,
    .reserve (countedClaim "b" 1800000000), .finalize 2 .sent (some (js "t2")) false 1800000010000 .taz,
    .bump .taz 20833]

theorem calm_run_counts_every_drip_calmRun :
    ∃ s, run (Counter.calmStep stockConfig) (.start [sentBefore] 2) calmRun = some s ∧
      totalSent .taz s.ledger.dripDays = 2 ∧ s.CountsEveryDrip := by
  have hview : (run (Counter.calmStep stockConfig) (.start [sentBefore] 2) calmRun).map
      (fun s => (totalSent .taz s.ledger.dripDays, decide s.Quiescent)) = some (2, true) := by
    decide +kernel
  obtain ⟨s, hs, heq⟩ := Option.map_eq_some_iff.mp hview
  rw [Prod.mk.injEq, decide_eq_true_eq] at heq
  exact ⟨s, hs, heq.1, calm_run_counts_every_drip (by decide) hs heq.2⟩

/-- A first read between the UPDATE and the bump of the first drip. -/
def countedTwiceRun : List CountEvent :=
  [.reserve (countedClaim "a" 1800000000), .finalize 1 .sent (some (js "t1")) false 1800000010000 .taz,
    .countDrips 1800000010000, .seedRead 0, .seedRead 0, .seedRead 0, .seedWrite 0, .bump .taz 20833]

theorem drip_counted_twice :
    ∃ s, run (Counter.step stockConfig) (.start [] 1) countedTwiceRun = some s ∧ s.Quiescent ∧
      ¬ s.CountsEveryDrip := by
  have hview : (run (Counter.step stockConfig) (.start [] 1) countedTwiceRun).map
      (fun s => (totalSent .taz s.ledger.dripDays, s.base.length, s.finalised.length,
        decide s.Quiescent)) = some (2, 0, 1, true) := by
    decide +kernel
  obtain ⟨s, hs, heq⟩ := Option.map_eq_some_iff.mp hview
  simp only [Prod.mk.injEq, decide_eq_true_eq] at heq
  obtain ⟨htotal, hbase, hfin, hq⟩ := heq
  refine ⟨s, hs, hq, fun hcounts => ?_⟩
  have hle := (hcounts .taz).1
  have hbase' := List.countP_le_length (l := s.base) (p := fun r => decide (r.network = .taz))
  have hfin' := List.countP_le_length (l := s.finalised) (p := fun f => decide (f.2 = .taz))
  omega

end ZcashFaucet.Db
