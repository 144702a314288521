/-
ZcashFaucet.Db.Purge — a purge shows in no later answer.

Nothing that `reserveClaim` asks of the table looks further back than
`reach` seconds, and a purge at `t` deletes what is an hour older than
that. So two tables that agree from the cutoff on (`AgreeFrom`) give the
same answers to a request whose `now` is at most an hour behind `t`, and
the statements keep them in agreement: an insert adds the same row to
both, a finalise changes a status wherever the row still is, and a
further purge cuts both at the same time (`SameFrom`, `LaterOp.same`).

The hour is what the clocks of concurrent requests may differ by. A
reserve from before it can see a deleted row, and what it inserts then
stands in the way of requests that could not (`purge_seen_by_old_clock`).
-/
import ZcashFaucet.Db.WhyBlocked

namespace ZcashFaucet.Db

open Lib

/-! ## Tables that agree from a time on -/

/-- The same rows, in the same order, among those created at `c` or later. -/
def AgreeFrom (c : ℚ) (rows rows' : List ClaimRow) : Prop :=
  (rows.filter fun r => decide (c ≤ r.createdAt)) = rows'.filter fun r => decide (c ≤ r.createdAt)

/-- A query that looks no further back than `c` cannot tell them apart. -/
theorem AgreeFrom.filter {c : ℚ} {rows rows' : List ClaimRow} (h : AgreeFrom c rows rows')
    {p : ClaimRow → Bool} (hp : ∀ r, p r = true → c ≤ r.createdAt) :
    rows.filter p = rows'.filter p := by
  have hsplit : ∀ l : List ClaimRow,
      l.filter p = (l.filter fun r => decide (c ≤ r.createdAt)).filter p := by
    intro l
    rw [List.filter_filter]
    refine List.filter_congr fun r _ => ?_
    cases hpr : p r with
    | false => rfl
    | true => simp [hp r hpr]
  rw [hsplit rows, hsplit rows', h]

theorem AgreeFrom.cons {c : ℚ} {rows rows' : List ClaimRow} (h : AgreeFrom c rows rows')
    (r : ClaimRow) : AgreeFrom c (r :: rows) (r :: rows') := by
  unfold AgreeFrom at h ⊢
  rw [List.filter_cons, List.filter_cons, h]

/-- A change that leaves the creation time alone, made to both. -/
theorem AgreeFrom.map {c : ℚ} {rows rows' : List ClaimRow} (h : AgreeFrom c rows rows')
    {f : ClaimRow → ClaimRow} (hf : ∀ r, (f r).createdAt = r.createdAt) :
    AgreeFrom c (rows.map f) (rows'.map f) := by
  unfold AgreeFrom at h ⊢
  have hcomp : ((fun r : ClaimRow => decide (c ≤ r.createdAt)) ∘ f) =
      fun r => decide (c ≤ r.createdAt) := by
    funext r
    simp [hf]
  rw [List.filter_map, List.filter_map, hcomp, h]

/-- A purge of both at one cutoff. -/
theorem AgreeFrom.purge {c : ℚ} {l l' : Ledger} (h : AgreeFrom c l.claims l'.claims) (cutoff : ℚ) :
    AgreeFrom c (purgeSql cutoff l).claims (purgeSql cutoff l').claims := by
  unfold AgreeFrom at h ⊢
  simp only [purgeSql]
  rw [List.filter_filter, List.filter_filter]
  have hcomm : ∀ rows : List ClaimRow,
      (rows.filter fun r => decide (c ≤ r.createdAt) && !decide (r.createdAt < cutoff)) =
        (rows.filter fun r => decide (c ≤ r.createdAt)).filter
          fun r => !decide (r.createdAt < cutoff) := by
    intro rows
    rw [List.filter_filter]
    exact List.filter_congr fun r _ => Bool.and_comm _ _
  rw [hcomm, hcomm, h]

/-- A purge and the table it was made from agree from its cutoff on. -/
theorem agreeFrom_purgeSql {c cutoff : ℚ} (hle : cutoff ≤ c) (l : Ledger) :
    AgreeFrom c (purgeSql cutoff l).claims l.claims := by
  unfold AgreeFrom
  simp only [purgeSql]
  rw [List.filter_filter]
  refine List.filter_congr fun r _ => ?_
  by_cases h : c ≤ r.createdAt
  · simp [h, hle.trans h]
  · simp [h]

/-! ## How far back a request looks -/

/-- What the retention keeps, apart from the hour of grace. -/
def reach (cfg : LedgerConfig) (cooldown : ℚ) : ℚ := max cooldown (max 86400 (cfg.pendingLease : ℚ))

theorem retentionCutoff_add_grace (cfg : LedgerConfig) (now cooldown : ℚ) :
    retentionCutoff cfg now cooldown = now - 3600 - reach cfg cooldown := by
  unfold retentionCutoff reach
  ring

section
variable {cfg : LedgerConfig} {now cooldown : ℚ} {r : ClaimRow}

theorem createdAt_of_liveAfter
    (h : r.liveAfter (now - cooldown) (now - cfg.pendingLease) = true) :
    now - reach cfg cooldown ≤ r.createdAt := by
  have hcool : cooldown ≤ reach cfg cooldown := le_max_left _ _
  have hlease : (cfg.pendingLease : ℚ) ≤ reach cfg cooldown :=
    le_max_of_le_right (le_max_right _ _)
  simp only [ClaimRow.liveAfter, Bool.or_eq_true, Bool.and_eq_true, decide_eq_true_eq] at h
  rcases h with ⟨_, h⟩ | ⟨_, h⟩ <;> linarith

theorem createdAt_of_liveSince
    (h : r.liveSince (now - 86400) (now - cfg.pendingLease) = true) :
    now - reach cfg cooldown ≤ r.createdAt := by
  have hday : (86400 : ℚ) ≤ reach cfg cooldown := le_max_of_le_right (le_max_left _ _)
  have hlease : (cfg.pendingLease : ℚ) ≤ reach cfg cooldown :=
    le_max_of_le_right (le_max_right _ _)
  simp only [ClaimRow.liveSince, Bool.or_eq_true, Bool.and_eq_true, decide_eq_true_eq] at h
  rcases h with ⟨_, h⟩ | ⟨_, h⟩ <;> linarith

end

section
variable {cfg : LedgerConfig} {o : ReserveOpts} {c : ℚ} {rows rows' : List ClaimRow}
variable (h : AgreeFrom c rows rows') (hc : c ≤ o.now - reach cfg o.cooldownSeconds)
include h hc

/-- What an address or a connection counts is in both tables. -/
theorem AgreeFrom.liveAfter (sel : ClaimRow → Bool) :
    (rows.filter fun r =>
        sel r && r.liveAfter (o.now - o.cooldownSeconds) (o.now - cfg.pendingLease)) =
      rows'.filter fun r =>
        sel r && r.liveAfter (o.now - o.cooldownSeconds) (o.now - cfg.pendingLease) :=
  h.filter fun _ hr => hc.trans (createdAt_of_liveAfter (Bool.and_eq_true_iff.mp hr).2)

/-- And so is what the subnet rule and the cap count. -/
theorem AgreeFrom.liveSince (sel : ClaimRow → Bool) :
    (rows.filter fun r => sel r && r.liveSince (o.now - 86400) (o.now - cfg.pendingLease)) =
      rows'.filter fun r => sel r && r.liveSince (o.now - 86400) (o.now - cfg.pendingLease) :=
  h.filter fun _ hr => hc.trans (createdAt_of_liveSince (Bool.and_eq_true_iff.mp hr).2)

omit h hc in
theorem any_eq_isEmpty_filter {α : Type} (p : α → Bool) (rows : List α) :
    rows.any p = !(rows.filter p).isEmpty := by
  rw [Bool.eq_iff_iff, List.any_eq_true, Bool.not_eq_true', List.isEmpty_eq_false_iff_exists_mem]
  simp only [List.mem_filter]

/-- RESERVE_SQL decides alike on both. -/
theorem AgreeFrom.reserveAllowed :
    reserveAllowed (reserveClaimParams cfg o) rows =
      reserveAllowed (reserveClaimParams cfg o) rows' := by
  have haddress : addressClear (reserveClaimParams cfg o) rows =
      addressClear (reserveClaimParams cfg o) rows' := by
    simp only [addressClear, any_eq_isEmpty_filter]
    exact congrArg (fun live => !!live.isEmpty) (h.liveAfter hc (ofAddress cfg o))
  have hconnection : ipClear (reserveClaimParams cfg o) rows =
      ipClear (reserveClaimParams cfg o) rows' := by
    simp only [ipClear, List.countP_eq_length_filter]
    exact congrArg (fun live => o.ipHash.getD "" == "" || decide (live.length < o.ipDailyMax))
      (h.liveAfter hc (ofConnection o))
  have hsubnet : subnetClear (reserveClaimParams cfg o) rows =
      subnetClear (reserveClaimParams cfg o) rows' := by
    simp only [subnetClear, List.countP_eq_length_filter]
    exact congrArg (fun live => o.subnetHash.getD "" == "" || decide (live.length < o.subnetDailyMax))
      (h.liveSince hc fun r => r.subnetHash == some (o.subnetHash.getD ""))
  have hcap : capClear (reserveClaimParams cfg o) rows =
      capClear (reserveClaimParams cfg o) rows' :=
    congrArg
      (fun live : List ClaimRow =>
        decide ((live.map ClaimRow.amountZat).sum + o.amountZat ≤ o.dailyCapZat))
      (h.liveSince hc fun r => r.network == o.network)
  rw [Db.reserveAllowed, haddress, hconnection, hsubnet, hcap, Db.reserveAllowed]

/-- `whyBlocked` explains alike on both. -/
theorem AgreeFrom.whyBlocked : whyBlocked cfg o rows = whyBlocked cfg o rows' := by
  have haddress : liveBlockSql (cfg.fingerprintAddress o.address) o.network
      (o.now - o.cooldownSeconds) (o.now - cfg.pendingLease) rows =
      liveBlockSql (cfg.fingerprintAddress o.address) o.network (o.now - o.cooldownSeconds)
        (o.now - cfg.pendingLease) rows' :=
    congrArg newest (h.liveAfter hc (ofAddress cfg o))
  have hconnection : ipWindowSql o.cooldownSeconds cfg.pendingLease (o.ipHash.getD "") o.network
      (o.now - o.cooldownSeconds) (o.now - cfg.pendingLease) rows =
      ipWindowSql o.cooldownSeconds cfg.pendingLease (o.ipHash.getD "") o.network
        (o.now - o.cooldownSeconds) (o.now - cfg.pendingLease) rows' :=
    congrArg (fun live => (live.length, (live.map (blocksUntil cfg o)).min?))
      (h.liveAfter hc (ofConnection o))
  have hsubnet : subnetCountSql (o.subnetHash.getD "") (o.now - 86400) (o.now - cfg.pendingLease)
      rows =
      subnetCountSql (o.subnetHash.getD "") (o.now - 86400) (o.now - cfg.pendingLease) rows' := by
    simp only [subnetCountSql, List.countP_eq_length_filter]
    exact congrArg List.length
      (h.liveSince hc fun r => r.subnetHash == some (o.subnetHash.getD ""))
  have hcap : capWindowSql cfg.pendingLease o.network (o.now - 86400) (o.now - cfg.pendingLease)
      rows =
      capWindowSql cfg.pendingLease o.network (o.now - 86400) (o.now - cfg.pendingLease) rows' :=
    congrArg (fun live => (live.map (ClaimRow.expiry 86400 cfg.pendingLease)).min?)
      (h.liveSince hc fun r => r.network == o.network)
  simp only [Db.whyBlocked, haddress, hconnection, hsubnet, hcap]

end

/-! ## Ledgers that differ by a purge -/

/-- Two ledgers that differ in rows from before `c` only. -/
structure SameFrom (c : ℚ) (l l' : Ledger) : Prop where
  rows : AgreeFrom c l.claims l'.claims
  nextId : l.nextId = l'.nextId
  dripDays : l.dripDays = l'.dripDays

section
variable {cfg : LedgerConfig} {c : ℚ} {l l' : Ledger}

theorem sameFrom_purgeSql {cutoff : ℚ} (hle : cutoff ≤ c) (l : Ledger) :
    SameFrom c (purgeSql cutoff l) l :=
  ⟨agreeFrom_purgeSql hle l, rfl, rfl⟩

/-- A reserve answers alike, and leaves the ledgers alike. -/
theorem SameFrom.reserveClaim (h : SameFrom c l l') {o : ReserveOpts}
    (hc : c ≤ o.now - reach cfg o.cooldownSeconds) :
    (reserveClaim cfg o l).2 = (reserveClaim cfg o l').2 ∧
      SameFrom c (reserveClaim cfg o l).1 (reserveClaim cfg o l').1 := by
  have hallowed := h.rows.reserveAllowed hc
  have hwhy := h.rows.whyBlocked hc
  simp only [Db.reserveClaim, reserveSql, hallowed, h.nextId]
  cases Db.reserveAllowed (reserveClaimParams cfg o) l'.claims with
  | true => exact ⟨rfl, h.rows.cons _, rfl, h.dripDays⟩
  | false => exact ⟨congrArg Except.error hwhy, h⟩

theorem SameFrom.purgeSql (h : SameFrom c l l') (cutoff : ℚ) :
    SameFrom c (purgeSql cutoff l) (purgeSql cutoff l') :=
  ⟨h.rows.purge cutoff, h.nextId, h.dripDays⟩

theorem SameFrom.finalizeSql (h : SameFrom c l l') (status : ClaimStatus) (txid : Option JsString)
    (id : Nat) : SameFrom c (finalizeSql status txid id l) (finalizeSql status txid id l') :=
  ⟨h.rows.map (finalized_createdAt status txid id), h.nextId, h.dripDays⟩

theorem SameFrom.dripBumpSql (h : SameFrom c l l') (network : FaucetNetwork) (day : Int) :
    SameFrom c (dripBumpSql network day l) (dripBumpSql network day l') := by
  obtain ⟨hrows, hid, hdays⟩ := h
  cases l
  cases l'
  subst hdays
  exact ⟨hrows, hid, rfl⟩

end

/-- A reservation is answered alike before and after the purge it issues,
so their race on D1 shows in no answer. -/
theorem reserveClaim_purgeExpired (cfg : LedgerConfig) (o : ReserveOpts) (l : Ledger) :
    (reserveClaim cfg o (purgeExpired cfg o.now o.cooldownSeconds l)).2 = (reserveClaim cfg o l).2 := by
  have hle : retentionCutoff cfg o.now o.cooldownSeconds ≤ o.now - reach cfg o.cooldownSeconds := by
    rw [retentionCutoff_add_grace]
    linarith
  exact ((sameFrom_purgeSql hle l).reserveClaim le_rfl).1

/-! ## What comes after -/

/-- An operation on the ledger. The purge that a reserve issues is one of
its own: on SQLite it comes right before the reserve, on D1 at any time. -/
inductive LaterOp
  | purge (now : ℚ)
  | reserve (req : ClaimRequest) (now : ℚ)
  | finalize (claimId : Nat) (status : FinalStatus) (txid : Option JsString) (noTxid : Bool)
      (nowMs : ℚ) (network : FaucetNetwork)

def LaterOp.apply (cfg : LedgerConfig) (l : Ledger) : LaterOp → Ledger
  | .purge now => purgeExpired cfg now cfg.cooldownSeconds l
  | .reserve req now => (reserveClaim cfg (req.opts cfg now) l).1
  | .finalize claimId status txid noTxid nowMs network =>
      match finalizeClaim claimId status txid noTxid nowMs network l with
      | .ok l' => l'
      | .error _ => l

/-- The operation's clock, if it reserves, shows `c` or later. -/
def LaterOp.NotBefore (c : ℚ) : LaterOp → Prop
  | .reserve _ now => c ≤ now
  | .purge _ | .finalize .. => True

/-- One operation on both ledgers. -/
theorem LaterOp.same {cfg : LedgerConfig} {c : ℚ} {l l' : Ledger} (h : SameFrom c l l') {op : LaterOp}
    (hop : op.NotBefore (c + reach cfg cfg.cooldownSeconds)) :
    SameFrom c (op.apply cfg l) (op.apply cfg l') := by
  cases op with
  | purge now => exact h.purgeSql _
  | reserve req now =>
    have hc : c ≤ now - reach cfg cfg.cooldownSeconds := by
      have : c + reach cfg cfg.cooldownSeconds ≤ now := hop
      linarith
    exact (h.reserveClaim (o := req.opts cfg now) hc).2
  | finalize claimId status txid noTxid nowMs network =>
    have hrows := h.finalizeSql status.toClaimStatus (orNull txid) claimId
    by_cases hthrow : status = .sent ∧ orNull txid = none ∧ noTxid = false
    · simpa only [apply, finalizeClaim, if_pos hthrow] using h
    · simp only [apply, finalizeClaim, if_neg hthrow]
      split_ifs
      · exact hrows.dripBumpSql network (utcDay nowMs)
      · exact hrows

/-- And any number of them. -/
theorem SameFrom.foldl {cfg : LedgerConfig} {c : ℚ} {l l' : Ledger} (h : SameFrom c l l')
    {ops : List LaterOp} (hops : ∀ op ∈ ops, op.NotBefore (c + reach cfg cfg.cooldownSeconds)) :
    SameFrom c (ops.foldl (LaterOp.apply cfg) l) (ops.foldl (LaterOp.apply cfg) l') := by
  induction ops generalizing l l' with
  | nil => exact h
  | cons op ops ih =>
    exact ih (LaterOp.same h (hops op List.mem_cons_self))
      fun later hlater => hops later (List.mem_cons_of_mem op hlater)

/-- The request gets the same answer on both ledgers, and a refusal has
the same diagnosis. -/
def AnsweredAlike (cfg : LedgerConfig) (o : ReserveOpts) (l l' : Ledger) : Prop :=
  (reserveClaim cfg o l).2 = (reserveClaim cfg o l').2 ∧
    whyBlocked cfg o l.claims = whyBlocked cfg o l'.claims

/-- **A purge is transparent.** Whatever is reserved, finalised and purged
after a purge at `t`, with clocks at most an hour behind `t`, a request
with such a clock is answered as if the purge had not happened. -/
theorem purge_transparent (cfg : LedgerConfig) (l : Ledger) (t : ℚ) (ops : List LaterOp)
    (hops : ∀ op ∈ ops, op.NotBefore (t - 3600)) (req : ClaimRequest) (now : ℚ)
    (hnow : t - 3600 ≤ now) :
    AnsweredAlike cfg (req.opts cfg now)
      (ops.foldl (LaterOp.apply cfg) (purgeExpired cfg t cfg.cooldownSeconds l))
      (ops.foldl (LaterOp.apply cfg) l) := by
  have hcut : retentionCutoff cfg t cfg.cooldownSeconds + reach cfg cfg.cooldownSeconds =
      t - 3600 := by
    rw [retentionCutoff_add_grace]
    ring
  have hsame : SameFrom (retentionCutoff cfg t cfg.cooldownSeconds)
      (ops.foldl (LaterOp.apply cfg) (purgeExpired cfg t cfg.cooldownSeconds l))
      (ops.foldl (LaterOp.apply cfg) l) :=
    (sameFrom_purgeSql le_rfl l).foldl (hcut ▸ hops)
  have hc : retentionCutoff cfg t cfg.cooldownSeconds ≤ now - reach cfg cfg.cooldownSeconds := by
    linarith
  exact ⟨(hsame.reserveClaim (o := req.opts cfg now) hc).1,
    hsame.rows.whyBlocked (o := req.opts cfg now) hc⟩

/-- A day and an hour after a paid claim, the purge of another request. -/
def paidYesterday : Ledger where
  claims :=
    [ { id := 1, addressHash := "a", ipHash := "ip", amountZat := 10000000, txid := some (js "t1"),
        status := .sent, createdAt := 1800000000, subnetHash := some "subnet", network := .taz } ]
  nextId := 2
  dripDays := []

/-- The address is reserved for again and the send is finalised. -/
def reservedAgain (now : ℚ) : List LaterOp :=
  [.reserve (stockRequest "a") now, .finalize 2 .sent (some (js "t2")) false (now * 1000) .taz]

theorem purge_transparent_paidYesterday :
    AnsweredAlike stockConfig ((stockRequest "a").opts stockConfig 1800086402)
      ((reservedAgain 1800086401).foldl (LaterOp.apply stockConfig)
        (purgeExpired stockConfig 1800090001 stockConfig.cooldownSeconds paidYesterday))
      ((reservedAgain 1800086401).foldl (LaterOp.apply stockConfig) paidYesterday) := by
  refine purge_transparent stockConfig paidYesterday 1800090001 (reservedAgain 1800086401)
    (fun op hop => ?_) (stockRequest "a") 1800086402 (by decide +kernel)
  rcases List.mem_cons.mp hop with rfl | hop
  · change (1800090001 : ℚ) - 3600 ≤ 1800086401
    decide +kernel
  · rw [List.mem_singleton.mp hop]
    trivial

/-- A reserve whose clock is more than an hour behind the purge is let in
by it, and then holds up a request that would have been paid. -/
theorem purge_seen_by_old_clock :
    (1800090001 : ℚ) - 3600 ≤ 1800086401 ∧
      ¬ AnsweredAlike stockConfig ((stockRequest "a").opts stockConfig 1800086401)
        ([LaterOp.reserve (stockRequest "a") 1800086399].foldl (LaterOp.apply stockConfig)
          (purgeExpired stockConfig 1800090001 stockConfig.cooldownSeconds paidYesterday))
        ([LaterOp.reserve (stockRequest "a") 1800086399].foldl (LaterOp.apply stockConfig)
          paidYesterday) := by
  refine ⟨by decide +kernel, fun halike => ?_⟩
  have hrefused : (reserveClaim stockConfig ((stockRequest "a").opts stockConfig 1800086401)
      ([LaterOp.reserve (stockRequest "a") 1800086399].foldl (LaterOp.apply stockConfig)
        (purgeExpired stockConfig 1800090001 stockConfig.cooldownSeconds paidYesterday))).2.isOk =
      false := by decide +kernel
  have hpaid : (reserveClaim stockConfig ((stockRequest "a").opts stockConfig 1800086401)
      ([LaterOp.reserve (stockRequest "a") 1800086399].foldl (LaterOp.apply stockConfig)
        paidYesterday)).2.isOk = true := by decide +kernel
  rw [halike.1, hpaid] at hrefused
  cases hrefused

end ZcashFaucet.Db
