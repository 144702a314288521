/-
ZcashFaucet.Db.LedgerTheorems — the limits of the claim ledger hold of
every window of every run.

RESERVE_SQL checks four limits when a claim is admitted: one drip per
address, so many per connection, so many per subnet, so much per day.
Afterwards the row changes status, other rows are purged, and clocks
disagree. `BooksInv` is what survives all of that:

* the table is the archive without the rows a purge removed;
* a removed row is too old for any later reserve to count;
* each limit stands (`Limit.Standing`) over the archive, counting the
  rows that are 'sent' or may still become so (`mayPay`).

A row stops counting in two ways only, by failing and by outliving its
lease while pending, and it never starts again. So an admission that saw
it counted it if it can ever be paid, which is what makes one check at
admission enough (`rolling_windows`).
-/
import ZcashFaucet.Db.Ledger
import ZcashFaucet.Lib.RollingWindow
import Mathlib.Data.List.Nodup
import Mathlib.Tactic.Linarith

namespace ZcashFaucet.Db

open Lib

/-! ## The part of a row that no statement changes -/

structure ClaimKey where
  addressHash : String
  ipHash : String
  subnetHash : Option String
  amountZat : Nat
  createdAt : ℚ
  network : FaucetNetwork

def ClaimRow.key (r : ClaimRow) : ClaimKey where
  addressHash := r.addressHash
  ipHash := r.ipHash
  subnetHash := r.subnetHash
  amountZat := r.amountZat
  createdAt := r.createdAt
  network := r.network

@[simp] theorem finalized_key (status : ClaimStatus) (txid : Option JsString) (id : Nat)
    (r : ClaimRow) : (r.finalized status txid id).key = r.key := by
  unfold ClaimRow.finalized
  split <;> rfl

@[simp] theorem finalized_id (status : ClaimStatus) (txid : Option JsString) (id : Nat)
    (r : ClaimRow) : (r.finalized status txid id).id = r.id := by
  unfold ClaimRow.finalized
  split <;> rfl

@[simp] theorem finalized_createdAt (status : ClaimStatus) (txid : Option JsString) (id : Nat)
    (r : ClaimRow) : (r.finalized status txid id).createdAt = r.createdAt := by
  unfold ClaimRow.finalized
  split <;> rfl

theorem finalized_status (status : ClaimStatus) (txid : Option JsString) (id : Nat)
    (r : ClaimRow) :
    (r.finalized status txid id).status = if r.id = id then status else r.status := by
  unfold ClaimRow.finalized
  split <;> rfl

@[simp] theorem Entry.finalize_key (status : ClaimStatus) (txid : Option JsString) (id : Nat)
    (e : Entry) : (e.finalize status txid id).row.key = e.row.key :=
  finalized_key status txid id e.row

@[simp] theorem Entry.finalize_id (status : ClaimStatus) (txid : Option JsString) (id : Nat)
    (e : Entry) : (e.finalize status txid id).row.id = e.row.id :=
  finalized_id status txid id e.row

@[simp] theorem Entry.purge_id (cutoff : ℚ) (e : Entry) : (e.purge cutoff).row.id = e.row.id := rfl

@[simp] theorem Entry.purge_row (cutoff : ℚ) (e : Entry) : (e.purge cutoff).row = e.row := rfl

/-! ## The four limits -/

/-- A limit on the rows a key selects, weighed together over a window. -/
def keyLimit (sel : ClaimKey → Bool) (w : ClaimKey → Nat) (inWindow : ℚ → ℚ → Bool) (bound : Nat) :
    Limit Entry where
  weight e := if sel e.row.key then w e.row.key else 0
  near x a := sel x.row.key && sel a.row.key && inWindow x.row.createdAt a.row.createdAt
  bound := bound

/-- `created_at > now - cooldown`. -/
def inCooldown (cfg : LedgerConfig) (x a : ℚ) : Bool := decide (x - cfg.cooldownSeconds < a)

/-- `created_at >= now - 86400`. -/
def inDay (x a : ℚ) : Bool := decide (x - 86400 ≤ a)

def forAddress (addressHash : String) (network : FaucetNetwork) (k : ClaimKey) : Bool :=
  k.addressHash == addressHash && k.network == network

def forConnection (ipHash : String) (network : FaucetNetwork) (k : ClaimKey) : Bool :=
  k.ipHash == ipHash && k.network == network

def forSubnet (subnetHash : String) (k : ClaimKey) : Bool := k.subnetHash == some subnetHash

def forNetwork (network : FaucetNetwork) (k : ClaimKey) : Bool := k.network == network

def addressLimit (cfg : LedgerConfig) (addressHash : String) (network : FaucetNetwork) : Limit Entry :=
  keyLimit (forAddress addressHash network) (fun _ => 1) (inCooldown cfg) 1

def connectionLimit (cfg : LedgerConfig) (ipHash : String) (network : FaucetNetwork) : Limit Entry :=
  keyLimit (forConnection ipHash network) (fun _ => 1) (inCooldown cfg) cfg.ipDailyMax

def subnetLimit (cfg : LedgerConfig) (subnetHash : String) : Limit Entry :=
  keyLimit (forSubnet subnetHash) (fun _ => 1) inDay cfg.subnetDailyMax

def capLimit (cfg : LedgerConfig) (network : FaucetNetwork) : Limit Entry :=
  keyLimit (forNetwork network) ClaimKey.amountZat inDay (cfg.dailyCapZat network)

/-- The limits of a configuration. A connection or a subnet that could
not be derived is "" and has none. -/
inductive LedgerLimit (cfg : LedgerConfig) : Limit Entry → Prop
  | address (addressHash : String) (network : FaucetNetwork) :
      LedgerLimit cfg (addressLimit cfg addressHash network)
  | connection (ipHash : String) (network : FaucetNetwork) (hne : ipHash ≠ "") :
      LedgerLimit cfg (connectionLimit cfg ipHash network)
  | subnet (subnetHash : String) (hne : subnetHash ≠ "") :
      LedgerLimit cfg (subnetLimit cfg subnetHash)
  | cap (network : FaucetNetwork) : LedgerLimit cfg (capLimit cfg network)

/-- A limit weighs and compares rows by their keys alone. -/
theorem LedgerLimit.of_key {cfg : LedgerConfig} {L : Limit Entry} (hL : LedgerLimit cfg L)
    {f : Entry → Entry} (hf : ∀ e, (f e).row.key = e.row.key) :
    (∀ e, L.weight (f e) = L.weight e) ∧ ∀ x a, L.near (f x) (f a) = L.near x a := by
  have hcreated : ∀ e, (f e).row.createdAt = e.row.createdAt := fun e =>
    congrArg ClaimKey.createdAt (hf e)
  cases hL <;>
    exact ⟨fun e => by simp only [addressLimit, connectionLimit, subnetLimit, capLimit, keyLimit, hf],
      fun x a => by
        simp only [addressLimit, connectionLimit, subnetLimit, capLimit, keyLimit, hf, hcreated]⟩

/-! ## The rows that count -/

/-- 'sent', or pending inside the lease and so still able to become
'sent'. -/
def mayPay (cfg : LedgerConfig) (clockMs : ℚ) (e : Entry) : Bool :=
  e.row.status == .sent || (e.row.status == .pending && decide (insideLease cfg clockMs e.row))

theorem mayPay_eq_true {cfg : LedgerConfig} {clockMs : ℚ} {e : Entry} :
    mayPay cfg clockMs e = true ↔
      e.row.status = .sent ∨ e.row.status = .pending ∧ insideLease cfg clockMs e.row := by
  simp [mayPay]

/-- As time passes a row can only stop counting. -/
theorem mayPay_mono {cfg : LedgerConfig} {c c' : ℚ} (hc : c ≤ c') {e : Entry}
    (h : mayPay cfg c' e = true) : mayPay cfg c e = true := by
  rw [mayPay_eq_true] at h ⊢
  rcases h with h | ⟨h, hl⟩
  · exact Or.inl h
  · exact Or.inr ⟨h, lt_of_le_of_lt hc hl⟩

/-- A reserve at `now` counts every row of its window that may still be
paid. -/
theorem liveAfter_of_mayPay {cfg : LedgerConfig} {clockMs now : ℚ} (hnow : now * 1000 ≤ clockMs)
    {e : Entry} (hpay : mayPay cfg clockMs e = true) {cut : ℚ} (hcut : cut < e.row.createdAt) :
    e.row.liveAfter cut (now - cfg.pendingLease) = true := by
  rw [mayPay_eq_true] at hpay
  rcases hpay with hsent | ⟨hpending, hlease⟩
  · simp [ClaimRow.liveAfter, hsent, hcut]
  · have : now - cfg.pendingLease < e.row.createdAt := by
      unfold insideLease at hlease
      linarith
    simp [ClaimRow.liveAfter, hpending, this]

theorem liveSince_of_mayPay {cfg : LedgerConfig} {clockMs now : ℚ} (hnow : now * 1000 ≤ clockMs)
    {e : Entry} (hpay : mayPay cfg clockMs e = true) {cut : ℚ} (hcut : cut ≤ e.row.createdAt) :
    e.row.liveSince cut (now - cfg.pendingLease) = true := by
  rw [mayPay_eq_true] at hpay
  rcases hpay with hsent | ⟨hpending, hlease⟩
  · simp [ClaimRow.liveSince, hsent, hcut]
  · have : now - cfg.pendingLease ≤ e.row.createdAt := by
      unfold insideLease at hlease
      linarith
    simp [ClaimRow.liveSince, hpending, this]

/-! ## The invariant -/

/-- How far behind the largest `now` the rows a purge removes lie. -/
def retention (cfg : LedgerConfig) : ℚ :=
  max cfg.cooldownSeconds (max 86400 (cfg.pendingLease : ℚ)) + 3600

theorem retentionCutoff_eq (cfg : LedgerConfig) (now : ℚ) :
    retentionCutoff cfg now cfg.cooldownSeconds = now - retention cfg := by
  unfold retentionCutoff retention
  ring

structure BooksInv (cfg : LedgerConfig) (b : Books) : Prop where
  table : b.ledger.claims = (b.archive.filter Entry.kept).map Entry.row
  gone : ∀ e ∈ b.archive, e.kept = false → ∃ m ∈ b.maxNow, e.row.createdAt < m - retention cfg
  limits : ∀ L, LedgerLimit cfg L → L.Standing (mayPay cfg b.clockMs) b.archive

theorem booksInv_empty (cfg : LedgerConfig) (clockMs : ℚ) : BooksInv cfg (.empty clockMs) where
  table := rfl
  gone := by
    intro e he
    cases he
  limits := by
    intro L _
    trivial

/-- `now` is at most the largest `now` used once it is used itself. -/
theorem le_see {b : Books} {m : ℚ} (now : ℚ) (hm : m ∈ b.maxNow) : ∃ m' ∈ b.see now, m ≤ m' := by
  obtain hm : b.maxNow = some m := hm
  exact ⟨max m now, by simp [Books.see, hm], le_max_left m now⟩

/-- A removed row stays behind the largest `now` used. -/
theorem gone_see {cfg : LedgerConfig} {b : Books} {now : ℚ} {e : Entry}
    (h : ∃ m ∈ b.maxNow, e.row.createdAt < m - retention cfg) :
    ∃ m ∈ b.see now, e.row.createdAt < m - retention cfg := by
  obtain ⟨m, hm, hlt⟩ := h
  obtain ⟨m', hm', hle⟩ := le_see now hm
  exact ⟨m', hm', by linarith⟩

/-! ## tick, purge -/

theorem booksInv_tick {cfg : LedgerConfig} {b : Books} {ms : ℚ} (hb : BooksInv cfg b)
    (hms : 0 ≤ ms) : BooksInv cfg (b.apply cfg (.tick ms)) where
  table := hb.table
  gone := hb.gone
  limits := by
    intro L hL
    refine (hb.limits L hL).mono fun e _ he => mayPay_mono ?_ he
    simp only [Books.apply]
    linarith

theorem purge_table {b : Books} (cutoff : ℚ)
    (h : b.ledger.claims = (b.archive.filter Entry.kept).map Entry.row) :
    (purgeSql cutoff b.ledger).claims =
      ((b.archive.map (Entry.purge cutoff)).filter Entry.kept).map Entry.row := by
  simp only [purgeSql, h, List.filter_map, List.filter_filter, List.map_map]
  congr 1
  refine List.filter_congr fun e _ => ?_
  simp [Entry.purge, Bool.and_comm]

theorem booksInv_purge {cfg : LedgerConfig} {b : Books} {now : ℚ} (hb : BooksInv cfg b) :
    BooksInv cfg (b.apply cfg (.purge now)) where
  table := purge_table _ hb.table
  gone := by
    intro e he hkept
    obtain ⟨e, hmem, rfl⟩ := List.mem_map.mp he
    cases hk : e.kept with
    | false => exact gone_see (hb.gone e hmem hk)
    | true =>
      have hold : e.row.createdAt < retentionCutoff cfg now cfg.cooldownSeconds := by
        simpa [Entry.purge, hk] using hkept
      rw [retentionCutoff_eq] at hold
      refine ⟨b.maxNow.elim now fun m => max m now, rfl, ?_⟩
      have hle : now ≤ b.maxNow.elim now fun m => max m now := by
        cases b.maxNow with
        | none => exact le_refl now
        | some m => exact le_max_right m now
      simp only [Entry.purge_row]
      linarith
  limits := by
    intro L hL
    obtain ⟨hw, hn⟩ := hL.of_key (f := Entry.purge (retentionCutoff cfg now cfg.cooldownSeconds))
      fun _ => rfl
    exact (hb.limits L hL).map hw hn fun _ => rfl

/-! ## finalize -/

/-- A finalised row that counts counted before. -/
theorem mayPay_of_finalize {cfg : LedgerConfig} {clockMs : ℚ} {e : Entry} {status : FinalStatus}
    {txid : Option JsString} {id : Nat}
    (hallow : e.row.id = id →
      e.row.status = .pending ∧ (status = .sent → insideLease cfg clockMs e.row))
    (h : mayPay cfg clockMs (e.finalize status.toClaimStatus txid id) = true) :
    mayPay cfg clockMs e = true := by
  by_cases hid : e.row.id = id
  · obtain ⟨hpending, hlease⟩ := hallow hid
    rw [mayPay_eq_true]
    refine Or.inr ⟨hpending, hlease ?_⟩
    rw [mayPay_eq_true] at h
    cases status with
    | sent => rfl
    | failed => simp [Entry.finalize, finalized_status, hid, FinalStatus.toClaimStatus] at h
  · simpa [Entry.finalize, ClaimRow.finalized, hid] using h

theorem finalize_table {b : Books} (status : ClaimStatus) (txid : Option JsString) (id : Nat)
    (h : b.ledger.claims = (b.archive.filter Entry.kept).map Entry.row) :
    (finalizeSql status txid id b.ledger).claims =
      ((b.archive.map (Entry.finalize status txid id)).filter Entry.kept).map Entry.row := by
  simp only [finalizeSql, h, List.filter_map, List.map_map]
  rfl

/-- What finalising a claim does to the table of claims. -/
theorem finalizeClaim_ok {id : Nat} {status : FinalStatus} {txid : Option JsString} {noTxid : Bool}
    {nowMs : ℚ} {network : FaucetNetwork} {l l' : Ledger}
    (h : finalizeClaim id status txid noTxid nowMs network l = .ok l') :
    l'.claims = (finalizeSql status.toClaimStatus (orNull txid) id l).claims ∧
      l'.nextId = l.nextId := by
  unfold finalizeClaim at h
  split at h
  · cases h
  · obtain rfl := Except.ok.inj h
    split <;> exact ⟨rfl, rfl⟩

theorem booksInv_finalize {cfg : LedgerConfig} {b : Books} {id : Nat} {status : FinalStatus}
    {txid : Option JsString} {noTxid : Bool} {network : FaucetNetwork} (hb : BooksInv cfg b)
    (hallow : b.admits cfg (.finalize id status txid noTxid network)) :
    BooksInv cfg (b.apply cfg (.finalize id status txid noTxid network)) := by
  simp only [Books.apply]
  cases hfin : finalizeClaim id status txid noTxid b.clockMs network b.ledger with
  | error msg => exact hb
  | ok ledger =>
    refine ⟨?_, ?_, ?_⟩
    · exact (finalizeClaim_ok hfin).1.trans (finalize_table _ _ _ hb.table)
    · intro e he hkept
      obtain ⟨e, hmem, rfl⟩ := List.mem_map.mp he
      simpa [Entry.finalize] using hb.gone e hmem hkept
    · intro L hL
      obtain ⟨hw, hn⟩ := hL.of_key (Entry.finalize_key status.toClaimStatus (orNull txid) id)
      have hstand : L.Standing (fun e =>
          mayPay cfg b.clockMs (e.finalize status.toClaimStatus (orNull txid) id)) b.archive :=
        (hb.limits L hL).mono fun e he => mayPay_of_finalize (hallow e he)
      exact hstand.map hw hn fun _ => rfl

/-! ## reserve -/

/-- The rows of a window were not purged. -/
theorem kept_of_recent {cfg : LedgerConfig} {b : Books} {now : ℚ} (hb : BooksInv cfg b)
    (hnow : ∀ m ∈ b.maxNow, m - 3600 ≤ now) {e : Entry} (he : e ∈ b.archive)
    (hrecent : now - max cfg.cooldownSeconds 86400 ≤ e.row.createdAt) : e.kept = true := by
  cases hk : e.kept with
  | true => rfl
  | false =>
    obtain ⟨m, hm, hold⟩ := hb.gone e he hk
    have hle := hnow m hm
    have hmax : max cfg.cooldownSeconds 86400 + 3600 ≤ retention cfg := by
      unfold retention
      have h1 : max cfg.cooldownSeconds 86400 ≤
          max cfg.cooldownSeconds (max 86400 (cfg.pendingLease : ℚ)) :=
        max_le_max (le_refl _) (le_max_left _ _)
      linarith
    linarith

/-- What a limit weighs over the archive, the reserve weighed over the
table: `live` is the reserve's own condition. -/
theorem load_le_table {cfg : LedgerConfig} {b : Books} (hb : BooksInv cfg b)
    {sel : ClaimKey → Bool} {w : ClaimKey → Nat} {inWindow : ℚ → ℚ → Bool} {bound : Nat}
    {x : Entry} {live : ClaimRow → Bool}
    (hlive : ∀ e ∈ b.archive, inWindow x.row.createdAt e.row.createdAt = true →
      mayPay cfg b.clockMs e = true → e.kept = true ∧ live e.row = true) :
    (keyLimit sel w inWindow bound).load (mayPay cfg b.clockMs) x b.archive ≤
      ((b.ledger.claims.filter fun r => sel r.key && live r).map fun r => w r.key).sum := by
  rw [hb.table, List.filter_map, List.filter_filter, List.map_map]
  have hweight : (keyLimit sel w inWindow bound).load (mayPay cfg b.clockMs) x b.archive ≤
      ((b.archive.filter fun e => (keyLimit sel w inWindow bound).near x e &&
        mayPay cfg b.clockMs e).map fun e => w e.row.key).sum := by
    refine List.sum_le_sum fun e _ => ?_
    simp only [keyLimit]
    split <;> simp
  refine le_trans hweight (Limit.sum_filter_le _ _ fun e he hn => ?_)
  simp only [keyLimit, Bool.and_eq_true] at hn
  obtain ⟨⟨⟨_, hsel⟩, hwin⟩, hpay⟩ := hn
  obtain ⟨hkept, hlv⟩ := hlive e he hwin hpay
  simp [hsel, hkept, hlv]

/-- A limit does not weigh what its key does not select. -/
theorem load_of_not_sel {sel : ClaimKey → Bool} {w : ClaimKey → Nat} {inWindow : ℚ → ℚ → Bool}
    {bound : Nat} {counts : Entry → Bool} {x : Entry} (hsel : sel x.row.key = false)
    (l : List Entry) :
    (keyLimit sel w inWindow bound).weight x + (keyLimit sel w inWindow bound).load counts x l = 0 := by
  have hnone : (l.filter fun a => (keyLimit sel w inWindow bound).near x a && counts a) = [] := by
    rw [List.filter_eq_nil_iff]
    intro a _
    simp [keyLimit, hsel]
  simp only [Limit.load, hnone, List.map_nil, List.sum_nil, Nat.add_zero]
  simp [keyLimit, hsel]

theorem sum_ones {α : Type} (p : α → Bool) (l : List α) :
    ((l.filter p).map fun _ => 1).sum = l.countP p := by
  rw [List.map_const', List.sum_replicate, List.countP_eq_length_filter]
  simp

/-- `reserveClaim` inserts its row, or changes nothing and says why. -/
theorem reserveClaim_cases (cfg : LedgerConfig) (o : ReserveOpts) (l : Ledger) :
    (reserveAllowed (reserveClaimParams cfg o) l.claims = true ∧
      reserveClaim cfg o l =
        ({ l with
            claims := reservedRow (reserveClaimParams cfg o) l.nextId :: l.claims
            nextId := l.nextId + 1 }, .ok l.nextId)) ∨
    (reserveAllowed (reserveClaimParams cfg o) l.claims = false ∧
      reserveClaim cfg o l = (l, .error (whyBlocked cfg o l.claims))) := by
  cases h : reserveAllowed (reserveClaimParams cfg o) l.claims with
  | true => exact Or.inl ⟨rfl, by simp [reserveClaim, reserveSql, h]⟩
  | false => exact Or.inr ⟨rfl, by simp [reserveClaim, reserveSql, h]⟩

theorem reserveAllowed_iff {p : ReserveParams} {claims : List ClaimRow} :
    reserveAllowed p claims = true ↔
      addressClear p claims = true ∧ ipClear p claims = true ∧ subnetClear p claims = true ∧
        capClear p claims = true := by
  simp only [reserveAllowed, Bool.and_eq_true, and_assoc]

/-! The clauses of RESERVE_SQL, each as a sum over the rows its key
selects. -/

theorem addressClear_count {p : ReserveParams} {claims : List ClaimRow}
    (h : addressClear p claims = true) :
    1 + (claims.countP fun r => forAddress p.addressHash p.network r.key &&
      r.liveAfter p.cooldownCut p.leaseCut) ≤ 1 := by
  have hzero : (claims.countP fun r => forAddress p.addressHash p.network r.key &&
      r.liveAfter p.cooldownCut p.leaseCut) = 0 := by
    rw [List.countP_eq_zero]
    intro r hr hlive
    rw [addressClear, Bool.not_eq_true', List.any_eq_false] at h
    exact h r hr hlive
  omega

theorem ipClear_count {p : ReserveParams} {claims : List ClaimRow} (hne : p.ipHash ≠ "")
    (h : ipClear p claims = true) :
    1 + (claims.countP fun r => forConnection p.ipHash p.network r.key &&
      r.liveAfter p.cooldownCut p.leaseCut) ≤ p.ipDailyMax := by
  simp only [ipClear, Bool.or_eq_true, beq_iff_eq, decide_eq_true_eq] at h
  rcases h with h | h
  · exact absurd h hne
  · have : _ < p.ipDailyMax := h
    rw [Nat.add_comm]
    exact this

theorem subnetClear_count {p : ReserveParams} {claims : List ClaimRow} (hne : p.subnetHash ≠ "")
    (h : subnetClear p claims = true) :
    1 + (claims.countP fun r => forSubnet p.subnetHash r.key &&
      r.liveSince p.since p.leaseCut) ≤ p.subnetDailyMax := by
  simp only [subnetClear, Bool.or_eq_true, beq_iff_eq, decide_eq_true_eq] at h
  rcases h with h | h
  · exact absurd h hne
  · have : _ < p.subnetDailyMax := h
    rw [Nat.add_comm]
    exact this

theorem capClear_sum {p : ReserveParams} {claims : List ClaimRow} (h : capClear p claims = true) :
    p.amountZat + ((claims.filter fun r => forNetwork p.network r.key &&
      r.liveSince p.since p.leaseCut).map fun r => r.key.amountZat).sum ≤ p.dailyCapZat := by
  have hle : capSum p.network p.since p.leaseCut claims + p.amountZat ≤ p.dailyCapZat :=
    of_decide_eq_true h
  rw [Nat.add_comm]
  exact hle

/-- The row a request reserves, as the archive holds it. -/
def reservedEntry (cfg : LedgerConfig) (req : ClaimRequest) (now : ℚ) (id : Nat) : Entry :=
  ⟨reservedRow (reserveClaimParams cfg (req.opts cfg now)) id, true⟩

@[simp] theorem reservedEntry_key (cfg : LedgerConfig) (req : ClaimRequest) (now : ℚ) (id : Nat) :
    (reservedEntry cfg req now id).row.key =
      { addressHash := (reserveClaimParams cfg (req.opts cfg now)).addressHash
        ipHash := (reserveClaimParams cfg (req.opts cfg now)).ipHash
        subnetHash := some (reserveClaimParams cfg (req.opts cfg now)).subnetHash
        amountZat := req.amountZat
        createdAt := now
        network := (reserveClaimParams cfg (req.opts cfg now)).network } := rfl

section Admission

variable {cfg : LedgerConfig} {b : Books} {req : ClaimRequest} {now : ℚ}

/-- Rows inside the cooldown are in the table, and live there if they may
be paid. -/
theorem live_of_inCooldown (hb : BooksInv cfg b) (hnow : now * 1000 ≤ b.clockMs)
    (hmax : ∀ m ∈ b.maxNow, m - 3600 ≤ now) {e : Entry} (he : e ∈ b.archive)
    (hwin : inCooldown cfg now e.row.createdAt = true) (hpay : mayPay cfg b.clockMs e = true) :
    e.kept = true ∧ e.row.liveAfter (now - cfg.cooldownSeconds) (now - cfg.pendingLease) = true := by
  have hcut : now - cfg.cooldownSeconds < e.row.createdAt := by simpa [inCooldown] using hwin
  have hle : cfg.cooldownSeconds ≤ max cfg.cooldownSeconds 86400 := le_max_left _ _
  exact ⟨kept_of_recent hb hmax he (by linarith), liveAfter_of_mayPay hnow hpay hcut⟩

theorem live_of_inDay (hb : BooksInv cfg b) (hnow : now * 1000 ≤ b.clockMs)
    (hmax : ∀ m ∈ b.maxNow, m - 3600 ≤ now) {e : Entry} (he : e ∈ b.archive)
    (hwin : inDay now e.row.createdAt = true) (hpay : mayPay cfg b.clockMs e = true) :
    e.kept = true ∧ e.row.liveSince (now - 86400) (now - cfg.pendingLease) = true := by
  have hcut : now - 86400 ≤ e.row.createdAt := by simpa [inDay] using hwin
  have hle : (86400 : ℚ) ≤ max cfg.cooldownSeconds 86400 := le_max_right _ _
  exact ⟨kept_of_recent hb hmax he (by linarith), liveSince_of_mayPay hnow hpay hcut⟩

/-- Room in one limit, from the clause of the reserve for its key. -/
theorem room_of_clause (hb : BooksInv cfg b) {sel : ClaimKey → Bool} {w : ClaimKey → Nat}
    {inWindow : ℚ → ℚ → Bool} {bound id : Nat} {live : ClaimRow → Bool}
    (hlive : ∀ e ∈ b.archive, inWindow now e.row.createdAt = true →
      mayPay cfg b.clockMs e = true → e.kept = true ∧ live e.row = true)
    (hclause : sel (reservedEntry cfg req now id).row.key = true →
      w (reservedEntry cfg req now id).row.key +
        ((b.ledger.claims.filter fun r => sel r.key && live r).map fun r => w r.key).sum ≤ bound) :
    (keyLimit sel w inWindow bound).weight (reservedEntry cfg req now id) +
      (keyLimit sel w inWindow bound).load (mayPay cfg b.clockMs) (reservedEntry cfg req now id)
        b.archive ≤ bound := by
  cases hsel : sel (reservedEntry cfg req now id).row.key with
  | false =>
    rw [load_of_not_sel hsel]
    exact Nat.zero_le _
  | true =>
    have hload : (keyLimit sel w inWindow bound).load (mayPay cfg b.clockMs)
        (reservedEntry cfg req now id) b.archive ≤
          ((b.ledger.claims.filter fun r => sel r.key && live r).map fun r => w r.key).sum :=
      load_le_table hb hlive
    have hroom := hclause hsel
    have hweight : (keyLimit sel w inWindow bound).weight (reservedEntry cfg req now id) =
        w (reservedEntry cfg req now id).row.key := if_pos hsel
    omega

/-- Every limit has room for the row a reserve admits. -/
theorem room_of_reserveAllowed (hb : BooksInv cfg b) (hnow : now * 1000 ≤ b.clockMs)
    (hmax : ∀ m ∈ b.maxNow, m - 3600 ≤ now) {id : Nat}
    (hok : reserveAllowed (reserveClaimParams cfg (req.opts cfg now)) b.ledger.claims = true)
    {L : Limit Entry} (hL : LedgerLimit cfg L) :
    L.weight (reservedEntry cfg req now id) +
      L.load (mayPay cfg b.clockMs) (reservedEntry cfg req now id) b.archive ≤ L.bound := by
  obtain ⟨hok_addr, hok_ip, hok_subnet, hok_cap⟩ := reserveAllowed_iff.mp hok
  cases hL with
  | address addressHash network =>
    refine room_of_clause hb (fun e he => live_of_inCooldown hb hnow hmax he) fun hsel => ?_
    obtain ⟨rfl, rfl⟩ : (reserveClaimParams cfg (req.opts cfg now)).addressHash = addressHash ∧
        (reserveClaimParams cfg (req.opts cfg now)).network = network := by
      simpa [forAddress] using hsel
    rw [sum_ones]
    exact addressClear_count hok_addr
  | connection ipHash network hne =>
    refine room_of_clause hb (fun e he => live_of_inCooldown hb hnow hmax he) fun hsel => ?_
    obtain ⟨rfl, rfl⟩ : (reserveClaimParams cfg (req.opts cfg now)).ipHash = ipHash ∧
        (reserveClaimParams cfg (req.opts cfg now)).network = network := by
      simpa [forConnection] using hsel
    rw [sum_ones]
    exact ipClear_count hne hok_ip
  | subnet subnetHash hne =>
    refine room_of_clause hb (fun e he => live_of_inDay hb hnow hmax he) fun hsel => ?_
    obtain rfl : (reserveClaimParams cfg (req.opts cfg now)).subnetHash = subnetHash := by
      simpa [forSubnet] using hsel
    rw [sum_ones]
    exact subnetClear_count hne hok_subnet
  | cap network =>
    refine room_of_clause hb (fun e he => live_of_inDay hb hnow hmax he) fun hsel => ?_
    obtain rfl : (reserveClaimParams cfg (req.opts cfg now)).network = network := by
      simpa [forNetwork] using hsel
    exact capClear_sum hok_cap

/-- What a reserve does to the books. -/
theorem apply_reserve_cases (cfg : LedgerConfig) (b : Books) (req : ClaimRequest) (now : ℚ) :
    (reserveAllowed (reserveClaimParams cfg (req.opts cfg now)) b.ledger.claims = true ∧
      b.apply cfg (.reserve req now) =
        { b with
          ledger :=
            { b.ledger with
              claims := (reservedEntry cfg req now b.ledger.nextId).row :: b.ledger.claims
              nextId := b.ledger.nextId + 1 }
          archive := reservedEntry cfg req now b.ledger.nextId :: b.archive
          maxNow := b.see now }) ∨
    (reserveAllowed (reserveClaimParams cfg (req.opts cfg now)) b.ledger.claims = false ∧
      b.apply cfg (.reserve req now) = { b with maxNow := b.see now }) := by
  rcases reserveClaim_cases cfg (req.opts cfg now) b.ledger with ⟨hok, hres⟩ | ⟨hno, hres⟩
  · refine Or.inl ⟨hok, ?_⟩
    simp only [Books.apply, hres]
    rfl
  · refine Or.inr ⟨hno, ?_⟩
    simp only [Books.apply, hres]

theorem booksInv_see (hb : BooksInv cfg b) : BooksInv cfg { b with maxNow := b.see now } :=
  ⟨hb.table, fun e he hk => gone_see (hb.gone e he hk), hb.limits⟩

theorem booksInv_reserve (hb : BooksInv cfg b) (hallow : b.admits cfg (.reserve req now)) :
    BooksInv cfg (b.apply cfg (.reserve req now)) := by
  obtain ⟨hnow, hmax⟩ := hallow
  rcases apply_reserve_cases cfg b req now with ⟨hok, hres⟩ | ⟨-, hres⟩
  · rw [hres]
    refine ⟨?_, ?_, ?_⟩
    · simp [hb.table, reservedEntry]
    · intro e he hk
      rcases List.mem_cons.mp he with rfl | he
      · simp [reservedEntry] at hk
      · exact gone_see (hb.gone e he hk)
    · intro L hL
      exact (hb.limits L hL).push (room_of_reserveAllowed hb hnow hmax hok hL)
  · rw [hres]
    exact booksInv_see hb

end Admission

/-! ## Row ids -/

structure BooksIds (b : Books) : Prop where
  fresh : ∀ e ∈ b.archive, e.row.id < b.ledger.nextId
  nodup : (b.archive.map fun e => e.row.id).Nodup

theorem booksIds_empty (clockMs : ℚ) : BooksIds (.empty clockMs) where
  fresh := by
    intro e he
    cases he
  nodup := List.nodup_nil

/-- Two rows of the archive with one id are one row. -/
theorem BooksIds.eq_of_id {b : Books} (hb : BooksIds b) {e e' : Entry} (he : e ∈ b.archive)
    (he' : e' ∈ b.archive) (h : e.row.id = e'.row.id) : e = e' :=
  List.inj_on_of_nodup_map hb.nodup he he' h

theorem BooksIds.map {b : Books} (hb : BooksIds b) {f : Entry → Entry}
    (hf : ∀ e, (f e).row.id = e.row.id) :
    (∀ e ∈ b.archive.map f, e.row.id < b.ledger.nextId) ∧
      ((b.archive.map f).map fun e => e.row.id).Nodup := by
  constructor
  · intro e he
    obtain ⟨a, ha, rfl⟩ := List.mem_map.mp he
    rw [hf]
    exact hb.fresh a ha
  · rw [List.map_map]
    have hcomp : (fun e : Entry => e.row.id) ∘ f = fun e => e.row.id := funext hf
    rw [hcomp]
    exact hb.nodup

theorem booksIds_apply {cfg : LedgerConfig} {b : Books} (hb : BooksIds b) (ev : BooksEvent) :
    BooksIds (b.apply cfg ev) := by
  cases ev with
  | tick ms => exact ⟨hb.fresh, hb.nodup⟩
  | purge now =>
    obtain ⟨hfresh, hnodup⟩ := hb.map (Entry.purge_id (retentionCutoff cfg now cfg.cooldownSeconds))
    exact ⟨hfresh, hnodup⟩
  | reserve req now =>
    rcases apply_reserve_cases cfg b req now with ⟨-, hres⟩ | ⟨-, hres⟩
    · rw [hres]
      refine ⟨?_, ?_⟩
      · intro e he
        rcases List.mem_cons.mp he with rfl | he
        · exact Nat.lt_succ_self _
        · exact Nat.lt_succ_of_lt (hb.fresh e he)
      · rw [List.map_cons, List.nodup_cons]
        refine ⟨fun hmem => ?_, hb.nodup⟩
        obtain ⟨e, he, hid⟩ := List.mem_map.mp hmem
        have hlt := hb.fresh e he
        simp only [reservedEntry, reservedRow] at hid
        omega
    · rw [hres]
      exact ⟨hb.fresh, hb.nodup⟩
  | finalize id status txid noTxid network =>
    simp only [Books.apply]
    cases hfin : finalizeClaim id status txid noTxid b.clockMs network b.ledger with
    | error msg => exact hb
    | ok ledger =>
      obtain ⟨hfresh, hnodup⟩ :=
        hb.map (Entry.finalize_id status.toClaimStatus (orNull txid) id)
      refine ⟨?_, hnodup⟩
      rw [(finalizeClaim_ok hfin).2]
      exact hfresh

/-! ## Runs -/

theorem booksInv_step {cfg : LedgerConfig} {b b' : Books} {ev : BooksEvent} (hb : BooksInv cfg b)
    (h : b.step cfg ev = some b') : BooksInv cfg b' := by
  unfold Books.step at h
  split at h
  · rename_i hallow
    obtain rfl := Option.some.inj h
    cases ev with
    | tick ms => exact booksInv_tick hb hallow
    | purge now => exact booksInv_purge hb
    | reserve req now => exact booksInv_reserve hb hallow
    | finalize id status txid noTxid network => exact booksInv_finalize hb hallow
  · cases h

theorem booksInv_run {cfg : LedgerConfig} {clockMs : ℚ} {es : List BooksEvent} {b : Books}
    (h : run (Books.step cfg) (.empty clockMs) es = some b) : BooksInv cfg b :=
  run_invariant (BooksInv cfg) (fun _ _ _ => booksInv_step) (booksInv_empty cfg clockMs) h

/-! ## Windows -/

/-- Every row ever finalised 'sent'. -/
def Books.sent (b : Books) : List ClaimRow :=
  (b.archive.map Entry.row).filter fun r => r.status == .sent

/-- The sent rows of a window weigh at most the bound of the limit. -/
theorem sent_window_le {cfg : LedgerConfig} {b : Books} (hb : BooksInv cfg b)
    {sel : ClaimKey → Bool} {w : ClaimKey → Nat} {inWindow : ℚ → ℚ → Bool} {bound : Nat}
    (hL : LedgerLimit cfg (keyLimit sel w inWindow bound)) {win : ClaimRow → Bool}
    (hwin : ∀ x a, win x = true → win a = true → inWindow x.createdAt a.createdAt = true) :
    ((b.sent.filter fun r => sel r.key && win r).map fun r => w r.key).sum ≤ bound := by
  have hle := (hb.limits _ hL).window_le
    (W := fun e => e.row.status == .sent && (sel e.row.key && win e.row))
    (fun e _ he => by
      simp only [Bool.and_eq_true, beq_iff_eq] at he
      exact mayPay_eq_true.mpr (Or.inl he.1))
    (fun x _ a _ hx ha => by
      simp only [Bool.and_eq_true] at hx ha
      simp only [keyLimit, Bool.and_eq_true]
      exact ⟨⟨hx.2.1, ha.2.1⟩, hwin _ _ hx.2.2 ha.2.2⟩)
  refine le_trans (le_of_eq ?_) hle
  unfold Books.sent
  rw [List.filter_filter, List.filter_map, List.map_map]
  have hfilter : (fun r : ClaimRow => (sel r.key && win r) && r.status == .sent) ∘ Entry.row =
      fun e : Entry => e.row.status == .sent && (sel e.row.key && win e.row) := by
    funext e
    exact Bool.and_comm _ _
  rw [hfilter]
  refine congrArg List.sum (List.map_congr_left fun e he => ?_)
  have hsel : sel e.row.key = true := by
    simp only [List.mem_filter, Bool.and_eq_true] at he
    exact he.2.2.1
  simp [keyLimit, hsel]

/-- `w - cooldown < created_at <= w`. -/
def cooldownWindow (cfg : LedgerConfig) (w : ℚ) (r : ClaimRow) : Bool :=
  decide (w - cfg.cooldownSeconds < r.createdAt) && decide (r.createdAt ≤ w)

/-- `w - 86400 <= created_at <= w`. -/
def dayWindow (w : ℚ) (r : ClaimRow) : Bool :=
  decide (w - 86400 ≤ r.createdAt) && decide (r.createdAt ≤ w)

theorem inCooldown_of_window {cfg : LedgerConfig} {w : ℚ} (x a : ClaimRow)
    (hx : cooldownWindow cfg w x = true) (ha : cooldownWindow cfg w a = true) :
    inCooldown cfg x.createdAt a.createdAt = true := by
  simp only [cooldownWindow, Bool.and_eq_true, decide_eq_true_eq] at hx ha
  simp only [inCooldown, decide_eq_true_eq]
  linarith

theorem inDay_of_window {w : ℚ} (x a : ClaimRow) (hx : dayWindow w x = true)
    (ha : dayWindow w a = true) : inDay x.createdAt a.createdAt = true := by
  simp only [dayWindow, Bool.and_eq_true, decide_eq_true_eq] at hx ha
  simp only [inDay, decide_eq_true_eq]
  linarith

/-- The four limits over the windows that end at `w`. -/
structure WithinLimits (cfg : LedgerConfig) (b : Books) (w : ℚ) : Prop where
  address : ∀ addressHash network,
    (b.sent.countP fun r => r.addressHash == addressHash && r.network == network &&
      cooldownWindow cfg w r) ≤ 1
  connection : ∀ ipHash network, ipHash ≠ "" →
    (b.sent.countP fun r => r.ipHash == ipHash && r.network == network &&
      cooldownWindow cfg w r) ≤ cfg.ipDailyMax
  subnet : ∀ subnetHash, subnetHash ≠ "" →
    (b.sent.countP fun r => r.subnetHash == some subnetHash && dayWindow w r) ≤
      cfg.subnetDailyMax
  cap : ∀ network,
    ((b.sent.filter fun r => r.network == network && dayWindow w r).map ClaimRow.amountZat).sum ≤
      cfg.dailyCapZat network

/-- **The rolling windows.** In every run and for every instant `w`, the
rows ever finalised 'sent' stay within the four limits. -/
theorem rolling_windows {cfg : LedgerConfig} {clockMs : ℚ} {es : List BooksEvent} {b : Books}
    (h : run (Books.step cfg) (.empty clockMs) es = some b) (w : ℚ) : WithinLimits cfg b w := by
  have hb := booksInv_run h
  refine ⟨?_, ?_, ?_, ?_⟩
  · intro addressHash network
    rw [← sum_ones]
    exact sent_window_le hb (.address addressHash network) inCooldown_of_window
  · intro ipHash network hne
    rw [← sum_ones]
    exact sent_window_le hb (.connection ipHash network hne) inCooldown_of_window
  · intro subnetHash hne
    rw [← sum_ones]
    exact sent_window_le hb (.subnet subnetHash hne) inDay_of_window
  · intro network
    exact sent_window_le hb (.cap network) inDay_of_window

/-- The stock configuration: a day of cooldown, 309 s for a send, a queue
of twenty. -/
def stockConfig : LedgerConfig where
  cooldownSeconds := 86400
  sendResidenceMs := 309000
  sendQueueMaxPending := 20
  dailyCapZat
    | .taz => 10000000000
    | .ctaz => 2500000000
  subnetDailyMax := 20
  ipDailyMax := 5
  fingerprintAddress := fun address => address

def stockRequest (address : String) : ClaimRequest where
  address := address
  ipHash := some "ip"
  subnetHash := some "subnet"
  amountZat := 10000000
  network := .taz

/-- Two addresses are paid, the second while the first is pending; a
retry of the first is refused; a third claim fails. -/
def stockRun : List BooksEvent :=
  [.reserve (stockRequest "a") 1800000000, .reserve (stockRequest "b") 1799999000,
    .reserve (stockRequest "a") 1800000000, .tick 300000,
    .finalize 1 .sent (some (js "t1")) false .taz, .reserve (stockRequest "c") 1800000300,
    .purge 1800000300, .finalize 2 .sent (some (js "t2")) false .taz,
    .finalize 3 .failed none false .taz]

theorem rolling_windows_stock :
    ∃ b, run (Books.step stockConfig) (.empty 1800000000000) stockRun = some b ∧
      b.sent.length = 2 ∧ WithinLimits stockConfig b 1800000000 := by
  have hlen : (run (Books.step stockConfig) (.empty 1800000000000) stockRun).map
      (fun b => b.sent.length) = some 2 := by decide +kernel
  obtain ⟨b, hb, hsent⟩ := Option.map_eq_some_iff.mp hlen
  exact ⟨b, hb, hsent, rolling_windows hb 1800000000⟩

/-! ## A claim finalised again -/

/-- The events of a run in which a claim may be finalised more than once.
Neither `finalizeClaim` nor its UPDATE looks at the row's status. -/
def Books.admitsAgain (cfg : LedgerConfig) (b : Books) : BooksEvent → Prop
  | .finalize claimId status _ _ _ =>
      ∀ e ∈ b.archive, e.row.id = claimId → status = .sent → insideLease cfg b.clockMs e.row
  | ev => b.admits cfg ev

instance (cfg : LedgerConfig) (b : Books) : (ev : BooksEvent) → Decidable (b.admitsAgain cfg ev)
  | .tick ms => inferInstanceAs (Decidable (b.admits cfg (.tick ms)))
  | .purge now => inferInstanceAs (Decidable (b.admits cfg (.purge now)))
  | .reserve req now => inferInstanceAs (Decidable (b.admits cfg (.reserve req now)))
  | .finalize claimId status _ _ _ =>
      inferInstanceAs (Decidable (∀ e ∈ b.archive, e.row.id = claimId → status = .sent →
        insideLease cfg b.clockMs e.row))

def Books.stepAgain (cfg : LedgerConfig) (b : Books) (ev : BooksEvent) : Option Books :=
  if b.admitsAgain cfg ev then some (b.apply cfg ev) else none

/-- A claim fails, its address is paid by a second claim, and the first is
finalised again, as 'sent'. -/
def finalisedAgain : List BooksEvent :=
  [.reserve (stockRequest "a") 1800000000, .finalize 1 .failed none false .taz,
    .reserve (stockRequest "a") 1800000000, .finalize 2 .sent (some (js "t2")) false .taz,
    .finalize 1 .sent (some (js "t1")) false .taz]

theorem rolling_windows_finalisedAgain :
    ¬ ∀ (cfg : LedgerConfig) (clockMs : ℚ) (es : List BooksEvent) (b : Books),
      run (Books.stepAgain cfg) (.empty clockMs) es = some b → ∀ w, WithinLimits cfg b w := by
  intro hall
  have hview : (run (Books.stepAgain stockConfig) (.empty 1800000000000) finalisedAgain).map
      (fun b => b.sent.countP fun r => r.addressHash == "a" && r.network == .taz &&
        cooldownWindow stockConfig 1800000000 r) = some 2 := by decide +kernel
  obtain ⟨b, hb, htwo⟩ := Option.map_eq_some_iff.mp hview
  have hone := (hall _ _ _ b hb 1800000000).address "a" .taz
  omega

end ZcashFaucet.Db
