/-
ZcashFaucet.Db.Ledger — the claim ledger of `db/index.ts`, and the
books kept on it.

The first half is the code: `reserveClaim` with the diagnosis behind a
refusal, the purge it issues on the way, and `finalizeClaim`.
`reserveClaim` does not await its purge. On SQLite the purge has run
before the reserve does, on D1 the two requests race, so
`purgeExpired` is an operation of its own.

The second half is what a statement about a whole run needs and the
database does not keep. `Books` is a ledger together with an archive of
every row ever reserved: the statements act on the archive as on the
table, except that a purge only marks a row as gone. It also holds the
real time and the largest `now` a request has used.
-/
import ZcashFaucet.Db.Sql
import ZcashFaucet.Lib.Run

namespace ZcashFaucet.Db

open Lib

/-! ## Configuration -/

/-- What a claim on the ledger depends on besides its request. -/
structure LedgerConfig where
  cooldownSeconds : ℚ
  sendResidenceMs : Nat
  sendQueueMaxPending : Nat
  dailyCapZat : FaucetNetwork → Nat
  subnetDailyMax : Nat
  ipDailyMax : Nat
  fingerprintAddress : String → String

/-- PENDING_LEASE_SECONDS. -/
def LedgerConfig.pendingLease (cfg : LedgerConfig) : Nat :=
  pendingLeaseSeconds cfg.sendResidenceMs cfg.sendQueueMaxPending

/-! ## reserveClaim -/

structure ReserveOpts where
  address : String
  ipHash : Option String
  subnetHash : Option String
  amountZat : Nat
  now : ℚ
  cooldownSeconds : ℚ
  dailyCapZat : Nat
  subnetDailyMax : Nat
  ipDailyMax : Nat := 1
  network : FaucetNetwork := .taz

inductive BlockKind
  | cooldown
  | cap
  | subnet
  deriving DecidableEq, Repr

inductive BlockScope
  | address
  | connection
  deriving DecidableEq, Repr

/-- A refused reservation, as the visitor is told. -/
structure Blocked where
  kind : BlockKind
  scope : Option BlockScope
  reason : String
  retryAfterSeconds : Option ℚ
  deriving DecidableEq, Repr

/-- Diagnose why an atomic reserve inserted 0 rows. -/
def whyBlocked (cfg : LedgerConfig) (o : ReserveOpts) (claims : List ClaimRow) : Blocked :=
  let lease : ℚ := cfg.pendingLease
  let leaseCut := o.now - lease
  let cooldownCut := o.now - o.cooldownSeconds
  let ipHash := o.ipHash.getD ""
  let subnetHash := o.subnetHash.getD ""
  let ipWindow := ipWindowSql o.cooldownSeconds lease ipHash o.network cooldownCut leaseCut claims
  match liveBlockSql (cfg.fingerprintAddress o.address) o.network cooldownCut leaseCut claims with
  | some row =>
      { kind := .cooldown
        scope := some .address
        reason := "This address already claimed recently. Try again later."
        retryAfterSeconds :=
          some (max 1 ((if row.status == .sent then o.cooldownSeconds else lease) -
            (o.now - row.createdAt))) }
  | none =>
      if ipHash != "" && decide (0 < o.ipDailyMax) && decide (o.ipDailyMax ≤ ipWindow.1) then
        { kind := .cooldown
          scope := some .connection
          reason := "This connection has used all " ++ toString o.ipDailyMax ++
            " of its drips for the last " ++ toString ⌊o.cooldownSeconds / 3600 + 1 / 2⌋ ++ " hours."
          retryAfterSeconds := some (max 1 (ipWindow.2.getD o.now - o.now)) }
      else if subnetHash != "" &&
          decide (o.subnetDailyMax ≤ subnetCountSql subnetHash (o.now - 86400) leaseCut claims) then
        { kind := .subnet
          scope := none
          reason := "Too many claims from your network today. Try again tomorrow, or from a " ++
            "different connection."
          retryAfterSeconds := some 3600 }
      else
        { kind := .cap
          scope := none
          reason := "Faucet daily cap reached. Please come back tomorrow."
          retryAfterSeconds :=
            (capWindowSql lease o.network (o.now - 86400) leaseCut claims).map fun freesAt =>
              max 1 (freesAt - o.now) }

/-- The parameters `reserveClaim` runs RESERVE_SQL with. -/
def reserveClaimParams (cfg : LedgerConfig) (o : ReserveOpts) : ReserveParams :=
  reserveParams
    { pendingLeaseSeconds := cfg.pendingLease
      addressHash := cfg.fingerprintAddress o.address
      ipHash := o.ipHash.getD ""
      subnetHash := o.subnetHash.getD ""
      amountZat := o.amountZat
      now := o.now
      cooldownSeconds := o.cooldownSeconds
      dailyCapZat := o.dailyCapZat
      subnetDailyMax := o.subnetDailyMax
      ipDailyMax := o.ipDailyMax
      network := o.network }

/-- Atomically enforce cooldown + daily cap and reserve a pending claim:
the id of the claim, or why there is none. -/
def reserveClaim (cfg : LedgerConfig) (o : ReserveOpts) (l : Ledger) : Ledger × Except Blocked Nat :=
  match reserveSql (reserveClaimParams cfg o) l with
  | (l', some claimId) => (l', .ok claimId)
  | (l', none) => (l', .error (whyBlocked cfg o l'.claims))

/-- Rows older than this can't affect a cooldown, the 24h cap or a
pending lease. The last term is an hour of grace. -/
def retentionCutoff (cfg : LedgerConfig) (now cooldownSeconds : ℚ) : ℚ :=
  now - max cooldownSeconds (max 86400 (cfg.pendingLease : ℚ)) - 3600

/-- The purge `reserveClaim` issues before it reserves. -/
def purgeExpired (cfg : LedgerConfig) (now cooldownSeconds : ℚ) (l : Ledger) : Ledger :=
  purgeSql (retentionCutoff cfg now cooldownSeconds) l

/-! ## finalizeClaim -/

/-- `"sent" | "failed"`. -/
inductive FinalStatus
  | sent
  | failed
  deriving DecidableEq, Repr

def FinalStatus.toClaimStatus : FinalStatus → ClaimStatus
  | .sent => .sent
  | .failed => .failed

/-- UTC calendar day, counted from the epoch. -/
def utcDay (ms : ℚ) : Int := ⌊ms / 86400000⌋

/-- The error of a sent claim without a txid. -/
def missingTxidMessage (claimId : Nat) : String :=
  "finalizeClaim: a sent claim must carry a txid (claim " ++ toString claimId ++ "). " ++
    "If this network's send path genuinely returns none, say so explicitly with " ++
    "the \"network-has-no-txid\" reason."

/-- Finalise a reserved claim once the send resolves. `noTxid` is the
reason "network-has-no-txid". -/
def finalizeClaim (claimId : Nat) (status : FinalStatus) (txid : Option JsString) (noTxid : Bool)
    (nowMs : ℚ) (network : FaucetNetwork) (l : Ledger) : Except String Ledger :=
  if status = .sent ∧ orNull txid = none ∧ noTxid = false then
    .error (missingTxidMessage claimId)
  else
    let l' := finalizeSql status.toClaimStatus (orNull txid) claimId l
    -- best effort, and only logged when it fails: the count never fails a claim
    .ok (if status = .sent then dripBumpSql network (utcDay nowMs) l' else l')

/-! ## The books -/

/-- A row of the archive: the row as the statements left it, and whether
the table still holds it. -/
structure Entry where
  row : ClaimRow
  kept : Bool

structure Books where
  ledger : Ledger
  archive : List Entry
  maxNow : Option ℚ
  clockMs : ℚ

def Books.empty (clockMs : ℚ) : Books := ⟨.empty, [], none, clockMs⟩

/-- What a request brings besides the configuration. -/
structure ClaimRequest where
  address : String
  ipHash : Option String
  subnetHash : Option String
  amountZat : Nat
  network : FaucetNetwork

/-- The options the route passes: the limits are the configuration's. -/
def ClaimRequest.opts (cfg : LedgerConfig) (req : ClaimRequest) (now : ℚ) : ReserveOpts where
  address := req.address
  ipHash := req.ipHash
  subnetHash := req.subnetHash
  amountZat := req.amountZat
  now := now
  cooldownSeconds := cfg.cooldownSeconds
  dailyCapZat := cfg.dailyCapZat req.network
  subnetDailyMax := cfg.subnetDailyMax
  ipDailyMax := cfg.ipDailyMax
  network := req.network

inductive BooksEvent
  | tick (ms : ℚ)
  | purge (now : ℚ)
  | reserve (req : ClaimRequest) (now : ℚ)
  | finalize (claimId : Nat) (status : FinalStatus) (txid : Option JsString) (noTxid : Bool)
      (network : FaucetNetwork)

def Entry.purge (cutoff : ℚ) (e : Entry) : Entry :=
  { e with kept := e.kept && !decide (e.row.createdAt < cutoff) }

def Entry.finalize (status : ClaimStatus) (txid : Option JsString) (id : Nat) (e : Entry) : Entry :=
  { e with row := e.row.finalized status txid id }

/-- The largest `now` used so far, after one more. -/
def Books.see (b : Books) (now : ℚ) : Option ℚ :=
  some (b.maxNow.elim now fun m => max m now)

/-- What an event does to the books. -/
def Books.apply (cfg : LedgerConfig) (b : Books) : BooksEvent → Books
  | .tick ms => { b with clockMs := b.clockMs + ms }
  | .purge now =>
      { b with
        ledger := purgeExpired cfg now cfg.cooldownSeconds b.ledger
        archive := b.archive.map (Entry.purge (retentionCutoff cfg now cfg.cooldownSeconds))
        maxNow := b.see now }
  | .reserve req now =>
      let o := req.opts cfg now
      let (ledger, result) := reserveClaim cfg o b.ledger
      { b with
        ledger := ledger
        archive :=
          match result with
          | .ok claimId => ⟨reservedRow (reserveClaimParams cfg o) claimId, true⟩ :: b.archive
          | .error _ => b.archive
        maxNow := b.see now }
  | .finalize claimId status txid noTxid network =>
      match finalizeClaim claimId status txid noTxid b.clockMs network b.ledger with
      | .ok ledger =>
          { b with
            ledger := ledger
            archive := b.archive.map (Entry.finalize status.toClaimStatus (orNull txid) claimId) }
      | .error _ => b

/-- The real time is still inside the pending lease of a row. -/
def insideLease (cfg : LedgerConfig) (clockMs : ℚ) (r : ClaimRow) : Prop :=
  clockMs < (r.createdAt + cfg.pendingLease) * 1000

instance (cfg : LedgerConfig) (clockMs : ℚ) (r : ClaimRow) : Decidable (insideLease cfg clockMs r) :=
  inferInstanceAs (Decidable (_ < _))

/-- Which events a run is made of. A reserve's `now` is not ahead of the
real time and at most an hour behind the largest `now` used. A claim is
finalised once, as the route does it, and 'sent' only inside its lease. -/
def Books.admits (cfg : LedgerConfig) (b : Books) : BooksEvent → Prop
  | .tick ms => 0 ≤ ms
  | .purge _ => True
  | .reserve _ now => now * 1000 ≤ b.clockMs ∧ ∀ m ∈ b.maxNow, m - 3600 ≤ now
  | .finalize claimId status _ _ _ =>
      ∀ e ∈ b.archive, e.row.id = claimId →
        e.row.status = .pending ∧ (status = .sent → insideLease cfg b.clockMs e.row)

instance (cfg : LedgerConfig) (b : Books) : (ev : BooksEvent) → Decidable (b.admits cfg ev)
  | .tick ms => inferInstanceAs (Decidable (0 ≤ ms))
  | .purge _ => inferInstanceAs (Decidable True)
  | .reserve _ now =>
      inferInstanceAs (Decidable (now * 1000 ≤ b.clockMs ∧ ∀ m ∈ b.maxNow, m - 3600 ≤ now))
  | .finalize claimId status _ _ _ =>
      inferInstanceAs (Decidable (∀ e ∈ b.archive, e.row.id = claimId →
        e.row.status = .pending ∧ (status = .sent → insideLease cfg b.clockMs e.row)))

/-- One step of a run. -/
def Books.step (cfg : LedgerConfig) (b : Books) (ev : BooksEvent) : Option Books :=
  if b.admits cfg ev then some (b.apply cfg ev) else none

end ZcashFaucet.Db
