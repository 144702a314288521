/-
ZcashFaucet.Db.Sql — the statements of `db/sql.ts` that a claim runs,
over the tables they run on.

A table is a list of rows, newest first, and a statement is a function
on it. Both backends execute one statement atomically, so one statement
is one step and nothing here says when it runs; `Db.Ledger` puts the
statements together the way `db/index.ts` does.

Times are what JavaScript has, numbers, so they are rationals: a
cooldown read from the environment need not be whole. Amounts are
zatoshi and row ids come from AUTOINCREMENT, so both are naturals.

Positional parameters are modelled by name: `ReserveParams` is the list
that `reserveParams` builds, with one field for each distinct value it
holds.
-/
import Mathlib.Data.Rat.Floor
import ZcashFaucet.Lib.JsString

namespace ZcashFaucet.Db

open Lib

/-! ## The claims table -/

/-- `"taz" | "ctaz"`. -/
inductive FaucetNetwork
  | taz
  | ctaz
  deriving DecidableEq, Repr

/-- status: 'pending' (reserved, send in flight) | 'sent' | 'failed'. -/
inductive ClaimStatus
  | pending
  | sent
  | failed
  deriving DecidableEq, Repr

/-- A row of `claims`. `subnetHash` is nullable: rows written before the
column existed have none. -/
structure ClaimRow where
  id : Nat
  addressHash : String
  ipHash : String
  amountZat : Nat
  txid : Option JsString
  status : ClaimStatus
  createdAt : ℚ
  subnetHash : Option String
  network : FaucetNetwork
  deriving DecidableEq, Repr

/-- `(status='sent' AND created_at > ?) OR (status='pending' AND created_at > ?)`. -/
def ClaimRow.liveAfter (sentCut pendingCut : ℚ) (r : ClaimRow) : Bool :=
  (r.status == .sent && decide (sentCut < r.createdAt)) ||
    (r.status == .pending && decide (pendingCut < r.createdAt))

/-- The same with `>=`, which is how the subnet rule and the daily cap cut. -/
def ClaimRow.liveSince (sentCut pendingCut : ℚ) (r : ClaimRow) : Bool :=
  (r.status == .sent && decide (sentCut ≤ r.createdAt)) ||
    (r.status == .pending && decide (pendingCut ≤ r.createdAt))

/-- A row of `drip_days`: drips served, by network and UTC day. The day
is counted from the epoch. -/
structure DripDay where
  network : FaucetNetwork
  day : Int
  sent : Nat
  deriving DecidableEq, Repr

/-- The tables a claim writes, and the next id AUTOINCREMENT hands out. -/
structure Ledger where
  claims : List ClaimRow
  nextId : Nat
  dripDays : List DripDay
  deriving DecidableEq, Repr

/-- The ledger of a fresh database. -/
def Ledger.empty : Ledger := ⟨[], 1, []⟩

/-! ## The pending lease -/

/-- PENDING_LEASE_MARGIN_SECONDS. -/
def pendingLeaseMarginSeconds : Nat := 60

/-- How long a pending row blocks: a full queue, plus the send, plus the
margin for the finalise write. `(x + 999) / 1000` is `Math.ceil(x / 1000)`. -/
def pendingLeaseSeconds (sendResidenceMs sendQueueMaxPending : Nat) : Nat :=
  ((sendQueueMaxPending + 1) * sendResidenceMs + 999) / 1000 + pendingLeaseMarginSeconds

/-! ## RESERVE_SQL -/

/-- What `reserveParams` is given. `subnetHash` is "" when the client's
subnet could not be derived. -/
structure ReserveInput where
  addressHash : String
  ipHash : String
  subnetHash : String
  amountZat : Nat
  now : ℚ
  cooldownSeconds : ℚ
  dailyCapZat : Nat
  subnetDailyMax : Nat
  ipDailyMax : Nat
  network : FaucetNetwork
  pendingLeaseSeconds : ℚ

/-- The parameters of RESERVE_SQL. -/
structure ReserveParams where
  addressHash : String
  ipHash : String
  subnetHash : String
  amountZat : Nat
  now : ℚ
  network : FaucetNetwork
  cooldownCut : ℚ
  leaseCut : ℚ
  since : ℚ
  ipDailyMax : Nat
  subnetDailyMax : Nat
  dailyCapZat : Nat

def reserveParams (o : ReserveInput) : ReserveParams where
  addressHash := o.addressHash
  ipHash := o.ipHash
  subnetHash := o.subnetHash
  amountZat := o.amountZat
  now := o.now
  network := o.network
  cooldownCut := o.now - o.cooldownSeconds
  leaseCut := o.now - o.pendingLeaseSeconds
  since := o.now - 86400
  ipDailyMax := o.ipDailyMax
  subnetDailyMax := o.subnetDailyMax
  dailyCapZat := o.dailyCapZat

/-- Address cooldown, per network: no live row for the address. -/
def addressClear (p : ReserveParams) (claims : List ClaimRow) : Bool :=
  !claims.any fun r => r.addressHash == p.addressHash && r.network == p.network &&
    r.liveAfter p.cooldownCut p.leaseCut

/-- Connection allowance, per network, skipped without an ip. -/
def ipClear (p : ReserveParams) (claims : List ClaimRow) : Bool :=
  p.ipHash == "" ||
    decide ((claims.countP fun r => r.ipHash == p.ipHash && r.network == p.network &&
      r.liveAfter p.cooldownCut p.leaseCut) < p.ipDailyMax)

/-- Subnet cap, over both networks, skipped without a subnet. A NULL
equals nothing. -/
def subnetClear (p : ReserveParams) (claims : List ClaimRow) : Bool :=
  p.subnetHash == "" ||
    decide ((claims.countP fun r => r.subnetHash == some p.subnetHash &&
      r.liveSince p.since p.leaseCut) < p.subnetDailyMax)

/-- The zatoshi the daily cap of a network counts. -/
def capSum (network : FaucetNetwork) (since leaseCut : ℚ) (claims : List ClaimRow) : Nat :=
  ((claims.filter fun r => r.network == network && r.liveSince since leaseCut).map
    ClaimRow.amountZat).sum

/-- Daily cap, per network. -/
def capClear (p : ReserveParams) (claims : List ClaimRow) : Bool :=
  decide (capSum p.network p.since p.leaseCut claims + p.amountZat ≤ p.dailyCapZat)

/-- The WHERE of RESERVE_SQL. -/
def reserveAllowed (p : ReserveParams) (claims : List ClaimRow) : Bool :=
  addressClear p claims && ipClear p claims && subnetClear p claims && capClear p claims

/-- The row RESERVE_SQL inserts. -/
def reservedRow (p : ReserveParams) (id : Nat) : ClaimRow where
  id := id
  addressHash := p.addressHash
  ipHash := p.ipHash
  amountZat := p.amountZat
  txid := none
  status := .pending
  createdAt := p.now
  subnetHash := some p.subnetHash
  network := p.network

/-- RESERVE_SQL: the id of the row it inserted, if it inserted one. -/
def reserveSql (p : ReserveParams) (l : Ledger) : Ledger × Option Nat :=
  if reserveAllowed p l.claims then
    ({ l with claims := reservedRow p l.nextId :: l.claims, nextId := l.nextId + 1 }, some l.nextId)
  else (l, none)

/-! ## FINALIZE_SQL, PURGE_SQL, DRIP_BUMP_SQL -/

/-- The SET of FINALIZE_SQL, on the row with the id. -/
def ClaimRow.finalized (status : ClaimStatus) (txid : Option JsString) (id : Nat) (r : ClaimRow) :
    ClaimRow :=
  if r.id = id then { r with status := status, txid := txid } else r

/-- FINALIZE_SQL. -/
def finalizeSql (status : ClaimStatus) (txid : Option JsString) (id : Nat) (l : Ledger) : Ledger :=
  { l with claims := l.claims.map (ClaimRow.finalized status txid id) }

/-- PURGE_SQL: `DELETE FROM claims WHERE created_at < ?`. -/
def purgeSql (cutoff : ℚ) (l : Ledger) : Ledger :=
  { l with claims := l.claims.filter fun r => !decide (r.createdAt < cutoff) }

/-- DRIP_BUMP_SQL: one more drip served on this day. -/
def dripBumpSql (network : FaucetNetwork) (day : Int) (l : Ledger) : Ledger :=
  { l with
    dripDays :=
      if l.dripDays.any fun d => d.network == network && d.day == day then
        l.dripDays.map fun d =>
          if d.network == network && d.day == day then { d with sent := d.sent + 1 } else d
      else ⟨network, day, 1⟩ :: l.dripDays }

/-! ## The reads behind "why blocked" -/

/-- The newest row of a list of rows, newest first. -/
def newest : List ClaimRow → Option ClaimRow
  | [] => none
  | r :: rest =>
      match newest rest with
      | none => some r
      | some m => if m.createdAt ≤ r.createdAt then some r else some m

/-- LIVE_BLOCK_SQL on `address_hash`. -/
def liveBlockSql (addressHash : String) (network : FaucetNetwork) (sentCut pendingCut : ℚ)
    (claims : List ClaimRow) : Option ClaimRow :=
  newest (claims.filter fun r =>
    r.addressHash == addressHash && r.network == network && r.liveAfter sentCut pendingCut)

/-- When a row stops counting: a sent row after one window, a pending one
after the other. -/
def ClaimRow.expiry (sentFor pendingFor : ℚ) (r : ClaimRow) : ℚ :=
  r.createdAt + if r.status == .sent then sentFor else pendingFor

/-- IP_WINDOW_SQL: how many live claims one connection holds, and the
earliest expiry among them. -/
def ipWindowSql (cooldown lease : ℚ) (ipHash : String) (network : FaucetNetwork)
    (sentCut pendingCut : ℚ) (claims : List ClaimRow) : Nat × Option ℚ :=
  let live := claims.filter fun r =>
    r.ipHash == ipHash && r.network == network && r.liveAfter sentCut pendingCut
  (live.length, (live.map (ClaimRow.expiry cooldown lease)).min?)

/-- SUBNET_COUNT_SQL. -/
def subnetCountSql (subnetHash : String) (sentCut pendingCut : ℚ) (claims : List ClaimRow) : Nat :=
  claims.countP fun r => r.subnetHash == some subnetHash && r.liveSince sentCut pendingCut

/-- CAP_WINDOW_SQL: when the daily cap next has room. -/
def capWindowSql (lease : ℚ) (network : FaucetNetwork) (sentCut pendingCut : ℚ)
    (claims : List ClaimRow) : Option ℚ :=
  ((claims.filter fun r => r.network == network && r.liveSince sentCut pendingCut).map
    (ClaimRow.expiry 86400 lease)).min?

end ZcashFaucet.Db
