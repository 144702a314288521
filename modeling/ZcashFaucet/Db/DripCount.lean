/-
ZcashFaucet.Db.DripCount — the drip counter of `db/index.ts` and its
one-time seed.

`finalizeClaim` counts a drip with two writes that are not one
transaction: the UPDATE on the claim, and later a DRIP_BUMP that nobody
awaits. `countDrips` seeds the counter from the claims table when it
finds `drip_days` empty, day by day, a read and then a write for each
day. `Counter` is the two tables with everything that is under way on
them, whichever process it belongs to: the bumps not yet applied and the
seeds past their first read.

The ghost fields say what the database does not keep. `base` are the
claims that were 'sent' when the run began, `old` those of them that
were still in the table when `drip_days` got its first row, which is
when counting began; until then `old` is what is left of them so far.
`finalised` are the claims finalised 'sent' since the run began and
`landed` the bumps that were applied for them. `folded` are the days
some seed is done with.

`Counter.Calm` says which steps keep the count right. Every part of it
is about one way in which the two writes of a drip and the reads and
writes of a seed can meet, and `DripCountTheorems` has the runs.
-/
import ZcashFaucet.Db.Ledger
import ZcashFaucet.Lib.Buckets

namespace ZcashFaucet.Db

open Lib

/-! ## The statements -/

/-- DRIP_ANY_SQL. -/
def dripAnySql (l : Ledger) : Nat := l.dripDays.length

/-- The count of `seedDripDays` for one day, which starts at `startSec`. -/
def seedCountSql (startSec : ℚ) (l : Ledger) : Nat :=
  l.claims.countP fun r =>
    r.status == .sent && decide (startSec ≤ r.createdAt) && decide (r.createdAt < startSec + 86400)

/-- DRIP_SEED_SQL: the larger of what the day has and what was counted. -/
def dripSeedSql (network : FaucetNetwork) (day : Int) (sent : Nat) (l : Ledger) : Ledger :=
  { l with
    dripDays :=
      if l.dripDays.any fun d => d.network == network && d.day == day then
        l.dripDays.map fun d =>
          if d.network == network && d.day == day then { d with sent := max d.sent sent } else d
      else ⟨network, day, sent⟩ :: l.dripDays }

/-- The last `days` UTC days, oldest first, today last. -/
def utcDayWindow (nowMs : ℚ) : (days : Nat) → List Int
  | 0 => []
  | back + 1 => utcDay (nowMs - back * 86400000) :: utcDayWindow nowMs back

/-- The guard of `finalizeClaim` and its UPDATE. -/
def finalizeRow (claimId : Nat) (status : FinalStatus) (txid : Option JsString) (noTxid : Bool)
    (l : Ledger) : Except String Ledger :=
  if status = .sent ∧ orNull txid = none ∧ noTxid = false then
    .error (missingTxidMessage claimId)
  else .ok (finalizeSql status.toClaimStatus (orNull txid) claimId l)

/-- With nothing in between, the UPDATE and the bump are `finalizeClaim`. -/
theorem finalizeClaim_eq (claimId : Nat) (status : FinalStatus) (txid : Option JsString)
    (noTxid : Bool) (nowMs : ℚ) (network : FaucetNetwork) (l : Ledger) :
    finalizeClaim claimId status txid noTxid nowMs network l =
      (finalizeRow claimId status txid noTxid l).map fun l' =>
        if status = .sent then dripBumpSql network (utcDay nowMs) l' else l' := by
  unfold finalizeClaim finalizeRow
  split <;> rfl

/-! ## The state -/

/-- A `seedDripDays` that found `drip_days` empty: the days it has still
to fold, and what it has counted for the first of them. -/
structure Seed where
  left : List Int
  held : Option Nat
  deriving DecidableEq, Repr

/-- What there was when `drip_days` got its first row: the 'sent' rows of
the table. `since` are the networks of the claims finalised after that. -/
structure Began where
  present : List ClaimRow
  since : List FaucetNetwork
  deriving DecidableEq, Repr

structure Counter where
  ledger : Ledger
  bumps : List (FaucetNetwork × Int)
  seeds : List Seed
  base : List ClaimRow
  old : List ClaimRow
  finalised : List (Nat × FaucetNetwork)
  landed : List (FaucetNetwork × Int)
  folded : List Int
  began : Option Began
  deriving DecidableEq, Repr

/-- The rows a seed means to fold. -/
def sentRows (l : Ledger) : List ClaimRow := l.claims.filter fun r => r.status == .sent

/-- A database in which nothing has been counted. -/
def Counter.start (claims : List ClaimRow) (nextId : Nat) : Counter where
  ledger := ⟨claims, nextId, []⟩
  bumps := []
  seeds := []
  base := sentRows ⟨claims, nextId, []⟩
  old := sentRows ⟨claims, nextId, []⟩
  finalised := []
  landed := []
  folded := []
  began := none

/-- Counting begins, if it had not. -/
def Counter.begin (s : Counter) : Counter :=
  { s with began := some (s.began.getD ⟨sentRows s.ledger, []⟩) }

inductive CountEvent
  | reserve (o : ReserveOpts)
  | purge (cutoff : ℚ)
  | finalize (claimId : Nat) (status : FinalStatus) (txid : Option JsString) (noTxid : Bool)
      (nowMs : ℚ) (network : FaucetNetwork)
  | bump (network : FaucetNetwork) (day : Int)
  | countDrips (nowMs : ℚ)
  | seedRead (i : Nat)
  | seedWrite (i : Nat)
  | seedFail (i : Nat)

/-- The claim was finalised 'sent' on the network before. -/
def Counter.WasFinalised (s : Counter) (claimId : Nat) (network : FaucetNetwork) : Prop :=
  (claimId, network) ∈ s.finalised ∨ ∃ r ∈ s.base, r.id = claimId ∧ r.network = network

instance (s : Counter) (claimId : Nat) (network : FaucetNetwork) :
    Decidable (s.WasFinalised claimId network) :=
  inferInstanceAs (Decidable (_ ∨ _))

/-- One more claim is finalised 'sent', unless it was before. -/
def Counter.note (s : Counter) (claimId : Nat) (network : FaucetNetwork) : Counter :=
  if s.WasFinalised claimId network then s
  else
    { s with
      finalised := (claimId, network) :: s.finalised
      began := s.began.map fun b => { b with since := network :: b.since } }

/-- The UPDATE of `finalizeClaim`, which does not look at the row. A sent
claim leaves its bump to come. -/
def Counter.finalize (s : Counter) (claimId : Nat) (status : FinalStatus) (txid : Option JsString)
    (noTxid : Bool) (nowMs : ℚ) (network : FaucetNetwork) : Counter :=
  match finalizeRow claimId status txid noTxid s.ledger with
  | .error _ => s
  | .ok ledger =>
      match status with
      | .failed => { s with ledger := ledger }
      | .sent =>
          { s.note claimId network with
            ledger := ledger
            bumps := (network, utcDay nowMs) :: s.bumps }

/-- The first read of `seedDripDays`: it returns unless the table is empty. -/
def Counter.countDrips (s : Counter) (nowMs : ℚ) : Counter :=
  if 0 < dripAnySql s.ledger then s
  else { s with seeds := ⟨utcDayWindow nowMs 3, none⟩ :: s.seeds }

def Counter.step (cfg : LedgerConfig) (s : Counter) : CountEvent → Option Counter
  | .reserve o => some { s with ledger := (reserveClaim cfg o s.ledger).1 }
  | .purge cutoff =>
      some
        { s with
          ledger := purgeSql cutoff s.ledger
          old :=
            if s.ledger.dripDays = [] then s.old.filter fun r => !decide (r.createdAt < cutoff)
            else s.old }
  | .finalize claimId status txid noTxid nowMs network =>
      some (s.finalize claimId status txid noTxid nowMs network)
  | .bump network day =>
      if (network, day) ∈ s.bumps then
        some
          { s.begin with
            ledger := dripBumpSql network day s.ledger
            bumps := s.bumps.erase (network, day)
            landed := (network, day) :: s.landed }
      else none
  | .countDrips nowMs => some (s.countDrips nowMs)
  | .seedRead i =>
      match s.seeds[i]? with
      | some ⟨day :: rest, none⟩ =>
          let sent := seedCountSql (day * 86400) s.ledger
          if 0 < sent then some { s with seeds := s.seeds.set i ⟨day :: rest, some sent⟩ }
          else some { s with seeds := s.seeds.set i ⟨rest, none⟩, folded := day :: s.folded }
      | _ => none
  | .seedWrite i =>
      match s.seeds[i]? with
      | some ⟨day :: rest, some sent⟩ =>
          some
            { s.begin with
              ledger := dripSeedSql .taz day sent s.ledger
              seeds := s.seeds.set i ⟨rest, none⟩
              folded := day :: s.folded }
      | _ => none
  | .seedFail i =>
      match s.seeds[i]? with
      | some ⟨_ :: _, _⟩ => some { s with seeds := s.seeds.set i ⟨[], none⟩ }
      | _ => none

/-! ## What the counter should say -/

/-- The sum of `sent` over a network. -/
def totalSent (network : FaucetNetwork) (days : List DripDay) : Nat :=
  ((days.filter fun d => decide (d.network = network)).map DripDay.sent).sum

/-- Every bump has been applied and no seed is under way. -/
def Counter.Quiescent (s : Counter) : Prop :=
  s.bumps = [] ∧ ∀ seed ∈ s.seeds, seed.left = []

instance (s : Counter) : Decidable s.Quiescent := inferInstanceAs (Decidable (_ ∧ _))

/-- At most the claims ever finalised 'sent', and at least the ones that
were in the table when counting began and the ones finalised since. -/
def Counter.CountsEveryDrip (s : Counter) : Prop :=
  ∀ network,
    totalSent network s.ledger.dripDays ≤
      (s.base.countP fun r => decide (r.network = network)) +
        s.finalised.countP (fun f => decide (f.2 = network)) ∧
    ∀ b ∈ s.began,
      (b.present.countP fun r => decide (r.network = network)) +
        b.since.countP (fun n => decide (n = network)) ≤ totalSent network s.ledger.dripDays

/-! ## Calm steps -/

/-- The UTC day a claim was created on, which is the day a seed folds it
into. -/
def ClaimRow.createdDay (r : ClaimRow) : Int := ⌊r.createdAt / 86400⌋

/-- The day has rows from before the run, and no seed is done with it. -/
def Counter.Owed (s : Counter) (day : Int) : Prop :=
  day ∉ s.folded ∧ ∃ r ∈ s.old, r.createdDay = day

instance (s : Counter) (day : Int) : Decidable (s.Owed day) := inferInstanceAs (Decidable (_ ∧ _))

/-- The seed has counted the day and not yet written it. -/
def Seed.Holds (seed : Seed) (day : Int) : Prop := seed.held ≠ none ∧ seed.left.head? = some day

instance (seed : Seed) (day : Int) : Decidable (seed.Holds day) :=
  inferInstanceAs (Decidable (_ ∧ _))

/-- The claims finalised in the run that a seed would count for the day. -/
def Counter.finalisedOn (s : Counter) (day : Int) : Nat :=
  s.ledger.claims.countP fun r =>
    r.status == .sent && !decide (r ∈ s.base) && decide (r.createdDay = day)

/-- The bumps the TAZ bucket of the day has had. -/
def Counter.landedOn (s : Counter) (day : Int) : Nat :=
  s.landed.countP fun b => decide (b = (.taz, day))

/-- A seed may read the day: the bumps of the claims it will count are in
the bucket, and no others if it has rows from before to fold there. Those
rows are TAZ. -/
def Counter.ReadsCleanly (s : Counter) (day : Int) : Prop :=
  s.finalisedOn day ≤ s.landedOn day ∧ (s.Owed day → s.finalisedOn day = s.landedOn day) ∧
    ∀ r ∈ s.ledger.claims, r ∈ s.base → r.createdDay = day → r.network = .taz

instance (s : Counter) (day : Int) : Decidable (s.ReadsCleanly day) :=
  inferInstanceAs (Decidable (_ ∧ _ ∧ _))

/-- What would begin counting finds no cTAZ row from before. -/
def Counter.BeginsCleanly (s : Counter) : Prop :=
  s.ledger.dripDays = [] → ∀ r ∈ s.old, r.network = .taz

instance (s : Counter) : Decidable s.BeginsCleanly :=
  inferInstanceAs (Decidable (_ → _))

/-- A claim is finalised once, as the route does it, on its own network. -/
def Counter.mayFinalize (s : Counter) (claimId : Nat) (network : FaucetNetwork) : Prop :=
  (∀ r ∈ s.ledger.claims, r.id = claimId → r.status = .pending ∧ r.network = network) ∧
    (∀ r ∈ s.base, r.id ≠ claimId) ∧ ∀ f ∈ s.finalised, f.1 ≠ claimId

instance (s : Counter) (claimId : Nat) (network : FaucetNetwork) :
    Decidable (s.mayFinalize claimId network) :=
  inferInstanceAs (Decidable (_ ∧ _ ∧ _))

/-- The steps that keep the count right. -/
def Counter.Calm (s : Counter) : CountEvent → Prop
  | .reserve _ => True
  | .purge cutoff =>
      -- the rows a seed still owes are not deleted under it
      s.ledger.dripDays = [] ∨ ∀ r ∈ s.old, s.Owed r.createdDay → ¬ r.createdAt < cutoff
  | .finalize claimId _ _ _ _ network => s.mayFinalize claimId network
  | .bump network day =>
      -- a row in `drip_days` ends all seeding, and MAX swallows a bump
      -- that lands between a seed's read and its write
      s.BeginsCleanly ∧
        (s.ledger.dripDays = [] → s.old = [] ∨ ∃ seed ∈ s.seeds, seed.left ≠ []) ∧
        (network = .taz → s.Owed day → ∀ seed ∈ s.seeds, ¬ seed.Holds day)
  | .countDrips nowMs =>
      -- three days is all a seed looks back
      s.ledger.dripDays = [] → ∀ r ∈ s.old, r.createdDay ∈ utcDayWindow nowMs 3
  | .seedRead i => ∀ seed ∈ s.seeds[i]?, ∀ day ∈ seed.left.head?, s.ReadsCleanly day
  | .seedWrite _ => s.BeginsCleanly
  | .seedFail i =>
      -- once there is a row, nobody starts again for a seed that failed
      s.ledger.dripDays = [] ∨
        ∀ seed ∈ s.seeds[i]?, ∀ day ∈ seed.left, s.Owed day →
          ∃ other ∈ s.seeds.eraseIdx i, day ∈ other.left

instance (s : Counter) : (ev : CountEvent) → Decidable (s.Calm ev)
  | .reserve _ => inferInstanceAs (Decidable True)
  | .purge _ => inferInstanceAs (Decidable (_ ∨ _))
  | .finalize claimId _ _ _ _ network => inferInstanceAs (Decidable (s.mayFinalize claimId network))
  | .bump .. => inferInstanceAs (Decidable (_ ∧ _ ∧ _))
  | .countDrips _ => inferInstanceAs (Decidable (_ → _))
  | .seedRead i => inferInstanceAs (Decidable (∀ seed ∈ s.seeds[i]?, _))
  | .seedWrite _ => inferInstanceAs (Decidable s.BeginsCleanly)
  | .seedFail _ => inferInstanceAs (Decidable (_ ∨ _))

/-- The steps of a calm run. -/
def Counter.calmStep (cfg : LedgerConfig) (s : Counter) (ev : CountEvent) : Option Counter :=
  if s.Calm ev then s.step cfg ev else none

end ZcashFaucet.Db
