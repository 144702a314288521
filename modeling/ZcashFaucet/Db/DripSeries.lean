/-
ZcashFaucet.Db.DripSeries — the drip counts as `/api/status` publishes
them, `countDrips` of `db/index.ts`.

`Db.Ledger` counts days from the epoch. Here a day is what the column
holds, the first ten units of an ISO text: the totals compare such texts,
the series looks each day of its own window up in a Map of the rows.
`countDrips` is given the rows as the one-time seed leaves them.
-/
import ZcashFaucet.Db.Ledger
import ZcashFaucet.Lib.IsoDate
import ZcashFaucet.Lib.JsMap

namespace ZcashFaucet.Db.DripSeries

open Lib

/-! ## Days -/

/-- `none` is the RangeError of `toISOString`. -/
def utcDay (ms : ℚ) : Option JsString := (timeClip ms).map fun t => (toISOString t).take 10

/-- The last `days` UTC days, oldest first, today last. -/
def utcDayWindow (nowMs : ℚ) (days : Nat) : Option (List JsString) :=
  (List.range days).reverse.mapM fun (back : Nat) => utcDay (nowMs - back * 86400000)

/-! ## The statements -/

/-- A row of `drip_days`. -/
structure DripDayRow where
  network : FaucetNetwork
  day : JsString
  sent : Nat
  deriving DecidableEq, Repr

/-- The table: its primary key, and days that `utcDay` made. -/
structure DripDays where
  rows : List DripDayRow
  key : (rows.map fun r => (r.network, r.day)).Nodup
  days : ∀ r ∈ rows, ∃ ms, utcDay ms = some r.day

/-- MIN of a text column. -/
def minText : List JsString → Option JsString
  | [] => none
  | day :: days => some (days.foldl (fun least d => if textLe least d then least else d) day)

def rowsOf (network : FaucetNetwork) (rows : List DripDayRow) : List DripDayRow :=
  rows.filter fun r => r.network = network

/-- `day >= ? AND day <= ?`. -/
def DripDayRow.isIn (first last : JsString) (r : DripDayRow) : Bool := textLe first r.day && textLe r.day last

structure DripTotals where
  allTime : Nat
  last30d : Nat
  last7d : Nat
  countingSince : Option JsString

/-- DRIP_TOTALS_SQL. -/
def dripTotalsSql (first30 last30 first7 last7 : JsString) (network : FaucetNetwork) (rows : List DripDayRow) :
    DripTotals where
  allTime := ((rowsOf network rows).map DripDayRow.sent).sum
  last30d := (((rowsOf network rows).filter (DripDayRow.isIn first30 last30)).map DripDayRow.sent).sum
  last7d := (((rowsOf network rows).filter (DripDayRow.isIn first7 last7)).map DripDayRow.sent).sum
  countingSince := minText ((rowsOf network rows).map DripDayRow.day)

/-- DRIP_BY_DAY_SQL. -/
def dripByDaySql (network : FaucetNetwork) (first last : JsString) (rows : List DripDayRow) : List (JsString × Nat) :=
  ((rowsOf network rows).filter (DripDayRow.isIn first last)).map fun r => (r.day, r.sent)

/-! ## countDrips -/

/-- One UTC day of the series. -/
structure DripDay where
  day : JsString
  sent : Nat
  deriving DecidableEq, Repr

structure DripCounts where
  allTime : Nat
  last7d : Nat
  last30d : Nat
  countingSince : Option JsString
  byDay : List DripDay
  deriving DecidableEq, Repr

/-- `none` is null, the answer of the `catch` as well. -/
def countDrips (nowMs : ℚ) (network : FaucetNetwork) (rows : List DripDayRow) : Option DripCounts := do
  let window30 ← utcDayWindow nowMs 30
  let window7 ← utcDayWindow nowMs 7
  let first30 ← window30.head?
  let today ← window30.getLast?
  let first7 ← window7.head?
  let row := dripTotalsSql first30 today first7 today network rows
  let days := dripByDaySql network first30 today rows
  let sentOn := JsMap.ofEntries days
  pure
    { allTime := row.allTime
      last7d := row.last7d
      last30d := row.last30d
      countingSince := orNull row.countingSince
      byDay := window30.map fun day => ⟨day, (sentOn.get? day).getD 0⟩ }

/-! ## What the counts should say -/

/-- The text of a UTC day, counted from the epoch. -/
def IsUtcDay (n : Int) (text : JsString) : Prop :=
  ∃ y m d : Nat, IsDate y m d ∧ dayNumber y m d = n ∧
    text = padded 4 y ++ 0x2D :: (padded 2 m ++ 0x2D :: padded 2 d)

/-- A series of the thirty UTC days that end with that of `nowMs`, which
adds up to the totals. -/
structure SeriesAgrees (nowMs : ℚ) (network : FaucetNetwork) (rows : List DripDayRow) (c : DripCounts) : Prop where
  length : c.byDay.length = 30
  distinct : (c.byDay.map DripDay.day).Nodup
  days : ∀ (k : Nat) (entry : DripDay), c.byDay[k]? = some entry → IsUtcDay (Db.utcDay nowMs - 29 + k) entry.day
  sum30 : (c.byDay.map DripDay.sent).sum = c.last30d
  sum7 : ((c.byDay.drop 23).map DripDay.sent).sum = c.last7d
  last7_le : c.last7d ≤ c.last30d
  last30_le : c.last30d ≤ c.allTime
  since : c.countingSince = none ↔ ∀ r ∈ rows, r.network ≠ network

/-- The window lies in the years of four digits, and its instants are whole
milliseconds or after the epoch. -/
structure PlainWindow (nowMs : ℚ) : Prop where
  first : -62167219200000 ≤ nowMs - 29 * 86400000
  last : nowMs < 253402300800000
  whole : (∃ ms : Int, nowMs = ms) ∨ 29 * 86400000 ≤ nowMs

end ZcashFaucet.Db.DripSeries
