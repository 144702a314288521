/-
ZcashFaucet.Miner.HeartbeatAge — the age of a heartbeat, from the miner's
clock to the faucet's.

The miner writes a stamp with a calendar of its own (`rfc3339`), the
faucet reads it with `Date.parse` and takes the difference to its own
clock (`ageSeconds`). What the miner writes is what a clock shows that
goes by the rules of the calendar and nothing else (`utcTime`), and what
the faucet reads is the second it was written for.
-/
import ZcashFaucet.Lib.CivilTime
import ZcashFaucet.Miner.Reading
import ZcashFaucet.Miner.Rfc3339

namespace ZcashFaucet.Miner

open Lib

/-! ## The stamp is the time -/

/-- The parts of a stamp are those of the clock. -/
theorem rfc3339_utcTime (n : Nat) :
    rfc3339 n = (utcTime n).text ∧ 1970 ≤ (utcTime n).date.year ∧
      ((utcTime n).date.year < 10000 ↔ n < longYears) := by
  obtain ⟨y, m, d, htext, hdate, hday, hyear⟩ := rfc3339_eq n
  have hshown : (⟨⟨y, m, d, hdate⟩, ⟨n % 86400 / 3600, by omega⟩, ⟨n % 86400 % 3600 / 60, by omega⟩,
      ⟨n % 86400 % 60, by omega⟩⟩ : CivilTime) = utcTime n := by
    refine eq_utcTime ?_
    simp only [CivilTime.seconds, CivilDate.number, hday]
    omega
  have hcast : (y : Int) < 10000 ↔ y < 10000 := by omega
  rw [← hshown]
  exact ⟨htext, year_ge_1970 hdate (hday ▸ Int.natCast_nonneg _), hcast.trans hyear⟩

theorem dateText_length {y m d hour minute second : Nat} (hy : y < 10000) (hdate : IsDate y m d) (hhour : hour < 24)
    (hminute : minute < 60) (hsecond : second < 60) : (dateText y m d hour minute second).length = 20 := by
  have hm := hdate.month_le
  have htwo : ∀ v < 100, (padded 2 v).length = 2 := fun v hv => padded_length (by omega) (by omega)
  simp only [dateText, List.length_append, List.length_cons, List.length_nil,
    padded_length (show 0 < 4 by decide) (show y < 10 ^ 4 from hy), htwo m (by omega), htwo d hdate.day_lt,
    htwo hour (by omega), htwo minute (by omega), htwo second (by omega)]

/-! ## The age -/

/-- The age of a stamp is exact, and one ahead of the clock has none. -/
theorem ageSeconds_rfc3339 {n : Nat} (h : n < longYears) (nowMs : ℚ) :
    ageSeconds dateParse (some (.str (rfc3339 n))) nowMs =
      if nowMs < 1000 * n then none else some (nowMs / 1000 - n) := by
  have hage : (nowMs - 1000 * (n : ℚ)) / 1000 = nowMs / 1000 - n := by ring
  rw [ageSeconds_of_date (dateParse_rfc3339 h)]
  push_cast
  rw [hage]

/-- **Writer and reader agree on the age of every stamp** before the year
10000. The stamp is the date and the time of its second, with a year of
four digits; it is read back as that second; and the age it is given is
the time since, or none where the second is still to come. -/
theorem rfc3339_calendar {n : Nat} (h : n < longYears) :
    rfc3339 n = (utcTime n).text ∧ (1970 ≤ (utcTime n).date.year ∧ (utcTime n).date.year ≤ 9999) ∧
      (rfc3339 n).length = 20 ∧ dateParse (rfc3339 n) = some (1000 * (n : Int)) ∧
        ∀ nowMs : ℚ, ageSeconds dateParse (some (.str (rfc3339 n))) nowMs =
          if nowMs < 1000 * n then none else some (nowMs / 1000 - n) := by
  obtain ⟨htext, hfirst, hlast⟩ := rfc3339_utcTime n
  have hyear := hlast.mpr h
  have hlength : (rfc3339 n).length = 20 := by
    have hdate := (utcTime n).date.isDate
    rw [← Int.toNat_of_nonneg (show 0 ≤ (utcTime n).date.year by omega)] at hdate
    rw [htext]
    exact dateText_length (by omega) hdate (Fin.isLt _) (Fin.isLt _) (Fin.isLt _)
  exact ⟨htext, ⟨hfirst, by omega⟩, hlength, dateParse_rfc3339 h, ageSeconds_rfc3339 h⟩

/-- The last second of a leap day, half a minute later. -/
theorem rfc3339_calendar_leap_day :
    rfc3339 1709251199 = js "2024-02-29T23:59:59Z" ∧ dateParse (rfc3339 1709251199) = some 1709251199000 ∧
      ageSeconds dateParse (some (.str (rfc3339 1709251199))) 1709251229000 = some 30 := by
  obtain ⟨-, -, -, hparse, hage⟩ := rfc3339_calendar (show 1709251199 < longYears by decide)
  refine ⟨by decide +kernel, hparse, ?_⟩
  rw [hage, if_neg (by norm_num)]
  norm_num

end ZcashFaucet.Miner
