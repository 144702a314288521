/-
ZcashFaucet.Miner.Rfc3339 — the miner's own calendar, `rfc3339` and
`civil_from_days` of `heartbeat.rs`.

`civilFromDays` cuts the days into eras of 400 years, the era into years
that begin in March, and the year into months of 30.6 days. What carries
`civilFromDays_spec` is the same cut made step by step (`exists_parts`):
centuries of 36524 days, four years of 1461, years of 365, with the last
day of each left over. The one division for the year of an era agrees
with it (`yearOfEra_eq`).
-/
import ZcashFaucet.Lib.JsDate
import Mathlib.Tactic.IntervalCases
import Mathlib.Tactic.Ring

namespace ZcashFaucet.Miner

open Lib

def civilFromDays (z : Int) : Int × Nat × Nat :=
  let z := z + 719468
  -- division of the source rounds towards zero
  let era := (if z ≥ 0 then z else z - 146096).tdiv 146097
  let doe := (z - era * 146097).toNat
  let yoe := (doe - doe / 1460 + doe / 36524 - doe / 146096) / 365
  let y := (yoe : Int) + era * 400
  let doy := doe - (365 * yoe + yoe / 4 - yoe / 100)
  let mp := (5 * doy + 2) / 153
  let d := doy - (153 * mp + 2) / 5 + 1
  let m := if mp < 10 then mp + 3 else mp - 9
  (if m ≤ 2 then y + 1 else y, m, d)

/-- The year of an epoch is never negative, so its text has no sign. -/
def rfc3339 (epoch : Nat) : JsString :=
  let days := epoch / 86400
  let secsOfDay := epoch % 86400
  let (y, m, d) := civilFromDays days
  dateText y.toNat m d (secsOfDay / 3600) (secsOfDay % 3600 / 60) (secsOfDay % 60)

example : rfc3339 1709164800 = js "2024-02-29T00:00:00Z" := by decide +kernel

/-! ## The cut of an era -/

/-- A day of an era, by its century, its four years, its year and its day.
The leap day is the last day of the last year, where there is one. -/
theorem exists_parts {doe : Nat} (h : doe < 146097) :
    ∃ c q t r, c ≤ 3 ∧ q ≤ 24 ∧ t ≤ 3 ∧ doe = 36524 * c + 1461 * q + 365 * t + r ∧
      (r ≤ 364 ∨ r = 365 ∧ t = 3 ∧ (q ≤ 23 ∨ c = 3)) := by
  refine ⟨min (doe / 36524) 3, (doe - 36524 * min (doe / 36524) 3) / 1461,
    min ((doe - 36524 * min (doe / 36524) 3) % 1461 / 365) 3,
    (doe - 36524 * min (doe / 36524) 3) % 1461 -
      365 * min ((doe - 36524 * min (doe / 36524) 3) % 1461 / 365) 3, ?_, ?_, ?_, ?_, ?_⟩ <;> omega

section Parts

variable {doe c q t r : Nat}

theorem yearOfEra_eq (hc : c ≤ 3) (hq : q ≤ 24) (ht : t ≤ 3)
    (hdoe : doe = 36524 * c + 1461 * q + 365 * t + r)
    (hr : r ≤ 364 ∨ r = 365 ∧ t = 3 ∧ (q ≤ 23 ∨ c = 3)) :
    (doe - doe / 1460 + doe / 36524 - doe / 146096) / 365 = 100 * c + 4 * q + t := by
  have hdiv : ∀ {k m : Nat}, k * m ≤ doe → doe < k * (m + 1) → doe / k = m := fun hlo hhi =>
    Nat.div_eq_of_lt_le (by rw [Nat.mul_comm]; exact hlo) (by rw [Nat.mul_comm]; exact hhi)
  have hcentury : doe / 36524 = c ∧ doe / 146096 = 0 ∨
      doe / 36524 = c + 1 ∧ doe / 146096 = 1 ∧ r = 365 ∧ t = 3 := by
    by_cases hlast : doe < 146096
    · exact Or.inl ⟨hdiv (by omega) (by omega), hdiv (by omega) (by omega)⟩
    · exact Or.inr ⟨hdiv (by omega) (by omega), hdiv (by omega) (by omega), by omega, by omega⟩
  have hleap : doe / 1460 = 25 * c + q ∨ doe / 1460 = 25 * c + q + 1 ∧ 1 ≤ r ∧ t = 3 := by omega
  omega

theorem dayOfYear_eq (hq : q ≤ 24) (ht : t ≤ 3) (hdoe : doe = 36524 * c + 1461 * q + 365 * t + r) :
    doe - (365 * (100 * c + 4 * q + t) + (100 * c + 4 * q + t) / 4 - (100 * c + 4 * q + t) / 100) = r := by
  omega

/-- The first day of the March year the parts name. -/
theorem marchFirst_parts (era : Int) (hc : c ≤ 3) (hq : q ≤ 24) (ht : t ≤ 3) :
    marchFirst (((100 * c + 4 * q + t : Nat) : Int) + era * 400) =
      era * 146097 + 36524 * c + 1461 * q + 365 * t - 719468 := by
  have h4 : (((100 * c + 4 * q + t : Nat) : Int) + era * 400) / 4 = 100 * era + 25 * c + q := by omega
  have h100 : (((100 * c + 4 * q + t : Nat) : Int) + era * 400) / 100 = 4 * era + c := by omega
  have h400 : (((100 * c + 4 * q + t : Nat) : Int) + era * 400) / 400 = era := by omega
  unfold marchFirst
  omega

/-- A March year with a leap day is followed by a January of a leap year. -/
theorem isLeapYear_parts (era : Int) (hq : q ≤ 24) (hr : t = 3 ∧ (q ≤ 23 ∨ c = 3)) :
    isLeapYear (((100 * c + 4 * q + t : Nat) : Int) + era * 400 + 1) = true := by
  rw [isLeapYear_iff]
  omega

end Parts

/-! ## The cut of a March year -/

section MarchYear

variable {y : Int} {r k : Nat}

/-- The first ten months are in the year the March year is named for. -/
theorem march_date_early (hk : (5 * r + 2) / 153 = k) (hlt : k < 10) :
    IsDate y (k + 3) (r - (153 * k + 2) / 5 + 1) ∧
      dayNumber y (k + 3) (r - (153 * k + 2) / 5 + 1) = marchFirst y + r := by
  have hmarch := dayFromYear_add_march y
  refine ⟨⟨by omega, by omega, by omega, ?_⟩, ?_⟩
  · interval_cases k <;> simp only [daysInMonth] <;> omega
  · by_cases hleap : isLeapYear y = true
    · interval_cases k <;> simp only [hleap, if_true, dayNumber, daysBeforeMonth] at hmarch ⊢ <;> omega
    · simp only [hleap, if_false, Bool.false_eq_true] at hmarch
      interval_cases k <;> simp only [hleap, if_false, Bool.false_eq_true, dayNumber, daysBeforeMonth] <;> omega

/-- The last two are in the next. -/
theorem march_date_late (hr : r ≤ 364 ∨ r = 365 ∧ isLeapYear (y + 1) = true)
    (hk : (5 * r + 2) / 153 = k) (hge : ¬ k < 10) :
    IsDate (y + 1) (k - 9) (r - (153 * k + 2) / 5 + 1) ∧
      dayNumber (y + 1) (k - 9) (r - (153 * k + 2) / 5 + 1) = marchFirst y + r := by
  have hjanuary := marchFirst_add y
  have hle : k ≤ 11 := by omega
  have hge : 10 ≤ k := by omega
  refine ⟨⟨by omega, by omega, by omega, ?_⟩, ?_⟩
  · interval_cases k
    · simp only [daysInMonth]
      omega
    · simp only [daysInMonth]
      rcases hr with hr | ⟨hr, hleap⟩
      · split <;> omega
      · rw [if_pos hleap]
        omega
  · interval_cases k <;> simp only [dayNumber, daysBeforeMonth] <;> omega

end MarchYear

/-! ## The calendar -/

/-- The era of a day of the epoch, and the day of the era. -/
theorem era_spec (n : Nat) :
    ∃ (era : Int) (doe : Nat),
      (if (n : Int) + 719468 ≥ 0 then (n : Int) + 719468 else (n : Int) + 719468 - 146096).tdiv 146097 = era ∧
        ((n : Int) + 719468 - era * 146097).toNat = doe ∧ doe < 146097 ∧
          era * 146097 + doe - 719468 = (n : Int) := by
  have hpos : (n : Int) + 719468 ≥ 0 := by omega
  refine ⟨((n : Int) + 719468) / 146097, _, ?_, rfl, ?_, ?_⟩
  · rw [if_pos hpos, Int.tdiv_eq_ediv_of_nonneg hpos]
  · clear hpos
    omega
  · clear hpos
    omega

/-- The days of the epoch are the dates of the calendar. -/
theorem civilFromDays_spec (n : Nat) :
    ∃ y m d, civilFromDays n = (y, m, d) ∧ IsDate y m d ∧ dayNumber y m d = n := by
  obtain ⟨era, doe, hera, hd, hlt, hn⟩ := era_spec n
  obtain ⟨c, q, t, r, hc, hq, ht, hdoe, hr⟩ := exists_parts hlt
  have hstart : marchFirst (((100 * c + 4 * q + t : Nat) : Int) + era * 400) + r = n := by
    rw [marchFirst_parts era hc hq ht, ← hn, hdoe]
    push_cast
    ring
  have hleap : r ≤ 364 ∨ r = 365 ∧
      isLeapYear (((100 * c + 4 * q + t : Nat) : Int) + era * 400 + 1) = true := by
    rcases hr with hr | ⟨hr, hlast⟩
    · exact Or.inl hr
    · exact Or.inr ⟨hr, isLeapYear_parts era hq hlast⟩
  simp only [civilFromDays, hera, hd, yearOfEra_eq hc hq ht hdoe hr, dayOfYear_eq hq ht hdoe]
  by_cases hk : (5 * r + 2) / 153 < 10
  · obtain ⟨hdate, hday⟩ := march_date_early rfl hk
    have hm : ¬ (5 * r + 2) / 153 + 3 ≤ 2 := Nat.not_le.mpr (Nat.lt_add_left _ (by decide))
    refine ⟨_, _, _, rfl, ?_, ?_⟩
    · rw [if_pos hk, if_neg hm]
      exact hdate
    · rw [if_pos hk, if_neg hm, hday, hstart]
  · obtain ⟨hdate, hday⟩ := march_date_late hleap rfl hk
    have hm : (5 * r + 2) / 153 - 9 ≤ 2 := by
      clear hdate hday hleap hstart
      omega
    refine ⟨_, _, _, rfl, ?_, ?_⟩
    · rw [if_neg hk, if_pos hm]
      exact hdate
    · rw [if_neg hk, if_pos hm, hday, hstart]

/-- The first second of the year 10000. -/
def longYears : Nat := 253402300800

theorem year_ge_1970 {y : Int} {m d : Nat} (hdate : IsDate y m d) (hday : 0 ≤ dayNumber y m d) : 1970 ≤ y := by
  have hlt := dayNumber_lt hdate
  by_contra hearly
  have hmono := dayFromYear_mono (show y + 1 ≤ 1970 by omega)
  have hstart : dayFromYear 1970 = 0 := by decide
  omega

/-- The parts of an epoch that `rfc3339` writes down. -/
theorem rfc3339_eq (n : Nat) :
    ∃ y m d : Nat, rfc3339 n = dateText y m d (n % 86400 / 3600) (n % 86400 % 3600 / 60) (n % 86400 % 60) ∧
      IsDate y m d ∧ dayNumber y m d = (n / 86400 : Nat) ∧ (y < 10000 ↔ n < longYears) := by
  obtain ⟨y, m, d, hcivil, hdate, hday⟩ := civilFromDays_spec (n / 86400)
  have hlo := le_dayNumber hdate
  have hhi := dayNumber_lt hdate
  rw [hday] at hlo hhi
  have hpos : 1970 ≤ y := year_ge_1970 hdate (hday ▸ Int.natCast_nonneg _)
  have hyear : ((y.toNat : Nat) : Int) = y := Int.toNat_of_nonneg (by omega)
  refine ⟨y.toNat, m, d, ?_, hyear.symm ▸ hdate, hyear.symm ▸ hday, ?_⟩
  · simp only [rfc3339, hcivil]
  · constructor
    · intro hlt
      have := dayFromYear_mono (show y + 1 ≤ 10000 by omega)
      simp only [dayFromYear, longYears] at this hhi ⊢
      omega
    · intro hlt
      by_contra hge
      have := dayFromYear_mono (show 10000 ≤ y by omega)
      simp only [dayFromYear, longYears] at this hlo hlt
      omega

/-- **Reader and writer agree** on every stamp before the year 10000. -/
theorem dateParse_rfc3339 {n : Nat} (h : n < longYears) : dateParse (rfc3339 n) = some (1000 * (n : Int)) := by
  obtain ⟨y, m, d, htext, hdate, hday, hyear⟩ := rfc3339_eq n
  rw [htext, dateParse_dateText (hyear.mpr h) hdate ⟨by omega, by omega, by omega⟩, timeValue, hday]
  congr 1
  omega

/-- Later stamps are in no format the reader knows. -/
theorem dateParse_rfc3339_eq_none {n : Nat} (h : longYears ≤ n) : dateParse (rfc3339 n) = none := by
  obtain ⟨y, m, d, htext, -, -, hyear⟩ := rfc3339_eq n
  rw [htext]
  refine dateParse_dateText_of_long_year m d _ _ _ ?_
  by_contra hlt
  have := hyear.mp (by omega)
  omega

end ZcashFaucet.Miner
