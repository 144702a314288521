/-
ZcashFaucet.Lib.CivilTime — the calendar, second by second.

A date is followed by the next day of its month, the first of the next
month or the next New Year's Day, and a clock that shows the date ticks
from second to second. `utcTime n` is what such a clock shows `n` seconds
after 1970 began: UTC without leap seconds, by the calendar's own rules
and no formula for days. The count of days agrees with it
(`seconds_utcTime`), and since no two times have one count, a time with
the count `n` is the time `n` (`eq_utcTime`).
-/
import Mathlib.Logic.Function.Iterate
import ZcashFaucet.Lib.IsoDate
import ZcashFaucet.Lib.JsDate

namespace ZcashFaucet.Lib

/-! ## Dates -/

@[ext] structure CivilDate where
  year : Int
  month : Nat
  day : Nat
  isDate : IsDate year month day

namespace CivilDate

def number (t : CivilDate) : Int := dayNumber t.year t.month t.day

theorem isDate_first (y : Int) {m : Nat} (hpos : 1 ≤ m) (hle : m ≤ 12) : IsDate y m 1 := by
  refine ⟨hpos, hle, le_rfl, ?_⟩
  unfold daysInMonth
  split
  · split <;> omega
  all_goals omega

/-- The next day. -/
def next (t : CivilDate) : CivilDate :=
  if h : t.day < daysInMonth t.year t.month then
    { t with
      day := t.day + 1
      isDate := ⟨t.isDate.month_pos, t.isDate.month_le, Nat.succ_pos _, h⟩ }
  else if h : t.month < 12 then ⟨t.year, t.month + 1, 1, isDate_first _ (Nat.succ_pos _) h⟩
  else ⟨t.year + 1, 1, 1, isDate_first _ le_rfl (by decide)⟩

/-- The next day is one day later. -/
theorem number_next (t : CivilDate) : t.next.number = t.number + 1 := by
  obtain ⟨y, m, d, hdate⟩ := t
  obtain ⟨hpos, hle, -, hday⟩ := hdate
  simp only [next]
  split
  · simp only [number, dayNumber]
    omega
  · rename_i hlast
    split
    · rename_i hmonth
      have hnext := @daysBeforeMonth_succ y m hpos (by omega)
      simp only [number, dayNumber, hnext]
      omega
    · obtain rfl : m = 12 := by omega
      have hyear := dayFromYear_succ y
      simp only [number, dayNumber, daysBeforeMonth, daysInMonth] at hlast hday ⊢
      split at hyear
      · rename_i hleap
        rw [if_pos hleap]
        omega
      · rename_i hleap
        rw [if_neg hleap]
        omega

/-- A later date has a later number. -/
theorem number_lt {t t' : CivilDate}
    (h : t.year < t'.year ∨ t.year = t'.year ∧ (t.month < t'.month ∨ t.month = t'.month ∧ t.day < t'.day)) :
    t.number < t'.number := by
  obtain ⟨y, m, d, hdate⟩ := t
  obtain ⟨y', m', d', hdate'⟩ := t'
  rcases h with hyear | ⟨rfl, hmonth | ⟨rfl, hday⟩⟩
  · calc dayNumber y m d < dayFromYear (y + 1) := dayNumber_lt hdate
      _ ≤ dayFromYear y' := dayFromYear_mono hyear
      _ ≤ dayNumber y' m' d' := le_dayNumber hdate'
  · have hbefore : daysBeforeMonth y m + d ≤ daysBeforeMonth y m' :=
      daysBeforeMonth_add_le hdate hmonth hdate'.month_le
    have hpos := hdate'.day_pos
    simp only [number, dayNumber]
    omega
  · simp only [number, dayNumber] at hday ⊢
    omega

/-- A date is the only one with its number. -/
theorem number_injective {t t' : CivilDate} (h : t.number = t'.number) : t = t' := by
  have hbefore := mt number_lt (not_lt.mpr h.ge)
  have hafter := mt number_lt (not_lt.mpr h.le)
  have hyear : t.year = t'.year := by omega
  have hmonth : t.month = t'.month := by omega
  exact CivilDate.ext hyear hmonth (by omega)

end CivilDate

/-! ## Times -/

@[ext] structure CivilTime where
  date : CivilDate
  hour : Fin 24
  minute : Fin 60
  second : Fin 60

namespace CivilTime

/-- The next second. -/
def tick (t : CivilTime) : CivilTime :=
  if h : t.second.val + 1 < 60 then { t with second := ⟨t.second.val + 1, h⟩ }
  else if h : t.minute.val + 1 < 60 then { t with minute := ⟨t.minute.val + 1, h⟩, second := 0 }
  else if h : t.hour.val + 1 < 24 then { t with hour := ⟨t.hour.val + 1, h⟩, minute := 0, second := 0 }
  else ⟨t.date.next, 0, 0, 0⟩

/-- The seconds since 1970 began. -/
def seconds (t : CivilTime) : Int := 86400 * t.date.number + 3600 * t.hour.val + 60 * t.minute.val + t.second.val

/-- The time in the format of a stamp. -/
def text (t : CivilTime) : JsString :=
  dateText t.date.year.toNat t.date.month t.date.day t.hour t.minute t.second

theorem seconds_tick (t : CivilTime) : t.tick.seconds = t.seconds + 1 := by
  obtain ⟨date, ⟨hour, hhour⟩, ⟨minute, hminute⟩, ⟨second, hsecond⟩⟩ := t
  simp only [tick]
  split
  · simp only [seconds]
    omega
  · split
    · simp only [seconds, Fin.val_zero]
      omega
    · split
      · simp only [seconds, Fin.val_zero]
        omega
      · have hnext := date.number_next
        simp only [seconds, hnext, Fin.val_zero]
        omega

/-- A time is the only one with its count. -/
theorem seconds_injective {t t' : CivilTime} (h : t.seconds = t'.seconds) : t = t' := by
  have hhour := t.hour.isLt
  have hhour' := t'.hour.isLt
  have hminute := t.minute.isLt
  have hminute' := t'.minute.isLt
  have hsecond := t.second.isLt
  have hsecond' := t'.second.isLt
  unfold seconds at h
  refine CivilTime.ext (CivilDate.number_injective ?_) (Fin.ext ?_) (Fin.ext ?_) (Fin.ext ?_) <;> omega

end CivilTime

def newYear1970 : CivilTime := ⟨⟨1970, 1, 1, by decide⟩, 0, 0, 0⟩

/-- What the clock shows. -/
def utcTime (n : Nat) : CivilTime := CivilTime.tick^[n] newYear1970

theorem seconds_utcTime (n : Nat) : (utcTime n).seconds = n := by
  induction n with
  | zero => decide
  | succ n ih =>
    rw [utcTime, Function.iterate_succ_apply', CivilTime.seconds_tick, ← utcTime, ih]
    push_cast
    rfl

/-- **Whatever time has the count of the clock is what it shows.** -/
theorem eq_utcTime {t : CivilTime} {n : Nat} (h : t.seconds = n) : t = utcTime n :=
  CivilTime.seconds_injective (h.trans (seconds_utcTime n).symm)

end ZcashFaucet.Lib
