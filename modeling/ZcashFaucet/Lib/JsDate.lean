/-
ZcashFaucet.Lib.JsDate — `Date.parse` on a time in UTC.

Of the standard's date-time format this is the full one with a `Z` and no
milliseconds, `YYYY-MM-DDTHH:mm:ssZ`. What an engine makes of a text that
is not in a format of the standard is its own affair; here that is NaN,
`none`. The value is in milliseconds.
-/
import ZcashFaucet.Lib.Calendar
import ZcashFaucet.Lib.Decimal

namespace ZcashFaucet.Lib

/-- A field of fixed width and the character that must follow it. -/
def takeField (width : Nat) (c : UInt16) (s : JsString) : Option (Nat × JsString) :=
  match takeDecimal width s with
  | some (n, d :: rest) => if d = c then some (n, rest) else none
  | _ => none

/-- `24:00:00` is the midnight that ends a day. -/
def IsTime (hour minute second : Nat) : Prop :=
  minute < 60 ∧ second < 60 ∧ (hour < 24 ∨ hour = 24 ∧ minute = 0 ∧ second = 0)

instance (hour minute second : Nat) : Decidable (IsTime hour minute second) :=
  inferInstanceAs (Decidable (_ ∧ _ ∧ _))

def timeValue (y : Int) (m d hour minute second : Nat) : Int :=
  1000 * (86400 * dayNumber y m d + 3600 * (hour : Int) + 60 * (minute : Int) + (second : Int))

def dateParse (s : JsString) : Option Int := do
  let (y, s) ← takeField 4 0x2D s
  let (m, s) ← takeField 2 0x2D s
  let (d, s) ← takeField 2 0x54 s
  let (hour, s) ← takeField 2 0x3A s
  let (minute, s) ← takeField 2 0x3A s
  let (second, s) ← takeField 2 0x5A s
  if s = [] ∧ IsDate y m d ∧ IsTime hour minute second then
    some (timeValue y m d hour minute second)
  else none

theorem takeField_padded {width n : Nat} (hwidth : 0 < width) (h : n < 10 ^ width) (c : UInt16)
    (rest : JsString) : takeField width c (padded width n ++ c :: rest) = some (n, rest) := by
  rw [takeField, takeDecimal_padded hwidth h]
  exact if_pos rfl

/-- The text of the format with the given fields. -/
def dateText (y m d hour minute second : Nat) : JsString :=
  padded 4 y ++ 0x2D :: (padded 2 m ++ 0x2D :: (padded 2 d ++ 0x54 ::
    (padded 2 hour ++ 0x3A :: (padded 2 minute ++ 0x3A :: (padded 2 second ++ [0x5A])))))

/-- What is written in the format is read from it. -/
theorem dateParse_dateText {y m d hour minute second : Nat} (hy : y < 10000) (hdate : IsDate y m d)
    (htime : IsTime hour minute second) :
    dateParse (dateText y m d hour minute second) = some (timeValue y m d hour minute second) := by
  have hm := hdate.month_le
  have hd : d ≤ 31 := by
    have := hdate.day_le
    unfold daysInMonth at this
    split at this <;> first | omega | (split at this <;> omega)
  obtain ⟨hminute, hsecond, hhour⟩ := htime
  have htime : IsTime hour minute second := ⟨hminute, hsecond, hhour⟩
  have htwo : ∀ v < 100, ∀ c rest, takeField 2 c (padded 2 v ++ c :: rest) = some (v, rest) :=
    fun v hv c rest => takeField_padded (by omega) hv c rest
  unfold dateParse dateText
  rw [takeField_padded (by omega) hy]
  simp only [Option.bind_eq_bind, Option.bind_some, htwo m (by omega), htwo d (by omega),
    htwo hour (by omega), htwo minute (by omega), htwo second (by omega)]
  exact if_pos ⟨trivial, hdate, htime⟩

/-- A year of five digits is not in the format. -/
theorem dateParse_dateText_of_long_year {y : Nat} (m d hour minute second : Nat) (hy : 10000 ≤ y) :
    dateParse (dateText y m d hour minute second) = none := by
  have hfield : ∀ tail, takeField 4 0x2D (padded 4 y ++ tail) = none := by
    intro tail
    have hlong : 4 < (padded 4 y).length := lt_padded_length (by omega) hy
    cases hrest : (padded 4 y).drop 4 with
    | nil =>
      have := List.drop_eq_nil_iff.mp hrest
      omega
    | cons c rest =>
      have hc : isDecimalUnit c = true :=
        List.all_eq_true.mp (all_isDecimalUnit_padded 4 y) c
          (List.mem_of_mem_drop (hrest ▸ List.mem_cons_self))
      have hne : c ≠ 0x2D := by
        rintro rfl
        cases hc
      have hdrop : (padded 4 y ++ tail).drop 4 = c :: (rest ++ tail) := by
        rw [List.drop_append_of_le_length (by omega), hrest]
        rfl
      unfold takeField takeDecimal
      dsimp only
      rw [hdrop]
      split
      · rename_i heq
        split at heq
        · obtain ⟨-, hcons⟩ := Prod.mk.inj (Option.some.inj heq)
          obtain ⟨rfl, -⟩ := List.cons.inj hcons
          exact if_neg hne
        · cases heq
      · rfl
  unfold dateParse dateText
  rw [hfield]
  rfl

end ZcashFaucet.Lib
