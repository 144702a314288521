/-
ZcashFaucet.Lib.IsoDate — days as ISO 8601 texts, and the order of such
texts.

`dateOfDay` is the date of a day before or after 1970-01-01, found the way
the standard of JavaScript defines it: the year is the last that begins by
the day, the month the one the rest lies in (`dateOfDay_spec`).
`toISOString` writes the year with four digits where it has them and with
a sign and six where not. Texts compare unit by unit (`textLe`), and for
years of four digits that is the order of the days
(`textLe_isoDate_iff`).
-/
import Mathlib.Data.Rat.Floor
import ZcashFaucet.Lib.Calendar
import ZcashFaucet.Lib.Decimal

namespace ZcashFaucet.Lib

/-! ## The date of a day -/

/-- The year a day lies in. The mean year puts it within one. -/
def yearOfDay (n : Int) : Int :=
  let y := 1970 + 400 * n / 146097
  if n < dayFromYear y then y - 1 else if dayFromYear (y + 1) ≤ n then y + 1 else y

/-- A year begins within two days of where the mean year puts it. -/
theorem dayFromYear_bounds (y : Int) :
    146097 * (y - 1970) - 600 ≤ 400 * dayFromYear y ∧ 400 * dayFromYear y ≤ 146097 * (y - 1970) + 600 := by
  unfold dayFromYear
  omega

theorem yearOfDay_spec (n : Int) : dayFromYear (yearOfDay n) ≤ n ∧ n < dayFromYear (yearOfDay n + 1) := by
  have hmean : 146097 * (400 * n / 146097) ≤ 400 * n ∧ 400 * n < 146097 * (400 * n / 146097) + 146097 := by omega
  unfold yearOfDay
  dsimp only
  generalize hy : 1970 + 400 * n / 146097 = y
  split
  · rename_i hbefore
    have hbounds := dayFromYear_bounds (y - 1)
    rw [Int.sub_add_cancel]
    omega
  · split
    · rename_i hafter
      have hbounds := dayFromYear_bounds (y + 1 + 1)
      omega
    · omega

/-- The last of the first months of the year that begins by the day. -/
def lastMonth (y : Int) (day : Nat) : Nat → Nat
  | 0 => 1
  | k + 1 => if daysBeforeMonth y (k + 2) ≤ day then k + 2 else lastMonth y day k

/-- The month of a day of the year. -/
def monthOfDay (y : Int) (day : Nat) : Nat := lastMonth y day 11

def dateOfDay (n : Int) : Int × Nat × Nat :=
  let y := yearOfDay n
  let day := (n - dayFromYear y).toNat
  let m := monthOfDay y day
  (y, m, day - daysBeforeMonth y m + 1)

/-- A month ends where the next begins. -/
theorem daysBeforeMonth_succ {y : Int} {m : Nat} (hpos : 1 ≤ m) (hle : m ≤ 11) :
    daysBeforeMonth y (m + 1) = daysBeforeMonth y m + daysInMonth y m := by
  interval_cases m <;> cases hleap : isLeapYear y <;> simp [daysBeforeMonth, daysInMonth, hleap]

theorem lastMonth_spec (y : Int) (day k : Nat) :
    1 ≤ lastMonth y day k ∧ lastMonth y day k ≤ k + 1 ∧ daysBeforeMonth y (lastMonth y day k) ≤ day ∧
      (lastMonth y day k ≤ k → day < daysBeforeMonth y (lastMonth y day k + 1)) := by
  induction k with
  | zero => simp [lastMonth, daysBeforeMonth]
  | succ k ih =>
    rw [lastMonth]
    split
    · rename_i hbegun
      exact ⟨by omega, by omega, hbegun, by omega⟩
    · rename_i hlater
      obtain ⟨hpos, hle, hbefore, hnext⟩ := ih
      refine ⟨hpos, by omega, hbefore, fun _ => ?_⟩
      by_cases hk : lastMonth y day k ≤ k
      · exact hnext hk
      · rw [show lastMonth y day k = k + 1 by omega]
        exact not_le.mp hlater

theorem isDate_monthOfDay {y : Int} {day : Nat} (h : day < 365 + if isLeapYear y then 1 else 0) :
    daysBeforeMonth y (monthOfDay y day) ≤ day ∧
      IsDate y (monthOfDay y day) (day - daysBeforeMonth y (monthOfDay y day) + 1) := by
  obtain ⟨hpos, hle, hbefore, hnext⟩ := lastMonth_spec y day 11
  refine ⟨hbefore, hpos, hle, by omega, ?_⟩
  show day - daysBeforeMonth y (lastMonth y day 11) + 1 ≤ daysInMonth y (lastMonth y day 11)
  by_cases hlast : lastMonth y day 11 ≤ 11
  · have := hnext hlast
    rw [daysBeforeMonth_succ hpos hlast] at this
    omega
  · rw [show lastMonth y day 11 = 12 by omega] at hbefore ⊢
    simp only [daysBeforeMonth, daysInMonth] at hbefore ⊢
    omega

/-- Every day has its date. -/
theorem dateOfDay_spec (n : Int) :
    IsDate (dateOfDay n).1 (dateOfDay n).2.1 (dateOfDay n).2.2 ∧
      dayNumber (dateOfDay n).1 (dateOfDay n).2.1 (dateOfDay n).2.2 = n := by
  obtain ⟨hlo, hhi⟩ := yearOfDay_spec n
  rw [dayFromYear_succ] at hhi
  have hday : (n - dayFromYear (yearOfDay n)).toNat < 365 + if isLeapYear (yearOfDay n) then 1 else 0 := by
    split at hhi <;> rename_i hleap <;> simp only [hleap, if_true] <;> omega
  obtain ⟨hle, hdate⟩ := isDate_monthOfDay hday
  refine ⟨hdate, ?_⟩
  simp only [dateOfDay, dayNumber]
  omega

/-- The days before a date's month grow with the month. -/
theorem daysBeforeMonth_add_le {y : Int} {m m' d : Nat} (h : IsDate y m d) (hlt : m < m') (hle : m' ≤ 12) :
    daysBeforeMonth y m + d ≤ daysBeforeMonth y m' := by
  obtain ⟨hpos, -, -, hd⟩ := h
  induction m', hlt using Nat.le_induction with
  | base =>
    rw [daysBeforeMonth_succ hpos (by omega)]
    omega
  | succ m' hm ih =>
    rw [daysBeforeMonth_succ (by omega) (by omega)]
    have := ih (by omega)
    omega

/-- Later days have later dates. -/
theorem date_lt_of_dayNumber_lt {y y' : Int} {m m' d d' : Nat} (h : IsDate y m d) (h' : IsDate y' m' d')
    (hlt : dayNumber y m d < dayNumber y' m' d') :
    y < y' ∨ y = y' ∧ (m < m' ∨ m = m' ∧ d < d') := by
  rcases lt_trichotomy y y' with hy | rfl | hy
  · exact Or.inl hy
  · refine Or.inr ⟨rfl, ?_⟩
    unfold dayNumber at hlt
    rcases lt_trichotomy m m' with hm | rfl | hm
    · exact Or.inl hm
    · exact Or.inr ⟨rfl, by omega⟩
    · have := daysBeforeMonth_add_le h' hm h.month_le
      have := h.day_pos
      omega
  · have := dayNumber_lt h'
    have := le_dayNumber h
    have := dayFromYear_mono (show y' + 1 ≤ y by omega)
    omega

/-! ## The order of texts -/

/-- Unit by unit, a text before every longer one it begins. -/
def textLe : JsString → JsString → Bool
  | [], _ => true
  | _ :: _, [] => false
  | c :: s, d :: t => decide (c < d) || (c == d && textLe s t)

@[simp] theorem textLe_refl (s : JsString) : textLe s s = true := by
  induction s with
  | nil => rfl
  | cons c s ih => simp [textLe, ih]

theorem textLe_antisymm {s t : JsString} (hst : textLe s t = true) (hts : textLe t s = true) : s = t := by
  induction s generalizing t with
  | nil =>
    cases t with
    | nil => rfl
    | cons d t => simp [textLe] at hts
  | cons c s ih =>
    cases t with
    | nil => simp [textLe] at hst
    | cons d t =>
      simp only [textLe, Bool.or_eq_true, decide_eq_true_eq, Bool.and_eq_true, beq_iff_eq] at hst hts
      rcases hst with hcd | ⟨rfl, hst⟩
      · rcases hts with hdc | ⟨rfl, -⟩
        · exact absurd (UInt16.lt_trans hcd hdc) (UInt16.lt_irrefl c)
        · exact absurd hcd (UInt16.lt_irrefl d)
      · rcases hts with hcc | ⟨-, hts⟩
        · exact absurd hcc (UInt16.lt_irrefl c)
        · rw [ih hst hts]

def TextLt (s t : JsString) : Prop := textLe s t = true ∧ s ≠ t

/-- Fields of one width compare field by field. -/
theorem textLt_append {a b : JsString} (hlength : a.length = b.length) {s t : JsString}
    (h : TextLt a b ∨ a = b ∧ TextLt s t) : TextLt (a ++ s) (b ++ t) := by
  induction a generalizing b with
  | nil =>
    obtain rfl := List.length_eq_zero_iff.mp hlength.symm
    rcases h with ⟨-, hne⟩ | ⟨-, hlt⟩
    · exact absurd rfl hne
    · exact hlt
  | cons c a ih =>
    cases b with
    | nil => cases hlength
    | cons d b =>
      have htail : a.length = b.length := Nat.succ.inj hlength
      have hcases : c < d ∨ c = d ∧ (TextLt a b ∨ a = b ∧ TextLt s t) := by
        rcases h with ⟨hle, hne⟩ | ⟨heq, hlt⟩
        · simp only [textLe, Bool.or_eq_true, decide_eq_true_eq, Bool.and_eq_true, beq_iff_eq] at hle
          rcases hle with hcd | ⟨rfl, hle⟩
          · exact Or.inl hcd
          · exact Or.inr ⟨rfl, Or.inl ⟨hle, fun h => hne (h ▸ rfl)⟩⟩
        · obtain ⟨rfl, rfl⟩ := List.cons.inj heq
          exact Or.inr ⟨rfl, Or.inr ⟨rfl, hlt⟩⟩
      rcases hcases with hcd | ⟨rfl, hrest⟩
      · refine ⟨by simp [textLe, hcd], fun heq => ?_⟩
        obtain ⟨rfl, -⟩ := List.cons.inj heq
        exact absurd hcd (UInt16.lt_irrefl _)
      · obtain ⟨hle, hne⟩ := ih htail hrest
        exact ⟨by simpa [textLe] using hle, fun heq => hne (List.cons.inj heq).2⟩

/-- One more digit goes on the end. -/
theorem padded_succ {width : Nat} (hwidth : 0 < width) (n : Nat) :
    padded (width + 1) n = padded width (n / 10) ++ [decimalUnit (n % 10)] := by
  unfold padded
  rw [decimal_eq n]
  split
  · rename_i h
    have hzero : decimal (n / 10) = [0x30] := by rw [Nat.div_eq_of_lt h]; decide
    rw [hzero]
    obtain ⟨k, rfl⟩ := Nat.exists_eq_add_of_lt hwidth
    simp [List.replicate_succ']
  · simp [List.append_assoc]

theorem decimalUnit_lt {d d' : Nat} (hlt : d < d') (h : d' < 10) : TextLt [decimalUnit d] [decimalUnit d'] := by
  have hall : ∀ d' < 10, ∀ d < d', textLe [decimalUnit d] [decimalUnit d'] = true ∧
      [decimalUnit d] ≠ [decimalUnit d'] := by decide
  exact hall d' h d hlt

/-- Numbers of one width compare as their texts. -/
theorem padded_lt {width n n' : Nat} (hwidth : 0 < width) (hlt : n < n') (h : n' < 10 ^ width) :
    TextLt (padded width n) (padded width n') := by
  induction width, hwidth using Nat.le_induction generalizing n n' with
  | base =>
    have hdigit : ∀ d < 10, padded 1 d = [decimalUnit d] := by decide
    rw [hdigit n (by omega), hdigit n' (by omega)]
    exact decimalUnit_lt hlt (by omega)
  | succ width hwidth ih =>
    rw [padded_succ hwidth, padded_succ hwidth]
    have hdiv : n' / 10 < 10 ^ width := by
      rw [Nat.div_lt_iff_lt_mul (by omega)]
      rwa [← pow_succ]
    have hlength := (padded_length hwidth (show n / 10 < 10 ^ width by omega)).trans (padded_length hwidth hdiv).symm
    refine textLt_append hlength ?_
    by_cases heq : n / 10 = n' / 10
    · exact Or.inr ⟨by rw [heq], decimalUnit_lt (by omega) (by omega)⟩
    · exact Or.inl (ih (by omega) hdiv)

/-! ## ISO dates -/

/-- A year of the range that needs no sign. -/
def isPlainYear (y : Int) : Bool := decide (0 ≤ y ∧ y ≤ 9999)

def isoYear (y : Int) : JsString :=
  if isPlainYear y then padded 4 y.toNat else (if y < 0 then 0x2D else 0x2B) :: padded 6 y.natAbs

/-- `YYYY-MM-DD`, or `±YYYYYY-MM-DD`. -/
def isoText (y : Int) (m d : Nat) : JsString := isoYear y ++ 0x2D :: (padded 2 m ++ 0x2D :: padded 2 d)

def isoDate (n : Int) : JsString := isoText (dateOfDay n).1 (dateOfDay n).2.1 (dateOfDay n).2.2

/-- `Date.prototype.toISOString` at a time value. -/
def toISOString (t : Int) : JsString :=
  let time := (t % 86400000).toNat
  isoDate (t / 86400000) ++ 0x54 ::
    (padded 2 (time / 3600000) ++ 0x3A :: (padded 2 (time / 60000 % 60) ++ 0x3A ::
      (padded 2 (time / 1000 % 60) ++ 0x2E :: (padded 3 (time % 1000) ++ [0x5A]))))

example : toISOString 1709251199999 = js "2024-02-29T23:59:59.999Z" := by decide +kernel

/-- TimeClip: a time value in milliseconds, `none` for NaN. -/
def timeClip (ms : ℚ) : Option Int :=
  if -8640000000000000 ≤ ms ∧ ms ≤ 8640000000000000 then some (if 0 ≤ ms then ⌊ms⌋ else ⌈ms⌉) else none

theorem IsDate.day_lt {y : Int} {m d : Nat} (h : IsDate y m d) : d < 100 := by
  have := h.day_le
  unfold daysInMonth at this
  split at this <;> first | omega | (split at this <;> omega)

theorem isoText_length {y : Int} {m d : Nat} (h : isPlainYear y = true) (hdate : IsDate y m d) :
    (isoText y m d).length = 10 := by
  have hyear : 0 ≤ y ∧ y ≤ 9999 := of_decide_eq_true h
  have hm := hdate.month_le
  rw [isoText, isoYear, if_pos h]
  simp only [List.length_append, List.length_cons]
  rw [padded_length (by omega) (show y.toNat < 10 ^ 4 by omega),
    padded_length (by omega) (show m < 10 ^ 2 by omega), padded_length (by omega) (show d < 10 ^ 2 from hdate.day_lt)]

/-- The first ten units are the date. -/
theorem toISOString_take {t : Int} (h : isPlainYear (yearOfDay (t / 86400000)) = true) :
    (toISOString t).take 10 = isoDate (t / 86400000) := by
  have hlength : (isoDate (t / 86400000)).length = 10 := isoText_length h (dateOfDay_spec _).1
  rw [toISOString, List.take_left' hlength]

/-- Later dates have later texts. -/
theorem isoText_lt {y y' : Int} {m m' d d' : Nat} (h : isPlainYear y = true) (h' : isPlainYear y' = true)
    (hdate : IsDate y m d) (hdate' : IsDate y' m' d') (hlt : y < y' ∨ y = y' ∧ (m < m' ∨ m = m' ∧ d < d')) :
    TextLt (isoText y m d) (isoText y' m' d') := by
  have hyear : 0 ≤ y ∧ y ≤ 9999 := of_decide_eq_true h
  have hyear' : 0 ≤ y' ∧ y' ≤ 9999 := of_decide_eq_true h'
  have hm := hdate.month_le
  have hm' := hdate'.month_le
  have hfour : ∀ v : Nat, v ≤ 9999 → (padded 4 v).length = 4 := fun v hv => padded_length (by omega) (by omega)
  have htwo : ∀ v < 100, (padded 2 v).length = 2 := fun v hv => padded_length (by omega) (by omega)
  rw [isoText, isoText, isoYear, isoYear, if_pos h, if_pos h']
  refine textLt_append ((hfour _ (by omega)).trans (hfour _ (by omega)).symm) ?_
  rcases hlt with hy | ⟨rfl, hrest⟩
  · exact Or.inl (padded_lt (by omega) (by omega) (by omega))
  · refine Or.inr ⟨rfl, textLt_append (a := [0x2D]) (b := [0x2D]) rfl (Or.inr ⟨rfl, ?_⟩)⟩
    refine textLt_append ((htwo _ (by omega)).trans (htwo _ (by omega)).symm) ?_
    rcases hrest with hmonth | ⟨rfl, hd⟩
    · exact Or.inl (padded_lt (by omega) hmonth (by omega))
    · refine Or.inr ⟨rfl, textLt_append (a := [0x2D]) (b := [0x2D]) rfl (Or.inr ⟨rfl, ?_⟩)⟩
      exact padded_lt (by omega) hd hdate'.day_lt

theorem isoDate_lt {n n' : Int} (h : isPlainYear (yearOfDay n) = true) (h' : isPlainYear (yearOfDay n') = true)
    (hlt : n < n') : TextLt (isoDate n) (isoDate n') := by
  obtain ⟨hdate, hday⟩ := dateOfDay_spec n
  obtain ⟨hdate', hday'⟩ := dateOfDay_spec n'
  exact isoText_lt h h' hdate hdate' (date_lt_of_dayNumber_lt hdate hdate' (by omega))

/-- **Texts in order are days in order**, for years of four digits. -/
theorem textLe_isoDate_iff {n n' : Int} (h : isPlainYear (yearOfDay n) = true)
    (h' : isPlainYear (yearOfDay n') = true) : textLe (isoDate n) (isoDate n') = true ↔ n ≤ n' := by
  constructor
  · intro hle
    by_contra hlt
    have hback := isoDate_lt h' h (not_le.mp hlt)
    exact hback.2 (textLe_antisymm hback.1 hle)
  · intro hle
    rcases hle.eq_or_lt with rfl | hlt
    · exact textLe_refl _
    · exact (isoDate_lt h h' hlt).1

/-- A year with a sign is before all of them. -/
theorem not_textLe_of_signed {n t : Int} (h : isPlainYear (yearOfDay n) = true)
    (hsigned : isPlainYear (yearOfDay (t / 86400000)) = false) :
    textLe (isoDate n) ((toISOString t).take 10) = false := by
  have hyear : 0 ≤ (dateOfDay n).1 ∧ (dateOfDay n).1 ≤ 9999 := of_decide_eq_true h
  obtain ⟨c, rest, hc, htext⟩ : ∃ c rest, c < 0x30 ∧ (toISOString t).take 10 = c :: rest := by
    rw [toISOString, isoDate, isoText, isoYear,
      if_neg (show ¬ isPlainYear (dateOfDay (t / 86400000)).1 = true from Bool.eq_false_iff.mp hsigned)]
    refine ⟨_, _, ?_, rfl⟩
    split <;> decide
  obtain ⟨d, tail, hd, hdate⟩ : ∃ d tail, 0x30 ≤ d ∧ isoDate n = d :: tail := by
    rw [isoDate, isoText, isoYear, if_pos (show isPlainYear (dateOfDay n).1 = true from h)]
    cases htext : padded 4 (dateOfDay n).1.toNat with
    | nil =>
      have hlength := padded_length (show 0 < 4 by decide) (show (dateOfDay n).1.toNat < 10 ^ 4 by omega)
      simp [htext] at hlength
    | cons d tail =>
      have hdigit := List.all_eq_true.mp (all_isDecimalUnit_padded 4 (dateOfDay n).1.toNat) d
        (htext ▸ List.mem_cons_self)
      exact ⟨d, _, of_decide_eq_true (Bool.and_eq_true_iff.mp hdigit).1, rfl⟩
  have hlt := UInt16.lt_of_lt_of_le hc hd
  have hne : d ≠ c := fun heq => UInt16.lt_irrefl _ (heq ▸ hlt)
  rw [hdate, htext, textLe, beq_eq_false_iff_ne.mpr hne]
  simp [UInt16.le_of_lt hlt]

/-- The days of the years 0000 to 9999. -/
theorem isPlainYear_yearOfDay_iff {n : Int} :
    isPlainYear (yearOfDay n) = true ↔ -719528 ≤ n ∧ n < 2932897 := by
  obtain ⟨hlo, hhi⟩ := yearOfDay_spec n
  rw [isPlainYear, decide_eq_true_eq]
  constructor
  · rintro ⟨hfirst, hlast⟩
    have h0 := dayFromYear_mono hfirst
    have h1 := dayFromYear_mono (show yearOfDay n + 1 ≤ 10000 by omega)
    have h0' : dayFromYear 0 = -719528 := by decide
    have h1' : dayFromYear 10000 = 2932897 := by decide
    omega
  · rintro ⟨hfirst, hlast⟩
    have h0 : dayFromYear 0 = -719528 := by decide
    have h1 : dayFromYear 10000 = 2932897 := by decide
    constructor
    · by_contra hneg
      have := dayFromYear_mono (show yearOfDay n + 1 ≤ 0 by omega)
      omega
    · by_contra hlong
      have := dayFromYear_mono (show 10000 ≤ yearOfDay n by omega)
      omega

/-- A text of four digits for the year reads as it is. -/
theorem isoText_of_plain {y : Int} (h : isPlainYear y = true) (m d : Nat) :
    isoText y m d = padded 4 y.toNat ++ 0x2D :: (padded 2 m ++ 0x2D :: padded 2 d) := by
  rw [isoText, isoYear, if_pos h]

end ZcashFaucet.Lib
