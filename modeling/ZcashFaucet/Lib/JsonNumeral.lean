/-
ZcashFaucet.Lib.JsonNumeral — the numbers of JSON, as texts.

A `Numeral` is a derivation of the grammar's `number`: a sign, a whole
part with no zero before it, a fraction and an exponent, each with the
digits it is written with. A text is a JSON number when it is the text of
one. `takeNumeral` reads the numeral a text begins with, so no text is
the text of two (`Numeral.text_injective`), and the value of a text,
which is exact, is the value of its numeral.
-/
import Mathlib.Algebra.Field.Rat
import Mathlib.Data.List.DropRight
import Mathlib.Tactic.FieldSimp
import Mathlib.Tactic.Ring
import ZcashFaucet.Lib.Decimal

namespace ZcashFaucet.Lib

/-! ## Numerals -/

/-- One digit or more. -/
@[ext] structure Digits where
  units : JsString
  ne_nil : units ≠ []
  all_digits : units.all isDecimalUnit = true

/-- The digits before the point: a zero stands alone. -/
@[ext] structure Whole extends Digits where
  no_leading_zero : units.head? = some 0x30 → units = [0x30]

inductive ExponentSign
  | none
  | plus
  | minus

structure Exponent where
  upper : Bool
  sign : ExponentSign
  digits : Digits

structure Numeral where
  negative : Bool
  whole : Whole
  fraction : Option Digits
  exponent : Option Exponent

def ExponentSign.text : ExponentSign → JsString
  | .none => []
  | .plus => [0x2B]
  | .minus => [0x2D]

def Exponent.text (e : Exponent) : JsString :=
  (if e.upper then 0x45 else 0x65) :: (e.sign.text ++ e.digits.units)

def fractionText : Option Digits → JsString
  | none => []
  | some d => 0x2E :: d.units

def exponentText : Option Exponent → JsString
  | none => []
  | some e => e.text

def Numeral.text (x : Numeral) : JsString :=
  (if x.negative then [0x2D] else []) ++ (x.whole.units ++ (fractionText x.fraction ++ exponentText x.exponent))

/-! ## Values -/

/-- Digits behind a point. -/
def fractionValue (s : JsString) : ℚ := decimalValue s / 10 ^ s.length

def Exponent.value (e : Exponent) : ℤ :=
  match e.sign with
  | .minus => -(decimalValue e.digits.units : ℤ)
  | _ => decimalValue e.digits.units

def Numeral.value (x : Numeral) : ℚ :=
  (if x.negative then -1 else 1) *
    (decimalValue x.whole.units + fractionValue (x.fraction.elim [] Digits.units)) *
      10 ^ x.exponent.elim 0 Exponent.value

/-! ## Reading -/

/-- The digits a text begins with, if there are any. -/
def takeDigits (s : JsString) : Option (Digits × JsString) :=
  if h : s.takeWhile isDecimalUnit ≠ [] then
    some (⟨s.takeWhile isDecimalUnit, h, List.all_takeWhile⟩, s.dropWhile isDecimalUnit)
  else none

def zeroWhole : Whole := ⟨⟨[0x30], by decide, by decide⟩, fun _ => rfl⟩

def takeWhole : JsString → Option (Whole × JsString)
  | [] => none
  | c :: s =>
      if c = 0x30 then some (zeroWhole, s)
      else
        match takeDigits (c :: s) with
        | none => none
        | some (d, rest) =>
            if h : d.units.head? ≠ some 0x30 then some (⟨d, fun hzero => absurd hzero h⟩, rest) else none

def takeFraction : JsString → Option (Option Digits × JsString)
  | [] => some (none, [])
  | c :: s => if c = 0x2E then (takeDigits s).map fun (d, rest) => (some d, rest) else some (none, c :: s)

def takeSign : JsString → ExponentSign × JsString
  | [] => (.none, [])
  | c :: s => if c = 0x2B then (.plus, s) else if c = 0x2D then (.minus, s) else (.none, c :: s)

def takeExponent : JsString → Option (Option Exponent × JsString)
  | [] => some (none, [])
  | c :: s =>
      if c = 0x45 ∨ c = 0x65 then
        (takeDigits (takeSign s).2).map fun (d, rest) => (some ⟨c = 0x45, (takeSign s).1, d⟩, rest)
      else some (none, c :: s)

def takeMinus : JsString → Bool × JsString
  | [] => (false, [])
  | c :: s => if c = 0x2D then (true, s) else (false, c :: s)

/-- The numeral a text begins with, and the text behind it. -/
def takeNumeral (s : JsString) : Option (Numeral × JsString) := do
  let (negative, s) := takeMinus s
  let (whole, s) ← takeWhole s
  let (fraction, s) ← takeFraction s
  let (exponent, s) ← takeExponent s
  some (⟨negative, whole, fraction, exponent⟩, s)

example : (takeNumeral (js "-12.50e+3,")).map (fun p => (p.1.value, p.2)) = some (-12500, js ",") := by
  decide +kernel

/-- What follows a run of digits. -/
def NoDigit (rest : JsString) : Prop := ∀ c ∈ rest.head?, isDecimalUnit c = false

/-- What follows a numeral. -/
def EndsNumeral (rest : JsString) : Prop :=
  ∀ c ∈ rest.head?, isDecimalUnit c = false ∧ c ≠ 0x2E ∧ c ≠ 0x45 ∧ c ≠ 0x65

theorem endsNumeral_nil : EndsNumeral [] := by simp [EndsNumeral]

theorem EndsNumeral.noDigit {rest : JsString} (h : EndsNumeral rest) : NoDigit rest := fun c hc => (h c hc).1

theorem Digits.mem {d : Digits} {c : UInt16} (hc : c ∈ d.units) : isDecimalUnit c = true :=
  List.all_eq_true.mp d.all_digits c hc

theorem takeDigits_append (d : Digits) {rest : JsString} (h : NoDigit rest) :
    takeDigits (d.units ++ rest) = some (d, rest) := by
  have hcut : rest.takeWhile isDecimalUnit = [] ∧ rest.dropWhile isDecimalUnit = rest := by
    cases rest with
    | nil => exact ⟨rfl, rfl⟩
    | cons c rest =>
      have hc : isDecimalUnit c = false := h c rfl
      simp [hc]
  have htake : (d.units ++ rest).takeWhile isDecimalUnit = d.units := by
    rw [List.takeWhile_append_of_pos fun c hc => d.mem hc, hcut.1, List.append_nil]
  have hdrop : (d.units ++ rest).dropWhile isDecimalUnit = rest := by
    rw [List.dropWhile_append_of_pos fun c hc => d.mem hc, hcut.2]
  rw [takeDigits, dif_pos (by rw [htake]; exact d.ne_nil)]
  simp only [htake, hdrop]

theorem takeWhole_append (w : Whole) {rest : JsString} (h : NoDigit rest) :
    takeWhole (w.units ++ rest) = some (w, rest) := by
  cases hw : w.units with
  | nil => exact absurd hw w.ne_nil
  | cons c s =>
    rw [List.cons_append, takeWhole]
    split
    · rename_i hc
      have hzero : w.units = [0x30] := w.no_leading_zero (by rw [hw, hc]; rfl)
      have hs : s = [] := (List.cons.inj (hw.symm.trans hzero)).2
      have hwhole : zeroWhole = w := Whole.ext hzero.symm
      rw [hs, hwhole, List.nil_append]
    · rename_i hc
      have hhead : w.units.head? ≠ some 0x30 := by
        rw [hw]
        exact fun heq => hc (Option.some.inj heq)
      rw [← List.cons_append, ← hw, takeDigits_append w.toDigits h]
      exact dif_pos hhead

theorem noDigit_exponentText (e : Option Exponent) {rest : JsString} (h : EndsNumeral rest) :
    NoDigit (exponentText e ++ rest) := by
  cases e with
  | none => exact h.noDigit
  | some e =>
    intro c hc
    obtain rfl := Option.some.inj hc
    split <;> decide

theorem takeFraction_append (f : Option Digits) (e : Option Exponent) {rest : JsString} (h : EndsNumeral rest) :
    takeFraction (fractionText f ++ (exponentText e ++ rest)) = some (f, exponentText e ++ rest) := by
  cases f with
  | none =>
    cases htext : exponentText e ++ rest with
    | nil => simp [fractionText, takeFraction]
    | cons c s =>
      have hc : c ≠ 0x2E := by
        cases e with
        | none => exact (h c (by rw [show rest = c :: s from htext]; rfl)).2.1
        | some e =>
          obtain rfl := (List.cons.inj htext).1
          split <;> decide
      rw [fractionText, List.nil_append, takeFraction, if_neg hc]
  | some d =>
    rw [fractionText, List.cons_append, takeFraction, if_pos rfl,
      takeDigits_append d (noDigit_exponentText e h)]
    rfl

theorem takeSign_append (g : ExponentSign) (d : Digits) (rest : JsString) :
    takeSign (g.text ++ (d.units ++ rest)) = (g, d.units ++ rest) := by
  cases g with
  | none =>
    cases hd : d.units with
    | nil => exact absurd hd d.ne_nil
    | cons c s =>
      have hc : isDecimalUnit c = true := d.mem (hd ▸ List.mem_cons_self)
      have hplus : c ≠ 0x2B := by
        rintro rfl
        cases hc
      have hminus : c ≠ 0x2D := by
        rintro rfl
        cases hc
      rw [ExponentSign.text, List.nil_append, List.cons_append, takeSign, if_neg hplus, if_neg hminus]
  | plus => rfl
  | minus => rfl

theorem takeExponent_append (e : Option Exponent) {rest : JsString} (h : EndsNumeral rest) :
    takeExponent (exponentText e ++ rest) = some (e, rest) := by
  cases e with
  | none =>
    cases rest with
    | nil => rfl
    | cons c rest =>
      obtain ⟨-, -, hupper, hlower⟩ := h c rfl
      rw [exponentText, List.nil_append, takeExponent, if_neg (not_or.mpr ⟨hupper, hlower⟩)]
  | some e =>
    obtain ⟨upper, g, d⟩ := e
    have hletter : ∀ letter : UInt16, (letter = if upper then 0x45 else 0x65) →
        (letter = 0x45 ∨ letter = 0x65) ∧ decide (letter = 0x45) = upper := by
      rintro letter rfl
      cases upper <;> decide
    obtain ⟨hletter, hupper⟩ := hletter _ rfl
    rw [exponentText, Exponent.text, List.cons_append, takeExponent, if_pos hletter, List.append_assoc,
      takeSign_append, takeDigits_append d h.noDigit]
    simp only [Option.map_some, hupper]

theorem noDigit_fractionText (f : Option Digits) (e : Option Exponent) {rest : JsString} (h : EndsNumeral rest) :
    NoDigit (fractionText f ++ (exponentText e ++ rest)) := by
  cases f with
  | none => exact noDigit_exponentText e h
  | some d =>
    intro c hc
    obtain rfl := Option.some.inj hc
    decide

theorem takeMinus_append (negative : Bool) (w : Whole) (rest : JsString) :
    takeMinus ((if negative then [0x2D] else []) ++ (w.units ++ rest)) = (negative, w.units ++ rest) := by
  cases negative with
  | true => rfl
  | false =>
    cases hw : w.units with
    | nil => exact absurd hw w.ne_nil
    | cons c s =>
      have hc : isDecimalUnit c = true := w.mem (hw ▸ List.mem_cons_self)
      have hminus : c ≠ 0x2D := by
        rintro rfl
        cases hc
      exact if_neg hminus

/-- A numeral is read from its text, whatever ends it. -/
theorem takeNumeral_text (x : Numeral) {rest : JsString} (h : EndsNumeral rest) :
    takeNumeral (x.text ++ rest) = some (x, rest) := by
  obtain ⟨negative, w, f, e⟩ := x
  simp only [takeNumeral, Numeral.text, List.append_assoc, takeMinus_append,
    takeWhole_append w (noDigit_fractionText f e h), takeFraction_append f e h, takeExponent_append e h,
    Option.bind_eq_bind, Option.bind_some]

/-- **No text is two numbers.** -/
theorem Numeral.text_injective {x x' : Numeral} (h : x.text = x'.text) : x = x' := by
  have hx := takeNumeral_text x endsNumeral_nil
  rw [h, takeNumeral_text x' endsNumeral_nil] at hx
  exact (Prod.mk.inj (Option.some.inj hx)).1.symm

/-! ## A fixed number of places -/

theorem decimal_ne_nil (n : Nat) : decimal n ≠ [] := by
  rw [decimal_eq]
  simp

theorem decimal_no_leading_zero (n : Nat) : (decimal n).head? = some 0x30 → decimal n = [0x30] := by
  induction n using Nat.strongRecOn with
  | _ n ih =>
    intro hhead
    rw [decimal_eq] at hhead ⊢
    split at hhead
    · rename_i h
      rw [if_pos h, Option.some.inj hhead]
      rfl
    · rename_i h
      rw [List.head?_append_of_ne_nil _ (decimal_ne_nil _)] at hhead
      have hten : decimal (n / 10) = decimal 0 := ih (n / 10) (by omega) hhead
      have hzero := congrArg decimalValue hten
      rw [decimalValue_decimal, decimalValue_decimal] at hzero
      omega

def Whole.ofNat (n : Nat) : Whole :=
  ⟨⟨decimal n, decimal_ne_nil n, all_isDecimalUnit_decimal n⟩, decimal_no_leading_zero n⟩

/-- No zeros at the end. -/
def trimZeros (s : JsString) : JsString := s.rdropWhile (· == 0x30)

theorem exists_zeros (s : JsString) : ∃ k, trimZeros s ++ List.replicate k 0x30 = s := by
  refine ⟨(s.rtakeWhile (· == 0x30)).length, ?_⟩
  have hzeros : s.rtakeWhile (· == 0x30) = List.replicate (s.rtakeWhile (· == 0x30)).length 0x30 :=
    List.eq_replicate_of_mem fun c hc => by simpa using List.mem_rtakeWhile_imp hc
  rw [← hzeros]
  exact List.rdropWhile_append_rtakeWhile

theorem trimZeros_last {s : JsString} : (trimZeros s).getLast? ≠ some 0x30 := by
  intro hlast
  have hne : trimZeros s ≠ [] := by
    intro hnil
    rw [hnil] at hlast
    cases hlast
  have hnot := List.rdropWhile_last_not (· == (0x30 : UInt16)) s hne
  rw [List.getLast?_eq_some_getLast hne] at hlast
  exact hnot (beq_iff_eq.mpr (Option.some.inj hlast))

theorem trimZeros_length_le (s : JsString) : (trimZeros s).length ≤ s.length :=
  (List.rdropWhile_prefix _ s).length_le

theorem all_trimZeros {s : JsString} (h : s.all isDecimalUnit = true) : (trimZeros s).all isDecimalUnit = true :=
  List.all_eq_true.mpr fun c hc => List.all_eq_true.mp h c ((List.rdropWhile_prefix _ s).subset hc)

theorem decimalValue_append_zeros (s : JsString) (k : Nat) :
    decimalValue (s ++ List.replicate k 0x30) = decimalValue s * 10 ^ k := by
  induction k with
  | zero => simp
  | succ k ih =>
    rw [List.replicate_succ', ← List.append_assoc, decimalValue, List.foldl_append, ← decimalValue, ih, pow_succ]
    simp only [List.foldl_cons, List.foldl_nil]
    ring_nf
    rfl

/-- A fraction has its value with zeros or without. -/
theorem fractionValue_trimZeros (s : JsString) : fractionValue (trimZeros s) = fractionValue s := by
  obtain ⟨k, hk⟩ := exists_zeros s
  have hsplit : fractionValue s = fractionValue (trimZeros s ++ List.replicate k 0x30) := by rw [hk]
  have hpow : (10 : ℚ) ^ k ≠ 0 := pow_ne_zero k (by norm_num)
  rw [hsplit, fractionValue, fractionValue, decimalValue_append_zeros, List.length_append, List.length_replicate,
    pow_add]
  push_cast
  rw [mul_div_mul_right _ _ hpow]

/-- The fraction of `n` parts, `10 ^ places` of which are a whole. -/
def fixedFraction (places n : Nat) : Option Digits :=
  if h : trimZeros (padded places n) ≠ [] then
    some ⟨trimZeros (padded places n), h, all_trimZeros (all_isDecimalUnit_padded places n)⟩
  else none

def fixedNumeral (places n : Nat) : Numeral where
  negative := false
  whole := Whole.ofNat (n / 10 ^ places)
  fraction := fixedFraction places (n % 10 ^ places)
  exponent := none

theorem fixedFraction_units (places n : Nat) :
    (fixedFraction places n).elim [] Digits.units = trimZeros (padded places n) := by
  unfold fixedFraction
  split
  · rfl
  · rename_i h
    exact (not_not.mp h).symm

/-- The fraction is as short as it can be. -/
theorem fixedFraction_short {places n : Nat} (hplaces : 0 < places) (hn : n < 10 ^ places) {d : Digits}
    (h : d ∈ fixedFraction places n) : d.units.length ≤ places ∧ d.units.getLast? ≠ some 0x30 := by
  have hunits : d.units = trimZeros (padded places n) := by
    rw [← fixedFraction_units, Option.mem_def.mp h]
    rfl
  rw [hunits]
  exact ⟨(trimZeros_length_le _).trans_eq (padded_length hplaces hn), trimZeros_last⟩

/-- **The numeral is exact.** -/
theorem fixedNumeral_value {places : Nat} (hplaces : 0 < places) (n : Nat) :
    (fixedNumeral places n).value = n / 10 ^ places := by
  have hlt : n % 10 ^ places < 10 ^ places := Nat.mod_lt n (Nat.pow_pos (by decide))
  have hfraction : fractionValue ((fixedFraction places (n % 10 ^ places)).elim [] Digits.units) =
      (n % 10 ^ places : Nat) / 10 ^ places := by
    rw [fixedFraction_units, fractionValue_trimZeros, fractionValue, padded_length hplaces hlt, padded,
      decimalValue_zeros, decimalValue_decimal]
  have hsplit : (n : ℚ) = 10 ^ places * (n / 10 ^ places : Nat) + (n % 10 ^ places : Nat) := by
    exact_mod_cast (Nat.div_add_mod n (10 ^ places)).symm
  have hwhole : decimalValue (Whole.ofNat (n / 10 ^ places)).units = n / 10 ^ places := decimalValue_decimal _
  have hpow : (10 : ℚ) ^ places ≠ 0 := pow_ne_zero places (by norm_num)
  simp only [Numeral.value, fixedNumeral, hwhole, hfraction, Option.elim_none, zpow_zero, mul_one, one_mul,
    Bool.false_eq_true, if_false]
  rw [eq_div_iff hpow, add_mul, div_mul_cancel₀ _ hpow, hsplit]
  ring

end ZcashFaucet.Lib
