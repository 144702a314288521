/-
ZcashFaucet.Lib.Decimal — decimal numerals, written and read.

`decimal` is the shortest numeral, `padded` fills it up with zeros to a
width (`{:02}`), and `takeDecimal` reads a field of fixed width off a
text. The one fact a reader and a writer share is `takeDecimal_padded`.
-/
import ZcashFaucet.Lib.JsString
import Mathlib.Algebra.Order.Ring.Nat

namespace ZcashFaucet.Lib

def decimalUnit (d : Nat) : UInt16 := (0x30 + d).toUInt16

def isDecimalUnit (c : UInt16) : Bool := 0x30 ≤ c && c ≤ 0x39

def decimal (n : Nat) : JsString := (Nat.toDigits 10 n).map fun c => c.toNat.toUInt16

/-- At least `width` digits. -/
def padded (width n : Nat) : JsString := List.replicate (width - (decimal n).length) 0x30 ++ decimal n

def decimalValue (s : JsString) : Nat := s.foldl (fun n c => 10 * n + (c.toNat - 0x30)) 0

/-- A field of exactly `width` digits, and the text behind it. -/
def takeDecimal (width : Nat) (s : JsString) : Option (Nat × JsString) :=
  let digits := s.take width
  if digits.length = width ∧ digits.all isDecimalUnit then some (decimalValue digits, s.drop width)
  else none

/-! ## Digits -/

theorem toUInt16_digitChar {d : Nat} (h : d < 10) : (Nat.digitChar d).toNat.toUInt16 = decimalUnit d := by
  have hall : ∀ d < 10, (Nat.digitChar d).toNat.toUInt16 = decimalUnit d := by decide
  exact hall d h

theorem isDecimalUnit_decimalUnit {d : Nat} (h : d < 10) : isDecimalUnit (decimalUnit d) = true := by
  have hall : ∀ d < 10, isDecimalUnit (decimalUnit d) = true := by decide
  exact hall d h

theorem toNat_decimalUnit {d : Nat} (h : d < 10) : (decimalUnit d).toNat - 0x30 = d := by
  have hall : ∀ d < 10, (decimalUnit d).toNat - 0x30 = d := by decide
  exact hall d h

/-- The last digit comes off the end. -/
theorem decimal_eq (n : Nat) :
    decimal n = (if n < 10 then [] else decimal (n / 10)) ++ [decimalUnit (n % 10)] := by
  unfold decimal
  rw [Nat.toDigits_eq_if (by omega)]
  split
  · rename_i h
    simp [toUInt16_digitChar h, Nat.mod_eq_of_lt h]
  · simp [toUInt16_digitChar (Nat.mod_lt n (by omega))]

theorem decimal_length_le_iff {n k : Nat} (hk : 0 < k) : (decimal n).length ≤ k ↔ n < 10 ^ k := by
  simp only [decimal, List.length_map]
  exact Nat.length_toDigits_le_iff (by omega) hk

theorem all_isDecimalUnit_decimal (n : Nat) : (decimal n).all isDecimalUnit = true := by
  induction n using Nat.strongRecOn with
  | _ n ih =>
    rw [decimal_eq]
    split
    · simp [isDecimalUnit_decimalUnit (Nat.mod_lt n (by omega))]
    · rename_i h
      simp [ih (n / 10) (by omega), isDecimalUnit_decimalUnit (Nat.mod_lt n (by omega))]

theorem decimalValue_decimal (n : Nat) : decimalValue (decimal n) = n := by
  induction n using Nat.strongRecOn with
  | _ n ih =>
    have hlast : (decimalUnit (n % 10)).toNat - 0x30 = n % 10 := toNat_decimalUnit (Nat.mod_lt n (by omega))
    rw [decimal_eq]
    split
    · simp only [List.nil_append, decimalValue, List.foldl_cons, List.foldl_nil, hlast]
      omega
    · rename_i h
      have hrec := ih (n / 10) (by omega)
      simp only [decimalValue, List.foldl_append, List.foldl_cons, List.foldl_nil, hlast] at hrec ⊢
      omega

/-! ## A field of fixed width -/

theorem decimalValue_zeros (k : Nat) (s : JsString) :
    decimalValue (List.replicate k 0x30 ++ s) = decimalValue s := by
  induction k with
  | zero => rfl
  | succ k ih => simpa [decimalValue, List.replicate_succ] using ih

theorem padded_length {width n : Nat} (hwidth : 0 < width) (h : n < 10 ^ width) :
    (padded width n).length = width := by
  have hle := (decimal_length_le_iff hwidth).mpr h
  simp only [padded, List.length_append, List.length_replicate]
  omega

theorem lt_padded_length {width n : Nat} (hwidth : 0 < width) (h : 10 ^ width ≤ n) :
    width < (padded width n).length := by
  have hlt : ¬ (decimal n).length ≤ width := fun hle =>
    absurd ((decimal_length_le_iff hwidth).mp hle) (by omega)
  simp only [padded, List.length_append, List.length_replicate]
  omega

theorem all_isDecimalUnit_padded (width n : Nat) : (padded width n).all isDecimalUnit = true := by
  have hzero : isDecimalUnit 0x30 = true := by decide
  simp [padded, all_isDecimalUnit_decimal, hzero]

/-- What is written in a field is read from it. -/
theorem takeDecimal_padded {width n : Nat} (hwidth : 0 < width) (h : n < 10 ^ width) (rest : JsString) :
    takeDecimal width (padded width n ++ rest) = some (n, rest) := by
  have hlength := padded_length hwidth h
  have hvalue : decimalValue (padded width n) = n := by
    rw [padded, decimalValue_zeros, decimalValue_decimal]
  unfold takeDecimal
  rw [List.take_left' hlength, List.drop_left' hlength]
  simp only [hlength, all_isDecimalUnit_padded, hvalue, and_self, if_true]

end ZcashFaucet.Lib
