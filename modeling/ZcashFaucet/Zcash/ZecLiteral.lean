/-
ZcashFaucet.Zcash.ZecLiteral — the amount of a shielded send, as the text
the wallet reads: `zatToZecLiteral` of `zcash/zalletsend.ts`.

The amount is not put through a double: the whole TAZ and the zatoshi
left over are written as BigInts, the second filled up to eight digits and
then cut behind its last one that is not zero. The text goes into the
request without quotes, so it has to be a JSON number. It is the text of
`fixedNumeral 8`, and all the rest is known of that.
-/
import ZcashFaucet.Lib.JsonNumeral

namespace ZcashFaucet.Zcash

open Lib

/-- ZATOSHI_PER_TAZ. -/
def zatoshiPerTaz : Int := 100000000

/-- `toString` of a BigInt. -/
def bigintText (n : Int) : JsString := if n < 0 then 0x2D :: decimal n.natAbs else decimal n.natAbs

/-- `padStart(width, "0")`. -/
def padStart (width : Nat) (s : JsString) : JsString := List.replicate (width - s.length) 0x30 ++ s

/-- Division of BigInts rounds towards zero. -/
def zatToZecLiteral (zat : Int) : JsString :=
  let whole := zat.tdiv zatoshiPerTaz
  let frac := trimZeros (padStart 8 (bigintText (zat.tmod zatoshiPerTaz)))
  if frac.truthy then bigintText whole ++ 0x2E :: frac else bigintText whole

@[simp] theorem bigintText_natCast (n : Nat) : bigintText n = decimal n :=
  if_neg (Int.not_lt.mpr (Int.natCast_nonneg n))

theorem fractionText_fixedFraction (places n : Nat) :
    fractionText (fixedFraction places n) =
      if (trimZeros (padded places n)).truthy then 0x2E :: trimZeros (padded places n) else [] := by
  unfold fixedFraction
  split
  · rename_i h
    rw [if_pos (by simpa [JsString.truthy] using h)]
    rfl
  · rename_i h
    rw [if_neg (by simpa [JsString.truthy] using h)]
    rfl

/-- The literal is the numeral with eight places. -/
theorem zatToZecLiteral_eq (zat : Nat) : zatToZecLiteral zat = (fixedNumeral 8 zat).text := by
  have hwhole : (zat : Int).tdiv zatoshiPerTaz = (zat / 10 ^ 8 : Nat) := rfl
  have hfrac : (zat : Int).tmod zatoshiPerTaz = (zat % 10 ^ 8 : Nat) := rfl
  have hpadded : padStart 8 (decimal (zat % 10 ^ 8)) = padded 8 (zat % 10 ^ 8) := rfl
  simp only [zatToZecLiteral, hwhole, hfrac, bigintText_natCast, hpadded, Numeral.text, fixedNumeral,
    fractionText_fixedFraction, exponentText]
  split
  · simp [Whole.ofNat]
  · simp [Whole.ofNat]

/-- **The literal is exact.** It is a JSON number, the only one with that
text, with no sign and no exponent, with eight places at most and no zero
at their end, and it is worth the amount. No other amount has it. -/
theorem zatToZecLiteral_exact (zat : Nat) :
    (∃ x : Numeral, x.text = zatToZecLiteral zat ∧ (∀ x' : Numeral, x'.text = zatToZecLiteral zat → x' = x) ∧
      x.negative = false ∧ x.exponent = none ∧
        (∀ d ∈ x.fraction, d.units.length ≤ 8 ∧ d.units.getLast? ≠ some 0x30) ∧ x.value * 10 ^ 8 = zat) ∧
      ∀ zat' : Nat, zatToZecLiteral zat' = zatToZecLiteral zat → zat' = zat := by
  have hvalue : ∀ n : Nat, (fixedNumeral 8 n).value * 10 ^ 8 = n := by
    intro n
    rw [fixedNumeral_value (by decide)]
    exact div_mul_cancel₀ _ (pow_ne_zero 8 (by norm_num))
  refine ⟨⟨fixedNumeral 8 zat, (zatToZecLiteral_eq zat).symm, ?_, rfl, rfl, ?_, hvalue zat⟩, ?_⟩
  · intro x' hx'
    exact Numeral.text_injective (hx'.trans (zatToZecLiteral_eq zat))
  · exact fun d hd => fixedFraction_short (by decide) (Nat.mod_lt zat (by decide)) hd
  · intro zat' heq
    rw [zatToZecLiteral_eq, zatToZecLiteral_eq] at heq
    have hsame := congrArg Numeral.value (Numeral.text_injective heq)
    exact_mod_cast (hvalue zat').symm.trans ((congrArg (· * 10 ^ 8) hsame).trans (hvalue zat))

example : zatToZecLiteral 10000000 = js "0.1" := by decide +kernel

example : zatToZecLiteral 2100000000000001 = js "21000000.00000001" := by decide +kernel

end ZcashFaucet.Zcash
