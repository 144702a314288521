/-
ZcashFaucet.Lib.BigNumber — `Number(x)` of a BigInt.

A double has 53 bits. Up to 2 ^ 53 every whole number is one, and above it
the nearest one is taken, an even last bit deciding a tie. What rounds to
2 ^ 1024 is an infinity.
-/
import ZcashFaucet.Lib.Json
import Mathlib.Data.Nat.Log

namespace ZcashFaucet.Lib

/-- The nearest number of 53 bits. -/
def roundBits (n : Nat) : Nat :=
  let unit := 2 ^ (n.log2 - 52)
  let below := n / unit
  let rest := n % unit
  if 2 * rest < unit ∨ (2 * rest = unit ∧ below % 2 = 0) then below * unit else (below + 1) * unit

/-- `Number(z)`. -/
def numberOf (z : Int) : JsNumber :=
  let magnitude := roundBits z.natAbs
  if 1024 ≤ magnitude.log2 then .infinite (decide (z < 0))
  else .finite (if z < 0 then -(magnitude : ℚ) else magnitude)

/-- The number is the BigInt. -/
def IsExact (z : Int) : Prop := numberOf z = .finite z

instance (z : Int) : Decidable (IsExact z) := inferInstanceAs (Decidable (_ = _))

theorem log2_lt_of_lt {n : Nat} (h : n < 2 ^ 53) : n.log2 < 53 := by
  rcases Nat.eq_zero_or_pos n with rfl | hpos
  · decide
  · exact (Nat.log2_lt hpos.ne').mpr h

theorem roundBits_of_lt {n : Nat} (h : n < 2 ^ 53) : roundBits n = n := by
  have hlog : n.log2 - 52 = 0 := by
    have hlt := log2_lt_of_lt h
    omega
  simp only [roundBits, hlog, pow_zero, Nat.div_one, Nat.mod_one, Nat.mul_one]
  rw [if_pos (Or.inl (by decide))]

theorem isExact_of_lt {z : Int} (h₀ : 0 ≤ z) (h : z < 2 ^ 53) : IsExact z := by
  obtain ⟨n, rfl⟩ := Int.eq_ofNat_of_zero_le h₀
  have hn : n < 2 ^ 53 := by exact_mod_cast h
  have hsmall : ¬ 1024 ≤ n.log2 := by
    have hlog := log2_lt_of_lt hn
    omega
  rw [IsExact, numberOf, Int.natAbs_natCast, roundBits_of_lt hn]
  simp only [if_neg hsmall, if_neg (not_lt.mpr h₀)]
  rw [Int.cast_natCast]

example : numberOf (2 ^ 53 + 1) = .finite (2 ^ 53) := by decide +kernel

end ZcashFaucet.Lib
