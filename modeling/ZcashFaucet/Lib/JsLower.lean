/-
ZcashFaucet.Lib.JsLower — `toLowerCase`, on ASCII and beyond.

On ASCII it is `foldCase`. Beyond it the Unicode tables are not read here:
`LowerCase` has what is used of them, that such a text does not become an
ASCII text, but for the Kelvin sign, which becomes a `k`.
-/
import ZcashFaucet.Lib.JsString

namespace ZcashFaucet.Lib

/-- An ASCII letter in upper case. -/
def raiseCase (c : UInt16) : UInt16 := if 0x61 ≤ c ∧ c ≤ 0x7A then c - 0x20 else c

theorem foldCase_of_not_ascii {c : UInt16} (h : ¬ c < 0x80) : foldCase c = c := by
  rw [foldCase, if_neg]
  rintro ⟨-, hle⟩
  exact h (UInt16.lt_of_le_of_lt hle (by decide))

theorem foldCase_toNat (c : UInt16) :
    (foldCase c).toNat = if 0x41 ≤ c.toNat ∧ c.toNat ≤ 0x5A then c.toNat + 0x20 else c.toNat := by
  unfold foldCase
  simp only [UInt16.le_iff_toNat_le, UInt16.reduceToNat]
  split
  · rw [UInt16.toNat_add]
    simp only [UInt16.reduceToNat]
    omega
  · rfl

/-- What is no letter comes from itself only. -/
theorem foldCase_eq_iff {c d : UInt16} (h : d < 0x61 ∨ 0x7A < d) (h' : foldCase d = d) :
    foldCase c = d ↔ c = d := by
  constructor
  · intro hfold
    apply UInt16.toNat_inj.mp
    have hc := foldCase_toNat c
    rw [hfold] at hc
    simp only [UInt16.lt_iff_toNat_lt, UInt16.reduceToNat] at h
    split at hc <;> omega
  · rintro rfl
    exact h'

/-- What comes of ASCII is ASCII. -/
theorem ascii_of_foldCase {c : UInt16} (h : foldCase c < 0x80) : c < 0x80 := by
  by_contra hlarge
  rw [foldCase_of_not_ascii hlarge] at h
  exact hlarge h

structure LowerCase where
  apply : JsString → JsString
  ascii : ∀ s : JsString, (∀ c ∈ s, c < 0x80) → apply s = s.map foldCase
  other : ∀ s : JsString, (∃ c ∈ s, ¬ c < 0x80) → ∃ c ∈ apply s, ¬ c < 0x80 ∨ c = 0x6B

/-- A `toLowerCase` that knows no letter beyond ASCII. -/
def foldOnly : LowerCase where
  apply s := s.map foldCase
  ascii _ _ := rfl
  other s h := by
    obtain ⟨c, hc, hlarge⟩ := h
    exact ⟨c, List.mem_map.mpr ⟨c, hc, foldCase_of_not_ascii hlarge⟩, .inl hlarge⟩

end ZcashFaucet.Lib
