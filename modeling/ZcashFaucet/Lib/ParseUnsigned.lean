/-
ZcashFaucet.Lib.ParseUnsigned — unsigned integers, read from a text the way
`FromStr` of Rust's unsigned types reads them.

A text is a numeral if it is digits, at least one, after a `+` or after
nothing; leading zeros are digits like any others. `parseUnsigned` goes from
left to right and stops at the first character that is no digit or that makes
the number too large. `parseUnsigned_ok_iff` says that what it accepts is the
numerals of the numbers in range, each as its number.
-/
import Mathlib.Data.Nat.Notation

namespace ZcashFaucet.Lib

/-- `ParseIntError`. -/
inductive ParseIntError
  | empty
  | invalidDigit
  | posOverflow
  deriving DecidableEq

def ParseIntError.text : ParseIntError → String
  | .empty => "cannot parse integer from empty string"
  | .invalidDigit => "invalid digit found in string"
  | .posOverflow => "number too large to fit in target type"

/-- The value of digits behind a number. -/
def digitsValue (n : Nat) (ds : List Char) : Nat := ds.foldl (fun n c => n * 10 + (c.toNat - 48)) n

/-- The loop over the digits. -/
def parseDigits (max : Nat) : Nat → List Char → Except ParseIntError Nat
  | n, [] => .ok n
  | n, c :: cs =>
      if c.isDigit then
        if n * 10 + (c.toNat - 48) ≤ max then parseDigits max (n * 10 + (c.toNat - 48)) cs else .error .posOverflow
      else .error .invalidDigit

def parseUnsigned (max : Nat) : List Char → Except ParseIntError Nat
  | [] => .error .empty
  | ['+'] => .error .invalidDigit
  | '+' :: cs => parseDigits max 0 cs
  | cs => parseDigits max 0 cs

/-- The text is that number. -/
def IsNumeral (text : List Char) (n : Nat) : Prop :=
  ∃ ds, (text = ds ∨ text = '+' :: ds) ∧ ds ≠ [] ∧ (∀ c ∈ ds, c.isDigit = true) ∧ digitsValue 0 ds = n

theorem le_digitsValue (n : Nat) (ds : List Char) : n ≤ digitsValue n ds := by
  induction ds generalizing n with
  | nil => exact Nat.le_refl n
  | cons c ds ih =>
    have hstep := ih (n * 10 + (c.toNat - 48))
    change n ≤ digitsValue (n * 10 + (c.toNat - 48)) ds
    omega

theorem parseDigits_ok_iff {max m : Nat} (ds : List Char) :
    ∀ n ≤ max, parseDigits max n ds = .ok m ↔ (∀ c ∈ ds, c.isDigit = true) ∧ digitsValue n ds = m ∧ m ≤ max := by
  induction ds with
  | nil =>
    intro n hn
    simp only [parseDigits, digitsValue, List.foldl_nil, Except.ok.injEq, List.not_mem_nil, false_implies,
      implies_true, true_and]
    exact ⟨fun h => ⟨h, h ▸ hn⟩, And.left⟩
  | cons c ds ih =>
    intro n hn
    have hvalue : digitsValue n (c :: ds) = digitsValue (n * 10 + (c.toNat - 48)) ds := rfl
    rw [parseDigits, List.forall_mem_cons, hvalue]
    split
    case isTrue hdigit =>
      split
      case isTrue hfits =>
        rw [ih _ hfits]
        simp [hdigit]
      case isFalse hlarge =>
        refine ⟨nofun, fun h => ?_⟩
        have hle := le_digitsValue (n * 10 + (c.toNat - 48)) ds
        omega
    case isFalse hdigit => exact ⟨nofun, fun h => absurd h.1.1 hdigit⟩

theorem plus_isDigit : ('+' : Char).isDigit = false := rfl

/-- What is accepted is the numerals of the numbers in range. -/
theorem parseUnsigned_ok_iff {max n : Nat} (text : List Char) :
    parseUnsigned max text = .ok n ↔ IsNumeral text n ∧ n ≤ max := by
  have hdigits := @parseDigits_ok_iff max n
  unfold parseUnsigned
  split
  · refine ⟨nofun, fun h => ?_⟩
    obtain ⟨⟨ds, htext, hne, -, -⟩, -⟩ := h
    rcases htext with htext | htext
    · exact absurd htext.symm hne
    · cases htext
  · refine ⟨nofun, fun h => ?_⟩
    obtain ⟨⟨ds, htext, hne, hall, -⟩, -⟩ := h
    rcases htext with rfl | htext
    · exact absurd (hall '+' (by simp)) (by simp [plus_isDigit])
    · exact absurd (List.cons.inj htext).2.symm hne
  · rename_i cs hne
    rw [hdigits cs 0 (Nat.zero_le _)]
    refine ⟨fun h => ⟨⟨cs, .inr rfl, ?_, h.1, h.2.1⟩, h.2.2⟩, fun h => ?_⟩
    · rintro rfl
      exact hne rfl
    · obtain ⟨⟨ds, htext, -, hall, hvalue⟩, hmax⟩ := h
      rcases htext with rfl | htext
      · exact absurd (hall '+' (by simp)) (by simp [plus_isDigit])
      · rw [(List.cons.inj htext).2]
        exact ⟨hall, hvalue, hmax⟩
  · rename_i hempty hplus hmore
    rw [hdigits text 0 (Nat.zero_le _)]
    refine ⟨fun h => ⟨⟨text, .inl rfl, hempty, h.1, h.2.1⟩, h.2.2⟩, fun h => ?_⟩
    obtain ⟨⟨ds, htext, -, hall, hvalue⟩, hmax⟩ := h
    rcases htext with rfl | htext
    · exact ⟨hall, hvalue, hmax⟩
    · exact absurd htext (hmore ds)

end ZcashFaucet.Lib
