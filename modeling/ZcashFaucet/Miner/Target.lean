/-
ZcashFaucet.Miner.Target — the target a block has to meet: `expand_target`
and `meets_target` of `block.rs`.

A compact value is a size, a sign bit and a 23-bit word, and denotes
`word · 256 ^ (size - 3)` with the fraction cut off (`setCompact`). The
code lays the three bytes of the word into 32 and refuses what does not
fit. What the loop places is worth `word · 256 ^ size / 256 ^ 3`
(`placeMantissa_ok`), so it is right wherever it answers. It refuses too
much at both ends: sizes 33 and 34, whose word may be short enough, and
sizes 1 and 2, whose word is cut off in `SetCompact` and not here.
-/
import ZcashFaucet.Lib.Bytes
import Mathlib.Tactic.NormNum

namespace ZcashFaucet.Miner

open Lib

/-! ## Comparing -/

/-- The loop of `meets_target`, with `i` bytes left to compare. -/
def meetsBelow (hashLe targetLe : Vector UInt8 32) : (i : Nat) → i ≤ 32 → Bool
  | 0, _ => true
  | i + 1, hi =>
      match compare hashLe[i] targetLe[i] with
      | .lt => true
      | .gt => false
      | .eq => meetsBelow hashLe targetLe i (Nat.le_of_succ_le hi)

/-- `meets_target`. -/
def meetsTarget (hashLe targetLe : Vector UInt8 32) : Bool :=
  meetsBelow hashLe targetLe 32 (Nat.le_refl 32)

/-- A higher digit decides before the rest, which is below its worth. -/
theorem digits_lt {a b k x y : Nat} (ha : a < k) (h : x < y) : a + k * x < b + k * y := by
  have hmul : k * (x + 1) ≤ k * y := Nat.mul_le_mul_left k h
  rw [Nat.mul_succ] at hmul
  omega

/-- The loop compares the numbers that the bytes left to it denote. -/
theorem meetsBelow_iff (h t : Vector UInt8 32) : ∀ (i : Nat) (hi : i ≤ 32),
    meetsBelow h t i hi = true ↔ leValue (h.toList.take i) ≤ leValue (t.toList.take i)
  | 0, _ => by simp [meetsBelow]
  | i + 1, hi => by
      have hlast (v : Vector UInt8 32) : leValue (v.toList.take (i + 1)) =
          leValue (v.toList.take i) + 256 ^ i * v[i].toNat := by
        rw [List.take_succ_eq_append_getElem (by simpa using Nat.lt_of_succ_le hi), leValue_append]
        simp [List.length_take, Nat.le_of_succ_le hi]
      have hlow (v : Vector UInt8 32) : leValue (v.toList.take i) < 256 ^ i := by
        simpa [List.length_take, Nat.le_of_succ_le hi] using leValue_lt (v.toList.take i)
      rw [hlast h, hlast t, meetsBelow]
      cases hcmp : compare h[i] t[i] with
      | lt =>
        have hlt := UInt8.lt_iff_toNat_lt.mp (Std.compare_eq_lt.mp hcmp)
        simpa using (digits_lt (hlow h) hlt).le
      | gt =>
        have hgt := UInt8.lt_iff_toNat_lt.mp (Std.compare_eq_gt.mp hcmp)
        simpa using digits_lt (hlow t) hgt
      | eq =>
        rw [Std.compare_eq_iff_eq.mp hcmp, Nat.add_le_add_iff_right]
        exact meetsBelow_iff h t i _

theorem meetsTarget_iff (h t : Vector UInt8 32) :
    meetsTarget h t = true ↔ leValue h.toList ≤ leValue t.toList := by
  have htake (v : Vector UInt8 32) : v.toList.take 32 = v.toList :=
    List.take_of_length_le (by simp)
  rw [meetsTarget, meetsBelow_iff, htake, htake]

/-! ## Expanding -/

/-- The loop over the bytes of the mantissa, from byte `i` of it on. A
byte goes to position `32 - size + i`. -/
def placeMantissa (size : Nat) : Nat → List UInt8 → Vector UInt8 32 →
    Except String (Vector UInt8 32)
  | _, [], be => .ok be
  | i, b :: bs, be =>
      match (if size ≤ 32 then some (32 - size + i) else none : Option Nat) with
      | some p =>
          if h : p < 32 then placeMantissa size (i + 1) bs (be.set p b h)
          else if b ≠ 0 then .error "target does not fit in 32 bytes"
          else placeMantissa size (i + 1) bs be
      | none =>
          if b ≠ 0 then .error "target does not fit in 32 bytes"
          else placeMantissa size (i + 1) bs be

/-- `expand_target` once the bits are read. -/
def expandCompact (compact : UInt32) : Except String (Vector UInt8 32) :=
  let size := (compact >>> 24).toNat
  let mantissa := compact &&& 0x007fffff
  if compact &&& 0x00800000 ≠ 0 then .error "negative target (sign bit set)"
  else if mantissa = 0 then .error "zero mantissa"
  else if size > 32 ∨ (size < 3 ∧ mantissa >>> (8 * size).toUInt32 ≠ 0) then
    .error s!"target overflows 32 bytes (size {size})"
  else
    -- the first of the four bytes is zero and skipped
    (placeMantissa size 0 ((beBytes 4 mantissa.toNat).drop 1) (Vector.replicate 32 0)).map
      Vector.reverse

/-- `expand_target`. -/
def expandTarget (hex : HexDecoder) (bitsDisplayHex : String) :
    Except String (Vector UInt8 32) :=
  match hex.decode bitsDisplayHex with
  | .error e => .error s!"bad bits hex: {e}"
  | .ok raw =>
    if raw.length ≠ 4 then .error s!"expected 4 bytes of bits, got {raw.length}"
    else expandCompact (UInt32.ofNat (beValue raw))

/-! ## The loop

The bytes at `size` and after it have no position. The others keep their
distance to byte `size`, so their worth is scaled. -/

/-- Nothing is written at byte `i`'s position or after it. -/
def BlankFrom (size i : Nat) (be : Vector UInt8 32) : Prop :=
  ∀ (p : Nat) (h : p < 32), 32 - size + i ≤ p → be[p] = 0

theorem BlankFrom.set {size i : Nat} {be : Vector UInt8 32} (hblank : BlankFrom size i be)
    (b : UInt8) (h : 32 - size + i < 32) :
    BlankFrom size (i + 1) (be.set (32 - size + i) b h) := by
  intro p hp hle
  rw [Vector.getElem_set_ne h hp (by omega)]
  exact hblank p hp (by omega)

theorem BlankFrom.succ {size i : Nat} {be : Vector UInt8 32} (hblank : BlankFrom size i be) :
    BlankFrom size (i + 1) be :=
  fun p hp hle => hblank p hp (by omega)

/-- The two branches of the loop. -/
theorem placeMantissa_cons_of_lt {size i : Nat} (b : UInt8) (bs : List UInt8)
    (be : Vector UInt8 32) (hsize : size ≤ 32) (h : 32 - size + i < 32) :
    placeMantissa size i (b :: bs) be =
      placeMantissa size (i + 1) bs (be.set (32 - size + i) b h) := by
  simp [placeMantissa, hsize, h]

theorem placeMantissa_cons_of_ge {size i : Nat} (b : UInt8) (bs : List UInt8)
    (be : Vector UInt8 32) (hsize : size ≤ 32) (h : size ≤ i) :
    placeMantissa size i (b :: bs) be =
      if b ≠ 0 then .error "target does not fit in 32 bytes"
      else placeMantissa size (i + 1) bs be := by
  have hp : ¬ 32 - size + i < 32 := by omega
  simp [placeMantissa, hsize, hp]

/-- The bytes without a position are those of the remainder. -/
theorem mod_beValue_cons {size i : Nat} (b : UInt8) {bs : List UInt8} (hi : i + bs.length = 2)
    (h : i < size) :
    beValue (b :: bs) % 256 ^ (3 - size) = beValue bs % 256 ^ (3 - size) := by
  have hdvd : 256 ^ (3 - size) ∣ b.toNat * 256 ^ bs.length :=
    Dvd.dvd.mul_left (pow_dvd_pow 256 (by omega)) _
  rw [beValue_cons, Nat.add_comm, Nat.add_mod, Nat.mod_eq_zero_of_dvd hdvd, Nat.add_zero,
    Nat.mod_mod]

theorem mod_beValue_of_le {size i : Nat} {bs : List UInt8} (hi : i + bs.length = 3)
    (h : size ≤ i) : beValue bs % 256 ^ (3 - size) = beValue bs := by
  have hlt : beValue bs < 256 ^ bs.length := by
    simpa [beValue] using leValue_lt bs.reverse
  exact Nat.mod_eq_of_lt (hlt.trans_le (Nat.pow_le_pow_right (by decide) (by omega)))

theorem beValue_eq_zero_of_cons {b : UInt8} {bs : List UInt8} (h : beValue (b :: bs) = 0) :
    b = 0 ∧ beValue bs = 0 := by
  rw [beValue_cons, Nat.add_eq_zero_iff, Nat.mul_eq_zero] at h
  refine ⟨UInt8.toNat_inj.mp (h.1.resolve_right ?_), h.2⟩
  exact (Nat.pow_pos (by decide)).ne'

/-- Where no byte is lost the loop ends, and what it placed is worth the
word at its scale. -/
theorem placeMantissa_ok {size i : Nat} {bs : List UInt8} {be : Vector UInt8 32}
    (hsize : size ≤ 32) (hi : i + bs.length = 3) (hblank : BlankFrom size i be)
    (hkept : beValue bs % 256 ^ (3 - size) = 0) :
    ∃ be', placeMantissa size i bs be = .ok be' ∧
      beValue be'.toList * 256 ^ 3 = beValue be.toList * 256 ^ 3 + beValue bs * 256 ^ size := by
  induction bs generalizing i be with
  | nil => exact ⟨be, rfl, by simp⟩
  | cons b bs ih =>
    have hi' : i + bs.length = 2 := by simpa [← Nat.add_assoc] using hi
    rcases Nat.lt_or_ge i size with hlt | hge
    · have hpos : 32 - size + i < 32 := by omega
      rw [mod_beValue_cons b hi' hlt] at hkept
      obtain ⟨be', hrun, hvalue⟩ := ih (by omega) (hblank.set b hpos) hkept
      refine ⟨be', by rw [placeMantissa_cons_of_lt b bs be hsize hpos, hrun], ?_⟩
      have hset : beValue (be.toList.set (32 - size + i) b) = beValue be.toList +
          b.toNat * 256 ^ (be.toList.length - 1 - (32 - size + i)) :=
        beValue_set (by simpa using hpos) (by simpa using hblank _ hpos (Nat.le_refl _)) b
      have hscale : 256 ^ (31 - (32 - size + i)) * 256 ^ 3 = 256 ^ bs.length * 256 ^ size := by
        rw [← pow_add, ← pow_add]
        congr 1
        omega
      rw [hvalue, Vector.toList_set, hset, Vector.length_toList, beValue_cons, Nat.add_mul,
        Nat.mul_assoc, hscale]
      ring
    · rw [mod_beValue_of_le hi hge] at hkept
      obtain ⟨rfl, hrest⟩ := beValue_eq_zero_of_cons hkept
      obtain ⟨be', hrun, hvalue⟩ := ih (by omega) hblank.succ (by simp [hrest])
      refine ⟨be', by rw [placeMantissa_cons_of_ge 0 bs be hsize hge]; simpa using hrun, ?_⟩
      rw [hvalue, hrest, hkept]

/-- Where a byte is lost it is refused. -/
theorem placeMantissa_error {size i : Nat} {bs : List UInt8} {be : Vector UInt8 32}
    (hsize : size ≤ 32) (hi : i + bs.length = 3) (hlost : beValue bs % 256 ^ (3 - size) ≠ 0) :
    ∃ e, placeMantissa size i bs be = .error e := by
  induction bs generalizing i be with
  | nil => simp at hlost
  | cons b bs ih =>
    have hi' : i + bs.length = 2 := by simpa [← Nat.add_assoc] using hi
    rcases Nat.lt_or_ge i size with hlt | hge
    · have hpos : 32 - size + i < 32 := by omega
      rw [mod_beValue_cons b hi' hlt] at hlost
      rw [placeMantissa_cons_of_lt b bs be hsize hpos]
      exact ih (by omega) hlost
    · rw [placeMantissa_cons_of_ge b bs be hsize hge]
      by_cases hb : b = 0
      · subst hb
        have hrest : beValue (0 :: bs) = beValue bs := by simp [beValue_cons]
        rw [mod_beValue_of_le hi hge, hrest] at hlost
        have hi'' : i + 1 + bs.length = 3 := by omega
        rw [← mod_beValue_of_le hi'' (Nat.le_succ_of_le hge)] at hlost
        simpa using ih (by omega) hlost
      · exact ⟨_, if_pos hb⟩

/-! ## What a compact value denotes -/

def sizeByte (compact : UInt32) : Nat := compact.toNat / 2 ^ 24

def signBit (compact : UInt32) : Bool := compact.toNat / 2 ^ 23 % 2 = 1

def word (compact : UInt32) : Nat := compact.toNat % 2 ^ 23

/-- A word of three bytes at the size, what is below a unit cut off. -/
def magnitude (size word : Nat) : Nat :=
  if size ≤ 3 then word / 256 ^ (3 - size) else word * 256 ^ (size - 3)

/-- `SetCompact`. -/
def setCompact (compact : UInt32) : Int :=
  if signBit compact then -(magnitude (sizeByte compact) (word compact) : Int)
  else magnitude (sizeByte compact) (word compact)

/-- A target: above zero, and of 256 bits. -/
def IsTarget (compact : UInt32) : Prop := 0 < setCompact compact ∧ setCompact compact < 2 ^ 256

theorem isTarget_iff (compact : UInt32) : IsTarget compact ↔
    signBit compact = false ∧ 0 < magnitude (sizeByte compact) (word compact) ∧
      magnitude (sizeByte compact) (word compact) < 2 ^ 256 := by
  unfold IsTarget setCompact
  cases signBit compact with
  | true => simp
  | false => simp

/-! ## The fields, as the code takes them -/

theorem word_lt (compact : UInt32) : word compact < 2 ^ 23 := Nat.mod_lt _ (by decide)

theorem toNat_shiftRight_24 (compact : UInt32) : (compact >>> 24).toNat = sizeByte compact := by
  rw [UInt32.toNat_shiftRight, Nat.shiftRight_eq_div_pow]
  rfl

theorem toNat_mantissa (compact : UInt32) :
    (compact &&& 0x007fffff).toNat = word compact := by
  rw [UInt32.toNat_and]
  exact Nat.and_two_pow_sub_one_eq_mod compact.toNat 23

theorem and_two_pow_eq_zero_iff (x n : Nat) : x &&& 2 ^ n = 0 ↔ x.testBit n = false := by
  constructor
  · intro h
    simpa using congrArg (Nat.testBit · n) h
  · intro h
    apply Nat.eq_of_testBit_eq
    intro i
    by_cases hi : n = i
    · subst hi
      simp [h]
    · simp [hi]

theorem sign_ne_zero_iff (compact : UInt32) :
    compact &&& 0x00800000 ≠ 0 ↔ signBit compact = true := by
  have hbit : compact.toNat.testBit 23 = signBit compact := by
    rw [Nat.testBit_eq_decide_div_mod_eq, signBit]
  rw [Ne, ← UInt32.toNat_inj, UInt32.toNat_and]
  change ¬ compact.toNat &&& 2 ^ 23 = 0 ↔ _
  rw [and_two_pow_eq_zero_iff, hbit, Bool.not_eq_false]

/-- A short size keeps the high bytes of the word. -/
theorem shifted_ne_zero_iff (compact : UInt32) (h : sizeByte compact < 3) :
    (compact &&& 0x007fffff) >>> (8 * sizeByte compact).toUInt32 ≠ 0 ↔
      256 ^ sizeByte compact ≤ word compact := by
  have hshift : (8 * sizeByte compact).toUInt32.toNat = 8 * sizeByte compact := by
    rw [Nat.toUInt32_eq, UInt32.toNat_ofNat']
    omega
  rw [Ne, ← UInt32.toNat_inj, UInt32.toNat_shiftRight, toNat_mantissa, hshift,
    Nat.mod_eq_of_lt (by omega : 8 * sizeByte compact < 32), Nat.shiftRight_eq_div_pow, pow_mul,
    UInt32.toNat_zero, Nat.div_eq_zero_iff]
  have hpos : 256 ^ sizeByte compact ≠ 0 := (Nat.pow_pos (by decide)).ne'
  have hbase : (2 ^ 8 : Nat) = 256 := rfl
  rw [hbase]
  omega

/-! ## Where it answers -/

/-- The checks of `expand_target` and of its loop, on the fields. -/
structure Expands (compact : UInt32) : Prop where
  unsigned : signBit compact = false
  word_ne : word compact ≠ 0
  size_le : sizeByte compact ≤ 32
  short : sizeByte compact < 3 → word compact < 256 ^ sizeByte compact
  kept : word compact % 256 ^ (3 - sizeByte compact) = 0

theorem mantissaBytes (compact : UInt32) :
    (beBytes 4 (compact &&& 0x007fffff).toNat).drop 1 = beBytes 3 (word compact) := by
  rw [beBytes_succ, toNat_mantissa]
  rfl

/-- What the loop placed is the magnitude. -/
theorem eq_magnitude {size word value : Nat} (hkept : word % 256 ^ (3 - size) = 0)
    (h : value * 256 ^ 3 = word * 256 ^ size) : value = magnitude size word := by
  have hpos : 0 < 256 ^ 3 := by decide
  unfold magnitude
  split
  · rename_i hle
    apply Nat.eq_of_mul_eq_mul_right hpos
    have hdiv := Nat.div_mul_cancel (Nat.dvd_of_mod_eq_zero hkept)
    rw [h, ← hdiv, Nat.mul_assoc, ← pow_add, Nat.sub_add_cancel hle,
      Nat.mul_div_cancel _ (Nat.pow_pos (by decide))]
  · rename_i hgt
    apply Nat.eq_of_mul_eq_mul_right hpos
    rw [h, Nat.mul_assoc, ← pow_add, Nat.sub_add_cancel (by omega)]

theorem expandCompact_ok {compact : UInt32} (h : Expands compact) :
    ∃ target, expandCompact compact = .ok target ∧
      leValue target.toList = magnitude (sizeByte compact) (word compact) := by
  have hvalue : beValue (beBytes 3 (word compact)) = word compact :=
    beValue_beBytes ((word_lt compact).trans (by decide))
  have hmantissa : compact &&& 0x007fffff ≠ 0 := by
    rw [Ne, ← UInt32.toNat_inj, toNat_mantissa]
    exact h.word_ne
  have hfits : ¬ (sizeByte compact > 32 ∨ (sizeByte compact < 3 ∧
      (compact &&& 0x007fffff) >>> (8 * sizeByte compact).toUInt32 ≠ 0)) := by
    rintro (hlarge | ⟨hsmall, hshifted⟩)
    · exact absurd h.size_le (by omega)
    · exact absurd (h.short hsmall) (not_lt.mpr ((shifted_ne_zero_iff compact hsmall).mp hshifted))
  obtain ⟨be, hrun, hplaced⟩ := @placeMantissa_ok (sizeByte compact) 0 (beBytes 3 (word compact))
    (Vector.replicate 32 0) h.size_le (by simp) (by intro p hp _; simp)
    (by rw [hvalue]; exact h.kept)
  refine ⟨be.reverse, ?_, ?_⟩
  · simp only [expandCompact, toNat_shiftRight_24, mantissaBytes, sign_ne_zero_iff, h.unsigned,
      hmantissa, hfits, hrun, if_false, Except.map]
    simp
  · rw [hvalue] at hplaced
    apply eq_magnitude h.kept
    simpa [beValue] using hplaced

theorem expandCompact_error {compact : UInt32} (h : ¬ Expands compact) :
    ∃ e, expandCompact compact = .error e := by
  simp only [expandCompact, toNat_shiftRight_24, mantissaBytes, sign_ne_zero_iff]
  split
  · exact ⟨_, rfl⟩
  · rename_i hsign
    split
    · exact ⟨_, rfl⟩
    · rename_i hword
      split
      · exact ⟨_, rfl⟩
      · rename_i hfits
        have hsize : sizeByte compact ≤ 32 := by omega
        have hlost : word compact % 256 ^ (3 - sizeByte compact) ≠ 0 := by
          intro hkept
          refine h ⟨by simpa using hsign, ?_, hsize, fun hsmall => ?_, hkept⟩
          · rw [← toNat_mantissa]
            exact fun hzero => hword (UInt32.toNat_inj.mp hzero)
          · rw [← not_le, ← shifted_ne_zero_iff compact hsmall]
            exact fun hshifted => hfits (.inr ⟨hsmall, hshifted⟩)
        obtain ⟨e, he⟩ := @placeMantissa_error (sizeByte compact) 0 (beBytes 3 (word compact))
          (Vector.replicate 32 0) hsize (by simp)
          (by rwa [beValue_beBytes ((word_lt compact).trans (by decide))])
        exact ⟨e, by rw [he]; rfl⟩

/-- A target that the checks refuse. At sizes 33 and 34 the word has zero
bytes in front, at sizes 1 and 2 bytes below a unit. -/
def Misread (compact : UInt32) : Prop :=
  signBit compact = false ∧
    ((sizeByte compact = 34 ∧ 0 < word compact ∧ word compact ≤ 0xff) ∨
      (sizeByte compact = 33 ∧ 0 < word compact ∧ word compact ≤ 0xffff) ∨
      (sizeByte compact = 2 ∧ 0x100 ≤ word compact ∧
        (0x10000 ≤ word compact ∨ word compact % 0x100 ≠ 0)) ∨
      (sizeByte compact = 1 ∧ 0x10000 ≤ word compact))

theorem magnitude_pos {size word : Nat} (hword : word ≠ 0) (hkept : word % 256 ^ (3 - size) = 0) :
    0 < magnitude size word := by
  unfold magnitude
  split
  · exact Nat.div_pos (Nat.le_of_dvd (Nat.pos_of_ne_zero hword) (Nat.dvd_of_mod_eq_zero hkept))
      (Nat.pow_pos (by decide))
  · exact Nat.mul_pos (Nat.pos_of_ne_zero hword) (Nat.pow_pos (by decide))

theorem Expands.isTarget {compact : UInt32} (h : Expands compact) : IsTarget compact := by
  obtain ⟨target, -, hvalue⟩ := expandCompact_ok h
  have hlt := leValue_lt target.toList
  rw [hvalue, Vector.length_toList] at hlt
  exact (isTarget_iff compact).mpr ⟨h.unsigned, magnitude_pos h.word_ne h.kept, hlt⟩

theorem word_ne_of_magnitude {size word : Nat} (h : 0 < magnitude size word) : word ≠ 0 := by
  rintro rfl
  simp [magnitude] at h

/-- From size 35 on only a zero word fits. -/
theorem magnitude_large {size word : Nat} (hword : 0 < word) (h : 35 ≤ size) :
    2 ^ 256 ≤ magnitude size word := by
  have hpow : 256 ^ 32 ≤ 256 ^ (size - 3) := Nat.pow_le_pow_right (by decide) (by omega)
  rw [magnitude, if_neg (by omega)]
  exact hpow.trans (Nat.le_mul_of_pos_left _ hword)

theorem expands_iff (compact : UInt32) : Expands compact ↔
    signBit compact = false ∧ word compact ≠ 0 ∧ sizeByte compact ≤ 32 ∧
      (sizeByte compact < 3 → word compact < 256 ^ sizeByte compact) ∧
      word compact % 256 ^ (3 - sizeByte compact) = 0 :=
  ⟨fun h => ⟨h.unsigned, h.word_ne, h.size_le, h.short, h.kept⟩,
    fun ⟨h1, h2, h3, h4, h5⟩ => ⟨h1, h2, h3, h4, h5⟩⟩

theorem misread_iff (compact : UInt32) :
    Misread compact ↔ IsTarget compact ∧ ¬ Expands compact := by
  have hword := word_lt compact
  rw [isTarget_iff, expands_iff, Misread]
  cases signBit compact with
  | true => simp
  | false =>
    generalize sizeByte compact = size at *
    generalize word compact = word at *
    simp only [true_and]
    rcases Nat.lt_or_ge size 3 with hsmall | hmid
    · obtain rfl | rfl | rfl : size = 0 ∨ size = 1 ∨ size = 2 := by omega
      all_goals simp [magnitude]; omega
    · have hcut : word % 256 ^ (3 - size) = 0 := by
        rw [Nat.sub_eq_zero_of_le hmid, Nat.pow_zero, Nat.mod_one]
      rcases Nat.lt_or_ge 32 size with hlarge | hfits
      · obtain rfl | rfl | hover : size = 33 ∨ size = 34 ∨ 35 ≤ size := by omega
        · simp [magnitude]; omega
        · simp [magnitude]; omega
        · constructor
          · omega
          · rintro ⟨⟨hpos, hlt⟩, -⟩
            have hword := Nat.pos_of_ne_zero (word_ne_of_magnitude hpos)
            exact absurd (magnitude_large hword hover) (not_le.mpr hlt)
      · constructor
        · omega
        · rintro ⟨⟨hpos, -⟩, hnot⟩
          exact absurd ⟨word_ne_of_magnitude hpos, hfits, by omega, hcut⟩ hnot

/-! ## The rules of `nBits` -/

/-- Every text of the compact value expands to the target it denotes, or
to an error if that is none. -/
def FollowsSetCompact (hex : HexDecoder) (compact : UInt32) : Prop :=
  ∀ bits, hex.decode bits = .ok (beBytes 4 compact.toNat) →
    (IsTarget compact → ∃ target, expandTarget hex bits = .ok target ∧
      (leValue target.toList : Int) = setCompact compact) ∧
    (¬ IsTarget compact → ∃ e, expandTarget hex bits = .error e)

theorem expandTarget_of_decode {hex : HexDecoder} {bits : String} {compact : UInt32}
    (h : hex.decode bits = .ok (beBytes 4 compact.toNat)) :
    expandTarget hex bits = expandCompact compact := by
  have hvalue : beValue (beBytes 4 compact.toNat) = compact.toNat :=
    beValue_beBytes compact.toNat_lt
  simp [expandTarget, h, hvalue]

theorem followsSetCompact_iff (hex : HexDecoder) (compact : UInt32) :
    FollowsSetCompact hex compact ↔ (IsTarget compact → Expands compact) := by
  constructor
  · intro hfollows htarget
    by_contra hnot
    have htext := hex.decode_ofList (beBytes 4 compact.toNat)
    obtain ⟨target, hok, -⟩ := (hfollows _ htext).1 htarget
    obtain ⟨e, herror⟩ := expandCompact_error hnot
    rw [expandTarget_of_decode htext, herror] at hok
    cases hok
  · intro himp bits hbits
    rw [expandTarget_of_decode hbits]
    constructor
    · intro htarget
      have hexpands := himp htarget
      obtain ⟨target, hok, hvalue⟩ := expandCompact_ok hexpands
      exact ⟨target, hok, by simp [setCompact, hexpands.unsigned, hvalue]⟩
    · intro hnone
      exact expandCompact_error fun hexpands => hnone hexpands.isTarget

/-- The expansion is that of `SetCompact` for every compact value outside
the four kinds, and the comparison that of the numbers for all. -/
theorem target_rules (hex : HexDecoder) (compact : UInt32) (hashLe targetLe : Vector UInt8 32) :
    (FollowsSetCompact hex compact ↔ ¬ Misread compact) ∧
      (meetsTarget hashLe targetLe = true ↔ leValue hashLe.toList ≤ leValue targetLe.toList) := by
  refine ⟨?_, meetsTarget_iff hashLe targetLe⟩
  rw [followsSetCompact_iff, misread_iff, not_and_not_right]

/-- `2100ffff` is a target of exactly 256 bits. -/
theorem longest_word_refused : ¬ FollowsSetCompact HexDecoder.plain 0x2100ffff := by
  intro hfollows
  obtain ⟨target, hok, -⟩ := (hfollows "2100ffff" (by decide +kernel)).1
    (by unfold IsTarget; decide +kernel)
  have hrefused : expandTarget HexDecoder.plain "2100ffff" =
      .error "target overflows 32 bytes (size 33)" := by decide +kernel
  rw [hrefused] at hok
  cases hok

end ZcashFaucet.Miner
