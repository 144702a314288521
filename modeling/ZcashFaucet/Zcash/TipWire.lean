/-
ZcashFaucet.Zcash.TipWire — the two hand-written readers of protobuf:
`heightFromBlockID` of `externalTip.ts` and `hashFromCompactBlock` of
`externalBlock.ts`.

Both walk the fields of a message with an index into the buffer. One
iteration of the loop is a step (`heightStep`, `hashStep`) and `walk`
runs it, on fuel, because the step may move the index back: a length is
put together with 32-bit operations, so it can be negative, and neither
reader looks at its sign. An index before the buffer reads `undefined`,
which the bit operators take as 0.

`walk_advances_iff` is when that does not happen: exactly when no length
prefix the walk comes to is, as a signed 32-bit number, as far below zero
as the prefix and its tag are long. Then the walk ends within the length
of the buffer.
-/
import Mathlib.Order.WithBot
import ZcashFaucet.Lib.Hex

namespace ZcashFaucet.Zcash

open Lib

/-! ## Buffers and numbers -/

/-- `Buffer`. -/
abbrev Buffer := List UInt8

/-- `buf[i]` as an operand of a bit operator. -/
def byteAt (buf : Buffer) (i : Int) : Nat :=
  if 0 ≤ i then ((buf[i.toNat]?).map UInt8.toNat).getD 0 else 0

/-- `Number(v)` for a BigInt that is not negative: the nearest double,
ties to even, and `⊤` for Infinity. -/
def bigIntToNumber (v : Nat) : WithTop Nat :=
  let unit := 2 ^ (v.log2 - 52)
  let q := v / unit
  let r := v % unit
  let rounded := if 2 * r < unit ∨ (2 * r = unit ∧ q % 2 = 0) then q * unit else (q + 1) * unit
  if rounded < 2 ^ 1024 then rounded else ⊤

/-! ## The inner loops -/

/-- `for (;;) { if (i >= buf.length) return null; const b = buf[i++]!; …;
if (!(b & 0x80)) break; s += 7; }`, where `add` is what is done with `b`.
The first argument is what is left of the buffer, so it is 0 exactly when
`i >= buf.length`. -/
def varintLoop {α : Type} (buf : Buffer) (add : α → Nat → Nat → α) : Nat → Int → α → Nat → Option (α × Int)
  | 0, _, _, _ => none
  | left + 1, i, acc, s =>
      let b := byteAt buf i
      if b &&& 0x80 = 0 then some (add acc b s, i + 1)
      else varintLoop buf add left (i + 1) (add acc b s) (s + 7)

/-- The loop from `i` on. -/
def readVarint {α : Type} (buf : Buffer) (add : α → Nat → Nat → α) (start : α) (i : Int) :
    Option (α × Int) :=
  varintLoop buf add (buf.length - i).toNat i start 0

/-- `v |= BigInt(b & 0x7f) << shift`. -/
def addBigInt (v b shift : Nat) : Nat := v ||| ((b &&& 0x7F) <<< shift)

/-- `len |= (b & 0x7f) << s`: both sides are 32 bits wide, and of the
shift count only five bits are used. -/
def addInt32 (len : BitVec 32) (b s : Nat) : BitVec 32 :=
  len ||| (BitVec.ofNat 32 (b &&& 0x7F) <<< (s % 32))

def readHeight (buf : Buffer) (i : Int) : Option (Nat × Int) := readVarint buf addBigInt 0 i

def readLength (buf : Buffer) (i : Int) : Option (BitVec 32 × Int) := readVarint buf addInt32 0 i

/-- A varint that nobody wants. -/
def skipVarint (buf : Buffer) (i : Int) : Option (Unit × Int) := readVarint buf (fun _ _ _ => ()) () i

/-! ## The field loops -/

/-- What an iteration does: it returns, or goes on with an index. -/
inductive WalkStep (ρ : Type)
  | returns (r : ρ)
  | next (i : Int)
  deriving DecidableEq

/-- Pull the height (field 1 varint) out of a serialized BlockID: one
iteration. -/
def heightStep (buf : Buffer) (i : Int) : WalkStep (Option (WithTop Nat)) :=
  if (buf.length : Int) ≤ i then .returns none
  else
    let tag := byteAt buf i
    let field := tag >>> 3
    let wire := tag &&& 7
    let i := i + 1
    if field = 1 ∧ wire = 0 then
      match readHeight buf i with
      | none => .returns none
      | some (v, _) => .returns (some (bigIntToNumber v))
    else if wire = 2 then
      match readLength buf i with
      | none => .returns none
      | some (len, i) => .next (i + len.toInt)
    else if wire = 0 then
      match skipVarint buf i with
      | none => .returns none
      | some (_, i) => .next i
    else .returns none

/-- The `hash` out of a CompactBlock, in display order: one iteration. -/
def hashStep (buf : Buffer) (i : Int) : WalkStep (Option JsString) :=
  if (buf.length : Int) ≤ i then .returns none
  else
    let tag := byteAt buf i
    let field := tag >>> 3
    let wire := tag &&& 7
    let i := i + 1
    if wire = 2 then
      match readLength buf i with
      | none => .returns none
      | some (len, i) =>
          if (buf.length : Int) < i + len.toInt then .returns none
          else if field = 3 then
            if len.toInt ≠ 32 then .returns none
            else .returns (some (encodeHex ((buf.drop i.toNat).take 32).reverse))
          else .next (i + len.toInt)
    else if wire = 0 then
      match skipVarint buf i with
      | none => .returns none
      | some (_, i) => .next i
    else if wire = 5 then .next (i + 4)
    else if wire = 1 then .next (i + 8)
    else .returns none

/-- The loop. -/
def walk {ρ : Type} (step : Int → WalkStep ρ) : Nat → Int → Option ρ
  | 0, _ => none
  | fuel + 1, i =>
      match step i with
      | .returns r => some r
      | .next j => walk step fuel j

def heightFromBlockID (buf : Buffer) (fuel : Nat) : Option (Option (WithTop Nat)) :=
  walk (heightStep buf) fuel 0

def hashFromCompactBlock (buf : Buffer) (fuel : Nat) : Option (Option JsString) :=
  walk (hashStep buf) fuel 0

/-- A BlockID carrying only a height: the bytes after the tag. -/
def encodeHeightLoop (v : Nat) : List UInt8 :=
  if v >>> 7 = 0 then [(v &&& 0x7F).toUInt8]
  else ((v &&& 0x7F) ||| 0x80).toUInt8 :: encodeHeightLoop (v >>> 7)
termination_by v
decreasing_by
  rw [Nat.shiftRight_eq_div_pow] at *
  omega

/-- A BlockID carrying only a height: field 1, varint. A height is a
natural number, which `Math.floor` leaves alone. -/
def encodeBlockIDHeight (height : Nat) : Buffer := 0x08 :: encodeHeightLoop height

example : heightFromBlockID [0x12, 0x01, 0xFF, 0x08, 0xAC, 0x02] 7 = some (some 300) := by
  decide +kernel

/-! ## When the walks end -/

/-- The indexes the loop comes to. -/
inductive Reaches {ρ : Type} (step : Int → WalkStep ρ) : Int → Prop
  | start : Reaches step 0
  | next {i j : Int} (hi : Reaches step i) (hstep : step i = .next j) : Reaches step j

/-- Every iteration moves the index forward, and so the loop is over
after as many iterations as the buffer has bytes. -/
structure Advances {ρ : Type} (buf : Buffer) (step : Int → WalkStep ρ) : Prop where
  increases : ∀ i j, Reaches step i → step i = .next j → i < j
  ends : ∃ r, walk step (buf.length + 1) 0 = some r

/-- If a length-delimited field starts at the index, its length prefix is
below 2 ^ 31 as an unsigned 32-bit number, or else not so far below
2 ^ 32 that the skip undoes the reading of the tag and the prefix. -/
def PrefixFits (buf : Buffer) (i : Int) : Prop :=
  ∀ len j, byteAt buf i &&& 7 = 2 → readLength buf (i + 1) = some (len, j) →
    len.toNat < 2 ^ 31 ∨ 2 ^ 32 < (len.toNat : Int) + (j - i)

/-- An inner loop that finds the last byte has read one byte at least, and
none from after the buffer. -/
theorem varintLoop_index {α : Type} {buf : Buffer} {add : α → Nat → Nat → α} {left : Nat} {i j : Int}
    {acc x : α} {s : Nat} (h : varintLoop buf add left i acc s = some (x, j)) :
    i < j ∧ j ≤ i + left := by
  induction left generalizing i acc s with
  | zero => cases h
  | succ left ih =>
    simp only [varintLoop] at h
    split at h
    · cases h
      omega
    · have := ih h
      omega

theorem readVarint_index {α : Type} {buf : Buffer} {add : α → Nat → Nat → α} {start x : α} {i j : Int}
    (h : readVarint buf add start i = some (x, j)) : i < j ∧ j ≤ buf.length := by
  have hindex := varintLoop_index h
  omega

/-- A signed 32-bit skip goes forward exactly when the prefix fits. -/
theorem lt_add_toInt_iff (len : BitVec 32) (i j : Int) (hij : i < j) :
    i < j + len.toInt ↔ len.toNat < 2 ^ 31 ∨ 2 ^ 32 < (len.toNat : Int) + (j - i) := by
  have hlt := len.isLt
  rw [BitVec.toInt_eq_toNat_cond]
  split <;> omega

/-- A loop that always moves forward ends. -/
theorem walk_ends {ρ : Type} {buf : Buffer} {step : Int → WalkStep ρ}
    (hinc : ∀ i j, Reaches step i → step i = .next j → i < j)
    (hstop : ∀ i : Int, buf.length ≤ i → ∃ r, step i = .returns r) :
    ∀ (fuel : Nat) (i : Int), Reaches step i → (buf.length - i).toNat < fuel →
      ∃ r, walk step fuel i = some r := by
  intro fuel
  induction fuel with
  | zero => intro i _ hlt; omega
  | succ fuel ih =>
    intro i hi hlt
    cases hstep : step i with
    | returns r => exact ⟨r, by simp [walk, hstep]⟩
    | next j =>
      have hij := hinc i j hi hstep
      have hin : i < buf.length := by
        by_contra hout
        obtain ⟨r, hr⟩ := hstop i (not_lt.mp hout)
        rw [hstep] at hr
        cases hr
      obtain ⟨r, hr⟩ := ih j (hi.next hstep) (by omega)
      exact ⟨r, by simpa [walk, hstep] using hr⟩

theorem advances_of_increases {ρ : Type} {buf : Buffer} {step : Int → WalkStep ρ}
    (hstop : ∀ i : Int, buf.length ≤ i → ∃ r, step i = .returns r)
    (hinc : ∀ i j, Reaches step i → step i = .next j → i < j) : Advances buf step :=
  ⟨hinc, walk_ends hinc hstop _ 0 .start (by omega)⟩

section
variable {buf : Buffer} {i j : Int}

/-- Behind a length-delimited field the height reader goes on. -/
theorem heightStep_delimited {len : BitVec 32} {k : Int} (hwire : byteAt buf i &&& 7 = 2)
    (hread : readLength buf (i + 1) = some (len, k)) :
    heightStep buf i = .next (k + len.toInt) := by
  have hindex := readVarint_index hread
  have hin : ¬ (buf.length : Int) ≤ i := by omega
  simp [heightStep, hin, hwire, hread]

/-- Otherwise it only goes forward. -/
theorem heightStep_next (h : heightStep buf i = .next j) :
    i < j ∨ ∃ len k, byteAt buf i &&& 7 = 2 ∧ readLength buf (i + 1) = some (len, k) ∧
      j = k + len.toInt := by
  simp only [heightStep] at h
  split at h
  · cases h
  · split at h
    · split at h <;> cases h
    · split at h
      · rename_i hwire
        split at h
        · cases h
        · rename_i len k hread
          cases h
          exact Or.inr ⟨len, k, hwire, hread, rfl⟩
      · split at h
        · split at h
          · cases h
          · rename_i hread
            cases h
            have := readVarint_index hread
            exact Or.inl (by omega)
        · cases h

/-- The hash reader returns at a field 3, and at a field that ends behind
the buffer; behind any other length-delimited field it goes on. -/
theorem hashStep_delimited {len : BitVec 32} {k : Int} (hwire : byteAt buf i &&& 7 = 2)
    (hread : readLength buf (i + 1) = some (len, k)) (hfield : byteAt buf i >>> 3 ≠ 3)
    (hfits : k + len.toInt ≤ buf.length) : hashStep buf i = .next (k + len.toInt) := by
  have hindex := readVarint_index hread
  have hin : ¬ (buf.length : Int) ≤ i := by omega
  simp [hashStep, hin, hwire, hread, hfield, not_lt.mpr hfits]

theorem hashStep_next (h : hashStep buf i = .next j) :
    i < j ∨ ∃ len k, byteAt buf i &&& 7 = 2 ∧ byteAt buf i >>> 3 ≠ 3 ∧
      readLength buf (i + 1) = some (len, k) ∧ j = k + len.toInt := by
  simp only [hashStep] at h
  split at h
  · cases h
  · split at h
    · rename_i hwire
      split at h
      · cases h
      · rename_i len k hread
        split at h
        · cases h
        · split at h
          · split at h <;> cases h
          · rename_i hfield
            cases h
            exact Or.inr ⟨len, k, hwire, hfield, hread, rfl⟩
    · split at h
      · split at h
        · cases h
        · rename_i hread
          cases h
          have := readVarint_index hread
          exact Or.inl (by omega)
      · split at h
        · cases h
          exact Or.inl (by omega)
        · split at h
          · cases h
            exact Or.inl (by omega)
          · cases h

end

theorem heightStep_stops (buf : Buffer) (i : Int) (h : buf.length ≤ i) :
    ∃ r, heightStep buf i = .returns r := ⟨none, by simp [heightStep, h]⟩

theorem hashStep_stops (buf : Buffer) (i : Int) (h : buf.length ≤ i) :
    ∃ r, hashStep buf i = .returns r := ⟨none, by simp [hashStep, h]⟩

/-- **When the walks end.** Each reader moves forward in every iteration,
and ends within the length of the buffer, exactly when the length
prefixes it comes to fit. The hash reader has no skip to make at a field
3, whose length must be 32. -/
theorem walk_advances_iff (buf : Buffer) :
    (Advances buf (heightStep buf) ↔ ∀ i, Reaches (heightStep buf) i → PrefixFits buf i) ∧
      (Advances buf (hashStep buf) ↔
        ∀ i, Reaches (hashStep buf) i → byteAt buf i >>> 3 ≠ 3 → PrefixFits buf i) := by
  constructor
  · constructor
    · intro hadv i hi len k hwire hread
      have hindex := readVarint_index hread
      rw [← lt_add_toInt_iff len i k (by omega)]
      exact hadv.increases i _ hi (heightStep_delimited hwire hread)
    · intro hfits
      refine advances_of_increases (heightStep_stops buf) fun i j hi hstep => ?_
      rcases heightStep_next hstep with hlt | ⟨len, k, hwire, hread, rfl⟩
      · exact hlt
      · have hindex := readVarint_index hread
        exact (lt_add_toInt_iff len i k (by omega)).mpr (hfits i hi len k hwire hread)
  · constructor
    · intro hadv i hi hfield len k hwire hread
      have hindex := readVarint_index hread
      rw [← lt_add_toInt_iff len i k (by omega)]
      by_cases hend : k + len.toInt ≤ buf.length
      · exact hadv.increases i _ hi (hashStep_delimited hwire hread hfield hend)
      · omega
    · intro hfits
      refine advances_of_increases (hashStep_stops buf) fun i j hi hstep => ?_
      rcases hashStep_next hstep with hlt | ⟨len, k, hwire, hfield, hread, rfl⟩
      · exact hlt
      · have hindex := readVarint_index hread
        exact (lt_add_toInt_iff len i k (by omega)).mpr (hfits i hi hfield len k hwire hread)

/-- A field 2 whose length is -6, one back over the prefix and the tag. -/
def backToStart : Buffer := [0x12, 0xFA, 0xFF, 0xFF, 0xFF, 0x0F]

/-- On it both readers come back to where they started, and never return. -/
theorem walk_never_ends :
    (¬ Advances backToStart (heightStep backToStart) ∧
        ∀ fuel, heightFromBlockID backToStart fuel = none) ∧
      (¬ Advances backToStart (hashStep backToStart) ∧
        ∀ fuel, hashFromCompactBlock backToStart fuel = none) := by
  have hheight : heightStep backToStart 0 = .next 0 := by decide +kernel
  have hhash : hashStep backToStart 0 = .next 0 := by decide +kernel
  refine ⟨⟨fun hadv => ?_, fun fuel => ?_⟩, fun hadv => ?_, fun fuel => ?_⟩
  · exact absurd (hadv.increases 0 0 .start hheight) (by omega)
  · induction fuel with
    | zero => rfl
    | succ fuel ih => simpa [heightFromBlockID, walk, hheight] using ih
  · exact absurd (hadv.increases 0 0 .start hhash) (by omega)
  · induction fuel with
    | zero => rfl
    | succ fuel ih => simpa [hashFromCompactBlock, walk, hhash] using ih

end ZcashFaucet.Zcash
