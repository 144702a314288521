/-
ZcashFaucet.Lib.WireRead — reading a byte string from its front.

A reader returns what it read and the bytes after it. `takeExact` takes a
field of known length, `readWide` a number of known width, and `readSize`
a CompactSize: one byte, or a marker and two, four or eight bytes. The
wider forms can hold numbers that have a shorter one, which a strict
reader refuses. Each reader has its two lemmas: what was written is read
back, and what was read was written so.
-/
import ZcashFaucet.Lib.Bytes

namespace ZcashFaucet.Lib

/-! ## Fields of known length -/

/-- `n` bytes off the front. -/
def takeExact (n : Nat) (bs : List UInt8) : Option (List UInt8 × List UInt8) :=
  if n ≤ bs.length then some (bs.take n, bs.drop n) else none

theorem takeExact_append {as : List UInt8} {n : Nat} (h : as.length = n) (rest : List UInt8) :
    takeExact n (as ++ rest) = some (as, rest) := by
  subst h
  simp [takeExact]

theorem eq_append_of_takeExact {n : Nat} {bs as rest : List UInt8}
    (h : takeExact n bs = some (as, rest)) : bs = as ++ rest ∧ as.length = n := by
  unfold takeExact at h
  split at h
  · rename_i hle
    obtain ⟨rfl, rfl⟩ := Prod.mk.inj (Option.some.inj h)
    exact ⟨(List.take_append_drop n bs).symm, List.length_take_of_le hle⟩
  · cases h

/-! ## Numbers of known width -/

/-- A number of `w` bytes, the low one first, refused below `least`. -/
def readWide (w least : Nat) (bs : List UInt8) : Option (Nat × List UInt8) :=
  match takeExact w bs with
  | some (as, rest) => if least ≤ leValue as then some (leValue as, rest) else none
  | none => none

theorem readWide_leBytes {w least n : Nat} (hleast : least ≤ n) (hlt : n < 256 ^ w)
    (rest : List UInt8) : readWide w least (leBytes w n ++ rest) = some (n, rest) := by
  rw [readWide, takeExact_append (length_leBytes w n)]
  simp [leValue_leBytes hlt, hleast]

theorem eq_append_of_readWide {w least n : Nat} {bs rest : List UInt8}
    (h : readWide w least bs = some (n, rest)) :
    bs = leBytes w n ++ rest ∧ least ≤ n ∧ n < 256 ^ w := by
  unfold readWide at h
  cases htake : takeExact w bs with
  | none => simp [htake] at h
  | some taken =>
    obtain ⟨as, rest'⟩ := taken
    obtain ⟨hbs, hlen⟩ := eq_append_of_takeExact htake
    simp only [htake] at h
    split at h
    · rename_i hleast
      obtain ⟨rfl, rfl⟩ := Prod.mk.inj (Option.some.inj h)
      have hback := leBytes_leValue as
      have hlt := leValue_lt as
      rw [hlen] at hback hlt
      exact ⟨by rw [hback, hbs], hleast, hlt⟩
    · cases h

/-! ## CompactSize -/

/-- Read strictly, a number that has a shorter form is refused. -/
def readSize (strict : Bool) : List UInt8 → Option (Nat × List UInt8)
  | [] => none
  | b :: bs =>
      if b < 0xfd then some (b.toNat, bs)
      else if b = 0xfd then readWide 2 (if strict then 0xfd else 0) bs
      else if b = 0xfe then readWide 4 (if strict then 0x10000 else 0) bs
      else readWide 8 (if strict then 0x100000000 else 0) bs

/-- The form a number was read from. -/
inductive SizeForm (n : Nat) (rest : List UInt8) (strict : Bool) : List UInt8 → Prop
  | byte (b : UInt8) (hb : b.toNat < 0xfd) (hn : n = b.toNat) : SizeForm n rest strict (b :: rest)
  | two (hleast : strict = true → 0xfd ≤ n) (hlt : n < 256 ^ 2) :
      SizeForm n rest strict (0xfd :: (leBytes 2 n ++ rest))
  | four (hleast : strict = true → 0x10000 ≤ n) (hlt : n < 256 ^ 4) :
      SizeForm n rest strict (0xfe :: (leBytes 4 n ++ rest))
  | eight (hleast : strict = true → 0x100000000 ≤ n) (hlt : n < 256 ^ 8) :
      SizeForm n rest strict (0xff :: (leBytes 8 n ++ rest))

theorem sizeForm_of_readSize {strict : Bool} {n : Nat} {bs rest : List UInt8}
    (h : readSize strict bs = some (n, rest)) : SizeForm n rest strict bs := by
  cases bs with
  | nil => cases h
  | cons b bs =>
    simp only [readSize] at h
    split at h
    · rename_i hb
      obtain ⟨rfl, rfl⟩ := Prod.mk.inj (Option.some.inj h)
      exact .byte b (UInt8.lt_iff_toNat_lt.mp hb) rfl
    · split at h
      · rename_i hb
        obtain ⟨rfl, hleast, hlt⟩ := eq_append_of_readWide h
        exact hb ▸ .two (by rintro rfl; exact hleast) hlt
      · split at h
        · rename_i hb
          obtain ⟨rfl, hleast, hlt⟩ := eq_append_of_readWide h
          exact hb ▸ .four (by rintro rfl; exact hleast) hlt
        · rename_i hlow hfd hfe
          obtain ⟨rfl, hleast, hlt⟩ := eq_append_of_readWide h
          have hb : b = 0xff := by
            rw [UInt8.lt_iff_toNat_lt] at hlow
            rw [← UInt8.toNat_inj] at hfd hfe ⊢
            have hbyte := b.toNat_lt
            simp only [UInt8.reduceToNat] at *
            omega
          exact hb ▸ .eight (by rintro rfl; exact hleast) hlt

end ZcashFaucet.Lib
