/-
ZcashFaucet.Lib.Bytes — byte strings as numbers, in either byte order, and
hexadecimal text as byte strings.

`leValue` is Mathlib's `Nat.ofDigits` in base 256, so a string of `n`
bytes is a number below `256 ^ n` and nothing else (`leValue_leBytes`,
`leBytes_leValue`). The other order is the reversed string. `beValue_set`
is what writing one byte into a blank position is worth.

`readHex` is strict, unlike `decodeHex`: an odd digit or anything that is
no digit makes the whole text unreadable. A `HexDecoder` reads the same
texts and has its own words for the others.
-/
import Mathlib.Data.Nat.Digits.Defs
import Mathlib.Tactic.Ring

namespace ZcashFaucet.Lib

/-! ## The least significant byte first -/

def leValue (bs : List UInt8) : Nat := Nat.ofDigits 256 (bs.map UInt8.toNat)

/-- The `w` low bytes of a number. -/
def leBytes : Nat → Nat → List UInt8
  | 0, _ => []
  | w + 1, n => n.toUInt8 :: leBytes w (n / 256)

@[simp] theorem leValue_nil : leValue [] = 0 := rfl

@[simp] theorem leValue_cons (b : UInt8) (bs : List UInt8) :
    leValue (b :: bs) = b.toNat + 256 * leValue bs := rfl

theorem leValue_append (as bs : List UInt8) :
    leValue (as ++ bs) = leValue as + 256 ^ as.length * leValue bs := by
  simp [leValue, Nat.ofDigits_append]

theorem leValue_lt (bs : List UInt8) : leValue bs < 256 ^ bs.length := by
  have hdigits : ∀ d ∈ bs.map UInt8.toNat, d < 256 := by
    intro d hd
    obtain ⟨b, -, rfl⟩ := List.mem_map.mp hd
    exact b.toNat_lt
  simpa [leValue] using Nat.ofDigits_lt_base_pow_length (by decide) hdigits

@[simp] theorem leValue_replicate_zero (n : Nat) : leValue (List.replicate n 0) = 0 := by
  simp [leValue]

@[simp] theorem length_leBytes (w n : Nat) : (leBytes w n).length = w := by
  induction w generalizing n with
  | zero => rfl
  | succ w ih => simp [leBytes, ih]

theorem leValue_leBytes {w n : Nat} (h : n < 256 ^ w) : leValue (leBytes w n) = n := by
  induction w generalizing n with
  | zero =>
    have hzero : n = 0 := by simpa using h
    subst hzero
    rfl
  | succ w ih =>
    have hdiv : n / 256 < 256 ^ w := by
      rw [pow_succ] at h
      exact Nat.div_lt_of_lt_mul (by omega)
    rw [leBytes, leValue_cons, ih hdiv, Nat.toUInt8_eq, UInt8.toNat_ofNat']
    exact Nat.mod_add_div n 256

theorem leBytes_leValue (bs : List UInt8) : leBytes bs.length (leValue bs) = bs := by
  induction bs with
  | nil => rfl
  | cons b bs ih =>
    have hb := b.toNat_lt
    have hdiv : (b.toNat + 256 * leValue bs) / 256 = leValue bs := by omega
    have hlow : (b.toNat + 256 * leValue bs).toUInt8 = b := by
      apply UInt8.toNat_inj.mp
      rw [Nat.toUInt8_eq, UInt8.toNat_ofNat']
      omega
    rw [List.length_cons, leBytes, leValue_cons, hlow, hdiv, ih]

theorem leBytes_concat (w n : Nat) :
    leBytes (w + 1) n = leBytes w n ++ [(n / 256 ^ w).toUInt8] := by
  induction w generalizing n with
  | zero => simp [leBytes]
  | succ w ih =>
    have hdiv : n / 256 / 256 ^ w = n / 256 ^ (w + 1) := by
      rw [Nat.div_div_eq_div_mul, Nat.pow_succ']
    rw [leBytes, ih (n / 256), hdiv]
    rfl

/-! ## The most significant byte first -/

def beValue (bs : List UInt8) : Nat := leValue bs.reverse

def beBytes (w n : Nat) : List UInt8 := (leBytes w n).reverse

@[simp] theorem beValue_nil : beValue [] = 0 := rfl

theorem beValue_cons (b : UInt8) (bs : List UInt8) :
    beValue (b :: bs) = b.toNat * 256 ^ bs.length + beValue bs := by
  simp only [beValue, List.reverse_cons, leValue_append, List.length_reverse, leValue_cons,
    leValue_nil]
  ring

@[simp] theorem length_beBytes (w n : Nat) : (beBytes w n).length = w := by simp [beBytes]

theorem beValue_beBytes {w n : Nat} (h : n < 256 ^ w) : beValue (beBytes w n) = n := by
  simp [beValue, beBytes, leValue_leBytes h]

theorem beBytes_succ (w n : Nat) :
    beBytes (w + 1) n = (n / 256 ^ w).toUInt8 :: beBytes w n := by
  simp [beBytes, leBytes_concat]

theorem beBytes_add (v w n : Nat) : beBytes (v + w) n = beBytes v (n / 256 ^ w) ++ beBytes w n := by
  induction v with
  | zero => rw [Nat.zero_add]; rfl
  | succ v ih =>
      rw [Nat.add_right_comm, beBytes_succ, beBytes_succ, ih, Nat.div_div_eq_div_mul, ← pow_add,
        Nat.add_comm w v]
      rfl

/-- Only the low bytes of a number are written. -/
theorem beBytes_mod (w n : Nat) : beBytes w (n % 256 ^ w) = beBytes w n := by
  induction w generalizing n with
  | zero => rfl
  | succ w ih =>
      have hlow : n % 256 ^ (w + 1) % 256 ^ w = n % 256 ^ w :=
        Nat.mod_mod_of_dvd n (pow_dvd_pow 256 (Nat.le_succ w))
      have hhigh : n % 256 ^ (w + 1) / 256 ^ w = n / 256 ^ w % 256 := by
        rw [pow_succ, Nat.mod_mul_right_div_self]
      have hbyte : (n / 256 ^ w % 256).toUInt8 = (n / 256 ^ w).toUInt8 := UInt8.ofNat_mod_size
      rw [beBytes_succ, beBytes_succ, ← ih (n % 256 ^ (w + 1)), hlow, ih, hhigh, hbyte]

@[simp] theorem beValue_replicate_zero (n : Nat) : beValue (List.replicate n 0) = 0 := by
  simp [beValue]

/-- A byte written into a blank position adds its worth there. -/
theorem beValue_set {bs : List UInt8} {p : Nat} (hp : p < bs.length) (hblank : bs[p] = 0)
    (b : UInt8) : beValue (bs.set p b) = beValue bs + b.toNat * 256 ^ (bs.length - 1 - p) := by
  induction bs generalizing p with
  | nil => simp at hp
  | cons a bs ih =>
    cases p with
    | zero =>
      have ha : a = 0 := hblank
      simp [beValue_cons, ha, add_comm]
    | succ p =>
      have hp' : p < bs.length := by simpa using hp
      have hlen : (a :: bs).length - 1 - (p + 1) = bs.length - 1 - p := by simp; omega
      rw [List.set_cons_succ, beValue_cons, beValue_cons, List.length_set, hlen,
        ih hp' (by simpa using hblank), add_assoc]

/-! ## Hexadecimal text -/

/-- The value of a hexadecimal digit of either case. -/
def hexDigit? (c : Char) : Option Nat :=
  if '0' ≤ c ∧ c ≤ '9' then some (c.toNat - 0x30)
  else if 'a' ≤ c ∧ c ≤ 'f' then some (c.toNat - 0x57)
  else if 'A' ≤ c ∧ c ≤ 'F' then some (c.toNat - 0x37)
  else none

/-- Two digits a byte, nothing left over. -/
def readHex : List Char → Option (List UInt8)
  | [] => some []
  | c :: d :: rest =>
      match hexDigit? c, hexDigit? d, readHex rest with
      | some x, some y, some bs => some ((16 * x + y).toUInt8 :: bs)
      | _, _, _ => none
  | [_] => none

/-- A lower-case hexadecimal digit. -/
def hexDigitChar (n : Nat) : Char := if n < 10 then Char.ofNat (0x30 + n) else Char.ofNat (0x57 + n)

def hexChars : List UInt8 → List Char
  | [] => []
  | b :: bs => hexDigitChar (b.toNat / 16) :: hexDigitChar (b.toNat % 16) :: hexChars bs

theorem hexDigit?_hexDigitChar : ∀ {n : Nat}, n < 16 → hexDigit? (hexDigitChar n) = some n := by
  decide

theorem readHex_hexChars (bs : List UInt8) : readHex (hexChars bs) = some bs := by
  induction bs with
  | nil => rfl
  | cons b bs ih =>
    have hb := b.toNat_lt
    have hhigh := hexDigit?_hexDigitChar (show b.toNat / 16 < 16 by omega)
    have hlow := hexDigit?_hexDigitChar (show b.toNat % 16 < 16 by omega)
    have hbyte : 16 * (b.toNat / 16) + b.toNat % 16 = b.toNat := by omega
    simp only [hexChars, readHex, hhigh, hlow, ih, hbyte]
    simp

/-- What the `hex` crate documents of `hex::decode`. The text of an error
is its own. -/
structure HexDecoder where
  decode : String → Except String (List UInt8)
  decode_ok : ∀ s bs, decode s = .ok bs ↔ readHex s.toList = some bs

namespace HexDecoder

/-- A text of every byte string. -/
theorem decode_ofList (hex : HexDecoder) (bs : List UInt8) :
    hex.decode (String.ofList (hexChars bs)) = .ok bs := by
  rw [hex.decode_ok, String.toList_ofList, readHex_hexChars]

/-- The errors of the crate, as it words them for a text of ASCII. -/
def plain : HexDecoder where
  decode s :=
    match readHex s.toList with
    | some bs => .ok bs
    | none =>
      if s.length % 2 = 1 then .error "Odd number of digits"
      else .error "Invalid character"
  decode_ok s bs := by
    cases readHex s.toList with
    | some cs => simp
    | none => by_cases hodd : s.length % 2 = 1 <;> simp [hodd]

end HexDecoder

end ZcashFaucet.Lib
