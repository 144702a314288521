/-
ZcashFaucet.Lib.Hex — hexadecimal text, and how many texts decode alike.

`encodeHex` is `digest("hex")`: two lower-case digits a byte. `decodeHex`
is `Buffer.from(s, "hex")`, which is not its inverse but something
looser: it takes either letter case, and stops at the first pair that is
not two digits without saying so. Bytes written as hex read back
(`decodeHex_encodeHex`), but many texts read as the same bytes.

`eq_of_decodeHex` says what is lost: the bytes, the letter case of the
digits that were read and the text after them determine the text.
-/
import ZcashFaucet.Lib.JsString
import Mathlib.Tactic.Ring

namespace ZcashFaucet.Lib

/-- A lower-case hexadecimal digit. -/
def hexDigitLower (n : Nat) : UInt16 := if n < 10 then (0x30 + n).toUInt16 else (0x57 + n).toUInt16

/-- The value of a hexadecimal digit of either case. -/
def hexValue? (c : UInt16) : Option Nat :=
  if 0x30 ≤ c.toNat ∧ c.toNat ≤ 0x39 then some (c.toNat - 0x30)
  else if 0x61 ≤ c.toNat ∧ c.toNat ≤ 0x66 then some (c.toNat - 0x57)
  else if 0x41 ≤ c.toNat ∧ c.toNat ≤ 0x46 then some (c.toNat - 0x37)
  else none

/-- `A` to `F`: the digits that have another spelling with the same
value are these and their lower-case counterparts. -/
def isUpperHex (c : UInt16) : Bool := 0x41 ≤ c.toNat && c.toNat ≤ 0x46

def encodeHex : List UInt8 → JsString
  | [] => []
  | b :: bs => hexDigitLower (b.toNat / 16) :: hexDigitLower (b.toNat % 16) :: encodeHex bs

/-- `Buffer.from(s, "hex")`: pairs of digits, up to the first pair that
is not one. -/
def decodeHex : JsString → List UInt8
  | c :: d :: rest =>
      match hexValue? c, hexValue? d with
      | some x, some y => (16 * x + y).toUInt8 :: decodeHex rest
      | _, _ => []
  | _ => []

/-! ## Reading back -/

theorem hexValue?_lt {c : UInt16} {x : Nat} (h : hexValue? c = some x) : x < 16 := by
  unfold hexValue? at h
  split_ifs at h with h1 h2 h3 <;> (obtain rfl := Option.some.inj h; omega)

theorem hexValue?_hexDigitLower : ∀ {n : Nat}, n < 16 → hexValue? (hexDigitLower n) = some n := by
  decide

/-- Both digits of a byte are read. -/
theorem hexValue?_digits (b : UInt8) :
    hexValue? (hexDigitLower (b.toNat / 16)) = some (b.toNat / 16) ∧
      hexValue? (hexDigitLower (b.toNat % 16)) = some (b.toNat % 16) := by
  have hb := b.toNat_lt
  exact ⟨hexValue?_hexDigitLower (by omega), hexValue?_hexDigitLower (by omega)⟩

theorem decodeHex_encodeHex : ∀ bs : List UInt8, decodeHex (encodeHex bs) = bs
  | [] => rfl
  | b :: bs => by
      obtain ⟨hhigh, hlow⟩ := hexValue?_digits b
      have hbyte : 16 * (b.toNat / 16) + b.toNat % 16 = b.toNat := by omega
      simp only [encodeHex, decodeHex, hhigh, hlow, hbyte, decodeHex_encodeHex bs]
      simp

/-- What a first byte that was read says about the text. -/
theorem decodeHex_eq_cons {s : JsString} {b : UInt8} {bs : List UInt8} (h : decodeHex s = b :: bs) :
    ∃ c d rest x y, s = c :: d :: rest ∧ hexValue? c = some x ∧ hexValue? d = some y ∧
      b = (16 * x + y).toUInt8 ∧ decodeHex rest = bs := by
  match s with
  | [] => simp [decodeHex] at h
  | [_] => simp [decodeHex] at h
  | c :: d :: rest =>
    cases hx : hexValue? c with
    | none => simp [decodeHex, hx] at h
    | some x =>
      cases hy : hexValue? d with
      | none => simp [decodeHex, hx, hy] at h
      | some y =>
        simp only [decodeHex, hx, hy, List.cons.injEq] at h
        exact ⟨c, d, rest, x, y, rfl, hx, hy, h.1.symm, h.2⟩

/-- Two digits are determined by the byte they make. -/
theorem digits_of_byte {x y x' y' : Nat} (hx : x < 16) (hy : y < 16) (hx' : x' < 16) (hy' : y' < 16)
    (h : (16 * x + y).toUInt8 = (16 * x' + y').toUInt8) : x = x' ∧ y = y' := by
  have hnat := congrArg UInt8.toNat h
  simp only [Nat.toUInt8_eq, UInt8.toNat_ofNat'] at hnat
  omega

/-! ## Spellings -/

/-- A digit is determined by its value and its letter case. -/
theorem eq_of_hexValue? {c d : UInt16} {x : Nat} (hc : hexValue? c = some x)
    (hd : hexValue? d = some x) (hcase : isUpperHex c = isUpperHex d) : c = d := by
  rw [Bool.eq_iff_iff] at hcase
  simp only [isUpperHex, Bool.and_eq_true, decide_eq_true_eq] at hcase
  apply UInt16.toNat_inj.mp
  unfold hexValue? at hc hd
  split_ifs at hc hd <;>
    (have h1 := Option.some.inj hc
     have h2 := Option.some.inj hd
     omega)

/-- A hexadecimal digit is no surrogate. -/
theorem not_surrogate_of_hexValue? {c : UInt16} {x : Nat} (h : hexValue? c = some x) :
    isHighSurrogate c = false ∧ isLowSurrogate c = false := by
  have hlt : c.toNat < 0xD800 := by
    unfold hexValue? at h
    split_ifs at h <;> omega
  have hhigh : ¬ (0xD800 : UInt16) ≤ c := by
    rw [UInt16.le_iff_toNat_le]
    exact not_le.mpr hlt
  have hlow : ¬ (0xDC00 : UInt16) ≤ c := by
    rw [UInt16.le_iff_toNat_le]
    have : (0xDC00 : UInt16).toNat = 0xDC00 := rfl
    omega
  exact ⟨by simp [isHighSurrogate, hhigh], by simp [isLowSurrogate, hlow]⟩

/-- A hexadecimal digit is kept by the conversion to UTF-8. -/
theorem toWellFormed_hexDigit {c : UInt16} {x : Nat} (h : hexValue? c = some x) (s : JsString) :
    toWellFormed (c :: s) = c :: toWellFormed s := by
  obtain ⟨hhigh, hlow⟩ := not_surrogate_of_hexValue? h
  exact toWellFormed_cons hhigh hlow s

/-- The letter case of the digits of the first `n` bytes. -/
def hexCase (n : Nat) (s : JsString) : List Bool := (s.take (2 * n)).map isUpperHex

theorem hexCase_succ (n : Nat) (c d : UInt16) (s : JsString) :
    hexCase (n + 1) (c :: d :: s) = isUpperHex c :: isUpperHex d :: hexCase n s := by
  simp [hexCase, show 2 * (n + 1) = 2 * n + 1 + 1 by ring]

theorem drop_succ_bytes (n : Nat) (c d : UInt16) (s : JsString) :
    (c :: d :: s).drop (2 * (n + 1)) = s.drop (2 * n) := by
  simp [show 2 * (n + 1) = 2 * n + 1 + 1 by ring]

/-- Two texts that decode to the same bytes are stored alike exactly if
the letter case of their digits and what is stored of the text after
them are the same. -/
theorem toWellFormed_eq_iff : ∀ {bs : List UInt8} {s t : JsString}, decodeHex s = bs →
    decodeHex t = bs → (toWellFormed s = toWellFormed t ↔
      hexCase bs.length s = hexCase bs.length t ∧
        toWellFormed (s.drop (2 * bs.length)) = toWellFormed (t.drop (2 * bs.length)))
  | [], s, t, _, _ => by simp [hexCase]
  | b :: bs, s, t, hs, ht => by
      obtain ⟨c, d, s', x, y, rfl, hc, hd, hb, hs'⟩ := decodeHex_eq_cons hs
      obtain ⟨c', d', t', x', y', rfl, hc', hd', hb', ht'⟩ := decodeHex_eq_cons ht
      obtain ⟨rfl, rfl⟩ := digits_of_byte (hexValue?_lt hc) (hexValue?_lt hd) (hexValue?_lt hc')
        (hexValue?_lt hd') (hb.symm.trans hb')
      have ih := toWellFormed_eq_iff hs' ht'
      rw [toWellFormed_hexDigit hc, toWellFormed_hexDigit hd, toWellFormed_hexDigit hc',
        toWellFormed_hexDigit hd', List.length_cons, hexCase_succ, hexCase_succ, drop_succ_bytes,
        drop_succ_bytes]
      simp only [List.cons.injEq]
      constructor
      · rintro ⟨rfl, rfl, htail⟩
        obtain ⟨hcase, hdrop⟩ := ih.mp htail
        exact ⟨⟨rfl, rfl, hcase⟩, hdrop⟩
      · rintro ⟨⟨h1, h2, hcase⟩, hdrop⟩
        exact ⟨eq_of_hexValue? hc hc' h1, eq_of_hexValue? hd hd' h2, ih.mpr ⟨hcase, hdrop⟩⟩

/-! ## Hexadecimal text in a URL -/

/-- A digit can be in any well-formed text. -/
theorem isWellFormed_hexDigit {c : UInt16} {x : Nat} (h : hexValue? c = some x) (s : JsString) :
    isWellFormed (c :: s) = isWellFormed s := by
  obtain ⟨hhigh, hlow⟩ := not_surrogate_of_hexValue? h
  cases s with
  | nil => simp [isWellFormed, hhigh, hlow]
  | cons d rest => simp [isWellFormed, hhigh, hlow]

theorem isWellFormed_encodeHex : ∀ bs : List UInt8, isWellFormed (encodeHex bs) = true
  | [] => rfl
  | b :: bs => by
      obtain ⟨hhigh, hlow⟩ := hexValue?_digits b
      rw [encodeHex, isWellFormed_hexDigit hhigh, isWellFormed_hexDigit hlow]
      exact isWellFormed_encodeHex bs

theorem encodeHex_eq_nil {bs : List UInt8} : encodeHex bs = [] ↔ bs = [] := by
  cases bs <;> simp [encodeHex]

end ZcashFaucet.Lib
