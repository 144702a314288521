/-
ZcashFaucet.Lib.Base58 — base58 texts, and those with a checksum.

The digits of one base become those of another by way of the number they
are worth; the zeros in front, which are worth nothing, are kept as they
are. So the change of base is undone by the change back
(`changeBase_changeBase`), and a string of bytes has one text.

The checksum is four bytes of a hash, taken twice, of the payload.

Bytes that begin alike are numbers in an interval, and their texts begin alike
too where the interval is in one step of a power of 58 (`encode_front`).
-/
import Mathlib.Data.Nat.Digits.Lemmas
import ZcashFaucet.Lib.Bytes
import ZcashFaucet.Lib.JsString

namespace ZcashFaucet.Lib

namespace Base58

/-! ## Change of base -/

/-- Digits in base `b`, the most significant first, in base `c`. -/
def changeBase (b c : Nat) (ds : List Nat) : List Nat :=
  List.replicate (ds.takeWhile (· == 0)).length 0 ++ (Nat.digits c (Nat.ofDigits b ds.reverse)).reverse

theorem exists_zeros (ds : List Nat) :
    ∃ z rest, ds = List.replicate z 0 ++ rest ∧ rest.head? ≠ some 0 := by
  induction ds with
  | nil => exact ⟨0, [], rfl, by simp⟩
  | cons d ds ih =>
    by_cases hd : d = 0
    · obtain ⟨z, rest, rfl, hrest⟩ := ih
      exact ⟨z + 1, rest, by rw [hd, List.replicate_succ, List.cons_append], hrest⟩
    · exact ⟨0, d :: ds, rfl, by simpa using hd⟩

theorem takeWhile_zeros (z : Nat) {rest : List Nat} (h : rest.head? ≠ some 0) :
    (List.replicate z 0 ++ rest).takeWhile (· == 0) = List.replicate z 0 := by
  rw [List.takeWhile_append_of_pos (by simp)]
  cases rest with
  | nil => simp
  | cons d rest =>
    have hd : d ≠ 0 := by simpa using h
    simp [hd]

theorem ofDigits_zeros (b z : Nat) (rest : List Nat) :
    Nat.ofDigits b (List.replicate z 0 ++ rest).reverse = Nat.ofDigits b rest.reverse := by
  rw [List.reverse_append, List.reverse_replicate, Nat.ofDigits_append_replicate_zero]

/-- The zeros in front stay and the rest is written anew. -/
theorem changeBase_zeros (b c z : Nat) {rest : List Nat} (h : rest.head? ≠ some 0) :
    changeBase b c (List.replicate z 0 ++ rest) =
      List.replicate z 0 ++ (Nat.digits c (Nat.ofDigits b rest.reverse)).reverse := by
  rw [changeBase, takeWhile_zeros z h, ofDigits_zeros, List.length_replicate]

/-- No numeral begins with a zero. -/
theorem head?_digits_reverse (c n : Nat) : (Nat.digits c n).reverse.head? ≠ some 0 := by
  rw [List.head?_reverse]
  intro hlast
  by_cases hn : n = 0
  · rw [hn, Nat.digits_zero] at hlast
    cases hlast
  · have hne : Nat.digits c n ≠ [] := Nat.digits_ne_nil_iff_ne_zero.mpr hn
    rw [List.getLast?_eq_getLast_of_ne_nil hne, Option.some.injEq] at hlast
    exact Nat.getLast_digit_ne_zero c hn hlast

theorem changeBase_changeBase {b c : Nat} (hb : 1 < b) {ds : List Nat} (hds : ∀ d ∈ ds, d < b) :
    changeBase c b (changeBase b c ds) = ds := by
  obtain ⟨z, rest, rfl, hrest⟩ := exists_zeros ds
  rw [changeBase_zeros b c z hrest, changeBase_zeros c b z (head?_digits_reverse _ _),
    List.reverse_reverse, Nat.ofDigits_digits, Nat.digits_ofDigits b hb, List.reverse_reverse]
  · intro d hd
    exact hds d (List.mem_append_right _ (List.mem_reverse.mp hd))
  · intro hne hlast
    apply hrest
    rw [← List.getLast?_reverse, List.getLast?_eq_getLast_of_ne_nil hne, hlast]

theorem changeBase_lt {b c : Nat} (hc : 1 < c) (ds : List Nat) : ∀ d ∈ changeBase b c ds, d < c := by
  intro d hd
  rcases List.mem_append.mp hd with hzero | hdigit
  · rw [List.eq_of_mem_replicate hzero]
    exact Nat.zero_lt_of_lt hc
  · exact Nat.digits_lt_base hc (List.mem_reverse.mp hdigit)

/-! ## Texts -/

def letters : JsString := js "123456789ABCDEFGHJKLMNPQRSTUVWXYZabcdefghijkmnopqrstuvwxyz"

def letter (d : Nat) : UInt16 := letters.getD d 0

def digitOfLetter (c : UInt16) : Option Nat := letters.idxOf? c

theorem digitOfLetter_letter {d : Nat} (h : d < 58) : digitOfLetter (letter d) = some d := by
  have hall : ∀ d < 58, digitOfLetter (letter d) = some d := by decide +kernel
  exact hall d h

theorem digitOfLetter_eq_some_iff (c : UInt16) (d : Nat) :
    digitOfLetter c = some d ↔ c = letter d ∧ d < 58 := by
  constructor
  · intro h
    obtain ⟨hlt, hget, -⟩ := List.idxOf?_eq_some_iff.mp h
    refine ⟨?_, hlt.trans_eq (by decide +kernel)⟩
    rw [letter, List.getD, List.getElem?_eq_getElem hlt]
    exact hget.symm
  · rintro ⟨rfl, hlt⟩
    exact digitOfLetter_letter hlt

def digitsOfLetters (s : JsString) : Option (List Nat) := s.mapM digitOfLetter

theorem digitsOfLetters_eq_some_iff {s : JsString} {ds : List Nat} :
    digitsOfLetters s = some ds ↔ s = ds.map letter ∧ ∀ d ∈ ds, d < 58 :=
  mapM_eq_some_iff digitOfLetter_eq_some_iff

def encode (bytes : List UInt8) : JsString := (changeBase 256 58 (bytes.map UInt8.toNat)).map letter

def decode (s : JsString) : Option (List UInt8) :=
  (digitsOfLetters s).map fun ds => (changeBase 58 256 ds).map Nat.toUInt8

example : encode [0, 0x28, 0x7f, 0xb4, 0xcd] = js "1233QC4" ∧
    decode (js "1233QC4") = some [0, 0x28, 0x7f, 0xb4, 0xcd] := by decide +kernel

theorem decode_eq_some_iff {s : JsString} {bytes : List UInt8} :
    decode s = some bytes ↔ s = encode bytes := by
  have hbytes (ds : List Nat) (h : ∀ d ∈ ds, d < 256) : (ds.map Nat.toUInt8).map UInt8.toNat = ds := by
    rw [List.map_map]
    conv_rhs => rw [← List.map_id ds]
    refine List.map_congr_left fun d hd => ?_
    exact Nat.mod_eq_of_lt (h d hd)
  constructor
  · intro h
    obtain ⟨ds, hds, rfl⟩ := Option.map_eq_some_iff.mp h
    obtain ⟨rfl, hlt⟩ := digitsOfLetters_eq_some_iff.mp hds
    rw [encode, hbytes _ (changeBase_lt (by decide) ds), changeBase_changeBase (by decide) hlt]
  · rintro rfl
    have hlt : ∀ d ∈ bytes.map UInt8.toNat, d < 256 := by
      intro d hd
      obtain ⟨b, -, rfl⟩ := List.mem_map.mp hd
      exact b.toNat_lt
    have hdigits : digitsOfLetters (encode bytes) =
        some (changeBase 256 58 (bytes.map UInt8.toNat)) :=
      digitsOfLetters_eq_some_iff.mpr ⟨rfl, changeBase_lt (by decide) _⟩
    rw [decode, hdigits, Option.map_some, changeBase_changeBase (by decide) hlt, List.map_map]
    simp [Function.comp_def]

/-! ## With a checksum -/

def checksum (sha256 : List UInt8 → List UInt8) (payload : List UInt8) : List UInt8 :=
  (sha256 (sha256 payload)).take 4

end Base58

open Base58

/-- The text spells the payload and its checksum. -/
def IsBase58Check (sha256 : List UInt8 → List UInt8) (s : JsString) (payload : List UInt8) : Prop :=
  s = encode (payload ++ checksum sha256 payload)

namespace Base58

def decodeCheck (sha256 : List UInt8 → List UInt8) (s : JsString) : Option (List UInt8) :=
  (decode s).bind fun bytes =>
    let payload := bytes.take (bytes.length - 4)
    if bytes = payload ++ checksum sha256 payload then some payload else none

theorem decodeCheck_eq_some_iff {sha256 : List UInt8 → List UInt8}
    (hsha : ∀ bytes, (sha256 bytes).length = 32) {s : JsString} {payload : List UInt8} :
    decodeCheck sha256 s = some payload ↔ IsBase58Check sha256 s payload := by
  unfold decodeCheck IsBase58Check
  constructor
  · intro h
    obtain ⟨bytes, hbytes, hrest⟩ := Option.bind_eq_some_iff.mp h
    dsimp only at hrest
    split at hrest
    · rename_i hsum
      obtain rfl := Option.some.inj hrest
      rw [← hsum]
      exact decode_eq_some_iff.mp hbytes
    · cases hrest
  · rintro rfl
    have hlength : (checksum sha256 payload).length = 4 := by simp [checksum, hsha]
    rw [decode_eq_some_iff.mpr rfl]
    simp [hlength]

/-- A base58 text is in ASCII. -/
theorem encode_lt (bytes : List UInt8) : ∀ c ∈ encode bytes, c < 0x80 := by
  intro c hc
  obtain ⟨d, hd, rfl⟩ := List.mem_map.mp hc
  have hall : ∀ d < 58, letter d < 0x80 := by decide +kernel
  exact hall d (changeBase_lt (by decide) _ d hd)

/-! ## What a text begins with -/

/-- The digits above the `m` lowest are those of the quotient. -/
theorem digits_front {b m n : Nat} (hb : 1 < b) (hk : 0 < n / b ^ m) :
    ∃ low, low.length = m ∧ Nat.digits b n = low ++ Nat.digits b (n / b ^ m) := by
  have hlow : (Nat.digits b (n % b ^ m)).length ≤ m :=
    (Nat.digits_length_le_iff hb _).mpr (Nat.mod_lt _ (Nat.pow_pos (Nat.zero_lt_of_lt hb)))
  refine ⟨Nat.digits b (n % b ^ m) ++ List.replicate (m - (Nat.digits b (n % b ^ m)).length) 0, ?_, ?_⟩
  · rw [List.length_append, List.length_replicate, Nat.add_sub_cancel' hlow]
  · rw [Nat.digits_append_zeroes_append_digits hb hk, Nat.add_sub_cancel' hlow, Nat.mod_add_div]

theorem beValue_append (as bs : List UInt8) : beValue (as ++ bs) = beValue as * 256 ^ bs.length + beValue bs := by
  rw [beValue, List.reverse_append, leValue_append, List.length_reverse, beValue, beValue]
  ring

theorem beValue_lt (bs : List UInt8) : beValue bs < 256 ^ bs.length := by
  rw [beValue, ← List.length_reverse]
  exact leValue_lt _

/-- Where all the bytes that begin with `version` have one quotient, the texts
of all of them begin with its letters and are of one length. -/
theorem encode_front {version rest : List UInt8} {m : Nat} (hhead : version.head? ≠ some 0) (hne : version ≠ [])
    (hpositive : 0 < beValue version * 256 ^ rest.length / 58 ^ m)
    (hsame : ((beValue version + 1) * 256 ^ rest.length - 1) / 58 ^ m = beValue version * 256 ^ rest.length / 58 ^ m) :
    ∃ tail, tail.length = m ∧ encode (version ++ rest) =
      (Nat.digits 58 (beValue version * 256 ^ rest.length / 58 ^ m)).reverse.map letter ++ tail := by
  have hvalue : Nat.ofDigits 256 ((version ++ rest).map UInt8.toNat).reverse = beValue (version ++ rest) := by
    rw [beValue, leValue, List.map_reverse]
  have hquotient : beValue (version ++ rest) / 58 ^ m = beValue version * 256 ^ rest.length / 58 ^ m := by
    have hrest := beValue_lt rest
    have hlow : beValue version * 256 ^ rest.length / 58 ^ m ≤ beValue (version ++ rest) / 58 ^ m :=
      Nat.div_le_div_right (by rw [beValue_append]; omega)
    have hhigh : beValue (version ++ rest) / 58 ^ m ≤ ((beValue version + 1) * 256 ^ rest.length - 1) / 58 ^ m :=
      Nat.div_le_div_right (by rw [beValue_append, Nat.add_mul, Nat.one_mul]; omega)
    omega
  have hzeros : ((version ++ rest).map UInt8.toNat).takeWhile (· == 0) = [] := by
    cases version with
    | nil => exact absurd rfl hne
    | cons v version =>
      have hv : v.toNat ≠ 0 := fun hzero => hhead (congrArg some (UInt8.toNat_inj.mp hzero))
      simp [hv]
  obtain ⟨low, hlength, hdigits⟩ := digits_front (b := 58) (m := m) (by decide) (hquotient ▸ hpositive)
  refine ⟨low.reverse.map letter, by rw [List.length_map, List.length_reverse, hlength], ?_⟩
  rw [encode, changeBase, hvalue, hzeros, hdigits, hquotient, List.reverse_append, List.map_append, List.map_append]
  rfl

end Base58

end ZcashFaucet.Lib
