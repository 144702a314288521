/-
ZcashFaucet.Lib.Bech32 — bech32 and bech32m texts.

A text is a human-readable part, a `1`, and letters of five bits each, the
last six of them a checksum of all the rest. It is in one case. The
letters have no `1` among them, so the human-readable part is everything
before the last one. bech32m differs in a constant of the checksum.

`IsBech32` says which text spells what; `decode` reads it
(`decode_eq_some_iff`).
-/
import Mathlib.Data.List.DropRight
import Mathlib.Data.Nat.Bitwise
import ZcashFaucet.Lib.BitGroups
import ZcashFaucet.Lib.JsLower

namespace ZcashFaucet.Lib

namespace Bech32

/-! ## Letters -/

def one : UInt16 := 0x31

def letters : JsString := js "qpzry9x8gf2tvdw0s3jn54khce6mua7l"

def letter (w : Word) : UInt16 := letters.getD w.val 0

def wordOfLetter (c : UInt16) : Option Word := (letters.idxOf? c).map (Fin.ofNat 32)

theorem wordOfLetter_letter : ∀ w, wordOfLetter (letter w) = some w := by decide

theorem wordOfLetter_eq_some_iff (c : UInt16) (w : Word) :
    wordOfLetter c = some w ↔ c = letter w := by
  constructor
  · intro h
    obtain ⟨i, hi, rfl⟩ := Option.map_eq_some_iff.mp h
    obtain ⟨hlt, hget, -⟩ := List.idxOf?_eq_some_iff.mp hi
    have hval : (Fin.ofNat 32 i).val = i := Nat.mod_eq_of_lt hlt
    rw [letter, hval, List.getD, List.getElem?_eq_getElem hlt]
    exact hget.symm
  · rintro rfl
    exact wordOfLetter_letter w

theorem letter_ne_one : ∀ w, letter w ≠ one := by decide

theorem letter_lt : ∀ w, letter w < 0x80 := by decide

/-- The words of letters, if all of them are letters. -/
def wordsOfLetters (s : JsString) : Option (List Word) := s.mapM wordOfLetter

theorem wordsOfLetters_eq_some_iff {s : JsString} {ws : List Word} :
    wordsOfLetters s = some ws ↔ s = ws.map letter := by
  have hletter (c : UInt16) (w : Word) : wordOfLetter c = some w ↔ c = letter w ∧ True := by
    rw [wordOfLetter_eq_some_iff, and_true]
  rw [wordsOfLetters, mapM_eq_some_iff hletter]
  exact and_iff_left fun _ _ => trivial

/-! ## The checksum -/

inductive Variant
  | bech32
  | bech32m
  deriving DecidableEq, Repr

def Variant.constant : Variant → Nat
  | bech32 => 1
  | bech32m => 0x2bc830a3

def generators : List Nat := [0x3b6a57b2, 0x26508e6d, 0x1ea119fa, 0x3d4233dd, 0x2a1462b3]

/-- The residue after one more value. -/
def polymodStep (residue value : Nat) : Nat :=
  let top := residue >>> 25
  generators.zipIdx.foldl (fun acc g => if top.testBit g.2 then acc ^^^ g.1 else acc)
    ((residue &&& 0x1ffffff) <<< 5 ^^^ value)

def polymod (values : List Nat) : Nat := values.foldl polymodStep 1

/-- The high bits of every unit, a zero, and the low bits. -/
def expandHrp (hrp : JsString) : List Nat :=
  hrp.map (fun c => c.toNat >>> 5) ++ 0 :: hrp.map fun c => c.toNat &&& 31

def checksum (variant : Variant) (hrp : JsString) (ws : List Word) : List Word :=
  let values := expandHrp hrp ++ ws.map Fin.val ++ List.replicate 6 0
  let residue := polymod values ^^^ variant.constant
  (List.range 6).map fun i => Fin.ofNat 32 (residue >>> (5 * (5 - i)))

theorem length_checksum (variant : Variant) (hrp : JsString) (ws : List Word) :
    (checksum variant hrp ws).length = 6 := by
  simp [checksum]

/-! ## Texts -/

def dataPart (variant : Variant) (hrp : JsString) (ws : List Word) : JsString :=
  (ws ++ checksum variant hrp ws).map letter

def encode (variant : Variant) (hrp : JsString) (ws : List Word) : JsString :=
  hrp ++ one :: dataPart variant hrp ws

def isHrpUnit (c : UInt16) : Bool := 33 ≤ c && c ≤ 126

/-- All letters in lower case or all in upper case. -/
def IsOneCase (s : JsString) : Prop := s = s.map foldCase ∨ s = s.map raiseCase

instance (s : JsString) : Decidable (IsOneCase s) := inferInstanceAs (Decidable (_ ∨ _))

end Bech32

open Bech32

/-- The text spells the words under the human-readable part. -/
structure IsBech32 (variant : Variant) (limit : Nat) (s hrp : JsString) (ws : List Word) : Prop where
  length_le : s.length ≤ limit
  oneCase : IsOneCase s
  text : s.map foldCase = encode variant hrp ws
  hrp_ne_nil : hrp ≠ []
  hrp_units : ∀ c ∈ hrp, isHrpUnit c = true

namespace Bech32

/-- What is before the last `1`, and what is after it. -/
def splitLastOne : JsString → Option (JsString × JsString)
  | [] => none
  | c :: s =>
      match splitLastOne s with
      | some (front, back) => some (c :: front, back)
      | none => if c = one then some ([], s) else none

def decode (variant : Variant) (s : JsString) (limit : Nat) : Option (JsString × List Word) :=
  if limit < s.length ∨ ¬ IsOneCase s then none
  else do
    let (hrp, data) ← splitLastOne (s.map foldCase)
    if hrp = [] ∨ hrp.all isHrpUnit = false then none
    else
      let all ← wordsOfLetters data
      let ws := all.take (all.length - 6)
      if all = ws ++ checksum variant hrp ws then some (hrp, ws) else none

/-! ## The last `1` -/

theorem splitLastOne_eq_none_iff {s : JsString} : splitLastOne s = none ↔ one ∉ s := by
  induction s with
  | nil => simp [splitLastOne]
  | cons c s ih =>
    rw [splitLastOne]
    cases hsplit : splitLastOne s with
    | none =>
      have hnone := ih.mp hsplit
      by_cases hc : c = one
      · simp [hc]
      · simp [hc, Ne.symm hc, hnone]
    | some parts =>
      have hmem : one ∈ s := by
        by_contra hnone
        rw [ih.mpr hnone] at hsplit
        cases hsplit
      simp [hmem]

theorem splitLastOne_eq_some_iff {s front back : JsString} :
    splitLastOne s = some (front, back) ↔ s = front ++ one :: back ∧ one ∉ back := by
  induction s generalizing front with
  | nil => simp [splitLastOne]
  | cons c s ih =>
    rw [splitLastOne]
    constructor
    · intro h
      cases hsplit : splitLastOne s with
      | none =>
        rw [hsplit] at h
        dsimp only at h
        split at h
        · rename_i hc
          obtain ⟨rfl, rfl⟩ := Prod.mk.inj (Option.some.inj h)
          exact ⟨by rw [hc, List.nil_append], splitLastOne_eq_none_iff.mp hsplit⟩
        · cases h
      | some parts =>
        obtain ⟨front', back'⟩ := parts
        rw [hsplit] at h
        obtain ⟨rfl, rfl⟩ := Prod.mk.inj (Option.some.inj h)
        obtain ⟨rfl, hback⟩ := ih.mp hsplit
        exact ⟨rfl, hback⟩
    · rintro ⟨hs, hback⟩
      cases front with
      | nil =>
        obtain ⟨rfl, rfl⟩ := List.cons.inj hs
        rw [splitLastOne_eq_none_iff.mpr hback]
        simp
      | cons c' front =>
        obtain ⟨rfl, rfl⟩ := List.cons.inj hs
        rw [ih.mpr ⟨rfl, hback⟩]

/-- What stands before the first of a separator. -/
theorem front_eq_of_append_cons {α : Type} [BEq α] [LawfulBEq α] {x x' y y' : List α} {c : α}
    (hx : c ∉ x) (hx' : c ∉ x') (h : x ++ c :: y = x' ++ c :: y') : x = x' := by
  have hsplit := congrArg (fun l => (l.splitOn c).head?) h
  simpa [List.splitOn_append_cons_self, List.splitOn_eq_singleton hx,
    List.splitOn_eq_singleton hx'] using hsplit

theorem not_mem_dataPart (variant : Variant) (hrp : JsString) (ws : List Word) :
    one ∉ dataPart variant hrp ws := by
  intro hmem
  obtain ⟨w, -, hw⟩ := List.mem_map.mp hmem
  exact letter_ne_one w hw

/-! ## What is decoded -/

theorem splitLastOne_encode (variant : Variant) (hrp : JsString) (ws : List Word) :
    splitLastOne (encode variant hrp ws) = some (hrp, dataPart variant hrp ws) :=
  splitLastOne_eq_some_iff.mpr ⟨rfl, not_mem_dataPart variant hrp ws⟩

theorem decode_eq_some_iff {variant : Variant} {limit : Nat} {s hrp : JsString} {ws : List Word} :
    decode variant s limit = some (hrp, ws) ↔ IsBech32 variant limit s hrp ws := by
  constructor
  · intro h
    unfold decode at h
    split at h
    · cases h
    · rename_i hshape
      push Not at hshape
      obtain ⟨⟨hrp', data⟩, hsplit, hrest⟩ := Option.bind_eq_some_iff.mp h
      obtain ⟨htext, -⟩ := splitLastOne_eq_some_iff.mp hsplit
      dsimp only at hrest
      split at hrest
      · cases hrest
      · rename_i hfront
        push Not at hfront
        obtain ⟨all, hall, hrest⟩ := Option.bind_eq_some_iff.mp hrest
        split at hrest
        · rename_i hsum
          obtain ⟨rfl, rfl⟩ := Prod.mk.inj (Option.some.inj hrest)
          rw [wordsOfLetters_eq_some_iff.mp hall, hsum] at htext
          exact ⟨hshape.1, hshape.2, htext, hfront.1, by simpa using hfront.2⟩
        · cases hrest
  · intro h
    have hlength := length_checksum variant hrp ws
    have hwords : wordsOfLetters (dataPart variant hrp ws) = some (ws ++ checksum variant hrp ws) :=
      wordsOfLetters_eq_some_iff.mpr rfl
    have hshape : ¬ (limit < s.length ∨ ¬ IsOneCase s) := by
      push Not
      exact ⟨h.length_le, h.oneCase⟩
    rw [decode, if_neg hshape, h.text, splitLastOne_encode]
    simp [h.hrp_ne_nil, hwords, hlength]
    exact h.hrp_units

end Bech32

namespace IsBech32

variable {variant : Variant} {limit : Nat} {s hrp : JsString} {ws : List Word}

theorem ascii (h : IsBech32 variant limit s hrp ws) : ∀ c ∈ s, c < 0x80 := by
  intro c hc
  have hfold : foldCase c ∈ encode variant hrp ws := h.text ▸ List.mem_map_of_mem hc
  apply ascii_of_foldCase
  rcases List.mem_append.mp hfold with hmem | hmem
  · have hunit := h.hrp_units _ hmem
    simp only [isHrpUnit, Bool.and_eq_true, decide_eq_true_eq] at hunit
    exact UInt16.lt_of_le_of_lt hunit.2 (by decide)
  · rcases List.mem_cons.mp hmem with hone | hdata
    · rw [hone]
      decide
    · obtain ⟨w, -, hw⟩ := List.mem_map.mp hdata
      exact hw ▸ letter_lt w

/-- A text that differs in case only spells the same. -/
theorem congr {t hrp' : JsString} {ws' : List Word} (h : IsBech32 variant limit s hrp ws)
    (h' : IsBech32 variant limit t hrp' ws') (hfold : s.map foldCase = t.map foldCase) :
    IsBech32 variant limit t hrp ws :=
  ⟨h'.length_le, h'.oneCase, hfold ▸ h.text, h.hrp_ne_nil, h.hrp_units⟩

theorem count_one (h : IsBech32 variant limit s hrp ws) : s.count one = hrp.count one + 1 := by
  have hfold : (s.map foldCase).count one = s.count one := by
    rw [List.count_eq_countP, List.countP_map, List.count_eq_countP]
    refine List.countP_congr fun c _ => ?_
    simp only [Function.comp_apply, beq_iff_eq]
    exact foldCase_eq_iff (.inl (by decide)) (by decide)
  rw [← hfold, h.text, encode, List.count_append, List.count_cons_self,
    List.count_eq_zero.mpr (not_mem_dataPart variant hrp ws)]

/-- What the text begins with is the human-readable part exactly if there is
one `1`. -/
theorem hrp_eq_iff (h : IsBech32 variant limit s hrp ws) {front : JsString}
    (hfront : front ++ [one] <+: s.map foldCase) (hone : one ∉ front) :
    hrp = front ↔ s.count one = 1 := by
  rw [h.count_one]
  constructor
  · rintro rfl
    rw [List.count_eq_zero.mpr hone]
  · intro hcount
    have hhrp : one ∉ hrp := List.count_eq_zero.mp (by omega)
    obtain ⟨rest, hrest⟩ := hfront
    rw [h.text, encode, List.append_assoc] at hrest
    exact (front_eq_of_append_cons hone hhrp hrest).symm

end IsBech32

end ZcashFaucet.Lib
