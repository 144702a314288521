/-
ZcashFaucet.Lib.JsString — JavaScript strings, as sequences of UTF-16
code units.

A JavaScript string is not a sequence of characters: any sequence of
code units is one, surrogates without a partner included. `String` in
Lean cannot hold those, so a value that comes off a wire is a `JsString`
here, and `js` embeds the literals of the source.

`encodeURIComponent` is the one operation of the standard library used
on such values that can throw. It throws a URIError exactly on the
strings that are not well formed (`encodeURIComponent_isSome`).
-/
import Mathlib.Data.List.Basic

namespace ZcashFaucet.Lib

/-- A JavaScript string: its UTF-16 code units. -/
abbrev JsString := List UInt16

/-! ## Literals -/

/-- The code units of one character: itself, or a surrogate pair. -/
def utf16Units (c : Char) : JsString :=
  if c.toNat < 0x10000 then [c.toNat.toUInt16]
  else
    let v := c.toNat - 0x10000
    [(0xD800 + v / 0x400).toUInt16, (0xDC00 + v % 0x400).toUInt16]

/-- A string of the source as a JavaScript string. -/
def js (s : String) : JsString := s.toList.flatMap utf16Units

/-- Truthiness of a string: every string but the empty one. -/
def JsString.truthy (s : JsString) : Bool := !s.isEmpty

/-- `a || b` on a possibly absent string: absent and empty both give `b`. -/
def orNull : Option JsString → Option JsString
  | some (c :: s) => some (c :: s)
  | _ => none

@[simp] theorem orNull_some_cons (c : UInt16) (s : JsString) : orNull (some (c :: s)) = some (c :: s) :=
  rfl

@[simp] theorem orNull_none : orNull none = none := rfl

/-! ## Well-formedness -/

def isHighSurrogate (c : UInt16) : Bool := 0xD800 ≤ c && c ≤ 0xDBFF

def isLowSurrogate (c : UInt16) : Bool := 0xDC00 ≤ c && c ≤ 0xDFFF

/-- `String.prototype.isWellFormed`: every surrogate has its partner. -/
def isWellFormed : JsString → Bool
  | [] => true
  | [c] => !isHighSurrogate c && !isLowSurrogate c
  | c :: d :: rest =>
      if isHighSurrogate c then isLowSurrogate d && isWellFormed rest
      else !isLowSurrogate c && isWellFormed (d :: rest)

/-- `String.prototype.toWellFormed`, which is also what any conversion to
UTF-8 does: a surrogate without its partner becomes U+FFFD. -/
def toWellFormed : JsString → JsString
  | [] => []
  | [c] => if isHighSurrogate c || isLowSurrogate c then [0xFFFD] else [c]
  | c :: d :: rest =>
      if isHighSurrogate c then
        if isLowSurrogate d then c :: d :: toWellFormed rest else 0xFFFD :: toWellFormed (d :: rest)
      else if isLowSurrogate c then 0xFFFD :: toWellFormed (d :: rest)
      else c :: toWellFormed (d :: rest)

/-- A code unit that is no surrogate is kept. -/
theorem toWellFormed_cons {c : UInt16} (hhigh : isHighSurrogate c = false)
    (hlow : isLowSurrogate c = false) (s : JsString) : toWellFormed (c :: s) = c :: toWellFormed s := by
  cases s with
  | nil => simp [toWellFormed, hhigh, hlow]
  | cons d rest => simp [toWellFormed, hhigh, hlow]

/-! ## Letters of either case -/

/-- An ASCII letter in lower case. -/
def foldCase (c : UInt16) : UInt16 := if 0x41 ≤ c ∧ c ≤ 0x5A then c + 0x20 else c

/-- A literal pattern occurs in a text, whatever the case of its ASCII
letters. -/
def containsFolded (pattern message : JsString) : Bool :=
  (message.map foldCase).tails.any (pattern.map foldCase).isPrefixOf

/-! ## Letter by letter -/

/-- Where each letter is read from what it is written as and from nothing
else, so is a text. -/
theorem mapM_eq_some_iff {β : Type} {read : UInt16 → Option β} {write : β → UInt16} {P : β → Prop}
    (h : ∀ c b, read c = some b ↔ c = write b ∧ P b) {s : JsString} {bs : List β} :
    s.mapM read = some bs ↔ s = bs.map write ∧ ∀ b ∈ bs, P b := by
  induction s generalizing bs with
  | nil => cases bs <;> simp
  | cons c s ih =>
    rw [List.mapM_cons]
    constructor
    · intro hread
      obtain ⟨b, hb, hrest⟩ := Option.bind_eq_some_iff.mp hread
      obtain ⟨bs', hbs', hcons⟩ := Option.bind_eq_some_iff.mp hrest
      obtain rfl := Option.some.inj hcons
      obtain ⟨hc, hP⟩ := (h c b).mp hb
      obtain ⟨hs, hall⟩ := ih.mp hbs'
      exact ⟨by rw [hc, hs, List.map_cons], List.forall_mem_cons.mpr ⟨hP, hall⟩⟩
    · rintro ⟨hs, hall⟩
      cases bs with
      | nil => cases hs
      | cons b bs =>
        obtain ⟨hc, hs⟩ := List.cons.inj hs
        obtain ⟨hP, hall⟩ := List.forall_mem_cons.mp hall
        rw [(h c b).mpr ⟨hc, hP⟩, ih.mpr ⟨hs, hall⟩]
        rfl

/-! ## encodeURIComponent -/

/-- The code units `encodeURIComponent` leaves alone. -/
def uriUnreserved (c : UInt16) : Bool :=
  (0x41 ≤ c && c ≤ 0x5A) || (0x61 ≤ c && c ≤ 0x7A) || (0x30 ≤ c && c ≤ 0x39) ||
    (js "-_.!~*'()").contains c

/-- The UTF-8 bytes of a code point. -/
def utf8Bytes (p : Nat) : List Nat :=
  if p < 0x80 then [p]
  else if p < 0x800 then [0xC0 + p / 0x40, 0x80 + p % 0x40]
  else if p < 0x10000 then [0xE0 + p / 0x1000, 0x80 + p / 0x40 % 0x40, 0x80 + p % 0x40]
  else [0xF0 + p / 0x40000, 0x80 + p / 0x1000 % 0x40, 0x80 + p / 0x40 % 0x40, 0x80 + p % 0x40]

/-- An upper-case hexadecimal digit. -/
def hexDigitUpper (n : Nat) : UInt16 := if n < 10 then (0x30 + n).toUInt16 else (0x37 + n).toUInt16

/-- `%XX` for every UTF-8 byte of a code point. -/
def percentEncode (p : Nat) : JsString :=
  (utf8Bytes p).flatMap fun b => [0x25, hexDigitUpper (b / 16), hexDigitUpper (b % 16)]

/-- The code point of a surrogate pair. -/
def surrogatePair (hi lo : UInt16) : Nat := 0x10000 + (hi.toNat - 0xD800) * 0x400 + (lo.toNat - 0xDC00)

/-- The UTF-8 bytes of a text, as TextEncoder and Buffer write them: a
surrogate without its partner is written as U+FFFD. -/
def encodeUtf8 : JsString → List UInt8
  | [] => []
  | [c] => bytesOf (if isHighSurrogate c || isLowSurrogate c then 0xFFFD else c.toNat)
  | c :: d :: rest =>
      if isHighSurrogate c && isLowSurrogate d then bytesOf (surrogatePair c d) ++ encodeUtf8 rest
      else bytesOf (if isHighSurrogate c || isLowSurrogate c then 0xFFFD else c.toNat) ++
        encodeUtf8 (d :: rest)
where
  bytesOf (p : Nat) : List UInt8 := (utf8Bytes p).map Nat.toUInt8

/-- `encodeURIComponent`, with `none` for the URIError it throws. -/
def encodeURIComponent : JsString → Option JsString
  | [] => some []
  | [c] =>
      if uriUnreserved c then some [c]
      else if isHighSurrogate c || isLowSurrogate c then none
      else some (percentEncode c.toNat)
  | c :: d :: rest =>
      if uriUnreserved c then (encodeURIComponent (d :: rest)).map (c :: ·)
      else if isLowSurrogate c then none
      else if isHighSurrogate c then
        if isLowSurrogate d then (encodeURIComponent rest).map (percentEncode (surrogatePair c d) ++ ·)
        else none
      else (encodeURIComponent (d :: rest)).map (percentEncode c.toNat ++ ·)

/-- No surrogate is among the code units that pass unchanged. -/
theorem not_surrogate_of_uriUnreserved {c : UInt16} (h : uriUnreserved c = true) :
    isHighSurrogate c = false ∧ isLowSurrogate c = false := by
  have hlt : c < 0xD800 := by
    have hpunct : (js "-_.!~*'()").all (fun d => decide (d < 0xD800)) = true := by decide
    simp only [uriUnreserved, Bool.or_eq_true, Bool.and_eq_true, decide_eq_true_eq,
      List.contains_iff_mem] at h
    rcases h with ((h | h) | h) | h
    · exact UInt16.lt_of_le_of_lt h.2 (by decide)
    · exact UInt16.lt_of_le_of_lt h.2 (by decide)
    · exact UInt16.lt_of_le_of_lt h.2 (by decide)
    · exact of_decide_eq_true (List.all_eq_true.mp hpunct c h)
  have hhigh : ¬ (0xD800 : UInt16) ≤ c := UInt16.not_le.mpr hlt
  have hlow : ¬ (0xDC00 : UInt16) ≤ c := fun hle =>
    hhigh (UInt16.le_trans (by decide) hle)
  simp [isHighSurrogate, isLowSurrogate, hhigh, hlow]

/-- A code unit cannot be a surrogate of both kinds. -/
theorem not_low_of_high {c : UInt16} (h : isHighSurrogate c = true) : isLowSurrogate c = false := by
  simp only [isHighSurrogate, Bool.and_eq_true, decide_eq_true_eq] at h
  have : ¬ (0xDC00 : UInt16) ≤ c := fun hle =>
    absurd (UInt16.le_trans hle h.2) (by decide)
  simp [isLowSurrogate, this]

/-- `encodeURIComponent` throws exactly on the strings that are not well
formed. -/
theorem encodeURIComponent_isSome :
    ∀ s : JsString, (encodeURIComponent s).isSome = isWellFormed s
  | [] => rfl
  | [c] => by
      by_cases hu : uriUnreserved c = true
      · simp [encodeURIComponent, isWellFormed, hu, not_surrogate_of_uriUnreserved hu]
      · cases hh : isHighSurrogate c <;> cases hl : isLowSurrogate c <;>
          simp [encodeURIComponent, isWellFormed, hu, hh, hl]
  | c :: d :: rest => by
      have ihTail := encodeURIComponent_isSome (d :: rest)
      have ihRest := encodeURIComponent_isSome rest
      by_cases hu : uriUnreserved c = true
      · simp [encodeURIComponent, isWellFormed, hu, not_surrogate_of_uriUnreserved hu, ihTail]
      · cases hh : isHighSurrogate c with
        | true =>
          cases hd : isLowSurrogate d <;>
            simp [encodeURIComponent, isWellFormed, hu, hh, not_low_of_high hh, hd, ihRest]
        | false =>
          cases hl : isLowSurrogate c <;>
            simp [encodeURIComponent, isWellFormed, hu, hh, hl, ihTail]

end ZcashFaucet.Lib
