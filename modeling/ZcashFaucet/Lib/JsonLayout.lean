/-
ZcashFaucet.Lib.JsonLayout — objects that are written a field a line, and
objects of which only a part has been written.

`layout` is what a program that writes its own JSON by hand commonly prints:
each field on a line of its own, indented by two. It is read back as the
tree of the object (`readTree_layout`).

An object ends with its closing brace, so what is read of one is read
whatever stands behind it (`takeTree_append`). A text that has been cut off
inside an object is therefore not read at all (`readTree_of_cut`).

`JSON.parse` makes the nearest double of a numeral, and one field of all that
have a name, the last (`parseJson`). A value that is written with natural
numbers alone is that of its tree (`natTree`).
-/
import ZcashFaucet.Lib.JsonText

namespace ZcashFaucet.Lib

/-! ## White space before a value -/

theorem takeUnit_space {c d : UInt16} (hspace : isJsonSpace d = true) (s : JsString) :
    takeUnit c (d :: s) = takeUnit c s := by
  rw [takeUnit, takeUnit, List.dropWhile_cons_of_pos hspace]

theorem takeScalar_space {d : UInt16} (hspace : isJsonSpace d = true) (s : JsString) :
    takeScalar (d :: s) = takeScalar s := by
  rw [takeScalar, takeScalar, List.dropWhile_cons_of_pos hspace]

theorem takeTree_space {d : UInt16} (hspace : isJsonSpace d = true) (fuel : Nat) (s : JsString) :
    takeTree fuel (d :: s) = takeTree fuel s := by
  cases fuel with
  | zero => rw [takeTree, takeTree]
  | succ fuel =>
    rw [takeTree, takeTree]
    simp only [takeUnit_space hspace, takeScalar_space hspace]

theorem takeFields_space {d : UInt16} (hspace : isJsonSpace d = true) (fuel : Nat) (s : JsString) :
    takeFields fuel (d :: s) = takeFields fuel s := by
  cases fuel with
  | zero => rw [takeFields, takeFields]
  | succ fuel =>
    rw [takeFields, takeFields]
    simp only [takeUnit_space hspace]

/-! ## Text that is quoted as it is -/

/-- No control, no quote, no backslash, and ASCII. -/
def isPlainUnit (c : UInt16) : Bool := 0x20 ≤ c && c < 0x80 && c != 0x22 && c != 0x5C

theorem not_surrogate_of_plain {c : UInt16} (h : isPlainUnit c = true) :
    isHighSurrogate c = false ∧ isLowSurrogate c = false := by
  simp only [isPlainUnit, Bool.and_eq_true, decide_eq_true_eq, UInt16.le_iff_toNat_le, UInt16.lt_iff_toNat_lt] at h
  simp only [isHighSurrogate, isLowSurrogate, Bool.and_eq_false_iff, decide_eq_false_iff_not, UInt16.le_iff_toNat_le]
  obtain ⟨⟨⟨-, hascii⟩, -⟩, -⟩ := h
  have h80 : (0x80 : UInt16).toNat = 0x80 := rfl
  have hhigh : (0xD800 : UInt16).toNat = 0xD800 := rfl
  have hlow : (0xDC00 : UInt16).toNat = 0xDC00 := rfl
  omega

theorem quoteUnit_of_plain {c : UInt16} (h : isPlainUnit c = true) : quoteUnit c = [c] := by
  simp only [isPlainUnit, Bool.and_eq_true, decide_eq_true_eq, bne_iff_ne] at h
  obtain ⟨⟨⟨hlow, -⟩, hquote⟩, hback⟩ := h
  have hcontrol : ¬ c < 0x20 := UInt16.not_lt.mpr hlow
  have hne : ∀ d : UInt16, d < 0x20 → c ≠ d := by
    rintro d hd rfl
    exact hcontrol hd
  rw [quoteUnit, if_neg (not_or.mpr ⟨hquote, hback⟩), if_neg (hne _ (by decide)), if_neg (hne _ (by decide)),
    if_neg (hne _ (by decide)), if_neg (hne _ (by decide)), if_neg (hne _ (by decide)), if_neg hcontrol]

theorem isWellFormed_of_plain {s : JsString} (h : s.all isPlainUnit = true) : isWellFormed s = true := by
  have hplain : ∀ c ∈ s, isPlainUnit c = true := List.all_eq_true.mp h
  clear h
  induction s with
  | nil => rfl
  | cons c rest ih =>
    obtain ⟨hhigh, hlow⟩ := not_surrogate_of_plain (hplain c List.mem_cons_self)
    have hrest := ih fun e he => hplain e (List.mem_cons_of_mem c he)
    cases rest with
    | nil => simp [isWellFormed, hhigh, hlow]
    | cons d rest => simp [isWellFormed, hhigh, hlow, hrest]

theorem quoteUnits_of_plain {s : JsString} (h : s.all isPlainUnit = true) : quoteUnits s = s := by
  have hplain : ∀ c ∈ s, isPlainUnit c = true := List.all_eq_true.mp h
  clear h
  induction s with
  | nil => rfl
  | cons c rest ih =>
    obtain ⟨hhigh, hlow⟩ := not_surrogate_of_plain (hplain c List.mem_cons_self)
    have hrest := ih fun e he => hplain e (List.mem_cons_of_mem c he)
    have hunit := quoteUnit_of_plain (hplain c List.mem_cons_self)
    cases rest with
    | nil =>
      rw [quoteUnits, hhigh, hlow]
      exact hunit
    | cons d rest =>
      rw [quoteUnits, hhigh, hlow, hunit, hrest]
      rfl

/-! ## A field a line -/

def lineOf (f : JsString × JsonTree) : JsString := js "  " ++ quote f.1 ++ js ": " ++ f.2.text

def layout (fields : List (JsString × JsonTree)) : JsString :=
  js "\x7b\n" ++ (js ",\n").intercalate (fields.map lineOf) ++ js "\n\x7d\n"

theorem lineOf_append (f : JsString × JsonTree) (rest : JsString) :
    lineOf f ++ rest =
      0x20 :: 0x20 :: 0x22 :: (quoteUnits f.1 ++ 0x22 :: 0x3A :: 0x20 :: (f.2.text ++ rest)) := by
  rw [lineOf, List.append_assoc, List.append_assoc, List.append_assoc, quote_append]
  rfl

theorem takeFields_line_last {fuel : Nat} {rest : JsString} (f : JsString × JsonTree)
    (hfuel : (lineOf f).length < fuel) :
    takeFields (fuel + 1) (lineOf f ++ 0x0A :: 0x7D :: rest) = some ([f], rest) := by
  have hlength := congrArg List.length (lineOf_append f [])
  simp only [List.append_nil, List.length_cons, List.length_append] at hlength
  have hread := takeTree_text f.2 (show EndsNumeral (0x0A :: 0x7D :: rest) by simp [EndsNumeral]; decide)
    (show _ < fuel by omega)
  rw [lineOf_append, takeFields_space (by decide), takeFields_space (by decide), takeFields,
    takeUnit_self (by decide), Option.bind_some, takeUnits_quoteUnits]
  dsimp only
  rw [takeUnit_self (by decide), Option.bind_some, takeTree_space (by decide), hread]
  dsimp only
  rw [takeUnit_space (by decide), takeUnit_ne (by decide) (by decide), takeUnit_space (by decide),
    takeUnit_self (by decide)]
  rfl

theorem takeFields_line_more {fuel : Nat} {more rest : JsString} {fields : List (JsString × JsonTree)}
    (f : JsString × JsonTree) (hfuel : (lineOf f).length < fuel)
    (hmore : takeFields fuel more = some (fields, rest)) :
    takeFields (fuel + 1) (lineOf f ++ 0x2C :: 0x0A :: more) = some (f :: fields, rest) := by
  have hlength := congrArg List.length (lineOf_append f [])
  simp only [List.append_nil, List.length_cons, List.length_append] at hlength
  have hread := takeTree_text f.2 (endsNumeral_cons (c := 0x2C) (by decide) (0x0A :: more))
    (show _ < fuel by omega)
  rw [lineOf_append, takeFields_space (by decide), takeFields_space (by decide), takeFields,
    takeUnit_self (by decide), Option.bind_some, takeUnits_quoteUnits]
  dsimp only
  rw [takeUnit_self (by decide), Option.bind_some, takeTree_space (by decide), hread]
  dsimp only
  rw [takeUnit_self (by decide)]
  dsimp only
  rw [takeFields_space (by decide), hmore]
  rfl

theorem takeFields_lines : ∀ (fields : List (JsString × JsonTree)) {fuel : Nat} (rest : JsString), fields ≠ [] →
    ((js ",\n").intercalate (fields.map lineOf)).length + 1 < fuel →
      takeFields fuel ((js ",\n").intercalate (fields.map lineOf) ++ 0x0A :: 0x7D :: rest) =
        some (fields, rest)
  | [], _, _, h, _ => absurd rfl h
  | _ :: _, 0, _, _, hfuel => absurd hfuel (Nat.not_lt_zero _)
  | [f], fuel + 1, rest, _, hfuel => by
      rw [List.map_singleton, List.intercalate_singleton] at *
      exact takeFields_line_last f (by omega)
  | f :: g :: fields, fuel + 1, rest, _, hfuel => by
      rw [List.map_cons, List.map_cons, List.intercalate_cons_cons, ← List.map_cons] at *
      have htwo : (js ",\n").length = 2 := rfl
      rw [List.length_append, List.length_append, htwo] at hfuel
      have hrest := takeFields_lines (g :: fields) rest (List.cons_ne_nil g fields) (show _ < fuel by omega)
      rw [List.append_assoc, List.append_assoc]
      exact takeFields_line_more f (by omega) hrest

theorem layout_append (fields : List (JsString × JsonTree)) :
    layout fields =
      0x7B :: 0x0A :: ((js ",\n").intercalate (fields.map lineOf) ++ 0x0A :: 0x7D :: [0x0A]) := by
  rw [layout, List.append_assoc]
  rfl

/-- **An object written a field a line is read back.** -/
theorem readTree_layout {fields : List (JsString × JsonTree)} (hne : fields ≠ []) :
    readTree (layout fields) = some (.obj fields) := by
  have hlength := congrArg List.length (layout_append fields)
  simp only [List.length_cons, List.length_append, List.length_nil] at hlength
  have hfields := takeFields_lines fields [0x0A] hne (show _ < (layout fields).length by omega)
  have hnone : takeUnit 0x7D (0x0A :: ((js ",\n").intercalate (fields.map lineOf) ++ 0x0A :: 0x7D :: [0x0A])) =
      none := by
    obtain ⟨f, more, rfl⟩ := List.exists_cons_of_ne_nil hne
    obtain ⟨tail, htail⟩ : ∃ tail, (js ",\n").intercalate ((f :: more).map lineOf) = lineOf f ++ tail := by
      cases more with
      | nil => exact ⟨[], by rw [List.map_singleton, List.intercalate_singleton, List.append_nil]⟩
      | cons g more => exact ⟨_, by rw [List.map_cons, List.map_cons, List.intercalate_cons_cons, List.append_assoc]⟩
    rw [htail, List.append_assoc, lineOf_append, takeUnit_space (by decide), takeUnit_space (by decide),
      takeUnit_space (by decide), takeUnit_ne (by decide) (by decide)]
  rw [← takeFields_space (d := 0x0A) (by decide)] at hfields
  rw [readTree]
  generalize (layout fields).length = fuel at hfields
  rw [layout_append, takeTree_obj hnone, hfields]
  rfl

/-! ## What stands behind a numeral -/

theorem takeDigits_more {s rest : JsString} {d : Digits} (h : takeDigits s = some (d, rest)) (hne : rest ≠ [])
    (more : JsString) : takeDigits (s ++ more) = some (d, rest ++ more) := by
  unfold takeDigits at h
  split at h
  case isFalse => cases h
  case isTrue hdigits =>
    obtain ⟨rfl, rfl⟩ := Prod.mk.inj (Option.some.inj h)
    have hnot : NoDigit (s.dropWhile isDecimalUnit ++ more) := by
      intro c hc
      rw [List.head?_append_of_ne_nil _ hne] at hc
      have hhead := List.head?_dropWhile_not isDecimalUnit s
      rw [Option.mem_def.mp hc] at hhead
      simpa using hhead
    have hread := takeDigits_append ⟨s.takeWhile isDecimalUnit, hdigits, List.all_takeWhile⟩ hnot
    rw [← List.append_assoc, List.takeWhile_append_dropWhile] at hread
    exact hread

theorem takeWhole_more {s rest : JsString} {w : Whole} (h : takeWhole s = some (w, rest)) (hne : rest ≠ [])
    (more : JsString) : takeWhole (s ++ more) = some (w, rest ++ more) := by
  cases s with
  | nil => cases h
  | cons c s =>
    rw [takeWhole] at h
    rw [List.cons_append, takeWhole]
    split at h
    case isTrue hzero =>
      obtain ⟨rfl, rfl⟩ := Prod.mk.inj (Option.some.inj h)
      rw [if_pos hzero]
    case isFalse hzero =>
      rw [if_neg hzero]
      cases hdigits : takeDigits (c :: s) with
      | none =>
        rw [hdigits] at h
        cases h
      | some p =>
        obtain ⟨d, behind⟩ := p
        rw [hdigits] at h
        dsimp only at h
        split at h
        case isFalse => cases h
        case isTrue hhead =>
          obtain ⟨rfl, rfl⟩ := Prod.mk.inj (Option.some.inj h)
          rw [← List.cons_append, takeDigits_more hdigits hne]
          exact dif_pos hhead

theorem takeFraction_more {s rest : JsString} {f : Option Digits} (h : takeFraction s = some (f, rest))
    (hne : rest ≠ []) (more : JsString) : takeFraction (s ++ more) = some (f, rest ++ more) := by
  cases s with
  | nil =>
    obtain ⟨rfl, rfl⟩ := Prod.mk.inj (Option.some.inj h)
    exact absurd rfl hne
  | cons c s =>
    rw [takeFraction] at h
    rw [List.cons_append, takeFraction]
    split at h
    case isTrue hdot =>
      obtain ⟨⟨d, behind⟩, hdigits, heq⟩ := Option.map_eq_some_iff.mp h
      obtain ⟨rfl, rfl⟩ := Prod.mk.inj heq
      rw [if_pos hdot, takeDigits_more hdigits hne]
      rfl
    case isFalse hdot =>
      obtain ⟨rfl, rfl⟩ := Prod.mk.inj (Option.some.inj h)
      rw [if_neg hdot]
      rfl

theorem takeSign_more {s : JsString} (hne : s ≠ []) (more : JsString) :
    takeSign (s ++ more) = ((takeSign s).1, (takeSign s).2 ++ more) := by
  cases s with
  | nil => exact absurd rfl hne
  | cons c s =>
    rw [List.cons_append, takeSign, takeSign]
    split
    · rfl
    · split <;> rfl

theorem takeExponent_more {s rest : JsString} {e : Option Exponent} (h : takeExponent s = some (e, rest))
    (hne : rest ≠ []) (more : JsString) : takeExponent (s ++ more) = some (e, rest ++ more) := by
  cases s with
  | nil =>
    obtain ⟨rfl, rfl⟩ := Prod.mk.inj (Option.some.inj h)
    exact absurd rfl hne
  | cons c s =>
    rw [takeExponent] at h
    rw [List.cons_append, takeExponent]
    split at h
    case isTrue hexp =>
      obtain ⟨⟨d, behind⟩, hdigits, heq⟩ := Option.map_eq_some_iff.mp h
      obtain ⟨rfl, rfl⟩ := Prod.mk.inj heq
      have hs : s ≠ [] := by
        rintro rfl
        cases hdigits
      rw [if_pos hexp, takeSign_more hs, takeDigits_more hdigits hne]
      rfl
    case isFalse hexp =>
      obtain ⟨rfl, rfl⟩ := Prod.mk.inj (Option.some.inj h)
      rw [if_neg hexp]
      rfl

theorem takeMinus_more {s : JsString} (hne : s ≠ []) (more : JsString) :
    takeMinus (s ++ more) = ((takeMinus s).1, (takeMinus s).2 ++ more) := by
  cases s with
  | nil => exact absurd rfl hne
  | cons c s =>
    rw [List.cons_append, takeMinus, takeMinus]
    split <;> rfl

theorem takeNumeral_eq_some {s rest : JsString} {x : Numeral} (h : takeNumeral s = some (x, rest)) :
    ∃ behindWhole behindFraction, takeWhole (takeMinus s).2 = some (x.whole, behindWhole) ∧
      takeFraction behindWhole = some (x.fraction, behindFraction) ∧
      takeExponent behindFraction = some (x.exponent, rest) ∧ x.negative = (takeMinus s).1 := by
  obtain ⟨⟨w, behindWhole⟩, hw, h⟩ := Option.bind_eq_some_iff.mp h
  obtain ⟨⟨f, behindFraction⟩, hf, h⟩ := Option.bind_eq_some_iff.mp h
  obtain ⟨⟨e, behind⟩, he, h⟩ := Option.bind_eq_some_iff.mp h
  obtain ⟨rfl, rfl⟩ := Prod.mk.inj (Option.some.inj h)
  exact ⟨behindWhole, behindFraction, hw, hf, he, rfl⟩

/-- A numeral that something stands behind is not a part of a longer one. -/
theorem takeNumeral_more {s rest : JsString} {x : Numeral} (h : takeNumeral s = some (x, rest)) (hne : rest ≠ [])
    (more : JsString) : takeNumeral (s ++ more) = some (x, rest ++ more) := by
  obtain ⟨behindWhole, behindFraction, hw, hf, he, hnegative⟩ := takeNumeral_eq_some h
  have hfraction : behindFraction ≠ [] := by
    rintro rfl
    exact hne (Prod.mk.inj (Option.some.inj he)).2.symm
  have hwhole : behindWhole ≠ [] := by
    rintro rfl
    exact hfraction (Prod.mk.inj (Option.some.inj hf)).2.symm
  have hs : s ≠ [] := by
    rintro rfl
    cases hw
  unfold takeNumeral
  rw [takeMinus_more hs]
  dsimp only
  rw [takeWhole_more hw hwhole, Option.bind_eq_bind, Option.bind_some]
  dsimp only
  rw [takeFraction_more hf hfraction, Option.bind_eq_bind, Option.bind_some]
  dsimp only
  rw [takeExponent_more he hne, ← hnegative]
  rfl

/-! ## What stands behind a value -/

theorem takeUnits_hex (h₁ h₂ h₃ h₄ : UInt16) (s : JsString) :
    takeUnits (0x5C :: 0x75 :: h₁ :: h₂ :: h₃ :: h₄ :: s) =
      (hexUnit h₁ h₂ h₃ h₄).bind fun u => (takeUnits s).map (consUnit u) := by
  rw [takeUnits, if_neg (by decide), if_pos rfl, if_pos rfl]

theorem takeUnits_back {e : UInt16} (hunicode : e ≠ 0x75) (s : JsString) :
    takeUnits (0x5C :: e :: s) = (unescape e).bind fun u => (takeUnits s).map (consUnit u) := by
  rw [takeUnits.eq_def (0x5C :: e :: s)]
  dsimp only
  rw [if_neg (by decide), if_pos rfl, if_neg hunicode]

/-- Where the text of a string goes on with `s`, it can go on with more. -/
theorem map_consUnit_more {s t u rest more : JsString} {c : UInt16}
    (hmore : ∀ {u rest : JsString}, takeUnits s = some (u, rest) → takeUnits t = some (u, rest ++ more))
    (h : (takeUnits s).map (consUnit c) = some (u, rest)) :
    (takeUnits t).map (consUnit c) = some (u, rest ++ more) := by
  obtain ⟨⟨u', rest'⟩, hs, heq⟩ := Option.map_eq_some_iff.mp h
  obtain ⟨rfl, rfl⟩ := Prod.mk.inj heq
  rw [hmore hs]
  rfl

/-- A string ends with its quote. -/
theorem takeUnits_more {s u rest : JsString} (h : takeUnits s = some (u, rest)) (more : JsString) :
    takeUnits (s ++ more) = some (u, rest ++ more) := by
  induction s using takeUnits.induct generalizing u rest with
  | case1 => cases h
  | case2 =>
    obtain ⟨rfl, rfl⟩ := Prod.mk.inj (Option.some.inj h)
    exact takeUnits_quote more
  | case3 c hquote =>
    rw [takeUnits, if_neg hquote] at h
    cases h
  | case4 e s =>
    rw [takeUnits_quote] at h
    obtain ⟨rfl, rfl⟩ := Prod.mk.inj (Option.some.inj h)
    exact takeUnits_quote _
  | case5 h₁ h₂ h₃ h₄ s _ ih =>
    rw [takeUnits_hex] at h
    obtain ⟨c, hc, h⟩ := Option.bind_eq_some_iff.mp h
    change takeUnits (0x5C :: 0x75 :: h₁ :: h₂ :: h₃ :: h₄ :: (s ++ more)) = _
    rw [takeUnits_hex, hc]
    exact map_consUnit_more ih h
  | case6 s hshort =>
    have hnone : takeUnits (0x5C :: 0x75 :: s) = none := by
      rw [takeUnits, if_neg (by decide), if_pos rfl, if_pos rfl]
      exact hshort
    rw [hnone] at h
    cases h
  | case7 e s hunicode _ ih =>
    rw [takeUnits_back hunicode] at h
    obtain ⟨c, hc, h⟩ := Option.bind_eq_some_iff.mp h
    change takeUnits (0x5C :: e :: (s ++ more)) = _
    rw [takeUnits_back hunicode, hc]
    exact map_consUnit_more ih h
  | case8 c e s hquote hback hcontrol =>
    rw [takeUnits.eq_def (c :: e :: s)] at h
    dsimp only at h
    rw [if_neg hquote, if_neg hback, if_pos hcontrol] at h
    cases h
  | case9 c e s hquote hback hcontrol ih =>
    rw [takeUnits_plain hquote hback hcontrol] at h
    change takeUnits (c :: (e :: s ++ more)) = _
    rw [takeUnits_plain hquote hback hcontrol]
    exact map_consUnit_more ih h

theorem takeUnit_eq_some {c : UInt16} {s rest : JsString} (h : takeUnit c s = some rest) :
    ∃ spaces, (∀ d ∈ spaces, isJsonSpace d = true) ∧ s = spaces ++ c :: rest := by
  unfold takeUnit at h
  split at h
  · cases h
  · rename_i d behind hdrop
    split at h
    · obtain rfl := ‹d = c›
      obtain rfl := Option.some.inj h
      exact ⟨s.takeWhile isJsonSpace, fun d hd => List.mem_takeWhile_imp hd, by
        rw [← hdrop, List.takeWhile_append_dropWhile]⟩
    · cases h

theorem takeUnit_spaces {c : UInt16} {spaces : JsString} (hspaces : ∀ d ∈ spaces, isJsonSpace d = true) (s : JsString) :
    takeUnit c (spaces ++ s) = takeUnit c s := by
  rw [takeUnit, takeUnit, List.dropWhile_append_of_pos hspaces]

theorem takeUnit_more {c : UInt16} (hspace : isJsonSpace c = false) {s rest : JsString} (h : takeUnit c s = some rest)
    (more : JsString) : takeUnit c (s ++ more) = some (rest ++ more) := by
  obtain ⟨spaces, hspaces, rfl⟩ := takeUnit_eq_some h
  rw [List.append_assoc, takeUnit_spaces hspaces]
  exact takeUnit_self hspace _

/-- Where one unit stands, no other does. -/
theorem takeUnit_other {c d : UInt16} (hspace : isJsonSpace c = false) (hne : c ≠ d) {s rest : JsString}
    (h : takeUnit c s = some rest) (more : JsString) : takeUnit d (s ++ more) = none := by
  obtain ⟨spaces, hspaces, rfl⟩ := takeUnit_eq_some h
  rw [List.append_assoc, takeUnit_spaces hspaces]
  exact takeUnit_ne hspace hne _

theorem takeName_more {name s rest : JsString} {t u : JsonTree} (h : takeName name t s = some (u, rest))
    (more : JsString) : takeName name t (s ++ more) = some (u, rest ++ more) := by
  unfold takeName at h ⊢
  split at h
  case isFalse => cases h
  case isTrue hprefix =>
    obtain ⟨rfl, rfl⟩ := Prod.mk.inj (Option.some.inj h)
    obtain ⟨behind, rfl⟩ := List.isPrefixOf_iff_prefix.mp hprefix
    rw [if_pos (List.isPrefixOf_iff_prefix.mpr ⟨behind ++ more, by rw [List.append_assoc]⟩), List.append_assoc,
      List.drop_left, List.drop_left]

theorem takeNumeral_none {c : UInt16} (hdigit : isDecimalUnit c = false) (hminus : c ≠ 0x2D) (s : JsString) :
    takeNumeral (c :: s) = none := by
  have hdigits : takeDigits (c :: s) = none := by
    rw [takeDigits, dif_neg]
    simp [hdigit]
  have hzero : c ≠ 0x30 := by
    rintro rfl
    exact absurd hdigit (by decide)
  have hwhole : takeWhole (takeMinus (c :: s)).2 = none := by
    rw [takeMinus, if_neg hminus, takeWhole, if_neg hzero, hdigits]
  unfold takeNumeral
  dsimp only
  rw [hwhole]
  rfl

/-- The first unit of a scalar says which it is. -/
theorem takeScalar_cases {c : UInt16} (hspace : isJsonSpace c = false) :
    (∃ name t, (∀ x, t ≠ .num x) ∧ ∀ s, takeScalar (c :: s) = takeName name t (c :: s)) ∨
      ∀ s, takeScalar (c :: s) = (takeNumeral (c :: s)).map fun p => (.num p.1, p.2) := by
  have hdrop (s : JsString) : (c :: s).dropWhile isJsonSpace = c :: s := List.dropWhile_cons_of_neg (by simp [hspace])
  have hnull (hne : c ≠ 0x6E) (s : JsString) : takeName (js "null") .null (c :: s) = none := takeName_ne rfl hne _ _
  have htrue (hne : c ≠ 0x74) (s : JsString) : takeName (js "true") (.bool true) (c :: s) = none :=
    takeName_ne rfl hne _ _
  have hfalse (hne : c ≠ 0x66) (s : JsString) : takeName (js "false") (.bool false) (c :: s) = none :=
    takeName_ne rfl hne _ _
  by_cases hn : c = 0x6E
  · subst hn
    refine .inl ⟨js "null", .null, fun _ hnum => JsonTree.noConfusion hnum, fun s => ?_⟩
    rw [takeScalar, hdrop, htrue (by decide), hfalse (by decide), takeNumeral_none (by decide) (by decide)]
    simp
  by_cases ht : c = 0x74
  · subst ht
    refine .inl ⟨js "true", .bool true, fun _ hnum => JsonTree.noConfusion hnum, fun s => ?_⟩
    rw [takeScalar, hdrop, hnull (by decide), hfalse (by decide), takeNumeral_none (by decide) (by decide)]
    simp
  by_cases hf : c = 0x66
  · subst hf
    refine .inl ⟨js "false", .bool false, fun _ hnum => JsonTree.noConfusion hnum, fun s => ?_⟩
    rw [takeScalar, hdrop, hnull (by decide), htrue (by decide), takeNumeral_none (by decide) (by decide)]
    simp
  · refine .inr fun s => ?_
    rw [takeScalar, hdrop, hnull hn, htrue ht, hfalse hf]
    simp

theorem takeScalar_more {c : UInt16} {s rest : JsString} {t : JsonTree} (hspace : isJsonSpace c = false)
    (h : takeScalar (c :: s) = some (t, rest)) (hends : (∀ x, t ≠ .num x) ∨ rest ≠ []) (more : JsString) :
    takeScalar (c :: s ++ more) = some (t, rest ++ more) := by
  rcases takeScalar_cases hspace with ⟨name, u, -, hname⟩ | hnumeral
  · rw [hname] at h
    rw [List.cons_append, hname]
    exact takeName_more h more
  · rw [hnumeral] at h
    obtain ⟨⟨x, behind⟩, hx, heq⟩ := Option.map_eq_some_iff.mp h
    obtain ⟨rfl, rfl⟩ := Prod.mk.inj heq
    rw [List.cons_append, hnumeral, ← List.cons_append,
      takeNumeral_more hx (hends.resolve_left fun hall => hall _ rfl) more]
    rfl

/-! A text that is blank has no value, and one that is not has a first unit. -/

def IsJsonBlank (s : JsString) : Prop := ∀ d ∈ s, isJsonSpace d = true

theorem exists_head {s : JsString} (h : ¬ IsJsonBlank s) :
    ∃ spaces c behind, s = spaces ++ c :: behind ∧ IsJsonBlank spaces ∧ isJsonSpace c = false := by
  induction s with
  | nil => exact absurd nofun h
  | cons d s ih =>
    cases hd : isJsonSpace d with
    | false => exact ⟨[], d, s, rfl, nofun, hd⟩
    | true =>
      have hrest : ¬ IsJsonBlank s := fun hblank =>
        h fun e he => (List.mem_cons.mp he).elim (fun heq => heq ▸ hd) (hblank e)
      obtain ⟨spaces, c, behind, rfl, hspaces, hc⟩ := ih hrest
      exact ⟨d :: spaces, c, behind, rfl,
        fun e he => (List.mem_cons.mp he).elim (fun heq => heq ▸ hd) (hspaces e), hc⟩

theorem takeUnit_blank {s : JsString} (h : IsJsonBlank s) (c : UInt16) : takeUnit c s = none := by
  rw [takeUnit, List.dropWhile_eq_nil_iff.mpr h]

theorem takeScalar_blank {s : JsString} (h : IsJsonBlank s) : takeScalar s = none := by
  rw [takeScalar, List.dropWhile_eq_nil_iff.mpr h]
  rfl

theorem takeTree_blank {s : JsString} (h : IsJsonBlank s) (fuel : Nat) : takeTree fuel s = none := by
  cases fuel with
  | zero => rw [takeTree]
  | succ fuel =>
    rw [takeTree]
    simp only [takeUnit_blank h, takeScalar_blank h]

theorem takeTree_spaces {spaces : JsString} (hspaces : IsJsonBlank spaces) (fuel : Nat) (s : JsString) :
    takeTree fuel (spaces ++ s) = takeTree fuel s := by
  induction spaces with
  | nil => rfl
  | cons d spaces ih =>
    rw [List.cons_append, takeTree_space (hspaces d List.mem_cons_self),
      ih fun e he => hspaces e (List.mem_cons_of_mem d he)]

/-- What a text that is not blank does not begin with, it does not begin with
when it goes on. -/
theorem takeUnit_none_more {c : UInt16} {s : JsString} (hblank : ¬ IsJsonBlank s) (h : takeUnit c s = none)
    (hspace : isJsonSpace c = false) (more : JsString) : takeUnit c (s ++ more) = none := by
  obtain ⟨spaces, d, behind, rfl, hspaces, hd⟩ := exists_head hblank
  have hne : d ≠ c := by
    rintro rfl
    rw [takeUnit_spaces hspaces, takeUnit_self hspace] at h
    cases h
  rw [List.append_assoc, takeUnit_spaces hspaces]
  exact takeUnit_ne hd hne _

theorem takeTree_bracket (fuel : Nat) (s : JsString) :
    takeTree (fuel + 1) (0x5B :: s) =
      match takeUnit 0x5D s with
      | some s => some (.arr [], s)
      | none => (takeItems fuel s).map fun p => (.arr p.1, p.2) := by
  have hquote : takeUnit 0x22 (0x5B :: s) = none := takeUnit_ne (by decide) (by decide) s
  have hopens : takeUnit 0x5B (0x5B :: s) = some s := takeUnit_self (by decide) s
  cases hempty : takeUnit 0x5D s with
  | none => simp only [takeTree, hquote, hopens, hempty]
  | some rest => simp only [takeTree, hquote, hopens, hempty]

theorem takeTree_brace (fuel : Nat) (s : JsString) :
    takeTree (fuel + 1) (0x7B :: s) =
      match takeUnit 0x7D s with
      | some s => some (.obj [], s)
      | none => (takeFields fuel s).map fun p => (.obj p.1, p.2) := by
  have hquote : takeUnit 0x22 (0x7B :: s) = none := takeUnit_ne (by decide) (by decide) s
  have hbracket : takeUnit 0x5B (0x7B :: s) = none := takeUnit_ne (by decide) (by decide) s
  have hopens : takeUnit 0x7B (0x7B :: s) = some s := takeUnit_self (by decide) s
  cases hempty : takeUnit 0x7D s with
  | none => simp only [takeTree, hquote, hbracket, hopens, hempty]
  | some rest => simp only [takeTree, hquote, hbracket, hopens, hempty]

theorem takeItems_blank {s : JsString} (h : IsJsonBlank s) (fuel : Nat) : takeItems fuel s = none := by
  cases fuel with
  | zero => rw [takeItems]
  | succ fuel => rw [takeItems, takeTree_blank h]

theorem takeFields_blank {s : JsString} (h : IsJsonBlank s) (fuel : Nat) : takeFields fuel s = none := by
  cases fuel with
  | zero => rw [takeFields]
  | succ fuel =>
    rw [takeFields, takeUnit_blank h]
    rfl

theorem ne_nil_of_takeUnit {c : UInt16} {s rest : JsString} (h : takeUnit c s = some rest) : s ≠ [] := by
  rintro rfl
  cases h

mutual

/-- What is read of a text is read whatever stands behind it, but for a
numeral at its end, which may go on. -/
theorem takeTree_append : ∀ {fuel fuel' : Nat} {s rest : JsString} {t : JsonTree}, takeTree fuel s = some (t, rest) →
    (∀ x, t ≠ .num x) ∨ rest ≠ [] → fuel ≤ fuel' → ∀ more, takeTree fuel' (s ++ more) = some (t, rest ++ more)
  | 0, _, _, _, _, h, _, _, _ => by
      rw [takeTree] at h
      cases h
  | _ + 1, 0, _, _, _, _, _, hle, _ => absurd hle (Nat.not_succ_le_zero _)
  | fuel + 1, fuel' + 1, s, rest, t, h, hends, hle, more => by
      have hblank : ¬ IsJsonBlank s := fun hblank => by
        rw [takeTree_blank hblank] at h
        cases h
      obtain ⟨spaces, c, s, rfl, hspaces, hc⟩ := exists_head hblank
      rw [takeTree_spaces hspaces] at h
      rw [List.append_assoc, takeTree_spaces hspaces, List.cons_append]
      by_cases hstr : c = 0x22
      · subst hstr
        rw [takeTree_str] at h ⊢
        obtain ⟨⟨u, behind⟩, hu, heq⟩ := Option.map_eq_some_iff.mp h
        obtain ⟨rfl, rfl⟩ := Prod.mk.inj heq
        rw [takeUnits_more hu]
        rfl
      by_cases harr : c = 0x5B
      · subst harr
        rw [takeTree_bracket] at h ⊢
        cases hclose : takeUnit 0x5D s with
        | some behind =>
          rw [hclose] at h
          obtain ⟨rfl, rfl⟩ := Prod.mk.inj (Option.some.inj h)
          rw [takeUnit_more (by decide) hclose]
        | none =>
          rw [hclose] at h
          obtain ⟨⟨items, behind⟩, hitems, heq⟩ := Option.map_eq_some_iff.mp h
          obtain ⟨rfl, rfl⟩ := Prod.mk.inj heq
          have hmore := takeItems_append hitems (Nat.le_of_succ_le_succ hle) more
          have hs : ¬ IsJsonBlank s := fun hs => by
            rw [takeItems_blank hs] at hitems
            cases hitems
          rw [takeUnit_none_more hs hclose (by decide), hmore]
          rfl
      by_cases hobj : c = 0x7B
      · subst hobj
        rw [takeTree_brace] at h ⊢
        cases hclose : takeUnit 0x7D s with
        | some behind =>
          rw [hclose] at h
          obtain ⟨rfl, rfl⟩ := Prod.mk.inj (Option.some.inj h)
          rw [takeUnit_more (by decide) hclose]
        | none =>
          rw [hclose] at h
          obtain ⟨⟨fields, behind⟩, hfields, heq⟩ := Option.map_eq_some_iff.mp h
          obtain ⟨rfl, rfl⟩ := Prod.mk.inj heq
          have hmore := takeFields_append hfields (Nat.le_of_succ_le_succ hle) more
          have hs : ¬ IsJsonBlank s := fun hs => by
            rw [takeFields_blank hs] at hfields
            cases hfields
          rw [takeUnit_none_more hs hclose (by decide), hmore]
          rfl
      · have hne : c ∉ [0x22, 0x5B, (0x7B : UInt16)] := by simp [hstr, harr, hobj]
        rw [takeTree_scalar hc hne] at h ⊢
        exact takeScalar_more hc h hends more

theorem takeItems_append : ∀ {fuel fuel' : Nat} {s rest : JsString} {items : List JsonTree},
    takeItems fuel s = some (items, rest) → fuel ≤ fuel' → ∀ more,
      takeItems fuel' (s ++ more) = some (items, rest ++ more)
  | 0, _, _, _, _, h, _, _ => by
      rw [takeItems] at h
      cases h
  | _ + 1, 0, _, _, _, _, hle, _ => absurd hle (Nat.not_succ_le_zero _)
  | fuel + 1, fuel' + 1, s, rest, items, h, hle, more => by
      rw [takeItems] at h ⊢
      cases hv : takeTree fuel s with
      | none =>
        rw [hv] at h
        cases h
      | some p =>
        obtain ⟨v, behind⟩ := p
        rw [hv] at h
        dsimp only at h
        cases hcomma : takeUnit 0x2C behind with
        | some tail =>
          rw [hcomma] at h
          obtain ⟨⟨items, last⟩, hitems, heq⟩ := Option.map_eq_some_iff.mp h
          obtain ⟨rfl, rfl⟩ := Prod.mk.inj heq
          have hread := takeTree_append hv (.inr (ne_nil_of_takeUnit hcomma)) (Nat.le_of_succ_le_succ hle) more
          have hmore := takeItems_append hitems (Nat.le_of_succ_le_succ hle) more
          rw [hread]
          dsimp only
          rw [takeUnit_more (by decide) hcomma]
          dsimp only
          rw [hmore]
          rfl
        | none =>
          rw [hcomma] at h
          obtain ⟨last, hclose, heq⟩ := Option.map_eq_some_iff.mp h
          obtain ⟨rfl, rfl⟩ := Prod.mk.inj heq
          have hread := takeTree_append hv (.inr (ne_nil_of_takeUnit hclose)) (Nat.le_of_succ_le_succ hle) more
          rw [hread]
          dsimp only
          rw [takeUnit_other (by decide) (by decide) hclose, takeUnit_more (by decide) hclose]
          rfl

theorem takeFields_append : ∀ {fuel fuel' : Nat} {s rest : JsString} {fields : List (JsString × JsonTree)},
    takeFields fuel s = some (fields, rest) → fuel ≤ fuel' → ∀ more,
      takeFields fuel' (s ++ more) = some (fields, rest ++ more)
  | 0, _, _, _, _, h, _, _ => by
      rw [takeFields] at h
      cases h
  | _ + 1, 0, _, _, _, _, hle, _ => absurd hle (Nat.not_succ_le_zero _)
  | fuel + 1, fuel' + 1, s, rest, fields, h, hle, more => by
      rw [takeFields] at h ⊢
      cases hkey : (takeUnit 0x22 s).bind takeUnits with
      | none =>
        rw [hkey] at h
        cases h
      | some k =>
        obtain ⟨key, behindKey⟩ := k
        rw [hkey] at h
        dsimp only at h
        obtain ⟨open', hopen, hunits⟩ := Option.bind_eq_some_iff.mp hkey
        rw [takeUnit_more (by decide) hopen, Option.bind_some, takeUnits_more hunits]
        dsimp only
        cases hv : (takeUnit 0x3A behindKey).bind (takeTree fuel) with
        | none =>
          rw [hv] at h
          cases h
        | some p =>
          obtain ⟨v, behind⟩ := p
          rw [hv] at h
          dsimp only at h
          obtain ⟨colon', hcolon, hvalue⟩ := Option.bind_eq_some_iff.mp hv
          rw [takeUnit_more (by decide) hcolon, Option.bind_some]
          cases hcomma : takeUnit 0x2C behind with
          | some tail =>
            rw [hcomma] at h
            obtain ⟨⟨fields, last⟩, hfields, heq⟩ := Option.map_eq_some_iff.mp h
            obtain ⟨rfl, rfl⟩ := Prod.mk.inj heq
            have hread := takeTree_append hvalue (.inr (ne_nil_of_takeUnit hcomma)) (Nat.le_of_succ_le_succ hle) more
            have hmore := takeFields_append hfields (Nat.le_of_succ_le_succ hle) more
            rw [hread]
            dsimp only
            rw [takeUnit_more (by decide) hcomma]
            dsimp only
            rw [hmore]
            rfl
          | none =>
            rw [hcomma] at h
            obtain ⟨last, hclose, heq⟩ := Option.map_eq_some_iff.mp h
            obtain ⟨rfl, rfl⟩ := Prod.mk.inj heq
            have hread := takeTree_append hvalue (.inr (ne_nil_of_takeUnit hclose)) (Nat.le_of_succ_le_succ hle) more
            rw [hread]
            dsimp only
            rw [takeUnit_other (by decide) (by decide) hclose, takeUnit_more (by decide) hclose]
            rfl

end

theorem takeTree_brace_obj {fuel : Nat} {s rest : JsString} {t : JsonTree}
    (h : takeTree fuel (0x7B :: s) = some (t, rest)) : ∃ fields, t = .obj fields := by
  cases fuel with
  | zero =>
    rw [takeTree] at h
    cases h
  | succ fuel =>
    rw [takeTree_brace] at h
    split at h
    · exact ⟨[], (Prod.mk.inj (Option.some.inj h)).1.symm⟩
    · obtain ⟨⟨fields, behind⟩, -, heq⟩ := Option.map_eq_some_iff.mp h
      exact ⟨fields, (Prod.mk.inj heq).1.symm⟩

/-- **A text that is cut off inside an object is not read.** -/
theorem readTree_of_cut {s more : JsString} {t : JsonTree} (h : readTree (0x7B :: s ++ more) = some t)
    (hcut : ¬ IsJsonBlank more) : readTree (0x7B :: s) = none := by
  unfold readTree at h ⊢
  cases hs : takeTree ((0x7B :: s).length + 1) (0x7B :: s) with
  | none => rfl
  | some p =>
    obtain ⟨w, rest⟩ := p
    obtain ⟨fields, rfl⟩ := takeTree_brace_obj hs
    have hle : (0x7B :: s).length + 1 ≤ (0x7B :: s ++ more).length + 1 := by simp
    rw [takeTree_append hs (.inl nofun) hle more] at h
    dsimp only at h ⊢
    split at h
    · rename_i hrest
      refine absurd (fun d hd => ?_) hcut
      exact List.all_eq_true.mp hrest d (List.mem_append_right rest hd)
    · cases h

/-! ## Natural numbers -/

/-- The text of a number that is a natural one. -/
def natText (q : ℚ) : JsString := decimal q.num.toNat

theorem natText_natCast (n : Nat) : natText n = decimal n := by
  simp [natText]

def natNumeral (n : Nat) : Numeral := ⟨false, Whole.ofNat n, none, none⟩

theorem natNumeral_text (n : Nat) : (natNumeral n).text = decimal n := by
  simp [natNumeral, Numeral.text, Whole.ofNat, fractionText, exponentText]

theorem natNumeral_value (n : Nat) : (natNumeral n).value = n := by
  have hfraction : fractionValue [] = 0 := by simp [fractionValue, decimalValue]
  simp [natNumeral, Numeral.value, Whole.ofNat, decimalValue_decimal, hfraction]

theorem exists_numeral_natText (n : Nat) : ∃ x : Numeral, x.text = natText n ∧ x.value = n :=
  ⟨natNumeral n, by rw [natNumeral_text, natText_natCast], natNumeral_value n⟩

mutual

/-- The tree of a value whose numbers are natural ones. -/
def Json.natTree : Json → JsonTree
  | .null => .null
  | .bool b => .bool b
  | .num (.finite q) => .num (natNumeral q.num.toNat)
  | .num (.infinite _) => .null
  | .str s => .str s
  | .arr items => .arr (natItems items)
  | .obj fields => .obj (natFields fields)

def natItems : List Json → List JsonTree
  | [] => []
  | v :: items => v.natTree :: natItems items

def natFields : List (JsString × Json) → List (JsString × JsonTree)
  | [] => []
  | (key, v) :: fields => (key, v.natTree) :: natFields fields

end

theorem natFields_eq_map (fields : List (JsString × Json)) :
    natFields fields = fields.map fun f => (f.1, f.2.natTree) := by
  induction fields with
  | nil => rw [natFields, List.map_nil]
  | cons f fields ih => rw [natFields, ih, List.map_cons]

/-- The keys stay. -/
theorem natFields_any (fields : List (JsString × Json)) (key : JsString) :
    (natFields fields).any (fun f => f.1 == key) = fields.any fun f => f.1 == key := by
  rw [natFields_eq_map, List.any_map]
  rfl

/-! ## Numerals as doubles -/

mutual

/-- What `JSON.parse` makes of the tree. -/
def JsonTree.parsed (toDouble : ℚ → JsNumber) : JsonTree → Json
  | .null => .null
  | .bool b => .bool b
  | .num x => .num (toDouble x.value)
  | .str s => .str s
  | .arr items => .arr (parsedItems toDouble items)
  | .obj fields => .obj (parsedFields toDouble fields)

def parsedItems (toDouble : ℚ → JsNumber) : List JsonTree → List Json
  | [] => []
  | t :: items => t.parsed toDouble :: parsedItems toDouble items

def parsedFields (toDouble : ℚ → JsNumber) : List (JsString × JsonTree) → List (JsString × Json)
  | [] => []
  | (key, t) :: fields =>
      if fields.any fun f => f.1 == key then parsedFields toDouble fields
      else (key, t.parsed toDouble) :: parsedFields toDouble fields

end

/-- `JSON.parse`, or `none` where it throws. -/
def parseJson (toDouble : ℚ → JsNumber) (s : JsString) : Option Json := (readTree s).map (JsonTree.parsed toDouble)

example : (parseJson .finite (js "\x7b\"a\": 1.0, \"b\": null, \"a\": 2e1\x7d")).map (Json.stringify natText) =
    some (js "\x7b\"b\":null,\"a\":20\x7d") := by decide +kernel

/-- No field comes again. -/
def KeysDistinct (fields : List (JsString × Json)) : Prop := (fields.map Prod.fst).Nodup

theorem KeysDistinct.cons {f : JsString × Json} {fields : List (JsString × Json)} (h : KeysDistinct (f :: fields)) :
    (fields.any fun g => g.1 == f.1) = false ∧ KeysDistinct fields := by
  obtain ⟨hnot, hrest⟩ := List.nodup_cons.mp h
  refine ⟨?_, hrest⟩
  rw [List.any_eq_false]
  intro g hg heq
  exact hnot (List.mem_map.mpr ⟨g, hg, eq_of_beq heq⟩)

theorem parsedFields_natFields {toDouble : ℚ → JsNumber} {fields : List (JsString × Json)}
    (hkeys : KeysDistinct fields) (h : ∀ f ∈ fields, f.2.natTree.parsed toDouble = f.2) :
    parsedFields toDouble (natFields fields) = fields := by
  induction fields with
  | nil => rw [natFields, parsedFields]
  | cons f fields ih =>
    obtain ⟨hnew, hrest⟩ := hkeys.cons
    rw [natFields, parsedFields, natFields_any, hnew, h f List.mem_cons_self,
      ih hrest fun g hg => h g (List.mem_cons_of_mem f hg)]
    rfl

end ZcashFaucet.Lib
