/-
ZcashFaucet.Lib.JsonText — the grammar of JSON texts, read.

A text is read as a tree (`readTree`), which keeps every numeral as it is
spelled and every field in its order. That is where the readers of JSON
part: what a tree says as a value is each one's own. `JsonTree.value` says
it exactly, so `readJson` is not `JSON.parse`, which rounds to doubles and
merges fields of one name.

The text of a tree is read back as the tree (`readTree_text`), and so is
what `JSON.stringify` writes (`readJson_stringify`), where the numbers are
written exactly: that is the condition `IsExact`, since how a number is
written is a parameter.

Each `take` function reads one production off the front of a text and
returns the text behind it. Values nest, so their depth is a fuel, for
which the length of the text is enough.
-/
import ZcashFaucet.Lib.Json
import ZcashFaucet.Lib.JsonNumeral

namespace ZcashFaucet.Lib

/-! ## Strings -/

/-- What stands behind the backslash of an escape, other than `u`. -/
def unescape (c : UInt16) : Option UInt16 :=
  if c = 0x22 ∨ c = 0x5C ∨ c = 0x2F then some c
  else if c = 0x62 then some 0x08
  else if c = 0x66 then some 0x0C
  else if c = 0x6E then some 0x0A
  else if c = 0x72 then some 0x0D
  else if c = 0x74 then some 0x09
  else none

/-- The unit of four hexadecimal digits. -/
def hexUnit (a b c d : UInt16) : Option UInt16 := do
  let a ← hexValue? a
  let b ← hexValue? b
  let c ← hexValue? c
  let d ← hexValue? d
  some (0x1000 * a + 0x100 * b + 0x10 * c + d).toUInt16

def consUnit (c : UInt16) (p : JsString × JsString) : JsString × JsString := (c :: p.1, p.2)

/-- A string up to its closing quote, and the text behind it. -/
def takeUnits : JsString → Option (JsString × JsString)
  | [] => none
  | [c] => if c = 0x22 then some ([], []) else none
  | c :: e :: s =>
      if c = 0x22 then some ([], e :: s)
      else if c = 0x5C then
        if e = 0x75 then
          match s with
          | h₁ :: h₂ :: h₃ :: h₄ :: s => (hexUnit h₁ h₂ h₃ h₄).bind fun u => (takeUnits s).map (consUnit u)
          | _ => none
        else (unescape e).bind fun u => (takeUnits s).map (consUnit u)
      else if c < 0x20 then none
      else (takeUnits (e :: s)).map (consUnit c)

/-! ## Trees -/

/-- A value as a text spells it. -/
inductive JsonTree
  | null
  | bool (b : Bool)
  | num (x : Numeral)
  | str (s : JsString)
  | arr (items : List JsonTree)
  | obj (fields : List (JsString × JsonTree))

mutual

/-- What the tree says, with every number exact. -/
def JsonTree.value : JsonTree → Json
  | .null => .null
  | .bool b => .bool b
  | .num x => .num (.finite x.value)
  | .str s => .str s
  | .arr items => .arr (valueItems items)
  | .obj fields => .obj (valueFields fields)

def valueItems : List JsonTree → List Json
  | [] => []
  | t :: items => t.value :: valueItems items

def valueFields : List (JsString × JsonTree) → List (JsString × Json)
  | [] => []
  | (key, t) :: fields => (key, t.value) :: valueFields fields

end

mutual

/-- The text without white space. -/
def JsonTree.text : JsonTree → JsString
  | .null => js "null"
  | .bool true => js "true"
  | .bool false => js "false"
  | .num x => x.text
  | .str s => quote s
  | .arr items => js "[" ++ textItems items ++ js "]"
  | .obj fields => js "\x7b" ++ textFields fields ++ js "\x7d"

def textItems : List JsonTree → JsString
  | [] => []
  | t :: items => t.text ++ if items.isEmpty then [] else js "," ++ textItems items

def textFields : List (JsString × JsonTree) → JsString
  | [] => []
  | (key, t) :: fields =>
      quote key ++ js ":" ++ t.text ++ if fields.isEmpty then [] else js "," ++ textFields fields

end

/-! ## Values -/

def isJsonSpace (c : UInt16) : Bool := c == 0x20 || c == 0x09 || c == 0x0A || c == 0x0D

/-- One unit of punctuation, with white space before it. -/
def takeUnit (c : UInt16) (s : JsString) : Option JsString :=
  match s.dropWhile isJsonSpace with
  | [] => none
  | d :: s => if d = c then some s else none

/-- A literal name. -/
def takeName (name : JsString) (t : JsonTree) (s : JsString) : Option (JsonTree × JsString) :=
  if name.isPrefixOf s then some (t, s.drop name.length) else none

def takeScalar (s : JsString) : Option (JsonTree × JsString) :=
  let s := s.dropWhile isJsonSpace
  takeName (js "null") .null s <|> takeName (js "true") (.bool true) s <|> takeName (js "false") (.bool false) s <|>
    (takeNumeral s).map fun p => (.num p.1, p.2)

mutual

/-- A value, and the text behind it. -/
def takeTree : Nat → JsString → Option (JsonTree × JsString)
  | 0, _ => none
  | fuel + 1, s =>
      match takeUnit 0x22 s with
      | some s => (takeUnits s).map fun p => (.str p.1, p.2)
      | none =>
          match takeUnit 0x5B s with
          | some s =>
              match takeUnit 0x5D s with
              | some s => some (.arr [], s)
              | none => (takeItems fuel s).map fun p => (.arr p.1, p.2)
          | none =>
              match takeUnit 0x7B s with
              | some s =>
                  match takeUnit 0x7D s with
                  | some s => some (.obj [], s)
                  | none => (takeFields fuel s).map fun p => (.obj p.1, p.2)
              | none => takeScalar s

/-- Items up to the closing bracket. -/
def takeItems : Nat → JsString → Option (List JsonTree × JsString)
  | 0, _ => none
  | fuel + 1, s =>
      match takeTree fuel s with
      | none => none
      | some (t, s) =>
          match takeUnit 0x2C s with
          | some s => (takeItems fuel s).map fun p => (t :: p.1, p.2)
          | none => (takeUnit 0x5D s).map fun s => ([t], s)

/-- Fields up to the closing brace. -/
def takeFields : Nat → JsString → Option (List (JsString × JsonTree) × JsString)
  | 0, _ => none
  | fuel + 1, s =>
      match (takeUnit 0x22 s).bind takeUnits with
      | none => none
      | some (key, s) =>
          match (takeUnit 0x3A s).bind (takeTree fuel) with
          | none => none
          | some (t, s) =>
              match takeUnit 0x2C s with
              | some s => (takeFields fuel s).map fun p => ((key, t) :: p.1, p.2)
              | none => (takeUnit 0x7D s).map fun s => ([(key, t)], s)

end

/-- A whole text. -/
def readTree (s : JsString) : Option JsonTree :=
  match takeTree (s.length + 1) s with
  | none => none
  | some (t, rest) => if rest.all isJsonSpace then some t else none

/-- What a whole text says. -/
def readJson (s : JsString) : Option Json := (readTree s).map JsonTree.value

example : (readTree (js " [ 1.50, null, \"a\\u0062\\n\" ]\n")).map JsonTree.text =
    some (js "[1.50,null,\"ab\\n\"]") := by decide +kernel

/-! ## Strings are read back -/

theorem takeUnits_quote (rest : JsString) : takeUnits (0x22 :: rest) = some ([], rest) := by
  cases rest with
  | nil => rfl
  | cons c rest =>
    rw [takeUnits.eq_def]
    exact if_pos rfl

theorem takeUnits_plain {c : UInt16} (hquote : c ≠ 0x22) (hback : c ≠ 0x5C) (hcontrol : ¬ c < 0x20) (s : JsString) :
    takeUnits (c :: s) = (takeUnits s).map (consUnit c) := by
  rw [takeUnits.eq_def (c :: s)]
  cases s with
  | nil => exact if_neg hquote
  | cons d s =>
    dsimp only
    rw [if_neg hquote, if_neg hback, if_neg hcontrol]

theorem takeUnits_escape {e u : UInt16} (hunicode : e ≠ 0x75) (h : unescape e = some u) (s : JsString) :
    takeUnits (0x5C :: e :: s) = (takeUnits s).map (consUnit u) := by
  rw [takeUnits.eq_def (0x5C :: e :: s)]
  dsimp only
  rw [if_neg (by decide), if_pos rfl, if_neg hunicode, h, Option.bind_some]

theorem hexUnit_hexDigitLower (c : UInt16) :
    hexUnit (hexDigitLower (c.toNat / 0x1000)) (hexDigitLower (c.toNat / 0x100 % 0x10))
      (hexDigitLower (c.toNat / 0x10 % 0x10)) (hexDigitLower (c.toNat % 0x10)) = some c := by
  have hlt := c.toNat_lt
  have hsum : 0x1000 * (c.toNat / 0x1000) + 0x100 * (c.toNat / 0x100 % 0x10) + 0x10 * (c.toNat / 0x10 % 0x10) +
      c.toNat % 0x10 = c.toNat := by omega
  simp only [hexUnit, hexValue?_hexDigitLower (show c.toNat / 0x1000 < 16 by omega),
    hexValue?_hexDigitLower (Nat.mod_lt _ (by decide : 0x10 > 0)), Option.bind_eq_bind, Option.bind_some, hsum,
    Nat.toUInt16_eq, UInt16.ofNat_toNat]

theorem takeUnits_unicodeEscape (c : UInt16) (s : JsString) :
    takeUnits (unicodeEscape c ++ s) = (takeUnits s).map (consUnit c) := by
  simp only [unicodeEscape, List.cons_append, List.nil_append]
  rw [takeUnits, if_neg (by decide), if_pos rfl, if_pos rfl]
  simp only [hexUnit_hexDigitLower, Option.bind_some]

theorem takeUnits_quoteUnit (c : UInt16) (s : JsString) :
    takeUnits (quoteUnit c ++ s) = (takeUnits s).map (consUnit c) := by
  unfold quoteUnit
  split_ifs with hself hb ht hn hf hr hcontrol
  · have hne : c ≠ 0x75 := by rcases hself with rfl | rfl <;> decide
    exact takeUnits_escape hne (if_pos (hself.imp_right Or.inl)) s
  · exact hb ▸ takeUnits_escape (by decide) (by decide) s
  · exact ht ▸ takeUnits_escape (by decide) (by decide) s
  · exact hn ▸ takeUnits_escape (by decide) (by decide) s
  · exact hf ▸ takeUnits_escape (by decide) (by decide) s
  · exact hr ▸ takeUnits_escape (by decide) (by decide) s
  · exact takeUnits_unicodeEscape c s
  · exact takeUnits_plain (not_or.mp hself).1 (not_or.mp hself).2 hcontrol s

/-- A surrogate needs no escape. -/
theorem takeUnits_surrogate {c : UInt16} (h : isHighSurrogate c = true ∨ isLowSurrogate c = true) (s : JsString) :
    takeUnits (c :: s) = (takeUnits s).map (consUnit c) := by
  have hle : (0xD800 : UInt16) ≤ c := by
    rcases h with h | h
    · simp only [isHighSurrogate, Bool.and_eq_true, decide_eq_true_eq] at h
      exact h.1
    · simp only [isLowSurrogate, Bool.and_eq_true, decide_eq_true_eq] at h
      exact UInt16.le_trans (by decide) h.1
  have hnat : 0xD800 ≤ c.toNat := UInt16.le_iff_toNat_le.mp hle
  refine takeUnits_plain ?_ ?_ ?_ s
  · rintro rfl
    exact absurd hnat (by decide)
  · rintro rfl
    exact absurd hnat (by decide)
  · intro hlt
    have : c.toNat < 0x20 := UInt16.lt_iff_toNat_lt.mp hlt
    omega

/-- What stands between the quotes is read back. -/
theorem takeUnits_quoteUnits (s rest : JsString) : takeUnits (quoteUnits s ++ 0x22 :: rest) = some (s, rest) := by
  fun_induction quoteUnits s with
  | case1 => exact takeUnits_quote rest
  | case2 c h => rw [takeUnits_unicodeEscape, takeUnits_quote, Option.map_some, consUnit]
  | case3 c h => rw [takeUnits_quoteUnit, takeUnits_quote, Option.map_some, consUnit]
  | case4 c d s hhigh hlow ih =>
    rw [List.cons_append, List.cons_append, takeUnits_surrogate (Or.inl hhigh), takeUnits_surrogate (Or.inr hlow), ih]
    rfl
  | case5 c d s hhigh hlow ih => rw [List.append_assoc, takeUnits_unicodeEscape, ih, Option.map_some, consUnit]
  | case6 c d s hhigh hlow ih => rw [List.append_assoc, takeUnits_unicodeEscape, ih, Option.map_some, consUnit]
  | case7 c d s hhigh hlow ih => rw [List.append_assoc, takeUnits_quoteUnit, ih, Option.map_some, consUnit]

/-! ## Trees are read back -/

theorem takeUnit_self {c : UInt16} (hspace : isJsonSpace c = false) (s : JsString) :
    takeUnit c (c :: s) = some s := by
  simp [takeUnit, hspace]

theorem takeUnit_ne {c d : UInt16} (hspace : isJsonSpace d = false) (hne : d ≠ c) (s : JsString) :
    takeUnit c (d :: s) = none := by
  simp [takeUnit, hspace, hne]

/-- A numeral begins with a minus or a digit. -/
theorem Numeral.text_eq_cons (x : Numeral) : ∃ c s, x.text = c :: s ∧ (c = 0x2D ∨ isDecimalUnit c = true) := by
  obtain ⟨negative, w, f, e⟩ := x
  cases negative with
  | true => exact ⟨_, _, rfl, Or.inl rfl⟩
  | false =>
    cases hw : w.units with
    | nil => exact absurd hw w.ne_nil
    | cons c s =>
      refine ⟨c, _, by rw [Numeral.text, hw]; rfl, Or.inr (w.mem (hw ▸ List.mem_cons_self))⟩

/-- What a numeral begins with is neither space nor any of the other beginnings. -/
theorem numeral_head {c : UInt16} (h : c = 0x2D ∨ isDecimalUnit c = true) :
    isJsonSpace c = false ∧ c ∉ [0x22, 0x5B, 0x5D, 0x7B, 0x6E, 0x74, 0x66] := by
  rcases h with rfl | h
  · decide
  · have hne : ∀ d, isDecimalUnit d = false → c ≠ d := by
      rintro d hd rfl
      rw [hd] at h
      cases h
    constructor
    · simp [isJsonSpace, hne 0x20 rfl, hne 0x09 rfl, hne 0x0A rfl, hne 0x0D rfl]
    · simp [hne 0x22 rfl, hne 0x5B rfl, hne 0x5D rfl, hne 0x7B rfl, hne 0x6E rfl, hne 0x74 rfl, hne 0x66 rfl]

theorem takeName_ne {name : JsString} {c d : UInt16} (h : name.head? = some c) (hne : d ≠ c) (t : JsonTree)
    (s : JsString) : takeName name t (d :: s) = none := by
  cases name with
  | nil => cases h
  | cons e name =>
    obtain rfl := Option.some.inj h
    have hprefix : (e :: name).isPrefixOf (d :: s) = false := by simp [List.isPrefixOf, hne.symm]
    simp [takeName, hprefix]

/-- A numeral is a scalar. -/
theorem takeScalar_numeral (x : Numeral) {rest : JsString} (hrest : EndsNumeral rest) :
    takeScalar (x.text ++ rest) = some (.num x, rest) := by
  obtain ⟨c, s, htext, hc⟩ := x.text_eq_cons
  obtain ⟨hspace, hne⟩ := numeral_head hc
  have hdrop : (x.text ++ rest).dropWhile isJsonSpace = x.text ++ rest := by simp [htext, hspace]
  simp only [List.mem_cons, not_or] at hne
  obtain ⟨-, -, -, -, hn, ht, hf, -⟩ := hne
  have hname : ∀ {name : JsString} {d : UInt16} (t : JsonTree), c ≠ d → name.head? = some d →
      takeName name t (x.text ++ rest) = none := by
    intro name d t hcd hhead
    rw [htext, List.cons_append]
    exact takeName_ne hhead hcd t _
  rw [takeScalar, hdrop, hname _ hn rfl, hname _ ht rfl, hname _ hf rfl, takeNumeral_text x hrest]
  rfl

/-- What the text of a tree begins with. -/
theorem text_eq_cons (t : JsonTree) : ∃ c s, t.text = c :: s ∧ isJsonSpace c = false ∧ c ≠ 0x5D := by
  cases t with
  | null => exact ⟨0x6E, js "ull", by rw [JsonTree.text]; rfl, by decide, by decide⟩
  | bool b =>
    cases b with
    | false => exact ⟨0x66, js "alse", by rw [JsonTree.text]; rfl, by decide, by decide⟩
    | true => exact ⟨0x74, js "rue", by rw [JsonTree.text]; rfl, by decide, by decide⟩
  | num x =>
    obtain ⟨c, s, hcons, hc⟩ := x.text_eq_cons
    obtain ⟨hspace, hne⟩ := numeral_head hc
    exact ⟨c, s, by rw [JsonTree.text, hcons], hspace, fun heq => hne (by rw [heq]; decide)⟩
  | str s => exact ⟨0x22, _, by rw [JsonTree.text]; rfl, by decide, by decide⟩
  | arr items => exact ⟨0x5B, _, by rw [JsonTree.text]; rfl, by decide, by decide⟩
  | obj fields => exact ⟨0x7B, _, by rw [JsonTree.text]; rfl, by decide, by decide⟩

theorem endsNumeral_cons {c : UInt16} (h : c ∈ [0x2C, 0x5D, 0x7D]) (s : JsString) : EndsNumeral (c :: s) := by
  intro d hd
  obtain rfl := Option.some.inj hd
  simp only [List.mem_cons, List.not_mem_nil, or_false] at h
  rcases h with rfl | rfl | rfl <;> decide

theorem takeTree_str (fuel : Nat) (s : JsString) :
    takeTree (fuel + 1) (0x22 :: s) = (takeUnits s).map fun p => (.str p.1, p.2) := by
  rw [takeTree, takeUnit_self (by decide)]

/-- An array that is not empty. -/
theorem takeTree_arr {fuel : Nat} {s : JsString} (h : takeUnit 0x5D s = none) :
    takeTree (fuel + 1) (0x5B :: s) = (takeItems fuel s).map fun p => (.arr p.1, p.2) := by
  rw [takeTree, takeUnit_ne (by decide) (by decide), takeUnit_self (by decide)]
  dsimp only
  rw [h]

/-- An object that is not empty. -/
theorem takeTree_obj {fuel : Nat} {s : JsString} (h : takeUnit 0x7D s = none) :
    takeTree (fuel + 1) (0x7B :: s) = (takeFields fuel s).map fun p => (.obj p.1, p.2) := by
  rw [takeTree, takeUnit_ne (by decide) (by decide)]
  dsimp only
  rw [takeUnit_ne (by decide) (by decide), takeUnit_self (by decide)]
  dsimp only
  rw [h]

theorem takeTree_scalar {fuel : Nat} {c : UInt16} {s : JsString} (hspace : isJsonSpace c = false)
    (hne : c ∉ [0x22, 0x5B, 0x7B]) : takeTree (fuel + 1) (c :: s) = takeScalar (c :: s) := by
  simp only [List.mem_cons, List.not_mem_nil, or_false, not_or] at hne
  obtain ⟨hquote, hbracket, hbrace⟩ := hne
  rw [takeTree, takeUnit_ne hspace hquote]
  dsimp only
  rw [takeUnit_ne hspace hbracket]
  dsimp only
  rw [takeUnit_ne hspace hbrace]

/-- The last item. -/
theorem takeItems_last {fuel : Nat} {s rest : JsString} {t : JsonTree} (h : takeTree fuel s = some (t, 0x5D :: rest)) :
    takeItems (fuel + 1) s = some ([t], rest) := by
  rw [takeItems, h]
  dsimp only
  rw [takeUnit_ne (by decide) (by decide), takeUnit_self (by decide)]
  rfl

/-- An item with more behind it. -/
theorem takeItems_more {fuel : Nat} {s more rest : JsString} {t : JsonTree} {items : List JsonTree}
    (h : takeTree fuel s = some (t, 0x2C :: more)) (hmore : takeItems fuel more = some (items, rest)) :
    takeItems (fuel + 1) s = some (t :: items, rest) := by
  rw [takeItems, h]
  dsimp only
  rw [takeUnit_self (by decide)]
  dsimp only
  rw [hmore]
  rfl

theorem takeFields_last {fuel : Nat} {s rest : JsString} {t : JsonTree} (key : JsString)
    (h : takeTree fuel s = some (t, 0x7D :: rest)) :
    takeFields (fuel + 1) (0x22 :: (quoteUnits key ++ 0x22 :: 0x3A :: s)) = some ([(key, t)], rest) := by
  rw [takeFields, takeUnit_self (by decide), Option.bind_some, takeUnits_quoteUnits]
  dsimp only
  rw [takeUnit_self (by decide), Option.bind_some, h]
  dsimp only
  rw [takeUnit_ne (by decide) (by decide), takeUnit_self (by decide)]
  rfl

theorem takeFields_more {fuel : Nat} {s more rest : JsString} {t : JsonTree} {fields : List (JsString × JsonTree)}
    (key : JsString) (h : takeTree fuel s = some (t, 0x2C :: more))
    (hmore : takeFields fuel more = some (fields, rest)) :
    takeFields (fuel + 1) (0x22 :: (quoteUnits key ++ 0x22 :: 0x3A :: s)) = some ((key, t) :: fields, rest) := by
  rw [takeFields, takeUnit_self (by decide), Option.bind_some, takeUnits_quoteUnits]
  dsimp only
  rw [takeUnit_self (by decide), Option.bind_some, h]
  dsimp only
  rw [takeUnit_self (by decide)]
  dsimp only
  rw [hmore]
  rfl

/-! Texts that are written, with what is behind them. -/

theorem quote_append (s rest : JsString) : quote s ++ rest = 0x22 :: (quoteUnits s ++ 0x22 :: rest) := by
  rw [quote, List.append_assoc, List.append_assoc]
  rfl

theorem text_arr_append (items : List JsonTree) (rest : JsString) :
    (JsonTree.arr items).text ++ rest = 0x5B :: (textItems items ++ 0x5D :: rest) := by
  rw [JsonTree.text, List.append_assoc, List.append_assoc]
  rfl

theorem text_obj_append (fields : List (JsString × JsonTree)) (rest : JsString) :
    (JsonTree.obj fields).text ++ rest = 0x7B :: (textFields fields ++ 0x7D :: rest) := by
  rw [JsonTree.text, List.append_assoc, List.append_assoc]
  rfl

/-- An item and what is behind it: the closing bracket or the next item. -/
theorem textItems_append (t : JsonTree) (items : List JsonTree) (rest : JsString) :
    textItems (t :: items) ++ rest =
      t.text ++ (if items.isEmpty then rest else 0x2C :: (textItems items ++ rest)) := by
  rw [textItems, List.append_assoc]
  cases items with
  | nil => rfl
  | cons w items => rfl

theorem textFields_append (key : JsString) (t : JsonTree) (fields : List (JsString × JsonTree)) (rest : JsString) :
    textFields ((key, t) :: fields) ++ rest =
      0x22 :: (quoteUnits key ++ 0x22 :: 0x3A :: (t.text ++
        (if fields.isEmpty then rest else 0x2C :: (textFields fields ++ rest)))) := by
  rw [textFields, List.append_assoc, List.append_assoc, List.append_assoc, quote_append]
  cases fields with
  | nil => rfl
  | cons f fields => rfl

mutual

/-- A tree is read from its text, and nothing behind it is. -/
theorem takeTree_text : ∀ (t : JsonTree) {fuel : Nat} {rest : JsString}, EndsNumeral rest →
    t.text.length < fuel → takeTree fuel (t.text ++ rest) = some (t, rest)
  | _, 0, _, _, hfuel => absurd hfuel (Nat.not_lt_zero _)
  | .null, fuel + 1, rest, _, _ => by
      rw [JsonTree.text]
      exact takeTree_scalar (by decide) (by decide)
  | .bool true, fuel + 1, rest, _, _ => by
      rw [JsonTree.text]
      exact takeTree_scalar (by decide) (by decide)
  | .bool false, fuel + 1, rest, _, _ => by
      rw [JsonTree.text]
      exact takeTree_scalar (by decide) (by decide)
  | .num x, fuel + 1, rest, hrest, _ => by
      obtain ⟨c, s, hcons, hc⟩ := x.text_eq_cons
      obtain ⟨hspace, hne⟩ := numeral_head hc
      have hscalar := takeScalar_numeral x hrest
      rw [JsonTree.text, ← hscalar, hcons]
      have hsub : [0x22, 0x5B, 0x7B] ⊆ [0x22, 0x5B, 0x5D, 0x7B, 0x6E, 0x74, (0x66 : UInt16)] := by decide
      exact takeTree_scalar hspace fun hmem => hne (hsub hmem)
  | .str s, fuel + 1, rest, _, _ => by
      rw [JsonTree.text, quote_append, takeTree_str, takeUnits_quoteUnits]
      rfl
  | .arr [], fuel + 1, rest, _, _ => by
      rw [text_arr_append, takeTree, takeUnit_ne (by decide) (by decide), takeUnit_self (by decide)]
      dsimp only
      rw [textItems, List.nil_append, takeUnit_self (by decide)]
  | .arr (t :: items), fuel + 1, rest, _, hfuel => by
      obtain ⟨c, s, hcons, hspace, hne⟩ := text_eq_cons t
      have hlength := congrArg List.length (text_arr_append (t :: items) [])
      have hnone : takeUnit 0x5D (textItems (t :: items) ++ 0x5D :: rest) = none := by
        rw [textItems_append, hcons]
        exact takeUnit_ne hspace hne _
      simp only [List.append_nil, List.length_cons, List.length_append, List.length_nil] at hlength
      rw [text_arr_append, takeTree_arr hnone,
        takeItems_text (t :: items) rest (List.cons_ne_nil t items) (by omega)]
      rfl
  | .obj [], fuel + 1, rest, _, _ => by
      rw [text_obj_append, takeTree, takeUnit_ne (by decide) (by decide)]
      dsimp only
      rw [takeUnit_ne (by decide) (by decide), takeUnit_self (by decide)]
      dsimp only
      rw [textFields, List.nil_append, takeUnit_self (by decide)]
  | .obj ((key, t) :: fields), fuel + 1, rest, _, hfuel => by
      have hlength := congrArg List.length (text_obj_append ((key, t) :: fields) [])
      have hnone : takeUnit 0x7D (textFields ((key, t) :: fields) ++ 0x7D :: rest) = none := by
        rw [textFields_append]
        exact takeUnit_ne (by decide) (by decide) _
      simp only [List.append_nil, List.length_cons, List.length_append, List.length_nil] at hlength
      rw [text_obj_append, takeTree_obj hnone,
        takeFields_text ((key, t) :: fields) rest (List.cons_ne_nil _ fields) (by omega)]
      rfl

theorem takeItems_text : ∀ (items : List JsonTree) {fuel : Nat} (rest : JsString), items ≠ [] →
    (textItems items).length + 1 < fuel →
      takeItems fuel (textItems items ++ 0x5D :: rest) = some (items, rest)
  | [], _, _, h, _ => absurd rfl h
  | _ :: _, 0, _, _, hfuel => absurd hfuel (Nat.not_lt_zero _)
  | [t], fuel + 1, rest, _, hfuel => by
      have hlength := congrArg List.length (textItems_append t [] [])
      simp only [List.append_nil, List.isEmpty_nil, if_true] at hlength
      have hread := takeTree_text t (endsNumeral_cons (c := 0x5D) (by decide) rest) (show _ < fuel by omega)
      rw [textItems_append]
      exact takeItems_last hread
  | t :: u :: items, fuel + 1, rest, _, hfuel => by
      have hlength := congrArg List.length (textItems_append t (u :: items) [])
      simp only [List.append_nil, List.isEmpty_cons, Bool.false_eq_true, if_false, List.length_append,
        List.length_cons] at hlength
      have hread := takeTree_text t (endsNumeral_cons (c := 0x2C) (by decide)
        (textItems (u :: items) ++ 0x5D :: rest)) (show _ < fuel by omega)
      have hrest := takeItems_text (u :: items) rest (List.cons_ne_nil u items) (show _ < fuel by omega)
      rw [textItems_append]
      exact takeItems_more hread hrest

theorem takeFields_text : ∀ (fields : List (JsString × JsonTree)) {fuel : Nat} (rest : JsString), fields ≠ [] →
    (textFields fields).length + 1 < fuel →
      takeFields fuel (textFields fields ++ 0x7D :: rest) = some (fields, rest)
  | [], _, _, h, _ => absurd rfl h
  | _ :: _, 0, _, _, hfuel => absurd hfuel (Nat.not_lt_zero _)
  | [(key, t)], fuel + 1, rest, _, hfuel => by
      have hlength := congrArg List.length (textFields_append key t [] [])
      simp only [List.append_nil, List.isEmpty_nil, if_true, List.length_append, List.length_cons] at hlength
      have hread := takeTree_text t (endsNumeral_cons (c := 0x7D) (by decide) rest) (show _ < fuel by omega)
      rw [textFields_append]
      exact takeFields_last key hread
  | (key, t) :: f :: fields, fuel + 1, rest, _, hfuel => by
      have hlength := congrArg List.length (textFields_append key t (f :: fields) [])
      simp only [List.append_nil, List.isEmpty_cons, Bool.false_eq_true, if_false, List.length_append,
        List.length_cons] at hlength
      have hread := takeTree_text t (endsNumeral_cons (c := 0x2C) (by decide)
        (textFields (f :: fields) ++ 0x7D :: rest)) (show _ < fuel by omega)
      have hrest := takeFields_text (f :: fields) rest (List.cons_ne_nil f fields) (show _ < fuel by omega)
      rw [textFields_append]
      exact takeFields_more key hread hrest

end

/-- **The text of a tree is read back.** -/
theorem readTree_text (t : JsonTree) : readTree t.text = some t := by
  have hread := takeTree_text t endsNumeral_nil (Nat.lt_succ_self _)
  rw [List.append_nil] at hread
  rw [readTree, hread]
  rfl

/-! ## Values are read back -/

mutual

/-- Every number is one, and is written exactly. -/
def Json.IsExact (numText : ℚ → JsString) : Json → Prop
  | .num (.finite q) => ∃ x : Numeral, x.text = numText q ∧ x.value = q
  | .num (.infinite _) => False
  | .arr items => AllExact numText items
  | .obj fields => FieldsExact numText fields
  | _ => True

def AllExact (numText : ℚ → JsString) : List Json → Prop
  | [] => True
  | v :: rest => v.IsExact numText ∧ AllExact numText rest

def FieldsExact (numText : ℚ → JsString) : List (JsString × Json) → Prop
  | [] => True
  | (_, v) :: rest => v.IsExact numText ∧ FieldsExact numText rest

end

section

variable {numText : ℚ → JsString}

mutual

/-- What is written exactly is the text of a tree that says it. -/
theorem exists_tree : ∀ v : Json, v.IsExact numText → ∃ t : JsonTree, t.text = v.stringify numText ∧ t.value = v
  | .null, _ => ⟨.null, by rw [JsonTree.text, Json.stringify], by rw [JsonTree.value]⟩
  | .bool true, _ => ⟨.bool true, by rw [JsonTree.text, Json.stringify], by rw [JsonTree.value]⟩
  | .bool false, _ => ⟨.bool false, by rw [JsonTree.text, Json.stringify], by rw [JsonTree.value]⟩
  | .num (.finite q), h => by
      obtain ⟨x, htext, hvalue⟩ := h
      exact ⟨.num x, by rw [JsonTree.text, Json.stringify, htext], by rw [JsonTree.value, hvalue]⟩
  | .num (.infinite _), h => h.elim
  | .str s, _ => ⟨.str s, by rw [JsonTree.text, Json.stringify], by rw [JsonTree.value]⟩
  | .arr items, h => by
      obtain ⟨ts, htext, hvalue, -⟩ := exists_treeItems items h
      exact ⟨.arr ts, by rw [JsonTree.text, Json.stringify, htext], by rw [JsonTree.value, hvalue]⟩
  | .obj fields, h => by
      obtain ⟨fs, htext, hvalue, -⟩ := exists_treeFields fields h
      exact ⟨.obj fs, by rw [JsonTree.text, Json.stringify, htext], by rw [JsonTree.value, hvalue]⟩

theorem exists_treeItems : ∀ items : List Json, AllExact numText items →
    ∃ ts, textItems ts = stringifyItems numText items ∧ valueItems ts = items ∧ ts.isEmpty = items.isEmpty
  | [], _ => ⟨[], by rw [textItems, stringifyItems], by rw [valueItems], rfl⟩
  | v :: rest, h => by
      obtain ⟨t, htext, hvalue⟩ := exists_tree v h.1
      obtain ⟨ts, htexts, hvalues, hempty⟩ := exists_treeItems rest h.2
      exact ⟨t :: ts, by rw [textItems, stringifyItems, htext, htexts, hempty], by rw [valueItems, hvalue, hvalues],
        rfl⟩

theorem exists_treeFields : ∀ fields : List (JsString × Json), FieldsExact numText fields →
    ∃ fs, textFields fs = stringifyFields numText fields ∧ valueFields fs = fields ∧ fs.isEmpty = fields.isEmpty
  | [], _ => ⟨[], by rw [textFields, stringifyFields], by rw [valueFields], rfl⟩
  | (key, v) :: rest, h => by
      obtain ⟨t, htext, hvalue⟩ := exists_tree v h.1
      obtain ⟨fs, htexts, hvalues, hempty⟩ := exists_treeFields rest h.2
      exact ⟨(key, t) :: fs, by rw [textFields, stringifyFields, htext, htexts, hempty],
        by rw [valueFields, hvalue, hvalues], rfl⟩

end

/-- **What is written is read back**, with every number exact. -/
theorem readJson_stringify {v : Json} (h : v.IsExact numText) : readJson (v.stringify numText) = some v := by
  obtain ⟨t, htext, rfl⟩ := exists_tree v h
  rw [← htext, readJson, readTree_text]
  rfl

end

end ZcashFaucet.Lib
