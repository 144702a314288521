/-
ZcashFaucet.Lib.Json — parsed JSON, as JavaScript code meets it.

A reply off a wire is whatever JSON the other side wrote. Code reads
fields of it that may not be there, tests them for truthiness and puts
them into texts. All of these are total except one: putting an object
into a text calls its `toString`, and an object that came with a field
of that name has none that can be called. `Json.toText` is `none` there
(the TypeError), also when such an object sits inside an array.

An absent field is `undefined`, which is `none` of `Option Json`.
The text of a finite number is a parameter, `numText`.
-/
import ZcashFaucet.Lib.Hex
import Mathlib.Data.Rat.Floor

namespace ZcashFaucet.Lib

/-- What `JSON.parse` can make of a numeral: too large a one is an
infinity. -/
inductive JsNumber
  | finite (q : ℚ)
  | infinite (negative : Bool)
  deriving DecidableEq

inductive Json
  | null
  | bool (b : Bool)
  | num (n : JsNumber)
  | str (s : JsString)
  | arr (items : List Json)
  | obj (fields : List (JsString × Json))

namespace Json

def isNull : Json → Bool
  | .null => true
  | _ => false

/-- `!!v`. -/
def truthy : Json → Bool
  | .null => false
  | .bool b => b
  | .num n => n != .finite 0
  | .str s => s.truthy
  | .arr _ => true
  | .obj _ => true

/-- `v.key` for a field that only objects of the wire can have. Reading
it off `null` is an error, which is the caller's to exclude. -/
def field (key : JsString) : Json → Option Json
  | .obj fields => (fields.find? fun f => f.1 == key).map Prod.snd
  | _ => none

/-- `v === "…"`. -/
def isStr (s : JsString) : Json → Bool
  | .str t => t == s
  | _ => false

end Json

/-- `typeof v === "number" && Number.isFinite(v)`. -/
def finiteNumber : Option Json → Option ℚ
  | some (.num (.finite q)) => some q
  | _ => none

/-- Truthiness of a value that may be `undefined`. -/
def truthy? (v : Option Json) : Bool := v.any Json.truthy

/-- `v?.key`. -/
def field? (key : JsString) (v : Option Json) : Option Json := v.bind (Json.field key)

/-- `v === "…"` for a value that may be `undefined`. -/
def isStr? (s : JsString) (v : Option Json) : Bool := v.any (Json.isStr s)

/-- `a ?? b`. -/
def orElse (a b : Option Json) : Option Json :=
  match a with
  | none | some .null => b
  | some v => some v

/-- The first element of `[x] = v`, or the TypeError of a value that
cannot be taken apart. A string is taken apart into code points. -/
def firstOf : Option Json → Except Unit (Option Json)
  | some (.arr items) => .ok items.head?
  | some (.str []) => .ok none
  | some (.str (c :: s)) =>
      .ok (some (.str (if isHighSurrogate c && (s.head?.any isLowSurrogate) then c :: s.take 1 else [c])))
  | _ => .error ()

/-! ## ToString -/

def JsNumber.text (numText : ℚ → JsString) : JsNumber → JsString
  | .finite q => numText q
  | .infinite false => js "Infinity"
  | .infinite true => js "-Infinity"

mutual

/-- `${v}`. -/
def Json.toText (numText : ℚ → JsString) : Json → Option JsString
  | .null => some (js "null")
  | .bool true => some (js "true")
  | .bool false => some (js "false")
  | .num n => some (n.text numText)
  | .str s => some s
  | .arr items => joinText numText items
  | .obj fields =>
      if fields.any fun f => f.1 == js "toString" then none else some (js "[object Object]")

/-- `items.join()`. -/
def joinText (numText : ℚ → JsString) : List Json → Option JsString
  | [] => some []
  | v :: rest => do
      let head ← if v.isNull then some [] else v.toText numText
      if rest.isEmpty then return head
      let tail ← joinText numText rest
      return head ++ js "," ++ tail

end

/-- The text of a value that may be `undefined`. -/
def toText? (numText : ℚ → JsString) : Option Json → Option JsString
  | none => some (js "undefined")
  | some v => v.toText numText

@[simp] theorem toText_str (numText : ℚ → JsString) (s : JsString) :
    (Json.str s).toText numText = some s := by
  rw [Json.toText]

example : (Json.arr [.null, .str (js "a"), .obj []]).toText (fun _ => []) =
    some (js ",a,[object Object]") := by decide +kernel

/-! ## JSON.stringify -/

/-- `\uXXXX`. -/
def unicodeEscape (c : UInt16) : JsString :=
  [0x5C, 0x75, hexDigitLower (c.toNat / 0x1000), hexDigitLower (c.toNat / 0x100 % 0x10),
    hexDigitLower (c.toNat / 0x10 % 0x10), hexDigitLower (c.toNat % 0x10)]

/-- One code unit between the quotes. -/
def quoteUnit (c : UInt16) : JsString :=
  if c = 0x22 ∨ c = 0x5C then [0x5C, c]
  else if c = 0x08 then js "\\b"
  else if c = 0x09 then js "\\t"
  else if c = 0x0A then js "\\n"
  else if c = 0x0C then js "\\f"
  else if c = 0x0D then js "\\r"
  else if c < 0x20 then unicodeEscape c
  else [c]

/-- The text between the quotes: a surrogate without its partner is
written as an escape. -/
def quoteUnits : JsString → JsString
  | [] => []
  | [c] => if isHighSurrogate c || isLowSurrogate c then unicodeEscape c else quoteUnit c
  | c :: d :: rest =>
      if isHighSurrogate c then
        if isLowSurrogate d then c :: d :: quoteUnits rest
        else unicodeEscape c ++ quoteUnits (d :: rest)
      else if isLowSurrogate c then unicodeEscape c ++ quoteUnits (d :: rest)
      else quoteUnit c ++ quoteUnits (d :: rest)

def quote (s : JsString) : JsString := js "\"" ++ quoteUnits s ++ js "\""

mutual

def Json.stringify (numText : ℚ → JsString) : Json → JsString
  | .null => js "null"
  | .bool true => js "true"
  | .bool false => js "false"
  | .num (.finite q) => numText q
  | .num (.infinite _) => js "null"
  | .str s => quote s
  | .arr items => js "[" ++ stringifyItems numText items ++ js "]"
  | .obj fields => js "\x7b" ++ stringifyFields numText fields ++ js "\x7d"

def stringifyItems (numText : ℚ → JsString) : List Json → JsString
  | [] => []
  | v :: rest =>
      v.stringify numText ++ if rest.isEmpty then [] else js "," ++ stringifyItems numText rest

def stringifyFields (numText : ℚ → JsString) : List (JsString × Json) → JsString
  | [] => []
  | (key, v) :: rest =>
      quote key ++ js ":" ++ v.stringify numText ++
        if rest.isEmpty then [] else js "," ++ stringifyFields numText rest

end

/-- The text of `${JSON.stringify(v)}`. -/
def stringify? (numText : ℚ → JsString) : Option Json → JsString
  | none => js "undefined"
  | some v => v.stringify numText

end ZcashFaucet.Lib
