/-
ZcashFaucet.Lib.UrlHost — hosts as the URL standard has them.

What a URL parser makes of a host depends on the scheme. For a special
scheme the text is canonicalised: every spelling of an IPv4 address
becomes the address, everything else a domain in lower case. For any
other scheme only an address in brackets is, and the host is otherwise
kept as it is written. `UrlRecord` carries that as an invariant.

`hostname` is the host serializer: four decimal numbers for an IPv4
address, and for an IPv6 address lower-case pieces in brackets with the
first of the longest runs of zeros left out.

`denotes` is what a host stands for, whoever wrote it down. For a host
that is kept as written that is the standard's own IPv4 parser, which
takes decimal, octal and hexadecimal numbers, one to four of them.
-/
import ZcashFaucet.Lib.Decimal
import ZcashFaucet.Lib.Hex

namespace ZcashFaucet.Lib

/-! ## Hosts -/

/-- The forbidden host code points: NUL, tab, LF, CR, space and
`#/:<>?@[\]^|`. -/
def forbiddenHostUnits : List UInt16 :=
  [0x00, 0x09, 0x0A, 0x0D, 0x20, 0x23, 0x2F, 0x3A, 0x3C, 0x3E, 0x3F, 0x40, 0x5B, 0x5C, 0x5D, 0x5E, 0x7C]

/-- A text that can stand as a host: ASCII, whatever was not has been
encoded, and without the forbidden code points. -/
structure HostText where
  text : JsString
  ascii : ∀ c ∈ text, c < 0x80
  allowed : ∀ c ∈ text, c ∉ forbiddenHostUnits

/-- Eight pieces of sixteen bits. -/
structure Ipv6 where
  pieces : List UInt16
  length_eq : pieces.length = 8

inductive Host
  | domain (name : HostText)
  | ipv4 (address : Fin (2 ^ 32))
  | ipv6 (address : Ipv6)
  | asWritten (text : HostText)
  | empty

/-- A scheme, without its colon. -/
def isSpecial (scheme : JsString) : Bool :=
  [js "ftp", js "file", js "http", js "https", js "ws", js "wss"].contains scheme

/-- The port a special scheme has when none is written. -/
def defaultPort (scheme : JsString) : Option Nat :=
  if scheme = js "http" ∨ scheme = js "ws" then some 80
  else if scheme = js "https" ∨ scheme = js "wss" then some 443
  else if scheme = js "ftp" then some 21
  else none

/-- What a parser returns of a URL. -/
structure UrlRecord where
  scheme : JsString
  host : Host
  port : Option Nat
  /-- A special scheme has its host canonicalised. -/
  canonical : isSpecial scheme = true → ∀ text, host ≠ .asWritten text
  /-- Any other keeps it as it is written. -/
  verbatim : isSpecial scheme = false → (∀ name, host ≠ .domain name) ∧ ∀ address, host ≠ .ipv4 address
  /-- A port is only kept if it is not the default one. -/
  portKept : port ≠ none → port ≠ defaultPort scheme

/-! ## The serializer -/

def dot : UInt16 := 0x2E

def colon : UInt16 := 0x3A

/-- Numbers in decimal, with dots between them. -/
def dotted (numbers : List Nat) : JsString := [dot].intercalate (numbers.map decimal)

/-- The four numbers of an IPv4 address. -/
def octets (address : Nat) : List Nat :=
  [address / 2 ^ 24 % 256, address / 2 ^ 16 % 256, address / 2 ^ 8 % 256, address % 256]

/-- A piece in as few hexadecimal digits as it takes. -/
def hexPiece (p : UInt16) : JsString :=
  (([p.toNat / 4096, p.toNat / 256 % 16, p.toNat / 16 % 16].dropWhile (· == 0)) ++ [p.toNat % 16]).map
    hexDigitLower

/-- How many zeros the pieces start with. -/
def zeroRun : List UInt16 → Nat
  | [] => 0
  | p :: rest => if p = 0 then zeroRun rest + 1 else 0

/-- The first of the longest runs of zeros, as its index and its length. -/
def longestRun : Nat → List UInt16 → Nat × Nat
  | i, [] => (i, 0)
  | i, p :: rest =>
      let later := longestRun (i + 1) rest
      let here := zeroRun (p :: rest)
      if later.2 ≤ here then (i, here) else later

/-- The index of the run that is left out, if there is one of two pieces
or more. -/
def compressedIndex (pieces : List UInt16) : Option Nat :=
  let run := longestRun 0 pieces
  if 1 < run.2 then some run.1 else none

def serializePieces (compress : Option Nat) : Nat → Bool → List UInt16 → JsString
  | _, _, [] => []
  | i, ignoreZero, p :: rest =>
      if ignoreZero = true ∧ p = 0 then serializePieces compress (i + 1) true rest
      else if compress = some i then
        (if i = 0 then [colon, colon] else [colon]) ++ serializePieces compress (i + 1) true rest
      else
        hexPiece p ++ ((if i = 7 then [] else [colon]) ++ serializePieces compress (i + 1) false rest)

def serializeIpv6 (pieces : List UInt16) : JsString :=
  serializePieces (compressedIndex pieces) 0 false pieces

/-- `url.hostname`. -/
def hostname : Host → JsString
  | .domain name => name.text
  | .ipv4 address => dotted (octets address)
  | .ipv6 address => 0x5B :: (serializeIpv6 address.pieces ++ [0x5D])
  | .asWritten text => text.text
  | .empty => []

example : hostname (.ipv6 ⟨[0x2001, 0xDB8, 0, 0, 1, 0, 0, 1], rfl⟩) = js "[2001:db8::1:0:0:1]" := by
  decide +kernel

/-! ## What a host stands for -/

/-- Digits of a radix, most significant first. -/
def radixValue (radix : Nat) (s : JsString) : Option Nat :=
  s.foldlM (fun n c => (hexValue? c).bind fun d => if d < radix then some (radix * n + d) else none) 0

/-- The IPv4 number parser. -/
def ipv4Number (s : JsString) : Option Nat :=
  match s with
  | [] => none
  | c :: d :: rest =>
      if c = 0x30 ∧ (d = 0x78 ∨ d = 0x58) then radixValue 16 rest
      else if c = 0x30 then radixValue 8 (d :: rest)
      else radixValue 10 (c :: d :: rest)
  | [c] => radixValue 10 [c]

/-- The labels of a host, without the empty one behind a trailing dot. -/
def hostLabels (s : JsString) : List JsString :=
  let labels := s.splitOn dot
  if 1 < labels.length ∧ labels.getLast? = some [] then labels.dropLast else labels

/-- The number that the numbers of an IPv4 address make: the last one
fills what the others leave. -/
def ipv4Value : List Nat → Option Nat
  | [a] => if a < 2 ^ 32 then some a else none
  | [a, b] => if a < 256 ∧ b < 2 ^ 24 then some (a * 2 ^ 24 + b) else none
  | [a, b, c] => if a < 256 ∧ b < 256 ∧ c < 2 ^ 16 then some (a * 2 ^ 24 + b * 2 ^ 16 + c) else none
  | [a, b, c, d] =>
      if a < 256 ∧ b < 256 ∧ c < 256 ∧ d < 256 then
        some (a * 2 ^ 24 + b * 2 ^ 16 + c * 2 ^ 8 + d)
      else none
  | _ => none

/-- The IPv4 parser. -/
def ipv4Parse (s : JsString) : Option Nat := ((hostLabels s).mapM ipv4Number).bind ipv4Value

inductive Denoted
  | ipv4 (address : Nat)
  | ipv6 (pieces : List UInt16)
  | name (text : JsString)

def denotes : Host → Denoted
  | .domain name => .name name.text
  | .ipv4 address => .ipv4 address
  | .ipv6 address => .ipv6 address.pieces
  | .asWritten text =>
      match ipv4Parse text.text with
      | some address => .ipv4 address
      | none => .name text.text
  | .empty => .name []

example : ipv4Parse (js "0x7f.1.") = some 2130706433 := by decide +kernel

/-! ## Digits -/

theorem ne_of_isDecimalUnit {c d : UInt16} (h : isDecimalUnit c = true) (hd : isDecimalUnit d = false) :
    c ≠ d := by
  rintro rfl
  rw [h] at hd
  cases hd

theorem not_mem_decimal {c : UInt16} (hc : isDecimalUnit c = false) (n : Nat) : c ∉ decimal n := fun hmem =>
  ne_of_isDecimalUnit (List.all_eq_true.mp (all_isDecimalUnit_decimal n) c hmem) hc rfl

theorem mem_intercalate {c x : UInt16} {labels : List JsString} (h : c ∈ [x].intercalate labels) :
    c = x ∨ ∃ label ∈ labels, c ∈ label := by
  induction labels with
  | nil => cases h
  | cons label rest ih =>
    cases rest with
    | nil =>
      rw [List.intercalate_singleton] at h
      exact Or.inr ⟨label, List.mem_cons_self, h⟩
    | cons label' rest =>
      rw [List.intercalate_cons_cons, List.append_assoc] at h
      rcases List.mem_append.mp h with h | h
      · exact Or.inr ⟨label, List.mem_cons_self, h⟩
      · rcases List.mem_append.mp h with h | h
        · exact Or.inl (List.mem_singleton.mp h)
        · exact (ih h).imp_right fun ⟨l, hl, hc⟩ => ⟨l, List.mem_cons_of_mem label hl, hc⟩

/-- Numbers written with dots have digits and dots. -/
theorem mem_dotted {c : UInt16} {numbers : List Nat} (h : c ∈ dotted numbers) :
    isDecimalUnit c = true ∨ c = dot := by
  rcases mem_intercalate h with rfl | ⟨label, hlabel, hc⟩
  · exact Or.inr rfl
  · obtain ⟨n, -, rfl⟩ := List.mem_map.mp hlabel
    exact Or.inl (List.all_eq_true.mp (all_isDecimalUnit_decimal n) c hc)

/-- The labels of numbers written with dots are the numbers. -/
theorem splitOn_dotted {numbers : List Nat} (hne : numbers ≠ []) :
    (dotted numbers).splitOn dot = numbers.map decimal := by
  refine List.splitOn_intercalate dot ?_ (by simpa using hne)
  intro label hlabel
  obtain ⟨n, -, rfl⟩ := List.mem_map.mp hlabel
  exact not_mem_decimal (by decide) n

theorem decimalValue_labels (numbers : List Nat) :
    (numbers.map decimal).map decimalValue = numbers := by
  rw [List.map_map]
  simp [Function.comp_def, decimalValue_decimal]

/-- The digits of hexadecimal text, lower-case. -/
def isLowerHex (c : UInt16) : Bool := (0x30 ≤ c && c ≤ 0x39) || (0x61 ≤ c && c ≤ 0x66)

theorem isLowerHex_hexDigitLower {n : Nat} (h : n < 16) : isLowerHex (hexDigitLower n) = true := by
  have hall : ∀ n < 16, isLowerHex (hexDigitLower n) = true := by decide
  exact hall n h

/-- The digits a piece is written with. -/
def hexDigits (p : UInt16) : List Nat :=
  ([p.toNat / 4096, p.toNat / 256 % 16, p.toNat / 16 % 16].dropWhile (· == 0)) ++ [p.toNat % 16]

theorem hexPiece_eq (p : UInt16) : hexPiece p = (hexDigits p).map hexDigitLower := rfl

theorem hexDigits_lt (p : UInt16) : ∀ d ∈ hexDigits p, d < 16 := by
  have hp := p.toNat_lt
  intro d hd
  rcases List.mem_append.mp hd with hd | hd
  · have := (List.dropWhile_sublist _).subset hd
    simp only [List.mem_cons, List.not_mem_nil, or_false] at this
    omega
  · rw [List.mem_singleton.mp hd]
    omega

theorem all_isLowerHex_hexPiece (p : UInt16) : (hexPiece p).all isLowerHex = true := by
  rw [hexPiece_eq, List.all_map, List.all_eq_true]
  exact fun d hd => isLowerHex_hexDigitLower (hexDigits_lt p d hd)

theorem hexPiece_length (p : UInt16) : 1 ≤ (hexPiece p).length ∧ (hexPiece p).length ≤ 4 := by
  have hle := (List.dropWhile_sublist (· == 0) (l := [p.toNat / 4096, p.toNat / 256 % 16,
    p.toNat / 16 % 16])).length_le
  simp only [hexPiece, List.length_map, List.length_append, List.length_cons, List.length_nil] at hle ⊢
  omega

theorem radixValue_hexDigits {ds : List Nat} (h : ∀ d ∈ ds, d < 16) (n : Nat) :
    (ds.map hexDigitLower).foldlM
        (fun n c => (hexValue? c).bind fun d => if d < 16 then some (16 * n + d) else none) n =
      some (ds.foldl (fun n d => 16 * n + d) n) := by
  induction ds generalizing n with
  | nil => rfl
  | cons d ds ih =>
    have hd : d < 16 := h d List.mem_cons_self
    rw [List.map_cons, List.foldlM_cons, hexValue?_hexDigitLower hd]
    simpa [hd] using ih (fun e he => h e (List.mem_cons_of_mem d he)) (16 * n + d)

/-- Leading zeros do not count. -/
theorem foldl_dropWhile_zero (ds rest : List Nat) :
    ((ds.dropWhile (· == 0)) ++ rest).foldl (fun n d => 16 * n + d) 0 =
      (ds ++ rest).foldl (fun n d => 16 * n + d) 0 := by
  induction ds with
  | nil => rfl
  | cons d ds ih =>
    by_cases hd : d = 0
    · simpa [hd] using ih
    · simp [hd]

theorem radixValue_hexPiece (p : UInt16) : radixValue 16 (hexPiece p) = some p.toNat := by
  have hp := p.toNat_lt
  rw [hexPiece_eq, radixValue, radixValue_hexDigits (hexDigits_lt p), hexDigits, foldl_dropWhile_zero]
  simp only [List.cons_append, List.nil_append, List.foldl_cons, List.foldl_nil, Option.some.injEq]
  omega

/-! ## Labels that are no number -/

theorem mapM_eq_none {α β : Type} {f : α → Option β} {l : List α} {x : α} (hx : x ∈ l) (hf : f x = none) :
    l.mapM f = none := by
  induction l with
  | nil => cases hx
  | cons y l ih =>
    rw [List.mapM_cons]
    rcases List.mem_cons.mp hx with rfl | hx
    · simp [hf]
    · cases f y <;> simp [ih hx]

/-- A label that does not start with a digit is no number. -/
theorem ipv4Number_of_not_digit {c : UInt16} (hc : isDecimalUnit c = false) (rest : JsString) :
    ipv4Number (c :: rest) = none := by
  have hzero : c ≠ 0x30 := by
    rintro rfl
    cases hc
  have hdigit : ((hexValue? c).bind fun d => if d < 10 then some (10 * 0 + d) else none) = none := by
    have hrange : ¬ (0x30 ≤ c.toNat ∧ c.toNat ≤ 0x39) := by
      simpa [isDecimalUnit, UInt16.le_iff_toNat_le] using hc
    unfold hexValue?
    rw [if_neg hrange]
    split_ifs
    · simp
      omega
    · simp
      omega
    · rfl
  have hradix : ∀ s, radixValue 10 (c :: s) = none := by
    intro s
    rw [radixValue, List.foldlM_cons, hdigit]
    rfl
  cases rest with
  | nil => exact hradix []
  | cons d rest => simp [ipv4Number, hzero, hradix]

/-- So a text with such a label is no IPv4 address. -/
theorem ipv4Parse_of_not_digit (front rest : JsString) {c : UInt16} (hc : isDecimalUnit c = false)
    (hdot : c ≠ dot) : ipv4Parse (front ++ dot :: c :: rest) = none := by
  obtain ⟨label, hlabel⟩ : ∃ label, (c :: label) ∈ (front ++ dot :: c :: rest).splitOn dot := by
    have hne := List.splitOn_ne_nil dot rest
    obtain ⟨label, labels, hrest⟩ := List.exists_cons_of_ne_nil hne
    refine ⟨label, ?_⟩
    rw [List.splitOn_append_cons_self, List.splitOn_cons_eq_if_modifyHead, hrest]
    simp [hdot]
  have hmem : (c :: label) ∈ hostLabels (front ++ dot :: c :: rest) := by
    simp only [hostLabels]
    split
    · rename_i h
      refine List.mem_dropLast_of_mem_of_ne_getLast? hlabel fun hlast => ?_
      rw [h.2] at hlast
      cases hlast
    · exact hlabel
  rw [ipv4Parse, mapM_eq_none hmem (ipv4Number_of_not_digit hc label)]
  rfl

/-! ## The text of an IPv6 address -/

/-- Only digits and colons. -/
theorem serializePieces_all (compress : Option Nat) (i : Nat) (ignoreZero : Bool) (ps : List UInt16) :
    (serializePieces compress i ignoreZero ps).all (fun c => isLowerHex c || c == colon) = true := by
  induction ps generalizing i ignoreZero with
  | nil => rfl
  | cons p rest ih =>
    have hpiece : (hexPiece p).all (fun c => isLowerHex c || c == colon) = true := by
      rw [List.all_eq_true]
      intro c hc
      rw [List.all_eq_true.mp (all_isLowerHex_hexPiece p) c hc, Bool.true_or]
    unfold serializePieces
    split
    · exact ih _ _
    · split
      · split <;> simp [ih]
      · rw [List.all_append, List.all_append, hpiece, ih]
        split <;> simp

/-- A piece that is not zero is not left out, if it comes first. -/
theorem serializeIpv6_of_ne_zero {p : UInt16} (hp : p ≠ 0) (rest : List UInt16) :
    ∃ tail, serializeIpv6 (p :: rest) = hexPiece p ++ colon :: tail := by
  have hindex : ∀ (i : Nat) (ps : List UInt16), i ≤ (longestRun i ps).1 := by
    intro i ps
    induction ps generalizing i with
    | nil => exact le_rfl
    | cons q ps ih =>
      have := ih (i + 1)
      simp only [longestRun]
      split <;> omega
  have hcompress : compressedIndex (p :: rest) ≠ some 0 := by
    have hrest := hindex 1 rest
    have hzero : zeroRun (p :: rest) = 0 := by simp [zeroRun, hp]
    simp only [compressedIndex, longestRun, hzero]
    split <;> split <;> first | omega | (simp; try omega)
  exact ⟨_, by simp [serializeIpv6, serializePieces, hp, hcompress]; rfl⟩

/-- An IPv4-mapped address. -/
theorem serializeIpv6_mapped (hi lo : UInt16) :
    serializeIpv6 [0, 0, 0, 0, 0, 0xFFFF, hi, lo] =
      js "::ffff:" ++ (hexPiece hi ++ colon :: hexPiece lo) := by
  have hcompress : compressedIndex [0, 0, 0, 0, 0, 0xFFFF, hi, lo] = some 0 := by
    by_cases hhi : hi = 0 <;> by_cases hlo : lo = 0 <;>
      simp [compressedIndex, longestRun, zeroRun, hhi, hlo]
  have htext : js "::ffff:" = [colon, colon] ++ (hexPiece 0xFFFF ++ [colon]) := by decide
  rw [htext]
  simp [serializeIpv6, serializePieces, hcompress]

end ZcashFaucet.Lib
