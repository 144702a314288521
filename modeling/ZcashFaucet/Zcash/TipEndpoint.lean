/-
ZcashFaucet.Zcash.TipEndpoint — which configured endpoints may vouch for
the tip, `isIndependentTipEndpoint` of `externalTip.ts`.

The predicate classifies the text of `url.hostname`. For a special scheme
and for an address in brackets that text is canonical, and the
classification is right. For any other scheme it is what the operator
wrote, and there the predicate only knows an IPv4 address by four decimal
numbers: `grpc://0x7f.0.0.1` passes for a public name, and is dialled
over TLS at 127.0.0.1 (`independent_iff`).

The URL parser is a parameter. It returns a `UrlRecord`, which says what
is canonical in it.
-/
import ZcashFaucet.Lib.UrlHost
import Mathlib.Data.List.DropRight

namespace ZcashFaucet.Zcash

open Lib

/-! ## targetFor -/

structure GrpcTarget where
  target : JsString
  tls : Bool
  deriving DecidableEq

/-- How a configured endpoint becomes a gRPC target: an explicit port wins
and is TLS only when it is 443 or the scheme is https; no port at all
means 443 with TLS. -/
def targetFor (url : UrlRecord) : GrpcTarget :=
  let tls := url.scheme == js "https" || url.port == some 443 || url.port == none
  let port := match url.port with
    | some port => decimal port
    | none => if tls then js "443" else js "9067"
  { target := hostname url.host ++ colon :: port
    tls := tls }

/-! ## The host -/

/-- `.replace(/^\[|\]$/g, "")`. -/
def unbracket (s : JsString) : JsString :=
  let s := if s.head? = some 0x5B then s.tail else s
  if s.getLast? = some 0x5D then s.dropLast else s

/-- `.replace(/\.+$/, "")`. -/
def stripDots (s : JsString) : JsString := s.rdropWhile (· == dot)

/-- The host that is classified. A hostname is ASCII, so `toLowerCase`
folds ASCII letters. -/
def foldedHost (s : JsString) : JsString := (stripDots (unbracket s)).map foldCase

def localSuffixes : List JsString :=
  [js "local", js "internal", js "localhost", js "lan", js "home", js "home.arpa", js "intranet",
    js "corp", js "onion"]

/-- `/\.(local|internal|…|onion)$/`. -/
def hasLocalSuffix (host : JsString) : Bool :=
  localSuffixes.any fun suffix => (dot :: suffix).isSuffixOf host

/-- `/^\d+\.\d+\.\d+\.\d+$/`. -/
def isFourNumbers (host : JsString) : Bool :=
  let labels := host.splitOn dot
  labels.length == 4 && labels.all fun label => !label.isEmpty && label.all isDecimalUnit

/-- `isPublicIpv4`, which is only asked about four numbers. -/
def isPublicIpv4 (dottedText : JsString) : Bool :=
  match (dottedText.splitOn dot).map decimalValue with
  | a :: b :: _ =>
      !(a == 10 || a == 127 || a == 0 || (a == 172 && decide (16 ≤ b) && decide (b ≤ 31)) ||
        (a == 192 && b == 168) || (a == 169 && b == 254) ||
        (a == 100 && decide (64 ≤ b) && decide (b ≤ 127)))
  | _ => true

/-- `[0-9a-f]{1,4}`. -/
def isHexPiece (s : JsString) : Bool :=
  decide (1 ≤ s.length) && decide (s.length ≤ 4) &&
    s.all fun c => (0x30 ≤ c && c ≤ 0x39) || (0x61 ≤ c && c ≤ 0x66)

/-- `parseInt(s, 16)` of a piece. -/
def parseHex (s : JsString) : Nat := (radixValue 16 s).getD 0

/-- The IPv4 address that an IPv4-mapped one is, in either notation. -/
def mappedIpv4 (host : JsString) : Option JsString :=
  if (js "::ffff:").isPrefixOf host then
    let rest := host.drop 7
    if isFourNumbers rest then some rest
    else
      match rest.splitOn colon with
      | [hi, lo] =>
          if isHexPiece hi && isHexPiece lo then
            some (dotted [parseHex hi >>> 8, parseHex hi &&& 255, parseHex lo >>> 8, parseHex lo &&& 255])
          else none
      | _ => none
  else none

/-- Loopback, unspecified, unique-local, link-local, site-local, NAT64 and
documentation. -/
def isSpecialIpv6 (host : JsString) : Bool :=
  host == js "::1" || host == js "::" ||
    [js "fc", js "fd", js "fe8", js "fe9", js "fea", js "feb", js "fec", js "fed", js "fee", js "fef",
      js "64:ff9b:", js "2001:db8:"].any fun start => start.isPrefixOf host

/-- The classification of a host. -/
def isIndependentHost (host : JsString) : Bool :=
  if host == js "localhost" || hasLocalSuffix host then false
  else if isFourNumbers host then isPublicIpv4 host
  else if host.contains colon then
    match mappedIpv4 host with
    | some address => isPublicIpv4 address
    | none => !isSpecialIpv6 host
  else host.contains dot

def isIndependentTipEndpoint (parse : JsString → Option UrlRecord) (endpoint : JsString) : Bool :=
  match parse endpoint with
  | none => false
  | some url => if !(targetFor url).tls then false else isIndependentHost (foldedHost (hostname url.host))

/-! ## What must not vouch for the tip -/

/-- The blocks, as the first two numbers and the bits that count. -/
def nearbyBlocks : List (Nat × Nat × Nat) :=
  [(0, 0, 8), (10, 0, 8), (127, 0, 8), (172, 16, 12), (192, 168, 16), (169, 254, 16), (100, 64, 10)]

def isNearbyIpv4 (address : Nat) : Bool :=
  nearbyBlocks.any fun (a, b, bits) =>
    address / 2 ^ (32 - bits) == (a * 2 ^ 24 + b * 2 ^ 16) / 2 ^ (32 - bits)

/-- `::`, `::1`, `fc00::/7`, `fe80::/10`, `fec0::/10`, and a nearby IPv4
address in `::ffff:0:0/96`. -/
def isNearbyIpv6 : List UInt16 → Bool
  | [p0, p1, p2, p3, p4, p5, p6, p7] =>
      [p0, p1, p2, p3, p4, p5, p6, p7] == [0, 0, 0, 0, 0, 0, 0, 0] ||
      [p0, p1, p2, p3, p4, p5, p6, p7] == [0, 0, 0, 0, 0, 0, 0, 1] ||
      p0.toNat / 2 ^ 9 == 0xFC00 / 2 ^ 9 || p0.toNat / 2 ^ 6 == 0xFE80 / 2 ^ 6 ||
      p0.toNat / 2 ^ 6 == 0xFEC0 / 2 ^ 6 ||
      ([p0, p1, p2, p3, p4, p5] == [0, 0, 0, 0, 0, 0xFFFF] &&
        isNearbyIpv4 (p6.toNat * 2 ^ 16 + p7.toNat))
  | _ => false

/-- A name that is found without asking anybody else: without a dot, or
with a suffix that is local. -/
def isLocalName (name : JsString) : Bool :=
  let name := (stripDots name).map foldCase
  !name.contains dot || hasLocalSuffix name

def isNearby : Denoted → Bool
  | .ipv4 address => isNearbyIpv4 address
  | .ipv6 pieces => isNearbyIpv6 pieces
  | .name text => isLocalName text

/-- If the endpoint may vouch for the tip, it is dialled over TLS at
somebody else's. -/
def VouchesFromAfar (parse : JsString → Option UrlRecord) (endpoint : JsString) : Prop :=
  isIndependentTipEndpoint parse endpoint = true →
    ∃ url, parse endpoint = some url ∧ (targetFor url).tls = true ∧ isNearby (denotes url.host) = false

/-- The endpoint is dialled over TLS, and its host, kept as written, is a
nearby IPv4 address with a dot in it that four decimal numbers do not
give away: it is not written as four of them, or they read as a public
address because one of them is in octal. -/
def HiddenIpv4 (parse : JsString → Option UrlRecord) (endpoint : JsString) : Prop :=
  ∃ url text address, parse endpoint = some url ∧ (targetFor url).tls = true ∧
    url.host = .asWritten text ∧ ipv4Parse text.text = some address ∧ isNearbyIpv4 address = true ∧
    (foldedHost text.text).contains dot = true ∧
    (isFourNumbers (foldedHost text.text) = true → isPublicIpv4 (foldedHost text.text) = true)

/-! ## Texts -/

theorem foldCase_eq_iff {c d : UInt16} (hd : d < 0x41) : foldCase c = d ↔ c = d := by
  unfold foldCase
  split
  · rename_i h
    have hc := UInt16.le_iff_toNat_le.mp h.1
    have hc' := UInt16.le_iff_toNat_le.mp h.2
    have hd' := UInt16.lt_iff_toNat_lt.mp hd
    simp only [UInt16.reduceToNat] at hc hc' hd'
    constructor
    · rintro rfl
      simp only [UInt16.toNat_add, UInt16.reduceToNat] at hd'
      omega
    · rintro rfl
      omega
  · exact Iff.rfl

theorem map_foldCase {s : JsString} (h : ∀ c ∈ s, ¬ (0x41 ≤ c ∧ c ≤ 0x5A)) : s.map foldCase = s :=
  (List.map_congr_left fun c hc => if_neg (h c hc)).trans (List.map_id' s)

theorem unbracket_of_not_mem {s : JsString} (hopen : 0x5B ∉ s) (hclose : 0x5D ∉ s) : unbracket s = s := by
  have hhead : ¬ s.head? = some 0x5B := fun h => hopen (List.mem_of_mem_head? h)
  have hlast : ¬ s.getLast? = some 0x5D := fun h => hclose (List.mem_of_mem_getLast? h)
  simp [unbracket, hhead, hlast]

theorem unbracket_brackets (s : JsString) : unbracket (0x5B :: (s ++ [0x5D])) = s := by
  simp [unbracket]

theorem stripDots_concat (s : JsString) {c : UInt16} (hc : c ≠ dot) : stripDots (s ++ [c]) = s ++ [c] :=
  List.rdropWhile_concat_neg _ _ _ (by simpa using hc)

/-- A text of four numbers is one of digits and dots, and has a dot. -/
theorem isFourNumbers_mem {s : JsString} (h : isFourNumbers s = true) :
    dot ∈ s ∧ ∀ c ∈ s, isDecimalUnit c = true ∨ c = dot := by
  simp only [isFourNumbers, Bool.and_eq_true, beq_iff_eq] at h
  obtain ⟨hlen, hall⟩ := h
  constructor
  · by_contra hdot
    rw [List.splitOn_eq_singleton hdot] at hlen
    simp at hlen
  · intro c hc
    have hsplit : [dot].intercalate (s.splitOn dot) = s := List.intercalate_splitOn dot
    rw [← hsplit] at hc
    rcases mem_intercalate hc with rfl | ⟨label, hlabel, hmem⟩
    · exact Or.inr rfl
    · have hdigits := List.all_eq_true.mp hall label hlabel
      rw [Bool.and_eq_true] at hdigits
      exact Or.inl (List.all_eq_true.mp hdigits.2 c hmem)

/-- A text with a colon is no text of four numbers. -/
theorem isFourNumbers_of_colon {s : JsString} (h : colon ∈ s) : isFourNumbers s = false := by
  rw [← Bool.not_eq_true]
  intro hfour
  rcases (isFourNumbers_mem hfour).2 colon h with hdigit | hdot
  · exact absurd hdigit (by decide)
  · exact absurd hdot (by decide)

/-! ## IPv4 -/

theorem isFourNumbers_dotted (a b c d : Nat) : isFourNumbers (dotted [a, b, c, d]) = true := by
  have hdigits : ∀ n, (!(decimal n).isEmpty && (decimal n).all isDecimalUnit) = true := by
    intro n
    have hne : decimal n ≠ [] := by
      rw [decimal_eq]
      simp
    simp [all_isDecimalUnit_decimal, hne]
  simp [isFourNumbers, splitOn_dotted, hdigits]

theorem isNearbyIpv4_iff (address : Nat) :
    isNearbyIpv4 address = true ↔
      address / 2 ^ 24 = 0 ∨ address / 2 ^ 24 = 10 ∨ address / 2 ^ 24 = 127 ∨
      (address / 2 ^ 24 = 172 ∧ 16 ≤ address / 2 ^ 16 % 256 ∧ address / 2 ^ 16 % 256 ≤ 31) ∨
      (address / 2 ^ 24 = 192 ∧ address / 2 ^ 16 % 256 = 168) ∨
      (address / 2 ^ 24 = 169 ∧ address / 2 ^ 16 % 256 = 254) ∨
      (address / 2 ^ 24 = 100 ∧ 64 ≤ address / 2 ^ 16 % 256 ∧ address / 2 ^ 16 % 256 ≤ 127) := by
  have h172 : address / 2 ^ 20 = (172 * 2 ^ 24 + 16 * 2 ^ 16) / 2 ^ 20 ↔
      address / 2 ^ 24 = 172 ∧ 16 ≤ address / 2 ^ 16 % 256 ∧ address / 2 ^ 16 % 256 ≤ 31 := by omega
  have h192 : address / 2 ^ 16 = (192 * 2 ^ 24 + 168 * 2 ^ 16) / 2 ^ 16 ↔
      address / 2 ^ 24 = 192 ∧ address / 2 ^ 16 % 256 = 168 := by omega
  have h169 : address / 2 ^ 16 = (169 * 2 ^ 24 + 254 * 2 ^ 16) / 2 ^ 16 ↔
      address / 2 ^ 24 = 169 ∧ address / 2 ^ 16 % 256 = 254 := by omega
  have h100 : address / 2 ^ 22 = (100 * 2 ^ 24 + 64 * 2 ^ 16) / 2 ^ 22 ↔
      address / 2 ^ 24 = 100 ∧ 64 ≤ address / 2 ^ 16 % 256 ∧ address / 2 ^ 16 % 256 ≤ 127 := by omega
  rw [← h172, ← h192, ← h169, ← h100]
  simp [isNearbyIpv4, nearbyBlocks]

/-- The predicate reads the blocks off the first two numbers. -/
theorem isPublicIpv4_octets {address : Nat} (h : address < 2 ^ 32) :
    isPublicIpv4 (dotted (octets address)) = !isNearbyIpv4 address := by
  have hne : octets address ≠ [] := by simp [octets]
  have hfirst : address / 2 ^ 24 % 256 = address / 2 ^ 24 := by omega
  have hlabels : ((dotted (octets address)).splitOn dot).map decimalValue =
      [address / 2 ^ 24, address / 2 ^ 16 % 256, address / 2 ^ 8 % 256, address % 256] := by
    rw [splitOn_dotted hne, decimalValue_labels, octets, hfirst]
  rw [Bool.eq_iff_iff, isPublicIpv4, hlabels, Bool.not_eq_true', Bool.not_eq_true',
    ← Bool.not_eq_true, ← Bool.not_eq_true, isNearbyIpv4_iff]
  simp only [Bool.or_eq_true, Bool.and_eq_true, beq_iff_eq, decide_eq_true_eq]
  generalize address / 2 ^ 24 = a
  generalize address / 2 ^ 16 % 256 = b
  grind

/-- Four numbers in decimal are the host that is classified. -/
theorem foldedHost_dotted (a b c d : Nat) : foldedHost (dotted [a, b, c, d]) = dotted [a, b, c, d] := by
  have hnot : ∀ x, isDecimalUnit x = false → x ≠ dot → x ∉ dotted [a, b, c, d] := by
    intro x hx hdot hmem
    rcases mem_dotted hmem with h | h
    · rw [hx] at h
      cases h
    · exact hdot h
  have hlast : ∃ init, dotted [a, b, c, d] = init ++ [decimalUnit (d % 10)] := by
    refine ⟨decimal a ++ dot :: (decimal b ++ dot :: (decimal c ++ dot ::
      (if d < 10 then [] else decimal (d / 10)))), ?_⟩
    simp only [dotted, List.map_cons, List.map_nil, List.intercalate_cons_cons,
      List.intercalate_singleton]
    rw [decimal_eq d]
    simp
  have hstrip : stripDots (dotted [a, b, c, d]) = dotted [a, b, c, d] := by
    obtain ⟨init, hinit⟩ := hlast
    rw [hinit]
    exact stripDots_concat init (ne_of_isDecimalUnit
      (isDecimalUnit_decimalUnit (Nat.mod_lt d (by omega))) (by decide))
  rw [foldedHost, unbracket_of_not_mem (hnot _ (by decide) (by decide)) (hnot _ (by decide) (by decide)),
    hstrip]
  refine map_foldCase fun x hx hupper => ?_
  rcases mem_dotted hx with h | rfl
  · simp only [isDecimalUnit, Bool.and_eq_true, decide_eq_true_eq] at h
    exact absurd (UInt16.le_trans hupper.1 h.2) (by decide)
  · exact absurd hupper.1 (by decide)

/-! ## IPv6 -/

theorem foldedHost_ipv6 (address : Ipv6) :
    foldedHost (hostname (.ipv6 address)) = serializeIpv6 address.pieces := by
  have hunits : ∀ c ∈ serializeIpv6 address.pieces, isLowerHex c = true ∨ c = colon := by
    intro c hc
    have hall := List.all_eq_true.mp (serializePieces_all (compressedIndex address.pieces) 0 false
      address.pieces) c hc
    simpa using hall
  have hstrip : stripDots (serializeIpv6 address.pieces) = serializeIpv6 address.pieces := by
    rw [stripDots, List.rdropWhile_eq_self_iff]
    intro hne hdot
    rcases hunits _ (List.getLast_mem hne) with h | h
    · rw [beq_iff_eq] at hdot
      rw [hdot] at h
      exact absurd h (by decide)
    · rw [beq_iff_eq, h] at hdot
      exact absurd hdot (by decide)
  rw [foldedHost, hostname, unbracket_brackets, hstrip]
  refine map_foldCase fun c hc hupper => ?_
  rcases hunits c hc with h | rfl
  · simp only [isLowerHex, Bool.or_eq_true, Bool.and_eq_true, decide_eq_true_eq] at h
    rcases h with h | h
    · exact absurd (UInt16.le_trans hupper.1 h.2) (by decide)
    · exact absurd (UInt16.le_trans h.1 hupper.2) (by decide)
  · exact absurd hupper.1 (by decide)

/-- A text with a colon is classified by the prefixes, unless it is mapped. -/
theorem isIndependentHost_colon {host : JsString} (hcolon : colon ∈ host)
    (h : isIndependentHost host = true) :
    match mappedIpv4 host with
    | some address => isPublicIpv4 address = true
    | none => isSpecialIpv6 host = false := by
  have hcontains : host.contains colon = true := List.contains_iff_mem.mpr hcolon
  simp only [isIndependentHost, isFourNumbers_of_colon hcolon, hcontains] at h
  split at h
  · cases h
  · cases hmapped : mappedIpv4 host with
    | some address => simpa [hmapped] using h
    | none => simpa [hmapped] using h

/-- The address that is mapped is read off the text. -/
theorem mappedIpv4_serialize (hi lo : UInt16) :
    mappedIpv4 (js "::ffff:" ++ (hexPiece hi ++ colon :: hexPiece lo)) =
      some (dotted (octets (hi.toNat * 2 ^ 16 + lo.toNat))) := by
  have hpiece : ∀ p : UInt16, isHexPiece (hexPiece p) = true := by
    intro p
    have hall : (hexPiece p).all (fun c => (0x30 ≤ c && c ≤ 0x39) || (0x61 ≤ c && c ≤ 0x66)) = true :=
      all_isLowerHex_hexPiece p
    simp [isHexPiece, hexPiece_length p, hall]
  have hcolon : ∀ p : UInt16, colon ∉ hexPiece p := by
    intro p hmem
    exact absurd (List.all_eq_true.mp (all_isLowerHex_hexPiece p) _ hmem) (by decide)
  have hrest : (js "::ffff:" ++ (hexPiece hi ++ colon :: hexPiece lo)).drop 7 =
      hexPiece hi ++ colon :: hexPiece lo := List.drop_left' (by decide)
  have hsplit : (hexPiece hi ++ colon :: hexPiece lo).splitOn colon = [hexPiece hi, hexPiece lo] := by
    rw [List.splitOn_append_cons_self_of_not_mem (hcolon hi), List.splitOn_eq_singleton (hcolon lo)]
  have hfour : isFourNumbers (hexPiece hi ++ colon :: hexPiece lo) = false :=
    isFourNumbers_of_colon (List.mem_append_right _ List.mem_cons_self)
  have hhead : (js "::ffff:").isPrefixOf (js "::ffff:" ++ (hexPiece hi ++ colon :: hexPiece lo)) = true :=
    List.isPrefixOf_iff_prefix.mpr (List.prefix_append _ _)
  have hparse : ∀ p : UInt16, parseHex (hexPiece p) = p.toNat := by
    intro p
    rw [parseHex, radixValue_hexPiece]
    rfl
  have hlow : ∀ n : Nat, n &&& 255 = n % 256 := fun n => Nat.and_two_pow_sub_one_eq_mod n 8
  have hhigh : ∀ n : Nat, n >>> 8 = n / 256 := fun n => Nat.shiftRight_eq_div_pow n 8
  have hoctets : octets (hi.toNat * 2 ^ 16 + lo.toNat) =
      [hi.toNat / 256, hi.toNat % 256, lo.toNat / 256, lo.toNat % 256] := by
    have := hi.toNat_lt
    have := lo.toNat_lt
    simp only [octets, List.cons.injEq, and_true]
    omega
  simp only [mappedIpv4, hhead, hrest, hfour, hsplit, hpiece, hparse, hlow, hhigh, hoctets, if_true,
    Bool.and_self, Bool.false_eq_true, if_false]

/-- The first digits of a piece from `0x1000` on. -/
theorem hexPiece_of_ge {p : UInt16} (h : 0x1000 ≤ p.toNat) :
    hexPiece p = [hexDigitLower (p.toNat / 4096), hexDigitLower (p.toNat / 256 % 16),
      hexDigitLower (p.toNat / 16 % 16), hexDigitLower (p.toNat % 16)] := by
  have hne : p.toNat / 4096 ≠ 0 := by omega
  simp [hexPiece, hne]

/-- A first piece in one of the blocks shows in the text. -/
theorem isSpecialIpv6_of_piece {p : UInt16} (tail : JsString)
    (h : p.toNat / 2 ^ 9 = 0xFC00 / 2 ^ 9 ∨ p.toNat / 2 ^ 6 = 0xFE80 / 2 ^ 6 ∨
      p.toNat / 2 ^ 6 = 0xFEC0 / 2 ^ 6) :
    isSpecialIpv6 (hexPiece p ++ colon :: tail) = true ∧
      mappedIpv4 (hexPiece p ++ colon :: tail) = none := by
  have hge : 0x1000 ≤ p.toNat := by omega
  have hfirst : p.toNat / 4096 = 15 := by omega
  rw [hexPiece_of_ge hge, hfirst]
  refine ⟨?_, rfl⟩
  have hdigits : p.toNat / 256 % 16 = 12 ∨ p.toNat / 256 % 16 = 13 ∨
      p.toNat / 256 % 16 = 14 ∧ p.toNat / 16 % 16 ∈ [8, 9, 10, 11, 12, 13, 14, 15] := by
    simp only [List.mem_cons, List.not_mem_nil, or_false]
    omega
  rcases hdigits with hsecond | hsecond | ⟨hsecond, hthird⟩
  · rw [hsecond]
    rfl
  · rw [hsecond]
    rfl
  · rw [hsecond]
    simp only [List.mem_cons, List.not_mem_nil, or_false] at hthird
    rcases hthird with h | h | h | h | h | h | h | h
    all_goals
      rw [h]
      rfl

theorem refuses_unspecified : isIndependentHost (serializeIpv6 [0, 0, 0, 0, 0, 0, 0, 0]) = false := by
  decide +kernel

theorem refuses_loopback : isIndependentHost (serializeIpv6 [0, 0, 0, 0, 0, 0, 0, 1]) = false := by
  decide +kernel

theorem refuses_block {p : UInt16} (rest : List UInt16)
    (h : p.toNat / 2 ^ 9 = 0xFC00 / 2 ^ 9 ∨ p.toNat / 2 ^ 6 = 0xFE80 / 2 ^ 6 ∨
      p.toNat / 2 ^ 6 = 0xFEC0 / 2 ^ 6) : isIndependentHost (serializeIpv6 (p :: rest)) = false := by
  have hne : p ≠ 0 := by
    rintro rfl
    rw [UInt16.toNat_zero] at h
    omega
  obtain ⟨tail, htail⟩ := serializeIpv6_of_ne_zero hne rest
  obtain ⟨hspecial, hmapped⟩ := isSpecialIpv6_of_piece tail h
  rw [htail, ← Bool.not_eq_true]
  intro hpasses
  have hclass := isIndependentHost_colon (List.mem_append_right _ List.mem_cons_self) hpasses
  rw [hmapped, hspecial] at hclass
  cases hclass

theorem refuses_mapped {hi lo : UInt16} (h : isNearbyIpv4 (hi.toNat * 2 ^ 16 + lo.toNat) = true) :
    isIndependentHost (serializeIpv6 [0, 0, 0, 0, 0, 0xFFFF, hi, lo]) = false := by
  have hlt : hi.toNat * 2 ^ 16 + lo.toNat < 2 ^ 32 := by
    have := hi.toNat_lt
    have := lo.toNat_lt
    omega
  rw [serializeIpv6_mapped, ← Bool.not_eq_true]
  intro hpasses
  have hclass := isIndependentHost_colon (by simp) hpasses
  rw [mappedIpv4_serialize] at hclass
  simp only [isPublicIpv4_octets hlt, h] at hclass
  cases hclass

/-- An IPv6 address that is nearby does not pass. -/
theorem refuses_nearby_ipv6 (p0 p1 p2 p3 p4 p5 p6 p7 : UInt16)
    (h : isNearbyIpv6 [p0, p1, p2, p3, p4, p5, p6, p7] = true) :
    isIndependentHost (serializeIpv6 [p0, p1, p2, p3, p4, p5, p6, p7]) = false := by
  unfold isNearbyIpv6 at h
  rw [Bool.or_eq_true, Bool.or_eq_true, Bool.or_eq_true, Bool.or_eq_true, Bool.or_eq_true,
    Bool.and_eq_true, beq_iff_eq, beq_iff_eq, beq_iff_eq, beq_iff_eq, beq_iff_eq, beq_iff_eq] at h
  rcases h with ((((hzero | hone) | hfc) | hfe8) | hfec) | ⟨hhead, hipv4⟩
  · rw [hzero]
    exact refuses_unspecified
  · rw [hone]
    exact refuses_loopback
  · exact refuses_block _ (Or.inl hfc)
  · exact refuses_block _ (Or.inr (Or.inl hfe8))
  · exact refuses_block _ (Or.inr (Or.inr hfec))
  · simp only [List.cons.injEq, and_true] at hhead
    obtain ⟨rfl, rfl, rfl, rfl, rfl, rfl⟩ := hhead
    exact refuses_mapped hipv4

theorem isNearbyIpv6_of_independent (address : Ipv6)
    (h : isIndependentHost (serializeIpv6 address.pieces) = true) :
    isNearbyIpv6 address.pieces = false := by
  rw [← Bool.not_eq_true]
  intro hnear
  have hnear' := hnear
  unfold isNearbyIpv6 at hnear'
  split at hnear'
  · rename_i p0 p1 p2 p3 p4 p5 p6 p7 hpieces
    rw [hpieces] at h hnear
    rw [refuses_nearby_ipv6 p0 p1 p2 p3 p4 p5 p6 p7 hnear] at h
    cases h
  · cases hnear'

/-! ## Names -/

section
variable (t : HostText)

theorem unbracket_text : unbracket t.text = t.text :=
  unbracket_of_not_mem (fun h => t.allowed _ h (by decide)) fun h => t.allowed _ h (by decide)

theorem foldedHost_text : foldedHost t.text = (stripDots t.text).map foldCase := by
  rw [foldedHost, unbracket_text t]

theorem not_colon_text : (foldedHost t.text).contains colon = false := by
  rw [← Bool.not_eq_true, List.contains_iff_mem, foldedHost_text t]
  intro hmem
  obtain ⟨c, hc, hfold⟩ := List.mem_map.mp hmem
  rw [foldCase_eq_iff (by decide)] at hfold
  subst hfold
  exact t.allowed colon ((List.rdropWhile_prefix _ t.text).subset hc) (by decide)

/-- A name that passes has a dot and no local suffix. -/
theorem independent_name (h : isIndependentHost (foldedHost t.text) = true) :
    (foldedHost t.text).contains dot = true ∧ hasLocalSuffix (foldedHost t.text) = false ∧
      (isFourNumbers (foldedHost t.text) = true → isPublicIpv4 (foldedHost t.text) = true) := by
  simp only [isIndependentHost, not_colon_text t] at h
  split at h
  · cases h
  · rename_i hlocal
    simp only [Bool.or_eq_true, not_or, Bool.not_eq_true] at hlocal
    split at h
    · rename_i hfour
      exact ⟨List.contains_iff_mem.mpr (isFourNumbers_mem hfour).1, hlocal.2, fun _ => h⟩
    · rename_i hfour
      exact ⟨by simpa using h, hlocal.2, fun hfour' => absurd hfour' hfour⟩

theorem isLocalName_of_independent (h : isIndependentHost (foldedHost t.text) = true) :
    isLocalName t.text = false := by
  obtain ⟨hdot, hsuffix, -⟩ := independent_name t h
  rw [isLocalName, ← foldedHost_text t, hdot, hsuffix]
  rfl

/-- A local suffix is no number, so an IPv4 address has none. -/
theorem ipv4Parse_of_suffix (h : hasLocalSuffix (foldedHost t.text) = true) :
    ipv4Parse t.text = none := by
  obtain ⟨suffix, hmem, hsuffix⟩ := List.any_eq_true.mp h
  rw [List.isSuffixOf_iff_suffix, foldedHost_text] at hsuffix
  obtain ⟨front, hfront⟩ := hsuffix
  obtain ⟨front', back, hstrip, -, hback⟩ := List.append_eq_map_iff.mp hfront
  -- a suffix starts with a letter, which is in either case no digit
  have hletter : ∃ c rest, suffix = c :: rest ∧ 0x61 ≤ c := by
    have hall : localSuffixes.all (fun s => s.head?.any fun c => decide (0x61 ≤ c)) = true := by decide
    have hhead := List.all_eq_true.mp hall suffix hmem
    cases suffix with
    | nil => cases hhead
    | cons c rest => exact ⟨c, rest, rfl, by simpa using hhead⟩
  obtain ⟨c', rest', rfl, hc'⟩ := hletter
  rcases back with _ | ⟨x, _ | ⟨c, rest⟩⟩
  · cases hback
  · simp at hback
  · simp only [List.map_cons, List.cons.injEq] at hback
    obtain ⟨hx, hc, -⟩ := hback
    have hdot : x = dot := (foldCase_eq_iff (by decide)).mp hx
    have hlow : ∀ d : UInt16, d < 0x41 → c ≠ d := by
      rintro d hd rfl
      rw [(foldCase_eq_iff hd).mpr rfl] at hc
      rw [hc] at hd
      exact absurd (UInt16.lt_of_le_of_lt hc' hd) (by decide)
    have hdigit : isDecimalUnit c = false := by
      rw [← Bool.not_eq_true]
      intro hdigit
      simp only [isDecimalUnit, Bool.and_eq_true, decide_eq_true_eq] at hdigit
      exact hlow c (UInt16.lt_of_le_of_lt hdigit.2 (by decide)) rfl
    obtain ⟨dots, hdots⟩ := List.rdropWhile_prefix (· == dot) t.text
    have htext : t.text = front' ++ dot :: c :: (rest ++ dots) := by
      rw [← hdots]
      change stripDots t.text ++ dots = _
      rw [hstrip, hdot]
      simp
    rw [htext]
    exact ipv4Parse_of_not_digit front' (rest ++ dots) hdigit (hlow dot (by decide))

/-- Conversely, an IPv4 address with a dot passes, unless four decimal
numbers give it away. -/
theorem independent_of_ipv4 {address : Nat} (haddress : ipv4Parse t.text = some address)
    (hdot : (foldedHost t.text).contains dot = true)
    (hfour : isFourNumbers (foldedHost t.text) = true → isPublicIpv4 (foldedHost t.text) = true) :
    isIndependentHost (foldedHost t.text) = true := by
  have hsuffix : hasLocalSuffix (foldedHost t.text) = false := by
    rw [← Bool.not_eq_true]
    intro hsuffix
    rw [ipv4Parse_of_suffix t hsuffix] at haddress
    cases haddress
  have hlocalhost : (foldedHost t.text == js "localhost") = false := by
    rw [beq_eq_false_iff_ne]
    intro heq
    rw [heq] at hdot
    exact absurd hdot (by decide)
  simp only [isIndependentHost, hlocalhost, hsuffix, not_colon_text t, hdot]
  split
  · rename_i h
    cases h
  · split
    · rename_i h
      exact hfour h
    · rfl

end

/-! ## The predicate -/

theorem isNearbyIpv4_of_independent {address : Nat} (hlt : address < 2 ^ 32)
    (h : isIndependentHost (dotted (octets address)) = true) : isNearbyIpv4 address = false := by
  have hpublic : isPublicIpv4 (dotted (octets address)) = true := by
    simp only [isIndependentHost] at h
    split at h
    · cases h
    · rwa [octets, isFourNumbers_dotted, if_pos rfl, ← octets] at h
  rwa [isPublicIpv4_octets hlt, Bool.not_eq_true'] at hpublic

/-- A host that passes is somebody else's, or it is written so that it
hides an IPv4 address. -/
theorem far_or_hidden (host : Host) (h : isIndependentHost (foldedHost (hostname host)) = true) :
    isNearby (denotes host) = false ∨
      ∃ text address, host = .asWritten text ∧ ipv4Parse text.text = some address ∧
        isNearbyIpv4 address = true ∧ (foldedHost text.text).contains dot = true ∧
        (isFourNumbers (foldedHost text.text) = true → isPublicIpv4 (foldedHost text.text) = true) := by
  cases host with
  | domain name => exact Or.inl (isLocalName_of_independent name h)
  | ipv4 address =>
    rw [hostname, octets, foldedHost_dotted, ← octets] at h
    exact Or.inl (isNearbyIpv4_of_independent address.isLt h)
  | ipv6 address =>
    rw [foldedHost_ipv6] at h
    exact Or.inl (isNearbyIpv6_of_independent address h)
  | asWritten text =>
    rw [hostname] at h
    obtain ⟨hdot, -, hfour⟩ := independent_name text h
    cases haddress : ipv4Parse text.text with
    | none =>
      rw [denotes, haddress]
      exact Or.inl (isLocalName_of_independent text h)
    | some address =>
      cases hnear : isNearbyIpv4 address with
      | false =>
        rw [denotes, haddress]
        exact Or.inl hnear
      | true => exact Or.inr ⟨text, address, rfl, haddress, hnear, hdot, hfour⟩
  | empty => exact absurd h (by decide)

/-- **Which endpoints may vouch from afar.** The predicate lets an
endpoint in only if it is dialled over TLS at somebody else's, except for
the hosts that hide an IPv4 address. -/
theorem independent_iff (parse : JsString → Option UrlRecord) (endpoint : JsString) :
    VouchesFromAfar parse endpoint ↔ ¬ HiddenIpv4 parse endpoint := by
  constructor
  · rintro hvouches ⟨url, text, address, hparse, htls, hhost, haddress, hnear, hdot, hfour⟩
    have hfolded : foldedHost (hostname url.host) = foldedHost text.text := by rw [hhost, hostname]
    have hpasses : isIndependentTipEndpoint parse endpoint = true := by
      simp only [isIndependentTipEndpoint, hparse, htls, hfolded]
      exact independent_of_ipv4 text haddress hdot hfour
    obtain ⟨url', hparse', -, hfar⟩ := hvouches hpasses
    rw [hparse] at hparse'
    cases hparse'
    rw [hhost, denotes, haddress] at hfar
    exact absurd (hfar.symm.trans hnear) (by decide)
  · intro hhidden hpasses
    cases hparse : parse endpoint with
    | none =>
      rw [isIndependentTipEndpoint, hparse] at hpasses
      cases hpasses
    | some url =>
      simp only [isIndependentTipEndpoint, hparse] at hpasses
      split at hpasses
      · cases hpasses
      · rename_i htls
        have htls : (targetFor url).tls = true := by simpa using htls
        refine ⟨url, rfl, htls, ?_⟩
        rcases far_or_hidden url.host hpasses with hfar | ⟨text, address, hhost, haddress, hnear, hdot, hfour⟩
        · exact hfar
        · exact absurd ⟨url, text, address, hparse, htls, hhost, haddress, hnear, hdot, hfour⟩ hhidden

theorem hexLoopback_ascii : ∀ c ∈ js "0x7f.0.0.1", c < 0x80 := by
  have hall : (js "0x7f.0.0.1").all (fun c => decide (c < 0x80)) = true := by decide
  intro c hc
  exact of_decide_eq_true (List.all_eq_true.mp hall c hc)

theorem hexLoopback_allowed : ∀ c ∈ js "0x7f.0.0.1", c ∉ forbiddenHostUnits := by
  have hall : (js "0x7f.0.0.1").all (fun c => !forbiddenHostUnits.contains c) = true := by decide
  intro c hc
  simpa using List.all_eq_true.mp hall c hc

/-- `grpc://0x7f.0.0.1`, parsed. -/
def hexLoopback : UrlRecord where
  scheme := js "grpc"
  host := .asWritten ⟨js "0x7f.0.0.1", hexLoopback_ascii, hexLoopback_allowed⟩
  port := none
  canonical := by
    intro h
    cases h
  verbatim := fun _ => ⟨fun _ h => (by cases h), fun _ h => (by cases h)⟩
  portKept := fun h => absurd rfl h

def parseHexLoopback (endpoint : JsString) : Option UrlRecord :=
  if endpoint = js "grpc://0x7f.0.0.1" then some hexLoopback else none

/-- It may vouch for the tip, and is 127.0.0.1. -/
theorem hexLoopback_vouches :
    isIndependentTipEndpoint parseHexLoopback (js "grpc://0x7f.0.0.1") = true ∧
      (targetFor hexLoopback).target = js "0x7f.0.0.1:443" ∧
      denotes hexLoopback.host = .ipv4 (127 * 2 ^ 24 + 1) ∧
      ¬ VouchesFromAfar parseHexLoopback (js "grpc://0x7f.0.0.1") := by
  have hpasses : isIndependentTipEndpoint parseHexLoopback (js "grpc://0x7f.0.0.1") = true := by
    decide +kernel
  refine ⟨hpasses, by decide +kernel, rfl, fun hvouches => ?_⟩
  obtain ⟨url, hparse, -, hfar⟩ := hvouches hpasses
  rw [parseHexLoopback, if_pos rfl] at hparse
  cases hparse
  exact absurd hfar (by decide +kernel)

end ZcashFaucet.Zcash
