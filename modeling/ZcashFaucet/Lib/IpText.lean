/-
ZcashFaucet.Lib.IpText — which texts spell which IP address.

An IPv4 address has one spelling, four decimal numbers without leading
zeros. An IPv6 address has many: a group takes one to four digits, two
colons stand once for one or more groups of zeros, and the last two
groups may be written as the four numbers of an IPv4 address. An
IPv4-mapped address is the IPv4 address it maps, so `IpAddress.v6` holds
no mapped one.

The texts here are in lower case. Letter case makes no difference to
what is spelled.
-/
import ZcashFaucet.Lib.UrlHost
import Mathlib.Data.List.Forall2

namespace ZcashFaucet.Lib

/-! ## Addresses -/

structure Ipv4 where
  a : UInt8
  b : UInt8
  c : UInt8
  d : UInt8
  deriving DecidableEq, Repr

namespace Ipv4

def numbers (v : Ipv4) : List Nat := [v.a.toNat, v.b.toNat, v.c.toNat, v.d.toNat]

/-- The two groups an IPv4 address takes. -/
def groups (v : Ipv4) : List UInt16 :=
  [UInt16.ofNat (256 * v.a.toNat + v.b.toNat), UInt16.ofNat (256 * v.c.toNat + v.d.toNat)]

/-- `::ffff:0:0/96`. -/
def mapped (v : Ipv4) : Ipv6 := ⟨[0, 0, 0, 0, 0, 0xffff] ++ v.groups, rfl⟩

def text (v : Ipv4) : JsString := dotted v.numbers

end Ipv4

inductive IpAddress
  | v4 (v : Ipv4)
  | v6 (g : Ipv6) (unmapped : ∀ v : Ipv4, g ≠ v.mapped)

/-- The address that eight groups stand for. -/
inductive StandsFor : Ipv6 → IpAddress → Prop
  | mapped (v : Ipv4) : StandsFor v.mapped (.v4 v)
  | other (g : Ipv6) (unmapped : ∀ v : Ipv4, g ≠ v.mapped) : StandsFor g (.v6 g unmapped)

theorem exists_standsFor (g : Ipv6) : ∃ a, StandsFor g a := by
  by_cases h : ∃ v : Ipv4, g = v.mapped
  · obtain ⟨v, rfl⟩ := h
    exact ⟨.v4 v, .mapped v⟩
  · exact ⟨.v6 g fun v hv => h ⟨v, hv⟩, .other g _⟩

theorem Ipv4.mapped_injective : Function.Injective mapped := by
  intro v w h
  have hbyte (n : UInt8) := n.toNat_lt
  have hgroups := congrArg (fun g : Ipv6 => g.pieces.map UInt16.toNat) h
  simp [mapped, groups] at hgroups
  obtain ⟨hab, hcd⟩ := hgroups
  have ha := hbyte v.a
  have hb := hbyte v.b
  have hc := hbyte v.c
  have hd := hbyte v.d
  have ha' := hbyte w.a
  have hb' := hbyte w.b
  have hc' := hbyte w.c
  have hd' := hbyte w.d
  cases v
  cases w
  simp only [mk.injEq, ← UInt8.toNat_inj] at *
  omega

/-- A mapped address stands for nothing but the address it maps. -/
theorem standsFor_mapped {v : Ipv4} {a : IpAddress} (h : StandsFor v.mapped a) : a = .v4 v := by
  generalize hmapped : v.mapped = g at h
  cases h with
  | mapped w => rw [Ipv4.mapped_injective hmapped]
  | other _ unmapped => exact absurd hmapped.symm (unmapped v)

/-! ## Spellings -/

def joinColon (pieces : List JsString) : JsString := [colon].intercalate pieces

/-- Each piece with a colon after it. -/
def trail (pieces : List JsString) : JsString := pieces.flatMap (· ++ [colon])

/-- One to four hexadecimal digits. -/
structure GroupText (s : JsString) (g : UInt16) : Prop where
  length_pos : 1 ≤ s.length
  length_le : s.length ≤ 4
  digits : s.all isLowerHex = true
  value : radixValue 16 s = some g.toNat

/-- The zeros two colons stand for. -/
def zeros (n : Nat) : List UInt16 := List.replicate (8 - n) 0

/-- Eight groups in hexadecimal. -/
inductive HexForm : JsString → List UInt16 → Prop
  | full {ps : List JsString} {gs : List UInt16} (h : List.Forall₂ GroupText ps gs)
      (hlength : gs.length = 8) : HexForm (joinColon ps) gs
  | compressed {left right : List JsString} {gl gr : List UInt16}
      (hleft : List.Forall₂ GroupText left gl) (hright : List.Forall₂ GroupText right gr)
      (hlength : gl.length + gr.length ≤ 7) :
      HexForm (joinColon left ++ colon :: colon :: joinColon right)
        (gl ++ zeros (gl.length + gr.length) ++ gr)

/-- Six groups in hexadecimal and an IPv4 address. -/
inductive DottedForm (v : Ipv4) : JsString → List UInt16 → Prop
  | full {ps : List JsString} {gs : List UInt16} (h : List.Forall₂ GroupText ps gs)
      (hlength : gs.length = 6) : DottedForm v (trail ps ++ v.text) (gs ++ v.groups)
  | compressed {left right : List JsString} {gl gr : List UInt16}
      (hleft : List.Forall₂ GroupText left gl) (hright : List.Forall₂ GroupText right gr)
      (hlength : gl.length + gr.length ≤ 5) :
      DottedForm v (joinColon left ++ colon :: colon :: (trail right ++ v.text))
        (gl ++ zeros (gl.length + gr.length + 2) ++ (gr ++ v.groups))

/-- The text spells the address. -/
inductive IpText : JsString → IpAddress → Prop
  | v4 (v : Ipv4) : IpText v.text (.v4 v)
  | hex {s : JsString} {g : Ipv6} {a : IpAddress} (h : HexForm s g.pieces)
      (hstands : StandsFor g a) : IpText s a
  | dotted {v : Ipv4} {s : JsString} {g : Ipv6} {a : IpAddress} (h : DottedForm v s g.pieces)
      (hstands : StandsFor g a) : IpText s a

/-! ## Networks -/

/-- The first 24 bits of an IPv4 address, the first 48 of an IPv6 address. -/
def SameNet : IpAddress → IpAddress → Prop
  | .v4 v, .v4 w => v.a = w.a ∧ v.b = w.b ∧ v.c = w.c
  | .v6 g _, .v6 h _ => g.pieces.take 3 = h.pieces.take 3
  | _, _ => False

/-! ## Groups -/

/-- A lower-case digit is that of its value. -/
theorem exists_hexDigitLower {c : UInt16} (h : isLowerHex c = true) :
    ∃ d < 16, c = hexDigitLower d := by
  simp only [isLowerHex, Bool.or_eq_true, Bool.and_eq_true, decide_eq_true_eq,
    UInt16.le_iff_toNat_le, UInt16.reduceToNat] at h
  rcases h with h | h
  · refine ⟨c.toNat - 0x30, by omega, UInt16.toNat_inj.mp ?_⟩
    rw [hexDigitLower, if_pos (by omega), Nat.toUInt16_eq, UInt16.toNat_ofNat']
    omega
  · refine ⟨c.toNat - 0x57, by omega, UInt16.toNat_inj.mp ?_⟩
    rw [hexDigitLower, if_neg (by omega), Nat.toUInt16_eq, UInt16.toNat_ofNat']
    omega

theorem exists_digits {s : JsString} (h : s.all isLowerHex = true) :
    ∃ ds : List Nat, (∀ d ∈ ds, d < 16) ∧ s = ds.map hexDigitLower := by
  induction s with
  | nil => exact ⟨[], by simp, rfl⟩
  | cons c s ih =>
    rw [List.all_cons, Bool.and_eq_true] at h
    obtain ⟨d, hd, rfl⟩ := exists_hexDigitLower h.1
    obtain ⟨ds, hds, rfl⟩ := ih h.2
    exact ⟨d :: ds, List.forall_mem_cons.mpr ⟨hd, hds⟩, rfl⟩

/-- One to four digits have a value of sixteen bits. -/
theorem exists_groupText {s : JsString} (hpos : 1 ≤ s.length) (hle : s.length ≤ 4)
    (hdigits : s.all isLowerHex = true) : ∃ g, GroupText s g := by
  obtain ⟨ds, hds, rfl⟩ := exists_digits hdigits
  have hvalue : radixValue 16 (ds.map hexDigitLower) =
      some (ds.foldl (fun n d => 16 * n + d) 0) := radixValue_hexDigits hds 0
  have hcount : ds.length ≤ 4 := by simpa using hle
  have hlt : ds.foldl (fun n d => 16 * n + d) 0 < 2 ^ 16 := by
    match ds, hcount, hds with
    | [], _, _ => decide
    | [a], _, h => simp at h ⊢; omega
    | [a, b], _, h => simp at h ⊢; omega
    | [a, b, c], _, h => simp at h ⊢; omega
    | [a, b, c, d], _, h => simp at h ⊢; omega
    | _ :: _ :: _ :: _ :: _ :: _, h, _ => simp only [List.length_cons] at h; omega
  refine ⟨UInt16.ofNat (ds.foldl (fun n d => 16 * n + d) 0), hpos, hle, hdigits, ?_⟩
  rw [hvalue, UInt16.toNat_ofNat', Nat.mod_eq_of_lt hlt]

/-- The digits without the zeros in front, of which the last one stays. -/
def stripDigits : List Nat → List Nat
  | 0 :: d :: ds => stripDigits (d :: ds)
  | ds => ds

/-- A group in as few digits as it takes. -/
theorem hexDigits_eq_strip {ds : List Nat} {g : UInt16} (hpos : 1 ≤ ds.length)
    (hle : ds.length ≤ 4) (hds : ∀ d ∈ ds, d < 16)
    (hvalue : ds.foldl (fun n d => 16 * n + d) 0 = g.toNat) : hexDigits g = stripDigits ds := by
  unfold hexDigits
  match ds, hpos, hle, hds with
  | [a], _, _, h =>
    simp at h hvalue
    have h1 : g.toNat / 4096 = 0 := by omega
    have h2 : g.toNat / 256 % 16 = 0 := by omega
    have h3 : g.toNat / 16 % 16 = 0 := by omega
    have h4 : g.toNat % 16 = a := by omega
    simp [h1, h2, h3, h4, stripDigits]
  | [a, b], _, _, h =>
    simp at h hvalue
    have h1 : g.toNat / 4096 = 0 := by omega
    have h2 : g.toNat / 256 % 16 = 0 := by omega
    have h3 : g.toNat / 16 % 16 = a := by omega
    have h4 : g.toNat % 16 = b := by omega
    rw [h1, h2, h3, h4]
    cases a <;> simp [stripDigits]
  | [a, b, c], _, _, h =>
    simp at h hvalue
    have h1 : g.toNat / 4096 = 0 := by omega
    have h2 : g.toNat / 256 % 16 = a := by omega
    have h3 : g.toNat / 16 % 16 = b := by omega
    have h4 : g.toNat % 16 = c := by omega
    rw [h1, h2, h3, h4]
    cases a <;> cases b <;> simp [stripDigits]
  | [a, b, c, d], _, _, h =>
    simp at h hvalue
    have h1 : g.toNat / 4096 = a := by omega
    have h2 : g.toNat / 256 % 16 = b := by omega
    have h3 : g.toNat / 16 % 16 = c := by omega
    have h4 : g.toNat % 16 = d := by omega
    rw [h1, h2, h3, h4]
    cases a <;> cases b <;> cases c <;> simp [stripDigits]
  | _ :: _ :: _ :: _ :: _ :: _, _, h, _ => simp only [List.length_cons] at h; omega

theorem GroupText.ne_nil {s : JsString} {g : UInt16} (h : GroupText s g) : s ≠ [] := by
  rintro rfl
  exact absurd h.length_pos (by simp)

theorem GroupText.not_mem {s : JsString} {g : UInt16} (h : GroupText s g) {c : UInt16}
    (hc : isLowerHex c = false) : c ∉ s := by
  intro hmem
  have := List.all_eq_true.mp h.digits c hmem
  rw [hc] at this
  cases this

/-! ## Pieces between colons -/

/-- The texts between colons, without the empty ones. -/
def pieces (s : JsString) : List JsString := (s.splitOn colon).filter (· ≠ [])

theorem pieces_append_colon (s t : JsString) : pieces (s ++ colon :: t) = pieces s ++ pieces t := by
  rw [pieces, List.splitOn_append_cons_self, List.filter_append, pieces, pieces]

@[simp] theorem pieces_nil : pieces [] = [] := rfl

theorem pieces_colon (t : JsString) : pieces (colon :: t) = pieces t :=
  pieces_append_colon [] t

theorem pieces_self {s : JsString} (hne : s ≠ []) (hcolon : colon ∉ s) : pieces s = [s] := by
  rw [pieces, List.splitOn_eq_singleton hcolon]
  simp [hne]

/-- Texts that are pieces. -/
def ArePieces (ps : List JsString) : Prop := ∀ p ∈ ps, p ≠ [] ∧ colon ∉ p

theorem joinColon_cons_cons (p q : JsString) (ps : List JsString) :
    joinColon (p :: q :: ps) = p ++ colon :: joinColon (q :: ps) := by
  simp [joinColon, List.intercalate_cons_cons]

@[simp] theorem joinColon_nil : joinColon [] = [] := rfl

@[simp] theorem joinColon_singleton (p : JsString) : joinColon [p] = p := by simp [joinColon]

theorem trail_cons (p : JsString) (ps : List JsString) (t : JsString) :
    trail (p :: ps) ++ t = p ++ colon :: (trail ps ++ t) := by
  simp [trail]

theorem pieces_joinColon : ∀ {ps : List JsString}, ArePieces ps → pieces (joinColon ps) = ps
  | [], _ => rfl
  | [p], h => by
      obtain ⟨hne, hcolon⟩ := h p (by simp)
      rw [joinColon_singleton, pieces_self hne hcolon]
  | p :: q :: ps, h => by
      obtain ⟨hne, hcolon⟩ := h p (by simp)
      rw [joinColon_cons_cons, pieces_append_colon, pieces_self hne hcolon,
        pieces_joinColon fun r hr => h r (List.mem_cons_of_mem p hr)]
      rfl

theorem pieces_trail {ps : List JsString} (h : ArePieces ps) (t : JsString) :
    pieces (trail ps ++ t) = ps ++ pieces t := by
  induction ps with
  | nil => rfl
  | cons p ps ih =>
    obtain ⟨hne, hcolon⟩ := h p (by simp)
    rw [trail_cons, pieces_append_colon, pieces_self hne hcolon,
      ih fun r hr => h r (List.mem_cons_of_mem p hr)]
    rfl

theorem arePieces_of_groupText {ps : List JsString} {gs : List UInt16}
    (h : List.Forall₂ GroupText ps gs) : ArePieces ps := by
  induction h with
  | nil => simp [ArePieces]
  | cons hp _ ih =>
    exact List.forall_mem_cons.mpr ⟨⟨hp.ne_nil, hp.not_mem (by decide)⟩, ih⟩

/-- How many texts there are between the colons of joined pieces. -/
theorem length_splitOn_joinColon {ps : List JsString} (h : ArePieces ps) :
    ((joinColon ps).splitOn colon).length = max 1 ps.length := by
  cases ps with
  | nil => rfl
  | cons p ps =>
    have hsplit : (joinColon (p :: ps)).splitOn colon = p :: ps :=
      List.splitOn_intercalate colon (fun q hq => (h q hq).2) (by simp)
    rw [hsplit, List.length_cons]
    omega

/-! ## The forms -/

theorem mem_joinColon {ps : List JsString} {gs : List UInt16} (h : List.Forall₂ GroupText ps gs)
    {c : UInt16} (hc : c ∈ joinColon ps) : isLowerHex c = true ∨ c = colon := by
  rcases mem_intercalate hc with rfl | ⟨p, hp, hcp⟩
  · exact .inr rfl
  · left
    clear hc
    induction h with
    | nil => cases hp
    | cons hg _ ih =>
      rcases List.mem_cons.mp hp with rfl | hp
      · exact List.all_eq_true.mp hg.digits c hcp
      · exact ih hp

theorem mem_joinPair {left right : List JsString} {gl gr : List UInt16}
    (hleft : List.Forall₂ GroupText left gl) (hright : List.Forall₂ GroupText right gr)
    {c : UInt16} (hc : c ∈ joinColon left ++ colon :: colon :: joinColon right) :
    isLowerHex c = true ∨ c = colon := by
  rw [List.mem_append, List.mem_cons, List.mem_cons] at hc
  rcases hc with hc | hc | hc | hc
  · exact mem_joinColon hleft hc
  · exact .inr hc
  · exact .inr hc
  · exact mem_joinColon hright hc

theorem ne_dot_of_unit {c : UInt16} (h : isLowerHex c = true ∨ c = colon) : c ≠ dot := by
  rintro rfl
  rcases h with h | h
  · cases h
  · cases h

/-- Groups in hexadecimal have nothing but digits and colons. -/
theorem HexForm.units {s : JsString} {gs : List UInt16} (h : HexForm s gs) {c : UInt16}
    (hc : c ∈ s) : isLowerHex c = true ∨ c = colon := by
  cases h with
  | full h _ => exact mem_joinColon h hc
  | compressed hleft hright _ => exact mem_joinPair hleft hright hc

theorem HexForm.not_mem_dot {s : JsString} {gs : List UInt16} (h : HexForm s gs) : dot ∉ s :=
  fun hmem => ne_dot_of_unit (h.units hmem) rfl

theorem HexForm.length_eq {s : JsString} {gs : List UInt16} (h : HexForm s gs) : gs.length = 8 := by
  cases h with
  | full _ hlength => exact hlength
  | compressed _ _ hlength =>
    simp only [zeros, List.length_append, List.length_replicate]
    omega

theorem HexForm.mem_colon {s : JsString} {gs : List UInt16} (h : HexForm s gs) : colon ∈ s := by
  cases h with
  | @full ps gs h hlength =>
    match ps, h.length_eq with
    | p :: q :: ps, _ => simp [joinColon_cons_cons]
    | [_], hps => simp [hlength] at hps
    | [], hps => simp [hlength] at hps
  | compressed => simp

/-- The four numbers stand after the last colon. -/
theorem DottedForm.exists_front {v : Ipv4} {s : JsString} {gs : List UInt16}
    (h : DottedForm v s gs) : ∃ front, s = front ++ colon :: v.text := by
  have htrail (ps : List JsString) (hne : ps ≠ []) : ∃ front, trail ps = front ++ [colon] := by
    refine ⟨trail ps.dropLast ++ ps.getLast hne, ?_⟩
    conv_lhs => rw [← List.dropLast_append_getLast hne]
    simp [trail]
  cases h with
  | @full ps gs h hlength =>
    have hne : ps ≠ [] := by
      rintro rfl
      have := h.length_eq
      simp [hlength] at this
    obtain ⟨front, hfront⟩ := htrail ps hne
    exact ⟨front, by simp [hfront]⟩
  | @compressed left right gl gr hleft hright hlength =>
    by_cases hne : right = []
    · subst hne
      exact ⟨joinColon left ++ [colon], by simp [trail]⟩
    · obtain ⟨front, hfront⟩ := htrail right hne
      exact ⟨joinColon left ++ colon :: colon :: front, by simp [hfront]⟩

theorem Ipv4.not_mem_colon (v : Ipv4) : colon ∉ v.text := by
  intro hmem
  rcases mem_dotted hmem with h | h
  · cases h
  · cases h

theorem Ipv4.splitOn_text (v : Ipv4) : v.text.splitOn dot = v.numbers.map decimal :=
  splitOn_dotted (by simp [Ipv4.numbers])

theorem Ipv4.mem_dot (v : Ipv4) : dot ∈ v.text := by
  by_contra h
  have hsplit := List.splitOn_eq_singleton h
  rw [v.splitOn_text] at hsplit
  simpa [Ipv4.numbers] using congrArg List.length hsplit

/-- What follows the last of a separator. -/
theorem tail_eq_of_append_cons {α : Type} [BEq α] [LawfulBEq α] {x x' y y' : List α} {c : α}
    (hy : c ∉ y) (hy' : c ∉ y') (h : x ++ c :: y = x' ++ c :: y') : y = y' := by
  have hsplit := congrArg (fun l => (l.splitOn c).getLast?) h
  simpa [List.splitOn_append_cons_self, List.splitOn_eq_singleton hy,
    List.splitOn_eq_singleton hy'] using hsplit

theorem DottedForm.length_eq {v : Ipv4} {s : JsString} {gs : List UInt16}
    (h : DottedForm v s gs) : gs.length = 8 := by
  cases h with
  | full _ hlength => simp [Ipv4.groups, hlength]
  | compressed _ _ hlength =>
    simp only [zeros, Ipv4.groups, List.length_append, List.length_replicate, List.length_cons,
      List.length_nil]
    omega

theorem HexForm.exists_ipText {s : JsString} {gs : List UInt16} (h : HexForm s gs) :
    ∃ a, IpText s a := by
  obtain ⟨a, ha⟩ := exists_standsFor ⟨gs, h.length_eq⟩
  exact ⟨a, .hex h ha⟩

theorem DottedForm.exists_ipText {v : Ipv4} {s : JsString} {gs : List UInt16}
    (h : DottedForm v s gs) : ∃ a, IpText s a := by
  obtain ⟨a, ha⟩ := exists_standsFor ⟨gs, h.length_eq⟩
  exact ⟨a, .dotted h ha⟩

end ZcashFaucet.Lib
