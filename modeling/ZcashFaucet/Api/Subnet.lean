/-
ZcashFaucet.Api.Subnet — the key of the subnet cap: `subnetOf` and
`expandIpv6` of `privacy.ts`.

The text is trimmed and put in lower case, and what is left is taken as
one of two forms: four decimal numbers, with or without `::ffff:` in
front, or groups with at most one pair of colons. `subnetOf_canonical`
says where that agrees with the grammar of addresses. It reads too little
of the mapped addresses, which may be written in hexadecimal and whose
four numbers may stand behind other groups, and too much elsewhere: a
number may have leading zeros and the pair of colons may stand for no
group at all.
-/
import ZcashFaucet.Lib.IpText
import ZcashFaucet.Lib.JsLower
import ZcashFaucet.Lib.JsTrim

namespace ZcashFaucet.Api

open Lib

/-! ## The source -/

/-- `\d{1,3}`. -/
def isOctetText (s : JsString) : Bool := 1 ≤ s.length && s.length ≤ 3 && s.all isDecimalUnit

def mappedFront : JsString := js "::ffff:"

/-- What is after `(?:::ffff:)?`. -/
def patternBody (raw : JsString) : JsString :=
  if mappedFront.isPrefixOf raw then raw.drop mappedFront.length else raw

/-- What the pattern of `subnetOf` captures. -/
def octetTexts (raw : JsString) : Option (List JsString) :=
  let parts := (patternBody raw).splitOn dot
  if parts.length = 4 ∧ parts.all isOctetText = true then some parts else none

/-- `split("::")`. -/
def splitPairs : JsString → List JsString
  | c :: d :: rest =>
      if c = colon ∧ d = colon then [] :: splitPairs rest
      else (splitPairs (d :: rest)).modifyHead (List.cons c)
  | s => [s]

/-- `/^[0-9a-f]{1,4}$/`. -/
def isGroupText (s : JsString) : Bool := 1 ≤ s.length && s.length ≤ 4 && s.all isLowerHex

/-- `replace(/^0+(?=.)/, "")`. -/
def stripZeros : JsString → JsString
  | 0x30 :: c :: rest => stripZeros (c :: rest)
  | s => s

/-- The texts between colons, none of an empty text. -/
def colonParts (half : JsString) : List JsString := if half.truthy then half.splitOn colon else []

/-- `expandIpv6` once both halves are taken apart. -/
def fillGroups (head tail : List JsString) : Option (List JsString) :=
  if head.length + tail.length > 8 then none
  else
    let groups := head ++ List.replicate (8 - head.length - tail.length) [0x30] ++ tail
    if groups.length ≠ 8 then none
    else if !groups.all isGroupText then none
    else some (groups.map stripZeros)

def expandIpv6 (raw : JsString) : Option (List JsString) :=
  let halves := splitPairs raw
  if halves.length > 2 then none
  else
    let head := colonParts (halves.headD [])
    let tail := if halves.length = 2 then colonParts (halves.getLastD []) else []
    if halves.length = 1 ∧ head.length ≠ 8 then none else fillGroups head tail

/-- `subnetOf` after `trim` and `toLowerCase`. -/
def subnetOfLower (raw : JsString) : Option JsString :=
  if !raw.truthy then none
  else
    match octetTexts raw with
    | some parts =>
        let octets := parts.map decimalValue
        if octets.any (· > 255) then none else some (dotted (octets.take 3) ++ js ".0/24")
    | none =>
        if !raw.contains colon then none
        else (expandIpv6 raw).map fun groups => joinColon (groups.take 3) ++ js "::/48"

def subnetOf (lower : LowerCase) (ip : JsString) : Option JsString :=
  subnetOfLower (lower.apply (trim ip))

example : subnetOfLower (js "::ffff:203.0.113.45") = some (js "203.0.113.0/24") ∧
    subnetOfLower (js "2001:db8::1") = some (js "2001:db8:0::/48") ∧
    subnetOfLower (js "2001:db8::1::2") = none := by decide +kernel

/-! ## What a key should be -/

def netKey : IpAddress → JsString
  | .v4 v => dotted (v.numbers.take 3) ++ js ".0/24"
  | .v6 g _ => joinColon ((g.pieces.take 3).map hexPiece) ++ js "::/48"

/-! ## Pairs of colons -/

theorem splitPairs_cons {c : UInt16} {s : JsString} (h : c ≠ colon ∨ ∀ d ∈ s.head?, d ≠ colon) :
    splitPairs (c :: s) = (splitPairs s).modifyHead (List.cons c) := by
  cases s with
  | nil => rfl
  | cons d rest =>
    have hpair : ¬ (c = colon ∧ d = colon) := fun ⟨hc, hd⟩ =>
      h.elim (fun hne => hne hc) fun hne => hne d rfl hd
    rw [splitPairs, if_neg hpair]

theorem splitPairs_pair (s : JsString) :
    splitPairs (colon :: colon :: s) = [] :: splitPairs s := by
  rw [splitPairs, if_pos ⟨rfl, rfl⟩]

theorem splitPairs_append {p : JsString} (h : colon ∉ p) (t : JsString) :
    splitPairs (p ++ t) = (splitPairs t).modifyHead (p ++ ·) := by
  induction p with
  | nil => cases hsplit : splitPairs t <;> simp [hsplit]
  | cons c p ih =>
    rw [List.mem_cons, not_or] at h
    rw [List.cons_append, splitPairs_cons (.inl (Ne.symm h.1)), ih h.2]
    cases splitPairs t <;> simp

/-- Joined pieces have no pair of colons and make none with what follows. -/
theorem splitPairs_joinColon (t : JsString) : ∀ {ps : List JsString}, ArePieces ps →
    splitPairs (joinColon ps ++ t) = (splitPairs t).modifyHead (joinColon ps ++ ·)
  | [], _ => by cases hsplit : splitPairs t <;> simp [hsplit]
  | [p], h => by
      rw [joinColon_singleton]
      exact splitPairs_append (h p (by simp)).2 t
  | p :: q :: ps, h => by
      have hq := h q (by simp)
      have hhead : ∀ d ∈ (joinColon (q :: ps) ++ t).head?, d ≠ colon := by
        obtain ⟨c, rest, hc⟩ := List.exists_cons_of_ne_nil hq.1
        have hne : c ≠ colon := fun heq => hq.2 (by simp [hc, heq])
        cases ps with
        | nil => simp [hc, hne]
        | cons r ps => simp [joinColon_cons_cons, hc, hne]
      rw [joinColon_cons_cons, List.append_assoc, List.cons_append,
        splitPairs_append (h p (by simp)).2, splitPairs_cons (.inr hhead),
        splitPairs_joinColon t fun r hr => h r (List.mem_cons_of_mem p hr)]
      cases splitPairs t <;> simp

theorem splitPairs_ne_nil : ∀ s : JsString, splitPairs s ≠ []
  | [] => by simp [splitPairs]
  | [c] => by simp [splitPairs]
  | c :: d :: rest => by
      have ih := splitPairs_ne_nil (d :: rest)
      rw [splitPairs]
      split
      · simp
      · cases hsplit : splitPairs (d :: rest) with
        | nil => exact absurd hsplit ih
        | cons half halves => simp

/-- Splitting at pairs loses nothing. -/
theorem join_splitPairs : ∀ s : JsString, [colon, colon].intercalate (splitPairs s) = s
  | [] => rfl
  | [c] => by simp [splitPairs]
  | c :: d :: rest => by
      rw [splitPairs]
      split
      · rename_i h
        rw [List.intercalate_cons_of_ne_nil (splitPairs_ne_nil rest), join_splitPairs rest, h.1, h.2]
        rfl
      · have ih := join_splitPairs (d :: rest)
        obtain ⟨half, halves, hsplit⟩ := List.exists_cons_of_ne_nil (splitPairs_ne_nil (d :: rest))
        rw [hsplit] at ih ⊢
        rw [List.modifyHead_cons, ← ih]
        cases halves with
        | nil => simp
        | cons half' halves => simp [List.intercalate_cons_cons]

/-! ## Groups -/

theorem isGroupText_iff {s : JsString} : isGroupText s = true ↔ ∃ g, GroupText s g := by
  simp only [isGroupText, Bool.and_eq_true, decide_eq_true_eq]
  constructor
  · rintro ⟨⟨hpos, hle⟩, hdigits⟩
    exact exists_groupText hpos hle hdigits
  · rintro ⟨g, h⟩
    exact ⟨⟨h.length_pos, h.length_le⟩, h.digits⟩

theorem exists_groups {ps : List JsString} (h : ps.all isGroupText = true) :
    ∃ gs, List.Forall₂ GroupText ps gs := by
  induction ps with
  | nil => exact ⟨[], .nil⟩
  | cons p ps ih =>
    rw [List.all_cons, Bool.and_eq_true] at h
    obtain ⟨g, hg⟩ := isGroupText_iff.mp h.1
    obtain ⟨gs, hgs⟩ := ih h.2
    exact ⟨g :: gs, .cons hg hgs⟩

theorem all_isGroupText {ps : List JsString} {gs : List UInt16}
    (h : List.Forall₂ GroupText ps gs) : ps.all isGroupText = true := by
  induction h with
  | nil => rfl
  | cons hg _ ih => rw [List.all_cons, isGroupText_iff.mpr ⟨_, hg⟩, ih, Bool.and_self]

theorem stripZeros_of_ne {c : UInt16} (h : c ≠ 0x30) (s : JsString) :
    stripZeros (c :: s) = c :: s := by
  unfold stripZeros
  split
  · rename_i heq
    exact absurd (List.cons.inj heq).1 h
  · rfl

theorem stripZeros_map : ∀ {ds : List Nat}, (∀ d ∈ ds, d < 16) →
    stripZeros (ds.map hexDigitLower) = (stripDigits ds).map hexDigitLower
  | [], _ => rfl
  | [d], _ => by
      cases d <;> simp [stripDigits, stripZeros]
  | d :: e :: ds, h => by
      cases d with
      | zero =>
        have ih : stripZeros ((e :: ds).map hexDigitLower) =
            (stripDigits (e :: ds)).map hexDigitLower :=
          stripZeros_map fun x hx => h x (List.mem_cons_of_mem 0 hx)
        simpa [stripZeros, stripDigits, hexDigitLower] using ih
      | succ d =>
        have hd : d + 1 < 16 := h (d + 1) (by simp)
        have hne : ∀ n < 16, 0 < n → hexDigitLower n ≠ 0x30 := by decide
        rw [List.map_cons, stripZeros_of_ne (hne (d + 1) hd (Nat.succ_pos d))]
        rfl

/-- A group without its leading zeros is the piece of its value. -/
theorem stripZeros_groupText {s : JsString} {g : UInt16} (h : GroupText s g) :
    stripZeros s = hexPiece g := by
  obtain ⟨ds, hds, rfl⟩ := exists_digits h.digits
  have hvalue : radixValue 16 (ds.map hexDigitLower) =
      some (ds.foldl (fun n d => 16 * n + d) 0) := radixValue_hexDigits hds 0
  rw [h.value, Option.some.injEq] at hvalue
  have hpos := h.length_pos
  have hle := h.length_le
  rw [List.length_map] at hpos hle
  rw [stripZeros_map hds, hexPiece_eq, hexDigits_eq_strip hpos hle hds hvalue.symm]

theorem map_stripZeros {ps : List JsString} {gs : List UInt16}
    (h : List.Forall₂ GroupText ps gs) : ps.map stripZeros = gs.map hexPiece := by
  induction h with
  | nil => rfl
  | cons hg _ ih => rw [List.map_cons, List.map_cons, stripZeros_groupText hg, ih]

/-! ## Both ways through `expandIpv6` -/

theorem colonParts_joinColon {ps : List JsString} (h : ArePieces ps) :
    colonParts (joinColon ps) = ps := by
  cases ps with
  | nil => rfl
  | cons p ps =>
    have hne : joinColon (p :: ps) ≠ [] := by
      obtain ⟨c, rest, hc⟩ := List.exists_cons_of_ne_nil (h p (by simp)).1
      cases ps with
      | nil => simp [hc]
      | cons q ps => simp [joinColon_cons_cons]
    rw [colonParts, if_pos (by simpa [JsString.truthy] using hne)]
    exact List.splitOn_intercalate colon (fun q hq => (h q hq).2) (by simp)

theorem joinColon_colonParts (s : JsString) : joinColon (colonParts s) = s := by
  unfold colonParts
  split
  · exact List.intercalate_splitOn colon
  · rename_i h
    have hnil : s = [] := by simpa [JsString.truthy] using h
    rw [hnil]
    rfl

theorem fillGroups_ok {left right : List JsString} {gl gr : List UInt16}
    (hleft : List.Forall₂ GroupText left gl) (hright : List.Forall₂ GroupText right gr)
    (hlength : gl.length + gr.length ≤ 8) :
    fillGroups left right = some ((gl ++ zeros (gl.length + gr.length) ++ gr).map hexPiece) := by
  have hzero : stripZeros [0x30] = hexPiece 0 := by decide
  have hzeros (n : Nat) : (List.replicate n [0x30]).all isGroupText = true := by
    rw [List.all_replicate]
    split
    · rfl
    · decide
  have hsum : left.length + right.length ≤ 8 := by
    rw [hleft.length_eq, hright.length_eq]
    exact hlength
  have hsub : 8 - left.length - right.length = 8 - (gl.length + gr.length) := by
    rw [hleft.length_eq, hright.length_eq]
    omega
  have hcount : (left ++ List.replicate (8 - left.length - right.length) [0x30] ++ right).length =
      8 := by
    simp only [List.length_append, List.length_replicate]
    omega
  have hall : (left ++ List.replicate (8 - left.length - right.length) [0x30] ++ right).all
      isGroupText = true := by
    rw [List.all_append, List.all_append, all_isGroupText hleft, all_isGroupText hright, hzeros]
    rfl
  rw [fillGroups, if_neg (not_lt.mpr hsum)]
  simp only [hcount, hall, ne_eq, not_true_eq_false, Bool.not_true, Bool.false_eq_true, if_false]
  simp only [List.map_append, map_stripZeros hleft, map_stripZeros hright, List.map_replicate,
    hzero, hsub, zeros]

theorem of_fillGroups {head tail groups : List JsString} (h : fillGroups head tail = some groups) :
    ∃ gl gr, List.Forall₂ GroupText head gl ∧ List.Forall₂ GroupText tail gr ∧
      gl.length + gr.length ≤ 8 := by
  unfold fillGroups at h
  split at h
  · cases h
  · rename_i hsum
    dsimp only at h
    split at h
    · cases h
    · split at h
      · cases h
      · rename_i hall
        simp only [List.all_append, Bool.not_eq_true', Bool.not_eq_false, Bool.and_eq_true] at hall
        obtain ⟨gl, hgl⟩ := exists_groups hall.1.1
        obtain ⟨gr, hgr⟩ := exists_groups hall.2
        refine ⟨gl, gr, hgl, hgr, ?_⟩
        rw [← hgl.length_eq, ← hgr.length_eq]
        omega

/-- Groups in any number that fits, with a pair of colons between. -/
theorem expandIpv6_pair {left right : List JsString} {gl gr : List UInt16}
    (hleft : List.Forall₂ GroupText left gl) (hright : List.Forall₂ GroupText right gr)
    (hlength : gl.length + gr.length ≤ 8) :
    expandIpv6 (joinColon left ++ colon :: colon :: joinColon right) =
      some ((gl ++ zeros (gl.length + gr.length) ++ gr).map hexPiece) := by
  have hleftPieces := arePieces_of_groupText hleft
  have hrightPieces := arePieces_of_groupText hright
  have hsplit : splitPairs (joinColon left ++ colon :: colon :: joinColon right) =
      [joinColon left, joinColon right] := by
    have hright' := splitPairs_joinColon [] hrightPieces
    rw [List.append_nil] at hright'
    rw [splitPairs_joinColon _ hleftPieces, splitPairs_pair, hright']
    simp [splitPairs]
  simp [expandIpv6, hsplit, colonParts_joinColon hleftPieces, colonParts_joinColon hrightPieces,
    fillGroups_ok hleft hright hlength]

theorem expandIpv6_full {ps : List JsString} {gs : List UInt16}
    (h : List.Forall₂ GroupText ps gs) (hlength : gs.length = 8) :
    expandIpv6 (joinColon ps) = some (gs.map hexPiece) := by
  have hpieces := arePieces_of_groupText h
  have hsplit : splitPairs (joinColon ps) = [joinColon ps] := by
    have hps := splitPairs_joinColon [] hpieces
    rw [List.append_nil] at hps
    rw [hps]
    simp [splitPairs]
  have height : ps.length = 8 := h.length_eq.trans hlength
  have hfill := fillGroups_ok h .nil (by simp [hlength])
  simp [expandIpv6, hsplit, colonParts_joinColon hpieces, height, hfill, zeros, hlength]

/-- Nothing else is taken apart. -/
theorem of_expandIpv6 {raw : JsString} {groups : List JsString}
    (h : expandIpv6 raw = some groups) :
    (∃ ps gs, List.Forall₂ GroupText ps gs ∧ gs.length = 8 ∧ raw = joinColon ps) ∨
      ∃ left right gl gr, List.Forall₂ GroupText left gl ∧ List.Forall₂ GroupText right gr ∧
        gl.length + gr.length ≤ 8 ∧ raw = joinColon left ++ colon :: colon :: joinColon right := by
  have hjoin := join_splitPairs raw
  unfold expandIpv6 at h
  match hsplit : splitPairs raw with
  | [] => exact absurd hsplit (splitPairs_ne_nil raw)
  | [whole] =>
    left
    rw [hsplit] at hjoin
    simp [hsplit] at h
    obtain ⟨height, hfill⟩ := h
    obtain ⟨gl, gr, hgl, hgr, -⟩ := of_fillGroups hfill
    refine ⟨colonParts whole, gl, hgl, hgl.length_eq ▸ height, ?_⟩
    rw [joinColon_colonParts, ← hjoin]
    simp
  | [front, back] =>
    right
    rw [hsplit] at hjoin
    simp [hsplit] at h
    obtain ⟨gl, gr, hgl, hgr, hlength⟩ := of_fillGroups h
    refine ⟨colonParts front, colonParts back, gl, gr, hgl, hgr, hlength, ?_⟩
    rw [joinColon_colonParts, joinColon_colonParts, ← hjoin]
    simp [List.intercalate_cons_cons]
  | _ :: _ :: _ :: _ => simp [hsplit] at h

/-! ## Four numbers -/

/-- What the pattern lets pass as four numbers. -/
structure AreOctets (parts : List JsString) : Prop where
  length_eq : parts.length = 4
  all : parts.all isOctetText = true

def joinDot (parts : List JsString) : JsString := [dot].intercalate parts

theorem AreOctets.not_mem {parts : List JsString} (h : AreOctets parts) {p : JsString}
    (hp : p ∈ parts) {c : UInt16} (hc : isDecimalUnit c = false) : c ∉ p := by
  intro hmem
  have hunits := List.all_eq_true.mp h.all p hp
  simp only [isOctetText, Bool.and_eq_true] at hunits
  have := List.all_eq_true.mp hunits.2 c hmem
  rw [hc] at this
  cases this

theorem AreOctets.mem_joinDot {parts : List JsString} (h : AreOctets parts) {c : UInt16}
    (hc : c ∈ joinDot parts) : isDecimalUnit c = true ∨ c = dot := by
  rcases mem_intercalate hc with rfl | ⟨p, hp, hcp⟩
  · exact .inr rfl
  · left
    by_contra hunit
    exact h.not_mem hp (by simpa using hunit) hcp

theorem AreOctets.not_mem_colon {parts : List JsString} (h : AreOctets parts) :
    colon ∉ joinDot parts := by
  intro hmem
  rcases h.mem_joinDot hmem with hunit | hunit
  · cases hunit
  · cases hunit

theorem AreOctets.splitOn_joinDot {parts : List JsString} (h : AreOctets parts) :
    (joinDot parts).splitOn dot = parts := by
  refine List.splitOn_intercalate dot (fun p hp => h.not_mem hp (by decide)) ?_
  rintro rfl
  cases h.length_eq

theorem AreOctets.mem_dot {parts : List JsString} (h : AreOctets parts) : dot ∈ joinDot parts := by
  by_contra hmem
  have hsplit := List.splitOn_eq_singleton hmem
  rw [h.splitOn_joinDot] at hsplit
  have := h.length_eq
  rw [hsplit] at this
  cases this

/-- Both ways to write the numbers. -/
def IsDotted (raw : JsString) (parts : List JsString) : Prop :=
  AreOctets parts ∧ (raw = joinDot parts ∨ raw = mappedFront ++ joinDot parts)

theorem patternBody_eq (raw : JsString) :
    raw = patternBody raw ∨ raw = mappedFront ++ patternBody raw := by
  unfold patternBody
  split
  · rename_i hfront
    obtain ⟨body, rfl⟩ := List.isPrefixOf_iff_prefix.mp hfront
    right
    rw [List.drop_left]
  · exact .inl rfl

theorem isDotted_of_octetTexts {raw : JsString} {parts : List JsString}
    (h : octetTexts raw = some parts) : IsDotted raw parts := by
  unfold octetTexts at h
  dsimp only at h
  split at h
  · rename_i hall
    obtain rfl := Option.some.inj h
    refine ⟨⟨hall.1, hall.2⟩, ?_⟩
    rw [joinDot, List.intercalate_splitOn]
    exact patternBody_eq raw
  · cases h

theorem octetTexts_of_isDotted {raw : JsString} {parts : List JsString} (h : IsDotted raw parts) :
    octetTexts raw = some parts := by
  obtain ⟨hparts, hraw⟩ := h
  have hbody : patternBody raw = joinDot parts := by
    unfold patternBody
    rcases hraw with rfl | rfl
    · rw [if_neg]
      intro hfront
      have hstarts := List.isPrefixOf_iff_prefix.mp hfront
      exact hparts.not_mem_colon (hstarts.subset (by decide))
    · rw [if_pos (List.isPrefixOf_iff_prefix.mpr (List.prefix_append _ _)), List.drop_left]
  simp only [octetTexts, hbody, hparts.splitOn_joinDot, hparts.length_eq, hparts.all, and_self,
    if_true]

theorem octetTexts_eq_none {raw : JsString} (h : dot ∉ raw) : octetTexts raw = none := by
  cases hmatch : octetTexts raw with
  | none => rfl
  | some parts =>
    obtain ⟨hparts, hraw⟩ := isDotted_of_octetTexts hmatch
    exfalso
    rcases hraw with rfl | rfl
    · exact h hparts.mem_dot
    · exact h (List.mem_append_right _ hparts.mem_dot)

/-- The key of four numbers. -/
theorem subnetOfLower_of_isDotted {raw : JsString} {parts : List JsString}
    (h : IsDotted raw parts) : subnetOfLower raw =
      if (parts.map decimalValue).any (· > 255) then none
      else some (dotted ((parts.map decimalValue).take 3) ++ js ".0/24") := by
  have hraw : raw.truthy = true := by
    rcases h.2 with rfl | rfl
    · have := h.1.mem_dot
      cases hjoin : joinDot parts with
      | nil => simp [hjoin] at this
      | cons c rest => rfl
    · rfl
  simp only [subnetOfLower, hraw, octetTexts_of_isDotted h, Bool.not_true, Bool.false_eq_true,
    if_false]

theorem subnetOfLower_of_colons {raw : JsString} (hmatch : octetTexts raw = none)
    (hcolon : colon ∈ raw) : subnetOfLower raw =
      (expandIpv6 raw).map fun groups => joinColon (groups.take 3) ++ js "::/48" := by
  have hraw : raw.truthy = true := by
    cases raw with
    | nil => simp at hcolon
    | cons c rest => rfl
  simp only [subnetOfLower, hraw, hmatch, List.contains_iff_mem.mpr hcolon, Bool.not_true,
    Bool.false_eq_true, if_false]

/-! ## What is read right -/

theorem areOctets_numbers (v : Ipv4) : AreOctets (v.numbers.map decimal) := by
  have hoctet (n : UInt8) : isOctetText (decimal n.toNat) = true := by
    have hle := (decimal_length_le_iff (n := n.toNat) (k := 3) (by decide)).mpr
      (n.toNat_lt.trans (by decide))
    have hne : decimal n.toNat ≠ [] := by simp [decimal, Nat.toDigits_ne_nil]
    simp [isOctetText, hle, Nat.one_le_iff_ne_zero, hne, all_isDecimalUnit_decimal]
  exact ⟨rfl, by simp [Ipv4.numbers, hoctet]⟩

/-- Four numbers, bare or mapped. -/
theorem subnetOfLower_text {raw : JsString} {v : Ipv4}
    (h : raw = v.text ∨ raw = mappedFront ++ v.text) :
    subnetOfLower raw = some (netKey (.v4 v)) := by
  have hvalues : (v.numbers.map decimal).map decimalValue = v.numbers := decimalValue_labels v.numbers
  have hrange : v.numbers.any (· > 255) = false := by
    have ha := v.a.toNat_lt
    have hb := v.b.toNat_lt
    have hc := v.c.toNat_lt
    have hd := v.d.toNat_lt
    simp [Ipv4.numbers]
    omega
  rw [subnetOfLower_of_isDotted ⟨areOctets_numbers v, h⟩, hvalues, hrange]
  rfl

/-- Groups in hexadecimal. -/
theorem subnetOfLower_hex {raw : JsString} {gs : List UInt16} (h : HexForm raw gs) :
    subnetOfLower raw = some (joinColon ((gs.take 3).map hexPiece) ++ js "::/48") := by
  have hexpand : expandIpv6 raw = some (gs.map hexPiece) := by
    cases h with
    | full h hlength => exact expandIpv6_full h hlength
    | compressed hleft hright hlength => exact expandIpv6_pair hleft hright (by omega)
  rw [subnetOfLower_of_colons (octetTexts_eq_none h.not_mem_dot) h.mem_colon, hexpand,
    Option.map_some, List.map_take]

/-- What is expanded is digits and colons. -/
theorem units_of_expandIpv6 {raw : JsString} {groups : List JsString}
    (h : expandIpv6 raw = some groups) {c : UInt16} (hc : c ∈ raw) :
    isLowerHex c = true ∨ c = colon := by
  rcases of_expandIpv6 h with ⟨ps, gs, hps, -, rfl⟩ | ⟨left, right, gl, gr, hl, hr, -, rfl⟩
  · exact mem_joinColon hps hc
  · exact mem_joinPair hl hr hc

theorem expandIpv6_eq_none {raw : JsString} (h : dot ∈ raw) : expandIpv6 raw = none := by
  cases hexpand : expandIpv6 raw with
  | none => rfl
  | some groups => exact absurd rfl (ne_dot_of_unit (units_of_expandIpv6 hexpand h))

/-- Four numbers behind any other groups. -/
theorem subnetOfLower_dottedForm {raw : JsString} {v : Ipv4} {gs : List UInt16}
    (h : DottedForm v raw gs) (hfront : raw ≠ mappedFront ++ v.text) :
    subnetOfLower raw = none := by
  obtain ⟨front, rfl⟩ := h.exists_front
  have hmatch : octetTexts (front ++ colon :: v.text) = none := by
    cases hmatch : octetTexts (front ++ colon :: v.text) with
    | none => rfl
    | some parts =>
      obtain ⟨hparts, hraw | hraw⟩ := isDotted_of_octetTexts hmatch
      · exact absurd (hraw ▸ by simp : colon ∈ joinDot parts) hparts.not_mem_colon
      · have hlast : front ++ colon :: v.text = js "::ffff" ++ colon :: joinDot parts := hraw
        have hsame : v.text = joinDot parts :=
          tail_eq_of_append_cons v.not_mem_colon hparts.not_mem_colon hlast
        exact absurd (hsame ▸ hraw) hfront
  rw [subnetOfLower_of_colons hmatch (by simp), expandIpv6_eq_none (by simp [v.mem_dot])]
  rfl

theorem groupText_ffff : GroupText (js "ffff") 0xffff :=
  ⟨by decide, by decide, by decide, by decide⟩

theorem mappedFront_dottedForm (v : Ipv4) :
    DottedForm v (mappedFront ++ v.text) v.mapped.pieces :=
  .compressed .nil (.cons groupText_ffff .nil) (by decide)

/-- Behind `::ffff:` the four numbers are a mapped address and nothing
else is. -/
theorem groups_of_mappedFront {v : Ipv4} {gs : List UInt16}
    (h : DottedForm v (mappedFront ++ v.text) gs) : gs = v.mapped.pieces := by
  have hpieces : pieces mappedFront = [js "ffff"] := by decide
  generalize hraw : mappedFront ++ v.text = raw at h
  cases h with
  | @full ps gs h hlength =>
    have hfront := List.append_cancel_right hraw
    have hps := pieces_trail (arePieces_of_groupText h) []
    rw [List.append_nil, ← hfront, hpieces, pieces_nil, List.append_nil] at hps
    have := h.length_eq
    rw [← hps, hlength] at this
    cases this
  | @compressed left right gl gr hleft hright hlength =>
    have hfront : mappedFront = joinColon left ++ colon :: colon :: trail right := by
      apply List.append_cancel_right
      rw [hraw, List.append_assoc]
      rfl
    have hsplit : left ++ right = [js "ffff"] := by
      have hright' := pieces_trail (arePieces_of_groupText hright) []
      rw [List.append_nil, pieces_nil, List.append_nil] at hright'
      rw [← hpieces, hfront, pieces_append_colon, pieces_colon, hright',
        pieces_joinColon (arePieces_of_groupText hleft)]
    rcases List.append_eq_cons_iff.mp hsplit with ⟨rfl, hr⟩ | ⟨rest, rfl, hr⟩
    · subst hr
      cases hleft
      obtain ⟨g, gr', hg, hnil, rfl⟩ := List.forall₂_cons_left_iff.mp hright
      cases hnil
      have hvalue : some (0xffff : UInt16).toNat = some g.toNat := by
        rw [← hg.value]
        decide
      rw [← UInt16.toNat_inj.mp (Option.some.inj hvalue)]
      rfl
    · obtain ⟨rfl, rfl⟩ := List.append_eq_nil_iff.mp hr.symm
      exact absurd hfront (by decide)

/-! ## What is read wrong -/

/-- A text that is read as another address or network than it spells. -/
inductive Misread : JsString → Prop
  | hexMapped {raw : JsString} (v : Ipv4) (h : HexForm raw v.mapped.pieces) : Misread raw
  | otherFront {raw : JsString} {v : Ipv4} {gs : List UInt16} (h : DottedForm v raw gs)
      (hfront : raw ≠ mappedFront ++ v.text) : Misread raw
  | leadingZero {raw : JsString} {parts : List JsString} (h : IsDotted raw parts)
      (hrange : ∀ p ∈ parts, decimalValue p ≤ 255) {p : JsString} (hp : p ∈ parts)
      (hzero : p ≠ decimal (decimalValue p)) : Misread raw
  | emptyPair {left right : List JsString} {gl gr : List UInt16}
      (hleft : List.Forall₂ GroupText left gl) (hright : List.Forall₂ GroupText right gr)
      (hlength : gl.length + gr.length = 8) :
      Misread (joinColon left ++ colon :: colon :: joinColon right)

/-- Numbers with leading zeros spell nothing. -/
theorem not_ipText_leadingZero {raw : JsString} {parts : List JsString} (h : IsDotted raw parts)
    {p : JsString} (hp : p ∈ parts) (hzero : p ≠ decimal (decimalValue p)) :
    ¬ ∃ a, IpText raw a := by
  obtain ⟨hparts, hraw⟩ := h
  have hdot : dot ∈ raw := by
    rcases hraw with rfl | rfl
    · exact hparts.mem_dot
    · exact List.mem_append_right _ hparts.mem_dot
  have hplain (v : Ipv4) : joinDot parts ≠ v.text := by
    intro hsame
    have hsplit := congrArg (List.splitOn dot) hsame
    rw [hparts.splitOn_joinDot, v.splitOn_text] at hsplit
    obtain ⟨n, -, rfl⟩ := List.mem_map.mp (hsplit ▸ hp)
    rw [decimalValue_decimal] at hzero
    exact hzero rfl
  rintro ⟨a, ha⟩
  cases ha with
  | v4 v =>
    rcases hraw with hraw | hraw
    · exact hplain v hraw.symm
    · exact v.not_mem_colon (hraw ▸ List.mem_append_left _ (by decide))
  | hex h _ => exact h.not_mem_dot hdot
  | @dotted v _ _ _ h _ =>
    obtain ⟨front, rfl⟩ := h.exists_front
    rcases hraw with hraw | hraw
    · exact hparts.not_mem_colon (hraw ▸ by simp)
    · exact hplain v (tail_eq_of_append_cons (x := js "::ffff") hparts.not_mem_colon
        v.not_mem_colon hraw.symm)

/-- Eight groups and a pair of colons spell nothing. -/
theorem not_ipText_emptyPair {left right : List JsString} {gl gr : List UInt16}
    (hleft : List.Forall₂ GroupText left gl) (hright : List.Forall₂ GroupText right gr)
    (hlength : gl.length + gr.length = 8) :
    ¬ ∃ a, IpText (joinColon left ++ colon :: colon :: joinColon right) a := by
  have hl := arePieces_of_groupText hleft
  have hr := arePieces_of_groupText hright
  have hsum : left.length + right.length = 8 := by rw [hleft.length_eq, hright.length_eq, hlength]
  have hnodot : dot ∉ joinColon left ++ colon :: colon :: joinColon right :=
    fun hmem => ne_dot_of_unit (mem_joinPair hleft hright hmem) rfl
  have hpieces : pieces (joinColon left ++ colon :: colon :: joinColon right) = left ++ right := by
    rw [pieces_append_colon, pieces_colon, pieces_joinColon hl, pieces_joinColon hr]
  have hsplit : 9 ≤ ((joinColon left ++ colon :: colon :: joinColon right).splitOn colon).length := by
    rw [List.splitOn_append_cons_self, List.splitOn_cons_eq_if_modifyHead, if_pos (by simp),
      List.length_append, List.length_cons, length_splitOn_joinColon hl,
      length_splitOn_joinColon hr]
    omega
  generalize joinColon left ++ colon :: colon :: joinColon right = raw at *
  rintro ⟨a, ha⟩
  cases ha with
  | v4 v => exact hnodot v.mem_dot
  | @dotted v _ _ _ h _ =>
    obtain ⟨front, rfl⟩ := h.exists_front
    exact hnodot (by simp [v.mem_dot])
  | @hex _ g _ h _ =>
    generalize g.pieces = gs at h
    cases h with
    | full h height =>
      rw [length_splitOn_joinColon (arePieces_of_groupText h), h.length_eq, height] at hsplit
      omega
    | compressed h h' hshort =>
      have hcount := congrArg List.length hpieces
      rw [pieces_append_colon, pieces_colon, pieces_joinColon (arePieces_of_groupText h),
        pieces_joinColon (arePieces_of_groupText h'), List.length_append, List.length_append,
        h.length_eq, h'.length_eq] at hcount
      omega

/-! ## Keys -/

theorem dot_mem_netKey (v : Ipv4) : dot ∈ netKey (.v4 v) := by
  exact List.mem_append_right _ (by decide)

theorem hexPiece_not_mem {c : UInt16} (hc : isLowerHex c = false) (p : UInt16) : c ∉ hexPiece p := by
  intro hmem
  have := List.all_eq_true.mp (all_isLowerHex_hexPiece p) c hmem
  rw [hc] at this
  cases this

/-- The key of eight groups, mapped or not. -/
theorem dot_not_mem_key (gs : List UInt16) :
    dot ∉ joinColon (gs.map hexPiece) ++ js "::/48" := by
  intro hmem
  rcases List.mem_append.mp hmem with hmem | hmem
  · rcases mem_intercalate hmem with hcolon | ⟨p, hp, hdot⟩
    · cases hcolon
    · obtain ⟨g, -, rfl⟩ := List.mem_map.mp hp
      exact hexPiece_not_mem (by decide) g hdot
  · revert hmem
    decide

theorem hexPiece_injective : Function.Injective hexPiece := by
  intro p q h
  have hvalue := radixValue_hexPiece p
  rw [h, radixValue_hexPiece q] at hvalue
  exact (UInt16.toNat_inj.mp (Option.some.inj hvalue)).symm

theorem decimal_injective : Function.Injective decimal := by
  intro m n h
  rw [← decimalValue_decimal m, h, decimalValue_decimal]

/-- Two addresses have one key exactly if they are in one network. -/
theorem netKey_eq_iff (a b : IpAddress) : netKey a = netKey b ↔ SameNet a b := by
  cases a with
  | v4 v =>
    cases b with
    | v4 w =>
      simp only [netKey, SameNet]
      rw [List.append_left_inj]
      constructor
      · intro h
        have hsplit := congrArg (List.splitOn dot) h
        rw [splitOn_dotted (by simp [Ipv4.numbers]), splitOn_dotted (by simp [Ipv4.numbers])] at hsplit
        have hnumbers := List.map_injective_iff.mpr decimal_injective hsplit
        simpa [Ipv4.numbers, UInt8.toNat_inj] using hnumbers
      · rintro ⟨ha, hb, hc⟩
        simp [Ipv4.numbers, ha, hb, hc]
    | v6 g hg =>
      refine iff_of_false (fun h => ?_) id
      have hmem := dot_mem_netKey v
      rw [h] at hmem
      exact dot_not_mem_key (g.pieces.take 3) hmem
  | v6 g hg =>
    cases b with
    | v4 w =>
      refine iff_of_false (fun h => ?_) id
      have hmem := dot_mem_netKey w
      rw [← h] at hmem
      exact dot_not_mem_key (g.pieces.take 3) hmem
    | v6 k hk =>
      simp only [netKey, SameNet]
      rw [List.append_left_inj]
      constructor
      · intro h
        have hne (g : Ipv6) : (g.pieces.take 3).map hexPiece ≠ [] := by
          simp [← List.length_eq_zero_iff, g.length_eq]
        have hcolon (g : Ipv6) : ∀ p ∈ (g.pieces.take 3).map hexPiece, colon ∉ p := by
          intro p hp
          obtain ⟨x, -, rfl⟩ := List.mem_map.mp hp
          exact hexPiece_not_mem (by decide) x
        have hsplit := congrArg (List.splitOn colon) h
        rw [joinColon, joinColon, List.splitOn_intercalate colon (hcolon g) (hne g),
          List.splitOn_intercalate colon (hcolon k) (hne k)] at hsplit
        exact List.map_injective_iff.mpr hexPiece_injective hsplit
      · intro h
        rw [h]

/-! ## Where it agrees -/

theorem exists_ipv4 {parts : List JsString} (h : AreOctets parts)
    (hrange : ∀ p ∈ parts, decimalValue p ≤ 255)
    (hcanonical : ∀ p ∈ parts, p = decimal (decimalValue p)) :
    ∃ v : Ipv4, parts = v.numbers.map decimal := by
  match parts, h.length_eq with
  | [p, q, r, s], _ =>
    simp only [List.forall_mem_cons] at hrange hcanonical
    obtain ⟨hp, hq, hr, hs, -⟩ := hrange
    obtain ⟨hp', hq', hr', hs', -⟩ := hcanonical
    have hbyte {n : Nat} (hn : n ≤ 255) : (UInt8.ofNat n).toNat = n := by
      rw [UInt8.toNat_ofNat', Nat.mod_eq_of_lt (by omega)]
    refine ⟨⟨UInt8.ofNat (decimalValue p), UInt8.ofNat (decimalValue q), UInt8.ofNat (decimalValue r),
      UInt8.ofNat (decimalValue s)⟩, ?_⟩
    simp only [Ipv4.numbers, hbyte hp, hbyte hq, hbyte hr, hbyte hs, List.map_cons, List.map_nil,
      ← hp', ← hq', ← hr', ← hs']

/-- A key comes from a spelling or from a misreading. -/
theorem spelled_or_misread {raw key : JsString} (h : subnetOfLower raw = some key) :
    (∃ a, IpText raw a) ∨ Misread raw := by
  cases hmatch : octetTexts raw with
  | some parts =>
    have hdotted := isDotted_of_octetTexts hmatch
    rw [subnetOfLower_of_isDotted hdotted] at h
    have hrange : ∀ p ∈ parts, decimalValue p ≤ 255 := by
      by_contra hlarge
      push Not at hlarge
      obtain ⟨p, hp, hgt⟩ := hlarge
      have hany : (parts.map decimalValue).any (· > 255) = true :=
        List.any_eq_true.mpr ⟨decimalValue p, List.mem_map_of_mem hp, by simpa using hgt⟩
      simp [hany] at h
    by_cases hcanonical : ∀ p ∈ parts, p = decimal (decimalValue p)
    · left
      obtain ⟨v, rfl⟩ := exists_ipv4 hdotted.1 hrange hcanonical
      rcases hdotted.2 with rfl | rfl
      · exact ⟨_, .v4 v⟩
      · exact (mappedFront_dottedForm v).exists_ipText
    · right
      push Not at hcanonical
      obtain ⟨p, hp, hzero⟩ := hcanonical
      exact .leadingZero hdotted hrange hp hzero
  | none =>
    have hcolon : colon ∈ raw := by
      by_contra hnone
      simp [subnetOfLower, hmatch, hnone] at h
    rw [subnetOfLower_of_colons hmatch hcolon] at h
    obtain ⟨groups, hexpand, -⟩ := Option.map_eq_some_iff.mp h
    rcases of_expandIpv6 hexpand with ⟨ps, gs, hps, hlength, rfl⟩ |
      ⟨left, right, gl, gr, hl, hr, hlength, rfl⟩
    · exact .inl (HexForm.full hps hlength).exists_ipText
    · rcases Nat.lt_or_ge (gl.length + gr.length) 8 with hlt | hge
      · exact .inl (HexForm.compressed hl hr (by omega)).exists_ipText
      · exact .inr (.emptyPair hl hr (by omega))

/-- The key of the address where the text spells one, and none where it
spells none. -/
def Agrees (Spelled : IpAddress → Prop) (key : Option JsString) : Prop :=
  (∀ a, Spelled a → key = some (netKey a)) ∧ ((¬ ∃ a, Spelled a) → key = none)

theorem not_agrees_of_misread {raw : JsString} (h : Misread raw) :
    ¬ Agrees (IpText raw) (subnetOfLower raw) := by
  rintro ⟨hspelled, hunspelled⟩
  cases h with
  | hexMapped v h =>
    have hkey := hspelled _ (.hex h (.mapped v))
    rw [subnetOfLower_hex h, Option.some.injEq] at hkey
    have hdot := dot_mem_netKey v
    rw [← hkey] at hdot
    exact dot_not_mem_key _ hdot
  | otherFront h hfront =>
    obtain ⟨a, ha⟩ := h.exists_ipText
    have hkey := hspelled a ha
    rw [subnetOfLower_dottedForm h hfront] at hkey
    cases hkey
  | @leadingZero _ parts h hrange p hp hzero =>
    have hnone := hunspelled (not_ipText_leadingZero h hp hzero)
    have hany : (parts.map decimalValue).any (· > 255) = false := by
      simpa [List.any_eq_false] using hrange
    rw [subnetOfLower_of_isDotted h, hany] at hnone
    cases hnone
  | emptyPair hleft hright hlength =>
    have hnone := hunspelled (not_ipText_emptyPair hleft hright hlength)
    have hnodot : dot ∉ joinColon _ ++ colon :: colon :: joinColon _ :=
      fun hmem => ne_dot_of_unit (mem_joinPair hleft hright hmem) rfl
    rw [subnetOfLower_of_colons (octetTexts_eq_none hnodot) (by simp),
      expandIpv6_pair hleft hright (by omega)] at hnone
    cases hnone

/-- What is not misread and spells an address has its key. -/
theorem key_of_ipText {raw : JsString} {a : IpAddress} (h : IpText raw a) (hread : ¬ Misread raw) :
    subnetOfLower raw = some (netKey a) := by
  cases h with
  | v4 v => exact subnetOfLower_text (.inl rfl)
  | hex h hstands =>
    cases hstands with
    | mapped v => exact absurd (.hexMapped v h) hread
    | other g _ => exact subnetOfLower_hex h
  | @dotted v _ g _ h hstands =>
    have hraw : raw = mappedFront ++ v.text := by
      by_contra hfront
      exact hread (.otherFront h hfront)
    subst hraw
    have hg : g = v.mapped := by
      cases g
      simpa [Ipv4.mapped] using groups_of_mappedFront h
    subst hg
    rw [standsFor_mapped hstands]
    exact subnetOfLower_text (.inr rfl)

theorem agrees_iff (raw : JsString) :
    Agrees (IpText raw) (subnetOfLower raw) ↔ ¬ Misread raw := by
  constructor
  · exact fun hagrees hread => not_agrees_of_misread hread hagrees
  · intro hread
    refine ⟨fun a ha => key_of_ipText ha hread, fun hnone => ?_⟩
    cases hkey : subnetOfLower raw with
    | none => rfl
    | some key => exact ((spelled_or_misread hkey).elim hnone hread).elim

/-! ## Trimmed, in lower case -/

/-- What has a key is made of digits, colons and dots. -/
theorem units_of_subnetOfLower {raw key : JsString} (h : subnetOfLower raw = some key)
    {c : UInt16} (hc : c ∈ raw) : isLowerHex c = true ∨ c = colon ∨ c = dot := by
  have hdecimal (c : UInt16) (hunit : isDecimalUnit c = true) : isLowerHex c = true := by
    simp [isDecimalUnit, isLowerHex] at hunit ⊢
    exact .inl hunit
  cases hmatch : octetTexts raw with
  | some parts =>
    obtain ⟨hparts, hraw⟩ := isDotted_of_octetTexts hmatch
    have hjoined (hmem : c ∈ joinDot parts) : isLowerHex c = true ∨ c = colon ∨ c = dot :=
      (hparts.mem_joinDot hmem).elim (fun hunit => .inl (hdecimal c hunit)) fun hdot =>
        .inr (.inr hdot)
    rcases hraw with rfl | rfl
    · exact hjoined hc
    · rcases List.mem_append.mp hc with hfront | hback
      · have hfrontUnits : mappedFront.all (fun c => isLowerHex c || c == colon) = true := by decide
        have hunit := List.all_eq_true.mp hfrontUnits c hfront
        rw [Bool.or_eq_true, beq_iff_eq] at hunit
        exact hunit.imp_right .inl
      · exact hjoined hback
  | none =>
    have hcolon : colon ∈ raw := by
      by_contra hnone
      simp [subnetOfLower, hmatch, hnone] at h
    rw [subnetOfLower_of_colons hmatch hcolon] at h
    obtain ⟨groups, hexpand, -⟩ := Option.map_eq_some_iff.mp h
    exact (units_of_expandIpv6 hexpand hc).imp_right .inl

theorem isLowerHex_of_not_ascii {c : UInt16} (h : ¬ c < 0x80) : isLowerHex c = false := by
  by_contra hhex
  simp only [isLowerHex, Bool.not_eq_false, Bool.or_eq_true, Bool.and_eq_true, decide_eq_true_eq]
    at hhex
  rcases hhex with ⟨-, hle⟩ | ⟨-, hle⟩
  · exact h (UInt16.lt_of_le_of_lt hle (by decide))
  · exact h (UInt16.lt_of_le_of_lt hle (by decide))

/-- Nothing beyond ASCII has a key, and nothing with a `k`. -/
theorem subnetOfLower_eq_none {raw : JsString} {c : UInt16} (hc : c ∈ raw)
    (hother : ¬ c < 0x80 ∨ c = 0x6B) : subnetOfLower raw = none := by
  cases hkey : subnetOfLower raw with
  | none => rfl
  | some key =>
    exfalso
    have hunit := units_of_subnetOfLower hkey hc
    rcases hother with hlarge | rfl
    · rcases hunit with h | rfl | rfl
      · rw [isLowerHex_of_not_ascii hlarge] at h
        cases h
      · exact hlarge (by decide)
      · exact hlarge (by decide)
    · revert hunit
      decide

/-- Beyond ASCII it makes no difference how the text was put in lower case. -/
theorem subnetOf_eq (lower : LowerCase) (ip : JsString) :
    subnetOf lower ip = subnetOfLower ((trim ip).map foldCase) := by
  by_cases hascii : ∀ c ∈ trim ip, c < 0x80
  · rw [subnetOf, lower.ascii _ hascii]
  · simp only [not_forall, exists_prop] at hascii
    obtain ⟨c, hc, hlarge⟩ := hascii
    obtain ⟨d, hd, hother⟩ := lower.other (trim ip) ⟨c, hc, hlarge⟩
    have hfold : c ∈ (trim ip).map foldCase :=
      List.mem_map.mpr ⟨c, hc, foldCase_of_not_ascii hlarge⟩
    rw [subnetOf, subnetOfLower_eq_none hd hother, subnetOfLower_eq_none hfold (.inl hlarge)]

/-- Without the blanks around it, in either case, the text spells the
address. -/
def Spells (ip : JsString) (a : IpAddress) : Prop := IpText ((trim ip).map foldCase) a

/-- The key is that of the spelled address, or none, exactly where the text
is not misread, and the keys are one for each network. -/
theorem subnetOf_canonical (lower : LowerCase) (ip : JsString) (a b : IpAddress) :
    (Agrees (Spells ip) (subnetOf lower ip) ↔ ¬ Misread ((trim ip).map foldCase)) ∧
      (netKey a = netKey b ↔ SameNet a b) := by
  refine ⟨?_, netKey_eq_iff a b⟩
  rw [subnetOf_eq]
  exact agrees_iff _

/-- `203.0.113.5`, as proxies write it and in hexadecimal. -/
theorem mapped_two_keys :
    ∃ a, Spells (js "::ffff:203.0.113.5") a ∧ Spells (js "::ffff:cb00:7105") a ∧
      subnetOf foldOnly (js "::ffff:203.0.113.5") = some (js "203.0.113.0/24") ∧
      subnetOf foldOnly (js "::ffff:cb00:7105") = some (js "0:0:0::/48") := by
  refine ⟨.v4 ⟨203, 0, 113, 5⟩, ?_, ?_, by decide +kernel, by decide +kernel⟩
  · have htext : (trim (js "::ffff:203.0.113.5")).map foldCase =
        mappedFront ++ Ipv4.text ⟨203, 0, 113, 5⟩ := by decide +kernel
    rw [Spells, htext]
    exact .dotted (mappedFront_dottedForm ⟨203, 0, 113, 5⟩) (.mapped _)
  · have htext : (trim (js "::ffff:cb00:7105")).map foldCase =
        joinColon [] ++ colon :: colon :: joinColon [js "ffff", js "cb00", js "7105"] := by
      decide +kernel
    have hhigh : GroupText (js "cb00") 0xcb00 := ⟨by decide, by decide, by decide, by decide⟩
    have hlow : GroupText (js "7105") 0x7105 := ⟨by decide, by decide, by decide, by decide⟩
    have hform := HexForm.compressed .nil (.cons groupText_ffff (.cons hhigh (.cons hlow .nil)))
      (by decide)
    rw [Spells, htext]
    exact .hex hform (.mapped ⟨203, 0, 113, 5⟩)

end ZcashFaucet.Api
