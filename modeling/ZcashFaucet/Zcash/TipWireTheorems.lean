/-
ZcashFaucet.Zcash.TipWireTheorems — what the two readers of protobuf make
of a well-formed message.

Both take one byte for a tag. A tag of several bytes is then misread: its
first byte passes for the tag of a field with a number of 16 or more, the
rest of it for the varint or the length that follows, and the walk goes
on in the middle of the field. And a length of 2 ^ 31 or more is not the
length that is skipped. Everything else is read as it is written.

  §1 Bits     — the two accumulators add up the groups of a varint.
  §2 Indexes  — an inner loop over the bytes of a varint.
  §3 Height   — one lemma for each kind of field, and the walk.
  §4 Hash     — the same for the hash.
  §5 Misread  — a message for each tag of several bytes.
-/
import ZcashFaucet.Lib.Protobuf
import ZcashFaucet.Zcash.TipWire

namespace ZcashFaucet.Zcash

open Lib

/-! ## §1 Bits -/

theorem and_0x7F (b : Nat) : b &&& 0x7F = b % 128 := Nat.and_two_pow_sub_one_eq_mod b 7

theorem and_7 (b : Nat) : b &&& 7 = b % 8 := Nat.and_two_pow_sub_one_eq_mod b 3

theorem shiftRight_3 (b : Nat) : b >>> 3 = b / 8 := Nat.shiftRight_eq_div_pow b 3

theorem and_0x80_eq_zero (b : UInt8) : b.toNat &&& 0x80 = 0 ↔ b.toNat < 128 := by
  have hall : ∀ n < 256, (n &&& 0x80 = 0 ↔ n < 128) := by decide +kernel
  exact hall b.toNat b.toNat_lt

/-- A group above all the bits so far is added. -/
theorem or_shiftLeft {acc s : Nat} (h : acc < 2 ^ s) (g : Nat) : acc ||| (g <<< s) = acc + 2 ^ s * g := by
  rw [Nat.or_comm, ← Nat.shiftLeft_add_eq_or_of_lt h, Nat.shiftLeft_eq, Nat.mul_comm]
  omega

/-- What is added to the accumulator along the bytes of a varint. -/
def foldBytes {α : Type} (add : α → Nat → Nat → α) : α → Nat → List UInt8 → α
  | acc, _, [] => acc
  | acc, s, b :: bs => foldBytes add (add acc b.toNat s) (s + 7) bs

theorem foldBytes_addBigInt {acc s : Nat} {bs : List UInt8} (h : acc < 2 ^ s) :
    foldBytes addBigInt acc s bs = acc + 2 ^ s * groupsValue bs := by
  induction bs generalizing acc s with
  | nil => simp [foldBytes, groupsValue]
  | cons b bs ih =>
    have hgroup : addBigInt acc b.toNat s = acc + 2 ^ s * (b.toNat % 128) := by
      rw [addBigInt, and_0x7F, or_shiftLeft h]
    have hpow : 2 ^ (s + 7) = 2 ^ s * 128 := Nat.pow_add 2 s 7
    have hlt : acc + 2 ^ s * (b.toNat % 128) < 2 ^ (s + 7) := by
      have hmod : b.toNat % 128 + 1 ≤ 128 := Nat.mod_lt _ (by omega)
      have := Nat.mul_le_mul_left (2 ^ s) hmod
      rw [Nat.mul_add] at this
      omega
    rw [foldBytes, hgroup, ih hlt, groupsValue, hpow, Nat.mul_add, Nat.mul_assoc]
    omega

/-- As long as the length stays below 2 ^ 31, so does the 32-bit one. A
group that is shifted out of the 32 bits is then zero. -/
theorem foldBytes_addInt32 {acc : BitVec 32} {s : Nat} {bs : List UInt8} (h : acc.toNat < 2 ^ s)
    (hlt : acc.toNat + 2 ^ s * groupsValue bs < 2 ^ 31) :
    (foldBytes addInt32 acc s bs).toNat = acc.toNat + 2 ^ s * groupsValue bs := by
  induction bs generalizing acc s with
  | nil => simp [foldBytes, groupsValue]
  | cons b bs ih =>
    have hpow : 2 ^ (s + 7) = 2 ^ s * 128 := Nat.pow_add 2 s 7
    have hsum : 2 ^ s * groupsValue (b :: bs) =
        2 ^ s * (b.toNat % 128) + 2 ^ (s + 7) * groupsValue bs := by
      rw [groupsValue, hpow, Nat.mul_add, Nat.mul_assoc]
    have hgroup : (addInt32 acc b.toNat s).toNat = acc.toNat + 2 ^ s * (b.toNat % 128) := by
      rw [addInt32, and_0x7F]
      rcases Nat.eq_zero_or_pos (b.toNat % 128) with hzero | hpos
      · simp [hzero]
      · have hle : 2 ^ s * (b.toNat % 128) < 2 ^ 31 := by omega
        have hs : s < 31 := by
          have hone : 2 ^ s * 1 ≤ 2 ^ s * (b.toNat % 128) := Nat.mul_le_mul_left _ hpos
          exact (Nat.pow_lt_pow_iff_right (by omega)).mp (by omega : 2 ^ s < 2 ^ 31)
        have hmod : b.toNat % 128 % 2 ^ 32 = b.toNat % 128 := Nat.mod_eq_of_lt (by omega)
        have hshift : (b.toNat % 128) <<< s < 2 ^ 32 := by
          rw [Nat.shiftLeft_eq, Nat.mul_comm]
          omega
        rw [BitVec.toNat_or, BitVec.toNat_shiftLeft, BitVec.toNat_ofNat,
          Nat.mod_eq_of_lt (show s < 32 by omega), hmod, Nat.mod_eq_of_lt hshift, or_shiftLeft h]
    have hstep : (addInt32 acc b.toNat s).toNat < 2 ^ (s + 7) := by
      have hmod : b.toNat % 128 + 1 ≤ 128 := Nat.mod_lt _ (by omega)
      have := Nat.mul_le_mul_left (2 ^ s) hmod
      rw [Nat.mul_add] at this
      omega
    rw [foldBytes, ih hstep (by omega), hgroup, hsum]
    omega

theorem lt_two_pow {v m k : Nat} (h : v < 2 ^ m) (hmk : m ≤ k) : v < 2 ^ k :=
  lt_of_lt_of_le h (Nat.pow_le_pow_right (by omega) hmk)

/-- Up to 2 ^ 53 a double is exact. -/
theorem bigIntToNumber_of_lt {v : Nat} (h : v < 2 ^ 53) : bigIntToNumber v = v := by
  have hlog : v.log2 - 52 = 0 := by
    rcases Nat.eq_zero_or_pos v with rfl | hpos
    · rfl
    · have := (Nat.log2_lt (by omega)).mpr h
      omega
  have hlt : v < 2 ^ 1024 := lt_two_pow h (by omega)
  unfold bigIntToNumber
  simp only [hlog, pow_zero, Nat.div_one, Nat.mod_one, Nat.mul_zero, Nat.zero_lt_one, true_or,
    if_true, Nat.mul_one]
  rw [if_pos hlt]

/-! ## §2 Indexes -/

theorem byteAt_append (pre post : List UInt8) (b : UInt8) :
    byteAt (pre ++ b :: post) pre.length = b.toNat := by
  simp [byteAt]

/-- An inner loop reads the bytes of a varint, and stands behind them. -/
theorem varintLoop_bytes {α : Type} (add : α → Nat → Nat → α) {more : List UInt8} {last : UInt8}
    (hmore : ∀ b ∈ more, 128 ≤ b.toNat) (hlast : last.toNat < 128) (pre post : List UInt8) (acc : α)
    (s left : Nat) (hleft : more.length < left) :
    varintLoop (pre ++ (more ++ last :: post)) add left pre.length acc s =
      some (foldBytes add acc s (more ++ [last]), (pre.length + (more.length + 1) : Int)) := by
  induction more generalizing pre acc s left with
  | nil =>
    obtain ⟨left, rfl⟩ : ∃ n, left = n + 1 := ⟨left - 1, by simp at hleft; omega⟩
    simp [varintLoop, byteAt_append, foldBytes, (and_0x80_eq_zero last).mpr hlast]
  | cons b more ih =>
    obtain ⟨left, rfl⟩ : ∃ n, left = n + 1 := ⟨left - 1, by simp at hleft; omega⟩
    have hb : ¬ b.toNat &&& 0x80 = 0 := by
      rw [and_0x80_eq_zero]
      exact not_lt.mpr (hmore b List.mem_cons_self)
    have hrest := ih (fun c hc => hmore c (List.mem_cons_of_mem b hc)) (pre ++ [b])
      (add acc b.toNat s) (s + 7) left (by simp at hleft; omega)
    have hindex : ((pre ++ [b]).length : Int) = pre.length + 1 := by simp
    rw [hindex, List.append_assoc, List.singleton_append] at hrest
    simp only [List.cons_append, varintLoop, byteAt_append, hb, if_false, foldBytes]
    rw [hrest]
    simp only [List.length_cons, Option.some.injEq, Prod.mk.injEq, true_and]
    omega

/-- And runs off the end when the buffer ends before the varint does. -/
theorem varintLoop_cut {α : Type} (add : α → Nat → Nat → α) {more : List UInt8}
    (hmore : ∀ b ∈ more, 128 ≤ b.toNat) (pre : List UInt8) (acc : α) (s : Nat) :
    varintLoop (pre ++ more) add more.length pre.length acc s = none := by
  induction more generalizing pre acc s with
  | nil => rfl
  | cons b more ih =>
    have hb : ¬ b.toNat &&& 0x80 = 0 := by
      rw [and_0x80_eq_zero]
      exact not_lt.mpr (hmore b List.mem_cons_self)
    have hrest := ih (fun c hc => hmore c (List.mem_cons_of_mem b hc)) (pre ++ [b])
      (add acc b.toNat s) (s + 7)
    have hindex : ((pre ++ [b]).length : Int) = pre.length + 1 := by simp
    rw [hindex, List.append_assoc, List.singleton_append] at hrest
    simpa [varintLoop, byteAt_append, hb] using hrest

/-- Reading a varint that starts one byte further on, behind its tag. -/
theorem readVarint_bytes {α : Type} (add : α → Nat → Nat → α) (start : α) (v : Varint) (b : UInt8)
    (pre post : List UInt8) :
    readVarint (pre ++ b :: (v.bytes ++ post)) add start (pre.length + 1) =
      some (foldBytes add start 0 v.bytes, (pre.length + (1 + v.bytes.length) : Int)) := by
  have hbuf : pre ++ b :: (v.bytes ++ post) = (pre ++ [b]) ++ (v.more ++ v.last :: post) := by
    simp [Varint.bytes]
  have hindex : ((pre ++ [b]).length : Int) = pre.length + 1 := by simp
  have hloop := varintLoop_bytes add v.more_ge v.last_lt (pre ++ [b]) post start 0
    (((pre ++ [b]) ++ (v.more ++ v.last :: post)).length - (pre.length + 1)) (by simp; omega)
  rw [readVarint, hbuf, ← hindex]
  rw [hindex] at hloop ⊢
  convert hloop using 2
  · omega
  · simp [Varint.bytes]
    omega

theorem readHeight_bytes (v : Varint) (b : UInt8) (pre post : List UInt8) :
    readHeight (pre ++ b :: (v.bytes ++ post)) (pre.length + 1) =
      some (v.value, (pre.length + (1 + v.bytes.length) : Int)) := by
  have hsum : foldBytes addBigInt 0 0 v.bytes = v.value := by
    rw [foldBytes_addBigInt (by simp)]
    simp [Varint.value]
  rw [readHeight, readVarint_bytes, hsum]

theorem skipVarint_bytes (v : Varint) (b : UInt8) (pre post : List UInt8) :
    skipVarint (pre ++ b :: (v.bytes ++ post)) (pre.length + 1) =
      some ((), (pre.length + (1 + v.bytes.length) : Int)) := by
  rw [skipVarint, readVarint_bytes]

theorem readLength_bytes (v : Varint) (hv : v.value < 2 ^ 31) (b : UInt8) (pre post : List UInt8) :
    ∃ len, readLength (pre ++ b :: (v.bytes ++ post)) (pre.length + 1) =
        some (len, (pre.length + (1 + v.bytes.length) : Int)) ∧ len.toInt = v.value := by
  refine ⟨_, by rw [readLength, readVarint_bytes], ?_⟩
  have hsum : (foldBytes addInt32 0 0 v.bytes).toNat = v.value := by
    have hfold := @foldBytes_addInt32 0 0 v.bytes (by simp) (by simpa [Varint.value] using hv)
    simpa [Varint.value] using hfold
  rw [BitVec.toInt_eq_toNat_cond, hsum]
  split <;> omega

/-! ## §3 Height -/

section
variable (pre tail : List UInt8)

/-- What an iteration sees of a tag: the wire type, and the number if the
tag is short. -/
theorem byteAt_tag {wire : Nat} {b : UInt8} {num : Nat} (hwire : wire < 8)
    (hb : b.toNat = 8 * num + wire) (rest : List UInt8) :
    byteAt (pre ++ b :: rest) pre.length >>> 3 = num ∧ byteAt (pre ++ b :: rest) pre.length &&& 7 = wire := by
  rw [byteAt_append, shiftRight_3, and_7, hb]
  omega

theorem length_of_tag (b : UInt8) (rest : List UInt8) :
    ¬ ((pre ++ b :: rest).length : Int) ≤ pre.length := by
  rw [List.length_append, List.length_cons]
  omega

/-- One byte and a varint behind it. -/
theorem heightStep_skip {b : UInt8} {num : Nat} (hb : b.toNat = 8 * num + 0) (hnum : num ≠ 1)
    (v : Varint) :
    heightStep (pre ++ b :: (v.bytes ++ tail)) pre.length = .next (pre ++ b :: v.bytes).length := by
  obtain ⟨hfield, hwire⟩ := byteAt_tag pre (by omega) hb (v.bytes ++ tail)
  have hin := length_of_tag pre b (v.bytes ++ tail)
  simp only [heightStep, hin, hfield, hwire, hnum, skipVarint_bytes]
  simp
  omega

/-- A field that is not the height is skipped. -/
theorem heightStep_varint {t : Tag 0} (hshort : t.IsShort) (hnum : t.num ≠ 1) (v : Varint) :
    heightStep (pre ++ ((Field.varint t v).bytes ++ tail)) pre.length =
      .next (pre ++ (Field.varint t v).bytes).length := by
  obtain ⟨b, hbytes, hb⟩ := Tag.bytes_of_short hshort
  simp only [Field.bytes, hbytes, List.cons_append, List.nil_append]
  exact heightStep_skip pre tail hb hnum v

theorem heightStep_delimited_field {t : Tag 2} (hshort : t.IsShort) {size : Varint}
    {payload : List UInt8} (h : size.value = payload.length) (hlt : payload.length < 2 ^ 31) :
    heightStep (pre ++ ((Field.delimited t size payload h).bytes ++ tail)) pre.length =
      .next (pre ++ (Field.delimited t size payload h).bytes).length := by
  obtain ⟨b, hbytes, hb⟩ := Tag.bytes_of_short hshort
  obtain ⟨-, hwire⟩ := byteAt_tag pre (by omega) hb (size.bytes ++ (payload ++ tail))
  obtain ⟨len, hread, hlen⟩ := readLength_bytes size (by omega) b pre (payload ++ tail)
  simp only [Field.bytes, hbytes, List.cons_append, List.nil_append, List.append_assoc]
  rw [heightStep_delimited hwire hread, hlen, h]
  simp
  omega

/-- The height is read. -/
theorem heightStep_height {t : Tag 0} (hshort : t.IsShort) (hnum : t.num = 1) (v : Varint) :
    heightStep (pre ++ ((Field.varint t v).bytes ++ tail)) pre.length =
      .returns (some (bigIntToNumber v.value)) := by
  obtain ⟨b, hbytes, hb⟩ := Tag.bytes_of_short hshort
  obtain ⟨hfield, hwire⟩ := byteAt_tag pre (by omega) hb (v.bytes ++ tail)
  have hin := length_of_tag pre b (v.bytes ++ tail)
  simp only [Field.bytes, hbytes, List.cons_append, List.nil_append]
  simp only [heightStep, hin, hfield, hwire, hnum, readHeight_bytes]
  simp

/-- A wire type that is not expected ends the walk, long tag or short. -/
theorem heightStep_unexpected {wire : Nat} (t : Tag wire) (hwire : wire < 8) (hne : wire ≠ 0 ∧ wire ≠ 2)
    (rest : List UInt8) : heightStep (pre ++ (t.code.bytes ++ rest)) pre.length = .returns none := by
  obtain ⟨b, bs, hbytes, hb⟩ := t.head_wire hwire
  have htag : byteAt (pre ++ b :: (bs ++ rest)) pre.length &&& 7 = wire := by
    rw [byteAt_append, and_7, hb]
  rw [hbytes, List.cons_append]
  simp [heightStep, htag, hne.1, hne.2]

/-- The height's varint is cut off. -/
theorem heightStep_cut {t : Tag 0} (hshort : t.IsShort) (hnum : t.num = 1) {cut : List UInt8}
    (hcut : ∀ b ∈ cut, 128 ≤ b.toNat) :
    heightStep (pre ++ (t.code.bytes ++ cut)) pre.length = .returns none := by
  obtain ⟨b, hbytes, hb⟩ := Tag.bytes_of_short hshort
  obtain ⟨hfield, hwire⟩ := byteAt_tag pre (by omega) hb cut
  have hloop := varintLoop_cut addBigInt hcut (pre ++ [b]) 0 0
  have hbuf : (pre ++ [b]) ++ cut = pre ++ b :: cut := by simp
  have hindex : ((pre ++ [b]).length : Int) = pre.length + 1 := by simp
  have hread : readHeight (pre ++ b :: cut) (pre.length + 1) = none := by
    rw [hbuf, hindex] at hloop
    rw [readHeight, readVarint]
    convert hloop using 2
    simp
  have hin := length_of_tag pre b cut
  rw [hbytes, List.singleton_append]
  simp only [heightStep, hin, hfield, hwire, hnum, hread]
  simp

end

/-! ### Messages -/

/-- The value of field 1. -/
def heightOf : List Field → Option Nat
  | [] => none
  | .varint tag v :: rest => if tag.num = 1 then some v.value else heightOf rest
  | _ :: rest => heightOf rest

/-- Field 1 occurs at most once, as a varint that a double holds exactly. -/
structure HeightMessage (m : List Field) : Prop where
  once : (m.filter fun f => f.num = 1).length ≤ 1
  isVarint : ∀ f ∈ m, f.num = 1 → ∃ t v, f = .varint t v ∧ v.value < 2 ^ 53

/-- Up to the field at which the height reader stops, every tag is one
byte and every length below 2 ^ 31. It stops at the height and at wire
types that it does not expect. -/
def HeightReadable : List Field → Prop
  | [] => True
  | .varint t _ :: rest => t.IsShort ∧ (t.num = 1 ∨ HeightReadable rest)
  | .delimited t _ payload _ :: rest => t.IsShort ∧ payload.length < 2 ^ 31 ∧ HeightReadable rest
  | _ :: _ => True

/-- What the height reader comes to: the height, unless it stops before. -/
def heightSeen : List Field → Option Nat
  | [] => none
  | .varint t v :: rest => if t.num = 1 then some v.value else heightSeen rest
  | .delimited .. :: rest => heightSeen rest
  | _ :: _ => none

theorem heightSeen_eq (m : List Field) : heightSeen m = none ∨ heightSeen m = heightOf m := by
  induction m with
  | nil => exact Or.inl rfl
  | cons f rest ih =>
    cases f with
    | varint t v =>
      simp only [heightSeen, heightOf]
      split
      · exact Or.inr rfl
      · exact ih
    | delimited t size payload h => exact ih
    | fixed64 t bytes h => exact Or.inl rfl
    | group start body stop h => exact Or.inl rfl
    | fixed32 t bytes h => exact Or.inl rfl

/-- A field other than the height is either skipped or the end of the walk. -/
theorem heightStep_field {f : Field} {rest : List Field} (hread : HeightReadable (f :: rest))
    (hnum : f.num ≠ 1) :
    (HeightReadable rest ∧ heightSeen (f :: rest) = heightSeen rest ∧
      ∀ pre tail : List UInt8, heightStep (pre ++ (f.bytes ++ tail)) pre.length =
        .next (pre ++ f.bytes).length) ∨
    (heightSeen (f :: rest) = none ∧
      ∀ pre tail : List UInt8, heightStep (pre ++ (f.bytes ++ tail)) pre.length = .returns none) := by
  cases f with
  | varint t v =>
    obtain ⟨hshort, hmore⟩ := hread
    exact Or.inl ⟨hmore.resolve_left hnum, if_neg hnum,
      fun pre tail => heightStep_varint pre tail hshort hnum v⟩
  | delimited t size payload h =>
    obtain ⟨hshort, hlt, hmore⟩ := hread
    exact Or.inl ⟨hmore, rfl, fun pre tail => heightStep_delimited_field pre tail hshort h hlt⟩
  | fixed64 t bytes h =>
    refine Or.inr ⟨rfl, fun pre tail => ?_⟩
    rw [Field.bytes, List.append_assoc, heightStep_unexpected pre t (by omega) (by omega)]
  | group start body stop h =>
    refine Or.inr ⟨rfl, fun pre tail => ?_⟩
    rw [Field.bytes, List.append_assoc, heightStep_unexpected pre start (by omega) (by omega)]
  | fixed32 t bytes h =>
    refine Or.inr ⟨rfl, fun pre tail => ?_⟩
    rw [Field.bytes, List.append_assoc, heightStep_unexpected pre t (by omega) (by omega)]

/-- The walk over a readable message. -/
theorem walk_heightStep {m : List Field} (hread : HeightReadable m)
    (hvalue : ∀ f ∈ m, f.num = 1 → ∃ t v, f = .varint t v ∧ v.value < 2 ^ 53) (pre : List UInt8) :
    walk (heightStep (pre ++ messageBytes m)) (m.length + 1) pre.length =
      some ((heightSeen m).map fun v => (v : WithTop Nat)) := by
  induction m generalizing pre with
  | nil => simp [walk, heightStep, heightSeen]
  | cons f rest ih =>
    have hrest : ∀ g ∈ rest, g.num = 1 → ∃ t v, g = Field.varint t v ∧ v.value < 2 ^ 53 :=
      fun g hg => hvalue g (List.mem_cons_of_mem f hg)
    rw [messageBytes_cons, List.length_cons, walk]
    by_cases hnum : f.num = 1
    · obtain ⟨t, v, rfl, hlt⟩ := hvalue f List.mem_cons_self hnum
      have hone : t.num = 1 := hnum
      rw [heightStep_height pre _ hread.1 hone]
      simp [heightSeen, hone, bigIntToNumber_of_lt hlt]
    · rcases heightStep_field hread hnum with ⟨hmore, hseen, hstep⟩ | ⟨hseen, hstep⟩
      · have hwalk := ih hmore hrest (pre ++ f.bytes)
        rw [List.append_assoc] at hwalk
        rw [hstep, hseen]
        exact hwalk
      · rw [hstep, hseen]
        rfl

/-- The walk over fields that are not the height, and a height that is
cut off. -/
theorem walk_heightStep_cut {before : List Field} {t : Tag 0} (ht : t.num = 1) {v : Varint}
    (hbefore : ∀ f ∈ before, f.num ≠ 1) (hread : HeightReadable (before ++ [.varint t v]))
    {cut : List UInt8} (hcut : ∀ b ∈ cut, 128 ≤ b.toNat) (pre : List UInt8) :
    walk (heightStep (pre ++ (messageBytes before ++ (t.code.bytes ++ cut)))) (before.length + 1)
      pre.length = some none := by
  induction before generalizing pre with
  | nil =>
    rw [messageBytes_nil, List.nil_append, List.length_nil, walk, heightStep_cut pre hread.1 ht hcut]
  | cons f rest ih =>
    have hrest : ∀ g ∈ rest, g.num ≠ 1 := fun g hg => hbefore g (List.mem_cons_of_mem f hg)
    rw [messageBytes_cons, List.append_assoc, List.length_cons, walk]
    rcases heightStep_field hread (hbefore f List.mem_cons_self) with ⟨hmore, -, hstep⟩ | ⟨-, hstep⟩
    · have hwalk := ih hrest hmore (pre ++ f.bytes)
      rw [List.append_assoc] at hwalk
      rw [hstep]
      exact hwalk
    · rw [hstep]

/-! ### The encoder -/

theorem encodeHeightLoop_eq (v : Nat) : encodeHeightLoop v =
    if v < 128 then [v.toUInt8] else (v % 128 + 128).toUInt8 :: encodeHeightLoop (v / 128) := by
  have hshift : v >>> 7 = v / 128 := Nat.shiftRight_eq_div_pow v 7
  have hor : v % 128 ||| 0x80 = v % 128 + 128 := by
    have hlow : v % 128 < 2 ^ 7 := Nat.mod_lt _ (by omega)
    simpa using or_shiftLeft hlow 1
  rw [encodeHeightLoop, hshift, and_0x7F, hor]
  by_cases h : v < 128
  · rw [if_pos (by omega), if_pos h, Nat.mod_eq_of_lt h]
  · rw [if_neg (by omega), if_neg h]

/-- What `encodeBlockIDHeight` writes after the tag is a varint of the height. -/
theorem encodeHeightLoop_varint (k v : Nat) (h : v < 2 ^ (7 * (k + 1))) :
    ∃ (more : List UInt8) (last : UInt8), encodeHeightLoop v = more ++ [last] ∧
      (∀ b ∈ more, 128 ≤ b.toNat) ∧ last.toNat < 128 ∧ more.length ≤ k ∧
      groupsValue (more ++ [last]) = v := by
  induction k generalizing v with
  | zero =>
    rw [encodeHeightLoop_eq, if_pos (by omega)]
    refine ⟨[], v.toUInt8, rfl, by simp, ?_, by simp, ?_⟩
    · simp
      omega
    · simp [groupsValue]
      omega
  | succ k ih =>
    rw [encodeHeightLoop_eq]
    by_cases hv : v < 128
    · rw [if_pos hv]
      refine ⟨[], v.toUInt8, rfl, by simp, ?_, by simp, ?_⟩
      · simp
        omega
      · simp [groupsValue]
        omega
    · have hdiv : v / 128 < 2 ^ (7 * (k + 1)) := by
        rw [Nat.div_lt_iff_lt_mul (by omega), show 128 = 2 ^ 7 from rfl, ← Nat.pow_add]
        exact h
      obtain ⟨more, last, heq, hmore, hlast, hlen, hvalue⟩ := ih (v / 128) hdiv
      have hbyte : ((v % 128 + 128).toUInt8).toNat = v % 128 + 128 := by
        simp
        omega
      rw [if_neg hv]
      refine ⟨(v % 128 + 128).toUInt8 :: more, last, by rw [heq]; rfl, ?_, hlast, by simpa using hlen, ?_⟩
      · intro b hb
        rcases List.mem_cons.mp hb with rfl | hb
        · rw [hbyte]
          omega
        · exact hmore b hb
      · rw [List.cons_append, groupsValue, hvalue, hbyte]
        omega

/-- The height's own tag. -/
def heightTag : Tag 0 := .short 1 0 (by omega) (by omega)

theorem encodeBlockIDHeight_eq {h : Nat} (hlt : h < 2 ^ 53) :
    ∃ v : Varint, v.value = h ∧ encodeBlockIDHeight h = messageBytes [.varint heightTag v] := by
  obtain ⟨more, last, heq, hmore, hlast, hlen, hvalue⟩ := encodeHeightLoop_varint 7 h
    (lt_two_pow hlt (by omega))
  refine ⟨⟨more, last, hmore, hlast, by omega⟩, hvalue, ?_⟩
  rw [encodeBlockIDHeight, heq, messageBytes_cons, messageBytes_nil, List.append_nil, Field.bytes]
  rfl

/-! ## §4 Hash -/

section
variable (pre tail : List UInt8)

theorem hashStep_skip {b : UInt8} {num : Nat} (hb : b.toNat = 8 * num + 0) (v : Varint) :
    hashStep (pre ++ b :: (v.bytes ++ tail)) pre.length = .next (pre ++ b :: v.bytes).length := by
  obtain ⟨-, hwire⟩ := byteAt_tag pre (by omega) hb (v.bytes ++ tail)
  have hin := length_of_tag pre b (v.bytes ++ tail)
  simp only [hashStep, hin, hwire, skipVarint_bytes]
  simp
  omega

theorem hashStep_varint {t : Tag 0} (hshort : t.IsShort) (v : Varint) :
    hashStep (pre ++ ((Field.varint t v).bytes ++ tail)) pre.length =
      .next (pre ++ (Field.varint t v).bytes).length := by
  obtain ⟨b, hbytes, hb⟩ := Tag.bytes_of_short hshort
  simp only [Field.bytes, hbytes, List.cons_append, List.nil_append]
  exact hashStep_skip pre tail hb v

/-- Four bytes or eight are skipped, as wide as they are. -/
theorem hashStep_fixed {wire : Nat} {t : Tag wire} (hshort : t.IsShort) {bytes : List UInt8}
    (hwidth : wire = 5 ∧ bytes.length = 4 ∨ wire = 1 ∧ bytes.length = 8) :
    hashStep (pre ++ ((t.code.bytes ++ bytes) ++ tail)) pre.length =
      .next (pre ++ (t.code.bytes ++ bytes)).length := by
  obtain ⟨b, hbytes, hb⟩ := Tag.bytes_of_short hshort
  obtain ⟨-, hwire⟩ := byteAt_tag pre (by omega) hb (bytes ++ tail)
  have hin := length_of_tag pre b (bytes ++ tail)
  simp only [hbytes, List.cons_append, List.nil_append]
  rcases hwidth with ⟨rfl, hlen⟩ | ⟨rfl, hlen⟩
  · simp only [hashStep, hin, hwire]
    simp
    omega
  · simp only [hashStep, hin, hwire]
    simp
    omega

/-- The start of a group ends the walk. -/
theorem hashStep_group (t : Tag 3) (rest : List UInt8) :
    hashStep (pre ++ (t.code.bytes ++ rest)) pre.length = .returns none := by
  obtain ⟨b, bs, hbytes, hb⟩ := t.head_wire (by omega)
  have htag : byteAt (pre ++ b :: (bs ++ rest)) pre.length &&& 7 = 3 := by
    rw [byteAt_append, and_7, hb]
  rw [hbytes, List.cons_append]
  simp [hashStep, htag]

theorem hashStep_delimited_field {t : Tag 2} (hshort : t.IsShort) (hnum : t.num ≠ 3) {size : Varint}
    {payload : List UInt8} (h : size.value = payload.length) (hlt : payload.length < 2 ^ 31) :
    hashStep (pre ++ ((Field.delimited t size payload h).bytes ++ tail)) pre.length =
      .next (pre ++ (Field.delimited t size payload h).bytes).length := by
  obtain ⟨b, hbytes, hb⟩ := Tag.bytes_of_short hshort
  obtain ⟨hfield, hwire⟩ := byteAt_tag pre (by omega) hb (size.bytes ++ (payload ++ tail))
  obtain ⟨len, hread, hlen⟩ := readLength_bytes size (by omega) b pre (payload ++ tail)
  have hfits : (pre.length + (1 + size.bytes.length) : Int) + len.toInt ≤
      (pre ++ b :: (size.bytes ++ (payload ++ tail))).length := by
    rw [hlen, h]
    simp
    omega
  simp only [Field.bytes, hbytes, List.cons_append, List.nil_append, List.append_assoc]
  rw [hashStep_delimited hwire hread (hfield ▸ hnum) hfits, hlen, h]
  simp
  omega

/-- The hash is read, and turned round. -/
theorem hashStep_hash {t : Tag 2} (hshort : t.IsShort) (hnum : t.num = 3) {size : Varint}
    {payload : List UInt8} (h : size.value = payload.length) (hlen : payload.length = 32) :
    hashStep (pre ++ ((Field.delimited t size payload h).bytes ++ tail)) pre.length =
      .returns (some (encodeHex payload.reverse)) := by
  obtain ⟨b, hbytes, hb⟩ := Tag.bytes_of_short hshort
  obtain ⟨hfield, hwire⟩ := byteAt_tag pre (by omega) hb (size.bytes ++ (payload ++ tail))
  obtain ⟨len, hread, htoInt⟩ := readLength_bytes size (by omega) b pre (payload ++ tail)
  have hin := length_of_tag pre b (size.bytes ++ (payload ++ tail))
  have hlen32 : len.toInt = 32 := by
    rw [htoInt, h, hlen]
    rfl
  have hfits : ¬ ((pre ++ b :: (size.bytes ++ (payload ++ tail))).length : Int) <
      pre.length + (1 + size.bytes.length) + 32 := by
    simp
    omega
  have hslice : ((pre ++ b :: (size.bytes ++ (payload ++ tail))).drop
      (pre.length + (1 + size.bytes.length) : Int).toNat).take 32 = payload := by
    have hindex : (pre.length + (1 + size.bytes.length) : Int).toNat =
        (pre ++ b :: size.bytes).length := by
      simp
      omega
    have hbuf : pre ++ b :: (size.bytes ++ (payload ++ tail)) =
        (pre ++ b :: size.bytes) ++ (payload ++ tail) := by simp
    rw [hindex, hbuf, List.drop_left, ← hlen, List.take_left]
  simp only [Field.bytes, hbytes, List.cons_append, List.nil_append, List.append_assoc]
  simp only [hashStep, hin, hfield, hwire, hnum, hread, hlen32, hfits, hslice]
  simp

end

/-- The bytes of field 3. -/
def hashOf : List Field → Option (List UInt8)
  | [] => none
  | .delimited t _ payload _ :: rest => if t.num = 3 then some payload else hashOf rest
  | _ :: rest => hashOf rest

/-- Field 3 occurs at most once, and is 32 bytes. -/
structure HashMessage (m : List Field) : Prop where
  once : (m.filter fun f => f.num = 3).length ≤ 1
  is32 : ∀ f ∈ m, f.num = 3 → ∃ t size payload h, f = .delimited t size payload h ∧ payload.length = 32

/-- Up to the field at which the hash reader stops, every tag is one byte
and every length below 2 ^ 31. It stops at the hash and at a group. -/
def HashReadable : List Field → Prop
  | [] => True
  | .varint t _ :: rest => t.IsShort ∧ HashReadable rest
  | .fixed64 t _ _ :: rest => t.IsShort ∧ HashReadable rest
  | .fixed32 t _ _ :: rest => t.IsShort ∧ HashReadable rest
  | .delimited t _ payload _ :: rest =>
      t.IsShort ∧ payload.length < 2 ^ 31 ∧ (t.num = 3 ∨ HashReadable rest)
  | .group .. :: _ => True

/-- What the hash reader comes to: the hash, unless a group stops it before. -/
def hashSeen : List Field → Option (List UInt8)
  | [] => none
  | .delimited t _ payload _ :: rest => if t.num = 3 then some payload else hashSeen rest
  | .group .. :: _ => none
  | _ :: rest => hashSeen rest

theorem hashSeen_eq (m : List Field) : hashSeen m = none ∨ hashSeen m = hashOf m := by
  induction m with
  | nil => exact Or.inl rfl
  | cons f rest ih =>
    cases f with
    | varint t v => exact ih
    | delimited t size payload h =>
      simp only [hashSeen, hashOf]
      split
      · exact Or.inr rfl
      · exact ih
    | fixed64 t bytes h => exact ih
    | group start body stop h => exact Or.inl rfl
    | fixed32 t bytes h => exact ih

/-- A field other than the hash is either skipped or the end of the walk. -/
theorem hashStep_field {f : Field} {rest : List Field} (hread : HashReadable (f :: rest))
    (hnum : f.num ≠ 3) :
    (HashReadable rest ∧ hashSeen (f :: rest) = hashSeen rest ∧
      ∀ pre tail : List UInt8, hashStep (pre ++ (f.bytes ++ tail)) pre.length =
        .next (pre ++ f.bytes).length) ∨
    (hashSeen (f :: rest) = none ∧
      ∀ pre tail : List UInt8, hashStep (pre ++ (f.bytes ++ tail)) pre.length = .returns none) := by
  cases f with
  | varint t v => exact Or.inl ⟨hread.2, rfl, fun pre tail => hashStep_varint pre tail hread.1 v⟩
  | delimited t size payload h =>
    obtain ⟨hshort, hlt, hmore⟩ := hread
    exact Or.inl ⟨hmore.resolve_left hnum, if_neg hnum,
      fun pre tail => hashStep_delimited_field pre tail hshort hnum h hlt⟩
  | fixed64 t bytes h =>
    refine Or.inl ⟨hread.2, rfl, fun pre tail => ?_⟩
    rw [Field.bytes, hashStep_fixed pre tail hread.1 (Or.inr ⟨rfl, h⟩)]
  | group start body stop h =>
    refine Or.inr ⟨rfl, fun pre tail => ?_⟩
    rw [Field.bytes, List.append_assoc, hashStep_group]
  | fixed32 t bytes h =>
    refine Or.inl ⟨hread.2, rfl, fun pre tail => ?_⟩
    rw [Field.bytes, hashStep_fixed pre tail hread.1 (Or.inl ⟨rfl, h⟩)]

theorem walk_hashStep {m : List Field} (hread : HashReadable m)
    (h32 : ∀ f ∈ m, f.num = 3 → ∃ t size payload h, f = .delimited t size payload h ∧ payload.length = 32)
    (pre : List UInt8) :
    walk (hashStep (pre ++ messageBytes m)) (m.length + 1) pre.length =
      some ((hashSeen m).map fun hash => encodeHex hash.reverse) := by
  induction m generalizing pre with
  | nil => simp [walk, hashStep, hashSeen]
  | cons f rest ih =>
    have hrest : ∀ g ∈ rest, g.num = 3 →
        ∃ t size payload h, g = Field.delimited t size payload h ∧ payload.length = 32 :=
      fun g hg => h32 g (List.mem_cons_of_mem f hg)
    rw [messageBytes_cons, List.length_cons, walk]
    by_cases hnum : f.num = 3
    · obtain ⟨t, size, payload, h, rfl, hlen⟩ := h32 f List.mem_cons_self hnum
      have hthree : t.num = 3 := hnum
      rw [hashStep_hash pre _ hread.1 hthree h hlen]
      simp [hashSeen, hthree]
    · rcases hashStep_field hread hnum with ⟨hmore, hseen, hstep⟩ | ⟨hseen, hstep⟩
      · have hwalk := ih hmore hrest (pre ++ f.bytes)
        rw [List.append_assoc] at hwalk
        rw [hstep, hseen]
        exact hwalk
      · rw [hstep, hseen]
        rfl

/-! ## §5 What is read -/

/-- `heightFromBlockID` returns null or the value of field 1. -/
def ReadsHeight (m : List Field) : Prop :=
  ∃ fuel r, heightFromBlockID (messageBytes m) fuel = some r ∧
    (r = none ∨ ∃ v, heightOf m = some v ∧ r = some (v : WithTop Nat))

/-- `hashFromCompactBlock` returns null or field 3 in display order. -/
def ReadsHash (m : List Field) : Prop :=
  ∃ fuel r, hashFromCompactBlock (messageBytes m) fuel = some r ∧
    (r = none ∨ ∃ hash, hashOf m = some hash ∧ r = some (encodeHex hash.reverse))

/-- A walk has one result, however much fuel it is given. -/
theorem walk_unique {ρ : Type} {step : Int → WalkStep ρ} {n k : Nat} {i : Int} {r r' : ρ}
    (h : walk step n i = some r) (h' : walk step k i = some r') : r = r' := by
  induction n generalizing k i with
  | zero => cases h
  | succ n ih =>
    cases k with
    | zero => cases h'
    | succ k =>
      simp only [walk] at h h'
      cases hstep : step i with
      | returns x =>
        rw [hstep] at h h'
        cases h
        cases h'
        rfl
      | next j =>
        rw [hstep] at h h'
        exact ih h h'

theorem walk_two {ρ : Type} {step : Int → WalkStep ρ} {i j : Int} {r : ρ} (hnext : step i = .next j)
    (hreturns : step j = .returns r) : walk step 2 i = some r := by simp [walk, hnext, hreturns]

theorem readsHeight {m : List Field} (hm : HeightMessage m) (hread : HeightReadable m) :
    ReadsHeight m := by
  refine ⟨_, _, walk_heightStep hread hm.isVarint [], ?_⟩
  rcases heightSeen_eq m with hseen | hseen
  · rw [hseen]
    exact Or.inl rfl
  · rw [hseen]
    cases heightOf m with
    | none => exact Or.inl rfl
    | some v => exact Or.inr ⟨v, rfl, rfl⟩

theorem readsHash {m : List Field} (hm : HashMessage m) (hread : HashReadable m) : ReadsHash m := by
  refine ⟨_, _, walk_hashStep hread hm.is32 [], ?_⟩
  rcases hashSeen_eq m with hseen | hseen
  · rw [hseen]
    exact Or.inl rfl
  · rw [hseen]
    cases hashOf m with
    | none => exact Or.inl rfl
    | some hash => exact Or.inr ⟨hash, rfl, rfl⟩

/-- A height and a hash, in either order. -/
theorem reads_height_and_hash {t : Tag 0} {v : Varint} {t' : Tag 2} {size : Varint}
    {payload : List UInt8} {h : size.value = payload.length} (ht : t.num = 1) (ht' : t'.num = 2)
    (hv : v.value < 2 ^ 53) {m : List Field}
    (hm : m = [.varint t v, .delimited t' size payload h] ∨
      m = [.delimited t' size payload h, .varint t v]) (hread : HeightReadable m) :
    ∃ fuel, heightFromBlockID (messageBytes m) fuel = some (some (v.value : WithTop Nat)) := by
  have hvalue : ∀ f ∈ m, f.num = 1 → ∃ t v, f = Field.varint t v ∧ v.value < 2 ^ 53 := by
    rcases hm with rfl | rfl
    all_goals
      intro f hf hnum
      simp only [List.mem_cons, List.not_mem_nil, or_false] at hf
      rcases hf with rfl | rfl
    · exact ⟨t, v, rfl, hv⟩
    · exact absurd (ht'.symm.trans hnum) (by omega)
    · exact absurd (ht'.symm.trans hnum) (by omega)
    · exact ⟨t, v, rfl, hv⟩
  have hseen : heightSeen m = some v.value := by
    rcases hm with rfl | rfl <;> simp [heightSeen, ht]
  have hwalk := walk_heightStep hread hvalue []
  rw [hseen] at hwalk
  exact ⟨_, hwalk⟩

/-- A message that ends inside the varint of the height. -/
theorem reads_cut_height {before : List Field} {t : Tag 0} {v : Varint} (ht : t.num = 1)
    (hbefore : ∀ f ∈ before, f.num ≠ 1) (hread : HeightReadable (before ++ [.varint t v]))
    {cut rest : List UInt8} (hcut : v.bytes = cut ++ rest) (hrest : rest ≠ []) :
    ∃ fuel, heightFromBlockID (messageBytes before ++ (t.code.bytes ++ cut)) fuel = some none := by
  refine ⟨_, walk_heightStep_cut ht hbefore hread (fun b hb => v.more_ge b ?_) []⟩
  -- what is left of the varint is not empty, so its last byte is not in the cut
  have hsplit : v.more ++ [v.last] = (cut ++ rest.dropLast) ++ [rest.getLast hrest] := by
    rw [List.append_assoc, List.dropLast_append_getLast]
    exact hcut
  rw [(List.append_inj' hsplit rfl).1]
  exact List.mem_append_left _ hb

theorem reads_encoded_height {h : Nat} (hlt : h < 2 ^ 53) :
    ∃ fuel, heightFromBlockID (encodeBlockIDHeight h) fuel = some (some (h : WithTop Nat)) := by
  obtain ⟨v, rfl, hbytes⟩ := encodeBlockIDHeight_eq hlt
  have hwalk := walk_heightStep (m := [.varint heightTag v]) ⟨rfl, Or.inl rfl⟩ (fun f hf _ => by
    rw [List.mem_singleton] at hf
    exact ⟨heightTag, v, hf, hlt⟩) []
  rw [hbytes]
  exact ⟨_, hwalk⟩

/-! ### Long tags -/

/-- A long tag is read as a byte and a varint. -/
theorem Tag.bytes_of_long {t : Tag 0} (hlong : ¬ t.IsShort) :
    ∃ (b : UInt8) (v : Varint), t.code.bytes = b :: v.bytes ∧ 16 ≤ b.toNat / 8 ∧
      b.toNat = 8 * (b.toNat / 8) + 0 := by
  obtain ⟨c, cs, hbytes, hmod⟩ := t.head_wire (by omega)
  cases hmore : t.code.more with
  | nil => exact absurd hmore hlong
  | cons b more =>
    have hb := t.code.more_ge b (by rw [hmore]; exact List.mem_cons_self)
    have hlen := t.code.length_le
    rw [hmore, List.length_cons] at hlen
    refine ⟨b, ⟨more, t.code.last, fun c hc => t.code.more_ge c ?_, t.code.last_lt, by omega⟩, ?_, ?_, ?_⟩
    · rw [hmore]
      exact List.mem_cons_of_mem b hc
    · simp [Varint.bytes, hmore]
    · omega
    · rw [Varint.bytes, hmore, List.cons_append] at hbytes
      obtain ⟨rfl, -⟩ := List.cons.inj hbytes
      omega

/-- A number below 128 as the value of a field. -/
def byteValue (n : Nat) (h : n < 128) : Varint := .ofByte n.toUInt8 (by simp; omega)

/-- A field 5 that holds 7. -/
def fieldFive : Field := .varint (.short 5 0 (by omega) (by omega)) (byteValue 7 (by omega))

/-- Behind a long tag, the value 8 is taken for the tag of the height and
the next tag, 40, for the height. -/
theorem heightFromBlockID_longTag {t : Tag 0} (hlong : ¬ t.IsShort) :
    heightFromBlockID (messageBytes [.varint t (byteValue 8 (by omega)), fieldFive]) 2 =
      some (some ((40 : Nat) : WithTop Nat)) := by
  obtain ⟨b, v, hbytes, hge, hb⟩ := Tag.bytes_of_long hlong
  have hmessage : messageBytes [.varint t (byteValue 8 (by omega)), fieldFive] =
      b :: (v.bytes ++ [0x08, 0x28, 0x07]) := by
    simp only [messageBytes_cons, messageBytes_nil, Field.bytes, hbytes, fieldFive,
      List.cons_append, List.append_assoc]
    rfl
  have hskip := heightStep_skip [] [0x08, 0x28, 0x07] hb (by omega) v
  have hheight := heightStep_height (b :: v.bytes) [0x07] (t := heightTag) rfl rfl
    (byteValue 40 (by omega))
  have hbuf : (b :: v.bytes) ++
      ((Field.varint heightTag (byteValue 40 (by omega))).bytes ++ [0x07]) =
        [] ++ b :: (v.bytes ++ [0x08, 0x28, 0x07]) := by
    simp only [Field.bytes, List.cons_append, List.append_assoc]
    rfl
  have h40 : ((40 : Nat) : WithTop Nat) = bigIntToNumber 40 := (bigIntToNumber_of_lt (by omega)).symm
  rw [hbuf] at hheight
  rw [hmessage, h40]
  exact walk_two hskip hheight

theorem long_tag_misread {t : Tag 0} (hlong : ¬ t.IsShort) :
    HeightMessage [.varint t (byteValue 8 (by omega)), fieldFive] ∧
      ¬ ReadsHeight [.varint t (byteValue 8 (by omega)), fieldFive] := by
  constructor
  · constructor
    · by_cases hnum : t.num = 1 <;> simp [fieldFive, Field.num, Tag.short, hnum]
    · intro f hf hnum
      rcases List.mem_cons.mp hf with rfl | hf
      · exact ⟨t, _, rfl, by decide⟩
      · rw [List.mem_singleton.mp hf] at hnum
        cases hnum
  · rintro ⟨fuel, r, hrun, hr⟩
    rw [walk_unique hrun (heightFromBlockID_longTag hlong)] at hr
    rcases hr with hnone | ⟨w, hw, hsome⟩
    · cases hnone
    · have hw40 : w = 40 := by
        have hcast := Option.some.inj hsome
        exact_mod_cast hcast.symm
      subst hw40
      simp only [heightOf, fieldFive] at hw
      split at hw
      · exact absurd hw (by decide)
      · simp [Tag.short] at hw

/-- A field 4 that holds 0. -/
def fieldFour : Field := .varint (.short 4 0 (by omega) (by omega)) (byteValue 0 (by omega))

def hashTag : Tag 2 := .short 3 2 (by omega) (by omega)

/-- A hash of 32 zeros. -/
def zeroHash : Field :=
  .delimited hashTag (byteValue 32 (by omega)) (List.replicate 32 0) (by decide)

/-- What the reader takes for the hash when it starts three bytes early. -/
def earlyHash : Field :=
  .delimited hashTag (byteValue 32 (by omega)) ([0x00, 0x1A, 0x20] ++ List.replicate 29 0)
    (by decide)

/-- Behind a long tag, the value 26 is taken for the tag of the hash, the
next tag, 32, for its length and what follows for its bytes. -/
theorem hashFromCompactBlock_longTag {t : Tag 0} (hlong : ¬ t.IsShort) :
    hashFromCompactBlock (messageBytes [.varint t (byteValue 26 (by omega)), fieldFour, zeroHash]) 2 =
      some (some (encodeHex ([0x00, 0x1A, 0x20] ++ List.replicate 29 0 : List UInt8).reverse)) := by
  obtain ⟨b, v, hbytes, hge, hb⟩ := Tag.bytes_of_long hlong
  let tail : List UInt8 := [0x1A, 0x20, 0x00, 0x1A, 0x20] ++ List.replicate 32 0
  have hmessage : messageBytes [.varint t (byteValue 26 (by omega)), fieldFour, zeroHash] =
      b :: (v.bytes ++ tail) := by
    simp only [messageBytes_cons, messageBytes_nil, Field.bytes, hbytes, fieldFour, zeroHash,
      List.cons_append, List.append_assoc]
    rfl
  have hskip := hashStep_skip [] tail hb v
  have hhash : hashStep ((b :: v.bytes) ++ (earlyHash.bytes ++ [0x00, 0x00, 0x00]))
      (b :: v.bytes).length = .returns (some (encodeHex
        ([0x00, 0x1A, 0x20] ++ List.replicate 29 0 : List UInt8).reverse)) :=
    hashStep_hash (b :: v.bytes) [0x00, 0x00, 0x00] (t := hashTag) rfl rfl _ rfl
  have hbuf : (b :: v.bytes) ++ (earlyHash.bytes ++ [0x00, 0x00, 0x00]) =
      [] ++ b :: (v.bytes ++ tail) := by
    simp only [earlyHash, Field.bytes, List.cons_append, List.append_assoc]
    rfl
  rw [hbuf] at hhash
  rw [hmessage]
  exact walk_two hskip hhash

theorem long_tag_misread_hash {t : Tag 0} (hlong : ¬ t.IsShort) (hnum : t.num ≠ 3) :
    HashMessage [.varint t (byteValue 26 (by omega)), fieldFour, zeroHash] ∧
      ¬ ReadsHash [.varint t (byteValue 26 (by omega)), fieldFour, zeroHash] := by
  constructor
  · constructor
    · simp [fieldFour, zeroHash, hashTag, Field.num, Tag.short, hnum]
    · intro f hf hthree
      rcases List.mem_cons.mp hf with rfl | hf
      · exact absurd hthree hnum
      · rcases List.mem_cons.mp hf with rfl | hf
        · cases hthree
        · exact ⟨_, _, _, _, List.mem_singleton.mp hf, by decide⟩
  · rintro ⟨fuel, r, hrun, hr⟩
    have hzero : hashOf [.varint t (byteValue 26 (by omega)), fieldFour, zeroHash] =
        some (List.replicate 32 0) := rfl
    rw [walk_unique hrun (hashFromCompactBlock_longTag hlong)] at hr
    rcases hr with hnone | ⟨hash, hsome, heq⟩
    · cases hnone
    · rw [hzero] at hsome
      cases hsome
      exact absurd heq (by decide)

/-- **What is read well.** Where the tags the walk comes to are short and
the lengths below 2 ^ 31, the height reader returns null or the height,
the height itself if there is nothing but a hash beside it, null if the
message ends inside the height, and the height that `encodeBlockIDHeight`
wrote; and the hash reader returns null or the hash. For every tag that
is not short there is a message with it that is misread. -/
theorem walkers_read_short_tags (m : List Field) :
    (HeightMessage m → HeightReadable m → ReadsHeight m) ∧
    (∀ (t : Tag 0) (v : Varint) (t' : Tag 2) (size : Varint) (payload : List UInt8)
      (h : size.value = payload.length), t.num = 1 → t'.num = 2 → v.value < 2 ^ 53 →
      (m = [.varint t v, .delimited t' size payload h] ∨
          m = [.delimited t' size payload h, .varint t v]) → HeightReadable m →
        ∃ fuel, heightFromBlockID (messageBytes m) fuel = some (some (v.value : WithTop Nat))) ∧
    (∀ (t : Tag 0) (v : Varint), t.num = 1 → (∀ f ∈ m, f.num ≠ 1) →
      HeightReadable (m ++ [.varint t v]) →
      ∀ cut rest, v.bytes = cut ++ rest → rest ≠ [] →
        ∃ fuel, heightFromBlockID (messageBytes m ++ (t.code.bytes ++ cut)) fuel = some none) ∧
    (∀ h, 1 ≤ h → h < 2 ^ 53 →
      ∃ fuel, heightFromBlockID (encodeBlockIDHeight h) fuel = some (some (h : WithTop Nat))) ∧
    (HashMessage m → HashReadable m → ReadsHash m) ∧
    (∀ t : Tag 0, ¬ t.IsShort → ∃ v rest, HeightMessage (.varint t v :: rest) ∧
      ¬ ReadsHeight (.varint t v :: rest)) ∧
    ∀ t : Tag 0, ¬ t.IsShort → t.num ≠ 3 → ∃ v rest, HashMessage (.varint t v :: rest) ∧
      ¬ ReadsHash (.varint t v :: rest) :=
  ⟨readsHeight,
    fun _ _ _ _ _ _ ht ht' hv => reads_height_and_hash ht ht' hv,
    fun _ _ ht hbefore hread _ _ => reads_cut_height ht hbefore hread,
    fun _ _ => reads_encoded_height,
    readsHash,
    fun _ hlong => ⟨_, _, long_tag_misread hlong⟩,
    fun _ hlong hnum => ⟨_, _, long_tag_misread_hash hlong hnum⟩⟩

/-- A height of 300. -/
def height300 : Field := .varint heightTag ⟨[0xAC], 0x02, List.forall_mem_singleton.mpr (by decide), by decide, by decide⟩

theorem walkers_read_short_tags_height300 : ReadsHeight [height300, zeroHash] := by
  refine (walkers_read_short_tags [height300, zeroHash]).1 ⟨by decide, fun f hf hnum => ?_⟩
    ⟨rfl, Or.inl rfl⟩
  rcases List.mem_cons.mp hf with rfl | hf
  · exact ⟨_, _, rfl, by decide⟩
  · rw [List.mem_singleton.mp hf] at hnum
    cases hnum

/-- The tag of a field 16, in two bytes. -/
def tagSixteen : Tag 0 :=
  ⟨16, by decide, by decide, ⟨[0x80], 0x01, List.forall_mem_singleton.mpr (by decide), by decide, by decide⟩,
    by decide⟩

/-- A field 16 that holds 8, and a height of 300, which is read as 8. -/
def sixteenAndHeight : List Field := [.varint tagSixteen (byteValue 8 (by omega)), height300]

theorem walkers_misread_long_tags :
    (HeightMessage sixteenAndHeight ∧ heightOf sixteenAndHeight = some 300 ∧
      heightFromBlockID (messageBytes sixteenAndHeight) 2 = some (some 8) ∧
      ¬ ReadsHeight sixteenAndHeight) ∧
    HashMessage [.varint tagSixteen (byteValue 26 (by omega)), fieldFour, zeroHash] ∧
      ¬ ReadsHash [.varint tagSixteen (byteValue 26 (by omega)), fieldFour, zeroHash] := by
  have hwalk : heightFromBlockID (messageBytes sixteenAndHeight) 2 = some (some 8) := by
    have hbytes : messageBytes sixteenAndHeight = [0x80, 0x01, 0x08, 0x08, 0xAC, 0x02] := by
      simp only [sixteenAndHeight, height300, messageBytes_cons, messageBytes_nil, Field.bytes]
      rfl
    rw [hbytes]
    decide +kernel
  refine ⟨⟨⟨by decide, fun f hf hnum => ?_⟩, rfl, hwalk, ?_⟩, ?_⟩
  · rcases List.mem_cons.mp hf with rfl | hf
    · cases hnum
    · exact ⟨_, _, List.mem_singleton.mp hf, by decide⟩
  · rintro ⟨fuel, r, hrun, hr⟩
    rw [walk_unique hrun hwalk] at hr
    rcases hr with hnone | ⟨v, hv, heq⟩
    · cases hnone
    · have hheight : heightOf sixteenAndHeight = some 300 := rfl
      rw [hheight] at hv
      cases hv
      exact absurd heq (by decide)
  · exact long_tag_misread_hash (fun hshort => List.cons_ne_nil _ _ hshort) (by decide)

end ZcashFaucet.Zcash
