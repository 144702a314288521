/-
ZcashFaucet.Lib.BitGroups — one string of bits, in groups of one width and
of another.

Bytes are written as groups of five bits by filling the last group up with
zeros. Back from the groups, what does not fill a byte must be less than a
group and nothing but zeros, so that each string of bytes is written in
one way (`fromWords_eq_some_iff`).
-/
import Mathlib.Algebra.Order.Ring.Nat
import Mathlib.Data.List.Induction

namespace ZcashFaucet.Lib

/-! ## Bits of a number -/

/-- The `w` low bits, the most significant first. -/
def bits : Nat → Nat → List Bool
  | 0, _ => []
  | w + 1, n => bits w (n / 2) ++ [decide (n % 2 = 1)]

def bitValue (bs : List Bool) : Nat := bs.foldl (fun n b => 2 * n + b.toNat) 0

@[simp] theorem length_bits (w n : Nat) : (bits w n).length = w := by
  induction w generalizing n with
  | zero => rfl
  | succ w ih => simp [bits, ih]

@[simp] theorem bitValue_nil : bitValue [] = 0 := rfl

@[simp] theorem bitValue_concat (bs : List Bool) (b : Bool) :
    bitValue (bs ++ [b]) = 2 * bitValue bs + b.toNat := by
  simp [bitValue]

theorem bitValue_lt (bs : List Bool) : bitValue bs < 2 ^ bs.length := by
  induction bs using List.reverseRecOn with
  | nil => simp
  | append_singleton bs b ih =>
    have hb := b.toNat_le
    simp only [bitValue_concat, List.length_append, List.length_singleton, Nat.pow_succ]
    omega

theorem bitValue_bits {w n : Nat} (h : n < 2 ^ w) : bitValue (bits w n) = n := by
  induction w generalizing n with
  | zero =>
    have hzero : n = 0 := by simpa using h
    subst hzero
    rfl
  | succ w ih =>
    have hhalf : n / 2 < 2 ^ w := by
      rw [Nat.pow_succ] at h
      omega
    rw [bits, bitValue_concat, ih hhalf]
    rcases Nat.mod_two_eq_zero_or_one n with hbit | hbit
    · simp [hbit]
      omega
    · simp [hbit]
      omega

theorem bits_bitValue (bs : List Bool) : bits bs.length (bitValue bs) = bs := by
  induction bs using List.reverseRecOn with
  | nil => rfl
  | append_singleton bs b ih =>
    have hhalf : (2 * bitValue bs + b.toNat) / 2 = bitValue bs := by
      have hb := b.toNat_le
      omega
    have hlow : decide ((2 * bitValue bs + b.toNat) % 2 = 1) = b := by
      cases b <;> simp
    simp only [List.length_append, List.length_singleton, bits, bitValue_concat, hhalf, hlow, ih]

/-! ## Chunks -/

/-- The first `k` chunks of `w` elements. -/
def chunks {α : Type} (w : Nat) : Nat → List α → List (List α)
  | 0, _ => []
  | k + 1, l => l.take w :: chunks w k (l.drop w)

section
variable {α β : Type} {w : Nat}

theorem chunks_flatMap {f : β → List α} (hf : ∀ x, (f x).length = w) (xs : List β) (rest : List α) :
    chunks w xs.length (xs.flatMap f ++ rest) = xs.map f := by
  induction xs with
  | nil => rfl
  | cons x xs ih =>
    simp only [List.length_cons, List.flatMap_cons, List.append_assoc, chunks, List.map_cons,
      List.take_left' (hf x), List.drop_left' (hf x), ih]

theorem flatten_chunks (k : Nat) (l : List α) : (chunks w k l).flatten = l.take (w * k) := by
  induction k generalizing l with
  | zero => simp [chunks]
  | succ k ih =>
    rw [chunks, List.flatten_cons, ih, Nat.mul_succ, Nat.add_comm, List.take_add]

theorem length_of_mem_chunks {k : Nat} {l : List α} (h : w * k ≤ l.length) :
    ∀ c ∈ chunks w k l, c.length = w := by
  induction k generalizing l with
  | zero => simp [chunks]
  | succ k ih =>
    rw [Nat.mul_succ] at h
    rw [chunks, List.forall_mem_cons]
    exact ⟨by simp; omega, ih (by simp; omega)⟩

/-- Coding every chunk and writing the codes out gives the list again. -/
theorem flatMap_chunks {f : β → List α} {g : List α → β} (hfg : ∀ c, c.length = w → f (g c) = c)
    {k : Nat} {l : List α} (h : w * k ≤ l.length) :
    ((chunks w k l).map g).flatMap f = l.take (w * k) := by
  have hmap : (chunks w k l).map (f ∘ g) = chunks w k l := by
    conv_rhs => rw [← List.map_id (chunks w k l)]
    exact List.map_congr_left fun c hc => hfg c (length_of_mem_chunks h c hc)
  rw [List.flatMap_def, List.map_map, hmap, flatten_chunks]

end

/-! ## Bytes and groups of five bits -/

abbrev Word := Fin 32

instance neZero_words : NeZero 32 := ⟨by decide⟩

def byteBits (b : UInt8) : List Bool := bits 8 b.toNat

def byteOf (bs : List Bool) : UInt8 := (bitValue bs).toUInt8

def wordBits (w : Word) : List Bool := bits 5 w.val

def wordOf (bs : List Bool) : Word := Fin.ofNat 32 (bitValue bs)

@[simp] theorem length_byteBits (b : UInt8) : (byteBits b).length = 8 := length_bits 8 b.toNat

@[simp] theorem length_wordBits (w : Word) : (wordBits w).length = 5 := length_bits 5 w.val

theorem byteOf_byteBits (b : UInt8) : byteOf (byteBits b) = b := by
  rw [byteOf, byteBits, bitValue_bits b.toNat_lt]
  simp

theorem byteBits_byteOf {bs : List Bool} (h : bs.length = 8) : byteBits (byteOf bs) = bs := by
  have hlt := bitValue_lt bs
  rw [h] at hlt
  rw [byteBits, byteOf, Nat.toUInt8_eq, UInt8.toNat_ofNat', Nat.mod_eq_of_lt hlt, ← h,
    bits_bitValue]

theorem wordOf_wordBits (w : Word) : wordOf (wordBits w) = w := by
  rw [wordOf, wordBits, bitValue_bits w.isLt]
  simp

theorem wordBits_wordOf {bs : List Bool} (h : bs.length = 5) : wordBits (wordOf bs) = bs := by
  have hlt := bitValue_lt bs
  rw [h] at hlt
  have hval : (wordOf bs).val = bitValue bs := Nat.mod_eq_of_lt hlt
  rw [wordBits, hval, ← h, bits_bitValue]

def toWords (bytes : List UInt8) : List Word :=
  let bs := bytes.flatMap byteBits
  let k := (bs.length + 4) / 5
  (chunks 5 k (bs ++ List.replicate (5 * k - bs.length) false)).map wordOf

def fromWords (ws : List Word) : Option (List UInt8) :=
  let bs := ws.flatMap wordBits
  let k := bs.length / 8
  let rest := bs.drop (8 * k)
  if rest.length < 5 ∧ rest.all (· == false) = true then some ((chunks 8 k bs).map byteOf) else none

theorem length_flatMap_byteBits (bytes : List UInt8) :
    (bytes.flatMap byteBits).length = 8 * bytes.length := by
  induction bytes with
  | nil => rfl
  | cons b bytes ih =>
    simp only [List.flatMap_cons, List.length_append, ih, length_byteBits, List.length_cons]
    omega

theorem length_flatMap_wordBits (ws : List Word) :
    (ws.flatMap wordBits).length = 5 * ws.length := by
  induction ws with
  | nil => rfl
  | cons w ws ih =>
    simp only [List.flatMap_cons, List.length_append, ih, length_wordBits, List.length_cons]
    omega

/-- The groups hold the bits of the bytes and less than a group of zeros. -/
def Fills (ws : List Word) (bytes : List UInt8) : Prop :=
  ∃ k < 5, ws.flatMap wordBits = bytes.flatMap byteBits ++ List.replicate k false

theorem toWords_fills (bytes : List UInt8) : Fills (toWords bytes) bytes := by
  refine ⟨5 * ((8 * bytes.length + 4) / 5) - 8 * bytes.length, by omega, ?_⟩
  simp only [toWords, length_flatMap_byteBits]
  rw [flatMap_chunks (fun c => wordBits_wordOf), List.take_of_length_le]
  · simp only [List.length_append, length_flatMap_byteBits, List.length_replicate]
    omega
  · simp only [List.length_append, length_flatMap_byteBits, List.length_replicate]
    omega

theorem flatMap_wordBits_injective : Function.Injective (List.flatMap wordBits) := by
  intro ws vs h
  have hwords (ws : List Word) : (chunks 5 ws.length (ws.flatMap wordBits)).map wordOf = ws := by
    have hchunks := chunks_flatMap length_wordBits ws []
    rw [List.append_nil] at hchunks
    rw [hchunks, List.map_map]
    exact (List.map_congr_left fun w _ => wordOf_wordBits w).trans (List.map_id ws)
  have hlength := congrArg List.length h
  rw [length_flatMap_wordBits, length_flatMap_wordBits] at hlength
  have hcount : ws.length = vs.length := by omega
  rw [← hwords ws, h, hcount, hwords vs]

/-- One string of bytes fills one string of groups. -/
theorem Fills.eq {ws vs : List Word} {bytes : List UInt8} (h : Fills ws bytes)
    (h' : Fills vs bytes) : ws = vs := by
  obtain ⟨k, hk, hws⟩ := h
  obtain ⟨l, hl, hvs⟩ := h'
  have hkl : k = l := by
    have hwsLength := congrArg List.length hws
    have hvsLength := congrArg List.length hvs
    rw [length_flatMap_wordBits, List.length_append, List.length_replicate] at hwsLength hvsLength
    omega
  subst hkl
  exact flatMap_wordBits_injective (hws.trans hvs.symm)

theorem fills_of_fromWords {ws : List Word} {bytes : List UInt8}
    (h : fromWords ws = some bytes) : Fills ws bytes := by
  unfold fromWords at h
  unfold Fills
  generalize ws.flatMap wordBits = bs at h ⊢
  dsimp only at h
  split at h
  · rename_i hrest
    obtain ⟨hshort, hzero⟩ := hrest
    obtain rfl := Option.some.inj h
    refine ⟨(bs.drop (8 * (bs.length / 8))).length, hshort, ?_⟩
    have htail : bs.drop (8 * (bs.length / 8)) =
        List.replicate (bs.drop (8 * (bs.length / 8))).length false :=
      List.eq_replicate_of_mem fun b hb => by simpa using List.all_eq_true.mp hzero b hb
    rw [flatMap_chunks (fun c => byteBits_byteOf) (Nat.mul_div_le bs.length 8), ← htail,
      List.take_append_drop]
  · cases h

theorem Fills.fromWords_eq {ws : List Word} {bytes : List UInt8} (h : Fills ws bytes) :
    fromWords ws = some bytes := by
  obtain ⟨k, hk, hbits⟩ := h
  have hcount : (8 * bytes.length + k) / 8 = bytes.length := by omega
  have hdrop : (bytes.flatMap byteBits ++ List.replicate k false).drop (8 * bytes.length) =
      List.replicate k false := List.drop_left' (length_flatMap_byteBits bytes)
  have hchunks := chunks_flatMap length_byteBits bytes (List.replicate k false)
  have hbytes : (bytes.map byteBits).map byteOf = bytes := by
    rw [List.map_map]
    exact (List.map_congr_left fun b _ => byteOf_byteBits b).trans (List.map_id bytes)
  simp only [fromWords, hbits, List.length_append, length_flatMap_byteBits, List.length_replicate,
    hcount, hdrop]
  rw [if_pos ⟨hk, by simp⟩]
  rw [hchunks, hbytes]

/-- Each string of bytes is read from its own groups and from no others. -/
theorem fromWords_eq_some_iff {ws : List Word} {bytes : List UInt8} :
    fromWords ws = some bytes ↔ ws = toWords bytes := by
  constructor
  · intro h
    exact (fills_of_fromWords h).eq (toWords_fills bytes)
  · rintro rfl
    exact (toWords_fills bytes).fromWords_eq

example : toWords [0xff, 0x00] = [31, 28, 0, 0] ∧ fromWords [31, 28, 0, 1] = none := by decide

end ZcashFaucet.Lib
