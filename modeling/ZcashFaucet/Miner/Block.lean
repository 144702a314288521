/-
ZcashFaucet.Miner.Block — the bytes of a block: `Header::from_template`,
`serialize`, `serialize_block` and what they call, of `block.rs`.

The code writes fields at offsets of a fixed array, `readBlock` reads
them one after the other from the front, as the block format has it. What
connects the two is `Cursor.Written`: after each `put` the array is the
fields so far and zeros.

Hashes and bits come as hexadecimal text in display order and go to the
wire reversed, so a hash read back is the reverse of what its text
spells, and `bits` read as a number is the number its text spells.
-/
import ZcashFaucet.Config
import ZcashFaucet.Lib.WireRead

namespace ZcashFaucet.Miner

open Lib

/-! ## The template -/

/-- A `Vec`: at most `isize::MAX` elements. -/
abbrev Vec (α : Type) := { l : List α // l.length < 2 ^ 63 }

structure TransactionTemplate where
  data : String

structure DefaultRoots where
  merkleRoot : String
  blockCommitmentsHash : String

/-- The part of `getblocktemplate`'s reply the miner declares. -/
structure Template where
  version : UInt32
  previousBlockHash : String
  defaultRoots : DefaultRoots
  transactions : Vec TransactionTemplate
  coinbaseTxn : TransactionTemplate
  bits : String
  curTime : UInt32
  height : UInt32

/-! ## CompactSize -/

/-- `compact_size`. -/
def compactSize (n : UInt64) : List UInt8 :=
  if n ≤ 0xfc then [n.toUInt8]
  else if n ≤ 0xffff then 0xfd :: leBytes 2 n.toUInt16.toNat
  else if n ≤ 0xffffffff then 0xfe :: leBytes 4 n.toUInt32.toNat
  else 0xff :: leBytes 8 n.toNat

/-- The forms by the number. -/
theorem compactSize_eq (n : UInt64) : compactSize n =
    if n.toNat ≤ 0xfc then [n.toNat.toUInt8]
    else if n.toNat ≤ 0xffff then 0xfd :: leBytes 2 n.toNat
    else if n.toNat ≤ 0xffffffff then 0xfe :: leBytes 4 n.toNat
    else 0xff :: leBytes 8 n.toNat := by
  have h8 : n.toUInt8 = n.toNat.toUInt8 := by
    apply UInt8.toNat_inj.mp
    simp
  have h16 (h : n.toNat ≤ 0xffff) : n.toUInt16.toNat = n.toNat := by
    rw [UInt64.toNat_toUInt16, Nat.mod_eq_of_lt (by omega)]
  have h32 (h : n.toNat ≤ 0xffffffff) : n.toUInt32.toNat = n.toNat := by
    rw [UInt64.toNat_toUInt32, Nat.mod_eq_of_lt (by omega)]
  simp only [compactSize, UInt64.le_iff_toNat_le, UInt64.reduceToNat, h8]
  split_ifs with h1 h2 h3
  · rfl
  · rw [h16 h2]
  · rw [h32 h3]
  · rfl

/-- A number is read back from in front of anything. -/
theorem readSize_compactSize (strict : Bool) (n : UInt64) (rest : List UInt8) :
    readSize strict (compactSize n ++ rest) = some (n.toNat, rest) := by
  have hn := n.toNat_lt
  have hleast {m : Nat} (h : m ≤ n.toNat) : (if strict then m else 0) ≤ n.toNat := by
    split <;> omega
  rw [compactSize_eq]
  split_ifs with h1 h2 h3
  · have hbyte : (n.toNat.toUInt8).toNat = n.toNat := by
      rw [Nat.toUInt8_eq, UInt8.toNat_ofNat', Nat.mod_eq_of_lt (by omega)]
    have hlt : n.toNat.toUInt8 < 0xfd := by
      rw [UInt8.lt_iff_toNat_lt, hbyte]
      exact Nat.lt_succ_of_le h1
    simp only [List.cons_append, List.nil_append, readSize, hlt, if_true, hbyte]
  · change readWide 2 (if strict then 0xfd else 0) (leBytes 2 n.toNat ++ rest) = _
    exact readWide_leBytes (hleast (by omega)) (by omega) rest
  · change readWide 4 (if strict then 0x10000 else 0) (leBytes 4 n.toNat ++ rest) = _
    exact readWide_leBytes (hleast (by omega)) (by omega) rest
  · change readWide 8 (if strict then 0x100000000 else 0) (leBytes 8 n.toNat ++ rest) = _
    exact readWide_leBytes (hleast (by omega)) (by omega) rest

/-- Read strictly, nothing but `compact_size` writes a number. -/
theorem eq_append_of_readSize {n : UInt64} {bs rest : List UInt8}
    (h : readSize true bs = some (n.toNat, rest)) : bs = compactSize n ++ rest := by
  have hform := sizeForm_of_readSize h
  rw [compactSize_eq]
  cases hform with
  | byte b hb hn =>
    rw [if_pos (by omega), hn]
    simp
  | two hleast hlt =>
    have := hleast rfl
    rw [if_neg (by omega), if_pos (by omega)]
    rfl
  | four hleast hlt =>
    have := hleast rfl
    rw [if_neg (by omega), if_neg (by omega), if_pos (by omega)]
    rfl
  | eight hleast hlt =>
    have := hleast rfl
    rw [if_neg (by omega), if_neg (by omega), if_neg (by omega)]
    rfl

/-- No form of a number is shorter. -/
theorem length_compactSize_le {n : UInt64} {bs rest : List UInt8}
    (h : readSize false bs = some (n.toNat, rest)) :
    (compactSize n ++ rest).length ≤ bs.length := by
  have hform := sizeForm_of_readSize h
  have hlength : (compactSize n).length = if n.toNat ≤ 0xfc then 1
      else if n.toNat ≤ 0xffff then 3 else if n.toNat ≤ 0xffffffff then 5 else 9 := by
    rw [compactSize_eq]
    split_ifs <;> simp
  rw [List.length_append, hlength]
  cases hform with
  | byte b hb hn =>
    rw [if_pos (by omega), List.length_cons]
    omega
  | two hleast hlt =>
    simp only [List.length_cons, List.length_append, length_leBytes]
    split_ifs <;> omega
  | four hleast hlt =>
    simp only [List.length_cons, List.length_append, length_leBytes]
    split_ifs <;> omega
  | eight hleast hlt =>
    simp only [List.length_cons, List.length_append, length_leBytes]
    split_ifs <;> omega

theorem compactSize_prefixFree {m n : UInt64} (h : compactSize m <+: compactSize n) : m = n := by
  obtain ⟨rest, hrest⟩ := h
  have hm := readSize_compactSize true m rest
  have hn := readSize_compactSize true n []
  rw [hrest] at hm
  rw [List.append_nil, hm] at hn
  exact UInt64.toNat_inj.mp (Prod.mk.inj (Option.some.inj hn)).1

example : compactSize 0xfc = [0xfc] ∧ compactSize 0xfd = [0xfd, 0xfd, 0x00] := by decide

/-! ## Fixed arrays -/

/-- `copy_from_slice` into the bytes from `i` on. -/
def copyInto {n : Nat} (v : Vector UInt8 n) : Nat → List UInt8 → Vector UInt8 n
  | _, [] => v
  | i, b :: bs => copyInto (v.setIfInBounds i b) (i + 1) bs

theorem toList_copyInto {n : Nat} (v : Vector UInt8 n) (i : Nat) (bs : List UInt8)
    (h : i + bs.length ≤ n) :
    (copyInto v i bs).toList = v.toList.take i ++ bs ++ v.toList.drop (i + bs.length) := by
  induction bs generalizing v i with
  | nil => simp [copyInto]
  | cons b bs ih =>
    have hi : i < v.toList.length := by simp at h ⊢; omega
    have hlen : i + 1 + bs.length ≤ n := by simp at h; omega
    have hset : (v.setIfInBounds i b).toList = v.toList.take i ++ b :: v.toList.drop (i + 1) := by
      rw [Vector.toList_setIfInBounds, List.set_eq_take_append_cons_drop, if_pos hi]
    have htake : (v.toList.take i).length = i := List.length_take_of_le (by omega)
    have hbefore : (v.toList.take i).drop (i + 1 + bs.length) = [] :=
      List.drop_eq_nil_of_le (by omega)
    have hafter : i + 1 + bs.length - i = bs.length + 1 := by omega
    have hend : i + (bs.length + 1) = i + 1 + bs.length := by omega
    rw [copyInto, ih _ _ hlen, hset, List.take_append, List.drop_append, htake, hbefore, hafter,
      List.drop_succ_cons, List.drop_drop, List.length_cons, hend]
    simp [List.take_of_length_le, htake]

/-- The array being filled, and `at`. -/
structure Cursor (n : Nat) where
  bytes : Vector UInt8 n
  pos : Nat

def Cursor.start (n : Nat) : Cursor n := ⟨Vector.replicate n 0, 0⟩

/-- `put`. -/
def Cursor.put {n : Nat} (c : Cursor n) (bytes : List UInt8) : Cursor n :=
  ⟨copyInto c.bytes c.pos bytes, c.pos + bytes.length⟩

/-- What was put, and zeros. -/
structure Cursor.Written {n : Nat} (c : Cursor n) (done : List UInt8) : Prop where
  bytes_eq : c.bytes.toList = done ++ List.replicate (n - done.length) 0
  pos_eq : c.pos = done.length
  fits : done.length ≤ n

theorem Cursor.written_start (n : Nat) : (Cursor.start n).Written [] :=
  ⟨by simp [Cursor.start], rfl, Nat.zero_le n⟩

theorem Cursor.Written.put {n : Nat} {c : Cursor n} {done : List UInt8} (h : c.Written done)
    (bytes : List UInt8) (hfits : done.length + bytes.length ≤ n) :
    (c.put bytes).Written (done ++ bytes) := by
  refine ⟨?_, ?_, by simpa using hfits⟩
  · rw [Cursor.put, toList_copyInto _ _ _ (by rw [h.pos_eq]; exact hfits), h.bytes_eq, h.pos_eq]
    simp [List.drop_append, Nat.sub_sub]
  · simp [Cursor.put, h.pos_eq]

/-! ## Text to wire bytes -/

/-- Bytes in display order, reversed into an array of their number. -/
def reversedField (n : Nat) (badHex : String → String) (badLength : Nat → String)
    (hex : HexDecoder) (displayHex : String) : Except String (Vector UInt8 n) :=
  match hex.decode displayHex with
  | .error e => .error (badHex e)
  | .ok bytes =>
    if h : bytes.length = n then .ok ⟨bytes.reverse.toArray, by simp [h]⟩
    else .error (badLength bytes.length)

/-- `le32`. -/
def le32 : HexDecoder → String → Except String (Vector UInt8 32) :=
  reversedField 32 (fun e => s!"bad hash hex: {e}")
    fun n => s!"expected a 32-byte hash, got {n} bytes"

/-- `bits_le`. -/
def bitsLe : HexDecoder → String → Except String (Vector UInt8 4) :=
  reversedField 4 (fun e => s!"bad bits hex: {e}") fun n => s!"expected 4 bytes of bits, got {n}"

/-- The text spells `n` bytes. -/
def Spells (hex : HexDecoder) (displayHex : String) (n : Nat) (bytes : List UInt8) : Prop :=
  hex.decode displayHex = .ok bytes ∧ bytes.length = n

theorem reversedField_ok {n : Nat} {badHex : String → String} {badLength : Nat → String}
    {hex : HexDecoder} {displayHex : String} {bytes : List UInt8}
    (h : Spells hex displayHex n bytes) :
    ∃ v, reversedField n badHex badLength hex displayHex = .ok v ∧ v.toList = bytes.reverse :=
  ⟨⟨bytes.reverse.toArray, by simp [h.2]⟩, by simp [reversedField, h.1, h.2], by simp⟩

theorem reversedField_spells {n : Nat} {badHex : String → String} {badLength : Nat → String}
    {hex : HexDecoder} {displayHex : String} {v : Vector UInt8 n}
    (h : reversedField n badHex badLength hex displayHex = .ok v) :
    Spells hex displayHex n v.toList.reverse := by
  unfold reversedField at h
  split at h
  · cases h
  · rename_i bytes hdecode
    split at h
    · rename_i hlen
      obtain rfl := Except.ok.inj h
      exact ⟨by simp [hdecode], by simp [hlen]⟩
    · cases h

/-! ## The header -/

structure Header where
  prefixBytes : Vector UInt8 108
  nonce : Vector UInt8 32
  solution : Vec UInt8

/-- `Header::from_template`. -/
def Header.fromTemplate (hex : HexDecoder) (t : Template) : Except String Header := do
  let c := (Cursor.start 108).put (leBytes 4 t.version.toNat)
  let previous ← le32 hex t.previousBlockHash
  let c := c.put previous.toList
  let merkleRoot ← le32 hex t.defaultRoots.merkleRoot
  let c := c.put merkleRoot.toList
  let commitments ← le32 hex t.defaultRoots.blockCommitmentsHash
  let c := c.put commitments.toList
  let c := c.put (leBytes 4 t.curTime.toNat)
  let bits ← bitsLe hex t.bits
  let c := c.put bits.toList
  return { prefixBytes := c.bytes, nonce := Vector.replicate 32 0, solution := ⟨[], by decide⟩ }

/-- `equihash_input`. -/
def Header.equihashInput (h : Header) : Vector UInt8 140 :=
  copyInto (copyInto (Vector.replicate 140 0) 0 h.prefixBytes.toList) 108 h.nonce.toList

/-- `serialize`. -/
def Header.serialize (h : Header) : List UInt8 :=
  h.equihashInput.toList ++ compactSize (UInt64.ofNat h.solution.val.length) ++ h.solution.val

/-! ## The block -/

/-- The loop of `serialize_block`, from transaction `i` on. -/
def appendTransactions (hex : HexDecoder) :
    Nat → List TransactionTemplate → List UInt8 → Except String (List UInt8)
  | _, [], out => .ok out
  | i, tx :: txs, out =>
      match hex.decode tx.data with
      | .error e => .error s!"bad transaction {i}: {e}"
      | .ok bytes => appendTransactions hex (i + 1) txs (out ++ bytes)

/-- `serialize_block`. -/
def serializeBlock (hex : HexDecoder) (header : Header) (t : Template) :
    Except String (List UInt8) :=
  match hex.decode t.coinbaseTxn.data with
  | .error e => .error s!"bad coinbasetxn: {e}"
  | .ok coinbase =>
    appendTransactions hex 0 t.transactions.val
      (header.serialize ++ compactSize (1 + UInt64.ofNat t.transactions.val.length) ++ coinbase)

/-- A template's block with what the solver found. -/
def blockOf (hex : HexDecoder) (t : Template) (nonce : Vector UInt8 32) (solution : Vec UInt8) :
    Except String (List UInt8) := do
  let header ← Header.fromTemplate hex t
  serializeBlock hex { header with nonce := nonce, solution := solution } t

/-! ## The block format -/

/-- A block as the format has it, its transactions not read any further. -/
structure BlockWire where
  version : Nat
  previousHash : List UInt8
  merkleRoot : List UInt8
  blockCommitments : List UInt8
  time : Nat
  bits : Nat
  nonce : List UInt8
  solution : List UInt8
  count : Nat
  transactions : List UInt8
  deriving DecidableEq, Repr

/-- Four bytes, three hashes, time and bits, the nonce, the solution with
its size and the count; what is left are the transactions. -/
def readBlock (bytes : List UInt8) : Option BlockWire := do
  let (version, rest) ← readWide 4 0 bytes
  let (previousHash, rest) ← takeExact 32 rest
  let (merkleRoot, rest) ← takeExact 32 rest
  let (blockCommitments, rest) ← takeExact 32 rest
  let (time, rest) ← readWide 4 0 rest
  let (bits, rest) ← readWide 4 0 rest
  let (nonce, rest) ← takeExact 32 rest
  let (size, rest) ← readSize true rest
  let (solution, rest) ← takeExact size rest
  let (count, transactions) ← readSize true rest
  return { version, previousHash, merkleRoot, blockCommitments, time, bits, nonce, solution,
           count, transactions }

/-- The bytes a template's texts spell, in display order. -/
structure TemplateBytes where
  previousHash : List UInt8
  merkleRoot : List UInt8
  blockCommitments : List UInt8
  bits : List UInt8
  coinbase : List UInt8
  transactions : List (List UInt8)

/-- Every text of the template spells bytes, and as many as its field has. -/
structure Template.Decodes (hex : HexDecoder) (t : Template) (f : TemplateBytes) : Prop where
  previousHash : Spells hex t.previousBlockHash 32 f.previousHash
  merkleRoot : Spells hex t.defaultRoots.merkleRoot 32 f.merkleRoot
  blockCommitments : Spells hex t.defaultRoots.blockCommitmentsHash 32 f.blockCommitments
  bits : Spells hex t.bits 4 f.bits
  coinbase : hex.decode t.coinbaseTxn.data = .ok f.coinbase
  transactions :
    List.Forall₂ (fun tx bytes => hex.decode tx.data = .ok bytes) t.transactions.val f.transactions

/-- The block of a template whose texts spell these bytes. -/
def TemplateBytes.block (f : TemplateBytes) (t : Template) (nonce : Vector UInt8 32)
    (solution : Vec UInt8) : BlockWire where
  version := t.version.toNat
  previousHash := f.previousHash.reverse
  merkleRoot := f.merkleRoot.reverse
  blockCommitments := f.blockCommitments.reverse
  time := t.curTime.toNat
  bits := beValue f.bits
  nonce := nonce.toList
  solution := solution.val
  count := 1 + t.transactions.val.length
  transactions := f.coinbase ++ f.transactions.flatten

/-! ## Writing, then reading -/

theorem appendTransactions_ok {hex : HexDecoder} {txs : List TransactionTemplate}
    {bytes : List (List UInt8)}
    (h : List.Forall₂ (fun tx bs => hex.decode tx.data = .ok bs) txs bytes) (i : Nat)
    (out : List UInt8) : appendTransactions hex i txs out = .ok (out ++ bytes.flatten) := by
  induction h generalizing i out with
  | nil => simp [appendTransactions]
  | cons hdecode _ ih => simp [appendTransactions, hdecode, ih]

/-- If the loop ends, every transaction was bytes. -/
theorem forall₂_of_appendTransactions {hex : HexDecoder} {txs : List TransactionTemplate} {i : Nat}
    {out all : List UInt8} (h : appendTransactions hex i txs out = .ok all) :
    ∃ bytes, List.Forall₂ (fun tx bs => hex.decode tx.data = .ok bs) txs bytes := by
  induction txs generalizing i out with
  | nil => exact ⟨[], .nil⟩
  | cons tx txs ih =>
    rw [appendTransactions] at h
    split at h
    · cases h
    · rename_i bs hdecode
      obtain ⟨bytes, hrest⟩ := ih h
      exact ⟨bs :: bytes, .cons hdecode hrest⟩

/-- The fields that were put one after the other, where they fill the array. -/
theorem Cursor.Written.toList_eq {n : Nat} {c : Cursor n} {done : List UInt8} (h : c.Written done)
    (hfull : done.length = n) : c.bytes.toList = done := by
  simpa [hfull] using h.bytes_eq

theorem le32_ok {hex : HexDecoder} {displayHex : String} {bytes : List UInt8}
    (h : Spells hex displayHex 32 bytes) :
    ∃ v, le32 hex displayHex = .ok v ∧ v.toList = bytes.reverse :=
  reversedField_ok h

theorem bitsLe_ok {hex : HexDecoder} {displayHex : String} {bytes : List UInt8}
    (h : Spells hex displayHex 4 bytes) :
    ∃ v, bitsLe hex displayHex = .ok v ∧ v.toList = bytes.reverse :=
  reversedField_ok h

/-- The array is the six fields, one after the other. -/
theorem fromTemplate_ok {hex : HexDecoder} {t : Template} {f : TemplateBytes}
    (h : t.Decodes hex f) :
    ∃ header, Header.fromTemplate hex t = .ok header ∧
      header.prefixBytes.toList = leBytes 4 t.version.toNat ++ f.previousHash.reverse ++
        f.merkleRoot.reverse ++ f.blockCommitments.reverse ++ leBytes 4 t.curTime.toNat ++
        f.bits.reverse := by
  obtain ⟨previous, hprevious, hprev⟩ := le32_ok h.previousHash
  obtain ⟨merkle, hmerkle, hroot⟩ := le32_ok h.merkleRoot
  obtain ⟨commitments, hcommitments, hcomm⟩ := le32_ok h.blockCommitments
  obtain ⟨bits, hbits, hbit⟩ := bitsLe_ok h.bits
  have hwritten := (((((Cursor.written_start 108).put (leBytes 4 t.version.toNat) (by simp)).put
    previous.toList (by simp)).put merkle.toList (by simp)).put commitments.toList (by simp)).put
    (leBytes 4 t.curTime.toNat) (by simp) |>.put bits.toList (by simp)
  have hbytes := hwritten.toList_eq (by simp)
  rw [hprev, hroot, hcomm, hbit] at hbytes
  refine ⟨{ prefixBytes := _, nonce := Vector.replicate 32 0, solution := ⟨[], by decide⟩ }, ?_,
    hbytes⟩
  simp only [Header.fromTemplate, hprevious, hmerkle, hcommitments, hbits, ← hprev, ← hroot,
    ← hcomm, ← hbit]
  rfl

theorem equihashInput_eq (h : Header) :
    h.equihashInput.toList = h.prefixBytes.toList ++ h.nonce.toList := by
  rw [Header.equihashInput, toList_copyInto _ _ _ (by simp), toList_copyInto _ _ _ (by simp)]
  simp [List.drop_append]

theorem serializeBlock_ok {hex : HexDecoder} {t : Template} {f : TemplateBytes}
    (h : t.Decodes hex f) (header : Header) :
    serializeBlock hex header t = .ok (header.serialize ++
      compactSize (1 + UInt64.ofNat t.transactions.val.length) ++ f.coinbase ++
      f.transactions.flatten) := by
  rw [serializeBlock, h.coinbase]
  exact appendTransactions_ok h.transactions 0 _

/-- The whole block, field after field. -/
theorem blockOf_ok {hex : HexDecoder} {t : Template} {f : TemplateBytes} (h : t.Decodes hex f)
    (nonce : Vector UInt8 32) (solution : Vec UInt8) :
    blockOf hex t nonce solution = .ok (leBytes 4 t.version.toNat ++ (f.previousHash.reverse ++
      (f.merkleRoot.reverse ++ (f.blockCommitments.reverse ++ (leBytes 4 t.curTime.toNat ++
      (f.bits.reverse ++ (nonce.toList ++ (compactSize (UInt64.ofNat solution.val.length) ++
      (solution.val ++ (compactSize (1 + UInt64.ofNat t.transactions.val.length) ++
      (f.coinbase ++ f.transactions.flatten))))))))))) := by
  obtain ⟨header, hheader, hprefix⟩ := fromTemplate_ok h
  have hblock : blockOf hex t nonce solution =
      serializeBlock hex { header with nonce := nonce, solution := solution } t := by
    rw [blockOf, hheader]
    rfl
  rw [hblock, serializeBlock_ok h]
  simp only [Header.serialize, equihashInput_eq, hprefix, List.append_assoc]

theorem readWide_four {n : UInt32} (rest : List UInt8) :
    readWide 4 0 (leBytes 4 n.toNat ++ rest) = some (n.toNat, rest) :=
  readWide_leBytes (Nat.zero_le _) n.toNat_lt rest

/-- Four bytes read as a number. -/
theorem readWide_reverse {bytes : List UInt8} (h : bytes.length = 4) (rest : List UInt8) :
    readWide 4 0 (bytes.reverse ++ rest) = some (beValue bytes, rest) := by
  rw [readWide, takeExact_append (by simpa using h)]
  simp [beValue]

theorem readBlock_blockOf {hex : HexDecoder} {t : Template} {f : TemplateBytes}
    (h : t.Decodes hex f) (nonce : Vector UInt8 32) (solution : Vec UInt8) :
    ∃ bytes, blockOf hex t nonce solution = .ok bytes ∧
      readBlock bytes = some (f.block t nonce solution) := by
  refine ⟨_, blockOf_ok h nonce solution, ?_⟩
  have hsize : (UInt64.ofNat solution.val.length).toNat = solution.val.length := by
    have := solution.property
    rw [UInt64.toNat_ofNat', Nat.mod_eq_of_lt (by omega)]
  have hcount : (1 + UInt64.ofNat t.transactions.val.length).toNat =
      1 + t.transactions.val.length := by
    have := t.transactions.property
    rw [UInt64.toNat_add, UInt64.toNat_ofNat', UInt64.toNat_one]
    omega
  simp only [readBlock, readWide_four, takeExact_append (List.length_reverse.trans h.previousHash.2),
    takeExact_append (List.length_reverse.trans h.merkleRoot.2),
    takeExact_append (List.length_reverse.trans h.blockCommitments.2), readWide_reverse h.bits.2,
    takeExact_append nonce.length_toList, readSize_compactSize, hsize, hcount,
    takeExact_append rfl, Option.bind_eq_bind, Option.bind_some]
  rfl

/-- A block that was written had bytes for every text. -/
theorem decodes_of_blockOf {hex : HexDecoder} {t : Template} {nonce : Vector UInt8 32}
    {solution : Vec UInt8} {bytes : List UInt8} (h : blockOf hex t nonce solution = .ok bytes) :
    ∃ f, t.Decodes hex f := by
  simp only [blockOf, Header.fromTemplate, bind_eq_ok] at h
  obtain ⟨header, ⟨previous, hprevious, merkle, hmerkle, commitments, hcommitments, bits, hbits, -⟩,
    hserialize⟩ := h
  rw [serializeBlock] at hserialize
  split at hserialize
  · cases hserialize
  · rename_i coinbase hcoinbase
    obtain ⟨transactions, htransactions⟩ := forall₂_of_appendTransactions hserialize
    exact ⟨⟨_, _, _, _, coinbase, transactions⟩, reversedField_spells hprevious,
      reversedField_spells hmerkle, reversedField_spells hcommitments, reversedField_spells hbits,
      hcoinbase, htransactions⟩

/-- A block reads back as its template, nonce and solution, or there is
none because a text of the template is not bytes of its field. The counts
in it are in the one form a strict reader takes, which is shortest and no
beginning of another. -/
theorem block_round_trip (hex : HexDecoder) (t : Template) (nonce : Vector UInt8 32)
    (solution : Vec UInt8) :
    (∀ f, t.Decodes hex f → ∃ bytes, blockOf hex t nonce solution = .ok bytes ∧
      readBlock bytes = some (f.block t nonce solution)) ∧
    ((¬ ∃ f, t.Decodes hex f) → ∃ e, blockOf hex t nonce solution = .error e) ∧
    ∀ n : UInt64,
      (∀ bs rest, readSize true bs = some (n.toNat, rest) ↔ bs = compactSize n ++ rest) ∧
      (∀ bs, readSize false bs = some (n.toNat, []) → (compactSize n).length ≤ bs.length) ∧
      ∀ m : UInt64, compactSize m <+: compactSize n → m = n := by
  refine ⟨fun f hf => readBlock_blockOf hf nonce solution, fun hnone => ?_, fun n => ⟨?_, ?_, ?_⟩⟩
  · cases hblock : blockOf hex t nonce solution with
    | ok bytes => exact absurd (decodes_of_blockOf hblock) hnone
    | error e => exact ⟨e, rfl⟩
  · intro bs rest
    exact ⟨eq_append_of_readSize, fun hbs => hbs ▸ readSize_compactSize true n rest⟩
  · intro bs hread
    simpa using length_compactSize_le hread
  · exact fun m => compactSize_prefixFree

end ZcashFaucet.Miner
