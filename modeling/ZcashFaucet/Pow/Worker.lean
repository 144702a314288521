/-
ZcashFaucet.Pow.Worker — the solver in the browser: `pow-worker.js`.

The worker shares no code with the server. It has its own SHA-256, with a
table of constants and a buffer it pads by hand, and its own count of
leading zero bits. `workerSha256_eq` and `workerZeroBits_eq` say that they
are the hash of the standard and the count of the server.
-/
import ZcashFaucet.Lib.Decimal
import ZcashFaucet.Lib.Sha256
import ZcashFaucet.Pow.Challenge
import Mathlib.Data.Rat.Encodable

namespace ZcashFaucet.Pow

open Lib Lib.Sha256

/-! ## SHA-256, as the worker has it -/

/-- `K`. -/
def workerK : List UInt32 :=
  [0x428a2f98, 0x71374491, 0xb5c0fbcf, 0xe9b5dba5, 0x3956c25b, 0x59f111f1, 0x923f82a4, 0xab1c5ed5,
    0xd807aa98, 0x12835b01, 0x243185be, 0x550c7dc3, 0x72be5d74, 0x80deb1fe, 0x9bdc06a7, 0xc19bf174,
    0xe49b69c1, 0xefbe4786, 0x0fc19dc6, 0x240ca1cc, 0x2de92c6f, 0x4a7484aa, 0x5cb0a9dc, 0x76f988da,
    0x983e5152, 0xa831c66d, 0xb00327c8, 0xbf597fc7, 0xc6e00bf3, 0xd5a79147, 0x06ca6351, 0x14292967,
    0x27b70a85, 0x2e1b2138, 0x4d2c6dfc, 0x53380d13, 0x650a7354, 0x766a0abb, 0x81c2c92e, 0x92722c85,
    0xa2bfe8a1, 0xa81a664b, 0xc24b8b70, 0xc76c51a3, 0xd192e819, 0xd6990624, 0xf40e3585, 0x106aa070,
    0x19a4c116, 0x1e376c08, 0x2748774c, 0x34b0bcb5, 0x391c0cb3, 0x4ed8aa4a, 0x5b9cca4f, 0x682e6ff3,
    0x748f82ee, 0x78a5636f, 0x84c87814, 0x8cc70208, 0x90befffa, 0xa4506ceb, 0xbef9a3f7, 0xc67178f2]

/-- `h0` to `h7` before the first block. -/
def workerInitial : Words :=
  ⟨0x6a09e667, 0xbb67ae85, 0x3c6ef372, 0xa54ff53a, 0x510e527f, 0x9b05688c, 0x1f83d9ab, 0x5be0cd19⟩

/-- Bytes written over those of a buffer. -/
def writeAt (pos : Nat) (bytes m : List UInt8) : List UInt8 :=
  m.take pos ++ bytes ++ m.drop (pos + bytes.length)

/-- The padded buffer. Shifts by six of a length below 2^31 are whole
divisions by 64. -/
def workerBuffer (msg : List UInt8) : List UInt8 :=
  let l := msg.length
  let bitLen := l * 8
  let padded := ((l + 8) / 64 + 1) * 64
  writeAt (padded - 4) (beBytes 4 (bitLen % 2 ^ 32))
    (writeAt (padded - 8) (beBytes 4 (bitLen / 2 ^ 32))
      (writeAt l [0x80] (writeAt 0 msg (List.replicate padded 0))))

/-- One turn of the loop that extends `w`. -/
def workerExtend (w : Array UInt32) (i : Nat) : Array UInt32 :=
  let s0 := rotr w[i - 15]! 7 ^^^ rotr w[i - 15]! 18 ^^^ (w[i - 15]! >>> 3)
  let s1 := rotr w[i - 2]! 17 ^^^ rotr w[i - 2]! 19 ^^^ (w[i - 2]! >>> 10)
  w.push (w[i - 16]! + s0 + w[i - 7]! + s1)

def workerSchedule (block : Nat → UInt32) : Array UInt32 :=
  (List.range' 16 48).foldl workerExtend (Array.ofFn fun i : Fin 16 => block i)

/-- One turn of the loop over the rounds. -/
def workerRound (w : Array UInt32) (v : Words) (i : Nat) : Words :=
  let S1 := rotr v.e 6 ^^^ rotr v.e 11 ^^^ rotr v.e 25
  let ch := (v.e &&& v.f) ^^^ (~~~v.e &&& v.g)
  let t1 := v.h + S1 + ch + workerK.getD i 0 + w[i]!
  let S0 := rotr v.a 2 ^^^ rotr v.a 13 ^^^ rotr v.a 22
  let maj := (v.a &&& v.b) ^^^ (v.a &&& v.c) ^^^ (v.b &&& v.c)
  let t2 := S0 + maj
  ⟨t1 + t2, v.a, v.b, v.c, v.d + t1, v.e, v.f, v.g⟩

def workerCompress (block : Nat → UInt32) (hash : Words) : Words :=
  let w := workerSchedule block
  let v := (List.range 64).foldl (workerRound w) hash
  ⟨hash.a + v.a, hash.b + v.b, hash.c + v.c, hash.d + v.d, hash.e + v.e, hash.f + v.f, hash.g + v.g,
    hash.h + v.h⟩

/-- `sha256(msg)`. -/
def workerSha256 (msg : List UInt8) : List UInt8 :=
  let m := workerBuffer msg
  let hash := (List.range (m.length / 64)).foldl
    (fun hash i => workerCompress (fun t => wordOf m (64 * i + 4 * t)) hash) workerInitial
  [hash.a, hash.b, hash.c, hash.d, hash.e, hash.f, hash.g, hash.h].flatMap fun h => beBytes 4 h.toNat

/-! ## The search -/

theorem workerK_eq : workerK = roundConstants := by decide +kernel

theorem workerInitial_eq : workerInitial = initial := by decide +kernel

/-- What is written over is as long as what is written. -/
theorem writeAt_append {pos : Nat} {a b c bytes : List UInt8} (hpos : a.length = pos)
    (hlen : b.length = bytes.length) : writeAt pos bytes (a ++ b ++ c) = a ++ bytes ++ c := by
  subst hpos
  rw [writeAt, List.append_assoc a b c, List.take_left, ← List.append_assoc a b c, ← hlen,
    ← List.length_append, List.drop_left]

/-- The buffer is the padded message of the standard. -/
theorem workerBuffer_eq (msg : List UInt8) : workerBuffer msg = pad msg := by
  -- the zeros of the buffer, cut where the four writes go
  obtain ⟨k, hk, hpadded⟩ : ∃ k, k = (64 - (msg.length + 9) % 64) % 64 ∧
      ((msg.length + 8) / 64 + 1) * 64 = msg.length + 1 + k + 8 := ⟨_, rfl, by omega⟩
  have hzeros : List.replicate (msg.length + 1 + k + 8) (0 : UInt8) =
      [] ++ List.replicate msg.length 0 ++ ([0] ++ (List.replicate k 0 ++ (List.replicate 4 0 ++
        List.replicate 4 0))) := by
    rw [show msg.length + 1 + k + 8 = msg.length + (1 + (k + (4 + 4))) by omega]
    simp only [List.replicate_add, List.nil_append]
    rfl
  have hmsg := @writeAt_append 0 [] (List.replicate msg.length 0)
    ([0] ++ (List.replicate k 0 ++ (List.replicate 4 0 ++ List.replicate 4 0))) msg rfl (by simp)
  have hone := @writeAt_append msg.length msg [0]
    (List.replicate k 0 ++ (List.replicate 4 0 ++ List.replicate 4 0)) [0x80] rfl rfl
  have hhigh := @writeAt_append (msg.length + 1 + k) (msg ++ [0x80] ++ List.replicate k 0)
    (List.replicate 4 0) (List.replicate 4 0) (beBytes 4 (msg.length * 8 / 2 ^ 32))
    (by simp; omega) (by simp)
  have hlow := @writeAt_append (msg.length + 1 + k + 4)
    (msg ++ [0x80] ++ List.replicate k 0 ++ beBytes 4 (msg.length * 8 / 2 ^ 32))
    (List.replicate 4 0) [] (beBytes 4 (msg.length * 8 % 2 ^ 32))
    (by simp; omega) (by simp)
  have hlength : beBytes 8 (8 * msg.length) =
      beBytes 4 (msg.length * 8 / 2 ^ 32) ++ beBytes 4 (msg.length * 8 % 2 ^ 32) := by
    rw [Nat.mul_comm, beBytes_add 4 4, show (2 : Nat) ^ 32 = 256 ^ 4 by norm_num, beBytes_mod]
  rw [workerBuffer, pad, ← hk, hpadded, hzeros, hmsg]
  simp only [List.nil_append, List.append_nil, List.append_assoc] at hone hhigh hlow ⊢
  rw [hone, show msg.length + 1 + k + 8 - 8 = msg.length + 1 + k by omega, hhigh,
    show msg.length + 1 + k + 8 - 4 = msg.length + 1 + k + 4 by omega, hlow, hlength]

theorem get_push_lt {w : Array UInt32} {x : UInt32} {t : Nat} (h : t < w.size) : (w.push x)[t]! = w[t]! := by
  rw [getElem!_pos _ t (by rw [Array.size_push]; omega), getElem!_pos w t h, Array.getElem_push_lt]

theorem get_push_eq {w : Array UInt32} {x : UInt32} {t : Nat} (h : t = w.size) : (w.push x)[t]! = x := by
  subst h
  rw [getElem!_pos _ w.size (by rw [Array.size_push]; omega), Array.getElem_push_eq]

/-- After `n` turns the array holds the first words of the schedule. -/
theorem workerExtend_fold (block : Nat → UInt32) (n : Nat) :
    ((List.range' 16 n).foldl workerExtend (Array.ofFn fun i : Fin 16 => block i)).size = 16 + n ∧
      ∀ t < 16 + n, ((List.range' 16 n).foldl workerExtend (Array.ofFn fun i : Fin 16 => block i))[t]! =
        schedule block t := by
  induction n with
  | zero =>
      refine ⟨by simp, ?_⟩
      intro t ht
      rw [schedule_lt block ht]
      simp [ht]
  | succ n ih =>
      obtain ⟨hsize, hget⟩ := ih
      rw [List.range'_concat, List.foldl_append, Nat.one_mul, List.foldl_cons, List.foldl_nil]
      generalize (List.range' 16 n).foldl workerExtend (Array.ofFn fun i : Fin 16 => block i) = w at hsize hget
      refine ⟨by rw [workerExtend, Array.size_push, hsize]; rfl, ?_⟩
      intro t ht
      rcases Nat.lt_or_eq_of_le (show t ≤ 16 + n by omega) with hlt | rfl
      · rw [workerExtend, get_push_lt (by omega), hget t hlt]
      · rw [workerExtend, get_push_eq hsize.symm, hget _ (by omega), hget _ (by omega), hget _ (by omega),
          hget _ (by omega), schedule_ge block (show 16 ≤ 16 + n by omega), smallSigma0, smallSigma1]
        ac_rfl

theorem workerCompress_eq (block : Nat → UInt32) (hash : Words) :
    workerCompress block hash = compress block hash := by
  obtain ⟨-, hget⟩ := workerExtend_fold block 48
  have hrounds : (List.range 64).foldl (workerRound (workerSchedule block)) hash =
      (List.range 64).foldl (fun v t => round (roundConstants.getD t 0) (schedule block t) v) hash := by
    refine List.foldl_ext _ _ _ fun v t ht => ?_
    rw [workerRound, workerSchedule, hget t (by simpa using ht), workerK_eq]
    rfl
  rw [workerCompress, hrounds]
  rfl

/-- **The worker's SHA-256 is that of the standard.** -/
theorem workerSha256_eq (msg : List UInt8) : workerSha256 msg = sha256 msg := by
  rw [workerSha256, workerBuffer_eq, workerInitial_eq]
  simp only [workerCompress_eq]
  rfl

/-! ## The count of the server -/

/-- Whole numbers in decimal, and a text of its own for any other. -/
def plainText (q : ℚ) : JsString :=
  if q.den = 1 ∧ 0 ≤ q.num then decimal q.num.toNat else 0x2D :: decimal (Encodable.encode q)

/-- HMAC-SHA256 under a key that fills a block. -/
def hmacSha256 (key msg : List UInt8) : List UInt8 :=
  workerSha256 (key.map (· ^^^ 0x5C) ++ workerSha256 (key.map (· ^^^ 0x36) ++ msg))

theorem hmacSha256_eq (key msg : List UInt8) :
    hmacSha256 key msg = sha256 (key.map (· ^^^ 0x5C) ++ sha256 (key.map (· ^^^ 0x36) ++ msg)) := by
  rw [hmacSha256, workerSha256_eq, workerSha256_eq]

/-- The server's two hashes and its way of writing numbers. -/
def hashingPow : PowConfig where
  baseBits := 0
  maxBits := 0
  hmac := fun text =>
    ⟨hmacSha256 (List.replicate 64 0x5A) (encodeUtf8 text), by rw [hmacSha256_eq]; exact length_sha256 _⟩
  sha256 := fun text => ⟨workerSha256 (encodeUtf8 text), by rw [workerSha256_eq]; exact length_sha256 _⟩
  numberText := plainText

/-- A hash whose value for one text is looked up. -/
def lookedUp (hash : JsString → Digest) (text : JsString) (digest : Digest) : JsString → Digest :=
  fun t => if t = text then digest else hash t

theorem lookedUp_eq {hash : JsString → Digest} {text : JsString} {digest : Digest} (h : hash text = digest) :
    lookedUp hash text digest = hash := by
  funext t
  unfold lookedUp
  split
  · rename_i htext
    rw [htext, h]
  · rfl

/-- The digest that is written so. -/
def digestOf (hex : JsString) : Digest :=
  if h : (decodeHex hex).length = 32 then ⟨decodeHex hex, h⟩ else hashingPow.sha256 hex

/-- A server that computes neither of two hashes again. -/
def PowConfig.knows (cfg : PowConfig) (signed mac solved hash : JsString) : PowConfig :=
  { cfg with
    hmac := lookedUp cfg.hmac signed (digestOf mac)
    sha256 := lookedUp cfg.sha256 solved (digestOf hash) }

theorem PowConfig.knows_eq {cfg : PowConfig} {signed mac solved hash : JsString}
    (hmac : (cfg.hmac signed).val = (digestOf mac).val) (hhash : (cfg.sha256 solved).val = (digestOf hash).val) :
    cfg.knows signed mac solved hash = cfg := by
  rw [knows, lookedUp_eq (Subtype.ext hmac), lookedUp_eq (Subtype.ext hhash)]

end ZcashFaucet.Pow
