/-
ZcashFaucet.Pow.Challenge — the proof-of-work gate: signed challenges and
their verification.

A challenge is stateless: the server signs seed, difficulty, expiry and
the client's fingerprint, and any instance verifies the signature
without a store. The two hash functions and the text JavaScript writes a
number as are parameters; what is computed from them is not.

The verifier compares DECODED bytes. What is recorded as spent is the
text. `ChallengeTheorems` is about that difference.
-/
import ZcashFaucet.Lib.Hex
import ZcashFaucet.Db.UsedChallenges

namespace ZcashFaucet.Pow

open Lib Db

/-- 32 bytes: the output of SHA-256, keyed or not. -/
abbrev Digest := {bytes : List UInt8 // bytes.length = 32}

structure PowConfig where
  baseBits : ℚ
  maxBits : ℚ
  /-- HMAC-SHA256 under RATE_LIMIT_SALT. -/
  hmac : JsString → Digest
  sha256 : JsString → Digest
  /-- The text a number has in a template string. -/
  numberText : ℚ → JsString

/-- A `pow` object of a request body. -/
structure Solution where
  seed : JsString
  difficulty : ℚ
  exp : ℚ
  sig : JsString
  nonce : JsString
  deriving DecidableEq

/-- The text that is signed: `${seed}.${difficulty}.${exp}.${ipHash}`. -/
def signedText (cfg : PowConfig) (seed : JsString) (difficulty exp : ℚ) (ipHash : JsString) : JsString :=
  seed ++ js "." ++ cfg.numberText difficulty ++ js "." ++ cfg.numberText exp ++ js "." ++ ipHash

/-- `sign`: the hexadecimal digest of the signed text. -/
def sign (cfg : PowConfig) (seed : JsString) (difficulty exp : ℚ) (ipHash : JsString) : JsString :=
  encodeHex (cfg.hmac (signedText cfg seed difficulty exp ipHash)).val

/-! ## Proof of work -/

/-- The inner loop of `leadingZeroBits`: clear bits before the first set
one, going through the masks from 0x80 down. -/
def zeroBitsUnder (byte : UInt8) : List UInt8 → Nat
  | [] => 0
  | m :: ms => if byte &&& m != 0 then 0 else 1 + zeroBitsUnder byte ms

def leadingZeroBits : List UInt8 → Nat
  | [] => 0
  | byte :: rest =>
      if byte = 0 then 8 + leadingZeroBits rest
      else zeroBitsUnder byte [0x80, 0x40, 0x20, 0x10, 0x08, 0x04, 0x02, 0x01]

/-- Seconds since the epoch, as `Math.floor(Date.now() / 1000)` reads them. -/
def unixSeconds (clockMs : ℚ) : ℚ := (⌊clockMs / 1000⌋ : ℤ)

/-- `verifySolution` with `spend` false, at one instant of the clock. -/
def verifySolution (cfg : PowConfig) (clockMs : ℚ) (s : Solution) (ipHash : JsString) :
    Except String Unit :=
  if !s.seed.truthy then .error "Missing challenge solution."
  else if s.exp < unixSeconds clockMs then
    .error "That challenge expired. The gate is busy right now, so come back in a few minutes."
  else if s.difficulty < cfg.baseBits - 1 ∨ cfg.maxBits < s.difficulty then
    .error "Bad challenge difficulty."
  else if decodeHex (sign cfg s.seed s.difficulty s.exp ipHash) ≠ decodeHex s.sig then
    .error "Invalid challenge signature."
  else if (leadingZeroBits (cfg.sha256 (s.seed ++ js ":" ++ s.nonce)).val : ℚ) < s.difficulty then
    .error "Proof of work does not meet the difficulty."
  else .ok ()

/-- `spendVerifiedSolution` on the SQLite driver. -/
def spendVerifiedSolution (clockMs : ℚ) (s : Solution) (used : List UsedChallenge) :
    List UsedChallenge × Bool :=
  spendChallenge s.sig s.exp (unixSeconds clockMs) used

/-- The key a solution is recorded under. -/
def spendKey (s : Solution) : JsString := toWellFormed s.sig

/-- What an accepted solution has passed. -/
theorem verifySolution_ok {cfg : PowConfig} {clockMs : ℚ} {s : Solution} {ipHash : JsString}
    (h : verifySolution cfg clockMs s ipHash = .ok ()) :
    unixSeconds clockMs ≤ s.exp ∧
      decodeHex s.sig = (cfg.hmac (signedText cfg s.seed s.difficulty s.exp ipHash)).val := by
  unfold verifySolution at h
  split_ifs at h with hseed hexp hdiff hsig hwork
  refine ⟨not_lt.mp hexp, ?_⟩
  rw [not_not, sign, decodeHex_encodeHex] at hsig
  exact hsig.symm

end ZcashFaucet.Pow
