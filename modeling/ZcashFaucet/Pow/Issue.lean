/-
ZcashFaucet.Pow.Issue — challenges handed out over the life of a process.

The configuration is what `config.ts` and `pow.ts` make of five numbers of
the environment. A process issues challenges and records attempts, in any
order and for any clients; `powRun` carries the windows along and keeps
every challenge that was issued, with who asked for it and when.
-/
import ZcashFaucet.Config
import ZcashFaucet.Pow.Difficulty
import Mathlib.Data.List.Induction

namespace ZcashFaucet.Pow

open Lib

/-! ## Configuration -/

/-- `Math.max(low, Math.floor(x))`. -/
def floorAtLeast (low : ℤ) (x : ℚ) : ℤ := max low ⌊x⌋

/-- `Math.max(low, Math.min(high, Math.floor(x)))`. -/
def floorBetween (low high : ℤ) (x : ℚ) : ℤ := max low (min high ⌊x⌋)

/-- The numbers of `config.pow`, and REQ_WINDOW_MS. -/
structure PowNumbers where
  baseBits : Nat
  escalateBits : Nat
  maxBits : Nat
  ttlSeconds : ℚ
  reqWindowMs : ℚ
  deriving DecidableEq

def readPowNumbers (env : Env) : Except JsString PowNumbers := do
  let baseBits ← num env "FAUCET_POW_BITS" 20
  let escalateBits ← num env "FAUCET_POW_ESCALATE_BITS" 2
  let maxBits ← num env "FAUCET_POW_MAX_BITS" 26
  let ttlSeconds ← num env "FAUCET_POW_TTL_SECONDS" 600
  let windowSeconds ← num env "FAUCET_POW_WINDOW_SECONDS" 3600
  return {
    baseBits := (floorBetween 8 28 baseBits).toNat
    escalateBits := (floorAtLeast 0 escalateBits).toNat
    maxBits := (floorBetween 12 30 maxBits).toNat
    ttlSeconds := floorAtLeast 30 ttlSeconds
    reqWindowMs := floorAtLeast 60000 (windowSeconds * 1000) }

def DifficultyConfig.numbers (cfg : DifficultyConfig) : PowNumbers :=
  ⟨cfg.baseBits, cfg.escalateBits, cfg.maxBits, cfg.ttlSeconds, cfg.reqWindowMs⟩

/-- What every configuration that boots satisfies. -/
structure PowNumbers.Admitted (n : PowNumbers) : Prop where
  base_ge : 8 ≤ n.baseBits
  base_le : n.baseBits ≤ 28
  max_ge : 12 ≤ n.maxBits
  max_le : n.maxBits ≤ 30
  ttl_ge : 30 ≤ n.ttlSeconds
  ttl_whole : (⌊n.ttlSeconds⌋ : ℚ) = n.ttlSeconds
  window_ge : 60000 ≤ n.reqWindowMs

theorem floorBetween_bounds {low high : ℤ} (h : low ≤ high) (x : ℚ) :
    low ≤ floorBetween low high x ∧ floorBetween low high x ≤ high :=
  ⟨le_max_left _ _, max_le h (min_le_left _ _)⟩

theorem readPowNumbers_admitted {env : Env} {n : PowNumbers} (h : readPowNumbers env = .ok n) :
    n.Admitted := by
  simp only [readPowNumbers, bind_eq_ok] at h
  obtain ⟨baseBits, _, escalateBits, _, maxBits, _, ttlSeconds, _, windowSeconds, _, hn⟩ := h
  cases hn
  have hbase := floorBetween_bounds (show (8 : ℤ) ≤ 28 by decide) baseBits
  have hmax := floorBetween_bounds (show (12 : ℤ) ≤ 30 by decide) maxBits
  have httl : (30 : ℤ) ≤ floorAtLeast 30 ttlSeconds := le_max_left _ _
  have hwindow : (60000 : ℤ) ≤ floorAtLeast 60000 (windowSeconds * 1000) := le_max_left _ _
  have httl' : (30 : ℚ) ≤ (floorAtLeast 30 ttlSeconds : ℤ) := by exact_mod_cast httl
  have hwindow' : (60000 : ℚ) ≤ (floorAtLeast 60000 (windowSeconds * 1000) : ℤ) := by exact_mod_cast hwindow
  refine ⟨?_, ?_, ?_, ?_, httl', by simp, hwindow'⟩ <;> dsimp only <;> omega

/-! ## One challenge -/

/-- A `Challenge`, as it is handed out. -/
structure IssuedChallenge where
  seed : JsString
  difficulty : Nat
  exp : ℚ
  sig : JsString
  deriving DecidableEq

variable (cfg : DifficultyConfig)

/-- The seed: half of a digest over the clock, `Math.random()` and the client. -/
def seedOf (random : JsString) (now : ℚ) (ipHash : JsString) : JsString :=
  (encodeHex (cfg.pow.sha256
    (cfg.pow.numberText now ++ js ":" ++ random ++ js ":" ++ ipHash)).val).take 32

/-- `issueChallenge`. `random` is the text of `Math.random()`. -/
def issueChallenge (random : JsString) (ipHash : JsString) (subnetHash : Option JsString) (now : ℚ)
    (w : PowWindows) : IssuedChallenge × PowWindows :=
  let (difficulty, w) := difficultyFor cfg ipHash subnetHash now w
  let seed := seedOf cfg random now ipHash
  let exp := unixSeconds now + ttlSecondsFor difficulty cfg.baseBits cfg.ttlSeconds
  (⟨seed, difficulty, exp, sign cfg.pow seed difficulty exp ipHash⟩, w)

/-! ## The life of a process -/

inductive PowEvent
  | issue (random ipHash : JsString) (subnetHash : Option JsString)
  /-- A solution whose signature is ours was looked at. -/
  | attempt (ipHash : JsString) (subnetHash : Option JsString)

/-- A challenge that was issued, and to whom. -/
structure Issued where
  ipHash : JsString
  issuedAt : ℚ
  challenge : IssuedChallenge

structure PowProcess where
  windows : PowWindows
  issued : List Issued

def PowProcess.start : PowProcess := ⟨.new, []⟩

/-- One request, at its instant of the clock. -/
def powStep (p : PowProcess) (e : ℚ × PowEvent) : PowProcess :=
  match e.2 with
  | .issue random ipHash subnetHash =>
      let (challenge, windows) := issueChallenge cfg random ipHash subnetHash e.1 p.windows
      ⟨windows, p.issued ++ [⟨ipHash, e.1, challenge⟩]⟩
  | .attempt ipHash subnetHash => { p with windows := recordRequest cfg ipHash subnetHash e.1 p.windows }

def powRun (es : List (ℚ × PowEvent)) : PowProcess := es.foldl (powStep cfg) .start

theorem powRun_snoc (es : List (ℚ × PowEvent)) (e : ℚ × PowEvent) :
    powRun cfg (es ++ [e]) = powStep cfg (powRun cfg es) e := by
  simp [powRun]

variable {cfg}

/-- Whatever was issued came out of `issueChallenge`, on some windows. -/
theorem issued_of_powRun {es : List (ℚ × PowEvent)} {i : Issued} (h : i ∈ (powRun cfg es).issued) :
    ∃ random subnetHash w, (i.issuedAt, .issue random i.ipHash subnetHash) ∈ es ∧
      (issueChallenge cfg random i.ipHash subnetHash i.issuedAt w).1 = i.challenge := by
  induction es using List.reverseRecOn with
  | nil => cases h
  | append_singleton es e ih =>
      rw [powRun_snoc] at h
      obtain ⟨t, ev⟩ := e
      cases ev with
      | attempt ipHash subnetHash =>
          obtain ⟨random, subnetHash, w, hmem, hi⟩ := ih h
          exact ⟨random, subnetHash, w, List.mem_append_left _ hmem, hi⟩
      | issue random ipHash subnetHash =>
          rcases List.mem_append.mp h with hold | hnew
          · obtain ⟨random, subnetHash, w, hmem, hi⟩ := ih hold
            exact ⟨random, subnetHash, w, List.mem_append_left _ hmem, hi⟩
          · rw [List.mem_singleton] at hnew
            subst hnew
            exact ⟨random, subnetHash, (powRun cfg es).windows, by simp, rfl⟩

/-- The difficulty is what three counts give, whatever the windows hold. -/
theorem difficultyFor_counts (ipHash : JsString) (subnetHash : Option JsString) (now : ℚ)
    (w : PowWindows) :
    ∃ mine range all, (difficultyFor cfg ipHash subnetHash now w).1 = difficultyOf cfg mine range all := by
  unfold difficultyFor
  dsimp only
  split
  · exact ⟨_, _, _, rfl⟩
  · exact ⟨_, _, _, rfl⟩

end ZcashFaucet.Pow
