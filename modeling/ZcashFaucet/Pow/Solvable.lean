/-
ZcashFaucet.Pow.Solvable — whether a challenge can be answered in time.

A challenge is solvable when a slow browser needs at most half of the
challenge's life for it. The ceiling of `powBudget.ts` walks up from the
base and stops before the first difficulty that is not; where the base is
not, it stays at the base, so that something is issued. `solvable_issued`
says what that makes of the challenges of a process.
-/
import ZcashFaucet.Lib.Decimal
import ZcashFaucet.Pow.ChallengeTheorems
import ZcashFaucet.Pow.Issue
import Mathlib.Tactic.NormNum
import Mathlib.Tactic.Linarith

namespace ZcashFaucet.Pow

open Lib

/-- A slow browser solves `bits` in its share of the life they are given. -/
def Solvable (baseBits : Nat) (ttlSeconds : ℚ) (bits : Nat) : Prop :=
  solveSecondsFor bits ≤ ttlSecondsFor bits baseBits ttlSeconds * solveBudgetFraction

instance (baseBits : Nat) (ttlSeconds : ℚ) (bits : Nat) : Decidable (Solvable baseBits ttlSeconds bits) :=
  inferInstanceAs (Decidable (_ ≤ _))

/-- How long a challenge lives, from the second it was issued in. -/
def Issued.lifetime (i : Issued) : ℚ := i.challenge.exp - unixSeconds i.issuedAt

/-- The least that a configuration asks of anybody. -/
def leastBits (cfg : DifficultyConfig) : Nat := min cfg.baseBits cfg.maxBits

/-! ## The walk -/

variable {baseBits : Nat} {ttlSeconds : ℚ}

theorem le_ceilingFrom (left bits best : Nat) (h : best ≤ bits) :
    best ≤ ceilingFrom baseBits ttlSeconds left bits best := by
  induction left generalizing bits best with
  | zero => exact le_rfl
  | succ left ih =>
      rw [ceilingFrom]
      split
      · exact le_rfl
      · exact h.trans (ih (bits + 1) bits (Nat.le_succ bits))

/-- The walk moves on only over what is solvable. -/
theorem solvable_of_le_ceilingFrom {left bits best b : Nat} (hlow : bits ≤ b) (hbest : best < b)
    (h : b ≤ ceilingFrom baseBits ttlSeconds left bits best) : Solvable baseBits ttlSeconds b := by
  induction left generalizing bits best with
  | zero => exact absurd (show b ≤ best from h) (not_le.mpr hbest)
  | succ left ih =>
      rw [ceilingFrom] at h
      split at h
      case isTrue => exact absurd h (not_le.mpr hbest)
      case isFalse hsolve =>
        rcases Nat.eq_or_lt_of_le hlow with heq | hlt
        · exact heq ▸ not_lt.mp hsolve
        · exact ih hlt hlt h

theorem le_solvableCeilingBits : baseBits ≤ solvableCeilingBits baseBits ttlSeconds :=
  le_ceilingFrom _ _ _ le_rfl

theorem solvable_of_le_ceiling {b : Nat} (hbase : baseBits < b)
    (h : b ≤ solvableCeilingBits baseBits ttlSeconds) : Solvable baseBits ttlSeconds b :=
  solvable_of_le_ceilingFrom hbase.le hbase h

/-- A base that is not solvable is where the walk ends. -/
theorem ceiling_of_not_solvable (h : ¬ Solvable baseBits ttlSeconds baseBits) :
    solvableCeilingBits baseBits ttlSeconds = baseBits := by
  rw [solvableCeilingBits]
  cases 41 - baseBits with
  | zero => rfl
  | succ left => rw [ceilingFrom, if_pos (not_le.mp h)]

/-! ## What is issued -/

variable {cfg : DifficultyConfig}

theorem leastBits_le_difficultyOf (mine range all : Nat) :
    leastBits cfg ≤ difficultyOf cfg mine range all := by
  have hceiling : cfg.baseBits ≤ solvableCeilingBits cfg.baseBits cfg.ttlSeconds := le_solvableCeilingBits
  unfold leastBits difficultyOf ceilingBits wantedBits
  omega

theorem difficultyOf_le_ceiling (mine range all : Nat) :
    difficultyOf cfg mine range all ≤ cfg.maxBits ∧
      difficultyOf cfg mine range all ≤ solvableCeilingBits cfg.baseBits cfg.ttlSeconds := by
  unfold difficultyOf ceilingBits
  omega

/-- Up to the base, every challenge lives equally long. -/
theorem solvable_least_iff :
    Solvable cfg.baseBits cfg.ttlSeconds (leastBits cfg) ↔
      (2 : ℚ) ^ leastBits cfg / 100000 ≤ cfg.ttlSeconds / 2 := by
  rw [Solvable, ttlSecondsFor, if_pos (show leastBits cfg ≤ cfg.baseBits from min_le_left _ _), solveSecondsFor,
    slowBrowserHashesPerSec, solveBudgetFraction, mul_one_div]

/-- What three counts ask for is solvable where the least is, and nothing
but the least where it is not. -/
theorem difficultyOf_cases (mine range all : Nat) :
    Solvable cfg.baseBits cfg.ttlSeconds (difficultyOf cfg mine range all) ∨
      difficultyOf cfg mine range all = leastBits cfg := by
  obtain ⟨hmax, hceiling⟩ := @difficultyOf_le_ceiling cfg mine range all
  by_cases hbase : cfg.baseBits < difficultyOf cfg mine range all
  · exact .inl (solvable_of_le_ceiling hbase hceiling)
  · have hleast := @leastBits_le_difficultyOf cfg mine range all
    refine .inr ?_
    unfold leastBits at hleast ⊢
    omega

theorem difficultyOf_of_not_solvable (h : ¬ Solvable cfg.baseBits cfg.ttlSeconds (leastBits cfg))
    (mine range all : Nat) : difficultyOf cfg mine range all = leastBits cfg := by
  have hleast := @leastBits_le_difficultyOf cfg mine range all
  obtain ⟨hmax, hceiling⟩ := @difficultyOf_le_ceiling cfg mine range all
  rcases Nat.le_total cfg.baseBits cfg.maxBits with hbm | hmb
  · have hmin : leastBits cfg = cfg.baseBits := min_eq_left hbm
    rw [hmin] at h
    rw [ceiling_of_not_solvable h] at hceiling
    omega
  · have hmin : leastBits cfg = cfg.maxBits := min_eq_right hmb
    omega

/-- A challenge of a process lives as long as its difficulty gives it, and
the difficulty is what three counts give. -/
theorem issued_difficulty {es : List (ℚ × PowEvent)} {i : Issued} (h : i ∈ (powRun cfg es).issued) :
    (∃ mine range all, i.challenge.difficulty = difficultyOf cfg mine range all) ∧
      i.lifetime = ttlSecondsFor i.challenge.difficulty cfg.baseBits cfg.ttlSeconds := by
  obtain ⟨random, subnetHash, w, _, hi⟩ := issued_of_powRun h
  have hdifficulty : i.challenge.difficulty =
      (difficultyFor cfg i.ipHash subnetHash i.issuedAt w).1 := by rw [← hi]; rfl
  have hexp : i.challenge.exp = unixSeconds i.issuedAt +
      ttlSecondsFor i.challenge.difficulty cfg.baseBits cfg.ttlSeconds := by rw [← hi]; rfl
  obtain ⟨mine, range, all, hcounts⟩ := @difficultyFor_counts cfg i.ipHash subnetHash i.issuedAt w
  exact ⟨⟨mine, range, all, hdifficulty.trans hcounts⟩, by rw [Issued.lifetime, hexp]; ring⟩

theorem solvable_iff_lifetime {es : List (ℚ × PowEvent)} {i : Issued} (h : i ∈ (powRun cfg es).issued) :
    Solvable cfg.baseBits cfg.ttlSeconds i.challenge.difficulty ↔
      (2 : ℚ) ^ i.challenge.difficulty / 100000 ≤ i.lifetime / 2 := by
  rw [(issued_difficulty h).2, Solvable, solveSecondsFor, slowBrowserHashesPerSec, solveBudgetFraction,
    mul_one_div]

/-- **Where the least difficulty of a configuration is solvable in half of
its life, every challenge is, after whatever attempts. Where it is not,
every challenge asks for exactly that least difficulty.** -/
theorem solvable_issued {es : List (ℚ × PowEvent)} {i : Issued} (h : i ∈ (powRun cfg es).issued) :
    ((2 : ℚ) ^ leastBits cfg / 100000 ≤ cfg.ttlSeconds / 2 →
      (2 : ℚ) ^ i.challenge.difficulty / 100000 ≤ i.lifetime / 2) ∧
    (¬ (2 : ℚ) ^ leastBits cfg / 100000 ≤ cfg.ttlSeconds / 2 →
      i.challenge.difficulty = leastBits cfg) := by
  obtain ⟨mine, range, all, hcounts⟩ := (issued_difficulty h).1
  rw [← solvable_iff_lifetime h, ← solvable_least_iff, hcounts]
  constructor
  · intro hleast
    rcases @difficultyOf_cases cfg mine range all with hsolvable | heq
    · exact hsolvable
    · exact heq ▸ hleast
  · intro hleast
    exact difficultyOf_of_not_solvable hleast mine range all

/-! ## A base of 26 bits -/

/-- The stock configuration with another FAUCET_POW_BITS. -/
def stockPowAt (baseBits : Nat) : DifficultyConfig where
  pow := { hashingPow with baseBits := baseBits, maxBits := 26 }
  baseBits := baseBits
  maxBits := 26
  escalateBits := 2
  ttlSeconds := 600
  reqWindowMs := 3600000
  base_eq := rfl
  max_eq := rfl

/-- The environment that sets FAUCET_POW_BITS and nothing else. -/
def envAt (baseBits : Nat) : Env where
  raw := fun name => if name = "FAUCET_POW_BITS" then some (decimal baseBits) else none
  number := fun s => some (decimalValue s)

/-- A visitor who comes for the first time, and once more after a failed try. -/
def twoVisits : List (ℚ × PowEvent) :=
  [(1800000000000, .issue (js "0.25") (js "visitor") (some (js "range"))),
   (1800000060000, .attempt (js "visitor") (some (js "range"))),
   (1800000061000, .issue (js "0.5") (js "visitor") (some (js "range")))]

theorem solvable_issued_twoVisits :
    (powRun (stockPowAt 20) twoVisits).issued.map (fun i => i.challenge.difficulty) = [20, 22] ∧
      ∀ i ∈ (powRun (stockPowAt 20) twoVisits).issued,
        (2 : ℚ) ^ i.challenge.difficulty / 100000 ≤ i.lifetime / 2 :=
  ⟨by decide +kernel, fun _ hi => (solvable_issued hi).1 (by norm_num [leastBits, stockPowAt])⟩

/-- At 26 bits a first visit is asked for 671 seconds of work, and given 600. -/
theorem base_bits_unsolvable :
    readPowNumbers (envAt 26) = .ok (stockPowAt 26).numbers ∧ (stockPowAt 26).numbers.Admitted ∧
      ∃ i ∈ (powRun (stockPowAt 26) twoVisits).issued,
        i.challenge.difficulty = 26 ∧ i.lifetime = 600 ∧
          ¬ (2 : ℚ) ^ i.challenge.difficulty / 100000 ≤ i.lifetime / 2 ∧
          i.lifetime < (2 : ℚ) ^ i.challenge.difficulty / 100000 := by
  have hread : readPowNumbers (envAt 26) = .ok (stockPowAt 26).numbers := by decide +kernel
  refine ⟨hread, readPowNumbers_admitted hread, ?_⟩
  have hfirst : (powRun (stockPowAt 26) twoVisits).issued.head?.map
      (fun i => (i.challenge.difficulty, i.lifetime)) = some (26, 600) := by decide +kernel
  obtain ⟨i, hi, heq⟩ := Option.map_eq_some_iff.mp hfirst
  have hd : i.challenge.difficulty = 26 := congrArg Prod.fst heq
  have hl : i.lifetime = 600 := congrArg Prod.snd heq
  refine ⟨i, List.mem_of_mem_head? hi, hd, hl, ?_, ?_⟩
  · rw [hd, hl]
    norm_num
  · rw [hd, hl]
    norm_num

end ZcashFaucet.Pow
