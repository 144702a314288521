/-
ZcashFaucet.Reserve.Decide — the rules of the refill loop:
`reserve/decide.ts` and `reserve/stepFailure.ts`.

When to be refilling, whether coinbase is worth a sweep of its own,
whether a tick may enqueue a step, and what a step that threw means. The
loop owns the state, these own the rules. `classifySweep` only words a
log line and is left out.
-/
import Mathlib.Data.Rat.Floor
import ZcashFaucet.Lib.JsString

namespace ZcashFaucet.Reserve

open Lib

/-! ## Hysteresis -/

structure ReserveLevels where
  lowZat : Int
  targetZat : Int

/-- The next value of `refilling`. A balance that cannot be read holds it. -/
def decideRefilling (refilling : Bool) (spendableZat : Option Int) (levels : ReserveLevels) : Bool :=
  match spendableZat with
  | none => refilling
  | some z => if z < levels.lowZat then true else if levels.targetZat ≤ z then false else refilling

/-- The first value of `refilling`, `none` while it is undecided. -/
def initialRefilling (spendableZat : Option Int) (levels : ReserveLevels) : Option Bool :=
  spendableZat.map fun z => decide (z < levels.targetZat)

/-! ## Starting a step -/

def shouldStartStep (refilling harvesting canAct stepInFlight : Bool) (queueDepth : Int) : Bool :=
  (refilling || harvesting) && canAct && !stepInFlight && decide (queueDepth = 0)

def shouldHarvest (spendableKnown : Bool) (knownRemainingUTXOs : Option ℚ) (minUTXOs : ℚ)
    (lastSweepMoved : Bool) (msSinceLastHarvest : Option ℚ) (intervalMs : ℚ) : Bool :=
  if intervalMs ≤ 0 then false
  else if !spendableKnown then false
  else if lastSweepMoved && knownRemainingUTXOs.any fun n => decide (minUTXOs ≤ n) then true
  else msSinceLastHarvest.all fun ms => decide (intervalMs ≤ ms)

/-- User traffic goes first: a step is started on an idle queue only. -/
theorem depth_of_shouldStartStep {refilling harvesting canAct stepInFlight : Bool} {queueDepth : Int}
    (h : shouldStartStep refilling harvesting canAct stepInFlight queueDepth = true) :
    queueDepth = 0 := by
  simp only [shouldStartStep, Bool.and_eq_true, decide_eq_true_eq] at h
  exact h.2

/-! ## A step that threw -/

inductive FailureOutcome
  | waiting
  | resyncing
  | error
  deriving DecidableEq, Repr

/-- NOTHING_TO_SHIELD, with the groups of its second pattern written out. -/
def nothingToShield : List JsString :=
  [js "insufficient balance",
    js "no coinbase ", js "no utxo ", js "no utxos ",
    js "no spendable coinbase ", js "no spendable utxo ", js "no spendable utxos "]

/-- RESYNCING, with its character class written out. -/
def resyncingPatterns : List JsString :=
  [js "recovering from a chain reorganisation", js "recovering from a chain reorganization"]

def classifyStepFailure (message : JsString) : FailureOutcome :=
  if resyncingPatterns.any fun p => containsFolded p message then .resyncing
  else if nothingToShield.any fun p => containsFolded p message then .waiting
  else .error

example : classifyStepFailure (js "Insufficient balance (have 4200, need 10000 including fee)") =
    .waiting := by decide +kernel

/-- MAX_BACKOFF_TICKS. -/
def maxBackoffTicks : Nat := 20

def backoffTicks (consecutiveFailures : Nat) : Nat :=
  match consecutiveFailures with
  | 0 => 0
  | n + 1 => min maxBackoffTicks (2 ^ n)

def shouldAttempt (consecutiveFailures ticksSinceLastAttempt : Nat) : Bool :=
  decide (backoffTicks consecutiveFailures ≤ ticksSinceLastAttempt)

end ZcashFaucet.Reserve
