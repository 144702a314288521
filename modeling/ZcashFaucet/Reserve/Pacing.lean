/-
ZcashFaucet.Reserve.Pacing — what paces the reserve loop, as its history
shows it.

`PacedRun` is the loop with a reader beside it, who notes the balances, the
steps that were begun and what each of them answered, and counts the ticks
that a backoff held back. The rules are stated over these notes. They name
no field of `Reconciler`: that its fields come to the same is
`Reserve.PacingTheorems`.
-/
import ZcashFaucet.Reserve.Reconciler

namespace ZcashFaucet.Reserve

open Lib Zcash

/-! ## What is noted -/

/-- A step that the loop began. -/
structure Attempt where
  beganAt : ℚ
  /-- Begun for the coinbase alone, not for a short balance. -/
  harvestOnly : Bool
  /-- The ticks since the one before that a backoff held back. -/
  waited : Nat
  /-- What its promise settled with, `none` until it has. -/
  answer : Option (Except JsString StepOutcome)

namespace Attempt

def threw (a : Attempt) : Bool :=
  match a.answer with
  | some (.error _) => true
  | _ => false

def wasRefused (a : Attempt) : Bool :=
  match a.answer with
  | some (.ok outcome) => outcome.refused.isSome
  | _ => false

/-- It moved funds and reported at least `harvestMinUTXOs` still there. -/
def leftBacklog (cfg : ReserveConfig) (a : Attempt) : Bool :=
  match a.answer with
  | some (.ok outcome) => outcome.moved && outcome.remainingUTXOs.any fun n => decide (cfg.harvestMinUTXOs ≤ n)
  | _ => false

end Attempt

/-- Undecided before the first readable balance, which settles it against
the target; then the band between the levels holds what was decided. -/
def hysteresis (levels : ReserveLevels) : List Int → Option Bool
  | [] => none
  | first :: later =>
      some (later.foldl (fun on z => if z < levels.lowZat then true else if levels.targetZat ≤ z then false else on)
        (decide (first < levels.targetZat)))

/-- The last of the steps that was not refused left a backlog. -/
def draining (cfg : ReserveConfig) (attempts : List Attempt) : Bool :=
  (attempts.filter fun a => !a.wasRefused).getLast?.any (Attempt.leftBacklog cfg)

/-- When the last harvest that was not refused began. -/
def lastHarvest (attempts : List Attempt) : Option ℚ :=
  (attempts.filter fun a => a.harvestOnly && !a.wasRefused).getLast?.map Attempt.beganAt

/-- How many of the steps, counted back from the last, threw. -/
def throwsInARow (attempts : List Attempt) : Nat := (attempts.reverse.takeWhile Attempt.threw).length

def ReserveConfig.harvestIntervalMs (cfg : ReserveConfig) : ℚ := cfg.harvestIntervalSeconds * 1000

def HarvestDue (cfg : ReserveConfig) (now : ℚ) (attempts : List Attempt) : Prop :=
  0 < cfg.harvestIntervalMs ∧
    (draining cfg attempts = true ∨ ∀ t ∈ lastHarvest attempts, cfg.harvestIntervalMs ≤ now - t)

instance (cfg : ReserveConfig) (now : ℚ) (attempts : List Attempt) : Decidable (HarvestDue cfg now attempts) := by
  unfold HarvestDue
  infer_instance

structure PaceHistory where
  /-- The balances that could be read. -/
  readings : List Int
  attempts : List Attempt
  /-- The ticks since the last attempt that a backoff held back. -/
  waited : Nat

/-- A tick that reads `spendableZat` would start a step, were it not for
the backoff. -/
structure Eligible (cfg : ReserveConfig) (s : ReserveRun) (h : PaceHistory) (spendableZat : Option Int) : Prop where
  permitted : cfg.shieldCoinbase = true
  idle : s.queue.depth = 0
  landed : ∀ p ∈ s.promises, p.stage = .finished
  wanted : hysteresis cfg.levels (h.readings ++ spendableZat.toList) = some true ∨
    spendableZat.isSome = true ∧ HarvestDue cfg s.now h.attempts

theorem eligible_iff {cfg : ReserveConfig} {s : ReserveRun} {h : PaceHistory} {spendableZat : Option Int} :
    Eligible cfg s h spendableZat ↔
      cfg.shieldCoinbase = true ∧ s.queue.depth = 0 ∧ (∀ p ∈ s.promises, p.stage = .finished) ∧
        (hysteresis cfg.levels (h.readings ++ spendableZat.toList) = some true ∨
          spendableZat.isSome = true ∧ HarvestDue cfg s.now h.attempts) :=
  ⟨fun e => ⟨e.permitted, e.idle, e.landed, e.wanted⟩, fun ⟨a, b, c, d⟩ => ⟨a, b, c, d⟩⟩

instance (cfg : ReserveConfig) (s : ReserveRun) (h : PaceHistory) (spendableZat : Option Int) :
    Decidable (Eligible cfg s h spendableZat) :=
  decidable_of_iff _ eligible_iff.symm

/-! ## The loop with its reader -/

structure PacedRun where
  run : ReserveRun
  history : PaceHistory

namespace PacedRun

def new (maxPending : Nat) (now : ℚ) : PacedRun := ⟨.new maxPending now, ⟨[], [], 0⟩⟩

/-- The notes of one event, which took the loop from `s` to `s'`. -/
def note (cfg : ReserveConfig) (s s' : ReserveRun) (h : PaceHistory) : ReserveEvent → PaceHistory
  | .balance spendableZat =>
      let readings := h.readings ++ spendableZat.toList
      if s.promises.length < s'.promises.length then
        { readings := readings
          attempts := h.attempts ++
            [⟨s.now, decide (hysteresis cfg.levels readings ≠ some true), h.waited, none⟩]
          waited := 0 }
      else if Eligible cfg s h spendableZat then { h with readings := readings, waited := h.waited + 1 }
      else { h with readings := readings }
  | .react k =>
      { h with
        attempts := h.attempts.modify k fun a =>
          { a with answer := s.promises[k]?.bind (StepPromise.settledWith cfg s.queue) } }
  | _ => h

def step (cfg : ReserveConfig) (w : PacedRun) (ev : ReserveEvent) : Option PacedRun :=
  (w.run.step cfg ev).map fun s' => ⟨s', note cfg w.run s' w.history ev⟩

end PacedRun

/-- What paces the loop, in a state of a run. -/
structure WellPaced (cfg : ReserveConfig) (w : PacedRun) : Prop where
  /-- Only a tick begins a step, on a queue that has settled everything. -/
  starts : ∀ ev s', w.run.step cfg ev = some s' → w.run.promises.length < s'.promises.length →
    (∃ spendableZat, ev = .balance spendableZat ∧ Eligible cfg w.run w.history spendableZat) ∧
      ∀ j ∈ w.run.queue.jobs, j.isSettled = true
  /-- Harvests keep the interval, unless a backlog is being drained. -/
  harvests : ∀ before a between b after, w.history.attempts = before ++ a :: between ++ b :: after →
    a.harvestOnly = true → a.wasRefused = false → b.harvestOnly = true → b.wasRefused = false →
      b.beganAt - a.beganAt < cfg.harvestIntervalMs → draining cfg (before ++ a :: between) = true
  /-- After `k` throws an attempt is at the earliest that tick of those
  that would have started a step. -/
  backoff : ∀ before a after k, w.history.attempts = before ++ a :: after → throwsInARow before = k + 1 →
    min 20 (2 ^ k) ≤ a.waited + 1

end ZcashFaucet.Reserve
