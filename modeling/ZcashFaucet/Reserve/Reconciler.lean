/-
ZcashFaucet.Reserve.Reconciler — the reserve loop of
`reserve/reconciler.ts` on the send queue it shares with the drips.

A tick reads the balance, decides, and enqueues at most one refill step.
It has one await, the balance, so it is two events: `tick` enters it and
`balance` is everything after the answer. The enqueued step's promise has
reactions of its own (`then` or `catch`, later `finally`), which run once
the queue has answered, with its own outcome or with a deadline's error.
Between any two of these the queue and the drips do what they like.

What only words a log line is left out, and so is the timer that calls
`tick`: a tick may come at any moment.
-/
import ZcashFaucet.Reserve.Decide
import ZcashFaucet.Zcash.Gates
import ZcashFaucet.Zcash.Queue

namespace ZcashFaucet.Reserve

open Lib Zcash

structure ReserveConfig where
  levels : ReserveLevels
  shieldCoinbase : Bool
  harvestMinUTXOs : ℚ
  harvestIntervalSeconds : ℚ
  sendTaskDeadlineMs : ℚ
  /-- The text a template string makes of a number. -/
  numberText : ℚ → JsString

/-! ## What a step answers -/

/-- `refused`: the step declined to broadcast. -/
structure Refusal where
  state : ChainFreshness
  reason : JsString
  lag : Option ClaimedHeight

structure StepOutcome where
  moved : Bool
  refused : Option Refusal
  remainingUTXOs : Option ℚ

structure StepFailure where
  outcome : FailureOutcome
  reason : JsString

/-! ## The loop's own state -/

/-- The fields of `ReserveReconciler`. -/
structure Reconciler where
  refilling : Option Bool
  spendableZat : Option Int
  stepInFlight : Bool
  ticking : Bool
  blindTicks : Nat
  emptySweeps : Nat
  shieldRefusals : Nat
  forbiddenTicks : Nat
  failedSteps : Nat
  lastFailure : Option StepFailure
  ticksSinceAttempt : Nat
  lastRefusal : Option Refusal
  remainingUTXOs : Option ℚ
  lastHarvestAt : Option ℚ
  lastSweepMoved : Bool
  movedWithoutCount : Nat
  harvesting : Bool

namespace Reconciler

def new : Reconciler where
  refilling := none
  spendableZat := none
  stepInFlight := false
  ticking := false
  blindTicks := 0
  emptySweeps := 0
  shieldRefusals := 0
  forbiddenTicks := 0
  failedSteps := 0
  lastFailure := none
  ticksSinceAttempt := 0
  lastRefusal := none
  remainingUTXOs := none
  lastHarvestAt := none
  lastSweepMoved := true
  movedWithoutCount := 0
  harvesting := false

/-- What a tick notes of the balance. -/
def observe (cfg : ReserveConfig) (spendableZat : Option Int) (r : Reconciler) : Reconciler :=
  let refilling := match r.refilling with
    | none => initialRefilling spendableZat cfg.levels
    | some refilling => some (decideRefilling refilling spendableZat cfg.levels)
  { r with
    spendableZat := spendableZat
    blindTicks := if spendableZat.isNone then r.blindTicks + 1 else 0
    refilling := refilling
    forbiddenTicks :=
      if refilling = some true ∧ cfg.shieldCoinbase = false then r.forbiddenTicks + 1 else 0 }

def harvestDue (cfg : ReserveConfig) (now : ℚ) (r : Reconciler) : Bool :=
  shouldHarvest r.spendableZat.isSome r.remainingUTXOs cfg.harvestMinUTXOs r.lastSweepMoved
    (r.lastHarvestAt.map (now - ·)) (cfg.harvestIntervalSeconds * 1000)

/-- The rest of a tick up to the queue, and whether it starts a step. -/
def decideStep (cfg : ReserveConfig) (now : ℚ) (queueDepth : Int) (r : Reconciler) :
    Reconciler × Bool :=
  let harvest := r.harvestDue cfg now
  if shouldStartStep (r.refilling == some true) harvest cfg.shieldCoinbase r.stepInFlight queueDepth then
    let harvesting := harvest && r.refilling != some true
    let ticksSinceAttempt := r.ticksSinceAttempt + 1
    if shouldAttempt r.failedSteps ticksSinceAttempt then
      ({ r with
          harvesting := harvesting
          ticksSinceAttempt := 0
          stepInFlight := true
          lastHarvestAt := if harvesting then some now else r.lastHarvestAt },
        true)
    else ({ r with harvesting := false, ticksSinceAttempt := ticksSinceAttempt }, false)
  else
    -- a harvest that is still on the wire keeps its flag
    ({ r with harvesting := r.harvesting && r.stepInFlight }, false)

/-- The `then` of a step. -/
def fulfilled (harvestClockBefore : Option ℚ) (outcome : StepOutcome) (r : Reconciler) : Reconciler :=
  let r := { r with failedSteps := 0, lastFailure := none }
  match outcome.refused with
  | some refused =>
      { r with
        lastHarvestAt := harvestClockBefore
        shieldRefusals := r.shieldRefusals + 1
        lastRefusal := some refused }
  | none =>
      let r :=
        { r with
          remainingUTXOs := outcome.remainingUTXOs
          lastSweepMoved := outcome.moved
          shieldRefusals := 0
          lastRefusal := none }
      if outcome.moved then
        { r with
          emptySweeps := 0
          movedWithoutCount := if outcome.remainingUTXOs.isNone then r.movedWithoutCount + 1 else 0 }
      else { r with emptySweeps := r.emptySweeps + 1 }

/-- The `catch` of a step. -/
def rejected (reason : JsString) (r : Reconciler) : Reconciler :=
  { r with
    failedSteps := r.failedSteps + 1
    lastFailure := some ⟨classifyStepFailure reason, reason⟩
    lastSweepMoved := false }

end Reconciler

/-! ## The loop, the queue and the drips -/

inductive SendTask
  | drip
  | refill
  deriving DecidableEq, Repr

/-- What a task settles with. A drip's result goes to its own caller. -/
inductive SendResult
  | drip
  | step (out : Except JsString StepOutcome)

inductive Stage
  | pending
  | handled
  | finished
  deriving DecidableEq, Repr

/-- The promise of one enqueued step: the job it waits for, `none` if the
queue was full, and how far its reactions have come. -/
structure StepPromise where
  harvestClockBefore : Option ℚ
  job : Option Nat
  stage : Stage

structure ReserveRun where
  queue : SerialQueue SendTask SendResult
  now : ℚ
  reconciler : Reconciler
  promises : List StepPromise

def ReserveRun.new (maxPending : Nat) (now : ℚ) : ReserveRun := ⟨.new maxPending, now, .new, []⟩

def queueFullText : JsString := js "Faucet is busy: too many sends queued. Try again in a moment."

def taskDeadlineText (cfg : ReserveConfig) : JsString :=
  js "Send did not settle within " ++ cfg.numberText cfg.sendTaskDeadlineMs ++
    js "ms. Its outcome is unknown."

/-- What the promise of a step has settled with, if it has. -/
def StepPromise.settledWith (cfg : ReserveConfig) (q : SerialQueue SendTask SendResult)
    (p : StepPromise) : Option (Except JsString StepOutcome) :=
  match p.job with
  | none => some (.error queueFullText)
  | some i =>
      match q.jobs[i]?.bind Job.answer with
      | some (.own (.step out)) => some out
      | some .deadline => some (.error (taskDeadlineText cfg))
      | some .queueFull => some (.error queueFullText)
      | _ => none

inductive ReserveEvent
  | advance (ms : ℚ)
  | tick
  | balance (spendableZat : Option Int)
  | drip
  | start (i : Nat)
  | dripSettles (i : Nat)
  | stepSettles (i : Nat) (out : Except JsString StepOutcome)
  | deadline (i : Nat)
  | react (k : Nat)
  | cleanup (k : Nat)

namespace ReserveRun

/-- `tick` after its await. -/
def balance (cfg : ReserveConfig) (spendableZat : Option Int) (s : ReserveRun) : ReserveRun :=
  let observed := s.reconciler.observe cfg spendableZat
  let decided := observed.decideStep cfg s.now s.queue.depth
  let reconciler := { decided.1 with ticking := false }
  if decided.2 then
    match s.queue.run .refill cfg.sendTaskDeadlineMs with
    | some queue =>
        { s with
          queue := queue
          reconciler := reconciler
          promises := s.promises ++ [⟨observed.lastHarvestAt, some s.queue.jobs.length, .pending⟩] }
    | none =>
        { s with
          reconciler := reconciler
          promises := s.promises ++ [⟨observed.lastHarvestAt, none, .pending⟩] }
  else { s with reconciler := reconciler }

/-- The `then` or the `catch` of a step's promise. -/
def react (cfg : ReserveConfig) (k : Nat) (s : ReserveRun) : Option ReserveRun :=
  match s.promises[k]? with
  | some p =>
      if p.stage = .pending then
        (p.settledWith cfg s.queue).map fun out =>
          { s with
            reconciler := match out with
              | .ok outcome => s.reconciler.fulfilled p.harvestClockBefore outcome
              | .error reason => s.reconciler.rejected reason
            promises := s.promises.modify k fun p => { p with stage := .handled } }
      else none
  | none => none

/-- The `finally` of a step's promise. -/
def cleanup (k : Nat) (s : ReserveRun) : Option ReserveRun :=
  if s.promises[k]?.any fun p => p.stage == .handled then
    some
      { s with
        reconciler := { s.reconciler with stepInFlight := false }
        promises := s.promises.modify k fun p => { p with stage := .finished } }
  else none

def step (cfg : ReserveConfig) (s : ReserveRun) : ReserveEvent → Option ReserveRun
  | .advance ms => if 0 ≤ ms then some { s with now := s.now + ms } else none
  | .tick => some { s with reconciler := { s.reconciler with ticking := true } }
  | .balance spendableZat => if s.reconciler.ticking then some (s.balance cfg spendableZat) else none
  | .drip =>
      -- a full queue refuses the drip and keeps no trace of it
      some { s with queue := (s.queue.run .drip cfg.sendTaskDeadlineMs).getD s.queue }
  | .start i => (s.queue.start i s.now).map fun queue => { s with queue := queue }
  | .dripSettles i =>
      if s.queue.jobs[i]?.any fun j => j.task == .drip then
        (s.queue.settle i .drip).map fun queue => { s with queue := queue }
      else none
  | .stepSettles i out =>
      if s.queue.jobs[i]?.any fun j => j.task == .refill then
        (s.queue.settle i (.step out)).map fun queue => { s with queue := queue }
      else none
  | .deadline i => (s.queue.fire i s.now).map fun queue => { s with queue := queue }
  | .react k => s.react cfg k
  | .cleanup k => s.cleanup k

end ReserveRun

end ZcashFaucet.Reserve
