/-
ZcashFaucet.Reserve.Panel — what `/api/status` says of the reserve: the
getter `status` of `ReserveReconciler`.

The loop counts as it goes, and a count is cleared by whatever its reaction
happens to clear. `PanelAccounts` is the same panel written down from the
history alone: the balances that were read, and what the steps answered, in
order. `reserve_panel_accounts` is that the two agree after every run.

What a streak is taken over is the point. A tick that could not read the
balance is blind and counts for that only. A throw ends no streak of
refusals, and neither of the two a streak of empty sweeps: the wallet was
not asked, so nothing was learned of the coinbase.
-/
import Mathlib.Data.List.Infix
import Mathlib.Data.List.ReduceOption
import ZcashFaucet.Reserve.PacingTheorems
import ZcashFaucet.Zcash.ZecLiteral

namespace ZcashFaucet.Reserve

open Lib Zcash

/-! ## Streaks -/

section Streak

variable {α : Type}

/-- How many of the last ones, counted back from the end, are so. -/
def streak (p : α → Bool) (xs : List α) : Nat := (xs.reverse.takeWhile p).length

theorem streak_concat (p : α → Bool) (xs : List α) (x : α) :
    streak p (xs ++ [x]) = if p x then streak p xs + 1 else 0 := by
  cases h : p x <;> simp [streak, h]

end Streak

/-! ## The panel -/

structure ReserveStatus where
  targetTaz : ℚ
  lowTaz : ℚ
  refilling : Bool
  spendableTaz : Option ℚ
  shieldCoinbase : Bool
  blindTicks : Nat
  emptySweeps : Nat
  forbiddenTicks : Nat
  shieldRefusals : Nat
  lastRefusal : Option Refusal
  remainingUTXOs : Option ℚ
  harvesting : Bool
  stepInFlight : Bool
  movedWithoutCount : Nat
  harvestAgeSeconds : Option ℤ
  harvestMinUTXOs : ℚ
  harvestIntervalSeconds : ℚ
  failedSteps : Nat
  lastFailure : Option StepFailure

def inTaz (zat : Int) : ℚ := zat / zatoshiPerTaz

/-- The getter. While the loop is undecided it is not refilling. -/
def Reconciler.status (cfg : ReserveConfig) (now : ℚ) (r : Reconciler) : ReserveStatus where
  targetTaz := inTaz cfg.levels.targetZat
  lowTaz := inTaz cfg.levels.lowZat
  refilling := r.refilling == some true
  spendableTaz := r.spendableZat.map inTaz
  shieldCoinbase := cfg.shieldCoinbase
  blindTicks := r.blindTicks
  emptySweeps := r.emptySweeps
  forbiddenTicks := r.forbiddenTicks
  shieldRefusals := r.shieldRefusals
  lastRefusal := r.lastRefusal
  remainingUTXOs := r.remainingUTXOs
  harvesting := r.harvesting
  stepInFlight := r.stepInFlight
  movedWithoutCount := r.movedWithoutCount
  harvestAgeSeconds := r.lastHarvestAt.map fun t => ⌊(now - t) / 1000⌋
  harvestMinUTXOs := cfg.harvestMinUTXOs
  harvestIntervalSeconds := cfg.harvestIntervalSeconds
  failedSteps := r.failedSteps
  lastFailure := r.lastFailure

/-! ## The history -/

/-- The balance a tick read, `some none` where it could not. -/
def ReserveEvent.read : ReserveEvent → Option (Option Int)
  | .balance spendableZat => some spendableZat
  | _ => none

abbrev Answer := Except JsString StepOutcome

def Answer.threw : Answer → Bool
  | .error _ => true
  | .ok _ => false

def Answer.failure : Answer → Option StepFailure
  | .error reason => some ⟨classifyStepFailure reason, reason⟩
  | .ok _ => none

/-- What the steps answered, in order. -/
def answers (attempts : List Attempt) : List Answer := attempts.filterMap Attempt.answer

/-- Of those, the steps that returned, the ones of them that asked the
wallet, and the ones of these that moved funds. -/
def returned (as : List Answer) : List StepOutcome := as.filterMap Except.toOption

def swept (as : List Answer) : List StepOutcome := (returned as).filter fun o => o.refused.isNone

def movedSweeps (as : List Answer) : List StepOutcome := (swept as).filter StepOutcome.moved

/-- For every tick, whether the reserve was short after it. -/
def shortage (cfg : ReserveConfig) (balances : List (Option Int)) : List Bool :=
  balances.inits.tail.map fun read => hysteresis cfg.levels read.reduceOption == some true

/-- The panel, from the balances and the attempts. -/
structure PanelAccounts (cfg : ReserveConfig) (s : ReserveRun) (attempts : List Attempt)
    (balances : List (Option Int)) (status : ReserveStatus) : Prop where
  spendable : status.spendableTaz = (balances.getLast?.bind id).map inTaz
  refilling : status.refilling = (hysteresis cfg.levels balances.reduceOption == some true)
  blind : status.blindTicks = streak Option.isNone balances
  forbidden : status.forbiddenTicks = if cfg.shieldCoinbase then 0 else streak id (shortage cfg balances)
  inFlight : status.stepInFlight = true ↔ ∃ p ∈ s.promises, p.stage ≠ .finished
  /-- While a step is on its way, for what; and never without one begun for
  the coinbase. -/
  harvesting : (status.stepInFlight = true → status.harvesting = attempts.getLast?.any Attempt.harvestOnly) ∧
    (status.harvesting = true → attempts.getLast?.any Attempt.harvestOnly = true)
  harvestAge : status.harvestAgeSeconds = (lastHarvest attempts).map fun t => ⌊(s.now - t) / 1000⌋
  failures : status.failedSteps = streak Answer.threw (answers attempts)
  lastFailure : status.lastFailure = (answers attempts).getLast?.bind Answer.failure
  refusals : status.shieldRefusals = streak (fun o => o.refused.isSome) (returned (answers attempts))
  lastRefusal : status.lastRefusal = (returned (answers attempts)).getLast?.bind StepOutcome.refused
  empties : status.emptySweeps = streak (fun o => !o.moved) (swept (answers attempts))
  remaining : status.remainingUTXOs = (swept (answers attempts)).getLast?.bind StepOutcome.remainingUTXOs
  uncounted : status.movedWithoutCount =
    streak (fun o => o.remainingUTXOs.isNone) (movedSweeps (answers attempts))

/-! ## One more answer -/

section Answers

variable (as : List Answer) (o : StepOutcome) (reason : JsString)

theorem returned_ok : returned (as ++ [.ok o]) = returned as ++ [o] := by
  simp [returned, Except.toOption]

theorem returned_error : returned (as ++ [.error reason]) = returned as := by
  simp [returned, Except.toOption]

theorem swept_refused (h : o.refused.isSome = true) : swept (as ++ [.ok o]) = swept as := by
  rw [swept, returned_ok, List.filter_append, List.filter_cons_of_neg (by simp [Option.isSome_iff_ne_none.mp h])]
  simp [swept]

theorem swept_ok (h : o.refused = none) : swept (as ++ [.ok o]) = swept as ++ [o] := by
  rw [swept, returned_ok, List.filter_append, List.filter_cons_of_pos (by simp [h])]
  simp [swept]

theorem swept_error : swept (as ++ [.error reason]) = swept as := by
  rw [swept, returned_error, swept]

end Answers

/-- What the loop keeps of the answers. -/
structure ReserveMemory where
  failedSteps : Nat
  lastFailure : Option StepFailure
  shieldRefusals : Nat
  lastRefusal : Option Refusal
  emptySweeps : Nat
  remainingUTXOs : Option ℚ
  movedWithoutCount : Nat

def Reconciler.memory (r : Reconciler) : ReserveMemory where
  failedSteps := r.failedSteps
  lastFailure := r.lastFailure
  shieldRefusals := r.shieldRefusals
  lastRefusal := r.lastRefusal
  emptySweeps := r.emptySweeps
  remainingUTXOs := r.remainingUTXOs
  movedWithoutCount := r.movedWithoutCount

def remembered (as : List Answer) : ReserveMemory where
  failedSteps := streak Answer.threw as
  lastFailure := as.getLast?.bind Answer.failure
  shieldRefusals := streak (fun o => o.refused.isSome) (returned as)
  lastRefusal := (returned as).getLast?.bind StepOutcome.refused
  emptySweeps := streak (fun o => !o.moved) (swept as)
  remainingUTXOs := (swept as).getLast?.bind StepOutcome.remainingUTXOs
  movedWithoutCount := streak (fun o => o.remainingUTXOs.isNone) (movedSweeps as)

section Recall

variable (as : List Answer) {o : StepOutcome}

theorem remembered_error (reason : JsString) :
    remembered (as ++ [.error reason]) =
      { remembered as with
        failedSteps := (remembered as).failedSteps + 1
        lastFailure := some ⟨classifyStepFailure reason, reason⟩ } := by
  simp only [remembered, movedSweeps, returned_error, swept_error, streak_concat, List.getLast?_concat]
  rfl

theorem remembered_refused {refused : Refusal} (ho : o.refused = some refused) :
    remembered (as ++ [.ok o]) =
      { remembered as with
        failedSteps := 0
        lastFailure := none
        shieldRefusals := (remembered as).shieldRefusals + 1
        lastRefusal := some refused } := by
  have hsome : o.refused.isSome = true := by rw [ho, Option.isSome_some]
  simp only [remembered, movedSweeps, returned_ok, swept_refused as o hsome, streak_concat, List.getLast?_concat,
    Option.bind_some, ho]
  rfl

theorem remembered_moved (ho : o.refused = none) (hmoved : o.moved = true) :
    remembered (as ++ [.ok o]) =
      { failedSteps := 0
        lastFailure := none
        shieldRefusals := 0
        lastRefusal := none
        emptySweeps := 0
        remainingUTXOs := o.remainingUTXOs
        movedWithoutCount := if o.remainingUTXOs.isNone then (remembered as).movedWithoutCount + 1 else 0 } := by
  have hmoves : movedSweeps (as ++ [.ok o]) = movedSweeps as ++ [o] := by
    rw [movedSweeps, swept_ok as o ho, List.filter_append, List.filter_cons_of_pos hmoved, List.filter_nil, movedSweeps]
  simp only [remembered, hmoves, returned_ok, swept_ok as o ho, streak_concat, List.getLast?_concat,
    Option.bind_some, ho, hmoved]
  rfl

theorem remembered_empty (ho : o.refused = none) (hmoved : o.moved = false) :
    remembered (as ++ [.ok o]) =
      { remembered as with
        failedSteps := 0
        lastFailure := none
        shieldRefusals := 0
        lastRefusal := none
        emptySweeps := (remembered as).emptySweeps + 1
        remainingUTXOs := o.remainingUTXOs } := by
  have hmoves : movedSweeps (as ++ [.ok o]) = movedSweeps as := by
    rw [movedSweeps, swept_ok as o ho, List.filter_append, List.filter_cons_of_neg (by simp [hmoved]), List.filter_nil,
      List.append_nil, movedSweeps]
  simp only [remembered, hmoves, returned_ok, swept_ok as o ho, streak_concat, List.getLast?_concat,
    Option.bind_some, ho, hmoved]
  rfl

end Recall

/-- The reaction to an answer remembers it. -/
theorem memory_answered {r : Reconciler} {as : List Answer} (h : r.memory = remembered as) (clock : Option ℚ)
    (out : Answer) : (r.answered clock out).memory = remembered (as ++ [out]) := by
  cases out with
  | error reason =>
    rw [remembered_error, ← h]
    rfl
  | ok o =>
    unfold Reconciler.answered Reconciler.fulfilled
    dsimp only
    cases ho : o.refused with
    | some refused =>
      rw [remembered_refused as ho, ← h]
      rfl
    | none =>
      cases hmoved : o.moved with
      | true =>
        rw [remembered_moved as ho hmoved, ← h]
        rfl
      | false =>
        rw [remembered_empty as ho hmoved, ← h]
        rfl

/-! ## What each event keeps -/

/-- The loop's own fields, from the history. -/
structure Counted (cfg : ReserveConfig) (w : PacedRun) (balances : List (Option Int)) : Prop where
  readings : w.history.readings = balances.reduceOption
  spendable : w.run.reconciler.spendableZat = balances.getLast?.bind id
  blind : w.run.reconciler.blindTicks = streak Option.isNone balances
  forbidden : w.run.reconciler.forbiddenTicks = if cfg.shieldCoinbase then 0 else streak id (shortage cfg balances)
  flying : w.run.reconciler.stepInFlight = true →
    w.run.reconciler.harvesting = w.history.attempts.getLast?.any Attempt.harvestOnly
  harvesting : w.run.reconciler.harvesting = true → w.history.attempts.getLast?.any Attempt.harvestOnly = true
  memory : w.run.reconciler.memory = remembered (answers w.history.attempts)

variable {cfg : ReserveConfig}

theorem reduceOption_snoc (balances : List (Option Int)) (z : Option Int) :
    (balances ++ [z]).reduceOption = balances.reduceOption ++ z.toList := by
  rw [List.reduceOption_append]
  cases z <;> rfl

theorem shortage_snoc (balances : List (Option Int)) (z : Option Int) :
    shortage cfg (balances ++ [z]) =
      shortage cfg balances ++ [hysteresis cfg.levels (balances ++ [z]).reduceOption == some true] := by
  have hinits : (balances ++ [z]).inits.tail = balances.inits.tail ++ [balances ++ [z]] := by
    cases balances with
    | nil => rfl
    | cons b balances => simp [List.inits_append]
  rw [shortage, hinits, List.map_append]
  rfl

/-- What a tick notes of its balance. -/
theorem counted_observe {w : PacedRun} {balances : List (Option Int)} (hw : PaceInv cfg w)
    (hc : Counted cfg w balances) (z : Option Int) :
    let r := w.run.reconciler.observe cfg z
    r.spendableZat = (balances ++ [z]).getLast?.bind id ∧ r.blindTicks = streak Option.isNone (balances ++ [z]) ∧
      r.forbiddenTicks = if cfg.shieldCoinbase then 0 else streak id (shortage cfg (balances ++ [z])) := by
  have hrefilling := hysteresis_observe z hw.refilling
  rw [hc.readings, ← reduceOption_snoc] at hrefilling
  refine ⟨?_, ?_, ?_⟩
  · rw [List.getLast?_concat]
    rfl
  · rw [streak_concat, ← hc.blind]
    rfl
  · rw [shortage_snoc, streak_concat, ← hrefilling]
    have hforbidden := hc.forbidden
    cases hshield : cfg.shieldCoinbase with
    | true => simp [Reconciler.observe, hshield]
    | false =>
      rw [hshield, if_neg Bool.false_ne_true] at hforbidden
      rw [← hforbidden, if_neg Bool.false_ne_true]
      simp only [Reconciler.observe, hshield, and_true, id_eq, beq_iff_eq]

/-- A tick that starts nothing keeps the flag of a step on its way and
clears any other. -/
theorem harvesting_of_not_eligible {w : PacedRun} (hw : PaceInv cfg w) {z : Option Int}
    (hnot : ¬ Eligible cfg w.run w.history z) :
    (w.run.balance cfg z).reconciler.harvesting =
      (w.run.reconciler.harvesting && w.run.reconciler.stepInFlight) := by
  have hstart := fun h => hnot ((shouldStartStep_iff hw z).mp h)
  unfold ReserveRun.balance Reconciler.decideStep
  dsimp only at hstart ⊢
  rw [if_neg hstart, if_neg Bool.false_ne_true]
  rfl

theorem answers_open (attempts : List Attempt) {a : Attempt} (h : a.answer = none) :
    answers (attempts ++ [a]) = answers attempts := by
  simp [answers, h]

theorem counted_balance {w : PacedRun} {balances : List (Option Int)} (hw : PaceInv cfg w)
    (hc : Counted cfg w balances) (z : Option Int) :
    Counted cfg ⟨w.run.balance cfg z, PacedRun.note cfg w.run (w.run.balance cfg z) w.history (.balance z)⟩
      (balances ++ [z]) := by
  obtain ⟨hspendable, hblind, hforbidden⟩ := counted_observe hw hc z
  have hreadings : w.history.readings ++ z.toList = (balances ++ [z]).reduceOption := by
    rw [reduceOption_snoc, hc.readings]
  cases ticked_balance hw z with
  | yields hnot harvesting ends =>
    have hflag := harvesting_of_not_eligible hw hnot
    rw [ends] at hflag
    rw [ends, PacedRun.note, if_neg (lt_irrefl _), if_neg hnot]
    refine ⟨hreadings, hspendable, hblind, hforbidden, fun hflying => ?_, fun hon => ?_, hc.memory⟩
    · dsimp only at hflag hflying ⊢
      have hkept : w.run.reconciler.stepInFlight = true := hflying
      rw [hflag, hkept, Bool.and_true, hc.flying hkept]
    · dsimp only at hflag hon ⊢
      rw [hflag, Bool.and_eq_true] at hon
      exact hc.harvesting hon.1
  | heldBack heligible ends =>
    have hlanded := (hw.phase.choose_spec.1.inFlight_false_iff).mpr heligible.landed
    rw [ends, PacedRun.note, if_neg (lt_irrefl _), if_pos heligible]
    refine ⟨hreadings, hspendable, hblind, hforbidden, fun hflying => ?_, fun hon => ?_, hc.memory⟩
    · have hkept : w.run.reconciler.stepInFlight = true := hflying
      rw [hlanded] at hkept
      cases hkept
    · cases hon
  | begins heligible hdue queue job harvesting halone ends =>
    have hlonger : w.run.promises.length <
        (w.run.promises ++ [(⟨w.run.reconciler.lastHarvestAt, job, .pending⟩ : StepPromise)]).length := by simp
    rw [ends, PacedRun.note, if_pos hlonger]
    have hlast (as : List Attempt) (a : Attempt) : (as ++ [a]).getLast?.any Attempt.harvestOnly = a.harvestOnly := by
      rw [List.getLast?_concat, Option.any_some]
    refine ⟨hreadings, hspendable, hblind, hforbidden, fun _ => ?_, fun hon => ?_, ?_⟩
    · rw [hlast]
      exact halone
    · rw [hlast]
      exact halone.symm.trans hon
    · rw [answers_open _ rfl]
      exact hc.memory

/-- A reaction is to the answer only. -/
theorem answered_kept (clock : Option ℚ) (r : Reconciler) (out : Answer) :
    (r.answered clock out).spendableZat = r.spendableZat ∧ (r.answered clock out).blindTicks = r.blindTicks ∧
      (r.answered clock out).forbiddenTicks = r.forbiddenTicks ∧
        (r.answered clock out).harvesting = r.harvesting := by
  cases out with
  | error reason => exact ⟨rfl, rfl, rfl, rfl⟩
  | ok o =>
    unfold Reconciler.answered Reconciler.fulfilled
    dsimp only
    split
    · exact ⟨rfl, rfl, rfl, rfl⟩
    · split <;> exact ⟨rfl, rfl, rfl, rfl⟩

theorem counted_react {w : PacedRun} {balances : List (Option Int)} (hw : PaceInv cfg w) (hc : Counted cfg w balances)
    {k : Nat} {s' : ReserveRun} (h : w.run.react cfg k = some s') :
    Counted cfg ⟨s', PacedRun.note cfg w.run s' w.history (.react k)⟩ balances := by
  obtain ⟨p, out, hp, hstage, hout, rfl⟩ := react_eq_some h
  obtain ⟨known, hphase, -⟩ := hw.phase
  have hopen : p.stage ≠ .finished := by simp [hstage]
  cases hphase with
  | landed _ finished => exact absurd (finished p (List.mem_of_getElem? hp)) hopen
  | handled ps q last _ finished stage =>
    obtain ⟨-, rfl⟩ := last_of_unfinished finished (last ▸ hp) hopen
    simp [stage] at hstage
  | flying ps q as a last attempt lengths finished stage answer clock flag =>
    obtain ⟨rfl, rfl⟩ := last_of_unfinished finished (last ▸ hp) hopen
    obtain ⟨hspendable, hblind, hforbidden, hharvesting⟩ :=
      answered_kept q.harvestClockBefore w.run.reconciler out
    obtain ⟨-, -, hflag⟩ := answered_frame q.harvestClockBefore w.run.reconciler out
    have hattempts (s' : ReserveRun) : (PacedRun.note cfg w.run s' w.history (.react ps.length)).attempts =
        known ++ [{ a with answer := some out }] := by
      simp only [PacedRun.note, hp, Option.bind_some, hout, attempt]
      rw [lengths]
      exact modify_concat known a _
    have hlast : (known ++ [{ a with answer := some out }]).getLast?.any Attempt.harvestOnly =
        w.history.attempts.getLast?.any Attempt.harvestOnly := by
      rw [attempt, List.getLast?_concat, List.getLast?_concat, Option.any_some, Option.any_some]
    have hanswers : answers (known ++ [{ a with answer := some out }]) = answers w.history.attempts ++ [out] := by
      rw [attempt, answers_open known answer]
      simp [answers]
    refine ⟨hc.readings, hspendable.trans hc.spendable, hblind.trans hc.blind, hforbidden.trans hc.forbidden,
      fun hflying => ?_, fun hon => ?_, ?_⟩
    · rw [hattempts, hlast]
      exact hharvesting.trans (hc.flying (hflag.symm.trans hflying))
    · rw [hattempts, hlast]
      exact hc.harvesting (hharvesting.symm.trans hon)
    · rw [hattempts, hanswers]
      exact memory_answered hc.memory q.harvestClockBefore out

theorem counted_step {w w' : PacedRun} {balances : List (Option Int)} {ev : ReserveEvent} (hw : PaceInv cfg w)
    (hc : Counted cfg w balances) (h : w.step cfg ev = some w') : Counted cfg w' (balances ++ ev.read.toList) := by
  obtain ⟨s', hstep, rfl⟩ := Option.map_eq_some_iff.mp h
  have hqueue (queue : SerialQueue SendTask SendResult) :
      Counted cfg ⟨{ w.run with queue := queue }, w.history⟩ (balances ++ []) := by
    rw [List.append_nil]
    exact ⟨hc.readings, hc.spendable, hc.blind, hc.forbidden, hc.flying, hc.harvesting, hc.memory⟩
  cases ev with
  | advance ms =>
    simp only [ReserveRun.step] at hstep
    split at hstep
    · obtain rfl := Option.some.inj hstep
      change Counted cfg _ (balances ++ [])
      rw [List.append_nil]
      exact ⟨hc.readings, hc.spendable, hc.blind, hc.forbidden, hc.flying, hc.harvesting, hc.memory⟩
    · cases hstep
  | tick =>
    obtain rfl := Option.some.inj hstep
    change Counted cfg _ (balances ++ [])
    rw [List.append_nil]
    exact ⟨hc.readings, hc.spendable, hc.blind, hc.forbidden, hc.flying, hc.harvesting, hc.memory⟩
  | balance z =>
    simp only [ReserveRun.step] at hstep
    split at hstep
    · exact Option.some.inj hstep ▸ counted_balance hw hc z
    · cases hstep
  | drip => exact Option.some.inj hstep ▸ hqueue _
  | start i =>
    obtain ⟨queue, -, rfl⟩ := Option.map_eq_some_iff.mp hstep
    exact hqueue queue
  | dripSettles i =>
    simp only [ReserveRun.step] at hstep
    split at hstep
    · obtain ⟨queue, -, rfl⟩ := Option.map_eq_some_iff.mp hstep
      exact hqueue queue
    · cases hstep
  | stepSettles i out =>
    simp only [ReserveRun.step] at hstep
    split at hstep
    · obtain ⟨queue, -, rfl⟩ := Option.map_eq_some_iff.mp hstep
      exact hqueue queue
    · cases hstep
  | deadline i =>
    obtain ⟨queue, -, rfl⟩ := Option.map_eq_some_iff.mp hstep
    exact hqueue queue
  | react k =>
    change Counted cfg _ (balances ++ [])
    rw [List.append_nil]
    exact counted_react hw hc hstep
  | cleanup k =>
    simp only [ReserveRun.step, ReserveRun.cleanup] at hstep
    split at hstep
    · obtain rfl := Option.some.inj hstep
      change Counted cfg _ (balances ++ [])
      rw [List.append_nil]
      exact ⟨hc.readings, hc.spendable, hc.blind, hc.forbidden, fun hflies => absurd hflies Bool.false_ne_true,
        hc.harvesting, hc.memory⟩
    · cases hstep

theorem counted_new (cfg : ReserveConfig) (maxPending : Nat) (now : ℚ) :
    Counted cfg (.new maxPending now) [] where
  readings := rfl
  spendable := rfl
  blind := rfl
  forbidden := by
    split <;> rfl
  flying := nofun
  harvesting := nofun
  memory := rfl

/-! ## The panel of a run -/

theorem panelAccounts_of_inv {w : PacedRun} {balances : List (Option Int)} (hw : PaceInv cfg w)
    (hc : Counted cfg w balances) :
    PanelAccounts cfg w.run w.history.attempts balances (w.run.reconciler.status cfg w.run.now) where
  spendable := congrArg (Option.map inTaz) hc.spendable
  refilling := by
    rw [← hc.readings, ← hw.refilling]
    rfl
  blind := hc.blind
  forbidden := hc.forbidden
  inFlight := by
    have hlanded := hw.phase.choose_spec.1.inFlight_false_iff
    rw [Reconciler.status, ← Bool.not_eq_false, hlanded]
    simp
  harvesting := ⟨hc.flying, hc.harvesting⟩
  harvestAge := by
    rw [Reconciler.status, hw.lastHarvestAt]
  failures := congrArg ReserveMemory.failedSteps hc.memory
  lastFailure := congrArg ReserveMemory.lastFailure hc.memory
  refusals := congrArg ReserveMemory.shieldRefusals hc.memory
  lastRefusal := congrArg ReserveMemory.lastRefusal hc.memory
  empties := congrArg ReserveMemory.emptySweeps hc.memory
  remaining := congrArg ReserveMemory.remainingUTXOs hc.memory
  uncounted := congrArg ReserveMemory.movedWithoutCount hc.memory

/-- **The panel says what happened**, in every run of the loop: its figures
are read off the balances and off the attempts with their answers, in order,
the harvest age by the clock besides. The flag of a harvest is held to them
from both sides, no more: a tick clears it late. -/
theorem reserve_panel_accounts (cfg : ReserveConfig) (maxPending : Nat) (now : ℚ) (es : List ReserveEvent)
    (s : ReserveRun) (h : run (ReserveRun.step cfg) (.new maxPending now) es = some s) :
    ∃ w, run (PacedRun.step cfg) (.new maxPending now) es = some w ∧ w.run = s ∧
      PanelAccounts cfg s w.history.attempts (es.filterMap ReserveEvent.read) (s.reconciler.status cfg s.now) := by
  obtain ⟨w, hw, rfl⟩ := exists_pacedRun h ⟨[], [], 0⟩
  have hinv := run_history ReserveEvent.read (fun w balances => PaceInv cfg w ∧ Counted cfg w balances)
    (fun _ _ _ _ hinv hstep => ⟨paceInv_step hinv.1 hstep, counted_step hinv.1 hinv.2 hstep⟩)
    ⟨paceInv_new cfg maxPending now, counted_new cfg maxPending now⟩ hw
  rw [List.nil_append] at hinv
  exact ⟨w, hw, rfl, panelAccounts_of_inv hinv.1 hinv.2⟩

/-- A blind tick, a step that is refused, and a blind tick again. -/
def blindAndRefused : List ReserveEvent :=
  [.tick, .balance none, .tick, .balance (some 100), .start 0,
    .stepSettles 0 (.ok ⟨false, some ⟨.unverifiable, [], none⟩, none⟩), .react 0, .cleanup 0, .tick, .balance none]

theorem reserve_panel_accounts_refused :
    (run (ReserveRun.step hourlyHarvest) (.new 20 0) blindAndRefused).map (fun s =>
        let status := s.reconciler.status hourlyHarvest s.now
        (status.blindTicks, status.shieldRefusals, status.emptySweeps, status.refilling)) =
      some (1, 1, 0, true) ∧
    ∃ w s, run (PacedRun.step hourlyHarvest) (.new 20 0) blindAndRefused = some w ∧ w.run = s ∧
      PanelAccounts hourlyHarvest s w.history.attempts [none, some 100, none]
        (s.reconciler.status hourlyHarvest s.now) := by
  have hruns : (run (ReserveRun.step hourlyHarvest) (.new 20 0) blindAndRefused).isSome = true := by decide +kernel
  obtain ⟨w, hw, hrun, haccounts⟩ :=
    reserve_panel_accounts hourlyHarvest 20 0 blindAndRefused _ (Option.some_get hruns).symm
  exact ⟨by decide +kernel, w, _, hw, hrun, haccounts⟩

end ZcashFaucet.Reserve
