/-
ZcashFaucet.Reserve.PacingTheorems — the loop keeps its pace.

The fields of `Reconciler` are functions of the history (`PaceInv`): the
hysteresis of the balances, the throws in a row since a step returned, the
time of the last harvest that was not refused, the backlog of the last
sweep. One promise at most is open, and it is that of the last attempt
(`InFlight`), so a refusal puts back the clock it found. A tick then reads
the rules of `Reserve.Pacing` off its own fields (`decideStep_eq`).
-/
import ZcashFaucet.Reserve.OneRefill
import ZcashFaucet.Reserve.Pacing

namespace ZcashFaucet.Reserve

open Lib Zcash

variable {cfg : ReserveConfig}

/-! ## The notes of one more attempt -/

theorem hysteresis_concat (levels : ReserveLevels) (readings : List Int) (z : Int) :
    hysteresis levels (readings ++ [z]) =
      match hysteresis levels readings with
      | none => initialRefilling (some z) levels
      | some on => some (decideRefilling on (some z) levels) := by
  cases readings with
  | nil => rfl
  | cons first later => simp [hysteresis, decideRefilling]

theorem hysteresis_observe (spendableZat : Option Int) {r : Reconciler} {readings : List Int}
    (h : r.refilling = hysteresis cfg.levels readings) :
    (r.observe cfg spendableZat).refilling = hysteresis cfg.levels (readings ++ spendableZat.toList) := by
  cases spendableZat with
  | none =>
    rw [Option.toList_none, List.append_nil, ← h]
    cases hr : r.refilling with
    | none => simp [Reconciler.observe, hr, initialRefilling]
    | some on => simp [Reconciler.observe, hr, decideRefilling]
  | some z =>
    rw [Option.toList_some, hysteresis_concat, ← h]
    cases hr : r.refilling <;> simp [Reconciler.observe, hr]

theorem draining_concat (as : List Attempt) (a : Attempt) :
    draining cfg (as ++ [a]) = if a.wasRefused then draining cfg as else a.leftBacklog cfg := by
  cases h : a.wasRefused <;> simp [draining, h]

theorem lastHarvest_concat (as : List Attempt) (a : Attempt) :
    lastHarvest (as ++ [a]) = if a.harvestOnly && !a.wasRefused then some a.beganAt else lastHarvest as := by
  cases h : a.harvestOnly && !a.wasRefused
  · rw [lastHarvest, List.filter_append, List.filter_cons_of_neg (by simp [h])]
    simp [lastHarvest]
  · rw [lastHarvest, List.filter_append, List.filter_cons_of_pos (by simp [h])]
    simp

theorem throwsInARow_concat (as : List Attempt) (a : Attempt) :
    throwsInARow (as ++ [a]) = if a.threw then throwsInARow as + 1 else 0 := by
  cases h : a.threw <;> simp [throwsInARow, h]

theorem modify_concat {α : Type} (xs : List α) (x : α) (f : α → α) :
    (xs ++ [x]).modify xs.length f = xs ++ [f x] := by
  induction xs with
  | nil => rfl
  | cons y xs ih => simp [ih]

/-! ## The rule of one attempt -/

/-- What an attempt keeps to, given those before it. -/
structure Attempt.Lawful (cfg : ReserveConfig) (before : List Attempt) (a : Attempt) : Prop where
  harvest : a.harvestOnly = true → draining cfg before = true ∨
    ∀ t ∈ lastHarvest before, cfg.harvestIntervalMs ≤ a.beganAt - t
  backoff : backoffTicks (throwsInARow before) ≤ a.waited + 1

def Attempts.Lawful (cfg : ReserveConfig) (as : List Attempt) : Prop :=
  ∀ before a after, as = before ++ a :: after → a.Lawful cfg before

theorem Attempts.lawful_concat {as : List Attempt} {a : Attempt} :
    Attempts.Lawful cfg (as ++ [a]) ↔ Attempts.Lawful cfg as ∧ a.Lawful cfg as := by
  constructor
  · intro h
    refine ⟨fun before b after has => h before b (after ++ [a]) (by simp [has]), h as a [] rfl⟩
  · rintro ⟨has, ha⟩ before b after heq
    rcases List.eq_nil_or_concat after with rfl | ⟨after', c, rfl⟩
    · obtain ⟨rfl, hb⟩ := List.append_inj' heq rfl
      obtain rfl : a = b := by simpa using hb
      exact ha
    · have heq : as ++ [a] = (before ++ b :: after') ++ [c] := by simpa using heq
      obtain ⟨has', -⟩ := List.append_inj' heq rfl
      exact has before b after' has'

/-- The times the attempts began, in order. -/
def Attempts.Ordered (as : List Attempt) : Prop := as.Pairwise fun a b => a.beganAt ≤ b.beganAt

/-- A harvest that was not refused is no later than the last one. -/
theorem le_lastHarvest {as : List Attempt} (hordered : Attempts.Ordered as) {a : Attempt} (ha : a ∈ as)
    (hharvest : a.harvestOnly = true) (hrefused : a.wasRefused = false) :
    ∃ t ∈ lastHarvest as, a.beganAt ≤ t := by
  induction as using List.reverseRecOn with
  | nil => cases ha
  | append_singleton as b ih =>
    obtain ⟨hprev, -, hlast⟩ := List.pairwise_append.mp hordered
    rw [lastHarvest_concat]
    rcases List.mem_append.mp ha with ha | ha
    · obtain ⟨t, ht, hle⟩ := ih hprev ha
      split
      · exact ⟨b.beganAt, rfl, hlast a ha b (by simp)⟩
      · exact ⟨t, ht, hle⟩
    · obtain rfl := List.mem_singleton.mp ha
      rw [if_pos (by simp [hharvest, hrefused])]
      exact ⟨a.beganAt, rfl, le_refl _⟩

/-! ## The fields as functions of the history -/

/-- Which promise is open, if one is, and the attempts whose answers the
loop has seen. -/
inductive Phase (promises : List StepPromise) (attempts : List Attempt) (inFlight : Bool) : List Attempt → Prop
  | landed (lengths : promises.length = attempts.length) (finished : ∀ p ∈ promises, p.stage = .finished)
      (flag : inFlight = false) : Phase promises attempts inFlight attempts
  | handled (ps : List StepPromise) (p : StepPromise) (last : promises = ps ++ [p])
      (lengths : promises.length = attempts.length) (finished : ∀ p ∈ ps, p.stage = .finished)
      (stage : p.stage = .handled) (flag : inFlight = true) : Phase promises attempts inFlight attempts
  | flying (ps : List StepPromise) (p : StepPromise) (as : List Attempt) (a : Attempt)
      (last : promises = ps ++ [p]) (attempt : attempts = as ++ [a]) (lengths : ps.length = as.length)
      (finished : ∀ p ∈ ps, p.stage = .finished) (stage : p.stage = .pending) (answer : a.answer = none)
      (clock : p.harvestClockBefore = lastHarvest as) (flag : inFlight = true) : Phase promises attempts inFlight as

/-- What the loop remembers of the answers it has seen. -/
structure Known (cfg : ReserveConfig) (r : Reconciler) (known : List Attempt) : Prop where
  failedSteps : r.failedSteps = throwsInARow known
  backlog : (r.lastSweepMoved && r.remainingUTXOs.any fun n => decide (cfg.harvestMinUTXOs ≤ n)) = draining cfg known

structure PaceInv (cfg : ReserveConfig) (w : PacedRun) : Prop where
  refilling : w.run.reconciler.refilling = hysteresis cfg.levels w.history.readings
  waited : w.run.reconciler.ticksSinceAttempt = w.history.waited
  lastHarvestAt : w.run.reconciler.lastHarvestAt = lastHarvest w.history.attempts
  lawful : Attempts.Lawful cfg w.history.attempts
  ordered : Attempts.Ordered w.history.attempts
  began : ∀ a ∈ w.history.attempts, a.beganAt ≤ w.run.now
  phase : ∃ known, Phase w.run.promises w.history.attempts w.run.reconciler.stepInFlight known ∧
    Known cfg w.run.reconciler known

theorem Phase.inFlight_false_iff {promises : List StepPromise} {attempts known : List Attempt} {inFlight : Bool}
    (h : Phase promises attempts inFlight known) : inFlight = false ↔ ∀ p ∈ promises, p.stage = .finished := by
  cases h with
  | landed _ finished flag => exact ⟨fun _ => finished, fun _ => flag⟩
  | handled ps p last _ _ stage flag =>
    refine ⟨fun h => by simp [flag] at h, fun h => ?_⟩
    have := h p (by simp [last])
    simp [stage] at this
  | flying ps p as a last _ _ _ stage _ _ flag =>
    refine ⟨fun h => by simp [flag] at h, fun h => ?_⟩
    have := h p (by simp [last])
    simp [stage] at this

theorem Phase.known_of_landed {promises : List StepPromise} {attempts known : List Attempt} {inFlight : Bool}
    (h : Phase promises attempts inFlight known) (hflag : inFlight = false) : known = attempts := by
  cases h with
  | landed => rfl
  | handled => rfl
  | flying _ _ _ _ _ _ _ _ _ _ _ flag => simp [hflag] at flag

/-- A promise that is not finished is the last one. -/
theorem last_of_unfinished {ps : List StepPromise} {p q : StepPromise} {k : Nat}
    (hfinished : ∀ p ∈ ps, p.stage = .finished) (hq : (ps ++ [p])[k]? = some q) (hstage : q.stage ≠ .finished) :
    k = ps.length ∧ p = q := by
  rw [List.getElem?_append] at hq
  split at hq
  · exact absurd (hfinished q (List.mem_of_getElem? hq)) hstage
  · rw [List.getElem?_singleton] at hq
    split at hq
    · exact ⟨by omega, Option.some.inj hq⟩
    · cases hq

/-! ## A tick reads the rules off its fields -/

theorem shouldHarvest_iff {spendableKnown lastSweepMoved : Bool} {remaining ms : Option ℚ} {minUTXOs intervalMs : ℚ} :
    shouldHarvest spendableKnown remaining minUTXOs lastSweepMoved ms intervalMs = true ↔
      spendableKnown = true ∧ 0 < intervalMs ∧
        ((lastSweepMoved && remaining.any fun n => decide (minUTXOs ≤ n)) = true ∨ ∀ t ∈ ms, intervalMs ≤ t) := by
  unfold shouldHarvest
  split
  · rename_i hoff
    simp [not_lt.mpr hoff]
  · rename_i hon
    rw [not_le] at hon
    cases spendableKnown with
    | false => simp
    | true =>
      simp only [Bool.not_true, Bool.false_eq_true, if_false, hon, true_and]
      split
      · rename_i hdrain
        simp [hdrain]
      · rename_i hdrain
        simp only [hdrain, Bool.false_eq_true, false_or]
        cases ms <;> simp

/-- The loop's own question is whether the tick is eligible. -/
theorem shouldStartStep_iff {w : PacedRun} (hw : PaceInv cfg w) (spendableZat : Option Int) :
    let observed := w.run.reconciler.observe cfg spendableZat
    shouldStartStep (observed.refilling == some true) (observed.harvestDue cfg w.run.now) cfg.shieldCoinbase
        observed.stepInFlight w.run.queue.depth = true ↔ Eligible cfg w.run w.history spendableZat := by
  obtain ⟨known, hphase, hknown⟩ := hw.phase
  dsimp only
  have hflag := hphase.inFlight_false_iff
  have hrefilling := hysteresis_observe spendableZat hw.refilling
  rw [eligible_iff, ← hflag, ← hrefilling, shouldStartStep]
  simp only [Bool.and_eq_true, Bool.or_eq_true, beq_iff_eq, Bool.not_eq_true', decide_eq_true_eq]
  have hdue : w.run.reconciler.stepInFlight = false →
      ((w.run.reconciler.observe cfg spendableZat).harvestDue cfg w.run.now = true ↔
        spendableZat.isSome = true ∧ HarvestDue cfg w.run.now w.history.attempts) := by
    intro hlanded
    obtain rfl := hphase.known_of_landed hlanded
    rw [Reconciler.harvestDue, shouldHarvest_iff, HarvestDue, ReserveConfig.harvestIntervalMs, ← hknown.backlog,
      ← hw.lastHarvestAt]
    simp [Reconciler.observe]
  constructor
  · rintro ⟨⟨⟨hwanted, hpermitted⟩, hlanded⟩, hidle⟩
    exact ⟨hpermitted, by exact_mod_cast hidle, hlanded, hwanted.imp_right (hdue hlanded).mp⟩
  · rintro ⟨hpermitted, hidle, hlanded, hwanted⟩
    exact ⟨⟨⟨hwanted.imp_right (hdue hlanded).mpr, hpermitted⟩, hlanded⟩, by exact_mod_cast hidle⟩

/-- What a tick does after its await. -/
inductive Ticked (cfg : ReserveConfig) (w : PacedRun) (spendableZat : Option Int) (s' : ReserveRun) : Prop
  | yields (not_eligible : ¬ Eligible cfg w.run w.history spendableZat) (harvesting : Bool)
      (ends : s' =
        { w.run with
          reconciler :=
            { w.run.reconciler.observe cfg spendableZat with harvesting := harvesting, ticking := false } })
  | heldBack (eligible : Eligible cfg w.run w.history spendableZat)
      (ends : s' =
        { w.run with
          reconciler :=
            { w.run.reconciler.observe cfg spendableZat with
              harvesting := false
              ticksSinceAttempt := w.run.reconciler.ticksSinceAttempt + 1
              ticking := false } })
  | begins (eligible : Eligible cfg w.run w.history spendableZat)
      (due : backoffTicks w.run.reconciler.failedSteps ≤ w.run.reconciler.ticksSinceAttempt + 1)
      (queue : SerialQueue SendTask SendResult) (job : Option Nat) (harvesting : Bool)
      (alone : harvesting = decide (hysteresis cfg.levels (w.history.readings ++ spendableZat.toList) ≠ some true))
      (ends : s' =
        { w.run with
          queue := queue
          reconciler :=
            { w.run.reconciler.observe cfg spendableZat with
              harvesting := harvesting
              ticksSinceAttempt := 0
              stepInFlight := true
              lastHarvestAt := if harvesting then some w.run.now else w.run.reconciler.lastHarvestAt
              ticking := false }
          promises := w.run.promises ++ [⟨w.run.reconciler.lastHarvestAt, job, .pending⟩] })

theorem ticked_balance {w : PacedRun} (hw : PaceInv cfg w) (spendableZat : Option Int) :
    Ticked cfg w spendableZat (w.run.balance cfg spendableZat) := by
  have hstart := shouldStartStep_iff hw spendableZat
  have hrefilling := hysteresis_observe spendableZat hw.refilling
  dsimp only at hstart
  unfold ReserveRun.balance Reconciler.decideStep
  dsimp only
  by_cases heligible : Eligible cfg w.run w.history spendableZat
  · rw [if_pos (hstart.mpr heligible)]
    by_cases hattempt : shouldAttempt (w.run.reconciler.observe cfg spendableZat).failedSteps
        ((w.run.reconciler.observe cfg spendableZat).ticksSinceAttempt + 1) = true
    · rw [if_pos hattempt, if_pos rfl]
      -- what is begun with the balance long enough is begun for a harvest
      have halone : ((w.run.reconciler.observe cfg spendableZat).harvestDue cfg w.run.now &&
          (w.run.reconciler.observe cfg spendableZat).refilling != some true) =
            decide (hysteresis cfg.levels (w.history.readings ++ spendableZat.toList) ≠ some true) := by
        rw [← hrefilling]
        have hstart := hstart.mpr heligible
        simp only [shouldStartStep, Bool.and_eq_true, Bool.or_eq_true] at hstart
        rcases hstart.1.1.1 with hshort | hdue
        · simp [beq_iff_eq.mp hshort]
        · simp [hdue, bne, beq_eq_decide]
      have hdue := of_decide_eq_true hattempt
      cases hrun : w.run.queue.run SendTask.refill cfg.sendTaskDeadlineMs with
      | some queue => exact .begins heligible hdue queue _ _ halone rfl
      | none => exact .begins heligible hdue w.run.queue none _ halone rfl
    · rw [if_neg hattempt, if_neg (by simp)]
      exact .heldBack heligible rfl
  · rw [if_neg (fun h => heligible (hstart.mp h)), if_neg (by simp)]
    exact .yields heligible _ rfl

/-! ## What each event keeps -/

section

variable {w : PacedRun}

/-- An attempt of a tick that was eligible. -/
theorem lawful_of_eligible (hw : PaceInv cfg w) {spendableZat : Option Int}
    (heligible : Eligible cfg w.run w.history spendableZat)
    (hdue : backoffTicks w.run.reconciler.failedSteps ≤ w.run.reconciler.ticksSinceAttempt + 1) :
    Attempt.Lawful cfg w.history.attempts
      ⟨w.run.now, decide (hysteresis cfg.levels (w.history.readings ++ spendableZat.toList) ≠ some true),
        w.history.waited, none⟩ := by
  obtain ⟨known, hphase, hknown⟩ := hw.phase
  obtain rfl := hphase.known_of_landed (hphase.inFlight_false_iff.mpr heligible.landed)
  refine ⟨fun halone => ?_, ?_⟩
  · rcases heligible.wanted with hshort | ⟨-, -, hdue⟩
    · exact absurd hshort (of_decide_eq_true halone)
    · exact hdue
  · rw [← hknown.failedSteps, ← hw.waited]
    exact hdue

theorem paceInv_balance (hw : PaceInv cfg w) (spendableZat : Option Int) :
    PaceInv cfg ⟨w.run.balance cfg spendableZat,
      PacedRun.note cfg w.run (w.run.balance cfg spendableZat) w.history (.balance spendableZat)⟩ := by
  have hrefilling := hysteresis_observe spendableZat hw.refilling
  obtain ⟨known, hphase, hknown⟩ := hw.phase
  cases ticked_balance hw spendableZat with
  | yields hnot harvesting ends =>
    rw [ends, PacedRun.note, if_neg (lt_irrefl _), if_neg hnot]
    exact ⟨hrefilling, hw.waited, hw.lastHarvestAt, hw.lawful, hw.ordered, hw.began,
      known, hphase, hknown.failedSteps, hknown.backlog⟩
  | heldBack heligible ends =>
    rw [ends, PacedRun.note, if_neg (lt_irrefl _), if_pos heligible]
    exact ⟨hrefilling, congrArg (· + 1) hw.waited, hw.lastHarvestAt, hw.lawful, hw.ordered, hw.began,
      known, hphase, hknown.failedSteps, hknown.backlog⟩
  | begins heligible hdue queue job harvesting halone ends =>
    have hlawful := lawful_of_eligible hw heligible hdue
    obtain ⟨hlanded, hlengths⟩ : known = w.history.attempts ∧ w.run.promises.length = w.history.attempts.length := by
      cases hphase with
      | landed lengths => exact ⟨rfl, lengths⟩
      | handled ps p last lengths => exact ⟨rfl, lengths⟩
      | flying ps p as a last _ _ _ stage =>
        have := heligible.landed p (by simp [last])
        simp [stage] at this
    have hlonger : w.run.promises.length <
        (w.run.promises ++ [(⟨w.run.reconciler.lastHarvestAt, job, .pending⟩ : StepPromise)]).length := by simp
    rw [ends, PacedRun.note, if_pos hlonger]
    refine ⟨hrefilling, rfl, ?_, Attempts.lawful_concat.mpr ⟨hw.lawful, hlawful⟩, ?_, ?_, known, ?_,
      hknown.failedSteps, hknown.backlog⟩
    · rw [lastHarvest_concat, ← halone, ← hw.lastHarvestAt]
      simp [Attempt.wasRefused]
    · refine List.pairwise_append.mpr ⟨hw.ordered, List.pairwise_singleton _ _, fun a ha b hb => ?_⟩
      rw [List.mem_singleton.mp hb]
      exact hw.began a ha
    · intro a ha
      rcases List.mem_append.mp ha with ha | ha
      · exact hw.began a ha
      · rw [List.mem_singleton.mp ha]
    · rw [hlanded]
      exact .flying w.run.promises _ w.history.attempts _ rfl rfl hlengths heligible.landed rfl rfl hw.lastHarvestAt rfl

/-- The `then` or the `catch` of a step. -/
def Reconciler.answered (clock : Option ℚ) (r : Reconciler) : Except JsString StepOutcome → Reconciler
  | .ok outcome => r.fulfilled clock outcome
  | .error reason => r.rejected reason

section

variable {as : List Attempt} {a : Attempt} {r : Reconciler}

/-- Neither touches the decision, the count of ticks and the flag. -/
theorem answered_frame (clock : Option ℚ) (r : Reconciler) (out : Except JsString StepOutcome) :
    (r.answered clock out).refilling = r.refilling ∧
      (r.answered clock out).ticksSinceAttempt = r.ticksSinceAttempt ∧
        (r.answered clock out).stepInFlight = r.stepInFlight := by
  cases out with
  | error reason => exact ⟨rfl, rfl, rfl⟩
  | ok outcome =>
    unfold Reconciler.answered Reconciler.fulfilled
    dsimp only
    split
    · exact ⟨rfl, rfl, rfl⟩
    · split <;> exact ⟨rfl, rfl, rfl⟩

/-- The answer of the open attempt is the last one seen. -/
theorem known_answered (clock : Option ℚ) (out : Except JsString StepOutcome) (hknown : Known cfg r as) :
    Known cfg (r.answered clock out) (as ++ [{ a with answer := some out }]) := by
  cases out with
  | error reason =>
    refine ⟨?_, ?_⟩
    · rw [throwsInARow_concat, ← hknown.failedSteps]
      rfl
    · rw [draining_concat]
      simp [Reconciler.answered, Reconciler.rejected, Attempt.leftBacklog, Attempt.wasRefused]
  | ok outcome =>
    refine ⟨?_, ?_⟩
    · rw [throwsInARow_concat]
      simp only [Attempt.threw, Bool.false_eq_true, if_false, Reconciler.answered, Reconciler.fulfilled]
      split
      · rfl
      · split <;> rfl
    · rw [draining_concat]
      cases hrefused : outcome.refused with
      | some refused =>
        simpa [Reconciler.answered, Reconciler.fulfilled, hrefused, Attempt.wasRefused] using hknown.backlog
      | none =>
        simp only [Reconciler.answered, Reconciler.fulfilled, hrefused, Attempt.wasRefused, Option.isSome_none,
          Bool.false_eq_true, if_false, Attempt.leftBacklog]
        split <;> rfl

/-- A refusal puts back the clock it found. -/
theorem lastHarvest_answered (out : Except JsString StepOutcome) (ha : a.answer = none)
    (hr : r.lastHarvestAt = lastHarvest (as ++ [a])) :
    (r.answered (lastHarvest as) out).lastHarvestAt = lastHarvest (as ++ [{ a with answer := some out }]) := by
  rw [lastHarvest_concat] at hr
  simp only [Attempt.wasRefused, ha, Bool.not_false, Bool.and_true] at hr
  rw [lastHarvest_concat]
  cases out with
  | error reason => simpa [Reconciler.answered, Reconciler.rejected, Attempt.wasRefused] using hr
  | ok outcome =>
    cases hrefused : outcome.refused with
    | some refused => simp [Reconciler.answered, Reconciler.fulfilled, hrefused, Attempt.wasRefused]
    | none =>
      simp only [Reconciler.answered, Reconciler.fulfilled, hrefused, Attempt.wasRefused, Option.isSome_none,
        Bool.not_false, Bool.and_true]
      split <;> exact hr

end

theorem react_eq_some {s s' : ReserveRun} {k : Nat} (h : s.react cfg k = some s') :
    ∃ p out, s.promises[k]? = some p ∧ p.stage = .pending ∧ p.settledWith cfg s.queue = some out ∧
      s' =
        { s with
          reconciler := s.reconciler.answered p.harvestClockBefore out
          promises := s.promises.modify k fun p => { p with stage := .handled } } := by
  unfold ReserveRun.react at h
  cases hp : s.promises[k]? with
  | none => simp [hp] at h
  | some p =>
    simp only [hp] at h
    split at h
    · rename_i hstage
      obtain ⟨out, hout, rfl⟩ := Option.map_eq_some_iff.mp h
      refine ⟨p, out, rfl, hstage, hout, ?_⟩
      cases out <;> rfl
    · cases h

theorem paceInv_react (hw : PaceInv cfg w) {k : Nat} {s' : ReserveRun} (h : w.run.react cfg k = some s') :
    PaceInv cfg ⟨s', PacedRun.note cfg w.run s' w.history (.react k)⟩ := by
  obtain ⟨p, out, hp, hstage, hout, rfl⟩ := react_eq_some h
  obtain ⟨known, hphase, hknown⟩ := hw.phase
  have hopen : p.stage ≠ .finished := by simp [hstage]
  cases hphase with
  | landed _ finished => exact absurd (finished p (List.mem_of_getElem? hp)) hopen
  | handled ps q last _ finished stage =>
    obtain ⟨-, rfl⟩ := last_of_unfinished finished (last ▸ hp) hopen
    simp [stage] at hstage
  | flying ps q as a last attempt lengths finished stage answer clock flag =>
    obtain ⟨rfl, rfl⟩ := last_of_unfinished finished (last ▸ hp) hopen
    obtain ⟨hrefilling, hticks, hflag⟩ := answered_frame q.harvestClockBefore w.run.reconciler out
    have hattempts (s' : ReserveRun) : (PacedRun.note cfg w.run s' w.history (.react ps.length)).attempts =
        known ++ [{ a with answer := some out }] := by
      simp only [PacedRun.note, hp, Option.bind_some, hout, attempt]
      rw [lengths]
      exact modify_concat known a _
    have hlawful := hw.lawful
    have hordered := hw.ordered
    have hbegan := hw.began
    have hclock := hw.lastHarvestAt
    rw [attempt] at hlawful hordered hbegan hclock
    obtain ⟨hprev, hlast⟩ := Attempts.lawful_concat.mp hlawful
    refine ⟨hrefilling.trans hw.refilling, hticks.trans hw.waited, ?_, ?_, ?_, ?_, ?_⟩
    · rw [hattempts, clock]
      exact lastHarvest_answered out answer hclock
    · rw [hattempts]
      exact Attempts.lawful_concat.mpr ⟨hprev, hlast.harvest, hlast.backoff⟩
    · rw [hattempts]
      obtain ⟨hsorted, -, hafter⟩ := List.pairwise_append.mp hordered
      refine List.pairwise_append.mpr ⟨hsorted, List.pairwise_singleton _ _, fun b hb c hc => ?_⟩
      rw [List.mem_singleton.mp hc]
      exact hafter b hb a (by simp)
    · rw [hattempts]
      intro b hb
      rcases List.mem_append.mp hb with hb | hb
      · exact hbegan b (by simp [hb])
      · rw [List.mem_singleton.mp hb]
        exact hbegan a (by simp)
    · refine ⟨_, ?_, known_answered (a := a) _ out hknown⟩
      rw [hattempts]
      refine .handled ps { q with stage := .handled } ?_ (by simp [last, lengths]) finished rfl (hflag.trans flag)
      rw [last]
      exact modify_concat ps q _

theorem paceInv_cleanup (hw : PaceInv cfg w) {k : Nat} {s' : ReserveRun} (h : w.run.cleanup k = some s') :
    PaceInv cfg ⟨s', w.history⟩ := by
  unfold ReserveRun.cleanup at h
  split at h
  case isFalse => cases h
  case isTrue hhandled =>
    obtain rfl := Option.some.inj h
    obtain ⟨p, hp, hstage⟩ := (Option.any_eq_true _ _).mp hhandled
    rw [beq_iff_eq] at hstage
    obtain ⟨known, hphase, hknown⟩ := hw.phase
    refine ⟨hw.refilling, hw.waited, hw.lastHarvestAt, hw.lawful, hw.ordered, hw.began, known, ?_,
      hknown.failedSteps, hknown.backlog⟩
    have hopen : p.stage ≠ .finished := by simp [hstage]
    cases hphase with
    | landed _ finished => exact absurd (finished p (List.mem_of_getElem? hp)) hopen
    | flying ps q as a last _ _ finished stage =>
      obtain ⟨-, rfl⟩ := last_of_unfinished finished (last ▸ hp) hopen
      simp [stage] at hstage
    | handled ps q last lengths finished =>
      obtain ⟨rfl, rfl⟩ := last_of_unfinished finished (last ▸ hp) hopen
      refine .landed (by simpa using lengths) (fun p hp => ?_) rfl
      dsimp only at hp
      rw [last, modify_concat] at hp
      rcases List.mem_append.mp hp with hp | hp
      · exact finished p hp
      · rw [List.mem_singleton.mp hp]

/-- Every event keeps the fields what the history says. -/
theorem paceInv_step {ev : ReserveEvent} {w' : PacedRun} (hw : PaceInv cfg w) (h : w.step cfg ev = some w') :
    PaceInv cfg w' := by
  obtain ⟨s', hstep, rfl⟩ := Option.map_eq_some_iff.mp h
  have hqueue : ∀ queue, PaceInv cfg ⟨{ w.run with queue := queue }, w.history⟩ := fun queue =>
    ⟨hw.refilling, hw.waited, hw.lastHarvestAt, hw.lawful, hw.ordered, hw.began, hw.phase⟩
  cases ev with
  | advance ms =>
    simp only [ReserveRun.step] at hstep
    split at hstep
    · rename_i hms
      obtain rfl := Option.some.inj hstep
      refine ⟨hw.refilling, hw.waited, hw.lastHarvestAt, hw.lawful, hw.ordered, fun a ha => ?_, hw.phase⟩
      exact (hw.began a ha).trans (le_add_of_nonneg_right hms)
    · cases hstep
  | tick =>
    obtain rfl := Option.some.inj hstep
    obtain ⟨known, hphase, hknown⟩ := hw.phase
    exact ⟨hw.refilling, hw.waited, hw.lastHarvestAt, hw.lawful, hw.ordered, hw.began,
      known, hphase, hknown.failedSteps, hknown.backlog⟩
  | balance spendableZat =>
    simp only [ReserveRun.step] at hstep
    split at hstep
    · exact Option.some.inj hstep ▸ paceInv_balance hw spendableZat
    · cases hstep
  | drip => exact Option.some.inj hstep ▸ hqueue _
  | start i =>
    obtain ⟨queue, -, rfl⟩ := Option.map_eq_some_iff.mp hstep
    exact hqueue queue
  | dripSettles i =>
    simp only [ReserveRun.step] at hstep
    split at hstep
    · obtain ⟨queue, -, rfl⟩ := Option.map_eq_some_iff.mp hstep
      exact hqueue queue
    · cases hstep
  | stepSettles i out =>
    simp only [ReserveRun.step] at hstep
    split at hstep
    · obtain ⟨queue, -, rfl⟩ := Option.map_eq_some_iff.mp hstep
      exact hqueue queue
    · cases hstep
  | deadline i =>
    obtain ⟨queue, -, rfl⟩ := Option.map_eq_some_iff.mp hstep
    exact hqueue queue
  | react k => exact paceInv_react hw hstep
  | cleanup k => exact paceInv_cleanup hw hstep

theorem paceInv_new (cfg : ReserveConfig) (maxPending : Nat) (now : ℚ) : PaceInv cfg (.new maxPending now) where
  refilling := rfl
  waited := rfl
  lastHarvestAt := rfl
  lawful := by simp [Attempts.Lawful, PacedRun.new]
  ordered := List.Pairwise.nil
  began := by simp [PacedRun.new]
  phase := ⟨[], .landed rfl (by simp [PacedRun.new, ReserveRun.new]) rfl, rfl, rfl⟩

end

/-! ## The pace of a run -/

/-- Every run of the loop has its notes. -/
theorem exists_pacedRun {s s' : ReserveRun} {es : List ReserveEvent} (h : run (ReserveRun.step cfg) s es = some s')
    (notes : PaceHistory) : ∃ w, run (PacedRun.step cfg) ⟨s, notes⟩ es = some w ∧ w.run = s' := by
  induction es generalizing s notes with
  | nil => exact ⟨_, rfl, Option.some.inj h⟩
  | cons ev es ih =>
    obtain ⟨m, hm, hrest⟩ := Option.bind_eq_some_iff.mp h
    obtain ⟨w, hw, hlast⟩ := ih hrest (PacedRun.note cfg s m notes ev)
    refine ⟨w, ?_, hlast⟩
    rw [run_cons, PacedRun.step, hm]
    exact hw

/-- Only a tick that has read the balance begins a step. -/
theorem balance_of_begun {s s' : ReserveRun} {ev : ReserveEvent} (h : s.step cfg ev = some s')
    (hbegun : s.promises.length < s'.promises.length) :
    ∃ spendableZat, ev = .balance spendableZat ∧ s' = s.balance cfg spendableZat := by
  cases ev with
  | advance ms =>
    simp only [ReserveRun.step] at h
    split at h
    · exact absurd hbegun (by simp [← Option.some.inj h])
    · cases h
  | tick => exact absurd hbegun (by simp [← Option.some.inj h])
  | balance spendableZat =>
    simp only [ReserveRun.step] at h
    split at h
    · exact ⟨spendableZat, rfl, (Option.some.inj h).symm⟩
    · cases h
  | drip => exact absurd hbegun (by simp [← Option.some.inj h])
  | start i =>
    obtain ⟨queue, -, rfl⟩ := Option.map_eq_some_iff.mp h
    exact absurd hbegun (lt_irrefl _)
  | dripSettles i =>
    simp only [ReserveRun.step] at h
    split at h
    · obtain ⟨queue, -, rfl⟩ := Option.map_eq_some_iff.mp h
      exact absurd hbegun (lt_irrefl _)
    · cases h
  | stepSettles i out =>
    simp only [ReserveRun.step] at h
    split at h
    · obtain ⟨queue, -, rfl⟩ := Option.map_eq_some_iff.mp h
      exact absurd hbegun (lt_irrefl _)
    · cases h
  | deadline i =>
    obtain ⟨queue, -, rfl⟩ := Option.map_eq_some_iff.mp h
    exact absurd hbegun (lt_irrefl _)
  | react k =>
    obtain ⟨p, out, -, -, -, rfl⟩ := react_eq_some h
    simp at hbegun
  | cleanup k =>
    simp only [ReserveRun.step, ReserveRun.cleanup] at h
    split at h
    · exact absurd hbegun (by simp [← Option.some.inj h])
    · cases h

theorem eligible_of_begun {w : PacedRun} (hw : PaceInv cfg w) {spendableZat : Option Int}
    (hbegun : w.run.promises.length < (w.run.balance cfg spendableZat).promises.length) :
    Eligible cfg w.run w.history spendableZat := by
  cases ticked_balance hw spendableZat with
  | yields _ _ ends => exact absurd hbegun (by simp [ends])
  | heldBack heligible => exact heligible
  | begins heligible => exact heligible

/-- Of two harvests closer than the interval, the later drains a backlog. -/
theorem draining_of_close {before between after : List Attempt} {a b : Attempt}
    (hlawful : Attempts.Lawful cfg (before ++ a :: between ++ b :: after))
    (hordered : Attempts.Ordered (before ++ a :: between ++ b :: after))
    (ha : a.harvestOnly = true) (harefused : a.wasRefused = false) (hb : b.harvestOnly = true)
    (hclose : b.beganAt - a.beganAt < cfg.harvestIntervalMs) : draining cfg (before ++ a :: between) = true := by
  obtain ⟨hordered, -, -⟩ := List.pairwise_append.mp hordered
  obtain ⟨t, ht, hle⟩ := le_lastHarvest hordered (a := a) (by simp) ha harefused
  rcases (hlawful _ b after rfl).harvest hb with hdrain | hinterval
  · exact hdrain
  · have := hinterval t ht
    linarith

theorem wellPaced_of_inv {w : PacedRun} (hw : PaceInv cfg w) {done : Nat} (hqueue : RefillInv w.run.queue done) :
    WellPaced cfg w where
  starts := by
    intro ev s' hstep hbegun
    obtain ⟨spendableZat, rfl, rfl⟩ := balance_of_begun hstep hbegun
    have heligible := eligible_of_begun hw hbegun
    refine ⟨⟨spendableZat, rfl, heligible⟩, fun j hj => ?_⟩
    obtain ⟨k, hk⟩ := List.mem_iff_getElem?.mp hj
    have hlt := (List.getElem?_eq_some_iff.mp hk).1
    have hdepth := hqueue.shape.depth
    have hempty := heligible.idle
    simp only [SerialQueue.depth] at hempty
    exact (hqueue.shape.isSettled_iff hk).mpr (by omega)
  harvests := by
    intro before a between b after hattempts ha harefused hb _ hclose
    exact draining_of_close (hattempts ▸ hw.lawful) (hattempts ▸ hw.ordered) ha harefused hb hclose
  backoff := by
    intro before a after k hattempts hthrows
    have hdue := (hw.lawful before a after hattempts).backoff
    rwa [hthrows] at hdue

/-- **Refills and harvests keep their pace**, whatever the ticks read and
whatever the steps answer. -/
theorem reserve_pacing (cfg : ReserveConfig) (maxPending : Nat) (now : ℚ) (es : List ReserveEvent) (s : ReserveRun)
    (h : run (ReserveRun.step cfg) (.new maxPending now) es = some s) :
    ∃ w, run (PacedRun.step cfg) (.new maxPending now) es = some w ∧ w.run = s ∧ WellPaced cfg w := by
  obtain ⟨w, hw, rfl⟩ := exists_pacedRun h ⟨[], [], 0⟩
  obtain ⟨done, hqueue⟩ := refillInv_run h
  have hinv : PaceInv cfg w :=
    run_invariant (PaceInv cfg) (fun _ _ _ hinv hstep => paceInv_step hinv hstep)
      (paceInv_new cfg maxPending now) hw
  exact ⟨w, hw, rfl, wellPaced_of_inv hinv hqueue⟩

def hourlyHarvest : ReserveConfig where
  levels := ⟨500, 1000⟩
  shieldCoinbase := true
  harvestMinUTXOs := 50
  harvestIntervalSeconds := 3600
  sendTaskDeadlineMs := 1000
  numberText := fun _ => []

/-- Two harvests that throw, and a third that waits out a tick. -/
def twoThrows : List ReserveEvent :=
  [.tick, .balance (some 2000), .start 0, .stepSettles 0 (.error []), .react 0, .cleanup 0, .advance 3600000,
    .tick, .balance (some 2000), .start 1, .stepSettles 1 (.error []), .react 1, .cleanup 1, .advance 3600000,
    .tick, .balance (some 2000), .tick, .balance (some 2000)]

theorem reserve_pacing_twoThrows :
    (run (PacedRun.step hourlyHarvest) (.new 20 0) twoThrows).map
        (fun w => w.history.attempts.map fun a => (a.beganAt, a.harvestOnly, a.waited)) =
      some [(0, true, 0), (3600000, true, 0), (7200000, true, 1)] ∧
    ∃ w, run (PacedRun.step hourlyHarvest) (.new 20 0) twoThrows = some w ∧ WellPaced hourlyHarvest w := by
  have hruns : (run (ReserveRun.step hourlyHarvest) (.new 20 0) twoThrows).isSome = true := by decide +kernel
  obtain ⟨w, hw, -, hpaced⟩ :=
    reserve_pacing hourlyHarvest 20 0 twoThrows _ (Option.some_get hruns).symm
  exact ⟨by decide +kernel, w, hw, hpaced⟩

end ZcashFaucet.Reserve
