/-
ZcashFaucet.Zcash.OracleWaitTheorems — is the wait for the tip oracle long
enough?

A caller whose own attempt has not begun looks in vain, and such a look is
one that the guards it found still held at (`Held`). The attempt begins
before the next one, and the answer comes one budget later: `InTime` says
that this is in time for every look the guards can hold. `Hope` is what a
caller that sleeps waits for, and every event keeps it (`askInv_step`).

Where a held look comes too late, its caller goes away without a height:
whatever is in flight by then outlasts the looks (`gives_up`). Both
together are `oracleCovers_iff`, with the latest held look worked out.
-/
import ZcashFaucet.Zcash.OracleWait

namespace ZcashFaucet.Zcash

open Lib

/-! ## The latest look -/

/-- The latest of the looks that come `ms` after the entry or before: there
are so many of them, and each sleep may be late. -/
def latestHeld (late ms : ℚ) : ℚ := min (⌊ms / lookSleepMs⌋₊ * (lookSleepMs + late)) ms

/-- And the look behind it. -/
def latestLook (late ms : ℚ) : ℚ := latestHeld late ms + lookSleepMs + late

namespace OracleEntry

variable (e : OracleEntry)

/-- How long the gap since the last attempt holds the caller back. -/
def gapMs : ℚ := e.oracle.lastAttemptAt.getD 0 + minAttemptGapMs - e.enteredAt

/-- An attempt that begins at the look behind the gap is in time: the gap
is short, or few looks fit into it. -/
def GapCovered : Prop :=
  e.gapMs + lookSleepMs + e.late + attemptBudgetMs ≤ oracleWaitMs ∨
    ⌈e.gapMs / lookSleepMs⌉₊ * (lookSleepMs + e.late) + attemptBudgetMs < oracleWaitMs

/-- The guards that the caller found hold at this instant. -/
def Held (t : ℚ) : Prop :=
  (∃ attempt, e.oracle.refreshing = some attempt ∧ t ≤ attempt.since + attemptBudgetMs) ∨
    t < e.oracle.lastAttemptAt.getD 0 + minAttemptGapMs

/-- A look that may come at this instant, after so many sleeps. -/
def Reaches (looks : Nat) (t : ℚ) : Prop :=
  looks * lookSleepMs ≤ t - e.enteredAt ∧ t - e.enteredAt ≤ looks * (lookSleepMs + e.late)

/-- An attempt that begins by the look behind a held one is in time. -/
def InTime : Prop :=
  ∀ (looks : Nat) (since : ℚ), e.Reaches looks since → e.Held since →
    since + lookSleepMs + e.late + attemptBudgetMs < e.enteredAt + oracleWaitMs

variable {e}

theorem Held.earlier {t t' : ℚ} (h : e.Held t) (hle : t' ≤ t) : e.Held t' := by
  rcases h with ⟨attempt, hflies, hbudget⟩ | hgap
  · exact Or.inl ⟨attempt, hflies, hle.trans hbudget⟩
  · exact Or.inr (hle.trans_lt hgap)

end OracleEntry

/-! ## What a look does -/

namespace TipOracle

variable {now later : ℚ} {o : TipOracle}

theorem refresh_cases (now : ℚ) (o : TipOracle) :
    (o.refresh now = o ∧ (o.refreshing.isSome = true ∨ now < o.lastAttemptAt.getD 0 + minAttemptGapMs)) ∨
      (o.refreshing = none ∧ o.lastAttemptAt.getD 0 + minAttemptGapMs ≤ now ∧
        o.refresh now = { o with refreshing := some ⟨now, true⟩, lastAttemptAt := some now }) := by
  unfold refresh
  split
  · rename_i hflying
    exact Or.inl ⟨rfl, Or.inl hflying⟩
  · rename_i hnone
    split
    · rename_i hgap
      exact Or.inl ⟨rfl, Or.inr (by linarith)⟩
    · rename_i hgap
      exact Or.inr ⟨by simpa using hnone, by linarith, rfl⟩

theorem refresh_of_flying (h : o.refreshing.isSome = true) : o.refresh now = o := if_pos h

@[simp] theorem refresh_sources (now : ℚ) (o : TipOracle) : (o.refresh now).sources = o.sources := by
  rcases refresh_cases now o with ⟨hsame, -⟩ | ⟨-, -, hnew⟩
  · rw [hsame]
  · rw [hnew]

theorem refresh_refresh (now : ℚ) (o : TipOracle) : (o.refresh now).refresh now = o.refresh now := by
  rcases refresh_cases now o with ⟨hsame, -⟩ | ⟨-, -, hnew⟩
  · rw [hsame, hsame]
  · rw [hnew]
    exact refresh_of_flying rfl

@[simp] theorem kickIfStale_sources (now : ℚ) (o : TipOracle) : (o.kickIfStale now).sources = o.sources := by
  unfold kickIfStale
  dsimp only
  split
  · exact refresh_sources now o
  · rfl

/-- The kick of a read makes no difference to the `warm` behind it. -/
theorem refresh_kickIfStale (now : ℚ) (o : TipOracle) : (o.kickIfStale now).refresh now = o.refresh now := by
  unfold kickIfStale
  dsimp only
  split
  · exact refresh_refresh now o
  · rfl

@[simp] theorem tip_kickIfStale (now later : ℚ) (o : TipOracle) : (o.kickIfStale now).tip later = o.tip later := by
  rw [tip, kickIfStale_sources, tip]

theorem tip_eq_none_iff :
    o.tip now = none ↔ ∀ e ∈ o.sources.entries, referenceMaxAgeMs < now - e.2.fetchedAt := by
  have hspec := referenceTipAt_spec now o.sources.toTipSources
  constructor
  · intro h e he
    rw [tip] at h
    rw [h] at hspec
    by_contra hfresh
    have hmem : (e.1, tipReference now e.2.toTipSource) ∈ o.sources.toTipSources.fresh now := by
      rw [TipSources.fresh, freshEntries, List.mem_filter]
      exact ⟨List.mem_map_of_mem (List.mem_map_of_mem he), by simpa [tipReference] using hfresh⟩
    rw [hspec] at hmem
    cases hmem
  · intro h
    cases htip : o.tip now with
    | none => rfl
    | some height =>
      rw [tip] at htip
      rw [htip] at hspec
      obtain ⟨⟨x, hx, -⟩, -⟩ := hspec
      rw [TipSources.fresh, freshEntries, List.mem_filter] at hx
      obtain ⟨y, hy, rfl⟩ := List.mem_map.mp hx.1
      obtain ⟨z, hz, rfl⟩ := List.mem_map.mp hy
      have hstale := h z hz
      have hfresh := hx.2
      simp only [tipReference, Bool.not_eq_true', decide_eq_false_iff_not, not_lt] at hfresh
      linarith

/-- What is too old stays too old. -/
theorem tip_eq_none_later (h : o.tip now = none) (hle : now ≤ later) : o.tip later = none := by
  rw [tip_eq_none_iff] at h ⊢
  intro e he
  linarith [h e he]

end TipOracle

theorem look_eq (a : Asking) (r : AskRun) :
    r.look a =
      if r.oracle.tip r.now = none ∧ r.now < a.deadline then
        { r with oracle := r.oracle.refresh r.now, asker := .asleep r.now }
      else
        { r with
          oracle := (r.oracle.kickIfStale r.now).kickIfStale r.now
          asker := .answered (chainFreshness a.gates (some a.nodeHeight) (r.oracle.tip r.now)) } := by
  simp only [AskRun.look, TipOracle.tip_kickIfStale, TipOracle.refresh_kickIfStale]

/-- Both heights known, a gate says something. -/
theorem chainFreshness_known (gates : GateConfig) (n : ℚ) (ext : ClaimedHeight) :
    (chainFreshness gates (some n) (some ext)).externalHeight.isSome = true ∧
      (chainFreshness gates (some n) (some ext)).state ≠ .unverifiable := by
  unfold chainFreshness
  dsimp only
  split
  · exact ⟨rfl, nofun⟩
  · split
    · exact ⟨rfl, nofun⟩
    · exact ⟨rfl, nofun⟩

/-! ## The wait is long enough -/

/-- Why a caller that sleeps since `since` will get its answer. -/
inductive Hope (e : OracleEntry) (since : ℚ) (o : TipOracle) : Prop
  /-- no attempt of its own has begun: the guards held at every look so far -/
  | blocked (looks : Nat)
      (quiet : ∀ attempt, o.refreshing = some attempt → e.oracle.refreshing = some attempt)
      (gap : o.lastAttemptAt = e.oracle.lastAttemptAt)
      (held : e.Held since)
      (reaches : e.Reaches looks since)
  /-- one is in flight -/
  | flying (attempt : TipAttempt) (flies : o.refreshing = some attempt) (asked : attempt.asked = true)
      (soon : attempt.since + attemptBudgetMs < e.enteredAt + oracleWaitMs)
  /-- a height has come since the last look -/
  | known (name : ReferenceName) (v : RatedSource) (get : o.sources.get? name = some v)
      (fresh : since ≤ v.fetchedAt)

structure AskInv (e : OracleEntry) (r : AskRun) : Prop where
  inBudget : ∀ attempt, r.oracle.refreshing = some attempt → r.now ≤ attempt.since + attemptBudgetMs
  asleep : ∀ since, r.asker = .asleep since →
    since ≤ r.now ∧ r.now ≤ since + lookSleepMs + e.late ∧ since < e.enteredAt + oracleWaitMs ∧
      Hope e since r.oracle
  answered : ∀ gate, r.asker = .answered gate → gate.externalHeight.isSome = true ∧ gate.state ≠ .unverifiable

section

variable {e : OracleEntry} {since : ℚ} {r r' : AskRun}

/-- The height an attempt brings back is read at the next look. -/
theorem tip_of_known {o : TipOracle} {now : ℚ} {name : ReferenceName} {v : RatedSource}
    (hget : o.sources.get? name = some v) (hfresh : since ≤ v.fetchedAt)
    (hnow : now ≤ since + lookSleepMs + e.late) : o.tip now ≠ none := by
  intro hnone
  have hstale := TipOracle.tip_eq_none_iff.mp hnone (name, v) (mem_of_get? hget)
  have hlate := e.late_le
  norm_num [referenceMaxAgeMs, lookSleepMs] at hstale hnow
  linarith

/-- Answers with a height make it known. -/
theorem known_of_answers {now : ℚ} {both : TipAnswers} (hboth : ¬ (both.hosh = none ∧ both.direct = none))
    (s : RatedSources) : ∃ name v, (recordAnswers now both s).get? name = some v ∧ v.fetchedAt = now := by
  obtain ⟨name, height, hheight⟩ : ∃ name height, both.height name = some height := by
    cases hhosh : both.hosh with
    | some height => exact ⟨.hosh, height, hhosh⟩
    | none =>
      cases hdirect : both.direct with
      | none => exact absurd ⟨hhosh, hdirect⟩ hboth
      | some answer => exact ⟨.lightwalletd, answer.1, by rw [TipAnswers.height, hdirect, Option.map_some]⟩
  exact ⟨name, answered (s.get? name) height (both.host name) now, by rw [get?_recordAnswers, hheight], rfl⟩

/-- A height that is known stays so when another attempt ends. -/
theorem known_recordAnswers {now : ℚ} (both : TipAnswers) {s : RatedSources} {name : ReferenceName}
    {v : RatedSource} (hget : s.get? name = some v) (hfresh : since ≤ v.fetchedAt) (hnow : since ≤ now) :
    ∃ v', (recordAnswers now both s).get? name = some v' ∧ since ≤ v'.fetchedAt := by
  rw [get?_recordAnswers]
  cases both.height name with
  | none => exact ⟨v, hget, hfresh⟩
  | some height => exact ⟨_, rfl, hnow⟩

/-- The attempt in flight ends. -/
theorem Hope.finish {o : TipOracle} {now : ℚ} (h : Hope e since o) {attempt : TipAttempt}
    (hflies : o.refreshing = some attempt) (both : TipAnswers)
    (hboth : ¬ (attempt.asked = true ∧ both.hosh = none ∧ both.direct = none)) (hnow : since ≤ now) :
    Hope e since (o.finish now both) := by
  by_cases hheight : both.hosh = none ∧ both.direct = none
  · have hasked : attempt.asked = false := by simpa [hheight] using hboth
    cases h with
    | blocked looks quiet gap held reaches =>
      exact .blocked looks (fun _ hnone => nomatch hnone) gap held reaches
    | flying other flies asked soon =>
      obtain rfl := Option.some.inj (hflies.symm.trans flies)
      rw [asked] at hasked
      cases hasked
    | known name v get fresh =>
      obtain ⟨v', hget', hfresh'⟩ := known_recordAnswers both get fresh hnow
      exact .known name v' hget' hfresh'
  · obtain ⟨name, v, hget, hat⟩ := known_of_answers hheight o.sources
    exact .known name v hget (hat ▸ hnow)

/-- Somebody asks the oracle to refresh. -/
theorem Hope.refresh {o : TipOracle} {now : ℚ} (h : Hope e since o) (hin : e.InTime)
    (hnow : now ≤ since + lookSleepMs + e.late) : Hope e since (o.refresh now) := by
  rcases TipOracle.refresh_cases now o with ⟨hsame, -⟩ | ⟨hnone, -, hnew⟩
  · rw [hsame]
    exact h
  · rw [hnew]
    cases h with
    | blocked looks quiet gap held reaches =>
      have hsoon := hin looks since reaches held
      exact .flying ⟨now, true⟩ rfl rfl (show now + _ < _ by linarith)
    | flying other flies asked soon => simp [hnone] at flies
    | known name v get fresh => exact .known name v get fresh

/-- A look that finds no tip is not the last. -/
theorem Hope.look {o : TipOracle} {now : ℚ} (h : Hope e since o) (hin : e.InTime)
    (htip : o.tip now = none) (hbudget : ∀ attempt, o.refreshing = some attempt → now ≤ attempt.since + attemptBudgetMs)
    (hslept : since + lookSleepMs ≤ now) (hlate : now ≤ since + lookSleepMs + e.late) :
    now < e.enteredAt + oracleWaitMs ∧ Hope e now (o.refresh now) := by
  have hattempt : 0 < attemptBudgetMs := by norm_num [attemptBudgetMs_eq]
  cases h with
  | blocked looks quiet gap held reaches =>
    have hsoon := hin looks since reaches held
    refine ⟨by linarith, ?_⟩
    rcases TipOracle.refresh_cases now o with ⟨hsame, hheld⟩ | ⟨-, -, hnew⟩
    · rw [hsame]
      refine .blocked (looks + 1) quiet gap ?_ ?_
      · rcases hheld with hflying | hgap
        · obtain ⟨attempt, hattempt⟩ := Option.isSome_iff_exists.mp hflying
          exact Or.inl ⟨attempt, quiet attempt hattempt, hbudget attempt hattempt⟩
        · exact Or.inr (gap ▸ hgap)
      · obtain ⟨hmany, hfew⟩ := reaches
        constructor
        · push_cast
          linarith
        · push_cast
          linarith
    · rw [hnew]
      exact .flying ⟨now, true⟩ rfl rfl (show now + _ < _ by linarith)
  | flying attempt flies asked soon =>
    refine ⟨by linarith [hbudget attempt flies], ?_⟩
    rw [TipOracle.refresh_of_flying (by simp [flies])]
    exact .flying attempt flies asked soon
  | known name v get fresh => exact absurd htip (tip_of_known get fresh hlate)

theorem refresh_inBudget {o : TipOracle} {now : ℚ}
    (h : ∀ attempt, o.refreshing = some attempt → now ≤ attempt.since + attemptBudgetMs) :
    ∀ attempt, (o.refresh now).refreshing = some attempt → now ≤ attempt.since + attemptBudgetMs := by
  intro attempt hattempt
  rcases TipOracle.refresh_cases now o with ⟨hsame, -⟩ | ⟨-, -, hnew⟩
  · exact h attempt (hsame ▸ hattempt)
  · rw [hnew] at hattempt
    cases hattempt
    norm_num [attemptBudgetMs_eq]

theorem kickIfStale_inBudget {o : TipOracle} {now : ℚ}
    (h : ∀ attempt, o.refreshing = some attempt → now ≤ attempt.since + attemptBudgetMs) :
    ∀ attempt, (o.kickIfStale now).refreshing = some attempt → now ≤ attempt.since + attemptBudgetMs := by
  unfold TipOracle.kickIfStale
  dsimp only
  split
  · exact refresh_inBudget h
  · exact h

namespace AskInv

/-- Time passes. -/
theorem tick (h : AskInv e r) {ms : ℚ} (hms : 0 ≤ ms)
    (hpass : r.mayPass e.asking (r.now + ms) = true) : AskInv e { r with now := r.now + ms } := by
  simp only [AskRun.mayPass, Bool.and_eq_true] at hpass
  obtain ⟨hattempts, hasker⟩ := hpass
  refine ⟨?_, ?_, h.answered⟩
  · intro attempt hattempt
    have hattempt : r.oracle.refreshing = some attempt := hattempt
    simpa [hattempt] using hattempts
  · intro since hasleep
    have hasleep : r.asker = .asleep since := hasleep
    obtain ⟨hbefore, -, hdeadline, hope⟩ := h.asleep since hasleep
    rw [hasleep] at hasker
    exact ⟨show since ≤ r.now + ms by linarith, of_decide_eq_true hasker, hdeadline, hope⟩

/-- The attempt in flight ends. -/
theorem ends (h : AskInv e r) {attempt : TipAttempt} (hflies : r.oracle.refreshing = some attempt)
    (both : TipAnswers) (hboth : ¬ (attempt.asked = true ∧ both.hosh = none ∧ both.direct = none)) :
    AskInv e { r with oracle := r.oracle.finish r.now both } := by
  refine ⟨(fun _ hnone => nomatch hnone), ?_, h.answered⟩
  intro since hasleep
  obtain ⟨hbefore, hlate, hdeadline, hope⟩ := h.asleep since hasleep
  exact ⟨hbefore, hlate, hdeadline, hope.finish hflies both hboth hbefore⟩

/-- The caller looks: it sleeps on, or has a height. -/
theorem look (h : AskInv e r) (hin : e.InTime) (hasleep : r.asker = .asleep since)
    (hslept : since + lookSleepMs ≤ r.now) : AskInv e (r.look e.asking) := by
  obtain ⟨-, hlate, -, hope⟩ := h.asleep since hasleep
  rw [look_eq]
  split
  · rename_i htip
    obtain ⟨hbefore, hope⟩ := hope.look hin htip.1 h.inBudget hslept hlate
    refine ⟨refresh_inBudget h.inBudget, ?_, nofun⟩
    intro now hnow
    cases hnow
    have hlateness := e.late_nonneg
    refine ⟨le_rfl, ?_, hbefore, hope⟩
    norm_num [lookSleepMs]
    linarith
  · rename_i hlast
    refine ⟨kickIfStale_inBudget (kickIfStale_inBudget h.inBudget), nofun, ?_⟩
    intro gate hgate
    cases hgate
    cases htip : r.oracle.tip r.now with
    | some height => exact chainFreshness_known _ _ _
    | none =>
      have hbefore := (hope.look hin htip h.inBudget hslept hlate).1
      exact absurd ⟨htip, hbefore⟩ hlast

/-- Anybody reads the tip. -/
theorem refreshes (h : AskInv e r) (hin : e.InTime) :
    AskInv e { r with oracle := r.oracle.refresh r.now } := by
  refine ⟨refresh_inBudget h.inBudget, ?_, h.answered⟩
  intro since hasleep
  obtain ⟨hbefore, hlate, hdeadline, hope⟩ := h.asleep since hasleep
  exact ⟨hbefore, hlate, hdeadline, hope.refresh hin hlate⟩

end AskInv

theorem askInv_step {ev : AskEvent} (hin : e.InTime) (h : AskInv e r)
    (hstep : r.step e.asking ev = some r') : AskInv e r' := by
  cases ev with
  | tick ms =>
    simp only [AskRun.step, Option.ite_none_right_eq_some, Option.some.injEq] at hstep
    obtain ⟨⟨hms, hpass⟩, rfl⟩ := hstep
    exact h.tick hms hpass
  | ends both =>
    simp only [AskRun.step] at hstep
    split at hstep
    · cases hstep
    · rename_i attempt hflies
      split at hstep
      · cases hstep
      · rename_i hboth
        obtain rfl := Option.some.inj hstep
        exact h.ends hflies both hboth
  | wakes =>
    simp only [AskRun.step] at hstep
    split at hstep
    · rename_i since hasleep
      split at hstep
      · rename_i hslept
        obtain rfl := Option.some.inj hstep
        exact h.look hin hasleep hslept
      · cases hstep
    · cases hstep
  | refreshes =>
    simp only [AskRun.step] at hstep
    obtain rfl := Option.some.inj hstep
    exact h.refreshes hin

end

theorem start_eq (e : OracleEntry) :
    e.start = ⟨e.enteredAt, e.oracle.refresh e.enteredAt, .asleep e.enteredAt⟩ := by
  have hwait : e.enteredAt < e.enteredAt + oracleWaitMs := by norm_num [oracleWaitMs_eq]
  rw [OracleEntry.start, look_eq, if_pos ⟨e.noTip, hwait⟩]

/-- At the entry, either the caller's attempt begins or the guards hold. -/
theorem hope_start (e : OracleEntry) : Hope e e.enteredAt (e.oracle.refresh e.enteredAt) := by
  rcases TipOracle.refresh_cases e.enteredAt e.oracle with ⟨hsame, hheld⟩ | ⟨-, -, hnew⟩
  · rw [hsame]
    refine .blocked 0 (fun _ hflies => hflies) rfl ?_ ⟨by simp, by simp⟩
    rcases hheld with hflying | hgap
    · obtain ⟨attempt, hflies⟩ := Option.isSome_iff_exists.mp hflying
      exact Or.inl ⟨attempt, hflies, (e.inFlight attempt hflies).2.2⟩
    · exact Or.inr hgap
  · rw [hnew]
    exact .flying ⟨e.enteredAt, true⟩ rfl rfl (by norm_num [attemptBudgetMs_eq, oracleWaitMs_eq])

theorem askInv_start (e : OracleEntry) : AskInv e e.start := by
  rw [start_eq]
  refine ⟨refresh_inBudget fun attempt hflies => (e.inFlight attempt hflies).2.2, ?_, nofun⟩
  intro since hasleep
  cases hasleep
  have hlate := e.late_nonneg
  refine ⟨le_rfl, ?_, ?_, hope_start e⟩
  · norm_num [lookSleepMs]
    linarith
  · norm_num [oracleWaitMs_eq]

/-- The wait covers a whole attempt behind every look in vain. -/
theorem oracleCovers_of_inTime {e : OracleEntry} (hin : e.InTime) : OracleCovers e := by
  intro events r hrun
  have hinv := run_invariant (AskInv e) (fun _ _ _ => askInv_step hin) (askInv_start e) hrun
  refine ⟨hinv.answered, fun hover => ?_⟩
  cases hasker : r.asker with
  | answered gate => exact ⟨gate, rfl⟩
  | asleep since =>
    obtain ⟨-, hlate, hdeadline, -⟩ := hinv.asleep since hasker
    linarith

/-! ## An answer that comes too late -/

/-- So many looks, each behind such a sleep. -/
def looksAfter (sleep : ℚ) : Nat → List AskEvent
  | 0 => []
  | n + 1 => .tick sleep :: .wakes :: looksAfter sleep n

section

variable {a : Asking} {o : TipOracle} {sleep began : ℚ}

/-- Time passes while the caller sleeps. -/
theorem tick_asleep {now : ℚ} (hms : 0 ≤ sleep)
    (hbudget : ∀ attempt, o.refreshing = some attempt → now + sleep ≤ attempt.since + attemptBudgetMs)
    (hlate : now + sleep ≤ began + lookSleepMs + a.late) :
    AskRun.step a ⟨now, o, .asleep began⟩ (.tick sleep) = some ⟨now + sleep, o, .asleep began⟩ := by
  have hpass : AskRun.mayPass a ⟨now, o, .asleep began⟩ (now + sleep) = true := by
    refine Bool.and_eq_true_iff.mpr ⟨?_, decide_eq_true hlate⟩
    rw [Option.all_eq_true]
    exact fun attempt hflies => decide_eq_true (hbudget attempt hflies)
  exact if_pos ⟨hms, hpass⟩

/-- The caller sleeps once and looks again. -/
theorem sleep_look (o : TipOracle) (began : ℚ) {sleep : ℚ} (hsleep : lookSleepMs ≤ sleep)
    (hlate : sleep ≤ lookSleepMs + a.late)
    (hbudget : ∀ attempt, o.refreshing = some attempt → began + sleep ≤ attempt.since + attemptBudgetMs) :
    run (AskRun.step a) ⟨began, o, .asleep began⟩ [.tick sleep, .wakes] =
      some (AskRun.look a ⟨began + sleep, o, .asleep began⟩) := by
  have hpos : 0 < sleep := lt_of_lt_of_le (by norm_num [lookSleepMs]) hsleep
  have hwakes : AskRun.step a ⟨began + sleep, o, .asleep began⟩ .wakes =
      some (AskRun.look a ⟨began + sleep, o, .asleep began⟩) := if_pos (by linarith)
  rw [run_cons, tick_asleep hpos.le hbudget (by linarith), Option.bind_some, run_cons, hwakes]
  rfl

/-- Looks while the guards hold and no tip is known. -/
theorem looksAfter_run (hsleep : lookSleepMs ≤ sleep) (hlate : sleep ≤ lookSleepMs + a.late) (n : Nat)
    (htip : o.tip began = none) (hheld : ∀ t ≤ began + n * sleep, o.refresh t = o)
    (hbudget : ∀ attempt, o.refreshing = some attempt → began + n * sleep ≤ attempt.since + attemptBudgetMs)
    (hdeadline : began + n * sleep < a.deadline) :
    run (AskRun.step a) ⟨began, o, .asleep began⟩ (looksAfter sleep n) =
      some ⟨began + n * sleep, o, .asleep (began + n * sleep)⟩ := by
  have hpos : 0 < sleep := lt_of_lt_of_le (by norm_num [lookSleepMs]) hsleep
  induction n generalizing began with
  | zero => simp [looksAfter]
  | succ n ih =>
    have hspan : (0 : ℚ) ≤ n * sleep := by positivity
    have hsum : began + (n + 1 : Nat) * sleep = began + sleep + n * sleep := by
      push_cast
      ring
    rw [hsum] at hheld hbudget hdeadline ⊢
    have htip : o.tip (began + sleep) = none := TipOracle.tip_eq_none_later htip (by linarith)
    have hlook := sleep_look o began hsleep hlate fun attempt hflies =>
      (show began + sleep ≤ _ by linarith [hbudget attempt hflies])
    rw [look_eq, if_pos ⟨htip, show began + sleep < a.deadline by linarith⟩] at hlook
    dsimp only at hlook
    rw [hheld (began + sleep) (by linarith)] at hlook
    rw [show looksAfter sleep (n + 1) = [.tick sleep, .wakes] ++ looksAfter sleep n from rfl, run_append, hlook,
      Option.bind_some]
    exact ih htip hheld hbudget hdeadline

end

section

variable {e : OracleEntry} {o : TipOracle} {began : ℚ}

/-- A run that ends with a gate without a height. -/
def GivesUp (e : OracleEntry) (r : AskRun) : Prop :=
  ∃ events r', run (AskRun.step e.asking) r events = some r' ∧
    r'.asker = .answered (chainFreshness e.gates (some e.nodeHeight) none)

theorem GivesUp.of_run {r r' : AskRun} {events : List AskEvent} (h : GivesUp e r')
    (hrun : run (AskRun.step e.asking) r events = some r') : GivesUp e r := by
  obtain ⟨events', r'', hrun', hgate⟩ := h
  exact ⟨events ++ events', r'', by rw [run_append, hrun, Option.bind_some, hrun'], hgate⟩

/-- What can be in flight when half the wait is over: nothing, or an
attempt that begins no earlier, at a look. -/
def LateStart (e : OracleEntry) (began : ℚ) (o : TipOracle) : Prop :=
  ∀ attempt, o.refreshing = some attempt → e.enteredAt + attemptBudgetMs ≤ attempt.since ∧
    ∃ looks : Nat, began = attempt.since + looks * lookSleepMs

theorem lateStart_refresh (hnone : o.refreshing = none) (hhalf : e.enteredAt + attemptBudgetMs ≤ began) :
    LateStart e began (o.refresh began) := by
  intro attempt hflies
  rcases TipOracle.refresh_cases began o with ⟨hsame, -⟩ | ⟨-, -, hnew⟩
  · rw [hsame, hnone] at hflies
    cases hflies
  · rw [hnew] at hflies
    obtain rfl := Option.some.inj hflies
    exact ⟨hhalf, 0, by simp⟩

/-- It is still in flight at the next look. -/
theorem LateStart.inBudget (h : LateStart e began o) (hbegan : began < e.enteredAt + oracleWaitMs) :
    ∀ attempt, o.refreshing = some attempt → began + lookSleepMs ≤ attempt.since + attemptBudgetMs := by
  intro attempt hflies
  obtain ⟨hlate, looks, hat⟩ := h attempt hflies
  have hsleep : lookSleepMs = 100 := rfl
  rw [attemptBudgetMs_eq] at hlate ⊢
  rw [oracleWaitMs_eq] at hbegan
  rw [hsleep] at hat ⊢
  have hfew : looks + 1 ≤ 50 := by
    have hlt : (looks : ℚ) < 50 := by linarith
    exact_mod_cast hlt
  have hcast : (looks + 1 : ℚ) ≤ 50 := by exact_mod_cast hfew
  linarith

/-- One punctual look more. -/
theorem LateStart.look (h : LateStart e began o) (hhalf : e.enteredAt + attemptBudgetMs ≤ began + lookSleepMs) :
    LateStart e (began + lookSleepMs) (o.refresh (began + lookSleepMs)) := by
  rcases TipOracle.refresh_cases (began + lookSleepMs) o with ⟨hsame, -⟩ | ⟨hnone, -, -⟩
  · rw [hsame]
    intro attempt hflies
    obtain ⟨hlate, looks, hat⟩ := h attempt hflies
    refine ⟨hlate, looks + 1, ?_⟩
    rw [hat]
    push_cast
    ring
  · exact lateStart_refresh hnone hhalf

/-- **From half the wait on**, a caller whose attempt has not begun by then
goes away without a height. -/
theorem gives_up (n : Nat) (hmany : e.enteredAt + oracleWaitMs ≤ began + n * lookSleepMs)
    (hbegan : began < e.enteredAt + oracleWaitMs) (hhalf : e.enteredAt + attemptBudgetMs ≤ began)
    (htip : o.tip began = none) (h : LateStart e began o) : GivesUp e ⟨began, o, .asleep began⟩ := by
  have hpos : 0 < lookSleepMs := by norm_num [lookSleepMs]
  induction n generalizing began o with
  | zero => exact absurd hbegan (by simpa using hmany)
  | succ n ih =>
    have hsoon : lookSleepMs ≤ lookSleepMs + e.asking.late := le_add_of_nonneg_right e.late_nonneg
    have hlook := sleep_look o began le_rfl hsoon (h.inBudget hbegan)
    have htip' : o.tip (began + lookSleepMs) = none := TipOracle.tip_eq_none_later htip (by linarith)
    rw [look_eq] at hlook
    dsimp only at hlook
    rw [htip'] at hlook
    by_cases hover : began + lookSleepMs < e.enteredAt + oracleWaitMs
    · rw [if_pos ⟨rfl, hover⟩] at hlook
      refine GivesUp.of_run (ih ?_ hover (by linarith) ?_ (h.look (by linarith))) hlook
      · push_cast at hmany
        linarith
      · rw [TipOracle.tip, TipOracle.refresh_sources]
        exact htip'
    · rw [if_neg fun hand => hover hand.2] at hlook
      exact ⟨_, _, hlook, rfl⟩

/-- An attempt that began before the caller may fail at any time. -/
theorem exists_fails (now : ℚ) (asker : Asker)
    (hasked : ∀ attempt, o.refreshing = some attempt → attempt.asked = false) :
    ∃ events, run (AskRun.step e.asking) ⟨now, o, asker⟩ events =
      some ⟨now, { o with refreshing := none }, asker⟩ := by
  cases hflies : o.refreshing with
  | none =>
    refine ⟨[], ?_⟩
    rw [← hflies]
    rfl
  | some attempt =>
    refine ⟨[.ends ⟨none, none⟩], ?_⟩
    simp only [run_cons, AskRun.step, hflies, hasked attempt hflies, Bool.false_eq_true, false_and, if_false]
    rfl

/-- A caller that was held back looks once more, as late as it may be, and
goes away without a height. -/
theorem gives_up_after (hearly : began + lookSleepMs ≤ e.enteredAt + attemptBudgetMs)
    (hlate : e.enteredAt + attemptBudgetMs ≤ began + lookSleepMs + e.late) (htip : o.tip began = none)
    (hasked : ∀ attempt, o.refreshing = some attempt → attempt.asked = false) :
    GivesUp e ⟨began, o, .asleep began⟩ := by
  have hnonneg := e.late_nonneg
  have hle := e.late_le
  have hsleep : lookSleepMs = 100 := rfl
  obtain ⟨events, hfails⟩ := exists_fails (e := e) began (.asleep began) hasked
  refine GivesUp.of_run ?_ hfails
  have hlate' : lookSleepMs + e.late ≤ lookSleepMs + e.asking.late := le_rfl
  have hlook := sleep_look { o with refreshing := none } began (le_add_of_nonneg_right hnonneg) hlate'
    (fun _ hnone => by cases hnone)
  have htip' : o.tip (began + (lookSleepMs + e.late)) = none :=
    TipOracle.tip_eq_none_later htip (by linarith)
  have hbefore : began + (lookSleepMs + e.late) < e.enteredAt + oracleWaitMs := by
    rw [attemptBudgetMs_eq] at hearly
    rw [oracleWaitMs_eq]
    linarith
  rw [look_eq, if_pos ⟨htip', hbefore⟩] at hlook
  refine GivesUp.of_run (gives_up 50 ?_ hbefore (by linarith) ?_ (lateStart_refresh rfl (by linarith))) hlook
  · rw [attemptBudgetMs_eq] at hlate
    rw [oracleWaitMs_eq, hsleep]
    push_cast
    linarith
  · rw [TipOracle.tip, TipOracle.refresh_sources]
    exact htip'

/-- What the caller finds can hold it back up to the instant at which its
guards hold. -/
theorem exists_held {since : ℚ} (hheld : e.Held since) (hafter : e.enteredAt ≤ since) :
    ∃ events o, run (AskRun.step e.asking) e.start events = some ⟨e.enteredAt, o, .asleep e.enteredAt⟩ ∧
      o.sources = e.oracle.sources ∧ (∀ t ≤ since, o.refresh t = o) ∧
        ∀ attempt, o.refreshing = some attempt →
          attempt.asked = false ∧ since ≤ attempt.since + attemptBudgetMs := by
  have hasked : ∀ attempt, e.oracle.refreshing = some attempt → attempt.asked = false :=
    fun attempt hflies => (e.inFlight attempt hflies).1
  rcases hheld with ⟨attempt, hflies, hbudget⟩ | hgap
  · -- the attempt goes on
    have hsame : ∀ t, e.oracle.refresh t = e.oracle := fun t => TipOracle.refresh_of_flying (by simp [hflies])
    refine ⟨[], e.oracle, ?_, rfl, fun t _ => hsame t, ?_⟩
    · rw [start_eq, hsame]
      rfl
    · intro other hother
      obtain rfl := Option.some.inj (hflies.symm.trans hother)
      exact ⟨hasked attempt hflies, hbudget⟩
  · -- an attempt in flight fails at once, and the gap holds
    have hsame : ∀ o : TipOracle, o.lastAttemptAt = e.oracle.lastAttemptAt → ∀ t ≤ since, o.refresh t = o := by
      intro o hlast t ht
      rcases TipOracle.refresh_cases t o with ⟨hsame, -⟩ | ⟨-, hover, -⟩
      · exact hsame
      · rw [hlast] at hover
        linarith
    obtain ⟨events, hfails⟩ := exists_fails (e := e) e.enteredAt (.asleep e.enteredAt) hasked
    refine ⟨events, { e.oracle with refreshing := none }, ?_, rfl, hsame _ rfl, fun _ hnone => by cases hnone⟩
    rw [start_eq, hsame e.oracle rfl _ hafter]
    exact hfails

/-- **A look held back for so long** is one too many. -/
theorem gives_up_of_held {looks : Nat} {since : ℚ} (hreach : e.Reaches looks since) (hheld : e.Held since)
    (hlate : e.enteredAt + attemptBudgetMs ≤ since + lookSleepMs + e.late) : GivesUp e e.start := by
  have hnonneg := e.late_nonneg
  have hle := e.late_le
  have hsleep : lookSleepMs = 100 := rfl
  have hbudget := attemptBudgetMs_eq
  have hwait := oracleWaitMs_eq
  -- the looks up to 4900 ms are enough
  obtain ⟨looks, since, hreach, hheld, hlate, hearly⟩ : ∃ looks since, e.Reaches looks since ∧ e.Held since ∧
      e.enteredAt + attemptBudgetMs ≤ since + lookSleepMs + e.late ∧
        since + lookSleepMs ≤ e.enteredAt + attemptBudgetMs := by
    rcases le_total (since + lookSleepMs) (e.enteredAt + attemptBudgetMs) with hearly | hlater
    · exact ⟨looks, since, hreach, hheld, hlate, hearly⟩
    · refine ⟨49, e.enteredAt + attemptBudgetMs - lookSleepMs, ⟨?_, ?_⟩, hheld.earlier (by linarith), ?_, ?_⟩
      · rw [hbudget, hsleep]
        push_cast
        linarith
      · rw [hbudget, hsleep]
        push_cast
        linarith
      · linarith
      · linarith
  obtain ⟨hlow, hhigh⟩ := hreach
  have hmany : (0 : ℚ) < looks := by
    rcases Nat.eq_zero_or_pos looks with rfl | hpos
    · rw [Nat.cast_zero, zero_mul] at hhigh
      linarith
    · exact_mod_cast hpos
  have hspan : e.enteredAt + looks * ((since - e.enteredAt) / looks) = since := by
    rw [mul_div_cancel₀ _ hmany.ne']
    ring
  have hafter : e.enteredAt ≤ since := by linarith
  obtain ⟨events, o, hstart, hsources, hsame, hquiet⟩ := exists_held hheld hafter
  have htip : ∀ t, e.enteredAt ≤ t → o.tip t = none := by
    intro t ht
    rw [TipOracle.tip, hsources]
    exact TipOracle.tip_eq_none_later e.noTip ht
  have hsleeps : lookSleepMs ≤ (since - e.enteredAt) / looks := by
    rw [le_div_iff₀ hmany, mul_comm]
    exact hlow
  have hpunctual : (since - e.enteredAt) / looks ≤ lookSleepMs + e.asking.late := by
    rw [div_le_iff₀ hmany, mul_comm]
    exact hhigh
  have hlooks := looksAfter_run hsleeps hpunctual looks (htip _ le_rfl) (by rwa [hspan])
    (by rw [hspan]; exact fun attempt hflies => (hquiet attempt hflies).2)
    (by rw [hspan]; exact (show since < e.enteredAt + oracleWaitMs by linarith))
  rw [hspan] at hlooks
  refine GivesUp.of_run (GivesUp.of_run ?_ hlooks) hstart
  exact gives_up_after hearly hlate (htip _ hafter) fun attempt hflies => (hquiet attempt hflies).1

end

/-! ## Exactly when the wait is long enough -/

theorem not_oracleCovers_of_givesUp {e : OracleEntry} (h : GivesUp e e.start) : ¬ OracleCovers e := by
  intro hcovers
  obtain ⟨events, r, hrun, hgate⟩ := h
  have hknown := ((hcovers events r hrun).1 _ hgate).1
  cases hknown

theorem oracleCovers_iff_inTime (e : OracleEntry) : OracleCovers e ↔ e.InTime := by
  refine ⟨fun hcovers looks since hreach hheld => ?_, oracleCovers_of_inTime⟩
  by_contra hlate
  refine not_oracleCovers_of_givesUp (gives_up_of_held hreach hheld ?_) hcovers
  rw [attemptBudgetMs_eq, oracleWaitMs_eq] at hlate
  rw [attemptBudgetMs_eq]
  linarith

section

variable {e : OracleEntry}

theorem looks_le {looks : Nat} {ms : ℚ} (h : looks * lookSleepMs ≤ ms) : looks ≤ ⌊ms / lookSleepMs⌋₊ := by
  apply Nat.le_floor
  rw [le_div_iff₀ (by norm_num [lookSleepMs])]
  exact h

/-- The latest look that an attempt in flight can hold back. -/
theorem inTime_flight_iff {attempt : TipAttempt} (hafter : e.enteredAt ≤ attempt.since + attemptBudgetMs) :
    (∀ looks since, e.Reaches looks since → since ≤ attempt.since + attemptBudgetMs →
        since + lookSleepMs + e.late + attemptBudgetMs < e.enteredAt + oracleWaitMs) ↔
      latestLook e.late (attempt.since + attemptBudgetMs - e.enteredAt) + attemptBudgetMs < oracleWaitMs := by
  have hnonneg := e.late_nonneg
  have hsleep : (0 : ℚ) < lookSleepMs := by norm_num [lookSleepMs]
  set ms := attempt.since + attemptBudgetMs - e.enteredAt
  rw [latestLook]
  constructor
  · intro h
    have hms : 0 ≤ ms := sub_nonneg.mpr hafter
    have hfloor : ⌊ms / lookSleepMs⌋₊ * lookSleepMs ≤ ms :=
      (le_div_iff₀ hsleep).mp (Nat.floor_le (div_nonneg hms hsleep.le))
    have hlater : (0 : ℚ) ≤ ⌊ms / lookSleepMs⌋₊ * e.late := by positivity
    have hlast := h ⌊ms / lookSleepMs⌋₊ (e.enteredAt + latestHeld e.late ms) ⟨?_, ?_⟩ ?_
    · linarith
    · rw [add_sub_cancel_left]
      exact le_min (by linarith) hfloor
    · rw [add_sub_cancel_left]
      exact min_le_left _ _
    · have hheld : latestHeld e.late ms ≤ ms := min_le_right _ _
      linarith
  · intro h looks since hreach hheld
    obtain ⟨hlow, hhigh⟩ := hreach
    have hlooks : (looks : ℚ) ≤ ⌊ms / lookSleepMs⌋₊ := by
      exact_mod_cast looks_le (hlow.trans (show since - e.enteredAt ≤ ms by linarith))
    have hmul := mul_le_mul_of_nonneg_right hlooks (show 0 ≤ lookSleepMs + e.late by linarith)
    have hlatest : since - e.enteredAt ≤ latestHeld e.late ms :=
      le_min (hhigh.trans hmul) (show _ ≤ ms by linarith)
    linarith

/-- The latest look that the gap can hold back, which comes before the gap
is over. -/
theorem inTime_gap_iff :
    (∀ looks since, e.Reaches looks since → since < e.oracle.lastAttemptAt.getD 0 + minAttemptGapMs →
        since + lookSleepMs + e.late + attemptBudgetMs < e.enteredAt + oracleWaitMs) ↔ e.GapCovered := by
  have hnonneg := e.late_nonneg
  have hsleep : (0 : ℚ) < lookSleepMs := by norm_num [lookSleepMs]
  have hgap : e.oracle.lastAttemptAt.getD 0 + minAttemptGapMs = e.enteredAt + e.gapMs := by
    rw [OracleEntry.gapMs]
    ring
  rw [hgap]
  constructor
  · intro h
    by_contra hlate
    rw [OracleEntry.GapCovered, not_or, not_le, not_lt] at hlate
    obtain ⟨hlong, hmany⟩ := hlate
    have hbudget := attemptBudgetMs_eq
    have hwait := oracleWaitMs_eq
    cases hlooks : ⌈e.gapMs / lookSleepMs⌉₊ with
    | zero =>
      rw [hlooks, Nat.cast_zero, zero_mul] at hmany
      linarith
    | succ looks =>
      -- the last look before the end of the gap, as late as it has to be
      rw [hlooks] at hmany
      push_cast at hmany
      have hfits : looks * lookSleepMs < e.gapMs := by
        have hlt : looks < ⌈e.gapMs / lookSleepMs⌉₊ := by omega
        rwa [Nat.lt_ceil, lt_div_iff₀ hsleep] at hlt
      have hspan : (0 : ℚ) ≤ looks * e.late := by positivity
      have hheld := h looks (e.enteredAt + max (looks * lookSleepMs)
        (oracleWaitMs - attemptBudgetMs - lookSleepMs - e.late)) ⟨?_, ?_⟩ ?_
      · linarith [le_max_right (looks * lookSleepMs) (oracleWaitMs - attemptBudgetMs - lookSleepMs - e.late)]
      · rw [add_sub_cancel_left]
        exact le_max_left _ _
      · rw [add_sub_cancel_left]
        exact max_le (by linarith) (by linarith)
      · exact add_lt_add_right (max_lt hfits (by linarith)) _
  · rintro (hshort | hfew) looks since ⟨hlow, hhigh⟩ hheld
    · linarith
    · have hlt : looks < ⌈e.gapMs / lookSleepMs⌉₊ := by
        rw [Nat.lt_ceil, lt_div_iff₀ hsleep]
        linarith
      have hlooks : (looks + 1 : ℚ) ≤ ⌈e.gapMs / lookSleepMs⌉₊ := by exact_mod_cast hlt
      have hmul := mul_le_mul_of_nonneg_right hlooks (show 0 ≤ lookSleepMs + e.late by linarith)
      linarith

/-- **When the wait covers a whole attempt.** An attempt in flight at the
entry may fail late, and the gap may last long: the clock may have been
set back since the last attempt began. -/
theorem oracleCovers_iff (e : OracleEntry) :
    OracleCovers e ↔
      (∀ attempt, e.oracle.refreshing = some attempt →
        latestLook e.late (attempt.since + attemptBudgetMs - e.enteredAt) + attemptBudgetMs < oracleWaitMs) ∧
      e.GapCovered := by
  rw [oracleCovers_iff_inTime, ← inTime_gap_iff]
  constructor
  · intro h
    refine ⟨fun attempt hflies => ?_, fun looks since hreach hgap => h looks since hreach (Or.inr hgap)⟩
    rw [← inTime_flight_iff (e.inFlight attempt hflies).2.2]
    exact fun looks since hreach hbudget => h looks since hreach (Or.inl ⟨attempt, hflies, hbudget⟩)
  · rintro ⟨hflight, hgap⟩ looks since hreach (⟨attempt, hflies, hbudget⟩ | hheld)
    · exact (inTime_flight_iff (e.inFlight attempt hflies).2.2).mpr (hflight attempt hflies) looks since hreach hbudget
    · exact hgap looks since hreach hheld

/-- The gap is no trouble while the last attempt is not far ahead. -/
theorem gapCovered_of_le (h : e.oracle.lastAttemptAt.getD 0 ≤ e.enteredAt + 2900) : e.GapCovered := by
  refine Or.inl ?_
  have hle := e.late_le
  have hsleep : lookSleepMs = 100 := rfl
  have hgap : minAttemptGapMs = 1000 := rfl
  rw [OracleEntry.gapMs, attemptBudgetMs_eq, oracleWaitMs_eq, hsleep, hgap]
  linarith

end

/-- With punctual timers: it began more than one sleep before the entry. -/
theorem latestLook_punctual (ms : ℚ) :
    latestLook 0 ms + attemptBudgetMs < oracleWaitMs ↔ ms + lookSleepMs < attemptBudgetMs := by
  have hsleep : lookSleepMs = 100 := rfl
  rw [latestLook, latestHeld, attemptBudgetMs_eq, oracleWaitMs_eq, hsleep, add_zero, add_zero]
  by_cases hms : 0 ≤ ms
  · have hfloor : ⌊ms / 100⌋₊ * 100 ≤ ms :=
      (le_div_iff₀ (by norm_num)).mp (Nat.floor_le (div_nonneg hms (by norm_num)))
    rw [min_eq_left hfloor]
    constructor
    · intro hlook
      have hfew : ⌊ms / 100⌋₊ + 1 ≤ 49 := by
        have hlt : (⌊ms / 100⌋₊ : ℚ) < 49 := by linarith
        exact_mod_cast hlt
      have hcast : (⌊ms / 100⌋₊ + 1 : ℚ) ≤ 49 := by exact_mod_cast hfew
      have hceil := (div_lt_iff₀ (by norm_num)).mp (Nat.lt_floor_add_one (ms / 100))
      linarith
    · intro hearly
      linarith
  · have hneg : min ((⌊ms / 100⌋₊ : ℚ) * 100) ms ≤ ms := min_le_right _ _
    constructor <;> intro <;> linarith

/-! ## An attempt that the status read began -/

/-- The attempt that the status read began, a millisecond before the
entry. -/
def kickedByStatus : OracleEntry where
  gates := ⟨⟨5, shieldMaxLag_default_le⟩, ⟨10, walletMaxLag_default_le⟩, fun _ => []⟩
  nodeHeight := 100
  enteredAt := 1000000
  oracle := ⟨some ⟨999999, false⟩, some 999999, JsMap.empty⟩
  late := 2
  late_nonneg := by norm_num
  late_le := by norm_num
  noTip := rfl
  inFlight := by
    rintro _ ⟨⟩
    exact ⟨rfl, by norm_num, by norm_num [attemptBudgetMs_eq]⟩

/-- It fails at its budget, and the second attempt begins 5100 ms after the
entry. Every sleep takes 102 ms. -/
def secondTooLate : List AskEvent :=
  looksAfter 102 49 ++ [.tick 1, .ends ⟨none, none⟩, .tick 101, .wakes] ++ looksAfter 102 49

/-- **A claim refused for an oracle that would have answered.** The last look
is 10098 ms after the entry, and the answer would come at 10100 ms. -/
theorem second_attempt_missed :
    (∃ r gate, run (AskRun.step kickedByStatus.asking) kickedByStatus.start secondTooLate = some r ∧
      r.now = 1010098 ∧ r.oracle.refreshing = some ⟨1005100, true⟩ ∧
        r.asker = .answered gate ∧ gate.externalHeight = none ∧ gate.state = .unverifiable) ∧
      ¬ OracleCovers kickedByStatus := by
  have hview : (run (AskRun.step kickedByStatus.asking) kickedByStatus.start secondTooLate).map (fun r =>
      (r.now, r.oracle.refreshing, r.asker.gate?.any fun gate =>
        gate.externalHeight.isNone && decide (gate.state = .unverifiable))) =
      some (1010098, some ⟨1005100, true⟩, true) := by decide +kernel
  obtain ⟨r, hrun, hr⟩ := Option.map_eq_some_iff.mp hview
  simp only [Prod.mk.injEq, Option.any_eq_true, Bool.and_eq_true, Option.isNone_iff_eq_none,
    decide_eq_true_eq] at hr
  obtain ⟨hnow, hflies, gate, hgate, hnone, hstate⟩ := hr
  have hasker := Asker.eq_answered hgate
  exact ⟨⟨r, gate, hrun, hnow, hflies, hasker, hnone, hstate⟩,
    fun hcovers => ((hcovers _ r hrun).1 gate hasker).2 hstate⟩

end ZcashFaucet.Zcash
