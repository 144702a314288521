/-
ZcashFaucet.Api.RateLimit — the fixed-window limiter of `rateLimit.ts`.

The clock reads whole seconds. A table keeps the window of each key; it is
swept at most once a window, and a key that comes while the table is full
is let through without being kept.

`Tallied` relates the table to the calls there were: what a key's window
counts is the calls it let through, whatever was swept in between, and a
window that is not over has not been forgotten. The limits follow from
`Lib.FixedWindows`.
-/
import ZcashFaucet.Lib.FixedWindow
import ZcashFaucet.Lib.JsMap
import ZcashFaucet.Lib.JsString
import Mathlib.Data.List.Induction
import Mathlib.Data.Rat.Floor

namespace ZcashFaucet.Api

open Lib

/-! ## The limiter -/

/-- The options of a limiter, after `Math.max(1, Math.floor(…))`. -/
structure RateOptions where
  windowSeconds : ℤ
  max : Nat
  windowSeconds_pos : 1 ≤ windowSeconds
  max_pos : 1 ≤ max

def rateOptions (windowSeconds max : ℚ) : RateOptions where
  windowSeconds := Max.max 1 ⌊windowSeconds⌋
  max := (Max.max 1 ⌊max⌋).toNat
  windowSeconds_pos := le_max_left _ _
  max_pos := by omega

/-- MAX_TRACKED_KEYS. -/
def maxTrackedKeys : Nat := 20000

structure RateLimitVerdict where
  allowed : Bool
  retryAfterSeconds : ℤ
  deriving DecidableEq

/-- A `Window`. -/
structure RateWindow where
  startedAt : ℤ
  count : Nat
  deriving DecidableEq

structure RateLimiter where
  windows : JsMap JsString RateWindow
  nextSweep : ℤ

variable (opts : RateOptions)

def createRateLimiter (now : ℤ) : RateLimiter := ⟨.empty, now + opts.windowSeconds⟩

/-- A window that is not over. -/
def RateWindow.isLive (now : ℤ) (w : RateWindow) : Bool := decide (now - w.startedAt < opts.windowSeconds)

/-- `sweep`: drop the windows that have rolled over. -/
def RateLimiter.sweep (now : ℤ) (l : RateLimiter) : RateLimiter :=
  ⟨l.windows.filterMapValues fun w => if w.isLive opts now then some w else none, now + opts.windowSeconds⟩

def RateLimiter.sweepIfDue (now : ℤ) (l : RateLimiter) : RateLimiter :=
  if now ≥ l.nextSweep ∨ l.windows.size > maxTrackedKeys then l.sweep opts now else l

def allow : RateLimitVerdict := ⟨true, 0⟩

/-- `windows.set(key, { startedAt: at, count: 1 })`. -/
def RateLimiter.open (key : JsString) (now : ℤ) (l : RateLimiter) : RateLimiter :=
  { l with windows := l.windows.set key ⟨now, 1⟩ }

/-- `existing.count++`. -/
def RateLimiter.bump (key : JsString) (l : RateLimiter) : RateLimiter :=
  { l with windows := l.windows.modify key fun w => { w with count := w.count + 1 } }

def check (key : JsString) (now : ℤ) (l : RateLimiter) : RateLimitVerdict × RateLimiter :=
  let l := l.sweepIfDue opts now
  match l.windows.get? key with
  | none => if l.windows.size ≥ maxTrackedKeys then (allow, l) else (allow, l.open key now)
  | some existing =>
      if !existing.isLive opts now then (allow, l.open key now)
      else if existing.count < opts.max then (allow, l.bump key)
      else (⟨false, Max.max 1 (opts.windowSeconds - (now - existing.startedAt))⟩, l)

/-! ## A run of calls -/

/-- A call that was answered, with the window its key has afterwards. -/
structure Checked where
  key : JsString
  time : ℤ
  verdict : RateLimitVerdict
  window : Option RateWindow

structure RateRun where
  limiter : RateLimiter
  log : List Checked

def RateRun.call (r : RateRun) (c : ℤ × JsString) : RateRun :=
  let (verdict, limiter) := check opts c.2 c.1 r.limiter
  ⟨limiter, r.log ++ [⟨c.2, c.1, verdict, limiter.windows.get? c.2⟩]⟩

def rateRun (createdAt : ℤ) (calls : List (ℤ × JsString)) : RateRun :=
  calls.foldl (RateRun.call opts) ⟨createRateLimiter opts createdAt, []⟩

/-- The clock does not go backwards. -/
def InOrder (calls : List (ℤ × JsString)) : Prop := calls.Pairwise fun c d => c.1 ≤ d.1

/-! ## What one step does to the table -/

variable {opts} {l : RateLimiter} {now : ℤ} {key : JsString}

theorem get?_sweep (k : JsString) :
    (l.sweep opts now).windows.get? k = (l.windows.get? k).filter (RateWindow.isLive opts now) := by
  rw [RateLimiter.sweep, JsMap.get?_filterMapValues]
  cases l.windows.get? k with
  | none => rfl
  | some w => rfl

/-- A sweep keeps a window that is not over, with its count. -/
theorem get?_sweep_of_live {k : JsString} {w : RateWindow} (h : l.windows.get? k = some w)
    (hlive : w.isLive opts now = true) : (l.sweep opts now).windows.get? k = some w := by
  rw [get?_sweep, h]
  simp [hlive]

theorem get?_sweepIfDue_of_live {k : JsString} {w : RateWindow} (h : l.windows.get? k = some w)
    (hlive : w.isLive opts now = true) : (l.sweepIfDue opts now).windows.get? k = some w := by
  unfold RateLimiter.sweepIfDue
  split
  · exact get?_sweep_of_live h hlive
  · exact h

/-- What is there after a sweep was there before. -/
theorem get?_of_sweepIfDue {k : JsString} {w : RateWindow}
    (h : (l.sweepIfDue opts now).windows.get? k = some w) : l.windows.get? k = some w := by
  unfold RateLimiter.sweepIfDue at h
  split at h
  · rw [get?_sweep, Option.filter_eq_some_iff] at h
    exact h.1
  · exact h

theorem size_sweepIfDue : (l.sweepIfDue opts now).windows.size ≤ l.windows.size := by
  unfold RateLimiter.sweepIfDue
  split
  · exact JsMap.size_filterMapValues _ _
  · exact le_rfl

theorem get?_open (k : JsString) :
    (l.open key now).windows.get? k = if k = key then some ⟨now, 1⟩ else l.windows.get? k :=
  JsMap.get?_set _ _ _ _

theorem get?_bump (k : JsString) :
    (l.bump key).windows.get? k =
      if k = key then (l.windows.get? k).map fun w => { w with count := w.count + 1 }
      else l.windows.get? k :=
  JsMap.get?_modify _ _ _ _

/-- What a call does, on the table after the sweep. -/
inductive CheckCase (opts : RateOptions) (key : JsString) (now : ℤ) (l : RateLimiter) :
    RateLimitVerdict × RateLimiter → Prop
  | full (hnone : l.windows.get? key = none) : CheckCase opts key now l (allow, l)
  | opened (hover : ∀ w, l.windows.get? key = some w → w.isLive opts now = false)
      (hsize : l.windows.get? key = none → l.windows.size < maxTrackedKeys) :
      CheckCase opts key now l (allow, l.open key now)
  | counted (w : RateWindow) (hw : l.windows.get? key = some w) (hlive : w.isLive opts now = true)
      (hroom : w.count < opts.max) : CheckCase opts key now l (allow, l.bump key)
  | denied (w : RateWindow) (hw : l.windows.get? key = some w) (hlive : w.isLive opts now = true)
      (hfull : opts.max ≤ w.count) :
      CheckCase opts key now l
        (⟨false, Max.max 1 (opts.windowSeconds - (now - w.startedAt))⟩, l)

theorem check_cases (key : JsString) (now : ℤ) (l : RateLimiter) :
    CheckCase opts key now (l.sweepIfDue opts now) (check opts key now l) := by
  unfold check
  generalize l.sweepIfDue opts now = l
  dsimp only
  split
  case h_1 hnone =>
    split
    case isTrue => exact .full hnone
    case isFalse hsize =>
      exact .opened (fun w hw => by rw [hnone] at hw; cases hw) fun _ => by omega
  case h_2 w hw =>
    split
    case isTrue hover =>
      refine .opened (fun w' hw' => ?_) fun hnone => by rw [hnone] at hw; cases hw
      obtain rfl := Option.some.inj (hw.symm.trans hw')
      simpa using hover
    case isFalse hlive =>
      have hlive : w.isLive opts now = true := by simpa using hlive
      split
      case isTrue hroom => exact .counted w hw hlive hroom
      case isFalse hfull => exact .denied w hw hlive (by omega)

/-! ## The table and the calls -/

/-- The calls of a key that were let through, each with the start of the
window it was counted in. A call that was not kept is in none. -/
def stampsFor (k : JsString) (log : List Checked) : List (Stamp ℤ) :=
  log.filterMap fun c =>
    if c.key = k ∧ c.verdict.allowed = true then c.window.map fun w => ⟨w.startedAt, c.time⟩ else none

theorem stampsFor_snoc (k : JsString) (log : List Checked) (c : Checked) :
    stampsFor k (log ++ [c]) = stampsFor k log ++ stampsFor k [c] := by
  simp [stampsFor]

/-- The table is true to the calls up to `now`. -/
structure Tallied (opts : RateOptions) (now : ℤ) (l : RateLimiter) (log : List Checked) : Prop where
  size : l.windows.size ≤ maxTrackedKeys
  count : ∀ k w, l.windows.get? k = some w → 0 < w.count ∧ w.count ≤ opts.max ∧
    (stampsFor k log).countP (fun a => decide (a.start = w.startedAt)) = w.count
  live : ∀ k, ∀ a ∈ stampsFor k log, now < a.start + opts.windowSeconds →
    ∃ w, l.windows.get? k = some w ∧ w.startedAt = a.start
  past : ∀ k, ∀ a ∈ stampsFor k log, a.time ≤ now
  fixed : ∀ k, FixedWindows opts.windowSeconds opts.max (stampsFor k log)

namespace Tallied

variable {log : List Checked}

theorem start (opts : RateOptions) (now : ℤ) : Tallied opts now (createRateLimiter opts now) [] :=
  ⟨Nat.zero_le _, by simp [createRateLimiter, JsMap.empty, JsMap.get?], by simp [stampsFor],
    by simp [stampsFor], fun _ => .nil _ _⟩

theorem later (h : Tallied opts now l log) {now' : ℤ} (hnow : now ≤ now') : Tallied opts now' l log :=
  ⟨h.size, h.count, fun k a ha hlive => h.live k a ha (by omega), fun k a ha => (h.past k a ha).trans hnow,
    h.fixed⟩

/-- A sweep forgets no window that is not over. -/
theorem swept (h : Tallied opts now l log) : Tallied opts now (l.sweepIfDue opts now) log := by
  refine ⟨size_sweepIfDue.trans h.size, fun k w hw => h.count k w (get?_of_sweepIfDue hw), ?_, h.past,
    h.fixed⟩
  intro k a ha hlive
  obtain ⟨w, hw, hstart⟩ := h.live k a ha hlive
  refine ⟨w, get?_sweepIfDue_of_live hw ?_, hstart⟩
  simp only [RateWindow.isLive, decide_eq_true_eq]
  omega

/-- A call that is let through without a window, or refused, is no stamp. -/
theorem unstamped (h : Tallied opts now l log) {c : Checked}
    (hc : c.verdict.allowed = false ∨ c.window = none) : Tallied opts now l (log ++ [c]) := by
  have hnone : ∀ k, stampsFor k [c] = [] := by
    intro k
    rcases hc with hdenied | hunkept
    · simp [stampsFor, hdenied]
    · simp [stampsFor, hunkept]
  have hsame : ∀ k, stampsFor k (log ++ [c]) = stampsFor k log := by
    intro k
    rw [stampsFor_snoc, hnone, List.append_nil]
  exact ⟨h.size, fun k w hw => hsame k ▸ h.count k w hw, fun k => hsame k ▸ h.live k,
    fun k => hsame k ▸ h.past k, fun k => hsame k ▸ h.fixed k⟩

/-- What a kept call adds to the stamps of each key. -/
theorem stampsFor_kept (log : List Checked) (key : JsString) (now : ℤ) (w : RateWindow) (k : JsString) :
    stampsFor k (log ++ [⟨key, now, allow, some w⟩]) =
      if k = key then stampsFor k log ++ [⟨w.startedAt, now⟩] else stampsFor k log := by
  rw [stampsFor_snoc]
  split
  case isTrue hk => simp [stampsFor, hk, allow]
  case isFalse hk =>
    have hk' : ¬ key = k := fun h => hk h.symm
    simp [stampsFor, hk']

theorem past_kept (h : Tallied opts now l log) (w : RateWindow) (k : JsString) :
    ∀ a ∈ stampsFor k (log ++ [⟨key, now, allow, some w⟩]), a.time ≤ now := by
  intro a ha
  rw [stampsFor_kept] at ha
  split at ha
  case isTrue =>
    rcases List.mem_append.mp ha with hold | hnew
    · exact h.past k a hold
    · rw [List.mem_singleton.mp hnew]
  case isFalse => exact h.past k a ha

/-- Where the window of a key is over or gone, all its windows are. -/
theorem all_over (h : Tallied opts now l log)
    (hover : ∀ w, l.windows.get? key = some w → w.isLive opts now = false) :
    ∀ a ∈ stampsFor key log, a.start + opts.windowSeconds ≤ now := by
  intro a ha
  by_contra hlive
  obtain ⟨w, hw, hstart⟩ := h.live key a ha (not_le.mp hlive)
  have hdead := hover w hw
  simp only [RateWindow.isLive, decide_eq_false_iff_not] at hdead
  omega

theorem opened (h : Tallied opts now l log)
    (hover : ∀ w, l.windows.get? key = some w → w.isLive opts now = false)
    (hsize : l.windows.get? key = none → l.windows.size < maxTrackedKeys) :
    Tallied opts now (l.open key now) (log ++ [⟨key, now, allow, some ⟨now, 1⟩⟩]) := by
  have hpos := opts.windowSeconds_pos
  have hall := h.all_over hover
  have hpast : ∀ a ∈ stampsFor key log, a.start < now := fun a ha => by
    have := hall a ha
    omega
  refine ⟨?_, ?_, ?_, ?_, ?_⟩
  · rw [RateLimiter.open, JsMap.size_set]
    cases hget : l.windows.get? key with
    | none => simpa [hget] using Nat.succ_le_of_lt (hsize hget)
    | some w => simpa [hget] using h.size
  · intro k w hw
    rw [get?_open] at hw
    rw [stampsFor_kept]
    split at hw
    case isTrue hk =>
      obtain rfl := Option.some.inj hw
      have hnone : (stampsFor k log).countP (fun a => decide (a.start = now)) = 0 := by
        rw [List.countP_eq_zero]
        intro a ha
        simpa using (hpast a (hk ▸ ha)).ne
      simp [hk ▸ hnone, hk, opts.max_pos]
    case isFalse hk => rw [if_neg hk]; exact h.count k w hw
  · intro k a ha hlive
    rw [stampsFor_kept] at ha
    rw [get?_open]
    split at ha
    case isTrue hk =>
      rw [if_pos hk]
      rcases List.mem_append.mp ha with hold | hnew
      · have := hall a (hk ▸ hold)
        omega
      · exact ⟨_, rfl, by rw [List.mem_singleton.mp hnew]⟩
    case isFalse hk =>
      rw [if_neg hk]
      exact h.live k a ha hlive
  · exact h.past_kept _
  · intro k
    rw [stampsFor_kept]
    split
    case isTrue hk =>
      subst hk
      exact (h.fixed k).push_new (by omega) opts.max_pos hall hpast
    case isFalse => exact h.fixed k

theorem counted (h : Tallied opts now l log) {w : RateWindow} (hw : l.windows.get? key = some w)
    (hlive : w.isLive opts now = true) (hroom : w.count < opts.max) :
    Tallied opts now (l.bump key)
      (log ++ [⟨key, now, allow, some { w with count := w.count + 1 }⟩]) := by
  obtain ⟨hpos, -, hcount⟩ := h.count key w hw
  simp only [RateWindow.isLive, decide_eq_true_eq] at hlive
  -- the window has a stamp, so it is one of the fixed windows
  obtain ⟨b, hb, hstart⟩ : ∃ b ∈ stampsFor key log, b.start = w.startedAt := by
    obtain ⟨b, hb, hdec⟩ := List.countP_pos_iff.mp (hcount ▸ hpos)
    exact ⟨b, hb, of_decide_eq_true hdec⟩
  have hbtime := (h.fixed key).inside b hb
  have hbpast := h.past key b hb
  refine ⟨?_, ?_, ?_, ?_, ?_⟩
  · rw [RateLimiter.bump, JsMap.size_modify]
    exact h.size
  · intro k v hv
    rw [get?_bump] at hv
    rw [stampsFor_kept]
    split at hv
    case isTrue hk =>
      subst hk
      rw [hw, Option.map_some] at hv
      obtain rfl := Option.some.inj hv
      refine ⟨Nat.succ_pos _, hroom, ?_⟩
      simp [hcount]
    case isFalse hk => rw [if_neg hk]; exact h.count k v hv
  · intro k a ha halive
    rw [stampsFor_kept] at ha
    rw [get?_bump]
    split at ha
    case isTrue hk =>
      subst hk
      rw [if_pos rfl, hw]
      rcases List.mem_append.mp ha with hold | hnew
      · obtain ⟨v, hv, hs⟩ := h.live k a hold halive
        obtain rfl := Option.some.inj (hw.symm.trans hv)
        exact ⟨_, rfl, hs⟩
      · exact ⟨_, rfl, by rw [List.mem_singleton.mp hnew]⟩
    case isFalse hk =>
      rw [if_neg hk]
      exact h.live k a ha halive
  · exact h.past_kept _
  · intro k
    rw [stampsFor_kept]
    split
    case isTrue hk =>
      subst hk
      rw [← hstart]
      exact (h.fixed k).push_same hb ⟨by omega, by omega⟩ (by rw [hstart, hcount]; exact hroom)
    case isFalse => exact h.fixed k

/-- One call keeps the table true to the calls. -/
theorem called {r : RateRun} (h : Tallied opts now r.limiter r.log) (key : JsString) :
    Tallied opts now (r.call opts (now, key)).limiter (r.call opts (now, key)).log := by
  have hswept := h.swept
  have hcase := @check_cases opts key now r.limiter
  unfold RateRun.call
  generalize check opts key now r.limiter = result at hcase
  generalize r.limiter.sweepIfDue opts now = l at hswept hcase
  cases hcase with
  | full hnone => exact hswept.unstamped (.inr hnone)
  | opened hover hsize =>
      show Tallied opts now (l.open key now)
        (r.log ++ [⟨key, now, allow, (l.open key now).windows.get? key⟩])
      rw [get?_open, if_pos rfl]
      exact hswept.opened hover hsize
  | counted w hw hlive hroom =>
      show Tallied opts now (l.bump key) (r.log ++ [⟨key, now, allow, (l.bump key).windows.get? key⟩])
      rw [get?_bump, if_pos rfl, hw]
      exact hswept.counted hw hlive hroom
  | denied w hw hlive hfull => exact hswept.unstamped (.inl rfl)

end Tallied

theorem rateRun_snoc (opts : RateOptions) (createdAt : ℤ) (calls : List (ℤ × JsString)) (c : ℤ × JsString) :
    rateRun opts createdAt (calls ++ [c]) = (rateRun opts createdAt calls).call opts c := by
  simp [rateRun]

/-- Along a run the table is true to the calls. -/
theorem tallied_rateRun {createdAt : ℤ} {calls : List (ℤ × JsString)} (horder : InOrder calls)
    (hcreated : ∀ c ∈ calls, createdAt ≤ c.1) {now : ℤ} (hnow : createdAt ≤ now)
    (hlast : ∀ c ∈ calls, c.1 ≤ now) :
    Tallied opts now (rateRun opts createdAt calls).limiter (rateRun opts createdAt calls).log := by
  induction calls using List.reverseRecOn generalizing now with
  | nil => exact (Tallied.start opts createdAt).later hnow
  | append_singleton calls c ih =>
      rw [InOrder, List.pairwise_append] at horder
      have hc := ih horder.1 (fun d hd => hcreated d (List.mem_append_left _ hd))
        (hcreated c (by simp)) fun d hd => horder.2.2 d hd c (List.mem_singleton.mpr rfl)
      rw [rateRun_snoc]
      exact (hc.called c.2).later (hlast c (by simp))

/-! ## A refusal -/

/-- A call is refused exactly if its window is not over and has no room. -/
theorem check_allowed_iff :
    (check opts key now l).1.allowed = true ↔
      ∀ w, l.windows.get? key = some w → w.isLive opts now = true → w.count < opts.max := by
  have hcase := @check_cases opts key now l
  constructor
  · intro hallowed w hw hlive
    have hswept := get?_sweepIfDue_of_live hw hlive
    generalize check opts key now l = result at hcase hallowed
    generalize l.sweepIfDue opts now = l' at hswept hcase
    cases hcase with
    | full hnone => rw [hnone] at hswept; cases hswept
    | opened hover => rw [hover w hswept] at hlive; cases hlive
    | counted v hv _ hroom =>
        obtain rfl := Option.some.inj (hv.symm.trans hswept)
        exact hroom
    | denied => cases hallowed
  · intro hroom
    have hback := fun w => @get?_of_sweepIfDue opts l now key w
    generalize check opts key now l = result at hcase ⊢
    generalize l.sweepIfDue opts now = l' at hback hcase
    cases hcase with
    | full => rfl
    | opened => rfl
    | counted => rfl
    | denied w hw hlive hfull => exact absurd (hroom w (hback w hw) hlive) (not_lt.mpr hfull)

/-- After a refusal the same call is let through from the announced second
on, and not before. -/
theorem retry_exact {retryAfter : ℤ} {l' : RateLimiter} (h : check opts key now l = (⟨false, retryAfter⟩, l'))
    (t : ℤ) : (check opts key t l').1.allowed = true ↔ now + retryAfter ≤ t := by
  have hcase := @check_cases opts key now l
  rw [h] at hcase
  generalize l.sweepIfDue opts now = swept at hcase
  cases hcase with
  | denied w hw hlive hfull =>
      simp only [RateWindow.isLive, decide_eq_true_eq] at hlive
      rw [check_allowed_iff]
      constructor
      · intro hallowed
        by_contra hearly
        have hlive' : w.isLive opts t = true := by
          simp only [RateWindow.isLive, decide_eq_true_eq]
          omega
        exact absurd (hallowed w hw hlive') (not_lt.mpr hfull)
      · intro hlate v hv hvlive
        obtain rfl := Option.some.inj (hv.symm.trans hw)
        simp only [RateWindow.isLive, decide_eq_true_eq] at hvlive
        omega

/-! ## Limits -/

/-- How many calls of a key were let through from `t` until before `u`. -/
def allowedIn (k : JsString) (t u : ℤ) (log : List Checked) : Nat :=
  log.countP fun c => decide (c.key = k ∧ c.verdict.allowed = true ∧ t ≤ c.time ∧ c.time < u)

/-- Every call of the key in this span left the key in the table. -/
def StaysTracked (k : JsString) (t u : ℤ) (log : List Checked) : Prop :=
  ∀ c ∈ log, c.key = k → t ≤ c.time → c.time < u → c.window.isSome = true

/-- A window of the key started at `t`. -/
def WindowStarts (k : JsString) (t : ℤ) (log : List Checked) : Prop :=
  ∃ c ∈ log, c.key = k ∧ c.verdict.allowed = true ∧ c.window.map RateWindow.startedAt = some t

/-- Calls of a key that stays tracked were counted in its windows. -/
theorem allowedIn_le {k : JsString} {t u : ℤ} {log : List Checked} (h : StaysTracked k t u log)
    (hu : u ≤ t + opts.windowSeconds) :
    allowedIn k t u log ≤ countSpan opts.windowSeconds t (stampsFor k log) := by
  induction log with
  | nil => exact Nat.zero_le _
  | cons c log ih =>
      have htail := ih fun d hd => h d (List.mem_cons_of_mem _ hd)
      have hcons : stampsFor k (c :: log) = stampsFor k [c] ++ stampsFor k log := by
        rw [← List.singleton_append, stampsFor, List.filterMap_append]
        rfl
      rw [hcons, countSpan, List.countP_append, allowedIn, List.countP_cons]
      refine (Nat.add_comm _ _).trans_le (Nat.add_le_add ?_ htail)
      split
      case isFalse => exact Nat.zero_le _
      case isTrue hin =>
        obtain ⟨hk, hallowed, hfrom, huntil⟩ := of_decide_eq_true hin
        obtain ⟨w, hw⟩ := Option.isSome_iff_exists.mp (h c List.mem_cons_self hk hfrom huntil)
        have hspan : c.time < t + opts.windowSeconds := by omega
        simp [stampsFor, hk, hallowed, hw, hfrom, hspan]

theorem stamp_of_windowStarts {k : JsString} {t : ℤ} {log : List Checked} (h : WindowStarts k t log) :
    ∃ a ∈ stampsFor k log, a.start = t := by
  obtain ⟨c, hc, hk, hallowed, hstart⟩ := h
  obtain ⟨w, hw, hwt⟩ := Option.map_eq_some_iff.mp hstart
  refine ⟨⟨w.startedAt, c.time⟩, List.mem_filterMap.mpr ⟨c, hc, ?_⟩, hwt⟩
  simp [hk, hallowed, hw]

/-- **The books of the limiter.** On every run with a clock that does not
go backwards: the table never has more keys than it may. A key that stays
tracked is let through at most `max` times in a window of its own, and at
most twice as often in any span within the length of one. A refusal names
the second from which the same call is let through. A sweep keeps every
window that is not over, with its count. -/
theorem limiter_accounts {createdAt : ℤ} {calls : List (ℤ × JsString)} (horder : InOrder calls)
    (hcreated : ∀ c ∈ calls, createdAt ≤ c.1) :
    (rateRun opts createdAt calls).limiter.windows.size ≤ maxTrackedKeys ∧
    (∀ k t u, WindowStarts k t (rateRun opts createdAt calls).log → u ≤ t + opts.windowSeconds →
      StaysTracked k t u (rateRun opts createdAt calls).log →
        allowedIn k t u (rateRun opts createdAt calls).log ≤ opts.max) ∧
    (∀ k t u, u ≤ t + opts.windowSeconds → StaysTracked k t u (rateRun opts createdAt calls).log →
      allowedIn k t u (rateRun opts createdAt calls).log ≤ 2 * opts.max) ∧
    (∀ k now retryAfter l',
      check opts k now (rateRun opts createdAt calls).limiter = (⟨false, retryAfter⟩, l') →
        ∀ t, (check opts k t l').1.allowed = true ↔ now + retryAfter ≤ t) ∧
    (∀ k now w, (rateRun opts createdAt calls).limiter.windows.get? k = some w →
      w.isLive opts now = true →
        ((rateRun opts createdAt calls).limiter.sweep opts now).windows.get? k = some w) := by
  obtain ⟨now, hnow, hlast⟩ : ∃ now, createdAt ≤ now ∧ ∀ c ∈ calls, c.1 ≤ now := by
    rcases List.eq_nil_or_concat calls with rfl | ⟨before, c, rfl⟩
    · exact ⟨createdAt, le_rfl, by simp⟩
    · rw [List.concat_eq_append] at horder hcreated ⊢
      rw [InOrder, List.pairwise_append] at horder
      refine ⟨c.1, hcreated c (by simp), ?_⟩
      intro d hd
      rcases List.mem_append.mp hd with hold | hnew
      · exact horder.2.2 d hold c (List.mem_singleton.mpr rfl)
      · rw [List.mem_singleton.mp hnew]
  have h := @tallied_rateRun opts _ _ horder hcreated _ hnow hlast
  refine ⟨h.size, ?_, ?_, fun k now retryAfter l' hdenied t => retry_exact hdenied t,
    fun k now w hw hlive => get?_sweep_of_live hw hlive⟩
  · intro k t u hstarts hu htracked
    obtain ⟨a, ha, rfl⟩ := stamp_of_windowStarts hstarts
    exact (allowedIn_le htracked hu).trans ((h.fixed k).window_le ha)
  · intro k t u hu htracked
    exact (allowedIn_le htracked hu).trans ((h.fixed k).span_le t)

/-! ## Two windows of one visitor -/

/-- Two calls a minute; the visitor calls at the end of a window and at
the start of the next. -/
def boundaryCalls : List (ℤ × JsString) :=
  [(100, js "visitor"), (159, js "visitor"), (159, js "visitor"), (160, js "visitor"), (161, js "visitor"),
    (161, js "visitor")]

theorem limiter_accounts_boundary :
    ((rateRun (rateOptions 60 2) 100 boundaryCalls).log.map fun c => c.verdict) =
      [allow, allow, ⟨false, 1⟩, allow, allow, ⟨false, 59⟩] ∧
    allowedIn (js "visitor") 159 219 (rateRun (rateOptions 60 2) 100 boundaryCalls).log = 3 ∧
    allowedIn (js "visitor") 159 219 (rateRun (rateOptions 60 2) 100 boundaryCalls).log ≤
      2 * (rateOptions 60 2).max := by
  refine ⟨by decide +kernel, by decide +kernel, ?_⟩
  refine (limiter_accounts (by rw [InOrder]; decide) (by decide)).2.2.1 (js "visitor") 159 219
    (by decide +kernel) ?_
  have htracked : (rateRun (rateOptions 60 2) 100 boundaryCalls).log.all (fun c => c.window.isSome) = true := by
    decide +kernel
  exact fun c hc _ _ _ => List.all_eq_true.mp htracked c hc

end ZcashFaucet.Api
