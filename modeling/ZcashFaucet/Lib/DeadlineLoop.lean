/-
ZcashFaucet.Lib.DeadlineLoop — a loop that polls a job until it is over
and looks at the clock after every poll.

A poll takes some time, and ends the loop or finds the job pending. After
a pending poll the loop gives up where the timeout has passed, and
otherwise sleeps for an interval and polls again. Times are counted from
the start of the loop.

The loop ends (`run_isSome`). It ends within an interval and one poll of
the latest look at the clock that can still be in time, `lastCheck`, which
is the timeout or less: with calls that take `call` at most, the looks may
not come so late (`run_le`). And it can end that late (`run_pending`,
`lastCheck_eq`).
-/
import Mathlib.Algebra.Order.Floor.Ring
import Mathlib.Algebra.Order.Ring.Rat
import Mathlib.Data.Rat.Floor
import Mathlib.Tactic.FieldSimp
import Mathlib.Tactic.Linarith

namespace ZcashFaucet.Lib

/-- A poll takes its state to how long it takes and either a result or the
state of the next one. -/
structure DeadlineLoop (σ ρ : Type) where
  timeout : ℚ
  interval : ℚ
  poll : σ → ℚ × (ρ ⊕ σ)
  late : σ → ρ

namespace DeadlineLoop

variable {σ ρ : Type} (l : DeadlineLoop σ ρ)

/-- The result and the time of it, of a poll that begins at `t`; `none`
when the fuel runs out. -/
def run : Nat → σ → ℚ → Option (ρ × ℚ)
  | 0, _, _ => none
  | fuel + 1, s, t =>
      match l.poll s with
      | (d, .inl r) => some (r, t + d)
      | (d, .inr s') =>
          if l.timeout < t + d then some (l.late s', t + d) else run fuel s' (t + d + l.interval)

/-- The polls that cannot come after the timeout. -/
def fuel : Nat := ⌊l.timeout / l.interval⌋₊ + 2

theorem run_ended {s : σ} {d : ℚ} {r : ρ} (h : l.poll s = (d, .inl r)) (fuel : Nat) (t : ℚ) :
    l.run (fuel + 1) s t = some (r, t + d) := by
  rw [run, h]

theorem run_late {s s' : σ} {d : ℚ} (h : l.poll s = (d, .inr s')) (fuel : Nat) {t : ℚ}
    (hlate : l.timeout < t + d) : l.run (fuel + 1) s t = some (l.late s', t + d) := by
  rw [run, h]
  exact if_pos hlate

theorem run_pending {s s' : σ} {d : ℚ} (h : l.poll s = (d, .inr s')) (fuel : Nat) {t : ℚ}
    (hintime : t + d ≤ l.timeout) : l.run (fuel + 1) s t = l.run fuel s' (t + d + l.interval) := by
  rw [run, h]
  exact if_neg (not_lt.mpr hintime)

/-! ## The loop ends -/

/-- A loop without a result has slept through its fuel in time. -/
theorem run_none (hpoll : ∀ s, 0 ≤ (l.poll s).1) {fuel : Nat} {s : σ} {t : ℚ}
    (h : l.run (fuel + 1) s t = none) : t + fuel * l.interval ≤ l.timeout := by
  induction fuel generalizing s t with
  | zero =>
    have hd := hpoll s
    rw [run] at h
    split at h
    · cases h
    · rename_i d s' hs
      rw [hs] at hd
      split at h
      · cases h
      · rename_i hlate
        rw [Nat.cast_zero, zero_mul]
        linarith [not_lt.mp hlate]
  | succ fuel ih =>
    have hd := hpoll s
    rw [run] at h
    split at h
    · cases h
    · rename_i d s' hs
      rw [hs] at hd
      split at h
      · cases h
      · have hrest := ih h
        rw [Nat.cast_add, Nat.cast_one, add_mul, one_mul]
        linarith

theorem run_isSome (hinterval : 0 < l.interval) (hpoll : ∀ s, 0 ≤ (l.poll s).1) (s : σ) :
    (l.run l.fuel s 0).isSome := by
  rw [Option.isSome_iff_ne_none]
  intro hnone
  have hslept := l.run_none hpoll hnone
  have hfloor := Nat.lt_floor_add_one (l.timeout / l.interval)
  rw [div_lt_iff₀ hinterval] at hfloor
  rw [zero_add] at hslept
  exact absurd hslept (not_le.mpr (by exact_mod_cast hfloor))

/-! ## When it ends -/

/-- The latest that a look at the clock can be in time, where a look that
comes after `n` sleeps has at most `n + 1` calls before it. -/
def lastCheck (timeout interval call : ℚ) : ℚ :=
  min timeout (⌊timeout / interval⌋₊ * interval + (⌊timeout / interval⌋₊ + 1) * call)

/-- `t` is made of `n` intervals and at most `m` calls. -/
structure MadeOf (interval call t : ℚ) (n m : Nat) : Prop where
  sleeps : n * interval ≤ t
  calls : t ≤ n * interval + m * call

theorem MadeOf.add {interval call t u : ℚ} {n m n' m' : Nat} (h : MadeOf interval call t n m)
    (h' : MadeOf interval call u n' m') : MadeOf interval call (t + u) (n + n') (m + m') := by
  have hsleeps := h.sleeps
  have hsleeps' := h'.sleeps
  have hcalls := h.calls
  have hcalls' := h'.calls
  constructor <;> push_cast <;> linarith

theorem le_lastCheck {timeout interval call t : ℚ} (hinterval : 0 < interval) (hcall : 0 ≤ call) {n : Nat}
    (h : MadeOf interval call t n (n + 1)) (hintime : t ≤ timeout) : t ≤ lastCheck timeout interval call := by
  have hn : n ≤ ⌊timeout / interval⌋₊ := by
    apply Nat.le_floor
    rw [le_div_iff₀ hinterval]
    exact h.sleeps.trans hintime
  have hcast : (n : ℚ) ≤ ⌊timeout / interval⌋₊ := by exact_mod_cast hn
  refine le_min hintime (h.calls.trans ?_)
  push_cast
  gcongr

theorem lastCheck_nonneg {timeout interval call : ℚ} (htimeout : 0 ≤ timeout) (hinterval : 0 ≤ interval)
    (hcall : 0 ≤ call) : 0 ≤ lastCheck timeout interval call :=
  le_min htimeout (by positivity)

/-- **The end of the loop.** Each pending poll is made of sleeps and one
call more, and no poll takes longer than its result allows. -/
theorem run_le {call : ℚ} (hinterval : 0 < l.interval) (hcall : 0 ≤ call) (htimeout : 0 ≤ l.timeout)
    (longest : ρ → ℚ)
    (hpending : ∀ s d s', l.poll s = (d, .inr s') →
      (∃ n, MadeOf l.interval call d n (n + 1)) ∧ d ≤ longest (l.late s'))
    (hended : ∀ s d r, l.poll s = (d, .inl r) → d ≤ longest r) {fuel : Nat} {s : σ} {r : ρ} {t : ℚ}
    (h : l.run fuel s 0 = some (r, t)) :
    t ≤ lastCheck l.timeout l.interval call + l.interval + longest r := by
  -- a poll begins after as many calls as sleeps, and an interval after a look in time
  suffices hpoll : ∀ fuel s begins, (∃ n, MadeOf l.interval call begins n n) →
      begins ≤ lastCheck l.timeout l.interval call + l.interval → l.run fuel s begins = some (r, t) →
      t ≤ lastCheck l.timeout l.interval call + l.interval + longest r by
    refine hpoll fuel s 0 ⟨0, by simp, by simp⟩ ?_ h
    exact add_nonneg (lastCheck_nonneg htimeout hinterval.le hcall) hinterval.le
  intro fuel
  induction fuel with
  | zero =>
    intro s begins _ _ h
    cases h
  | succ fuel ih =>
    intro s begins hmade hbegins h
    rw [run] at h
    split at h
    · rename_i d r' hs
      cases h
      linarith [hended s d r hs]
    · rename_i d s' hs
      obtain ⟨⟨k, hk⟩, hlongest⟩ := hpending s d s' hs
      split at h
      · cases h
        linarith
      · rename_i hlate
        obtain ⟨n, hn⟩ := hmade
        have hlook : MadeOf l.interval call (begins + d) (n + k) (n + k + 1) := hn.add hk
        have hsleep : MadeOf l.interval call l.interval 1 0 := ⟨by simp, by simp⟩
        have hmade : MadeOf l.interval call (begins + d + l.interval) (n + k + 1) (n + k + 1) :=
          hlook.add hsleep
        have hnext := le_lastCheck hinterval hcall hlook (not_lt.mp hlate)
        have hbegins : begins + d + l.interval ≤ lastCheck l.timeout l.interval call + l.interval := by
          linarith
        exact ih s' _ ⟨_, hmade⟩ hbegins h

/-! ## That it can end so late -/

/-- The calls that are as long as each other and end in `lastCheck`. -/
def evenCall (timeout interval call : ℚ) : ℚ :=
  (lastCheck timeout interval call - ⌊timeout / interval⌋₊ * interval) / (⌊timeout / interval⌋₊ + 1)

section

variable {timeout interval call : ℚ} (hinterval : 0 < interval) (hcall : 0 ≤ call) (htimeout : 0 ≤ timeout)
include hinterval htimeout

theorem sleeps_le : ⌊timeout / interval⌋₊ * interval ≤ timeout := by
  rw [← le_div_iff₀ hinterval]
  exact Nat.floor_le (by positivity)

include hcall in
theorem evenCall_nonneg : 0 ≤ evenCall timeout interval call := by
  apply div_nonneg _ (by positivity)
  have hsleeps := sleeps_le hinterval htimeout
  rw [sub_nonneg]
  exact le_min hsleeps (le_add_of_nonneg_right (by positivity))

omit hinterval htimeout in
theorem evenCall_le : evenCall timeout interval call ≤ call := by
  rw [evenCall, div_le_iff₀ (by positivity), sub_le_iff_le_add', mul_comm call]
  exact min_le_right _ _

omit hinterval htimeout in
theorem lastCheck_eq : lastCheck timeout interval call =
    ⌊timeout / interval⌋₊ * (evenCall timeout interval call + interval) + evenCall timeout interval call := by
  have hsum : (⌊timeout / interval⌋₊ + 1 : ℚ) * evenCall timeout interval call =
      lastCheck timeout interval call - ⌊timeout / interval⌋₊ * interval := by
    rw [evenCall, mul_div_cancel₀ _ (by positivity)]
  linarith

end

/-- Polls that are as long as each other, and end in a last one. -/
theorem run_chain {d : ℚ} (hd : 0 ≤ d) (hinterval : 0 ≤ l.interval) (chain : Nat → σ) {n : Nat}
    (hchain : ∀ j ≤ n, l.poll (chain j) = (d, .inr (chain (j + 1))))
    (hintime : n * (d + l.interval) + d ≤ l.timeout) (fuel : Nat) :
    l.run (fuel + (n + 1)) (chain 0) 0 = l.run fuel (chain (n + 1)) ((n + 1) * (d + l.interval)) := by
  suffices hpart : ∀ j ≤ n + 1,
      l.run (fuel + (n + 1)) (chain 0) 0 = l.run (fuel + (n + 1 - j)) (chain j) (j * (d + l.interval)) by
    have hlast := hpart (n + 1) le_rfl
    rw [Nat.sub_self] at hlast
    exact_mod_cast hlast
  intro j
  induction j with
  | zero =>
    intro _
    simp
  | succ j ih =>
    intro hj
    have hstep : (j : ℚ) * (d + l.interval) + d ≤ l.timeout := by
      have hjn : (j : ℚ) ≤ n := by exact_mod_cast Nat.le_of_succ_le_succ hj
      have hmul := mul_le_mul_of_nonneg_right hjn (add_nonneg hd hinterval)
      linarith
    have hfuel : fuel + (n + 1 - j) = fuel + (n + 1 - (j + 1)) + 1 := by omega
    rw [ih (by omega), hfuel, l.run_pending (hchain j (by omega)) _ hstep]
    push_cast
    congr 1
    ring

/-- **The latest end.** -/
theorem run_latest {call : ℚ} (hinterval : 0 < l.interval) (hcall : 0 ≤ call) (htimeout : 0 ≤ l.timeout)
    (chain : Nat → σ)
    (hchain : ∀ j ≤ ⌊l.timeout / l.interval⌋₊,
      l.poll (chain j) = (evenCall l.timeout l.interval call, .inr (chain (j + 1))))
    {d : ℚ} {r : ρ} (hend : l.poll (chain (⌊l.timeout / l.interval⌋₊ + 1)) = (d, .inl r)) :
    l.run l.fuel (chain 0) 0 = some (r, lastCheck l.timeout l.interval call + l.interval + d) := by
  have hlast : lastCheck l.timeout l.interval call =
      ⌊l.timeout / l.interval⌋₊ * (evenCall l.timeout l.interval call + l.interval) +
        evenCall l.timeout l.interval call := lastCheck_eq
  have hfuel : l.fuel = 1 + (⌊l.timeout / l.interval⌋₊ + 1) := by
    rw [fuel]
    omega
  rw [hfuel, l.run_chain (evenCall_nonneg hinterval hcall htimeout) hinterval.le chain hchain
    (hlast ▸ min_le_left _ _), l.run_ended hend, hlast]
  congr 2
  ring

end DeadlineLoop

end ZcashFaucet.Lib
