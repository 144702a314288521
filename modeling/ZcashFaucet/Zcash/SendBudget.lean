/-
ZcashFaucet.Zcash.SendBudget — how long a shielded send takes, and how
long it is taken to take: `zcash/sendBudget.ts`, the timings of `config.ts`
and the clock of `zcash/zalletsend.ts`.

A `CallRun` gives every call of a send its outcome and its latency. The
time of the send follows the code's calls and sleeps (`sendTime`), its
outcome is the one of the model without a clock on the run whose clock
reads these times (`polls_eq`).

The poll loop is a `DeadlineLoop`: its last poll begins an interval after
the last look at the clock, so a send may take the interval longer than
`senderWorstCaseMs` counts (`sendTime_le`, `sendTime_latest`). A sleep is
what `setTimeout` makes of the interval (`sleepMs`): one past the longest
timer is a millisecond.
-/
import ZcashFaucet.Lib.DeadlineLoop
import ZcashFaucet.Zcash.Queue
import ZcashFaucet.Zcash.ZalletTheorems

namespace ZcashFaucet.Zcash

open Lib

/-! ## Settings -/

/-- `zalletTimings` of the config, with the floors it puts under them. -/
structure SenderTimings where
  opTimeoutMs : ℚ
  rpcTimeoutMs : ℚ
  pollMs : ℚ
  opTimeout_floor : 5000 ≤ opTimeoutMs
  rpcTimeout_floor : 1000 ≤ rpcTimeoutMs
  poll_floor : 250 ≤ pollMs
  poll_whole : (⌊pollMs⌋ : ℚ) = pollMs

def senderWorstCaseMs (z : SenderTimings) : ℚ :=
  let rpcCalls : ℚ := 3 + pollRetries
  let backoffSleeps : ℚ := pollRetries * (pollRetries + 1) / 2
  z.opTimeoutMs + rpcCalls * z.rpcTimeoutMs + backoffSleeps * z.pollMs

/-- DEADLINE_MARGIN_MS. -/
def deadlineMarginMs : ℚ := 30000

def defaultTaskDeadlineMs (z : SenderTimings) : ℚ := senderWorstCaseMs z + deadlineMarginMs

/-- `config.zallet`, which the timings are spread into. -/
structure ZalletSettings extends ZalletConfig, SenderTimings

theorem senderWorstCaseMs_eq (z : SenderTimings) :
    senderWorstCaseMs z = z.opTimeoutMs + 6 * z.rpcTimeoutMs + 6 * z.pollMs := by
  simp only [senderWorstCaseMs, pollRetries]
  norm_num

theorem SenderTimings.positive (z : SenderTimings) :
    0 < z.opTimeoutMs ∧ 0 < z.rpcTimeoutMs ∧ 0 < z.pollMs :=
  ⟨by linarith [z.opTimeout_floor], by linarith [z.rpcTimeout_floor], by linarith [z.poll_floor]⟩

/-! ## Sleeps -/

/-- How long a sleep of `pollMs * n` is. -/
def sleepMs (z : SenderTimings) (n : Nat) : ℚ := timeoutDelay (z.pollMs * n)

theorem sleepMs_pos (z : SenderTimings) (n : Nat) : 0 < sleepMs z n := timeoutDelay_pos _

theorem one_le_sleep (z : SenderTimings) {n : Nat} (hn : 0 < n) : 1 ≤ z.pollMs * n := by
  have hcast : (1 : ℚ) ≤ n := by exact_mod_cast hn
  have hpoll : 1 ≤ z.pollMs := by linarith [z.poll_floor]
  exact one_le_mul_of_one_le_of_one_le hpoll hcast

theorem sleepMs_le (z : SenderTimings) {n : Nat} (hn : 0 < n) : sleepMs z n ≤ z.pollMs * n :=
  timeoutDelay_le (one_le_sleep z hn)

theorem sleepMs_eq (z : SenderTimings) {n : Nat} (hn : 0 < n) (hkept : z.pollMs * n ≤ timeoutMax) :
    sleepMs z n = z.pollMs * n := by
  have hwhole : (⌊z.pollMs * n⌋ : ℚ) = z.pollMs * n := by
    rw [← z.poll_whole]
    exact_mod_cast Int.floor_intCast (⌊z.pollMs⌋ * n)
  rw [sleepMs, timeoutDelay, if_pos ⟨one_le_sleep z hn, hkept⟩, hwhole]

/-- A sleep that is too long for a timer is a millisecond. -/
theorem sleepMs_cut (z : SenderTimings) {n : Nat} (hcut : timeoutMax < z.pollMs * n) : sleepMs z n = 1 :=
  if_neg fun h => absurd h.2 (not_le.mpr hcut)

/-- Every sleep of the sender is as long as asked. -/
def SleepsKept (z : SenderTimings) : Prop := z.pollMs * pollRetries ≤ timeoutMax

instance (z : SenderTimings) : Decidable (SleepsKept z) := inferInstanceAs (Decidable (_ ≤ _))

theorem SleepsKept.sleepMs_eq {z : SenderTimings} (h : SleepsKept z) {n : Nat} (hn : 0 < n)
    (hle : n ≤ pollRetries) : sleepMs z n = z.pollMs * n := by
  apply Zcash.sleepMs_eq z hn
  have hcast : (n : ℚ) ≤ pollRetries := by exact_mod_cast hle
  exact (mul_le_mul_of_nonneg_left hcast z.positive.2.2.le).trans h

/-! ## The clock of a send -/

structure TimedCall where
  outcome : RpcOutcome
  latency : ℚ
  latency_nonneg : 0 ≤ latency

/-- The calls of a send, in the order they are made. -/
structure CallRun where
  unlock : TimedCall
  sendmany : TimedCall
  status : Nat → TimedCall
  result : TimedCall

/-- No call outlives its abort signal. -/
structure CallRun.WithinTimeout (run : CallRun) (rpcTimeoutMs : ℚ) : Prop where
  unlock : run.unlock.latency ≤ rpcTimeoutMs
  sendmany : run.sendmany.latency ≤ rpcTimeoutMs
  status : ∀ k, (run.status k).latency ≤ rpcTimeoutMs
  result : run.result.latency ≤ rpcTimeoutMs

section

variable (z : ZalletSettings) (run : CallRun)

/-- How long `pollStatus` takes from the `k`th call on, and the next call. -/
def pollTime : Nat → Nat → ℚ × Nat
  | 0, k => (0, k)
  | left + 1, k =>
      let call := run.status k
      match rpcFirst z.numText (js "z_getoperationstatus") call.outcome with
      | .ok _ => (call.latency, k + 1)
      | .error _ =>
          let rest := pollTime left (k + 1)
          (call.latency + sleepMs z.toSenderTimings (pollRetries - left) + rest.1, rest.2)

/-- When the `n`th poll begins, if the loop comes to it, and its call. -/
def pollBegins : Nat → ℚ × Nat
  | 0 => (0, 0)
  | n + 1 =>
      let begins := pollBegins n
      let poll := pollTime z run pollRetries begins.2
      (begins.1 + poll.1 + sleepMs z.toSenderTimings 1, poll.2)

/-- When the loop looks at the clock after the `n`th poll. -/
def lookAt (n : Nat) : ℚ := (pollBegins z run n).1 + (pollTime z run pollRetries (pollBegins z run n).2).1

theorem pollTime_nonneg (left k : Nat) : 0 ≤ (pollTime z run left k).1 := by
  induction left generalizing k with
  | zero => exact le_rfl
  | succ left ih =>
    have hsleep := sleepMs_pos z.toSenderTimings (pollRetries - left)
    have hlatency := (run.status k).latency_nonneg
    have hrest := ih (k + 1)
    unfold pollTime
    dsimp only
    split
    · exact hlatency
    · positivity

theorem sleeps_le_pollBegins (n : Nat) : n * sleepMs z.toSenderTimings 1 ≤ (pollBegins z run n).1 := by
  induction n with
  | zero => simp [pollBegins]
  | succ n ih =>
    have hpoll := pollTime_nonneg z run pollRetries (pollBegins z run n).2
    rw [pollBegins]
    dsimp only
    push_cast
    linarith

/-- The run with the clock that these latencies make. -/
def CallRun.toWalletRun : WalletRun z.toZalletConfig where
  unlock := run.unlock.outcome
  sendmany := run.sendmany.outcome
  status k := (run.status k).outcome
  result := run.result.outcome
  startedAt := 0
  clock := lookAt z run
  lastPoll := ⌊z.opTimeoutMs / sleepMs z.toSenderTimings 1⌋₊ + 1
  passes := by
    have hfloor := Nat.lt_floor_add_one (z.opTimeoutMs / sleepMs z.toSenderTimings 1)
    rw [div_lt_iff₀ (sleepMs_pos _ _)] at hfloor
    have hbegins := sleeps_le_pollBegins z run (⌊z.opTimeoutMs / sleepMs z.toSenderTimings 1⌋₊ + 1)
    have hpoll := pollTime_nonneg z run pollRetries
      (pollBegins z run (⌊z.opTimeoutMs / sleepMs z.toSenderTimings 1⌋₊ + 1)).2
    rw [lookAt, zero_add]
    push_cast at hbegins
    linarith

variable (opid : Option Json)

/-- The poll loop of `awaitOperation`, which remembers the next call and
the last status. -/
def operationLoop : DeadlineLoop (Nat × Option Json) PollEnd where
  timeout := z.opTimeoutMs
  interval := sleepMs z.toSenderTimings 1
  poll s :=
    ((pollTime z run pollRetries s.1).1,
      match pollStatus z.toZalletConfig (run.toWalletRun z) opid pollRetries s.1 none with
      | (.error e, _) => .inl (.gaveUp e)
      | (.ok status, k) => if isOver status then .inl .finished else .inr (k, status))
  late s := .gaveUp (stillRunning z.toZalletConfig opid s.2)

/-- How long `awaitOperation` takes. -/
def awaitTime : Option ℚ :=
  ((operationLoop z run opid).run (operationLoop z run opid).fuel (0, none) 0).map fun
    | (.gaveUp _, t) => t
    | (.finished, t) => t + run.result.latency

/-- How long `ZalletSender.send` takes. -/
def sendTime : Option ℚ :=
  if !z.address.truthy then some 0
  else
    let unlocked := if z.passphrase.truthy then run.unlock.latency else 0
    match unlockIfNeeded z.toZalletConfig (run.toWalletRun z) with
    | .error _ => some unlocked
    | .ok _ =>
        let submitted := unlocked + run.sendmany.latency
        match rpc z.numText (js "z_sendmany") run.sendmany.outcome with
        | .error _ => some submitted
        | .ok opid => (awaitTime z run opid).map (submitted + ·)

/-! ## The loop is the one without a clock -/

theorem pollStatus_next (left k : Nat) (lastErr : Option JsError) :
    (pollStatus z.toZalletConfig (run.toWalletRun z) opid left k lastErr).2 = (pollTime z run left k).2 := by
  induction left generalizing k lastErr with
  | zero => rfl
  | succ left ih =>
    have hcall : (run.toWalletRun z).status k = (run.status k).outcome := rfl
    rw [pollStatus, pollTime, hcall]
    cases rpcFirst z.numText (js "z_getoperationstatus") (run.status k).outcome with
    | ok status => rfl
    | error e => exact ih (k + 1) (some e)

/-- The poll of the loop, by how `pollStatus` went. -/
theorem operationLoop_poll (k : Nat) (last : Option Json) :
    (operationLoop z run opid).poll (k, last) =
      ((pollTime z run pollRetries k).1,
        match (pollStatus z.toZalletConfig (run.toWalletRun z) opid pollRetries k none).1 with
        | .error e => .inl (.gaveUp e)
        | .ok status =>
            if isOver status then .inl .finished else .inr ((pollTime z run pollRetries k).2, status)) := by
  have hnext := pollStatus_next z run opid pollRetries k none
  rw [operationLoop]
  dsimp only
  cases hpoll : pollStatus z.toZalletConfig (run.toWalletRun z) opid pollRetries k none with
  | mk out k' =>
    rw [hpoll] at hnext
    rw [← hnext]
    cases out <;> rfl

theorem pollLoop_eq (fuel n : Nat) (last : Option Json) :
    pollLoop z.toZalletConfig (run.toWalletRun z) opid fuel n (pollBegins z run n).2 =
      ((operationLoop z run opid).run fuel ((pollBegins z run n).2, last) (pollBegins z run n).1).map Prod.fst := by
  induction fuel generalizing n last with
  | zero => rfl
  | succ fuel ih =>
    have hpoll := operationLoop_poll z run opid (pollBegins z run n).2 last
    have hnext := pollStatus_next z run opid pollRetries (pollBegins z run n).2 none
    rw [pollLoop]
    cases hstatus : pollStatus z.toZalletConfig (run.toWalletRun z) opid pollRetries (pollBegins z run n).2 none with
    | mk out k =>
      rw [hstatus] at hpoll hnext
      cases out with
      | error e =>
        rw [DeadlineLoop.run_ended _ hpoll]
        rfl
      | ok status =>
        dsimp only at hpoll hnext ⊢
        split
        · rename_i hover
          rw [if_pos hover] at hpoll
          rw [DeadlineLoop.run_ended _ hpoll]
          rfl
        · rename_i hover
          rw [if_neg hover, ← hnext] at hpoll
          have hclock : (run.toWalletRun z).startedAt + z.opTimeoutMs < (run.toWalletRun z).clock n ↔
              z.opTimeoutMs < (pollBegins z run n).1 + (pollTime z run pollRetries (pollBegins z run n).2).1 := by
            rw [show (run.toWalletRun z).startedAt = 0 from rfl, zero_add]
            rfl
          by_cases hlate : z.opTimeoutMs <
              (pollBegins z run n).1 + (pollTime z run pollRetries (pollBegins z run n).2).1
          · rw [if_pos (hclock.mpr hlate), DeadlineLoop.run_late _ hpoll _ hlate]
            rfl
          · rw [if_neg (mt hclock.mp hlate), DeadlineLoop.run_pending _ hpoll _ (not_lt.mp hlate)]
            have hrest := ih (n + 1) status
            rw [pollBegins] at hrest
            dsimp only at hrest
            rw [← hnext] at hrest
            exact hrest

/-- The outcome of the loop is the one on the run whose clock reads these
times. -/
theorem polls_eq :
    polls z.toZalletConfig (run.toWalletRun z) opid =
      ((operationLoop z run opid).run (operationLoop z run opid).fuel (0, none) 0).map Prod.fst :=
  pollLoop_eq z run opid _ 0 none

/-! ## How long it takes -/

/-- What a poll can do: one of its calls is answered, or none, and it
sleeps after each that is not. -/
theorem poll_cases (k : Nat) :
    let status := (pollStatus z.toZalletConfig (run.toWalletRun z) opid pollRetries k none).1
    let d := (pollTime z run pollRetries k).1
    let call i := (run.status (k + i)).latency
    let sleep := sleepMs z.toSenderTimings
    ((∃ v, status = .ok v) ∧
        (d = call 0 ∨ d = call 0 + sleep 1 + call 1 ∨ d = call 0 + sleep 1 + call 1 + sleep 2 + call 2)) ∨
      ((∃ e, status = .error e) ∧ d = call 0 + sleep 1 + call 1 + sleep 2 + call 2 + sleep 3) := by
  dsimp only
  rw [show pollRetries = 3 from rfl]
  simp only [pollStatus, pollTime]
  dsimp only [CallRun.toWalletRun]
  cases h0 : rpcFirst z.numText (js "z_getoperationstatus") (run.status k).outcome with
  | ok v => exact Or.inl ⟨⟨v, rfl⟩, Or.inl rfl⟩
  | error e0 =>
    cases h1 : rpcFirst z.numText (js "z_getoperationstatus") (run.status (k + 1)).outcome with
    | ok v =>
      exact Or.inl ⟨⟨v, rfl⟩, Or.inr (Or.inl rfl)⟩
    | error e1 =>
      cases h2 : rpcFirst z.numText (js "z_getoperationstatus") (run.status (k + 1 + 1)).outcome with
      | ok v =>
        refine Or.inl ⟨⟨v, rfl⟩, Or.inr (Or.inr ?_)⟩
        show _ + sleepMs _ 1 + (_ + sleepMs _ 2 + (run.status (k + 2)).latency) = _
        ring_nf
      | error e2 =>
        refine Or.inr ⟨⟨_, rfl⟩, ?_⟩
        show _ + sleepMs _ 1 + (_ + sleepMs _ 2 + ((run.status (k + 2)).latency + sleepMs _ 3 + 0)) = _
        ring_nf

/-- The longest that a poll takes beside its intervals, for each of them
and once more. One whose sleeps are cut counts as a single call. -/
def pollCallMs (z : SenderTimings) : ℚ :=
  if SleepsKept z then z.rpcTimeoutMs else 3 * z.rpcTimeoutMs + sleepMs z 1 + sleepMs z 2

/-- The longest poll that is answered. -/
def answeredPollMs (z : SenderTimings) : ℚ := 3 * z.rpcTimeoutMs + sleepMs z 1 + sleepMs z 2

/-- The longest poll that is not. -/
def failedPollMs (z : SenderTimings) : ℚ := answeredPollMs z + sleepMs z 3

theorem answeredPollMs_le (z : SenderTimings) : answeredPollMs z ≤ failedPollMs z :=
  le_add_of_nonneg_right (sleepMs_pos z 3).le

theorem failedPollMs_pos (z : SenderTimings) : 0 < failedPollMs z := by
  have hrpc := z.positive.2.1
  have hsleep1 := sleepMs_pos z 1
  have hsleep2 := sleepMs_pos z 2
  have hsleep3 := sleepMs_pos z 3
  rw [failedPollMs, answeredPollMs]
  positivity

theorem pollCallMs_nonneg (z : SenderTimings) : 0 ≤ pollCallMs z := by
  have hrpc := z.positive.2.1
  have hsleep1 := sleepMs_pos z 1
  have hsleep2 := sleepMs_pos z 2
  unfold pollCallMs
  split <;> positivity

variable {z run}

/-- The poll that three calls answer, with its sleeps kept. -/
theorem madeOf_three (hkept : SleepsKept z.toSenderTimings) {a b c : ℚ}
    (hcall : ∀ t ∈ [a, b, c], DeadlineLoop.MadeOf (sleepMs z.toSenderTimings 1) z.rpcTimeoutMs t 0 1) :
    DeadlineLoop.MadeOf (sleepMs z.toSenderTimings 1) z.rpcTimeoutMs
      (a + sleepMs z.toSenderTimings 1 + b + sleepMs z.toSenderTimings 2 + c) 3 4 := by
  have hrpc := z.positive.2.1
  have hsleep : DeadlineLoop.MadeOf (sleepMs z.toSenderTimings 1) z.rpcTimeoutMs
      (sleepMs z.toSenderTimings 1) 1 0 := ⟨by simp, by simp⟩
  have htwice : sleepMs z.toSenderTimings 2 = sleepMs z.toSenderTimings 1 + sleepMs z.toSenderTimings 1 := by
    rw [hkept.sleepMs_eq (by decide) (by decide), hkept.sleepMs_eq (by decide) (by decide)]
    push_cast
    ring
  rw [htwice]
  have hmade := ((((hcall a (by simp)).add hsleep).add (hcall b (by simp))).add (hsleep.add hsleep)).add
    (hcall c (by simp))
  exact ⟨hmade.sleeps, hmade.calls.trans (by push_cast; linarith)⟩

/-- What a poll takes at most, and what one that is answered is made of. -/
theorem poll_le (hrun : run.WithinTimeout z.rpcTimeoutMs) (k : Nat) :
    let status := (pollStatus z.toZalletConfig (run.toWalletRun z) opid pollRetries k none).1
    let d := (pollTime z run pollRetries k).1
    ((∃ v, status = .ok v) ∧
        (∃ n, DeadlineLoop.MadeOf (sleepMs z.toSenderTimings 1) (pollCallMs z.toSenderTimings) d n (n + 1)) ∧
        d ≤ answeredPollMs z.toSenderTimings) ∨
      ((∃ e, status = .error e) ∧ d ≤ failedPollMs z.toSenderTimings) := by
  have hsleep1 := sleepMs_pos z.toSenderTimings 1
  have hsleep2 := sleepMs_pos z.toSenderTimings 2
  have hcall (k : Nat) : DeadlineLoop.MadeOf (sleepMs z.toSenderTimings 1) z.rpcTimeoutMs
      (run.status k).latency 0 1 :=
    ⟨by simpa using (run.status k).latency_nonneg, by simpa using hrun.status k⟩
  have h0 := hrun.status (k + 0)
  have h1 := hrun.status (k + 1)
  have h2 := hrun.status (k + 2)
  have hrpc := z.positive.2.1
  have hnonneg := pollTime_nonneg z run pollRetries k
  have hcases := poll_cases z run opid k
  dsimp only at hcases ⊢
  rcases hcases with ⟨hok, hd⟩ | ⟨herr, hd⟩
  · have hle : (pollTime z run pollRetries k).1 ≤ answeredPollMs z.toSenderTimings := by
      rw [answeredPollMs]
      rcases hd with hd | hd | hd <;> linarith
    refine Or.inl ⟨hok, ?_, hle⟩
    rw [pollCallMs]
    split
    · rename_i hkept
      have hone : DeadlineLoop.MadeOf (sleepMs z.toSenderTimings 1) z.rpcTimeoutMs
          (sleepMs z.toSenderTimings 1) 1 0 := ⟨by simp, by simp⟩
      rcases hd with hd | hd | hd
      · exact ⟨0, hd ▸ hcall _⟩
      · exact ⟨1, hd ▸ ((hcall _).add hone).add (hcall _)⟩
      · refine ⟨3, hd ▸ madeOf_three hkept ?_⟩
        simp [hcall]
    · exact ⟨0, by simpa using hnonneg, by simpa [answeredPollMs] using hle⟩
  · refine Or.inr ⟨herr, ?_⟩
    rw [failedPollMs, answeredPollMs]
    linarith

/-- The calls before the operation: `walletpassphrase`, where there is a
passphrase, and `z_sendmany`. -/
def headCalls (z : ZalletSettings) : Nat := if z.passphrase.truthy then 2 else 1

/-- The latest that a loop of one call a poll finds the operation pending
in time. -/
def lastLookMs (z : SenderTimings) : ℚ :=
  DeadlineLoop.lastCheck z.opTimeoutMs (sleepMs z 1) z.rpcTimeoutMs

/-- The latest end of a send: the poll that begins last is the one whose
calls all fail, or a report is collected after it. -/
def latestSendMs (z : ZalletSettings) : ℚ :=
  headCalls z * z.rpcTimeoutMs +
      DeadlineLoop.lastCheck z.opTimeoutMs (sleepMs z.toSenderTimings 1) (pollCallMs z.toSenderTimings) +
    sleepMs z.toSenderTimings 1 +
    max (failedPollMs z.toSenderTimings) (answeredPollMs z.toSenderTimings + z.rpcTimeoutMs)

/-- The longest poll that ends the loop so. -/
def longestPoll (z : SenderTimings) : PollEnd → ℚ
  | .gaveUp _ => failedPollMs z
  | .finished => answeredPollMs z

theorem operationLoop_pending (hrun : run.WithinTimeout z.rpcTimeoutMs) {s s' : Nat × Option Json} {d : ℚ}
    (h : (operationLoop z run opid).poll s = (d, .inr s')) :
    (∃ n, DeadlineLoop.MadeOf (sleepMs z.toSenderTimings 1) (pollCallMs z.toSenderTimings) d n (n + 1)) ∧
      d ≤ longestPoll z.toSenderTimings ((operationLoop z run opid).late s') := by
  rw [operationLoop_poll z run opid s.1 s.2] at h
  rcases poll_le opid hrun s.1 with ⟨⟨status, hok⟩, hmade, hd⟩ | ⟨⟨e, herr⟩, -⟩
  · rw [hok] at h
    have htime : (pollTime z run pollRetries s.1).1 = d := (Prod.ext_iff.mp h).1
    rw [← htime]
    exact ⟨hmade, hd.trans (answeredPollMs_le _)⟩
  · rw [herr] at h
    cases (Prod.ext_iff.mp h).2

theorem operationLoop_ended (hrun : run.WithinTimeout z.rpcTimeoutMs) {s : Nat × Option Json} {d : ℚ}
    {r : PollEnd} (h : (operationLoop z run opid).poll s = (d, .inl r)) :
    d ≤ longestPoll z.toSenderTimings r := by
  rw [operationLoop_poll z run opid s.1 s.2] at h
  rcases poll_le opid hrun s.1 with ⟨⟨status, hok⟩, -, hd⟩ | ⟨⟨e, herr⟩, hd⟩
  · rw [hok] at h
    obtain ⟨htime, hr⟩ := Prod.ext_iff.mp h
    dsimp only at htime hr
    rw [← htime]
    split at hr
    · cases hr
      exact hd
    · cases hr
  · rw [herr] at h
    have htime : (pollTime z run pollRetries s.1).1 = d := (Prod.ext_iff.mp h).1
    cases (Prod.ext_iff.mp h).2
    rw [← htime]
    exact hd

/-- The operation is waited for, and the wait ends. -/
theorem awaitTime_le (hrun : run.WithinTimeout z.rpcTimeoutMs) :
    ∃ t, awaitTime z run opid = some t ∧
      t ≤ DeadlineLoop.lastCheck z.opTimeoutMs (sleepMs z.toSenderTimings 1) (pollCallMs z.toSenderTimings) +
        sleepMs z.toSenderTimings 1 +
        max (failedPollMs z.toSenderTimings) (answeredPollMs z.toSenderTimings + z.rpcTimeoutMs) := by
  have hinterval : 0 < (operationLoop z run opid).interval := sleepMs_pos z.toSenderTimings 1
  have hsome := (operationLoop z run opid).run_isSome hinterval
    (fun s => pollTime_nonneg z run pollRetries s.1) (0, none)
  obtain ⟨⟨r, t⟩, hend⟩ := Option.isSome_iff_exists.mp hsome
  have hle : t ≤ DeadlineLoop.lastCheck z.opTimeoutMs (sleepMs z.toSenderTimings 1)
      (pollCallMs z.toSenderTimings) + sleepMs z.toSenderTimings 1 + longestPoll z.toSenderTimings r :=
    (operationLoop z run opid).run_le hinterval (pollCallMs_nonneg _) z.positive.1.le _
      (fun _ _ _ => operationLoop_pending opid hrun) (fun _ _ _ => operationLoop_ended opid hrun) hend
  rw [awaitTime, hend]
  cases r with
  | gaveUp e => exact ⟨t, rfl, hle.trans (add_le_add_right (le_max_left _ _) _)⟩
  | finished =>
    have hresult := hrun.result
    refine ⟨t + run.result.latency, rfl, le_trans ?_ (add_le_add_right (le_max_right _ _) _)⟩
    rw [longestPoll] at hle
    linarith

theorem lastLookMs_nonneg (z : SenderTimings) : 0 ≤ lastLookMs z :=
  DeadlineLoop.lastCheck_nonneg z.positive.1.le (sleepMs_pos z 1).le z.positive.2.1.le

/-- **How long a send takes.** -/
theorem sendTime_le (hrun : run.WithinTimeout z.rpcTimeoutMs) :
    ∃ t, sendTime z run = some t ∧ t ≤ latestSendMs z := by
  have hrpc := z.positive.2.1
  have hsleep := sleepMs_pos z.toSenderTimings 1
  have hlook := DeadlineLoop.lastCheck_nonneg z.positive.1.le hsleep.le (pollCallMs_nonneg z.toSenderTimings)
  have hsendmany := hrun.sendmany
  have hunlocked : (if z.passphrase.truthy then run.unlock.latency else 0) + z.rpcTimeoutMs ≤
      headCalls z * z.rpcTimeoutMs := by
    unfold headCalls
    split
    · push_cast
      linarith [hrun.unlock]
    · simp
  have htail : 0 ≤ max (failedPollMs z.toSenderTimings) (answeredPollMs z.toSenderTimings + z.rpcTimeoutMs) :=
    le_max_of_le_left (by linarith [failedPollMs_pos z.toSenderTimings])
  have hunlock0 : 0 ≤ (if z.passphrase.truthy then run.unlock.latency else 0) := by
    split
    · exact run.unlock.latency_nonneg
    · exact le_rfl
  unfold sendTime latestSendMs
  split
  · exact ⟨0, rfl, by linarith⟩
  · dsimp only
    split
    · exact ⟨_, rfl, by linarith⟩
    · split
      · exact ⟨_, rfl, by linarith⟩
      · rename_i opid _
        obtain ⟨t, ht, hle⟩ := awaitTime_le opid hrun
        exact ⟨_, by rw [ht]; rfl, by linarith⟩

end

/-! ## It can take so long -/

/-- The abort of a call. -/
def timedOut : RpcOutcome :=
  .foreign ⟨⟨js "TimeoutError", js "The operation was aborted due to timeout", none⟩, by decide⟩

/-- `z_getoperationstatus` of an operation that is being executed. -/
def executing : Json := .obj [(js "status", .str (js "executing"))]

/-- The calls of the latest look: as long as each other. -/
def evenCallMs (z : SenderTimings) : ℚ := DeadlineLoop.evenCall z.opTimeoutMs (sleepMs z 1) z.rpcTimeoutMs

/-- The pending polls there is time for, apart from the last. -/
def pendingPolls (z : SenderTimings) : Nat := ⌊z.opTimeoutMs / sleepMs z 1⌋₊

theorem evenCallMs_nonneg (z : SenderTimings) : 0 ≤ evenCallMs z :=
  DeadlineLoop.evenCall_nonneg (sleepMs_pos z 1) z.positive.2.1.le z.positive.1.le

section

variable (z : ZalletSettings)

/-- The send whose operation is pending until the last look, and whose
status cannot be read after that. -/
def latestRun : CallRun where
  unlock := ⟨replyResult .null, z.rpcTimeoutMs, z.positive.2.1.le⟩
  sendmany := ⟨replyResult (.str (js "opid-1")), z.rpcTimeoutMs, z.positive.2.1.le⟩
  status k :=
    if k ≤ pendingPolls z.toSenderTimings then
      ⟨replyResult (.arr [executing]), evenCallMs z.toSenderTimings, evenCallMs_nonneg _⟩
    else ⟨timedOut, z.rpcTimeoutMs, z.positive.2.1.le⟩
  result := ⟨timedOut, z.rpcTimeoutMs, z.positive.2.1.le⟩

theorem latestRun_within : (latestRun z).WithinTimeout z.rpcTimeoutMs where
  unlock := le_rfl
  sendmany := le_rfl
  status k := by
    rw [latestRun]
    dsimp only
    split
    · exact DeadlineLoop.evenCall_le
    · exact le_rfl
  result := le_rfl

variable (opid : Option Json)

theorem latestRun_status {k : Nat} (hk : k ≤ pendingPolls z.toSenderTimings) :
    ((latestRun z).status k).outcome = replyResult (.arr [executing]) ∧
      ((latestRun z).status k).latency = evenCallMs z.toSenderTimings := by
  simp [latestRun, hk]

theorem latestRun_status_last {k : Nat} (hk : pendingPolls z.toSenderTimings < k) :
    ((latestRun z).status k).outcome = timedOut ∧ ((latestRun z).status k).latency = z.rpcTimeoutMs := by
  simp [latestRun, not_le.mpr hk]

theorem rpcFirst_executing (numText : ℚ → JsString) (method : JsString) :
    rpcFirst numText method (replyResult (.arr [executing])) = .ok (some executing) := rfl

theorem latestRun_pending {k : Nat} (hk : k ≤ pendingPolls z.toSenderTimings) (last : Option Json) :
    (operationLoop z (latestRun z) opid).poll (k, last) =
      (evenCallMs z.toSenderTimings, .inr (k + 1, some executing)) := by
  obtain ⟨houtcome, hlatency⟩ := latestRun_status z hk
  have hanswer : rpcFirst z.numText (js "z_getoperationstatus") ((latestRun z).status k).outcome =
      .ok (some executing) := by
    rw [houtcome]
    exact rpcFirst_executing _ _
  have htime : pollTime z (latestRun z) pollRetries k = (evenCallMs z.toSenderTimings, k + 1) := by
    rw [show pollRetries = 2 + 1 from rfl, pollTime]
    dsimp only
    rw [hanswer, hlatency]
  have hstatus : (pollStatus z.toZalletConfig ((latestRun z).toWalletRun z) opid pollRetries k none).1 =
      .ok (some executing) := by
    rw [show pollRetries = 2 + 1 from rfl, pollStatus]
    dsimp only [CallRun.toWalletRun]
    rw [hanswer]
  rw [operationLoop_poll, hstatus, htime]
  rfl

theorem pollStatus_timedOut (run : WalletRun z.toZalletConfig) :
    ∀ (left k : Nat) (lastErr : Option JsError), (∀ i, run.status (k + i) = timedOut) →
      ∃ e, (pollStatus z.toZalletConfig run opid left k lastErr).1 = .error e
  | 0, _, _, _ => ⟨_, rfl⟩
  | left + 1, k, _, h => by
      have hfirst : run.status k = timedOut := h 0
      rw [pollStatus, hfirst]
      exact pollStatus_timedOut run left (k + 1) _ fun i => by rw [Nat.add_right_comm, ← h (i + 1)]; rfl

theorem latestRun_unreadable {k : Nat} (hk : pendingPolls z.toSenderTimings < k) (last : Option Json) :
    ∃ e, (operationLoop z (latestRun z) opid).poll (k, last) =
      (failedPollMs z.toSenderTimings, .inl (.gaveUp e)) := by
  have hcall (i : Nat) := latestRun_status_last z (Nat.lt_add_right i hk)
  obtain ⟨e, herr⟩ := pollStatus_timedOut z opid ((latestRun z).toWalletRun z) pollRetries k none
    fun i => (hcall i).1
  rcases poll_cases z (latestRun z) opid k with ⟨⟨v, hok⟩, -⟩ | ⟨-, hd⟩
  · rw [herr] at hok
    cases hok
  · dsimp only at hd
    rw [(hcall 0).2, (hcall 1).2, (hcall 2).2] at hd
    refine ⟨e, ?_⟩
    rw [operationLoop_poll, herr, hd, failedPollMs, answeredPollMs]
    dsimp only
    congr 1
    ring

theorem latestRun_awaitTime :
    awaitTime z (latestRun z) opid =
      some (lastLookMs z.toSenderTimings + sleepMs z.toSenderTimings 1 + failedPollMs z.toSenderTimings) := by
  obtain ⟨e, hend⟩ := latestRun_unreadable z opid (Nat.lt_succ_self _) (some executing)
  have hrun := (operationLoop z (latestRun z) opid).run_latest (sleepMs_pos z.toSenderTimings 1)
    z.positive.2.1.le z.positive.1.le
    (fun j => (j, if j = 0 then none else some executing))
    (fun j hj => by
      rw [latestRun_pending z opid hj]
      rfl)
    hend
  rw [awaitTime]
  rw [show ((0, none) : Nat × Option Json) = (fun j => (j, if j = 0 then none else some executing)) 0 from rfl, hrun]
  rfl

theorem sendTime_latest (haddress : z.address.truthy = true) :
    sendTime z (latestRun z) =
      some (headCalls z * z.rpcTimeoutMs + lastLookMs z.toSenderTimings + sleepMs z.toSenderTimings 1 +
        failedPollMs z.toSenderTimings) := by
  have hunlock : unlockIfNeeded z.toZalletConfig ((latestRun z).toWalletRun z) = .ok () := by
    unfold unlockIfNeeded
    split <;> rfl
  have hsendmany : rpc z.numText (js "z_sendmany") (latestRun z).sendmany.outcome =
      .ok (some (.str (js "opid-1"))) := rfl
  unfold sendTime
  rw [haddress, hunlock, hsendmany]
  dsimp only
  rw [latestRun_awaitTime]
  show some _ = some _
  congr 1
  unfold headCalls
  split <;> simp only [latestRun] <;> push_cast <;> ring

/-! ## When the bound holds -/

/-- The settings for which `senderWorstCaseMs` bounds every send. It does
where a sleep is too long for a timer. -/
def SendFits (z : ZalletSettings) : Prop :=
  z.address.truthy = true → SleepsKept z.toSenderTimings →
    lastLookMs z.toSenderTimings + z.pollMs ≤ z.opTimeoutMs + (3 - headCalls z : ℚ) * z.rpcTimeoutMs

/-- The sleeps of a poll, kept. -/
theorem SleepsKept.pollMs {z : SenderTimings} (h : SleepsKept z) :
    sleepMs z 1 = z.pollMs ∧ answeredPollMs z = 3 * z.rpcTimeoutMs + 3 * z.pollMs ∧
      failedPollMs z = 3 * z.rpcTimeoutMs + 6 * z.pollMs := by
  have hsleep1 := h.sleepMs_eq (n := 1) (by decide) (by decide)
  have hsleep2 := h.sleepMs_eq (n := 2) (by decide) (by decide)
  have hsleep3 := h.sleepMs_eq (n := 3) (by decide) (by decide)
  push_cast at hsleep1 hsleep2 hsleep3
  rw [failedPollMs, answeredPollMs, hsleep1, hsleep2, hsleep3]
  refine ⟨?_, ?_, ?_⟩ <;> ring

/-- The longest polls with a sleep cut. -/
theorem polls_le_of_cut {z : SenderTimings} (h : ¬ SleepsKept z) :
    sleepMs z 1 + max (failedPollMs z) (answeredPollMs z + z.rpcTimeoutMs) ≤
      4 * z.rpcTimeoutMs + 6 * z.pollMs := by
  have hpoll := z.poll_floor
  have hrpc := z.positive.2.1
  have hsleep1 := sleepMs_le z (n := 1) (by decide)
  have hsleep2 := sleepMs_le z (n := 2) (by decide)
  have hsleep3 : sleepMs z 3 = 1 := sleepMs_cut z (not_le.mp h)
  push_cast at hsleep1 hsleep2
  rw [← le_sub_iff_add_le', failedPollMs, answeredPollMs, hsleep3]
  exact max_le (by linarith) (by linarith)

theorem headCalls_le (z : ZalletSettings) : (headCalls z : ℚ) * z.rpcTimeoutMs ≤ 2 * z.rpcTimeoutMs := by
  apply mul_le_mul_of_nonneg_right _ z.positive.2.1.le
  unfold headCalls
  split <;> norm_num

theorem latestSendMs_le (haddress : z.address.truthy = true) (h : SendFits z) :
    latestSendMs z ≤ senderWorstCaseMs z.toSenderTimings := by
  obtain ⟨-, hrpc, hpoll⟩ := z.positive
  have hheads := headCalls_le z
  rw [latestSendMs, senderWorstCaseMs_eq]
  by_cases hkept : SleepsKept z.toSenderTimings
  · have hfits := h haddress hkept
    obtain ⟨hsleep, hanswered, hfailed⟩ := hkept.pollMs
    have hlook : lastLookMs z.toSenderTimings ≤ z.opTimeoutMs := min_le_left _ _
    rw [lastLookMs, hsleep] at hfits hlook
    rw [pollCallMs, if_pos hkept, hsleep, hanswered, hfailed, ← le_sub_iff_add_le']
    exact max_le (by linarith) (by linarith)
  · have hlook : DeadlineLoop.lastCheck z.opTimeoutMs (sleepMs z.toSenderTimings 1)
        (pollCallMs z.toSenderTimings) ≤ z.opTimeoutMs := min_le_left _ _
    linarith [polls_le_of_cut hkept]

theorem send_bounded_iff :
    (∀ run : CallRun, run.WithinTimeout z.rpcTimeoutMs →
      ∃ t, sendTime z run = some t ∧ t ≤ senderWorstCaseMs z.toSenderTimings) ↔ SendFits z := by
  constructor
  · intro h haddress hkept
    obtain ⟨t, ht, hle⟩ := h (latestRun z) (latestRun_within z)
    obtain ⟨hsleep, -, hfailed⟩ := hkept.pollMs
    rw [sendTime_latest z haddress, hsleep, hfailed] at ht
    cases ht
    rw [senderWorstCaseMs_eq] at hle
    linarith
  · intro h run hrun
    by_cases haddress : z.address.truthy = true
    · obtain ⟨t, ht, hle⟩ := sendTime_le hrun
      exact ⟨t, ht, hle.trans (latestSendMs_le z haddress h)⟩
    · refine ⟨0, ?_, ?_⟩
      · unfold sendTime
        simp [haddress]
      · rw [senderWorstCaseMs_eq]
        linarith [z.positive.1, z.positive.2.1, z.positive.2.2]

/-- With a passphrase, the interval between two polls must not be longer
than a call may be. -/
theorem sendFits_iff_of_passphrase (haddress : z.address.truthy = true) (hpass : z.passphrase.truthy = true)
    (hkept : SleepsKept z.toSenderTimings) : SendFits z ↔ z.pollMs ≤ z.rpcTimeoutMs := by
  obtain ⟨-, hrpc, hpoll⟩ := z.positive
  have hheads : headCalls z = 2 := if_pos hpass
  have hlook : lastLookMs z.toSenderTimings ≤ z.opTimeoutMs := min_le_left _ _
  have hfloor := Nat.lt_floor_add_one (z.opTimeoutMs / z.pollMs)
  rw [div_lt_iff₀ hpoll] at hfloor
  rw [SendFits, hheads]
  constructor
  · intro h
    have hfits := h haddress hkept
    rw [lastLookMs, DeadlineLoop.lastCheck, hkept.pollMs.1] at hfits
    push_cast at hfits
    rcases min_choice z.opTimeoutMs (⌊z.opTimeoutMs / z.pollMs⌋₊ * z.pollMs +
      (⌊z.opTimeoutMs / z.pollMs⌋₊ + 1) * z.rpcTimeoutMs) with hmin | hmin
    · rw [hmin] at hfits
      linarith
    · rw [hmin] at hfits
      have hsleeps : (0 : ℚ) ≤ ⌊z.opTimeoutMs / z.pollMs⌋₊ * z.rpcTimeoutMs := by positivity
      linarith
  · intro h _ _
    push_cast
    linarith

end

end ZcashFaucet.Zcash
