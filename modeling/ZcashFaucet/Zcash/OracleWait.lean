/-
ZcashFaucet.Zcash.OracleWait — the money path asks for a tip.

`readChainFreshnessAsking` looks for a tip every 100 ms until its wait is
over, and every look may start an attempt at the references. Two guards
hold an attempt back: one that is in flight, and the gap since the last
one began. An attempt takes as long as the longer of its two legs.

The state is the oracle's and the caller's. Time passes only while no
attempt is over its budget and the caller's timer is not late by more than
`late` (`mayPass`). `OracleCovers` is what the wait is for.
-/
import ZcashFaucet.Lib.Run
import ZcashFaucet.Zcash.Gates
import ZcashFaucet.Zcash.TipRate

namespace ZcashFaucet.Zcash

open Lib

/-! ## Budgets -/

/-- HOSH_TIMEOUT_MS. -/
def hoshTimeoutMs : ℚ := 5000

/-- FALLBACK_TOTAL_MS. -/
def fallbackTotalMs : ℚ := 3000

/-- REFRESH_ATTEMPT_MS. -/
def refreshAttemptMs : ℚ := hoshTimeoutMs + fallbackTotalMs

/-- MIN_ATTEMPT_GAP_MS. -/
def minAttemptGapMs : ℚ := 1000

/-- ORACLE_WAIT_MS. -/
def oracleWaitMs : ℚ := minAttemptGapMs + refreshAttemptMs + 1000

/-- STALE_MS. -/
def tipStaleMs : ℚ := 30000

/-- The sleep between two looks. -/
def lookSleepMs : ℚ := 100

/-- How long `fetchBothReferencesWithin` takes: its legs run in parallel. -/
def attemptBudgetMs : ℚ := max hoshTimeoutMs fallbackTotalMs

theorem attemptBudgetMs_eq : attemptBudgetMs = 5000 := by
  norm_num [attemptBudgetMs, hoshTimeoutMs, fallbackTotalMs]

theorem oracleWaitMs_eq : oracleWaitMs = 10000 := by
  norm_num [oracleWaitMs, minAttemptGapMs, refreshAttemptMs, hoshTimeoutMs, fallbackTotalMs]

/-! ## The oracle -/

/-- An attempt in flight. `asked` marks those that begin once the caller
has begun to ask. -/
structure TipAttempt where
  since : ℚ
  asked : Bool
  deriving DecidableEq

/-- What `externalTip.ts` keeps: `__faucetTipRefreshing`,
`__faucetTipLastAttemptAt` and `__faucetTipSources`. -/
structure TipOracle where
  refreshing : Option TipAttempt
  lastAttemptAt : Option ℚ
  sources : RatedSources

namespace TipOracle

/-- `refresh`, up to its fetch. -/
def refresh (now : ℚ) (o : TipOracle) : TipOracle :=
  if o.refreshing.isSome then o
  else if now - o.lastAttemptAt.getD 0 < minAttemptGapMs then o
  else { o with refreshing := some ⟨now, true⟩, lastAttemptAt := some now }

/-- The end of an attempt. -/
def finish (now : ℚ) (both : TipAnswers) (o : TipOracle) : TipOracle :=
  { o with refreshing := none, sources := recordAnswers now both o.sources }

def kickIfStale (now : ℚ) (o : TipOracle) : TipOracle :=
  let newest := (o.sources.entries.map fun e => e.2.fetchedAt).max?.getD 0
  if now - newest > tipStaleMs then o.refresh now else o

/-- The height that `referenceTip` reads. -/
def tip (now : ℚ) (o : TipOracle) : Option ClaimedHeight := (referenceTipAt now o.sources.toTipSources).height

end TipOracle

/-! ## Asking -/

inductive Asker
  | asleep (since : ℚ)
  | answered (gate : ChainGate)

/-- What the caller has been given. -/
def Asker.gate? : Asker → Option ChainGate
  | .asleep _ => none
  | .answered gate => some gate

theorem Asker.eq_answered {asker : Asker} {gate : ChainGate} (h : asker.gate? = some gate) :
    asker = .answered gate := by
  cases asker with
  | asleep since => cases h
  | answered gate' => rw [Option.some.inj h]

structure AskRun where
  now : ℚ
  oracle : TipOracle
  asker : Asker

/-- The call of `readChainFreshnessAsking` with a known node height, and
how late a timer may be. -/
structure Asking where
  gates : GateConfig
  nodeHeight : ℚ
  deadline : ℚ
  late : ℚ

inductive AskEvent
  | tick (ms : ℚ)
  /-- the attempt in flight ends -/
  | ends (both : TipAnswers)
  /-- the caller's timer -/
  | wakes
  /-- anybody else who reads the tip -/
  | refreshes

/-- One look of the loop, and the return after the last. -/
def AskRun.look (a : Asking) (r : AskRun) : AskRun :=
  let oracle := r.oracle.kickIfStale r.now
  if oracle.tip r.now = none ∧ r.now < a.deadline then
    { r with oracle := oracle.refresh r.now, asker := .asleep r.now }
  else
    { r with
      oracle := oracle.kickIfStale r.now
      asker := .answered (chainFreshness a.gates (some a.nodeHeight) (oracle.tip r.now)) }

/-- An attempt ends within its budget, a timer is `late` at most. -/
def AskRun.mayPass (a : Asking) (r : AskRun) (later : ℚ) : Bool :=
  (r.oracle.refreshing.all fun attempt => decide (later ≤ attempt.since + attemptBudgetMs)) &&
    match r.asker with
    | .asleep since => decide (later ≤ since + lookSleepMs + a.late)
    | .answered _ => true

def AskRun.step (a : Asking) (r : AskRun) : AskEvent → Option AskRun
  | .tick ms => if 0 ≤ ms ∧ r.mayPass a (r.now + ms) then some { r with now := r.now + ms } else none
  | .ends both =>
      match r.oracle.refreshing with
      | none => none
      | some attempt =>
          -- an attempt that began after the caller brings back a height
          if attempt.asked = true ∧ both.hosh = none ∧ both.direct = none then none
          else some { r with oracle := r.oracle.finish r.now both }
  | .wakes =>
      match r.asker with
      | .asleep since => if since + lookSleepMs ≤ r.now then some (r.look a) else none
      | .answered _ => none
  | .refreshes => some { r with oracle := r.oracle.refresh r.now }

/-- The caller's entry: the guards in any state, and no tip. The stamp of
the last attempt is a reading of the wall clock, so it may lie ahead. -/
structure OracleEntry where
  gates : GateConfig
  nodeHeight : ℚ
  enteredAt : ℚ
  oracle : TipOracle
  /-- How late a timer may be: by the second that `ORACLE_WAIT_MS` has for
  the looks, at most. -/
  late : ℚ
  late_nonneg : 0 ≤ late
  late_le : late ≤ 1000
  noTip : oracle.tip enteredAt = none
  inFlight : ∀ attempt, oracle.refreshing = some attempt →
    attempt.asked = false ∧ attempt.since ≤ enteredAt ∧ enteredAt ≤ attempt.since + attemptBudgetMs

namespace OracleEntry

variable (e : OracleEntry)

def asking : Asking := ⟨e.gates, e.nodeHeight, e.enteredAt + oracleWaitMs, e.late⟩

/-- The first look. -/
def start : AskRun := AskRun.look e.asking ⟨e.enteredAt, e.oracle, .asleep e.enteredAt⟩

end OracleEntry

/-- Whatever happens, the caller gets a gate that knows the network's
height. -/
def OracleCovers (e : OracleEntry) : Prop :=
  ∀ events r, run (AskRun.step e.asking) e.start events = some r →
    (∀ gate, r.asker = .answered gate → gate.externalHeight.isSome = true ∧ gate.state ≠ .unverifiable) ∧
      (e.enteredAt + oracleWaitMs + lookSleepMs + e.late < r.now → ∃ gate, r.asker = .answered gate)

end ZcashFaucet.Zcash
