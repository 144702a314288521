/-
ZcashFaucet.Api.LedgerProbe — can the ledger answer: `db/probe.ts` and the
reader that keeps its last answer, `db/index.ts`.

A probe is one trivial read of the ledger against a timer. That it threw is
evidence; that it did not answer in time is none. The timer of the process
starts a probe every thirty seconds, and so does every reader that has
nothing to say; `/api/ready` reads what the last one left and never waits.
The tests also empty the cell between two cases; a process never does.
-/
import ZcashFaucet.Lib.Run
import ZcashFaucet.Lib.Cells
import ZcashFaucet.Lib.JsString
import ZcashFaucet.Api.Readiness

namespace ZcashFaucet.Api

open Lib

inductive LedgerState
  | ok
  | broken
  | unknown
  deriving DecidableEq, Repr

structure LedgerHealth where
  state : LedgerState
  detail : JsString
  deriving DecidableEq

/-- PROBE_TIMEOUT_MS. -/
def probeTimeoutMs : ℚ := 2000

/-- PROBE_EVERY_MS. -/
def probeEveryMs : ℚ := 30000

/-- MAX_AGE_MS. -/
def ledgerMaxAgeMs : ℚ := 3 * probeEveryMs

structure ProbeConfig where
  numText : ℚ → JsString
  dbBackend : JsString

/-- What came first in a probe. -/
inductive ProbeOutcome
  | answered
  | timedOut
  | threw (message : JsString)
  deriving DecidableEq

variable (cfg : ProbeConfig)

/-- `probeLedger`. -/
def probeLedger : ProbeOutcome → LedgerHealth
  | .answered => ⟨.ok, cfg.dbBackend ++ js " ledger answered a read"⟩
  | .timedOut =>
      ⟨.unknown, js "the ledger did not answer within " ++ cfg.numText probeTimeoutMs ++
        js "ms, so its state is unverified"⟩
  | .threw message =>
      ⟨.broken, js "the " ++ cfg.dbBackend ++ js " ledger failed a read, so claims cannot be recorded: " ++ message⟩

/-- Only a definite failure. -/
def ledgerBlocksServing (health : LedgerHealth) : Bool := health.state == .broken

def LedgerState.text : LedgerState → JsString
  | .ok => js "ok"
  | .broken => js "broken"
  | .unknown => js "unknown"

/-- `Math.round(ms / 1000)`. -/
def wholeSeconds (ms : ℚ) : ℚ := (⌊ms / 1000 + 1 / 2⌋ : ℤ)

/-- `verdictFor`: what the last probe lets us say now. -/
def verdictFor (entry : Option (LedgerHealth × ℚ)) (now : ℚ) : LedgerHealth :=
  match entry with
  | none => ⟨.unknown, js "the ledger has not been probed yet, so its state is unestablished"⟩
  | some (health, probedAt) =>
      let age := now - probedAt
      if ledgerMaxAgeMs < age then
        ⟨.unknown, js "the last ledger probe was " ++ cfg.numText (wholeSeconds age) ++ js "s ago (limit " ++
          cfg.numText (wholeSeconds ledgerMaxAgeMs) ++ js "s), so its verdict of \"" ++ health.state.text ++
          js "\" is too old to rely on and the refresh timer may be dead"⟩
      else health

/-! ## The reader -/

/-- A health with the probe it came from. -/
structure ProbeRead where
  health : LedgerHealth
  outcome : ProbeOutcome

abbrev LedgerCache := Cells ProbeRead

/-- The verdict of this instant. -/
def ledgerVerdict (s : LedgerCache) : LedgerHealth :=
  verdictFor cfg (s.current.held.map fun d => (d.1.health, d.2)) s.clock

/-- `cachedLedgerHealth`: the verdict, and a probe where it knows nothing. -/
def cachedLedgerHealth (s : LedgerCache) : LedgerCache × LedgerHealth :=
  (if (ledgerVerdict cfg s).state = .unknown then s.start else s, ledgerVerdict cfg s)

inductive LedgerEvent
  | tick (ms : ℚ)
  /-- `refreshLedgerHealthNow`, by the timer. -/
  | refresh
  /-- A request that reads the verdict. -/
  | asked
  | probed (outcome : ProbeOutcome)

def ledgerStep (s : LedgerCache) : LedgerEvent → Option LedgerCache
  | .tick ms => if 0 ≤ ms then some (s.tick ms) else none
  | .refresh => some s.start
  | .asked => some (cachedLedgerHealth cfg s).1
  | .probed outcome =>
      if s.current.inflight then some (s.store s.number ⟨probeLedger cfg outcome, outcome⟩) else none

/-! ## Every run -/

structure LedgerInv (s : LedgerCache) : Prop where
  cells : s.Inv
  probed : ∀ d ∈ s.stored, d.value.health = probeLedger cfg d.value.outcome

variable {cfg}

theorem LedgerInv.cold (clock : ℚ) : LedgerInv cfg (.cold clock) := by
  refine ⟨Cells.Inv.cold clock, fun d hd => ?_⟩
  cases hd

theorem LedgerInv.start {s : LedgerCache} (h : LedgerInv cfg s) : LedgerInv cfg s.start := by
  refine ⟨h.cells.start, fun d hd => ?_⟩
  rw [Cells.start_stored] at hd
  exact h.probed d hd

theorem LedgerInv.step {s s' : LedgerCache} {e : LedgerEvent} (h : LedgerInv cfg s)
    (hstep : ledgerStep cfg s e = some s') : LedgerInv cfg s' := by
  cases e with
  | tick ms =>
    obtain ⟨hms, heq⟩ := Option.ite_none_right_eq_some.mp hstep
    obtain rfl := Option.some.inj heq
    exact ⟨h.cells.tick hms, h.probed⟩
  | refresh =>
    obtain rfl := Option.some.inj hstep
    exact h.start
  | asked =>
    obtain rfl := Option.some.inj hstep
    unfold cachedLedgerHealth
    dsimp only
    split
    · exact h.start
    · exact h
  | probed outcome =>
    obtain ⟨hflight, heq⟩ := Option.ite_none_right_eq_some.mp hstep
    obtain rfl := Option.some.inj heq
    refine ⟨h.cells.store (h.cells.mem_of_inflight le_rfl hflight) _, fun d hd => ?_⟩
    rcases List.mem_append.mp hd with hold | hnew
    · exact h.probed d hold
    · obtain rfl := List.mem_singleton.mp hnew
      rfl

theorem ledgerBlocksServing_probe {outcome : ProbeOutcome} :
    ledgerBlocksServing (probeLedger cfg outcome) = true ↔ ∃ message, outcome = .threw message := by
  cases outcome <;> simp [ledgerBlocksServing, probeLedger]

/-- The ledger makes the faucet not ready exactly while the last probe, not
older than a minute and a half, threw. A ledger that is slow, or that nobody
asked for long, does not, and whoever finds that nothing is known has a
probe running when they leave. -/
theorem ledgerBlocks_iff {clock : ℚ} {es : List LedgerEvent} {s : LedgerCache}
    (hrun : run (ledgerStep cfg) (.cold clock) es = some s) :
    (ledgerBlocksServing (ledgerVerdict cfg s) = true ↔
        ∃ r message probedAt, lastStored s.number s.stored = some (r, probedAt) ∧
          r.outcome = .threw message ∧ s.clock - probedAt ≤ ledgerMaxAgeMs) ∧
      ((ledgerVerdict cfg s).state = .unknown → (cachedLedgerHealth cfg s).1.current.inflight = true) := by
  have hinv : LedgerInv cfg s :=
    run_invariant (LedgerInv cfg) (fun _ _ _ h hstep => h.step hstep) (.cold clock) hrun
  have hheld := hinv.cells.held s.number le_rfl
  refine ⟨?_, fun hunknown => ?_⟩
  · rw [← hheld, show s.cells s.number = s.current from rfl]
    unfold ledgerVerdict verdictFor
    cases hc : s.current.held with
    | none => simp [ledgerBlocksServing]
    | some d =>
      obtain ⟨r, probedAt⟩ := d
      rw [show s.cells s.number = s.current from rfl, hc] at hheld
      have hmade := hinv.probed _ (mem_of_lastStored hheld.symm)
      simp only [Option.map_some]
      constructor
      · intro hblocks
        split at hblocks
        case isTrue => cases hblocks
        case isFalse hage =>
          rw [hmade] at hblocks
          obtain ⟨message, hthrew⟩ := ledgerBlocksServing_probe.mp hblocks
          exact ⟨r, message, probedAt, rfl, hthrew, not_lt.mp hage⟩
      · rintro ⟨r', message, probedAt', heq, hthrew, hage⟩
        obtain ⟨rfl, rfl⟩ := Prod.mk.inj (Option.some.inj heq)
        rw [if_neg (not_lt.mpr hage), hmade]
        exact ledgerBlocksServing_probe.mpr ⟨message, hthrew⟩
  · unfold cachedLedgerHealth
    rw [if_pos hunknown, Cells.start_current]

/-- A file that is not a database, and a reader a minute later. -/
def notADatabase : List LedgerEvent :=
  [.refresh, .probed (.threw (js "file is not a database")), .tick 60000, .asked]

theorem ledgerBlocks_iff_notADatabase :
    ∃ s, run (ledgerStep ⟨fun _ => [], js "sqlite"⟩) (.cold 1700000000000) notADatabase = some s ∧
      ledgerBlocksServing (ledgerVerdict ⟨fun _ => [], js "sqlite"⟩ s) = true := by
  have hview : (run (ledgerStep ⟨fun _ => [], js "sqlite"⟩) (.cold 1700000000000) notADatabase).map (fun s =>
      ((lastStored s.number s.stored).map fun d => (d.1.outcome, d.2), s.clock)) =
      some (some (.threw (js "file is not a database"), 1700000000000), 1700000060000) := by decide +kernel
  obtain ⟨s, hrun, hs⟩ := Option.map_eq_some_iff.mp hview
  obtain ⟨hlast, hclock⟩ := Prod.mk.inj hs
  obtain ⟨⟨r, probedAt⟩, hstored, hr⟩ := Option.map_eq_some_iff.mp hlast
  obtain ⟨hthrew, hat⟩ := Prod.mk.inj hr
  refine ⟨s, hrun, (ledgerBlocks_iff hrun).1.mpr ⟨r, _, probedAt, hstored, hthrew, ?_⟩⟩
  dsimp only at hat
  rw [hclock, hat]
  norm_num [ledgerMaxAgeMs, probeEveryMs]

end ZcashFaucet.Api
