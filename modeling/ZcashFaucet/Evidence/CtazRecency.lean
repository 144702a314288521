/-
ZcashFaucet.Evidence.CtazRecency — is the Crosslink node current:
`readingFor` of `crosslink/recency.ts` over the node's own reply, and the
file of `crosslink/statusFile.ts` that carries such a reply.

Both are whatever was parsed. A stamp ahead of the reader's clock makes
the reply unreadable, and the file stale.
-/
import ZcashFaucet.Lib.Json
import Mathlib.Tactic.Linarith
import Mathlib.Tactic.NormNum

namespace ZcashFaucet.Evidence

open Lib

/-! ## The reply -/

inductive CtazState
  | ready
  | behind
  | stale
  | notActivated
  | cannotVerify
  deriving DecidableEq, Repr

structure CtazReading where
  state : CtazState
  height : Option ℚ
  roundLag : Option ℚ
  ageSeconds : Option ℚ
  finalizers : Option Nat
  deriving DecidableEq

/-- UNVERIFIABLE. -/
def unverifiable : CtazReading := ⟨.cannotVerify, none, none, none, none⟩

/-- MAX_AGE_SECONDS. -/
def maxAgeSeconds : ℚ := 120

/-- MAX_ROUND_LAG. -/
def maxRoundLag : ℚ := 2

/-- How many finalizers an array has. -/
def finalizersOf : Option Json → Option Nat
  | some (.arr items) => some items.length
  | _ => none

/-- The verdict on a reply that has its numbers and is not from the future. -/
def judge (height age roundLag : ℚ) (finalizers : Option Nat) : CtazReading :=
  if maxAgeSeconds < age then ⟨.stale, some height, some roundLag, some age, finalizers⟩
  else if roundLag < 0 then ⟨.cannotVerify, some height, none, some age, finalizers⟩
  else if maxRoundLag < roundLag then ⟨.behind, some height, some roundLag, some age, finalizers⟩
  else if finalizers = some 0 then ⟨.notActivated, some height, some roundLag, some age, finalizers⟩
  else ⟨.ready, some height, some roundLag, some age, finalizers⟩

/-- `readingFor`. What is not an object has none of the fields. -/
def readingFor (raw : Option Json) (nowMs : ℚ) : CtazReading :=
  match finiteNumber (field? (js "now_utc") raw), finiteNumber (field? (js "my_height") raw),
    finiteNumber (field? (js "my_round") raw), finiteNumber (field? (js "my_locked_round") raw) with
  | some nowUtc, some height, some round, some locked =>
      let age := (⌊nowMs / 1000⌋ : ℤ) - nowUtc
      if age < 0 then unverifiable
      else judge height age (round - locked) (finalizersOf (field? (js "finalizer_statuses") raw))
  | _, _, _, _ => unverifiable

/-! ## The file -/

/-- A `CtazStatusFile`. -/
structure CtazStatusFile where
  readable : Bool
  writtenAt : Option ℚ
  blocks : Option ℚ
  tip : Option ℚ
  syncPercent : Option ℚ
  recency : Option Json

/-- `readCtazStatusFile`, on what the file parses to, if it does. -/
def readCtazStatusFile (parsed : Option Json) : CtazStatusFile where
  readable := match field? (js "readable") parsed with
    | some (.bool b) => b
    | _ => false
  writtenAt := finiteNumber (field? (js "at") parsed)
  blocks := finiteNumber (field? (js "blocks") parsed)
  tip := finiteNumber (field? (js "tip") parsed)
  syncPercent := finiteNumber (field? (js "syncPercent") parsed)
  recency := field? (js "recency") parsed

/-- STATUS_STALE_AFTER_MS. -/
def statusStaleAfterMs : ℚ := 3 * 60000

def statusIsStale (f : CtazStatusFile) (nowMs : ℚ) : Bool :=
  match f.writtenAt with
  | none => true
  | some t => decide (nowMs - t < 0 ∨ statusStaleAfterMs < nowMs - t)

/-- The reading `readCtazNodeState` falls back to when the node itself does
not answer. -/
def readingOffFile (f : CtazStatusFile) (nowMs : ℚ) : CtazReading :=
  if f.writtenAt.isNone || statusIsStale f nowMs || !f.readable then unverifiable
  else readingFor f.recency nowMs

/-! ## Stamps ahead of the clock -/

theorem readingFor_future {raw : Option Json} {nowMs nowUtc : ℚ}
    (hstamp : finiteNumber (field? (js "now_utc") raw) = some nowUtc) (h : nowMs < nowUtc * 1000) :
    readingFor raw nowMs = unverifiable := by
  have hfloor : ((⌊nowMs / 1000⌋ : ℤ) : ℚ) ≤ nowMs / 1000 := Int.floor_le _
  have hage : ((⌊nowMs / 1000⌋ : ℤ) : ℚ) - nowUtc < 0 := by
    have hdiv : nowMs / 1000 < nowUtc := (div_lt_iff₀ (by norm_num)).mpr h
    linarith
  unfold readingFor
  rw [hstamp]
  split
  case h_1 nowUtc' _ _ _ heq _ _ _ =>
    obtain rfl := Option.some.inj heq
    exact if_pos hage
  case h_2 => rfl

theorem statusIsStale_future {f : CtazStatusFile} {nowMs t : ℚ} (hstamp : f.writtenAt = some t)
    (h : nowMs < t) : statusIsStale f nowMs = true := by
  rw [statusIsStale, hstamp]
  exact decide_eq_true (.inl (sub_neg.mpr h))

theorem readingOffFile_of_stale {f : CtazStatusFile} {nowMs : ℚ} (h : statusIsStale f nowMs = true) :
    readingOffFile f nowMs = unverifiable := by
  simp [readingOffFile, h]

end ZcashFaucet.Evidence
