/-
ZcashFaucet.Miner.Reading — what the faucet reads off the miner's file:
`readingFor` of `miner/heartbeat.ts`.

The value is whatever was parsed, so every field is tested for its type
before it is used, and whatever does not fit is `null`. Every shape that
is not understood ends as cannot-verify.

What `Date.parse` makes of a text is a parameter, `dateOf`: a time in
milliseconds, or none. On the stamps that the miner writes it is `dateParse`.
-/
import ZcashFaucet.Lib.JsDate
import ZcashFaucet.Lib.Json

namespace ZcashFaucet.Miner

open Lib

inductive MinerState
  | running
  | waiting
  | stalled
  | notWriting
  | cannotVerify
  | notConfigured
  deriving DecidableEq, Repr

inductive MinerMode
  | submit
  | proposal
  deriving DecidableEq, Repr

structure MinerOperatorReading where
  lastRejectReason : Option JsString
  abandonedCount : Option JsNumber
  abandonedAgoSeconds : Option ℚ

/-- A reading without its state. -/
structure MinerFacts where
  beatAgoSeconds : Option ℚ
  templateAgoSeconds : Option ℚ
  lastTemplateHeight : Option JsNumber
  mode : Option MinerMode
  lastErrorStage : Option JsString
  consecutiveErrors : Option JsNumber
  solvedCount : Option JsNumber
  submittedAccepted : Option JsNumber
  submittedRejected : Option JsNumber
  solvedAgoSeconds : Option ℚ
  nodeLag : Option ℚ
  waitingAgoSeconds : Option ℚ
  waitingReason : Option JsString
  operator : MinerOperatorReading

structure MinerReading extends MinerFacts where
  state : MinerState

/-- NOTHING. -/
def nothing : MinerFacts where
  beatAgoSeconds := none
  templateAgoSeconds := none
  lastTemplateHeight := none
  mode := none
  lastErrorStage := none
  consecutiveErrors := none
  solvedCount := none
  submittedAccepted := none
  submittedRejected := none
  solvedAgoSeconds := none
  nodeLag := none
  waitingAgoSeconds := none
  waitingReason := none
  operator := ⟨none, none, none⟩

/-- UNCONFIGURED. -/
def unconfigured : MinerReading := ⟨nothing, .notConfigured⟩

/-- UNVERIFIABLE. -/
def unverifiable : MinerReading := ⟨nothing, .cannotVerify⟩

section

variable (dateOf : JsString → Option Int)

/-! ## Fields -/

/-- A stamp ahead of the reader's clock is not fresh but unreadable. -/
def ageSeconds (stamp : Option Json) (nowMs : ℚ) : Option ℚ :=
  match stamp with
  | some (.str text) =>
      match dateOf text with
      | none => none
      | some t =>
          let age := (nowMs - t) / 1000
          if age < 0 then none else some age
  | _ => none

variable {dateOf} in
/-- The age of a stamp that can be read. -/
theorem ageSeconds_of_date {text : JsString} {t : Int} (h : dateOf text = some t) (nowMs : ℚ) :
    ageSeconds dateOf (some (.str text)) nowMs = if nowMs < t then none else some ((nowMs - t) / 1000) := by
  have hahead : (nowMs - t) / 1000 < 0 ↔ nowMs < t := by
    rw [div_lt_iff₀ (by norm_num), zero_mul, sub_neg]
  simp only [ageSeconds, h, hahead]

def positiveNumber : Option Json → Option ℚ
  | some (.num (.finite q)) => if 0 < q then some q else none
  | _ => none

/-- `typeof v === "number"`. -/
def numberOf : Option Json → Option JsNumber
  | some (.num n) => some n
  | _ => none

/-- A finite number that is not negative. -/
def finiteOf : Option Json → Option ℚ
  | some (.num (.finite q)) => if 0 ≤ q then some q else none
  | _ => none

/-- `typeof v === "string"`. -/
def textOf : Option Json → Option JsString
  | some (.str s) => some s
  | _ => none

/-- A text that is not empty. -/
def nonEmptyTextOf (v : Option Json) : Option JsString := (textOf v).filter JsString.truthy

def modeOf (v : Option Json) : Option MinerMode :=
  if isStr? (js "submit") v then some .submit
  else if isStr? (js "proposal") v then some .proposal
  else none

/-! ## The reading -/

def factsOf (h : Json) (beatAgo nowMs : ℚ) : MinerFacts where
  beatAgoSeconds := some beatAgo
  templateAgoSeconds := ageSeconds dateOf (h.field (js "lastTemplateAt")) nowMs
  lastTemplateHeight := numberOf (h.field (js "lastTemplateHeight"))
  mode := modeOf (h.field (js "mode"))
  lastErrorStage := textOf (h.field (js "lastErrorStage"))
  consecutiveErrors := numberOf (h.field (js "consecutiveErrors"))
  solvedCount := numberOf (h.field (js "solvedCount"))
  submittedAccepted := numberOf (h.field (js "submittedAccepted"))
  submittedRejected := numberOf (h.field (js "submittedRejected"))
  solvedAgoSeconds := ageSeconds dateOf (h.field (js "lastSolvedAt")) nowMs
  nodeLag := finiteOf (h.field (js "nodeLag"))
  waitingAgoSeconds := ageSeconds dateOf (h.field (js "waitingSince")) nowMs
  waitingReason := nonEmptyTextOf (h.field (js "waitingReason"))
  operator :=
    { lastRejectReason := nonEmptyTextOf (h.field (js "lastRejectReason"))
      abandonedCount := numberOf (h.field (js "abandonedCount"))
      abandonedAgoSeconds := ageSeconds dateOf (h.field (js "lastAbandonedAt")) nowMs }

/-- The state a file that can be read stands for. -/
def stateOf (facts : MinerFacts) (beatAgo staleAfter templateStaleAfter : ℚ) : MinerState :=
  if staleAfter < beatAgo then .notWriting
  else if facts.waitingAgoSeconds.isSome && facts.consecutiveErrors == some (.finite 0) then .waiting
  else if facts.templateAgoSeconds.all fun ago => decide (templateStaleAfter < ago) then .stalled
  else .running

/-- `readingFor`. What is not an object has none of the fields. -/
def readingFor (raw : Option Json) (nowMs : ℚ) : MinerReading :=
  match raw with
  | some h =>
      if numberOf (h.field (js "schema")) = some (.finite 1) then
        match positiveNumber (h.field (js "staleAfterSeconds")),
          positiveNumber (h.field (js "templateStaleAfterSeconds")),
          ageSeconds dateOf (h.field (js "writtenAt")) nowMs with
        | some staleAfter, some templateStaleAfter, some beatAgo =>
            let facts := factsOf dateOf h beatAgo nowMs
            ⟨facts, stateOf facts beatAgo staleAfter templateStaleAfter⟩
        | _, _, _ => unverifiable
      else unverifiable
  | none => unverifiable

end

def isActive (state : MinerState) : Bool := state == .running

end ZcashFaucet.Miner
