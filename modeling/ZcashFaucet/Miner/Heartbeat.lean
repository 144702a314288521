/-
ZcashFaucet.Miner.Heartbeat — the state the miner keeps about itself and
the file it renders of it: `State` and `render` of `heartbeat.rs`.

The mining loop records what happens (`Recorded`), the beat renders a
snapshot. The file is taken as the JSON value its text spells. Every
token in it is fixed, so tokens are enumerations, and counters and
stamps are the machine's own 64 bits.
-/
import ZcashFaucet.Lib.Json
import ZcashFaucet.Miner.Rfc3339

namespace ZcashFaucet.Miner

open Lib

/-! ## Counters -/

/-- `saturating_add(1)`. -/
def saturatingSucc (n : UInt64) : UInt64 := if n.toNat + 1 < 2 ^ 64 then n + 1 else n

/-- `v.unwrap_or(0).saturating_add(1)`. -/
def bump (v : Option UInt64) : Option UInt64 := some (saturatingSucc (v.getD 0))

/-- `saturating_mul`. -/
def saturatingMul (n : UInt64) (k : Nat) : Nat := min (n.toNat * k) (2 ^ 64 - 1)

theorem toNat_saturatingSucc (n : UInt64) :
    (saturatingSucc n).toNat = if n.toNat + 1 < 2 ^ 64 then n.toNat + 1 else n.toNat := by
  unfold saturatingSucc
  split
  · rename_i h
    rw [UInt64.toNat_add, UInt64.toNat_one, Nat.mod_eq_of_lt h]
  · rfl

theorem saturatingSucc_ne_zero (n : UInt64) : saturatingSucc n ≠ 0 := by
  intro h
  have hnat := toNat_saturatingSucc n
  rw [h, UInt64.toNat_zero] at hnat
  split at hnat
  · omega
  · omega

/-! ## Tokens -/

inductive Mode
  | submit
  | proposal
  deriving DecidableEq, Repr

inductive ErrorStage
  | getblocktemplate
  | proposal
  | submitblock
  | getblockchaininfo
  | syncstate
  | getpeerinfo
  deriving DecidableEq, Repr

inductive WaitReason
  | behind
  | noPeers
  deriving DecidableEq, Repr

inductive RejectReason
  | staleParent
  | duplicate
  | invalid
  | other
  deriving DecidableEq, Repr

def Mode.token : Mode → JsString
  | .submit => js "submit"
  | .proposal => js "proposal"

def ErrorStage.token : ErrorStage → JsString
  | .getblocktemplate => js "getblocktemplate"
  | .proposal => js "proposal"
  | .submitblock => js "submitblock"
  | .getblockchaininfo => js "getblockchaininfo"
  | .syncstate => js "syncstate"
  | .getpeerinfo => js "getpeerinfo"

def WaitReason.token : WaitReason → JsString
  | .behind => js "behind"
  | .noPeers => js "no-peers"

def RejectReason.token : RejectReason → JsString
  | .staleParent => js "stale-parent"
  | .duplicate => js "duplicate"
  | .invalid => js "invalid"
  | .other => js "other"

def classifyReject (reason : JsString) : RejectReason :=
  if containsFolded (js "best-chain-tip") reason || containsFolded (js "best chain tip") reason ||
      containsFolded (js "prev") reason then .staleParent
  else if containsFolded (js "duplicate") reason then .duplicate
  else if containsFolded (js "invalid") reason || containsFolded (js "bad") reason then .invalid
  else .other

/-! ## State -/

/-- `start` clamps both intervals to at least a second. -/
structure State where
  mode : Mode
  startedAt : UInt64
  beatSecs : {n : UInt64 // 1 ≤ n}
  templateSecs : {n : UInt64 // 1 ≤ n}
  lastTemplateAt : Option UInt64
  lastTemplateHeight : Option UInt64
  lastErrorStage : Option ErrorStage
  lastErrorAt : Option UInt64
  consecutiveErrors : UInt64
  solvedCount : Option UInt64
  lastSolvedAt : Option UInt64
  submittedAccepted : Option UInt64
  submittedRejected : Option UInt64
  lastRejectReason : Option RejectReason
  lastSubmittedAt : Option UInt64
  abandonedCount : Option UInt64
  lastAbandonedAt : Option UInt64
  discardedCount : Option UInt64
  lastDiscardedAt : Option UInt64
  nodeLag : Option UInt64
  waitingSince : Option UInt64
  waitingReason : Option WaitReason

namespace State

variable (now : UInt64)

def templateOk (height : UInt64) (s : State) : State :=
  { s with
    lastTemplateAt := some now
    lastTemplateHeight := some height
    lastErrorStage := none
    lastErrorAt := none
    consecutiveErrors := 0 }

def error (stage : ErrorStage) (s : State) : State :=
  { s with
    lastErrorStage := some stage
    lastErrorAt := some now
    consecutiveErrors := saturatingSucc s.consecutiveErrors
    waitingSince := none
    waitingReason := none }

def solved (s : State) : State :=
  { s with solvedCount := bump s.solvedCount, lastSolvedAt := some now }

/-- `node_lag`. -/
def nodeLagRead (lag : UInt64) (waiting : Option WaitReason) (s : State) : State :=
  { s with
    nodeLag := some lag
    waitingSince := waiting.map fun _ => s.waitingSince.getD now
    waitingReason := waiting }

def submitted (accepted : Bool) (s : State) : State :=
  if accepted then
    { s with
      submittedAccepted := bump s.submittedAccepted
      lastRejectReason := none
      lastSubmittedAt := some now }
  else { s with submittedRejected := bump s.submittedRejected, lastSubmittedAt := some now }

def abandoned (s : State) : State :=
  { s with abandonedCount := bump s.abandonedCount, lastAbandonedAt := some now }

def discarded (s : State) : State :=
  { s with discardedCount := bump s.discardedCount, lastDiscardedAt := some now }

def rejected (reason : JsString) (s : State) : State :=
  submitted now false { s with lastRejectReason := some (classifyReject reason) }

end State

/-- What the mining loop records. -/
inductive Recorded
  | templateOk (height : UInt64)
  | error (stage : ErrorStage)
  | nodeLag (lag : UInt64) (waiting : Option WaitReason)
  | solved
  | submitted (accepted : Bool)
  | rejected (reason : JsString)
  | abandoned
  | discarded

/-- Record something at a reading of the clock. -/
def State.record (now : UInt64) (s : State) : Recorded → State
  | .templateOk height => s.templateOk now height
  | .error stage => s.error now stage
  | .nodeLag lag waiting => s.nodeLagRead now lag waiting
  | .solved => s.solved now
  | .submitted accepted => s.submitted now accepted
  | .rejected reason => s.rejected now reason
  | .abandoned => s.abandoned now
  | .discarded => s.discarded now

/-! ## Counts -/

/-- The lifetime counts. -/
structure Counts where
  solved : Option UInt64
  accepted : Option UInt64
  rejected : Option UInt64
  abandoned : Option UInt64
  discarded : Option UInt64
  deriving DecidableEq, Repr

def Counts.unknown : Counts := ⟨none, none, none, none, none⟩

def State.counts (s : State) : Counts :=
  ⟨s.solvedCount, s.submittedAccepted, s.submittedRejected, s.abandonedCount, s.discardedCount⟩

/-- `n.max(1)`. -/
def atLeastOne (n : UInt64) : {n : UInt64 // 1 ≤ n} :=
  if h : 1 ≤ n then ⟨n, h⟩ else ⟨1, UInt64.le_refl 1⟩

/-- The state `start` builds. -/
def State.seeded (mode : Mode) (startedAt beatSecs templateSecs : UInt64) (counts : Counts) : State where
  mode := mode
  startedAt := startedAt
  beatSecs := atLeastOne beatSecs
  templateSecs := atLeastOne templateSecs
  lastTemplateAt := none
  lastTemplateHeight := none
  lastErrorStage := none
  lastErrorAt := none
  consecutiveErrors := 0
  solvedCount := counts.solved
  lastSolvedAt := none
  submittedAccepted := counts.accepted
  submittedRejected := counts.rejected
  lastRejectReason := none
  lastSubmittedAt := none
  abandonedCount := counts.abandoned
  lastAbandonedAt := none
  discardedCount := counts.discarded
  lastDiscardedAt := none
  nodeLag := none
  waitingSince := none
  waitingReason := none

/-! ## The file -/

def jsonNat (n : Nat) : Json := .num (.finite n)

def jsonCount : Option UInt64 → Json
  | none => .null
  | some n => jsonNat n.toNat

def jsonStamp : Option UInt64 → Json
  | none => .null
  | some t => .str (rfc3339 t.toNat)

def jsonToken : Option JsString → Json
  | none => .null
  | some token => .str token

/-- SCHEMA. -/
def schema : Nat := 1

def render (now : UInt64) (s : State) : Json :=
  .obj
    [(js "schema", jsonNat schema),
      (js "writtenAt", .str (rfc3339 now.toNat)),
      (js "beatSeconds", jsonNat s.beatSecs.val.toNat),
      (js "staleAfterSeconds", jsonNat (saturatingMul s.beatSecs.val 6)),
      (js "templateSeconds", jsonNat s.templateSecs.val.toNat),
      (js "templateStaleAfterSeconds", jsonNat (saturatingMul s.templateSecs.val 6)),
      (js "mode", .str s.mode.token),
      (js "startedAt", .str (rfc3339 s.startedAt.toNat)),
      (js "lastTemplateAt", jsonStamp s.lastTemplateAt),
      (js "lastTemplateHeight", jsonCount s.lastTemplateHeight),
      (js "lastErrorStage", jsonToken (s.lastErrorStage.map ErrorStage.token)),
      (js "lastErrorAt", jsonStamp s.lastErrorAt),
      (js "consecutiveErrors", jsonNat s.consecutiveErrors.toNat),
      (js "solvedCount", jsonCount s.solvedCount),
      (js "lastSolvedAt", jsonStamp s.lastSolvedAt),
      (js "submittedAccepted", jsonCount s.submittedAccepted),
      (js "submittedRejected", jsonCount s.submittedRejected),
      (js "lastRejectReason", jsonToken (s.lastRejectReason.map RejectReason.token)),
      (js "lastSubmittedAt", jsonStamp s.lastSubmittedAt),
      (js "abandonedCount", jsonCount s.abandonedCount),
      (js "lastAbandonedAt", jsonStamp s.lastAbandonedAt),
      (js "discardedCount", jsonCount s.discardedCount),
      (js "lastDiscardedAt", jsonStamp s.lastDiscardedAt),
      (js "nodeLag", jsonCount s.nodeLag),
      (js "waitingSince", jsonStamp s.waitingSince),
      (js "waitingReason", jsonToken (s.waitingReason.map WaitReason.token))]

end ZcashFaucet.Miner
