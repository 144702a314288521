/-
ZcashFaucet.Zcash.SendHealth — did the last few drips go out?
`zcash/sendHealth.ts`.

The log remembers outcomes, newest last, and forgets from the front.
A verdict is read off what lies in the window and is about one wallet, so
it counts one network's records. A lost reply counts like a failure, an
unresolved job only where nothing succeeded.
-/
import Mathlib.Data.Rat.Floor
import ZcashFaucet.Db.Sql

namespace ZcashFaucet.Zcash

open Db

inductive SendOutcome
  | ok
  | failed
  | unknown
  | refused
  deriving DecidableEq, Repr

/-- `SendRecord` of the send log. -/
structure SendLogRecord where
  outcome : SendOutcome
  sentAt : ℚ
  /-- Absent on records from before there were two networks. -/
  network : Option FaucetNetwork
  unanswered : Bool
  deriving DecidableEq, Repr

/-- MIN_SAMPLE. -/
def minSample : Nat := 3

/-- FAIL_ALONE. -/
def failAlone : Nat := 2

/-- FAIL_RATIO. -/
def failRatio : ℚ := 1 / 2

/-- DEFAULT_NETWORK. -/
def defaultNetwork : FaucetNetwork := .taz

def windowFor (sendTaskDeadlineMs : ℚ) : ℚ := max (15 * 60000) ((minSample - 1 : ℚ) * sendTaskDeadlineMs + 60000)

def windowMinutes (windowMs : ℚ) : Int := ⌊windowMs / 60000 + 1 / 2⌋

inductive SendHealthState
  | ok
  | degraded
  | unknown
  deriving DecidableEq, Repr

structure SendHealth where
  state : SendHealthState
  ok : Nat
  failed : Nat
  unknown : Nat
  unanswered : Nat
  refused : Nat
  reason : String
  deriving DecidableEq, Repr

/-- `recordSend`: push, then trim what is older than the window. -/
def recordSend (windowMs : ℚ) (outcome : SendOutcome) (network : FaucetNetwork) (now : ℚ)
    (unanswered : Bool) (log : List SendLogRecord) : List SendLogRecord :=
  List.dropWhile (fun r => decide (r.sentAt < now - windowMs))
    (log ++ [⟨outcome, now, some network, unanswered⟩])

/-- The records a verdict about `network` counts. -/
def liveRecords (windowMs now : ℚ) (network : FaucetNetwork) (records : List SendLogRecord) :
    List SendLogRecord :=
  records.filter fun r => decide (r.sentAt ≥ now - windowMs) && r.network.getD defaultNetwork == network

/-- `readSendHealth`. -/
def readSendHealth (windowMs now : ℚ) (records : List SendLogRecord) (network : FaucetNetwork) :
    SendHealth :=
  let live := liveRecords windowMs now network records
  let ok := live.countP fun r => r.outcome == .ok
  let failed := live.countP fun r => r.outcome == .failed
  let unknown := live.countP fun r => r.outcome == .unknown
  let refused := live.countP fun r => r.outcome == .refused
  let unanswered := live.countP fun r => r.outcome == .unknown && r.unanswered
  let heldBack := unknown - unanswered
  let failing := failed + unanswered
  let failingWord := if unanswered > 0 then "failed or went unanswered" else "failed"
  let decided := ok + failing
  let verdict state reason : SendHealth := ⟨state, ok, failed, unknown, unanswered, refused, reason⟩
  if decided < minSample then
    if ok = 0 ∧ heldBack + failing ≥ minSample then
      verdict .degraded (toString unknown ++ " of the last " ++ toString (unknown + failed) ++
        " sends never resolved and none succeeded, the wallet is not finishing sends")
    else if ok = 0 ∧ failing ≥ failAlone then
      verdict .degraded (toString failing ++ " of the last " ++ toString failing ++ " sends " ++
        failingWord ++ " and none succeeded")
    else
      verdict .unknown ("only " ++ toString decided ++ " decided send(s) in the last " ++
        toString (windowMinutes windowMs) ++ " min, too few to judge")
  else if (failing / decided : ℚ) ≥ failRatio then
    verdict .degraded (toString failing ++ " of the last " ++ toString decided ++ " sends " ++ failingWord)
  else
    verdict .ok (toString ok ++ " of the last " ++ toString decided ++ " sends succeeded")

/-- `servedNetworks`, the default network first. -/
def servedNetworks (crosslinkEnabled : Bool) : List FaucetNetwork :=
  if crosslinkEnabled then [.taz, .ctaz] else [.taz]

/-- `readSendHealthServed` over the networks we serve, the first of which
is the default one. -/
def readSendHealthServed (windowMs now : ℚ) (records : List SendLogRecord) (crosslinkEnabled : Bool) :
    SendHealth :=
  let each := (servedNetworks crosslinkEnabled).map fun n => (n, readSendHealth windowMs now records n)
  match each.find? fun e => e.2.state == .degraded with
  | none => readSendHealth windowMs now records defaultNetwork
  | some (n, h) =>
      if n = defaultNetwork then h
      else { h with reason := (match n with | .taz => "taz" | .ctaz => "ctaz") ++ ": " ++ h.reason }

/-- `sendHealthBlocksServing`: only a definite verdict blocks. -/
def sendHealthBlocksServing (h : SendHealth) : Bool := h.state == .degraded

/-- Where the whole faucet is not degraded, no wallet that it serves is. -/
theorem not_blocked_of_served {windowMs now : ℚ} {records : List SendLogRecord}
    {crosslinkEnabled : Bool}
    (h : sendHealthBlocksServing (readSendHealthServed windowMs now records crosslinkEnabled) = false)
    {n : FaucetNetwork} (hn : n ∈ servedNetworks crosslinkEnabled) :
    sendHealthBlocksServing (readSendHealth windowMs now records n) = false := by
  simp only [readSendHealthServed] at h
  split at h
  case h_1 hnone =>
    have hall := List.find?_eq_none.mp hnone (n, readSendHealth windowMs now records n)
      (List.mem_map.mpr ⟨n, hn, rfl⟩)
    simpa [sendHealthBlocksServing] using hall
  case h_2 m bad hbad =>
    have hdegraded : bad.state = .degraded := by simpa using List.find?_some hbad
    split at h <;> simp [sendHealthBlocksServing, hdegraded] at h

end ZcashFaucet.Zcash
