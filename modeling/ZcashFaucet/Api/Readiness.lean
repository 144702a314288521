/-
ZcashFaucet.Api.Readiness — the verdict of `GET /api/ready`:
`readiness.ts`, the most upstream blocker or none.

Of the send gate only a measured lag makes the faucet not ready: a tip
that cannot be verified does not, since a deploy is rolled back on this.
-/
import Mathlib.Data.Option.Basic
import ZcashFaucet.Zcash.NodeStatus

namespace ZcashFaucet.Api

open Zcash

structure ReadinessNode where
  ready : Bool
  frozen : Bool
  height : Option ℚ
  nodeHeight : Option ℚ
  shieldState : ChainFreshness
  shieldLag : Option ClaimedHeight
  deriving DecidableEq

structure ReadinessInputs where
  ledgerBlocks : Bool
  backendReachable : Bool
  node : Option ReadinessNode
  nodeExpected : Bool
  balanceZat : Option Int
  sendsBlock : Bool
  sendsReason : Option String
  floorZat : Int

/-- The text of a number that may be null. -/
def orNullText (text : ClaimedHeight → String) : Option ClaimedHeight → String
  | some n => text n
  | none => "null"

/-- The rung of a wallet that is behind. -/
def rescanReason (text : ClaimedHeight → String) (node : ReadinessNode) : String :=
  match node.nodeHeight, node.height with
  | some n, some w => "wallet re-scanning, " ++ text ((n - w : ℚ)) ++ " blocks behind our node"
  | _, _ => "wallet re-scanning, behind our node"

/-- The rungs about the node, from the third to the sixth. -/
def nodeReason (text : ClaimedHeight → String) (nodeExpected : Bool) : Option ReadinessNode → Option String
  | none => if nodeExpected then some "node status unknown" else none
  | some node =>
      if node.frozen then some "node frozen behind network"
      else if !node.ready then some (rescanReason text node)
      else if node.shieldState = .lagging then
        some ("node " ++ orNullText text node.shieldLag ++ " blocks behind the network, drips would expire")
      else none

/-- The rungs about the money, the last three. -/
def moneyReason (i : ReadinessInputs) : Option String :=
  match i.balanceZat with
  | none => some "wallet balance unknown"
  | some balance =>
      if i.sendsBlock then some ("sends failing: " ++ i.sendsReason.getD "unknown")
      else if balance < i.floorZat then some "below reserve, refilling"
      else none

def readinessReason (text : ClaimedHeight → String) (i : ReadinessInputs) : Option String :=
  if i.ledgerBlocks then some "ledger unreadable"
  else if !i.backendReachable then some "backend unreachable"
  else nodeReason text i.nodeExpected i.node <|> moneyReason i

def readinessNode (n : NodeStatus) : ReadinessNode where
  ready := n.ready
  frozen := n.frozen
  height := some n.height
  nodeHeight := some n.nodeHeight
  shieldState := n.shield.state
  shieldLag := n.shield.lag

theorem nodeReason_eq_none {text : ClaimedHeight → String} {nodeExpected : Bool}
    {node : Option ReadinessNode} (h : nodeReason text nodeExpected node = none) :
    (nodeExpected = true → node.isSome = true) ∧
      ∀ n, node = some n → n.ready = true ∧ n.shieldState ≠ .lagging := by
  cases node with
  | none =>
      simp only [nodeReason] at h
      split at h
      · cases h
      case isFalse hexpected => exact ⟨fun he => absurd he hexpected, by simp⟩
  | some n =>
      simp only [nodeReason] at h
      split at h
      · cases h
      · split at h
        · cases h
        case isFalse hready =>
          split at h
          · cases h
          case isFalse hshield =>
            refine ⟨fun _ => rfl, ?_⟩
            intro m hm
            cases hm
            exact ⟨by simpa using hready, hshield⟩

theorem moneyReason_eq_none {i : ReadinessInputs} (h : moneyReason i = none) :
    i.sendsBlock = false ∧ ∃ b, i.balanceZat = some b ∧ i.floorZat ≤ b := by
  simp only [moneyReason] at h
  split at h
  · cases h
  case h_2 b hb =>
    split at h
    · cases h
    case isFalse hsends =>
      split at h
      · cases h
      case isFalse hfloor => exact ⟨by simpa using hsends, b, hb, by omega⟩

theorem readinessReason_eq_none {text : ClaimedHeight → String} {i : ReadinessInputs}
    (h : readinessReason text i = none) :
    nodeReason text i.nodeExpected i.node = none ∧ moneyReason i = none := by
  simp only [readinessReason] at h
  split at h
  · cases h
  · split at h
    · cases h
    · exact (Option.orElse_eq_none _ _).mp h

end ZcashFaucet.Api
