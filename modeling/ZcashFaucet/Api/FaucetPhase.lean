/-
ZcashFaucet.Api.FaucetPhase — what the page makes of `/api/status`:
`faucetPhase.ts`.

A `Status` is what came over the wire, so a field a server may leave out
is an option, and a number that JSON cannot write is null. Fields that
decide no phase are left out.
-/
import ZcashFaucet.Zcash.NodeStatus
import ZcashFaucet.Zcash.SendHealth

namespace ZcashFaucet.Api

open Db Zcash

inductive Phase
  | checking
  | syncing
  | fault
  | queued
  | empty
  | degraded
  | ready
  | submitting
  | success
  | cooldown
  | error
  deriving DecidableEq, Repr

structure StatusShield where
  state : ChainFreshness
  lag : Option ℚ
  deriving DecidableEq

structure StatusNode where
  ready : Bool
  nodeHeight : Option ℚ
  canBuildTx : Option Bool
  frozen : Option Bool
  behind : Option Bool
  externalHeight : Option ℚ
  shield : Option StatusShield
  deriving DecidableEq

inductive CtazBlock
  | disabled
  | enabled (servable : Bool)
  deriving DecidableEq, Repr

structure Status where
  sender : String
  balanceTaz : Option ℚ
  empty : Bool
  sends : Option SendHealthState
  backendReachable : Bool
  node : Option StatusNode
  ctaz : Option CtazBlock
  deriving DecidableEq

/-- How far the node is behind the independent tip, where both are known. -/
def nodeGap (s : Status) : Option ℚ := do
  let node ← s.node
  let ext ← node.externalHeight
  let own ← node.nodeHeight
  if ext > own then some (ext - own) else none

/-- `faultReason`. `num` is the text of a height with its separators. -/
def faultReason (num : ℚ → String) (s : Status) : Option String :=
  if !s.backendReachable then
    some "a public indexer we use for balance lookups is unreachable right now"
  else if s.sender == "zallet" && s.node.isNone && s.balanceTaz.isNone then
    some "our wallet is not answering"
  else if s.node.any fun n => n.frozen == some true then
    match s.node.bind StatusNode.behind, nodeGap s with
    | some true, some gap => some ("our node is " ++ num gap ++ " blocks behind the network")
    | _, _ => some "our node has stopped following the network"
  else if s.node.any fun n => n.canBuildTx == some false then
    match s.node.bind StatusNode.shield with
    | some ⟨.lagging, lag⟩ =>
        some ("our node is " ++ (match lag with | some l => num l ++ " blocks" | none => "too far") ++
          " behind the network, so a drip sent now would expire before it confirms")
    | _ => some "we cannot verify that our node is current, so we are not building transactions"
  else if (s.node.any fun n => n.ready) && s.balanceTaz.isNone then
    some "we cannot read our wallet's balance"
  else none

/-- `basePhase`. No reason is the empty text, so `faultReason` is tested
for being there. -/
def basePhase (num : ℚ → String) (s : Option Status) (net : FaucetNetwork) : Phase :=
  match s, net with
  | none, _ => .checking
  | some s, .ctaz =>
      match s.ctaz with
      | some (.enabled true) => .ready
      | _ => .syncing
  | some s, .taz =>
      if (faultReason num s).isSome then .fault
      else if s.node.any fun n => !n.ready then .syncing
      else
        match s.balanceTaz with
        | none => .syncing
        | some balance =>
            if balance ≤ 0 || s.empty then .empty
            else if s.sends == some .degraded then .degraded
            -- no node reading is not a good one
            else if s.sender == "zallet" && s.node.isNone then .checking
            else .ready

/-! ## The status of a server -/

/-- A number as JSON writes it: an infinity becomes null. -/
def wireNumber (h : ClaimedHeight) : Option ℚ := h

/-- A node status on the wire. -/
def statusNode (n : NodeStatus) : StatusNode where
  ready := n.ready
  nodeHeight := some n.nodeHeight
  canBuildTx := some n.canBuildTx
  frozen := some n.frozen
  behind := some n.behind
  externalHeight := n.externalHeight.bind wireNumber
  shield := some ⟨n.shield.state, n.shield.lag.bind wireNumber⟩

/-- ZATOSHI_PER_TAZ. -/
def zatoshiPerTaz : ℚ := 100000000

/-- The body of `GET /api/status`, from what it read. -/
def statusBody (sender : String) (floorZat : Int) (balanceZat : Option Int) (backendReachable : Bool)
    (sends : SendHealth) (node : Option NodeStatus) (ctaz : CtazBlock) : Status where
  sender := sender
  balanceTaz := balanceZat.map fun b => b / zatoshiPerTaz
  empty := balanceZat.any fun b => decide (b < floorZat)
  sends := some sends.state
  backendReachable := backendReachable
  node := node.map statusNode
  ctaz := some ctaz

/-- What a page that shows a ready faucet has seen. -/
theorem basePhase_ready {num : ℚ → String} {s : Status} (h : basePhase num (some s) .taz = .ready) :
    faultReason num s = none ∧ (s.node.any fun n => !n.ready) = false ∧ s.balanceTaz.isSome = true ∧
      s.empty = false ∧ (s.sends == some .degraded) = false ∧
      (s.sender == "zallet" && s.node.isNone) = false := by
  simp only [basePhase] at h
  split at h
  · cases h
  case isFalse hfault =>
    split at h
    · cases h
    case isFalse hready =>
      split at h
      · cases h
      case h_2 balance hbalance =>
        split at h
        · cases h
        case isFalse hempty =>
          split at h
          · cases h
          case isFalse hsends =>
            split at h
            · cases h
            case isFalse hnode =>
              simp only [Bool.or_eq_true, not_or, Bool.not_eq_true] at hempty hready hsends hnode
              exact ⟨by simpa using hfault, hready, by simp [hbalance], hempty.2, hsends, hnode⟩

/-- Without a fault, no node on the page says it cannot build. -/
theorem canBuild_of_no_fault {num : ℚ → String} {s : Status} (h : faultReason num s = none) :
    (s.node.any fun n => n.canBuildTx == some false) = false := by
  simp only [faultReason] at h
  split at h
  · cases h
  · split at h
    · cases h
    · split at h
      · split at h <;> cases h
      · split at h
        · split at h <;> cases h
        case isFalse hbuild => simpa using hbuild

end ZcashFaucet.Api
