/-
ZcashFaucet.Zcash.NodeStatus — what `getNodeStatus` makes of the wallet's
answer: `zcash/nodeStatus.ts`, with the motion check of
`zcash/tipProgress.ts`.

The wallet answers with two heights, its own and the node's. A height that
is not a finite number is no height, and without both there is no status.
How the wallet is asked and what is counted about that is not here, nor is
the chain's identity, which is only shown.
-/
import ZcashFaucet.Zcash.Gates

namespace ZcashFaucet.Zcash

structure NodeConfig where
  gates : GateConfig
  /-- FREEZE_BLOCKS. -/
  freezeBlocks : ℚ
  /-- TIP_STALL_MS. -/
  tipStallMs : ℚ

/-! ## Motion -/

structure TipSample where
  height : ℚ
  seenAt : ℚ
  externalHeight : Option ClaimedHeight
  deriving DecidableEq

structure TipProgress where
  stalled : Bool
  stalledMs : Option ℚ
  networkQuiet : Bool
  next : TipSample
  deriving DecidableEq

def tipProgress (tipStallMs : ℚ) (prev : Option TipSample) (height : ℚ)
    (externalHeight : Option ClaimedHeight) (now : ℚ) : TipProgress :=
  match prev with
  | none => ⟨false, none, false, ⟨height, now, externalHeight⟩⟩
  | some prev =>
      if height ≠ prev.height then ⟨false, some 0, false, ⟨height, now, externalHeight⟩⟩
      else
        let stalledMs := now - prev.seenAt
        let networkQuiet :=
          externalHeight.isSome && prev.externalHeight.isSome && externalHeight == prev.externalHeight
        ⟨decide (stalledMs ≥ tipStallMs) && !networkQuiet, some stalledMs, networkQuiet, prev⟩

/-! ## Status -/

structure NodeStatus where
  ready : Bool
  syncPercent : Option ℚ
  height : ℚ
  nodeHeight : ℚ
  externalHeight : Option ClaimedHeight
  frozen : Bool
  behind : Bool
  tipStalledMs : Option ℚ
  networkQuiet : Bool
  shield : ChainGate
  canBuildTx : Bool

/-- The status made of both heights, and the tip to remember. -/
def nodeStatusOf (cfg : NodeConfig) (lastTip : Option TipSample) (refs : TipSources) (now w n : ℚ) :
    NodeStatus × TipSample :=
  let externalHeight := (referenceTipAt now refs).height
  let behind := match externalHeight with
    | none => false
    | some ext => decide ((cfg.freezeBlocks : ClaimedHeight) < ext.map (· - n))
  let progress := tipProgress cfg.tipStallMs lastTip n externalHeight now
  let frozen := behind || progress.stalled
  let shield := chainFreshness cfg.gates (some n) externalHeight
  let walletCaughtUp :=
    decide (n > 0) && mayBuildFromWallet (walletLagFreshness cfg.gates (some w) (some n))
  ({ ready := walletCaughtUp && !frozen
     syncPercent := if n > 0 then some (min 100 (w / n * 100)) else none
     height := w
     nodeHeight := n
     externalHeight := externalHeight
     frozen := frozen
     behind := behind
     tipStalledMs := progress.stalledMs
     networkQuiet := progress.networkQuiet
     shield := shield
     canBuildTx := mayBuildTransaction shield },
   progress.next)

/-- `getNodeStatus`. The heights are what `height` lets through of the
answer, `none` also where there was no answer. -/
def getNodeStatus (cfg : NodeConfig) (sender : String) (lastTip : Option TipSample) (refs : TipSources)
    (now : ℚ) (walletTip nodeTip : Option ℚ) : Option (NodeStatus × TipSample) :=
  if sender ≠ "zallet" then none
  else
    match walletTip, nodeTip with
    | some w, some n => some (nodeStatusOf cfg lastTip refs now w n)
    | _, _ => none

end ZcashFaucet.Zcash
