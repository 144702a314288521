/-
ZcashFaucet.Api.PageAndClaim — the page, the readiness probe and the claim
route judge the same facts, and agree.

All three are built on one set of backend facts. `page_and_claim_agree` is
the direction that matters to a visitor: no set of facts makes the page
offer a claim, or the probe vouch for one, that a gate of the route would
refuse.
-/
import ZcashFaucet.Api.FaucetPhase
import ZcashFaucet.Api.PreReservation
import ZcashFaucet.Api.Readiness

namespace ZcashFaucet.Api

open Db Zcash

/-- What the backends would answer at one instant. -/
structure BackendFacts where
  nowMs : ℚ
  draining : Bool
  /-- a definite ledger failure: `ledgerBlocksServing` -/
  ledgerBlocks : Bool
  backendReachable : Bool
  balanceZat : Option Int
  walletHeight : Option ℚ
  nodeHeight : Option ℚ
  lastTip : Option TipSample
  references : TipSources
  sendLog : List SendLogRecord
  ctaz : CtazBlock
  ctazServes : Bool

variable (cfg : RouteConfig) (f : BackendFacts)

/-- The floor of both the guard and the probe. -/
def floorZat : Int := cfg.dripZatoshi + cfg.minReserveZatoshi

def factsNode : Option NodeStatus :=
  (getNodeStatus cfg.node cfg.sender f.lastTip f.references f.nowMs f.walletHeight f.nodeHeight).map Prod.fst

/-- The status the page gets on these facts. -/
def factsStatus : Status :=
  statusBody cfg.sender (floorZat cfg) f.balanceZat f.backendReachable
    (readSendHealth cfg.sendWindowMs f.nowMs f.sendLog .taz) (factsNode cfg f) f.ctaz

/-- The inputs of the readiness verdict on these facts. -/
def factsReadiness : ReadinessInputs :=
  let sends := readSendHealthServed cfg.sendWindowMs f.nowMs f.sendLog cfg.crosslinkEnabled
  { ledgerBlocks := f.ledgerBlocks
    backendReachable := f.backendReachable
    node := (factsNode cfg f).map readinessNode
    nodeExpected := cfg.sender == "zallet"
    balanceZat := f.balanceZat
    sendsBlock := sendHealthBlocksServing sends
    sendsReason := some sends.reason
    floorZat := floorZat cfg }

/-- What a claim for TAZ reads on these facts. -/
def factsReadings : GateReadings where
  draining := f.draining
  sends := readSendHealth cfg.sendWindowMs f.nowMs f.sendLog .taz
  balance := f.balanceZat
  node := factsNode cfg f
  tip := (referenceTipAt f.nowMs f.references).height
  ctazServes := f.ctazServes

variable {cfg f}

/-! ## What a node status says about the gates -/

theorem factsNode_some {n : NodeStatus} (h : factsNode cfg f = some n) :
    ∃ wh nh, (nodeStatusOf cfg.node f.lastTip f.references f.nowMs wh nh).1 = n := by
  simp only [factsNode, getNodeStatus] at h
  split at h
  · cases h
  · split at h
    case h_1 wh nh _ _ =>
      cases h
      exact ⟨wh, nh, rfl⟩
    case h_2 => cases h

/-- The gate in the status is the gate of the claim. -/
theorem claimFreshness_facts {n : NodeStatus} (h : factsNode cfg f = some n) :
    claimFreshness cfg (factsReadings cfg f) = n.shield := by
  obtain ⟨wh, nh, rfl⟩ := factsNode_some h
  simp only [claimFreshness, factsReadings, h, Option.map_some, nodeStatusOf]

theorem canBuildTx_eq {n : NodeStatus} (h : factsNode cfg f = some n) :
    n.canBuildTx = mayBuildTransaction n.shield := by
  obtain ⟨wh, nh, rfl⟩ := factsNode_some h
  rfl

/-- A node that is ready has a wallet that caught up with it. -/
theorem walletLag_of_ready {n : NodeStatus} (h : factsNode cfg f = some n) (hready : n.ready = true) :
    mayBuildFromWallet (claimWalletLag cfg (factsReadings cfg f)) = true := by
  have hgate : claimWalletLag cfg (factsReadings cfg f) =
      walletLagFreshness cfg.node.gates (some n.height) (some n.nodeHeight) := by
    simp only [claimWalletLag, factsReadings, h, Option.map_some]
  obtain ⟨wh, nh, rfl⟩ := factsNode_some h
  rw [hgate]
  simp only [nodeStatusOf, Bool.and_eq_true] at hready
  exact hready.1.2

/-! ## The gates that are not about the node -/

theorem sends_of_page (h : ((factsStatus cfg f).sends == some .degraded) = false) :
    sendHealthGate cfg (factsReadings cfg f) = none := by
  rw [sendHealthGate_eq_none]
  simpa [factsStatus, statusBody, sendHealthBlocksServing, factsReadings] using h

theorem balance_of_page (h : (factsStatus cfg f).empty = false) :
    balanceGate cfg .taz (factsReadings cfg f) = none := by
  rw [balanceGate_eq_none]
  intro b hb
  have hb' : f.balanceZat = some b := hb
  have hfloor : decide (b < floorZat cfg) = false := by
    simpa [factsStatus, statusBody, hb'] using h
  exact not_lt.mp (of_decide_eq_false hfloor)

theorem taz_served : FaucetNetwork.taz ∈ servedNetworks cfg.crosslinkEnabled := by
  simp only [servedNetworks]
  split <;> simp

/-! ## Agreement -/

/-- A page that shows a ready faucet offers a claim that no gate refuses. -/
theorem gates_of_ready (hz : cfg.sender = "zallet") {num : ℚ → String}
    (h : basePhase num (some (factsStatus cfg f)) .taz = .ready) :
    sendHealthGate cfg (factsReadings cfg f) = none ∧
      refusalAfterProof cfg .taz (factsReadings cfg f) = none := by
  obtain ⟨hfault, hready, _, hempty, hsends, hnode⟩ := basePhase_ready h
  have hbuild := canBuild_of_no_fault hfault
  cases hn : factsNode cfg f with
  | none => simp [factsStatus, statusBody, hz, hn] at hnode
  | some n =>
      have hnready : n.ready = true := by
        simpa [factsStatus, statusBody, hn, statusNode] using hready
      have hncan : n.canBuildTx = true := by
        simpa [factsStatus, statusBody, hn, statusNode] using hbuild
      have hfresh : freshnessGate cfg .taz (factsReadings cfg f) = none := by
        rw [freshnessGate_eq_none, claimFreshness_facts hn, ← canBuildTx_eq hn]
        exact fun _ => hncan
      have hlag : walletLagGate cfg .taz (factsReadings cfg f) = none :=
        walletLagGate_eq_none.mpr fun _ => walletLag_of_ready hn hnready
      refine ⟨sends_of_page hsends, ?_⟩
      rw [refusalAfterProof, balance_of_page hempty, hfresh, hlag]
      rfl

/-- A probe that finds nothing leaves at most an unverifiable tip. -/
theorem gates_of_no_reason (hz : cfg.sender = "zallet") {text : ClaimedHeight → String}
    (h : readinessReason text (factsReadiness cfg f) = none) :
    sendHealthGate cfg (factsReadings cfg f) = none ∧
      balanceGate cfg .taz (factsReadings cfg f) = none ∧
      walletLagGate cfg .taz (factsReadings cfg f) = none ∧
      (freshnessGate cfg .taz (factsReadings cfg f) = none ∨
        (claimFreshness cfg (factsReadings cfg f)).state = .unverifiable) := by
  obtain ⟨hnodes, hmoney⟩ := readinessReason_eq_none h
  obtain ⟨hsends, b, hb, hfloor⟩ := moneyReason_eq_none hmoney
  obtain ⟨hexpected, hnode⟩ := nodeReason_eq_none hnodes
  have hsome : ((factsNode cfg f).map readinessNode).isSome = true :=
    hexpected (by simp [factsReadiness, hz])
  obtain ⟨n, hn⟩ := Option.isSome_iff_exists.mp (by simpa using hsome : (factsNode cfg f).isSome = true)
  obtain ⟨hnready, hnshield⟩ := hnode (readinessNode n) (by simp [factsReadiness, hn])
  refine ⟨?_, ?_, ?_, ?_⟩
  · rw [sendHealthGate_eq_none]
    exact not_blocked_of_served hsends taz_served
  · rw [balanceGate_eq_none]
    intro b' hb'
    have hbb : some b' = some b := hb'.symm.trans hb
    cases hbb
    exact hfloor
  · exact walletLagGate_eq_none.mpr fun _ => walletLag_of_ready hn hnready
  · rw [freshnessGate_eq_none, claimFreshness_facts hn]
    have hshield : n.shield.state ≠ .lagging := hnshield
    cases hstate : n.shield.state with
    | safe => exact .inl fun _ => by simp [mayBuildTransaction, hstate]
    | lagging => exact absurd hstate hshield
    | unverifiable => exact .inr rfl

/-- On no set of facts does the page offer a claim, or the probe vouch for
one, that the route would refuse before it reserves. -/
theorem page_and_claim_agree (cfg : RouteConfig) (f : BackendFacts) (num : ℚ → String)
    (text : ClaimedHeight → String) (hz : cfg.sender = "zallet") (hdrain : f.draining = false) :
    (basePhase num (some (factsStatus cfg f)) .taz = .ready →
      refusalBeforeProof cfg (factsReadings cfg f) = none ∧
        refusalAfterProof cfg .taz (factsReadings cfg f) = none) ∧
    (readinessReason text (factsReadiness cfg f) = none →
      refusalBeforeProof cfg (factsReadings cfg f) = none ∧
        balanceGate cfg .taz (factsReadings cfg f) = none ∧
        walletLagGate cfg .taz (factsReadings cfg f) = none ∧
        (freshnessGate cfg .taz (factsReadings cfg f) = none ∨
          (claimFreshness cfg (factsReadings cfg f)).state = .unverifiable)) := by
  have hbefore : sendHealthGate cfg (factsReadings cfg f) = none →
      refusalBeforeProof cfg (factsReadings cfg f) = none := by
    intro hsends
    have hrunning : drainingGate (factsReadings cfg f) = none := drainingGate_eq_none.mpr hdrain
    rw [refusalBeforeProof, hrunning, hsends]
    rfl
  constructor
  · intro hready
    obtain ⟨hsends, hafter⟩ := gates_of_ready hz hready
    exact ⟨hbefore hsends, hafter⟩
  · intro hreason
    obtain ⟨hsends, hrest⟩ := gates_of_no_reason hz hreason
    exact ⟨hbefore hsends, hrest⟩

/-- Stock budgets and a drip of 0.1 TAZ over a reserve of 1. -/
def stockRoute : RouteConfig where
  node := ⟨⟨⟨5, shieldMaxLag_default_le⟩, ⟨10, walletMaxLag_default_le⟩, fun _ => []⟩, 200, 1200000⟩
  sender := "zallet"
  dripZatoshi := 10000000
  minReserveZatoshi := 100000000
  sendWindowMs := 900000
  crosslinkEnabled := true

/-- A wallet eight blocks behind the node, in reach of it, and one fresh
reference three blocks ahead. -/
def quietFacts : BackendFacts where
  nowMs := 60000
  draining := false
  ledgerBlocks := false
  backendReachable := true
  balanceZat := some 500000000
  walletHeight := some 4349917
  nodeHeight := some 4349925
  lastTip := none
  references := ⟨[(.lightwalletd, ⟨(4349928 : ℚ), 30000, none⟩)], by decide⟩
  sendLog := [⟨.failed, 50000, some .ctaz, false⟩, ⟨.ok, 55000, some .taz, false⟩]
  ctaz := .disabled
  ctazServes := false

theorem page_and_claim_agree_quiet :
    basePhase (fun _ => "") (some (factsStatus stockRoute quietFacts)) .taz = .ready ∧
      readinessReason (fun _ => "") (factsReadiness stockRoute quietFacts) = none ∧
      refusalBeforeProof stockRoute (factsReadings stockRoute quietFacts) = none ∧
      refusalAfterProof stockRoute .taz (factsReadings stockRoute quietFacts) = none ∧
      walletLagGate stockRoute .taz (factsReadings stockRoute quietFacts) = none := by
  have hagree := page_and_claim_agree stockRoute quietFacts (fun _ => "") (fun _ => "") rfl rfl
  have hready : basePhase (fun _ => "") (some (factsStatus stockRoute quietFacts)) .taz = .ready := by
    decide +kernel
  have hreason : readinessReason (fun _ => "") (factsReadiness stockRoute quietFacts) = none := by
    decide +kernel
  exact ⟨hready, hreason, (hagree.1 hready).1, (hagree.1 hready).2, (hagree.2 hreason).2.2.1⟩

end ZcashFaucet.Api
