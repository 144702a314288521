/-
ZcashFaucet.Zcash.Gates — the two gates in front of every transaction the
faucet builds.

`zcash/shieldGate.ts` asks whether our node follows the network,
`zcash/walletLagGate.ts` whether our wallet has scanned what our node has.
Both fail closed: a height that could not be read is `unverifiable`, and
only `safe` lets a transaction be built. A budget is configured and
clamped, so the ceiling is part of its type.

Heights of ours are block counts the wallet answered with, taken exactly.
-/
import ZcashFaucet.Config
import ZcashFaucet.Zcash.TipReferences

namespace ZcashFaucet.Zcash

open Lib

/-- EXPIRY_DELTA_BLOCKS, the same in both files. -/
def expiryDeltaBlocks : ℚ := 40

/-! ## Budgets -/

/-- SHIELD_LAG_CEILING. -/
def shieldLagCeiling : ℚ := 10

/-- WALLET_LAG_CEILING. -/
def walletLagCeiling : ℚ := 20

theorem shieldMaxLag_default_le : (5 : ℚ) ≤ shieldLagCeiling := by decide +kernel

theorem walletMaxLag_default_le : (10 : ℚ) ≤ walletLagCeiling := by decide +kernel

/-- A configured budget, or the ceiling where it exceeds that. -/
def clampTo (ceiling configured : ℚ) : {b : ℚ // b ≤ ceiling} :=
  if h : configured > ceiling then ⟨ceiling, le_refl ceiling⟩ else ⟨configured, not_lt.mp h⟩

/-- SHIELD_MAX_LAG_BLOCKS. -/
def shieldMaxLagBlocks (env : Env) : Except JsString {b : ℚ // b ≤ shieldLagCeiling} :=
  (clampTo shieldLagCeiling) <$> num env "FAUCET_SHIELD_MAX_LAG_BLOCKS" 5

/-- WALLET_MAX_LAG_BLOCKS. -/
def walletMaxLagBlocks (env : Env) : Except JsString {b : ℚ // b ≤ walletLagCeiling} :=
  (clampTo walletLagCeiling) <$> num env "FAUCET_WALLET_MAX_LAG_BLOCKS" 10

/-- What the two gates are configured with, and the text a template string
makes of a number. -/
structure GateConfig where
  shieldMaxLag : {b : ℚ // b ≤ shieldLagCeiling}
  walletMaxLag : {b : ℚ // b ≤ walletLagCeiling}
  numberText : ClaimedHeight → JsString

/-- The gates of a process that boots with `env`. -/
def gateConfig (env : Env) (numberText : ClaimedHeight → JsString) : Except JsString GateConfig := do
  let shieldMaxLag ← shieldMaxLagBlocks env
  let walletMaxLag ← walletMaxLagBlocks env
  return ⟨shieldMaxLag, walletMaxLag, numberText⟩

/-! ## Our node and the network -/

inductive ChainFreshness
  | safe
  /-- `"unsafe"` -/
  | lagging
  | unverifiable
  deriving DecidableEq, Repr

structure ChainGate where
  state : ChainFreshness
  nodeHeight : Option ℚ
  externalHeight : Option ClaimedHeight
  lag : Option ClaimedHeight
  reason : JsString

def chainFreshness (cfg : GateConfig) (nodeHeight : Option ℚ) (externalHeight : Option ClaimedHeight) :
    ChainGate :=
  match nodeHeight with
  | none =>
      ⟨.unverifiable, none, externalHeight, none,
        js "our node's height is unknown, so freshness cannot be established"⟩
  | some n =>
      match externalHeight with
      | none =>
          ⟨.unverifiable, some n, none, none,
            js ("no independently-verified network tip is available, so we cannot tell whether " ++
              "our node is current; refusing to broadcast rather than assuming it is")⟩
      | some ext =>
          let lag : ClaimedHeight := ext.map (· - n)
          let limit := cfg.numberText cfg.shieldMaxLag.val
          if cfg.shieldMaxLag.val < lag then
            ⟨.lagging, some n, some ext, some lag,
              js "our node is " ++ cfg.numberText lag ++ js " blocks behind the network (limit " ++
                limit ++ js ("); a transaction built now risks an expiry height the network " ++
                  "has already passed")⟩
          else if lag < 0 then
            ⟨.safe, some n, some ext, some lag,
              js "our node is " ++ cfg.numberText (lag.map (- ·)) ++
                js (" blocks AHEAD of the independent reference. Normal for a node that mines, " ++
                  "and safe for an expiry height because ahead cannot be stale. It is not " ++
                  "evidence that we agree with the network, which height alone cannot show")⟩
          else
            ⟨.safe, some n, some ext, some lag,
              js "our node is within " ++ limit ++ js " blocks of the network (lag " ++
                cfg.numberText lag ++ js ")"⟩

def mayBuildTransaction (gate : ChainGate) : Bool := gate.state == .safe

/-- `freshnessRefusalText`, or the error of a caller that asks for the
refusal of a gate that is safe. -/
def freshnessRefusalText (gate : ChainGate) : Except String String :=
  let tail := " Nothing was claimed, your cooldown is untouched. Try again shortly."
  match gate.state with
  | .lagging =>
      .ok ("Our node is catching up with the network, so a drip sent right now would expire " ++
        "before it could confirm." ++ tail)
  | .safe => .error "freshnessRefusalText called on a safe gate"
  | .unverifiable =>
      if gate.nodeHeight.isNone then
        .ok ("Our node did not report its height just now, so we are not sending: we cannot " ++
          "tell whether a drip built now would confirm." ++ tail)
      else
        .ok ("We could not verify the network's current height just now, so we are not sending: " ++
          "a drip built against an unverified tip could expire before it confirms." ++ tail)

/-! ## Our wallet and our node -/

inductive WalletLagState
  | safe
  /-- `"unsafe"` -/
  | lagging
  | unverifiable
  deriving DecidableEq, Repr

structure WalletLagGate where
  state : WalletLagState
  walletHeight : Option ℚ
  nodeHeight : Option ℚ
  lag : Option ℚ
  reason : JsString

def walletLagFreshness (cfg : GateConfig) (walletHeight nodeHeight : Option ℚ) : WalletLagGate :=
  match walletHeight, nodeHeight with
  | none, nodeHeight =>
      ⟨.unverifiable, none, nodeHeight, none,
        js ("our wallet's scanned height is unknown, so we cannot tell whether a drip would be " ++
          "born expired")⟩
  | some w, none =>
      ⟨.unverifiable, some w, none, none,
        js "our node's tip is unknown, so we cannot measure how far the wallet trails it"⟩
  | some w, some n =>
      let lag := n - w
      let budget := cfg.numberText cfg.walletMaxLag.val
      if lag ≤ 0 then
        ⟨.safe, some w, some n, some lag,
          js ("our wallet has scanned everything our node has, so a drip's expiry is stamped from " ++
            "a current height")⟩
      else if lag > cfg.walletMaxLag.val then
        ⟨.lagging, some w, some n, some lag,
          js "our wallet trails our own node by " ++ cfg.numberText lag ++ js " block(s), over the " ++
            budget ++ js (" budget. zallet stamps expiry from the scanned height, so a drip built " ++
              "now would expire at ") ++ cfg.numberText ((w + expiryDeltaBlocks : ℚ)) ++
            (if lag ≥ expiryDeltaBlocks then
              js " - already behind the tip at " ++ cfg.numberText n ++
                js ", so it could never be mined"
            else js " and could be overtaken before it is proved and broadcast")⟩
      else
        ⟨.safe, some w, some n, some lag,
          js "our wallet trails our node by " ++ cfg.numberText lag ++ js " block(s), inside the " ++
            budget ++ js " budget"⟩

def mayBuildFromWallet (gate : WalletLagGate) : Bool := gate.state == .safe

end ZcashFaucet.Zcash
