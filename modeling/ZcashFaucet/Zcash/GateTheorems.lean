/-
ZcashFaucet.Zcash.GateTheorems — what the two gates promise together.

Each gate is inverted once: what is known of the heights when it passes.
`gates_outlive_expiry` adds the two budgets up, for every environment the
process boots with.
-/
import Mathlib.Tactic.Linarith
import ZcashFaucet.Zcash.Gates

namespace ZcashFaucet.Zcash

open Lib

variable {cfg : GateConfig} {w n : Option ℚ} {ext : Option ClaimedHeight}

theorem lag_le_iff {h : ClaimedHeight} {n b : ℚ} :
    h.map (· - n) ≤ (b : ClaimedHeight) ↔ h ≤ ((n + b : ℚ) : ClaimedHeight) := by
  induction h using WithTop.recTopCoe with
  | top => simp
  | coe h =>
      simp only [WithTop.map_coe, WithTop.coe_le_coe]
      exact ⟨fun _ => by linarith, fun _ => by linarith⟩

theorem mayBuildTransaction_iff :
    mayBuildTransaction (chainFreshness cfg n ext) = true ↔
      ∃ nh h, n = some nh ∧ ext = some h ∧ h ≤ ((nh + cfg.shieldMaxLag.val : ℚ) : ClaimedHeight) := by
  cases n with
  | none => simp [mayBuildTransaction, chainFreshness]
  | some nh =>
    cases ext with
    | none => simp [mayBuildTransaction, chainFreshness]
    | some h =>
        have hpass : mayBuildTransaction (chainFreshness cfg (some nh) (some h)) = true ↔
            ¬ (cfg.shieldMaxLag.val : ClaimedHeight) < h.map (· - nh) := by
          simp only [mayBuildTransaction, chainFreshness]
          split
          · simp_all
          · split <;> simp_all
        rw [hpass, not_lt, lag_le_iff]
        simp

theorem mayBuildFromWallet_iff :
    mayBuildFromWallet (walletLagFreshness cfg w n) = true ↔
      ∃ wh nh, w = some wh ∧ n = some nh ∧ (nh ≤ wh ∨ nh ≤ wh + cfg.walletMaxLag.val) := by
  cases w with
  | none => simp [mayBuildFromWallet, walletLagFreshness]
  | some wh =>
    cases n with
    | none => simp [mayBuildFromWallet, walletLagFreshness]
    | some nh =>
        simp only [mayBuildFromWallet, walletLagFreshness]
        by_cases hahead : nh - wh ≤ 0
        · have hle : nh ≤ wh := by linarith
          simp [hahead, hle]
        · have hnot : ¬ nh ≤ wh := fun hle => hahead (by linarith)
          by_cases hover : nh - wh > cfg.walletMaxLag.val
          · have hno : ¬ nh ≤ wh + cfg.walletMaxLag.val := fun hle => absurd hover (by linarith)
            simp [hahead, hover, hnot, hno]
          · have hyes : nh ≤ wh + cfg.walletMaxLag.val := by linarith
            simp [hahead, hover, hyes]

/-- A gate that passes with more fresh references passes with fewer. -/
theorem mayBuildTransaction_antitone {now : ℚ} {s s' : TipSources} (hne : s.fresh now ≠ [])
    (hsub : ∀ e ∈ s.fresh now, e ∈ s'.fresh now)
    (hpass : mayBuildTransaction (chainFreshness cfg n (referenceTipAt now s').height) = true) :
    mayBuildTransaction (chainFreshness cfg n (referenceTipAt now s).height) = true := by
  obtain ⟨nh, h', hn, hh', hle⟩ := mayBuildTransaction_iff.mp hpass
  obtain ⟨h, hh, hhh'⟩ := height_mono hne hsub hh'
  exact mayBuildTransaction_iff.mpr ⟨nh, h, hn, hh, hhh'.trans hle⟩

/-- Every fresh reference is within the node's budget of it. -/
theorem fresh_le_of_pass {now : ℚ} {s : TipSources} {nh : ℚ}
    (hpass : mayBuildTransaction (chainFreshness cfg (some nh) (referenceTipAt now s).height) = true)
    {e : ReferenceName × TipReference} (he : e ∈ s.fresh now) :
    e.2.height ≤ ((nh + shieldLagCeiling : ℚ) : ClaimedHeight) := by
  obtain ⟨nh', h, hn, hh, hle⟩ := mayBuildTransaction_iff.mp hpass
  cases hn
  have hceiling : nh + cfg.shieldMaxLag.val ≤ nh + shieldLagCeiling := by
    linarith [cfg.shieldMaxLag.property]
  calc e.2.height ≤ h := le_of_height hh he
    _ ≤ ((nh + cfg.shieldMaxLag.val : ℚ) : ClaimedHeight) := hle
    _ ≤ ((nh + shieldLagCeiling : ℚ) : ClaimedHeight) := WithTop.coe_le_coe.mpr hceiling

/-- The wallet is within its budget of the node. -/
theorem node_le_of_pass {wh nh : ℚ}
    (hpass : mayBuildFromWallet (walletLagFreshness cfg (some wh) (some nh)) = true) :
    nh ≤ wh + walletLagCeiling := by
  obtain ⟨wh', nh', hw, hn, hle⟩ := mayBuildFromWallet_iff.mp hpass
  cases hw
  cases hn
  have hceiling := cfg.walletMaxLag.property
  have hpos : (0 : ℚ) ≤ walletLagCeiling := by norm_num [walletLagCeiling]
  cases hle with
  | inl hahead => linarith
  | inr hwithin => linarith

/-- The expiry a transaction is stamped with, from the scanned height. -/
def stampedExpiry (walletHeight : ℚ) : ℚ := walletHeight + expiryDeltaBlocks

/-- Where both gates pass, the expiry is ten blocks above every fresh
reference and above the node; and a fresh reference more, where there is
one already, never lets a refused transaction through. -/
theorem gates_outlive_expiry (env : Env) (numberText : ClaimedHeight → JsString) (cfg : GateConfig)
    (now : ℚ) (s : TipSources) (w n : Option ℚ) : gateConfig env numberText = .ok cfg →
    (mayBuildTransaction (chainFreshness cfg n (referenceTipAt now s).height) = true →
      mayBuildFromWallet (walletLagFreshness cfg w n) = true →
      ∃ wh nh, w = some wh ∧ n = some nh ∧
        (∀ e ∈ s.fresh now, e.2.height + 10 ≤ ((stampedExpiry wh : ℚ) : ClaimedHeight)) ∧
        nh < stampedExpiry wh) ∧
    ∀ s' : TipSources, s.fresh now ≠ [] → (∀ e ∈ s.fresh now, e ∈ s'.fresh now) →
      mayBuildTransaction (chainFreshness cfg n (referenceTipAt now s').height) = true →
      mayBuildTransaction (chainFreshness cfg n (referenceTipAt now s).height) = true := by
  intro _
  refine ⟨?_, fun s' hne hsub => mayBuildTransaction_antitone hne hsub⟩
  intro hchain hwallet
  obtain ⟨wh, nh, rfl, rfl, _⟩ := mayBuildFromWallet_iff.mp hwallet
  have hnode : nh ≤ wh + walletLagCeiling := node_le_of_pass hwallet
  refine ⟨wh, nh, rfl, rfl, ?_, ?_⟩
  · intro e he
    have hroom : nh + shieldLagCeiling + 10 ≤ stampedExpiry wh := by
      simp only [stampedExpiry, shieldLagCeiling, walletLagCeiling, expiryDeltaBlocks] at *
      linarith
    calc e.2.height + 10
        ≤ ((nh + shieldLagCeiling : ℚ) : ClaimedHeight) + 10 := by gcongr; exact fresh_le_of_pass hchain he
      _ = ((nh + shieldLagCeiling + 10 : ℚ) : ClaimedHeight) := rfl
      _ ≤ ((stampedExpiry wh : ℚ) : ClaimedHeight) := WithTop.coe_le_coe.mpr hroom
  · simp only [stampedExpiry, walletLagCeiling, expiryDeltaBlocks] at *
    linarith

/-- An environment with a chain budget over its ceiling and the wallet's
left out. -/
def wideEnv : Env where
  raw name := if name = "FAUCET_SHIELD_MAX_LAG_BLOCKS" then some (js "500") else none
  number raw := if raw = js "500" then some 500 else none

def plainText (_ : ClaimedHeight) : JsString := js "n"

def wideGates : GateConfig := ⟨⟨10, by decide⟩, ⟨10, by decide⟩, plainText⟩

/-- One fresh reference, and one that is six minutes old. -/
def oneFresh : TipSources :=
  ⟨[(.hosh, ⟨4349808, 0, none⟩), (.lightwalletd, ⟨4349928, 360000, none⟩)], by decide⟩

theorem gates_outlive_expiry_wide :
    gateConfig wideEnv plainText = .ok wideGates ∧
      mayBuildTransaction (chainFreshness wideGates (some 4349920) (referenceTipAt 360000 oneFresh).height) = true ∧
      mayBuildFromWallet (walletLagFreshness wideGates (some 4349910) (some 4349920)) = true ∧
      ∀ e ∈ oneFresh.fresh 360000, e.2.height + 10 ≤ ((stampedExpiry 4349910 : ℚ) : ClaimedHeight) := by
  have hboot : gateConfig wideEnv plainText = .ok wideGates := rfl
  have hchain : mayBuildTransaction
      (chainFreshness wideGates (some 4349920) (referenceTipAt 360000 oneFresh).height) = true := by decide +kernel
  have hwallet : mayBuildFromWallet (walletLagFreshness wideGates (some 4349910) (some 4349920)) = true := by
    decide +kernel
  obtain ⟨wh, nh, hw, _, hfresh, _⟩ :=
    (gates_outlive_expiry wideEnv plainText wideGates 360000 oneFresh (some 4349910) (some 4349920) hboot).1
      hchain hwallet
  cases hw
  exact ⟨hboot, hchain, hwallet, hfresh⟩

end ZcashFaucet.Zcash
