/-
ZcashFaucet.Reserve.ZalletRefiller — which refiller there is
(`reserve/select.ts`), and the shield step up to the call that builds a
transaction (`reserve/zalletRefiller.ts`).

The step asks for the node's status and decides on that answer. Between
the answer and the call there is no await, so decision and call are one
moment. How the call and the operation end is the wallet's doing and not
modelled here.
-/
import ZcashFaucet.Reserve.Reconciler
import ZcashFaucet.Zcash.GateTheorems
import ZcashFaucet.Zcash.NodeStatus

namespace ZcashFaucet.Reserve

open Lib Zcash

inductive RefillerKind
  | noop
  | zallet
  deriving DecidableEq, Repr

def selectRefillerKind (shieldCoinbase : Bool) (sender : String) : RefillerKind :=
  if !shieldCoinbase then .noop
  else if sender = "zallet" then .zallet
  else .noop

structure ShieldConfig where
  account : JsString
  address : JsString

/-- What a step comes to before it calls `z_shieldcoinbase`. -/
inductive StepStart
  | throws (message : JsString)
  | returns (outcome : StepOutcome)
  | calls

/-- A refusal has one `state` field for the words of both gates. -/
def WalletLagState.asFreshness : WalletLagState → ChainFreshness
  | .safe => .safe
  | .lagging => .lagging
  | .unverifiable => .unverifiable

/-- The step, given the answer of `getNodeStatus` and the reference tip. -/
def stepStart (gates : GateConfig) (z : ShieldConfig) (tip : Option ClaimedHeight)
    (status : Option NodeStatus) : StepStart :=
  if z.account.isEmpty then
    .throws (js "ZALLET_ACCOUNT (account UUID) is required to shield coinbase.")
  else if z.address.isEmpty then .throws (js "ZALLET_ADDRESS is required to shield coinbase.")
  else
    let gate := (status.map NodeStatus.shield).getD (chainFreshness gates none tip)
    if !mayBuildTransaction gate then
      .returns { moved := false, refused := some ⟨gate.state, gate.reason, gate.lag⟩, remainingUTXOs := none }
    else
      let walletLag :=
        walletLagFreshness gates (status.map NodeStatus.height) (status.map NodeStatus.nodeHeight)
      if !mayBuildFromWallet walletLag then
        .returns
          { moved := false
            refused :=
              some
                ⟨WalletLagState.asFreshness walletLag.state, walletLag.reason,
                  walletLag.lag.map fun lag => (lag : ClaimedHeight)⟩
            remainingUTXOs := none }
      else .calls

/-- A step that calls has both gates behind it. -/
theorem gates_of_calls {gates : GateConfig} {z : ShieldConfig} {tip : Option ClaimedHeight}
    {status : Option NodeStatus} (h : stepStart gates z tip status = .calls) :
    ∃ st, status = some st ∧ mayBuildTransaction st.shield = true ∧
      mayBuildFromWallet (walletLagFreshness gates (some st.height) (some st.nodeHeight)) = true := by
  unfold stepStart at h
  split at h
  · cases h
  split at h
  · cases h
  dsimp only at h
  split at h
  · cases h
  rename_i hchain
  split at h
  · cases h
  rename_i hwallet
  simp only [Bool.not_eq_true, Bool.not_eq_false'] at hchain hwallet
  cases status with
  | none =>
    simp only [Option.map_none, Option.getD_none] at hchain
    obtain ⟨_, _, hnone, _⟩ := mayBuildTransaction_iff.mp hchain
    cases hnone
  | some st => exact ⟨st, rfl, hchain, hwallet⟩

end ZcashFaucet.Reserve
