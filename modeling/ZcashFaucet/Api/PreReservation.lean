/-
ZcashFaucet.Api.PreReservation — the refusals of `POST /api/faucet` that
are the faucet's own, in the order the route makes them.

Two stand before the proof of work is verified, four after it and before
it is burned. Each is a function of what the request read: the route
awaits the reads between the gates, so a request has readings of its own.
-/
import ZcashFaucet.Api.FaucetRoute
import ZcashFaucet.Zcash.NodeStatus
import ZcashFaucet.Zcash.SendHealth

namespace ZcashFaucet.Api

open Db Zcash

/-- `apiError` of a gate: the error and the wait it names. -/
structure OwnRefusal where
  error : ApiError
  retryAfterSeconds : Option ℚ
  deriving DecidableEq

structure RouteConfig where
  node : NodeConfig
  sender : String
  dripZatoshi : Int
  minReserveZatoshi : Int
  /-- WINDOW_MS of the send log. -/
  sendWindowMs : ℚ
  crosslinkEnabled : Bool

/-- What one request reads at its gates. -/
structure GateReadings where
  /-- `isDraining()` -/
  draining : Bool
  /-- `readSendHealth` for the network of the claim -/
  sends : SendHealth
  /-- `safeBalance()` -/
  balance : Option Int
  /-- the answer of `getNodeStatus()` -/
  node : Option NodeStatus
  /-- the reference tip the wait of `readChainFreshnessAsking` ended on -/
  tip : Option ClaimedHeight
  /-- `canServeCtaz` of the Crosslink node's state -/
  ctazServes : Bool

/-- DRAIN_RETRY_SECONDS. -/
def drainRetrySeconds : ℚ := 20

/-- FRESHNESS_RETRY_SECONDS. -/
def freshnessRetryBlock : ℚ := 75

/-- SENDS_RETRY_SECONDS. -/
def sendsRetrySeconds (windowMs : ℚ) : ℚ := (⌈windowMs / 1000⌉ : Int)

def freshnessRetrySeconds (state : ChainFreshness) (nodeHeight : Option ℚ) : ℚ :=
  if state = .unverifiable ∧ nodeHeight = none then 5
  else if state = .unverifiable then 20
  else freshnessRetryBlock

variable (cfg : RouteConfig) (network : FaucetNetwork) (r : GateReadings)

/-! ## Before the proof of work -/

def drainingGate : Option OwnRefusal :=
  if r.draining then
    some
      { error :=
          { status := 503
            message := "The faucet is restarting and will be back in a moment. Nothing was claimed " ++
              "and no proof-of-work was spent."
            code := "draining"
            kind := some "restarting" }
        retryAfterSeconds := some drainRetrySeconds }
  else none

def sendHealthGate : Option OwnRefusal :=
  if sendHealthBlocksServing r.sends then
    some
      { error :=
          { status := 503
            message := "Sends are failing on our side right now, so we are not taking claims: " ++
              "nothing was claimed and no proof-of-work was spent. This is watched on our side and " ++
              "usually clears within minutes. Try again in a few minutes."
            code := "sendHealth"
            kind := some "sends" }
        retryAfterSeconds := some (sendsRetrySeconds cfg.sendWindowMs) }
  else none

def refusalBeforeProof : Option OwnRefusal := drainingGate r <|> sendHealthGate cfg r

/-! ## After the proof of work -/

def balanceGate : Option OwnRefusal :=
  match network, r.balance with
  | .taz, some balance =>
      if balance < cfg.dripZatoshi + cfg.minReserveZatoshi then
        some
          { error :=
              { status := 503
                message := "The faucet is empty right now. Please check back after it's refilled."
                code := "empty"
                kind := none }
            retryAfterSeconds := none }
      else none
  | _, _ => none

/-- Both gates below are about our own node, which pays TAZ through zallet. -/
def gatesApply : Bool := network == .taz && cfg.sender == "zallet"

/-- The chain view a claim is judged by: `readChainFreshnessAsking`. -/
def claimFreshness : ChainGate :=
  chainFreshness cfg.node.gates (r.node.map NodeStatus.nodeHeight) r.tip

def claimWalletLag : WalletLagGate :=
  walletLagFreshness cfg.node.gates (r.node.map NodeStatus.height) (r.node.map NodeStatus.nodeHeight)

def freshnessGate : Option OwnRefusal :=
  let freshness := claimFreshness cfg r
  if gatesApply cfg network && !mayBuildTransaction freshness then
    match freshnessRefusalText freshness with
    | .ok text =>
        some
          { error := { status := 503, message := text, code := "freshness", kind := none }
            retryAfterSeconds := some (freshnessRetrySeconds freshness.state freshness.nodeHeight) }
    -- the error goes to the catch-all of `withApi`
    | .error _ =>
        some
          { error :=
              { status := 500
                message := "Something went wrong on our side. Try again in a moment."
                code := "unhandled"
                kind := none }
            retryAfterSeconds := none }
  else none

def walletLagGate : Option OwnRefusal :=
  if gatesApply cfg network && !mayBuildFromWallet (claimWalletLag cfg r) then
    some
      { error :=
          { status := 503
            message := "Our wallet is still catching up with our node, so a drip sent right now would " ++
              "expire before it could confirm. Nothing was claimed, your cooldown is untouched. " ++
              "Try again shortly."
            code := "walletLag"
            kind := none }
        retryAfterSeconds := some freshnessRetryBlock }
  else none

def ctazReadinessGate : Option OwnRefusal :=
  if network == .ctaz && !r.ctazServes then
    some
      { error :=
          { status := 503
            message := "The Crosslink node is not current enough to hand out cTAZ right now. Nothing " ++
              "was claimed and your cooldown is untouched. Try again shortly."
            code := "ctazReadiness"
            kind := none }
        retryAfterSeconds := some freshnessRetryBlock }
  else none

def refusalAfterProof : Option OwnRefusal :=
  balanceGate cfg network r <|> freshnessGate cfg network r <|> walletLagGate cfg network r <|>
    ctazReadinessGate network r

/-! ## When a gate refuses -/

theorem refuses_eq_none {ρ : Type} {c : Bool} (x : ρ) : (if c then some x else none) = none ↔ c = false := by
  cases c <;> simp

theorem applies_and_fails {applies passes : Bool} :
    (applies && !passes) = false ↔ (applies = true → passes = true) := by
  cases applies <;> simp

variable {cfg network r}

theorem drainingGate_eq_none : drainingGate r = none ↔ r.draining = false := refuses_eq_none _

theorem sendHealthGate_eq_none : sendHealthGate cfg r = none ↔ sendHealthBlocksServing r.sends = false :=
  refuses_eq_none _

theorem balanceGate_eq_none :
    balanceGate cfg .taz r = none ↔ ∀ b, r.balance = some b → cfg.dripZatoshi + cfg.minReserveZatoshi ≤ b := by
  simp only [balanceGate]
  cases r.balance with
  | none => simp
  | some b => simp

theorem freshnessGate_eq_none :
    freshnessGate cfg network r = none ↔
      (gatesApply cfg network = true → mayBuildTransaction (claimFreshness cfg r) = true) := by
  rw [← applies_and_fails, freshnessGate]
  split
  case isTrue h =>
    rw [h]
    split <;> simp only [reduceCtorEq]
  case isFalse h => simp only [h]

theorem walletLagGate_eq_none :
    walletLagGate cfg network r = none ↔
      (gatesApply cfg network = true → mayBuildFromWallet (claimWalletLag cfg r) = true) := by
  rw [← applies_and_fails, walletLagGate]
  exact refuses_eq_none _

end ZcashFaucet.Api
