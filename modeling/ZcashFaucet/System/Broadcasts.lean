/-
ZcashFaucet.System.Broadcasts — where the transactions of the zallet
sender are asked for, and what could be read at that moment.

A TAZ claim asks for the node's status, waits for a reference if there is
none, and passes its two gates; then it spends its proof, reserves, and
waits in the send queue; its task may still unlock the wallet before it
calls `z_sendmany`. A shield step goes through the same queue and decides
when its task runs. Around them the heights and the clock move on as they
like: `world` replaces all that can be read.

Every call is logged with what could be read when it was made.
-/
import ZcashFaucet.Api.PreReservation
import ZcashFaucet.Reserve.ZalletRefiller

namespace ZcashFaucet.System

open Lib Zcash Api Reserve

structure BroadcastConfig where
  route : RouteConfig
  shield : ShieldConfig
  shieldCoinbase : Bool
  sendTaskDeadlineMs : ℚ

/-- ORACLE_WAIT_MS: the gap between two attempts, one attempt, a second. -/
def oracleWaitMs : ℚ := 1000 + (5000 + 3000) + 1000

/-! ## What can be read -/

/-- The two heights of a wallet status that is answered now, and what the
references last said. -/
structure View where
  now : ℚ
  walletTip : Option ℚ
  nodeTip : Option ℚ
  refs : TipSources

def View.tip (v : View) : Option ClaimedHeight := (referenceTipAt v.now v.refs).height

/-- Both gates, on a wallet's height, a node's and a network tip. -/
def gatesPass (gates : GateConfig) (walletTip nodeTip : Option ℚ) (tip : Option ClaimedHeight) : Bool :=
  mayBuildTransaction (chainFreshness gates nodeTip tip) &&
    mayBuildFromWallet (walletLagFreshness gates walletTip nodeTip)

def View.gatesPass (gates : GateConfig) (v : View) : Bool :=
  System.gatesPass gates v.walletTip v.nodeTip v.tip

/-! ## Claims, tasks and calls -/

/-- A claim between its status read and the queue. -/
inductive ClaimStage
  /-- it has its status, and waits for a reference -/
  | asked (status : Option NodeStatus) (askedAt : ℚ)
  /-- no gate refused it -/
  | passed
  /-- refused, or in the queue -/
  | over

inductive WalletTask
  | drip
  | refill
  deriving DecidableEq, Repr

structure Broadcast where
  task : WalletTask
  view : View

structure Broadcasts where
  view : View
  lastTip : Option TipSample
  queue : SerialQueue WalletTask Unit
  claims : List ClaimStage
  /-- The jobs that are past the point where they call the wallet. -/
  called : List Nat
  log : List Broadcast

inductive BroadcastEvent
  | world (view : View)
  | claim
  /-- the other readings of the claim's gates are its own -/
  | judge (i : Nat) (readings : GateReadings)
  | stop (i : Nat)
  | enqueue (i : Nat)
  | refill
  | start (k : Nat)
  | settle (k : Nat)
  | fire (k : Nat)
  | sendmany (k : Nat)
  | shield (k : Nat)

namespace Broadcasts

def init (maxPending : Nat) (view : View) : Broadcasts := ⟨view, none, .new maxPending, [], [], []⟩

/-- `getNodeStatus()`, answered now. -/
def status (cfg : BroadcastConfig) (s : Broadcasts) : Option (NodeStatus × TipSample) :=
  getNodeStatus cfg.route.node cfg.route.sender s.lastTip s.view.refs s.view.now s.view.walletTip
    s.view.nodeTip

/-- The tip remembered after a status read. -/
def seenTip (cfg : BroadcastConfig) (s : Broadcasts) : Option TipSample :=
  match s.status cfg with
  | some (_, next) => some next
  | none => s.lastTip

/-- The wait of `readChainFreshnessAsking` is over. -/
def waited (s : Broadcasts) (status : Option NodeStatus) (askedAt : ℚ) : Bool :=
  status.isNone || s.view.tip.isSome || decide (askedAt + oracleWaitMs ≤ s.view.now)

def judge (cfg : BroadcastConfig) (i : Nat) (readings : GateReadings) (s : Broadcasts) : Option Broadcasts :=
  match s.claims[i]? with
  | some (.asked status askedAt) =>
      if s.waited status askedAt then
        let readings := { readings with node := status, tip := s.view.tip }
        let stage := if (refusalAfterProof cfg.route .taz readings).isNone then .passed else .over
        some { s with claims := s.claims.set i stage }
      else none
  | _ => none

/-- The proof was spent already, or the reservation was refused. -/
def stop (i : Nat) (s : Broadcasts) : Option Broadcasts :=
  match s.claims[i]? with
  | some .passed => some { s with claims := s.claims.set i .over }
  | _ => none

def enqueue (cfg : BroadcastConfig) (i : Nat) (s : Broadcasts) : Option Broadcasts :=
  match s.claims[i]? with
  | some .passed =>
      some
        { s with
          claims := s.claims.set i .over
          queue := (s.queue.run .drip cfg.sendTaskDeadlineMs).getD s.queue }
  | _ => none

/-- The task of job `k` runs and has not come to its call. -/
def mayCall (task : WalletTask) (k : Nat) (s : Broadcasts) : Bool :=
  (s.queue.jobs[k]?.any fun j => j.task == task && j.isRunning) && !s.called.contains k

/-- `z_sendmany`. -/
def sendmany (cfg : BroadcastConfig) (k : Nat) (s : Broadcasts) : Option Broadcasts :=
  if cfg.route.sender = "zallet" ∧ s.mayCall .drip k then
    some { s with called := s.called ++ [k], log := s.log ++ [⟨.drip, s.view⟩] }
  else none

/-- The status a shield step asked for is answered. -/
def shield (cfg : BroadcastConfig) (k : Nat) (s : Broadcasts) : Option Broadcasts :=
  if selectRefillerKind cfg.shieldCoinbase cfg.route.sender = .zallet ∧ s.mayCall .refill k then
    let after := { s with lastTip := s.seenTip cfg, called := s.called ++ [k] }
    match stepStart cfg.route.node.gates cfg.shield s.view.tip ((s.status cfg).map Prod.fst) with
    | .calls => some { after with log := s.log ++ [⟨.refill, s.view⟩] }
    | _ => some after
  else none

def step (cfg : BroadcastConfig) (s : Broadcasts) : BroadcastEvent → Option Broadcasts
  | .world view => if s.view.now ≤ view.now then some { s with view := view } else none
  | .claim =>
      some
        { s with
          lastTip := s.seenTip cfg
          claims := s.claims ++ [.asked ((s.status cfg).map Prod.fst) s.view.now] }
  | .judge i readings => s.judge cfg i readings
  | .stop i => s.stop i
  | .enqueue i => s.enqueue cfg i
  | .refill => some { s with queue := (s.queue.run .refill cfg.sendTaskDeadlineMs).getD s.queue }
  | .start k => (s.queue.start k s.view.now).map fun queue => { s with queue := queue }
  | .settle k => (s.queue.settle k ()).map fun queue => { s with queue := queue }
  | .fire k => (s.queue.fire k s.view.now).map fun queue => { s with queue := queue }
  | .sendmany k => s.sendmany cfg k
  | .shield k => s.shield cfg k

end Broadcasts

end ZcashFaucet.System
