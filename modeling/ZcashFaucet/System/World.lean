/-
ZcashFaucet.System.World — the claim requests of one process, the ledger
they share and the queues they share, taking steps in any order.

A request reads `now` when it arrives, passes its gates, reserves,
enqueues its send, is answered by the queue and records the outcome.
Other tasks join the same queues. Nothing orders the steps of different
requests; the event loop only promises that a callback whose promise has
settled runs before any time passes (`tick`).

`Punctual` is what an operator has to provide: a task that holds the
wallet no longer than the configuration says, and a bound on what a
request spends before its queue and after it. That is not enough: a send
that resolves without a txid makes the finalise throw before it writes,
and `World.carried` excludes it.
-/
import ZcashFaucet.Api.FaucetRoute

namespace ZcashFaucet.System

open Lib Db Zcash Api

structure FaucetConfig where
  ledger : LedgerConfig
  sendTaskDeadlineMs : ℚ
  senderName : FaucetNetwork → String

/-- How far a request has come. A stage keeps the times its bounds are
about: when it was enqueued, and when it was answered. -/
inductive Stage
  | reading
  | refused
  | reserved (claimId : Nat)
  | waiting (claimId job : Nat) (enqueuedAt : ℚ)
  | answered (claimId : Nat) (enqueuedAt : ℚ) (answer : Answer Settlement) (answeredAt : ℚ)
  | done (claimId : Nat) (answer : Answer Settlement)
  deriving DecidableEq

structure Request where
  req : ClaimRequest
  readAt : ℚ
  stage : Stage

/-- `Math.floor(Date.now() / 1000)`, read when the request arrived. -/
def Request.now (rq : Request) : ℚ := ⌊rq.readAt / 1000⌋

def Request.at (stage : Stage) (rq : Request) : Request := { rq with stage := stage }

/-- The promise of `queue.run` settles. -/
def Request.hear (a : Answer Settlement) (clockMs : ℚ) (rq : Request) : Request :=
  match rq.stage with
  | .waiting claimId _ enqueuedAt => rq.at (.answered claimId enqueuedAt a clockMs)
  | _ => rq

/-- The row a request has reserved. -/
def Stage.claimId? : Stage → Option Nat
  | .reading => none
  | .refused => none
  | .reserved c => some c
  | .waiting c _ _ => some c
  | .answered c _ _ _ => some c
  | .done c _ => some c

/-- A send queue. The task of a claim is its request; other tasks have
none. -/
abbrev SendQueue := SerialQueue (Option Nat) Settlement

structure World where
  books : Books
  queues : FaucetNetwork → SendQueue
  requests : List Request

namespace World

def clockMs (w : World) : ℚ := w.books.clockMs

def init (cfg : FaucetConfig) (clockMs : ℚ) : World where
  books := .empty clockMs
  queues := fun _ => .new cfg.ledger.sendQueueMaxPending
  requests := []

def setQueue (n : FaucetNetwork) (q : SendQueue) (w : World) : World :=
  { w with queues := fun m => if m = n then q else w.queues m }

def setStage (i : Nat) (stage : Stage) (w : World) : World :=
  { w with requests := w.requests.modify i (Request.at stage) }

/-- A request arrives and reads `now`. -/
def arrive (req : ClaimRequest) (w : World) : World :=
  { w with requests := w.requests ++ [⟨req, w.clockMs, .reading⟩] }

/-- The purge a request issued reaches the table. -/
def purge (cfg : FaucetConfig) (i : Nat) (w : World) : Option World :=
  match w.requests[i]? with
  | some rq => some { w with books := w.books.apply cfg.ledger (.purge rq.now) }
  | none => none

def reserve (cfg : FaucetConfig) (i : Nat) (w : World) : Option World :=
  match w.requests[i]? with
  | some ⟨req, readAt, .reading⟩ =>
      let now := Request.now ⟨req, readAt, .reading⟩
      let w' := { w with books := w.books.apply cfg.ledger (.reserve req now) }
      match (reserveClaim cfg.ledger (req.opts cfg.ledger now) w.books.ledger).2 with
      | .ok claimId => some (w'.setStage i (.reserved claimId))
      | .error _ => some (w'.setStage i .refused)
  | _ => none

/-- `queue.run(() => sender.send(…), config.sendTaskDeadlineMs)`. -/
def enqueue (cfg : FaucetConfig) (i : Nat) (w : World) : Option World :=
  match w.requests[i]? with
  | some ⟨req, _, .reserved claimId⟩ =>
      let q := w.queues req.network
      match q.run (some i) cfg.sendTaskDeadlineMs with
      | some q' =>
          some ((w.setQueue req.network q').setStage i (.waiting claimId q.jobs.length w.clockMs))
      | none => some (w.setStage i (.answered claimId w.clockMs .queueFull w.clockMs))
  | _ => none

/-- Another task joins a queue, or is refused. -/
def other (n : FaucetNetwork) (deadlineMs : ℚ) (w : World) : World :=
  match (w.queues n).run none deadlineMs with
  | some q => w.setQueue n q
  | none => w

def start (n : FaucetNetwork) (k : Nat) (w : World) : Option World :=
  match (w.queues n).start k w.clockMs with
  | some q => some (w.setQueue n q)
  | none => none

/-- A caller that has no answer yet gets one. -/
def told (j : Job (Option Nat) Settlement) (a : Answer Settlement) (clockMs : ℚ)
    (requests : List Request) : List Request :=
  match j.task, j.answer with
  | some i, none => requests.modify i (Request.hear a clockMs)
  | _, _ => requests

def settle (n : FaucetNetwork) (k : Nat) (out : Settlement) (w : World) : Option World :=
  match (w.queues n).jobs[k]?, (w.queues n).settle k out with
  | some j, some q =>
      some { w.setQueue n q with requests := told j (.own out) w.clockMs w.requests }
  | _, _ => none

def fire (n : FaucetNetwork) (k : Nat) (w : World) : Option World :=
  match (w.queues n).jobs[k]?, (w.queues n).fire k w.clockMs with
  | some j, some q =>
      some { w.setQueue n q with requests := told j .deadline w.clockMs w.requests }
  | _, _ => none

/-- The finalise of a request writes its row. -/
def record (cfg : FaucetConfig) (i : Nat) (w : World) : Option World :=
  match w.requests[i]? with
  | some ⟨req, _, .answered claimId _ a _⟩ =>
      let args := finalizeArgs (cfg.senderName req.network) a
      match finalizeClaim claimId args.status args.txid args.noTxid w.clockMs req.network
          w.books.ledger with
      | .ok _ =>
          some ({ w with
            books := w.books.apply cfg.ledger
              (.finalize claimId args.status args.txid args.noTxid req.network) }.setStage i
                (.done claimId a))
      | .error _ => none
  | _ => none

/-- The finalise of a request throws and writes nothing: logged, and the
row stays as it was. -/
def recordThrew (cfg : FaucetConfig) (i : Nat) (w : World) : Option World :=
  match w.requests[i]? with
  | some ⟨req, _, .answered claimId _ a _⟩ =>
      let args := finalizeArgs (cfg.senderName req.network) a
      match finalizeClaim claimId args.status args.txid args.noTxid w.clockMs req.network
          w.books.ledger with
      | .ok _ => none
      | .error _ => some (w.setStage i (.done claimId a))
  | _ => none

/-- The write of a finalise fails: logged, and the row stays as it was. -/
def recordFailed (i : Nat) (w : World) : Option World :=
  match w.requests[i]? with
  | some ⟨_, _, .answered claimId _ a _⟩ => some (w.setStage i (.done claimId a))
  | _ => none

/-- A callback is due. -/
def busy (w : World) : Bool := (w.queues .taz).hasStartable || (w.queues .ctaz).hasStartable

/-- Time passes once every callback that is due has run. -/
def tick (cfg : FaucetConfig) (ms : ℚ) (w : World) : Option World :=
  if 0 ≤ ms ∧ w.busy = false then some { w with books := w.books.apply cfg.ledger (.tick ms) }
  else none

end World

inductive WorldEvent
  | tick (ms : ℚ)
  | arrive (req : ClaimRequest)
  | purge (i : Nat)
  | reserve (i : Nat)
  | enqueue (i : Nat)
  | other (n : FaucetNetwork) (deadlineMs : ℚ)
  | start (n : FaucetNetwork) (k : Nat)
  | settle (n : FaucetNetwork) (k : Nat) (out : Settlement)
  | fire (n : FaucetNetwork) (k : Nat)
  | record (i : Nat)
  | recordThrew (i : Nat)
  | recordFailed (i : Nat)

def World.step (cfg : FaucetConfig) (w : World) : WorldEvent → Option World
  | .tick ms => w.tick cfg ms
  | .arrive req => some (w.arrive req)
  | .purge i => w.purge cfg i
  | .reserve i => w.reserve cfg i
  | .enqueue i => w.enqueue cfg i
  | .other n deadlineMs => some (w.other n deadlineMs)
  | .start n k => w.start n k
  | .settle n k out => w.settle n k out
  | .fire n k => w.fire n k
  | .record i => w.record cfg i
  | .recordThrew i => w.recordThrew cfg i
  | .recordFailed i => w.recordFailed i

/-! ## The assumptions -/

/-- A running task has not outstayed `sendResidenceMs`. -/
def jobPunctual (cfg : FaucetConfig) (clockMs : ℚ) (j : Job (Option Nat) Settlement) : Bool :=
  match j.phase with
  | .running startedAt => decide (clockMs ≤ startedAt + cfg.ledger.sendResidenceMs)
  | _ => true

/-- The 55 seconds of a request: from reading `now` to enqueueing, plus
the finalise write. -/
def Request.punctual (clockMs : ℚ) (rq : Request) : Bool :=
  match rq.stage with
  | .reserved _ => decide (clockMs - rq.readAt ≤ 55000)
  | .waiting _ _ enqueuedAt => decide (enqueuedAt - rq.readAt ≤ 55000)
  | .answered _ enqueuedAt _ answeredAt =>
      decide ((enqueuedAt - rq.readAt) + (clockMs - answeredAt) ≤ 55000)
  | _ => true

def World.punctual (cfg : FaucetConfig) (w : World) : Bool :=
  (w.queues .taz).jobs.all (jobPunctual cfg w.clockMs) &&
    (w.queues .ctaz).jobs.all (jobPunctual cfg w.clockMs) &&
    w.requests.all (Request.punctual w.clockMs)

/-- Ledger writes succeed. -/
def WorldEvent.writes : WorldEvent → Bool
  | .recordFailed _ => false
  | _ => true

/-- Every finalise writes its row: none throws, and no write fails. -/
def WorldEvent.written : WorldEvent → Bool
  | .recordThrew _ => false
  | .recordFailed _ => false
  | _ => true

/-- One step of a run under the assumptions. -/
def World.punctualStep (cfg : FaucetConfig) : World → WorldEvent → Option World :=
  guarded (World.punctual cfg) fun w ev => if ev.writes then w.step cfg ev else none

/-! ## The condition -/

/-- A send of a claim that resolves while its caller waits carries a txid,
unless its network has none. -/
def World.carried (cfg : FaucetConfig) (w : World) : WorldEvent → Bool
  | .settle n k out =>
      match (w.queues n).jobs[k]? with
      | some j => j.task.isNone || j.answer.isSome || carriesTxid (cfg.senderName n) out
      | none => true
  | _ => true

def World.carriedStep (cfg : FaucetConfig) (w : World) (ev : WorldEvent) : Option World :=
  if w.carried cfg ev then w.punctualStep cfg ev else none

end ZcashFaucet.System
