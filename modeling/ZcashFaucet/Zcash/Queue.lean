/-
ZcashFaucet.Zcash.Queue — the serial send queue of `zcash/queue.ts`, as
the chain of promises it is.

`run` admits a task by chaining it onto `tail` and making the accounting
of that task the new tail. Nothing in the code keeps an order or a lock:
a task starts when the promise it was chained onto has settled, and that
is all. A `Job` therefore records what it was chained onto (`after`),
and the queue is the list of jobs in the order `run` admitted them.

What the event loop does to a queue is one of three operations. `start`
is the callback of `tail.then`: it arms the deadline and calls the task.
`settle` is the task's own promise settling, with the reactions that
follow it in the same drain of the microtask queue: the timer is cleared
and `pending` goes down. A task that throws synchronously is a `start`
with a `settle` at the same instant. `fire` is the deadline's timer. It
answers the caller and touches nothing else.
-/
import Mathlib.Data.Rat.Floor
import ZcashFaucet.Lib.Run

namespace ZcashFaucet.Zcash

open Lib

variable {τ α : Type}

/-! ## Timers -/

/-- The longest delay a timer takes, TIMEOUT_MAX. -/
def timeoutMax : ℚ := 2147483647

/-- The delay `setTimeout` really waits: one that is too long or below one
becomes a millisecond, a fraction is dropped. -/
def timeoutDelay (ms : ℚ) : ℚ :=
  if 1 ≤ ms ∧ ms ≤ timeoutMax then ⌊ms⌋ else 1

theorem timeoutDelay_pos (ms : ℚ) : 0 < timeoutDelay ms := by
  unfold timeoutDelay
  split
  · rename_i h
    have hfloor : (1 : ℤ) ≤ ⌊ms⌋ := Int.le_floor.mpr (by exact_mod_cast h.1)
    exact_mod_cast hfloor
  · norm_num

theorem timeoutDelay_le {ms : ℚ} (h : 1 ≤ ms) : timeoutDelay ms ≤ ms := by
  unfold timeoutDelay
  split
  · exact Int.floor_le ms
  · exact h

/-! ## Jobs -/

/-- How the promise that `run` returned settled. -/
inductive Answer (α : Type)
  /-- with the result or the error of the task itself -/
  | own (out : α)
  /-- TaskDeadlineError -/
  | deadline
  /-- QueueFullError -/
  | queueFull
  deriving DecidableEq, Repr

/-- Where a task is. `α` is what a task settles with, a result or an error. -/
inductive Phase (α : Type)
  | queued
  | running (startedAt : ℚ)
  | settled (startedAt : ℚ) (out : α)
  deriving DecidableEq, Repr

/-- An admitted call of `run`. -/
structure Job (τ α : Type) where
  task : τ
  deadlineMs : ℚ
  after : Option Nat
  phase : Phase α
  timer : Option ℚ
  answer : Option (Answer α)
  deriving DecidableEq, Repr

namespace Job

def isQueued (j : Job τ α) : Bool :=
  match j.phase with
  | .queued => true
  | _ => false

def isRunning (j : Job τ α) : Bool :=
  match j.phase with
  | .running _ => true
  | _ => false

def isSettled (j : Job τ α) : Bool :=
  match j.phase with
  | .settled _ _ => true
  | _ => false

/-- When the task was called, if it was. -/
def startedAt (j : Job τ α) : Option ℚ :=
  match j.phase with
  | .queued => none
  | .running s => some s
  | .settled s _ => some s

/-- `armDeadline(); return task();` -/
def start (now : ℚ) (j : Job τ α) : Job τ α :=
  { j with
    phase := .running now
    timer := if 0 < j.deadlineMs then some (now + timeoutDelay j.deadlineMs) else none }

/-- `settle`, and the caller's answer if the deadline has not given one. -/
def settle (out : α) (j : Job τ α) : Job τ α :=
  { j with
    phase := .settled (j.startedAt.getD 0) out
    timer := none
    answer := some (j.answer.getD (.own out)) }

/-- `reject(new TaskDeadlineError(deadlineMs))`. -/
def fire (j : Job τ α) : Job τ α :=
  { j with
    timer := none
    answer := some (j.answer.getD .deadline) }

end Job

/-! ## The queue -/

structure SerialQueue (τ α : Type) where
  maxPending : Nat
  pending : Int
  tail : Option Nat
  jobs : List (Job τ α)
  deriving DecidableEq, Repr

namespace SerialQueue

def new (maxPending : Nat) : SerialQueue τ α := ⟨maxPending, 0, none, []⟩

/-- Tasks currently waiting or running. -/
def depth (q : SerialQueue τ α) : Int := q.pending

/-- Enqueue a task; `none` is the QueueFullError. -/
def run (task : τ) (deadlineMs : ℚ) (q : SerialQueue τ α) : Option (SerialQueue τ α) :=
  if (q.maxPending : Int) ≤ q.pending then none
  else
    some
      { q with
        pending := q.pending + 1
        tail := some q.jobs.length
        jobs := q.jobs ++ [⟨task, deadlineMs, q.tail, .queued, none, none⟩] }

/-- The promise at the end of a job's chain has settled. -/
def resolved (q : SerialQueue τ α) : Option Nat → Bool
  | none => true
  | some i => q.jobs[i]?.any Job.isSettled

/-- The callback of `tail.then` may run. -/
def startable (q : SerialQueue τ α) (j : Job τ α) : Bool := j.isQueued && q.resolved j.after

/-- The callback of `tail.then`. -/
def start (i : Nat) (now : ℚ) (q : SerialQueue τ α) : Option (SerialQueue τ α) :=
  if q.jobs[i]?.any q.startable then some { q with jobs := q.jobs.modify i (Job.start now) } else none

/-- The task's promise settles. -/
def settle (i : Nat) (out : α) (q : SerialQueue τ α) : Option (SerialQueue τ α) :=
  if q.jobs[i]?.any Job.isRunning then
    some { q with pending := q.pending - 1, jobs := q.jobs.modify i (Job.settle out) }
  else none

/-- The deadline's timer fires. -/
def fire (i : Nat) (now : ℚ) (q : SerialQueue τ α) : Option (SerialQueue τ α) :=
  if q.jobs[i]?.any fun j => j.timer.any fun due => decide (due ≤ now) then
    some { q with jobs := q.jobs.modify i Job.fire }
  else none

/-- A task is waiting for nothing but the event loop. -/
def hasStartable (q : SerialQueue τ α) : Bool := q.jobs.any q.startable

end SerialQueue

/-! ## A queue and its callers -/

/-- A queue with what its callers see. A task is the number of the call
that brought it; the lists are in the order things happened. -/
structure QueueRun (α : Type) where
  queue : SerialQueue Nat α
  now : ℚ
  calls : Nat
  refused : List Nat
  started : List Nat
  answers : List (Nat × Answer α × ℚ)

def QueueRun.new (maxPending : Nat) (now : ℚ) : QueueRun α := ⟨.new maxPending, now, 0, [], [], []⟩

inductive QueueEvent (α : Type)
  | tick (ms : ℚ)
  | call (deadlineMs : ℚ)
  | start (i : Nat)
  | settle (i : Nat) (out : α)
  | fire (i : Nat)

/-- The answer a caller gets when its job goes from `j` to `j'`: nothing
once it has one. -/
def newAnswer (now : ℚ) (j j' : Job Nat α) : List (Nat × Answer α × ℚ) :=
  match j.answer, j'.answer with
  | none, some a => [(j.task, a, now)]
  | _, _ => []

def QueueRun.step (r : QueueRun α) : QueueEvent α → Option (QueueRun α)
  | .tick ms => if 0 ≤ ms then some { r with now := r.now + ms } else none
  | .call deadlineMs =>
      match r.queue.run r.calls deadlineMs with
      | some queue => some { r with queue := queue, calls := r.calls + 1 }
      | none =>
          some
            { r with
              calls := r.calls + 1
              refused := r.refused ++ [r.calls]
              answers := r.answers ++ [(r.calls, .queueFull, r.now)] }
  | .start i =>
      match r.queue.jobs[i]?, r.queue.start i r.now with
      | some j, some queue => some { r with queue := queue, started := r.started ++ [j.task] }
      | _, _ => none
  | .settle i out =>
      match r.queue.jobs[i]?, r.queue.settle i out with
      | some j, some queue =>
          some { r with queue := queue, answers := r.answers ++ newAnswer r.now j (j.settle out) }
      | _, _ => none
  | .fire i =>
      match r.queue.jobs[i]?, r.queue.fire i r.now with
      | some j, some queue =>
          some { r with queue := queue, answers := r.answers ++ newAnswer r.now j j.fire }
      | _, _ => none

/-- The calls `run` admitted, in order. -/
def QueueRun.admitted (r : QueueRun α) : List Nat := r.queue.jobs.map Job.task

end ZcashFaucet.Zcash
