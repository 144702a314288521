/-
ZcashFaucet.Zcash.Grpc — calls to lightwalletd with failover, from
`zcash/failover.ts` and `zcash/grpc.ts`.

`callFirst` asks the configured endpoints in order and takes the first
answer. An endpoint that errors is passed over for the next, until the
list or the time budget is spent. For a read that is what one wants. For
SendTransaction it means that the same transaction is sent again after an
attempt whose reply did not come, and that the answer is then about the
second attempt.
-/
import ZcashFaucet.Zcash.Send
import Mathlib.Data.Rat.Floor

namespace ZcashFaucet.Zcash

open Lib

/-- FAILOVER_BUDGET_MULTIPLIER. -/
def failoverBudgetMultiplier : ℚ := 2

/-- `budget.next()`: the deadline of the next attempt, or 0. -/
def budgetNext (perAttemptMs endsAt now : ℚ) : ℚ := max 0 (min perAttemptMs (endsAt - now))

/-- What happens when an endpoint's turn comes: it cannot be called at all
(its URL does not parse), which is thrown past the loop, or it is called. -/
inductive EndpointCall (α : Type)
  | unusable (message : JsString)
  | answered (answer : Except JsString α)

/-- The loop of `callFirst`, over the endpoints that are left, each with
the clock when its turn comes. -/
def callFirst {α : Type} (method : String) (perAttemptMs endsAt : ℚ) :
    Option JsString → List (ℚ × EndpointCall α) → Except JsString α
  | lastErr, [] => .error (lastErr.getD (js "All lightwalletd endpoints failed."))
  | lastErr, (now, call) :: rest =>
      if budgetNext perAttemptMs endsAt now = 0 then
        .error (lastErr.getD (js ("lightwalletd " ++ method ++
          " ran out of time before every endpoint was tried.")))
      else
        match call with
        | .unusable message => .error message
        | .answered (.ok result) => .ok result
        | .answered (.error e) => callFirst method perAttemptMs endsAt (some e) rest

/-! ## SendTransaction -/

structure SendResponse where
  errorCode : Int
  errorMessage : JsString
  deriving DecidableEq

/-- A code that says no. -/
abbrev RefusalCode := {code : Int // code ≠ 0}

/-- What one attempt to broadcast does. -/
inductive Attempt
  | accepted (message : JsString)
  | acceptedReplyLost (error : JsString)
  | refused (code : RefusalCode) (message : JsString)
  | alreadyKnown (code : RefusalCode) (message : JsString)
  | undelivered (error : JsString)

namespace Attempt

/-- The endpoint took the transaction. -/
def accepts : Attempt → Bool
  | .accepted _ => true
  | .acceptedReplyLost _ => true
  | _ => false

/-- A reply arrived before the deadline. -/
def delivers : Attempt → Bool
  | .acceptedReplyLost _ => false
  | .undelivered _ => false
  | _ => true

def answer : Attempt → Except JsString SendResponse
  | .accepted message => .ok ⟨0, message⟩
  | .acceptedReplyLost e => .error e
  | .refused code message => .ok ⟨code, message⟩
  | .alreadyKnown code message => .ok ⟨code, message⟩
  | .undelivered e => .error e

end Attempt

/-- One broadcast: when it starts, and what each configured endpoint would
do when its turn comes. -/
structure Broadcast where
  startedAt : ℚ
  endpoints : List (ℚ × Except JsString Attempt)

/-- The timeout of an attempt. -/
def attemptTimeoutMs : ℚ := 6000

def Broadcast.endsAt (b : Broadcast) : ℚ := b.startedAt + attemptTimeoutMs * failoverBudgetMultiplier

def endpointCall : Except JsString Attempt → EndpointCall SendResponse
  | .error message => .unusable message
  | .ok a => .answered a.answer

/-- `sendRawTransaction`. -/
def sendRawTransaction (b : Broadcast) : Except JsString SendResponse :=
  callFirst "SendTransaction" attemptTimeoutMs b.endsAt none
    (b.endpoints.map fun e => (e.1, endpointCall e.2))

/-- The attempts that are made. -/
def attemptsMade (endsAt : ℚ) : List (ℚ × Except JsString Attempt) → List Attempt
  | [] => []
  | (now, e) :: rest =>
      if budgetNext attemptTimeoutMs endsAt now = 0 then []
      else
        match e with
        | .error _ => []
        | .ok a => a :: if a.delivers then [] else attemptsMade endsAt rest

/-- Some endpoint that was called took the transaction. -/
def Broadcast.accepted (b : Broadcast) : Bool :=
  (attemptsMade b.endsAt b.endpoints).any Attempt.accepts

/-- The first reply that arrives is an acceptance. -/
def Broadcast.acceptanceArrives (b : Broadcast) : Bool :=
  ((attemptsMade b.endsAt b.endpoints).find? Attempt.delivers).any Attempt.accepts

/-- The answer of the loop is the first reply that arrives. -/
theorem callFirst_ok_iff {endsAt : ℚ} {res : SendResponse} :
    ∀ {lastErr : Option JsString} {endpoints : List (ℚ × Except JsString Attempt)},
      callFirst "SendTransaction" attemptTimeoutMs endsAt lastErr
          (endpoints.map fun e => (e.1, endpointCall e.2)) = .ok res ↔
        ∃ a, (attemptsMade endsAt endpoints).find? Attempt.delivers = some a ∧ a.answer = .ok res
  | lastErr, [] => by simp [callFirst, attemptsMade]
  | lastErr, (now, e) :: rest => by
      have ih : ∀ lastErr, callFirst "SendTransaction" attemptTimeoutMs endsAt lastErr
          (rest.map fun e => (e.1, endpointCall e.2)) = .ok res ↔
            ∃ a, (attemptsMade endsAt rest).find? Attempt.delivers = some a ∧ a.answer = .ok res :=
        fun _ => callFirst_ok_iff
      simp only [List.map_cons, callFirst, attemptsMade]
      split_ifs with hbudget
      · simp
      · cases e with
        | error message => simp [endpointCall]
        | ok a =>
          cases a with
          | acceptedReplyLost e => simpa [endpointCall, Attempt.answer, Attempt.delivers] using ih (some e)
          | undelivered e => simpa [endpointCall, Attempt.answer, Attempt.delivers] using ih (some e)
          | _ => simp [endpointCall, Attempt.answer, Attempt.delivers]

/-- The answer is an acceptance exactly if that reply is. -/
theorem sendRawTransaction_accepts {b : Broadcast} :
    (∃ res, sendRawTransaction b = .ok res ∧ res.errorCode = 0) ↔ b.acceptanceArrives = true := by
  unfold sendRawTransaction Broadcast.acceptanceArrives
  rw [Option.any_eq_true]
  constructor
  · rintro ⟨res, hres, hcode⟩
    obtain ⟨a, hfind, hanswer⟩ := callFirst_ok_iff.mp hres
    refine ⟨a, hfind, ?_⟩
    cases a with
    | accepted message => rfl
    | acceptedReplyLost e => cases hanswer
    | refused code message =>
      obtain rfl := Except.ok.inj hanswer
      exact absurd hcode code.property
    | alreadyKnown code message =>
      obtain rfl := Except.ok.inj hanswer
      exact absurd hcode code.property
    | undelivered e => cases hanswer
  · rintro ⟨a, hfind, haccepts⟩
    cases a with
    | accepted message => exact ⟨⟨0, message⟩, callFirst_ok_iff.mpr ⟨_, hfind, rfl⟩, rfl⟩
    | acceptedReplyLost e => exact absurd (List.find?_some hfind) (by simp [Attempt.delivers])
    | refused code message => cases haccepts
    | alreadyKnown code message => cases haccepts
    | undelivered e => cases haccepts

end ZcashFaucet.Zcash
