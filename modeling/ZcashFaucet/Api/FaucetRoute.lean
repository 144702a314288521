/-
ZcashFaucet.Api.FaucetRoute — what `POST /api/faucet` does once a send
has an answer.

The route awaits `queue.run` and then decides two things from the answer
alone: how the claim is finalised and what the visitor is told. The
finalise write is wrapped, so an error in it is logged and the row stays
as it was.
-/
import ZcashFaucet.Db.Ledger
import ZcashFaucet.Zcash.Queue
import ZcashFaucet.Zcash.Send

namespace ZcashFaucet.Api

open Lib Db Zcash

/-- The arguments of the route's `finalizeClaim`. -/
structure FinalizeArgs where
  status : FinalStatus
  txid : Option JsString
  noTxid : Bool
  deriving DecidableEq, Repr

/-- How the route finalises a claim. The marker of an unknown outcome
goes in the txid column; the no-txid exemption is read off the sender
that paid. A txid that the driver does not bind makes the write throw, as
the guard of `finalizeClaim` does for one that is missing. -/
def finalizeArgs (senderName : String) : Answer Settlement → FinalizeArgs
  | .own (.ok result) => ⟨.sent, result.column, senderName == "crosslink"⟩
  | .own (.error (.outcomeUnknown opid _)) => ⟨.sent, some (js "unknown:" ++ opid), false⟩
  | .deadline => ⟨.sent, some (js "unknown:deadline"), false⟩
  | .own (.error (.recipientRefused _)) => ⟨.failed, none, false⟩
  | .own (.error (.plain _)) => ⟨.failed, none, false⟩
  | .queueFull => ⟨.failed, none, false⟩

/-- The route's finalise: what it throws is caught and logged. -/
def finalizeFor (senderName : String) (claimId : Nat) (answer : Answer Settlement) (nowMs : ℚ)
    (network : FaucetNetwork) (l : Ledger) : Ledger :=
  let args := finalizeArgs senderName answer
  match finalizeClaim claimId args.status args.txid args.noTxid nowMs network l with
  | .ok l' => l'
  | .error _ => l

/-- A send that resolved carries a txid, unless its network has none. -/
def carriesTxid (senderName : String) : Settlement → Bool
  | .ok result => senderName == "crosslink" || (orNull result.column).isSome
  | .error _ => true

/-- What `queue.run` answers about a task that has started: how the task
settled, unless the deadline's timer fires first. The configured deadline
is never off (it is at least a second), so it answers for a task that
does not settle. -/
def startedAnswer (deadlineFirst : Bool) (out : Option Settlement) : Answer Settlement :=
  match deadlineFirst, out with
  | false, some o => .own o
  | _, _ => .deadline

/-- The status the route leaves a reserved row in. -/
def rowStatus (senderName : String) (answer : Answer Settlement) : ClaimStatus :=
  let args := finalizeArgs senderName answer
  if args.status = .sent ∧ orNull args.txid = none ∧ args.noTxid = false then .pending
  else args.status.toClaimStatus

/-- The route leaves the row of a reserved claim, in any ledger that has
it, in this status. -/
def LeavesRow (senderName : String) (answer : Answer Settlement) (status : ClaimStatus) : Prop :=
  ∀ (claimId : Nat) (nowMs : ℚ) (network : FaucetNetwork) (l : Ledger),
    (∀ r ∈ l.claims, r.id = claimId → r.status = .pending) →
      ∀ r ∈ (finalizeFor senderName claimId answer nowMs network l).claims, r.id = claimId →
        r.status = status

/-! ## What the visitor and the send log get -/

/-- What `recordSend` is told. -/
inductive SendRecord
  | ok
  | failed
  | refused
  | unknown (unanswered : Bool)
  deriving DecidableEq, Repr

def sendRecord : Answer Settlement → Option SendRecord
  | .own (.ok _) => some .ok
  | .own (.error (.outcomeUnknown opid _)) => some (.unknown (opid == js "no-opid"))
  | .deadline => some (.unknown false)
  | .own (.error (.recipientRefused _)) => some .refused
  | .own (.error (.plain _)) => some .failed
  -- a queue we filled is not a wallet that failed
  | .queueFull => none

structure ApiError where
  status : Nat
  message : String
  code : String
  kind : Option String
  deriving DecidableEq, Repr

/-- The reply of the route: the receipt's `txid` and link, or an error. -/
inductive Reply
  | paid (txid : Option Txid) (explorerUrl : Option JsString) (paidZat : Option Int)
  | error (e : ApiError)
  deriving DecidableEq, Repr

def reply : Answer Settlement → Reply
  | .own (.ok result) => .paid result.txid result.explorerUrl result.amountZat
  | .own (.error (.outcomeUnknown _ _)) | .deadline =>
      .error
        { status := 504
          message := "Your drip was submitted but we lost track of it before it confirmed. Do not " ++
            "retry yet: if it went through, the coins are on their way. Check the address in a " ++
            "few minutes."
          code := "sendUnknown"
          kind := none }
  | .queueFull =>
      .error
        { status := 503
          message := "Faucet is busy: too many sends queued. Try again in a moment."
          code := "busy"
          kind := some "busy" }
  | .own (.error (.recipientRefused _)) =>
      .error
        { status := 400
          message := "The wallet could not pay that address. Nothing left the wallet and your " ++
            "cooldown is untouched. Check the address, or use a different one."
          code := "recipient"
          kind := some "recipient" }
  | .own (.error (.plain _)) =>
      .error
        { status := 502
          message := "The send failed on our side. Nothing left the wallet. Try again in a moment."
          code := "sendFailed"
          kind := none }

/-! ## Lemmas -/

/-- The row is given up exactly on a refused call and a plain failure. -/
theorem finalizeArgs_status (senderName : String) (a : Answer Settlement) :
    (finalizeArgs senderName a).status = .failed ↔
      a = .queueFull ∨ ∃ out, a = .own out ∧ plainFailure out = true := by
  cases a with
  | own out =>
    rcases out with (⟨opid, cause⟩ | ⟨reason⟩ | ⟨message⟩) | result <;>
      simp [finalizeArgs, plainFailure]
  | deadline => simp [finalizeArgs]
  | queueFull => simp [finalizeArgs]

theorem finalizeSql_status {status : ClaimStatus} {txid : Option JsString} {id : Nat} {l : Ledger}
    {r : ClaimRow} (hr : r ∈ (finalizeSql status txid id l).claims) (hid : r.id = id) :
    r.status = status := by
  obtain ⟨r₀, -, rfl⟩ := List.mem_map.mp hr
  unfold ClaimRow.finalized at hid ⊢
  split_ifs at hid ⊢ with h
  · rfl
  · exact absurd hid h

/-- The route leaves a reserved row in the status `rowStatus` says. -/
theorem finalizeFor_status {senderName : String} {claimId : Nat} {a : Answer Settlement} {nowMs : ℚ}
    {network : FaucetNetwork} {l : Ledger} (hl : ∀ r ∈ l.claims, r.id = claimId → r.status = .pending)
    {r : ClaimRow} (hr : r ∈ (finalizeFor senderName claimId a nowMs network l).claims)
    (hid : r.id = claimId) : r.status = rowStatus senderName a := by
  simp only [finalizeFor, finalizeClaim] at hr
  simp only [rowStatus]
  by_cases hthrow : (finalizeArgs senderName a).status = .sent ∧
      orNull (finalizeArgs senderName a).txid = none ∧ (finalizeArgs senderName a).noTxid = false
  · rw [if_pos hthrow] at hr ⊢
    exact hl r hr hid
  · rw [if_neg hthrow] at hr ⊢
    by_cases hsent : (finalizeArgs senderName a).status = .sent
    · rw [if_pos hsent] at hr
      exact finalizeSql_status hr hid
    · rw [if_neg hsent] at hr
      exact finalizeSql_status hr hid

/-- A ledger that holds one reserved claim. -/
def oneClaim : Ledger :=
  { Ledger.empty with claims := [⟨1, "", "", 0, none, .pending, 0, none, .taz⟩] }

theorem leavesRow_iff {senderName : String} {a : Answer Settlement} {status : ClaimStatus} :
    LeavesRow senderName a status ↔ rowStatus senderName a = status := by
  constructor
  · intro h
    have hpending : ∀ r ∈ oneClaim.claims, r.id = 1 → r.status = .pending := by
      intro r hr _
      rw [List.mem_singleton.mp hr]
    have hrow : ∃ r ∈ (finalizeFor senderName 1 a 0 .taz oneClaim).claims, r.id = 1 := by
      simp only [finalizeFor, finalizeClaim]
      split_ifs <;> exact ⟨_, List.mem_singleton.mpr rfl, rfl⟩
    obtain ⟨r, hr, hid⟩ := hrow
    rw [← finalizeFor_status hpending hr hid]
    exact h 1 0 .taz oneClaim hpending r hr hid
  · rintro rfl claimId nowMs network l hl r hr hid
    exact finalizeFor_status hl hr hid

/-- The row is given up exactly when it is finalised 'failed'. -/
theorem rowStatus_failed {senderName : String} {a : Answer Settlement} :
    rowStatus senderName a = .failed ↔ (finalizeArgs senderName a).status = .failed := by
  simp only [rowStatus]
  split_ifs with h
  · simp [h.1]
  · cases (finalizeArgs senderName a).status <;> simp [FinalStatus.toClaimStatus]

/-- The visitor is told that nothing moved exactly when the row is given up. -/
theorem reply_of_failed (senderName : String) (a : Answer Settlement)
    (h : (finalizeArgs senderName a).status = .failed) :
    ∃ e, reply a = .error e ∧ e.status ∈ [400, 502, 503] := by
  rcases (finalizeArgs_status senderName a).mp h with rfl | ⟨out, rfl, hout⟩
  · exact ⟨_, rfl, by decide⟩
  · rcases out with (⟨opid, cause⟩ | ⟨reason⟩ | ⟨message⟩) | result
    · simp [plainFailure] at hout
    · exact ⟨_, rfl, by decide⟩
    · exact ⟨_, rfl, by decide⟩
    · simp [plainFailure] at hout

/-- The finalise throws exactly on a send that resolved without a txid,
from a sender whose network has them. -/
theorem finalize_throws_iff {senderName : String} {a : Answer Settlement} :
    ((finalizeArgs senderName a).status = .sent ∧ orNull (finalizeArgs senderName a).txid = none ∧
        (finalizeArgs senderName a).noTxid = false) ↔
      ∃ result, a = .own (.ok result) ∧ orNull result.column = none ∧ senderName ≠ "crosslink" := by
  cases a with
  | own out =>
    rcases out with (⟨opid, cause⟩ | ⟨reason⟩ | ⟨message⟩) | result
    · simp [finalizeArgs, js, orNull, utf16Units]
    · simp [finalizeArgs]
    · simp [finalizeArgs]
    · simp [finalizeArgs]
  | deadline =>
    have : orNull (some (js "unknown:deadline")) ≠ none := by decide
    simp [finalizeArgs, this]
  | queueFull => simp [finalizeArgs]

/-- The finalise write goes through unless a sent claim has nothing for
the txid column. -/
theorem finalizeClaim_isOk {senderName : String} {a : Answer Settlement} (claimId : Nat) (nowMs : ℚ)
    (network : FaucetNetwork) (l : Ledger) (h : ∀ out, a = .own out → carriesTxid senderName out = true) :
    ∃ l', finalizeClaim claimId (finalizeArgs senderName a).status (finalizeArgs senderName a).txid
      (finalizeArgs senderName a).noTxid nowMs network l = .ok l' := by
  unfold finalizeClaim
  rw [if_neg]
  · exact ⟨_, rfl⟩
  · rw [finalize_throws_iff]
    rintro ⟨result, ha, htxid, hname⟩
    simpa [carriesTxid, htxid, hname] using h _ ha

theorem rowStatus_sent {senderName : String} {a : Answer Settlement} :
    rowStatus senderName a = .sent ↔ (finalizeArgs senderName a).status = .sent ∧
      ∀ result, a = .own (.ok result) → senderName = "crosslink" ∨ orNull result.column ≠ none := by
  simp only [rowStatus]
  split_ifs with h
  · obtain ⟨result, rfl, htxid, hname⟩ := finalize_throws_iff.mp h
    refine iff_of_false (by decide) fun ⟨_, hok⟩ => ?_
    exact (hok result rfl).elim hname fun hne => hne htxid
  · have hok : ∀ result, a = .own (.ok result) → senderName = "crosslink" ∨ orNull result.column ≠ none := by
      intro result ha
      by_contra hno
      exact h (finalize_throws_iff.mpr
        ⟨result, ha, not_not.mp (not_or.mp hno).2, (not_or.mp hno).1⟩)
    rw [and_iff_left hok]
    cases (finalizeArgs senderName a).status <;> simp [FinalStatus.toClaimStatus]

end ZcashFaucet.Api
