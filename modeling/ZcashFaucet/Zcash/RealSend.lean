/-
ZcashFaucet.Zcash.RealSend — the senders of real mode, from
`zcash/realsend.ts` and `zcash/t2zsend.ts`.

Both pick transparent inputs, build a transaction, broadcast it and read
the reply. A transparent recipient is paid by `RealSender`, whose build
also gives the txid; a unified one by `T2zSender`, which computes the txid
after the broadcast and makes do without it.

Building a transaction is third-party code; a run says how it went.
-/
import ZcashFaucet.Api.FaucetRoute
import ZcashFaucet.Zcash.Explorer
import ZcashFaucet.Zcash.Grpc

namespace ZcashFaucet.Zcash

open Lib Api

structure RealConfig where
  /-- FAUCET_EXPLORER_TX_URL, or the default. -/
  explorerTxUrl : JsString
  amountZat : Int

/-- FEE_ZAT -/
def feeZat : Int := 10000

/-- FEE_CUSHION_ZAT -/
def feeCushionZat : Int := 20000

/-- A transaction id: 32 bytes, written in hexadecimal. -/
abbrev TxId := {bytes : List UInt8 // bytes.length = 32}

def TxId.text (id : TxId) : JsString := encodeHex id.val

/-! ## Picking inputs -/

/-- The loop of `selectInputs`: values of UTXOs are taken until they cover
what is needed. -/
def selectInputs (need : Int) : List Int → List Int → Int → List Int × Int
  | [], chosen, total => (chosen, total)
  | u :: utxos, chosen, total =>
      if need ≤ total + u then (chosen ++ [u], total + u)
      else selectInputs need utxos (chosen ++ [u]) (total + u)

/-- The inputs of a send, or what it throws. -/
def pickInputs (need : Int) (utxos : Except JsString (List Int)) : Except JsString (List Int × Int) :=
  match utxos with
  | .error e => .error e
  | .ok [] => .error (js "Faucet wallet has no confirmed funds. Top it up.")
  | .ok (u :: us) =>
      let picked := selectInputs need (u :: us) [] 0
      if picked.2 < need then .error (js "Faucet balance too low to cover this drip + fee.")
      else .ok picked

/-- The error of a code that is not 0. -/
def broadcastRejected (res : SendResponse) : SendError :=
  .plain (js ("Broadcast rejected (code " ++ toString res.errorCode ++ "): ") ++ res.errorMessage)

/-! ## The senders -/

/-- What happens during one `RealSender.send`. -/
structure RealRun where
  utxos : Except JsString (List Int)
  /-- `tipForExpiry` and `getLightdInfo` -/
  chain : Except JsString Unit
  /-- `buildTransparentTx`, with the id of what it built -/
  build : Except JsString TxId
  broadcast : Broadcast

/-- The steps before the broadcast. -/
def RealRun.prepare (cfg : RealConfig) (r : RealRun) : Except JsString TxId :=
  match pickInputs (cfg.amountZat + feeZat) r.utxos with
  | .error e => .error e
  | .ok _ =>
      match r.chain with
      | .error e => .error e
      | .ok _ => r.build

/-- `RealSender.send`, for a transparent recipient. -/
def RealSender.send (cfg : RealConfig) (r : RealRun) : Settlement :=
  match r.prepare cfg with
  | .error e => .error (.plain e)
  | .ok txid =>
      match sendRawTransaction r.broadcast with
      | .error e => .error (.plain e)
      | .ok res =>
          if res.errorCode ≠ 0 then .error (broadcastRejected res)
          else
            match explorerTxUrl cfg.explorerTxUrl txid.text with
            | some url => .ok ⟨some (.text txid.text), some url, none⟩
            | none => .error (.plain (js "URI malformed"))

/-- What happens during one `T2zSender.send`. The proving worker may never
answer. -/
structure T2zRun where
  utxos : Except JsString (List Int)
  /-- `tipForExpiry` -/
  tip : Except JsString Unit
  /-- `buildT2zTx` -/
  build : Option (Except JsString Unit)
  broadcast : Broadcast
  /-- the id, where the library can read the transaction back -/
  txid : Option TxId

def T2zRun.prepare (cfg : RealConfig) (r : T2zRun) : Option (Except JsString Unit) :=
  match pickInputs (cfg.amountZat + feeCushionZat) r.utxos with
  | .error e => some (.error e)
  | .ok _ =>
      match r.tip with
      | .error e => some (.error e)
      | .ok _ => r.build

/-- `txidFromHex`: best effort, with the empty text when it fails. -/
def T2zRun.txidFromHex (r : T2zRun) : JsString := (r.txid.map TxId.text).getD []

/-- The explorer link of a text that may be empty: none then. -/
def txidLink (cfg : RealConfig) (txid : JsString) : Except SendError (Option JsString) :=
  if !txid.truthy then .ok none
  else
    match explorerTxUrl cfg.explorerTxUrl txid with
    | some url => .ok (some url)
    | none => .error (.plain (js "URI malformed"))

/-- What `T2zSender.send` returns after the broadcast. -/
def T2zRun.finish (cfg : RealConfig) (r : T2zRun) : Settlement :=
  match sendRawTransaction r.broadcast with
  | .error e => .error (.plain e)
  | .ok res =>
      if res.errorCode ≠ 0 then .error (broadcastRejected res)
      else
        match txidLink cfg r.txidFromHex with
        | .ok url => .ok ⟨some (.text r.txidFromHex), url, none⟩
        | .error e => .error e

/-- `T2zSender.send`; `none` while it has not settled. -/
def T2zSender.send (cfg : RealConfig) (r : T2zRun) : Option Settlement :=
  (r.prepare cfg).map fun
    | .error e => .error (.plain e)
    | .ok _ => r.finish cfg

/-! ## Real mode -/

/-- What a send does depends on the kind of the recipient. -/
inductive RealModeRun
  | transparent (r : RealRun)
  | unified (r : T2zRun)
  | sapling

namespace CompositeRealSender

def name : String := "real"

def send (cfg : RealConfig) : RealModeRun → Option Settlement
  | .transparent r => some (RealSender.send cfg r)
  | .unified r => T2zSender.send cfg r
  | .sapling =>
      some (.error (.plain (js ("Sapling-only addresses (ztestsapling1…) aren't supported. " ++
        "Use a unified shielded address (utest1…) or a transparent one (tm…)."))))

end CompositeRealSender

namespace RealModeRun

/-- The broadcast of a send that got that far. -/
def broadcast? (cfg : RealConfig) : RealModeRun → Option Broadcast
  | .transparent r => (r.prepare cfg).toOption.map fun _ => r.broadcast
  | .unified r => (r.prepare cfg).bind fun p => p.toOption.map fun _ => r.broadcast
  | .sapling => none

/-- Some endpoint took the transaction. -/
def accepted (cfg : RealConfig) (run : RealModeRun) : Bool :=
  (run.broadcast? cfg).any Broadcast.accepted

/-- The first reply that arrives is an acceptance. -/
def acceptanceArrives (cfg : RealConfig) (run : RealModeRun) : Bool :=
  (run.broadcast? cfg).any Broadcast.acceptanceArrives

/-- The txid does not have to be read back, or can be. -/
def txidKnown : RealModeRun → Bool
  | .unified r => r.txid.isSome
  | _ => true

end RealModeRun

/-! ## When a TAZ claim of real mode is kept -/

theorem txid_truthy (id : TxId) : id.text.truthy = true := by
  have hne : id.text ≠ [] := by
    intro h
    have hlen := id.property
    rw [encodeHex_eq_nil.mp h] at hlen
    cases hlen
  simp [JsString.truthy, hne]

theorem orNull_txid (id : TxId) : orNull (some id.text) ≠ none := by
  have h := txid_truthy id
  cases htext : id.text with
  | nil => rw [htext] at h; cases h
  | cons c s => simp

theorem txid_link (cfg : RealConfig) (id : TxId) : ∃ url, explorerTxUrl cfg.explorerTxUrl id.text = some url := by
  rw [← Option.isSome_iff_exists, explorerTxUrl_isSome]
  exact isWellFormed_encodeHex _

/-- Real mode has no exemption: a result keeps the claim only with a txid. -/
theorem leavesRow_real {a : Answer Settlement} :
    LeavesRow CompositeRealSender.name a .sent ↔ (finalizeArgs CompositeRealSender.name a).status = .sent ∧
      ∀ result, a = .own (.ok result) → orNull result.column ≠ none := by
  rw [leavesRow_iff, rowStatus_sent]
  exact and_congr_right fun _ => forall_congr' fun _ => imp_congr_right fun _ =>
    or_iff_right (by decide)

/-- After the preparations, `RealSender` keeps the claim exactly if the
acceptance arrives. -/
theorem realSend_keeps_iff {cfg : RealConfig} {r : RealRun} {txid : TxId}
    (h : r.prepare cfg = .ok txid) :
    LeavesRow CompositeRealSender.name (.own (RealSender.send cfg r)) .sent ↔
      r.broadcast.acceptanceArrives = true := by
  rw [leavesRow_real, ← sendRawTransaction_accepts, RealSender.send, h]
  cases sendRawTransaction r.broadcast with
  | error e => simp [finalizeArgs]
  | ok res =>
    obtain ⟨url, hurl⟩ := txid_link cfg txid
    by_cases hcode : res.errorCode = 0
    · simp [hcode, hurl, finalizeArgs, orNull_txid]
    · simp [hcode, broadcastRejected, finalizeArgs]

/-- After the preparations, `T2zSender` keeps the claim exactly if the
acceptance arrives and the txid can be read back. -/
theorem t2zSend_keeps_iff {cfg : RealConfig} {r : T2zRun} :
    LeavesRow CompositeRealSender.name (.own (r.finish cfg)) .sent ↔
      r.broadcast.acceptanceArrives = true ∧ r.txid.isSome = true := by
  rw [leavesRow_real, ← sendRawTransaction_accepts, T2zRun.finish]
  cases sendRawTransaction r.broadcast with
  | error e => simp [finalizeArgs]
  | ok res =>
    by_cases hcode : res.errorCode = 0
    · cases htxid : r.txid with
      | none => simp [hcode, T2zRun.txidFromHex, htxid, txidLink, JsString.truthy, finalizeArgs, orNull]
      | some id =>
        obtain ⟨url, hurl⟩ := txid_link cfg id
        simp [hcode, T2zRun.txidFromHex, htxid, txidLink, txid_truthy, hurl, finalizeArgs, orNull_txid]
    · simp [hcode, broadcastRejected, finalizeArgs]

/-- **A TAZ claim of real mode that may have been paid is kept** exactly if
no endpoint took the transaction after all, the queue's deadline came
first, or the first reply to arrive is an acceptance and the txid is
known. -/
theorem real_mode_keeps_claim_iff (cfg : RealConfig) (run : RealModeRun) (deadlineFirst : Bool) :
    (run.accepted cfg = true →
        LeavesRow CompositeRealSender.name
          (startedAnswer deadlineFirst (CompositeRealSender.send cfg run)) .sent) ↔
      run.accepted cfg = false ∨ deadlineFirst = true ∨
        (run.acceptanceArrives cfg = true ∧ run.txidKnown = true) := by
  rw [← Bool.not_eq_true, ← imp_iff_not_or]
  refine imp_congr_right fun haccepted => ?_
  cases deadlineFirst with
  | true =>
    refine iff_of_true (leavesRow_real.mpr ?_) (Or.inl rfl)
    exact ⟨rfl, fun result h => by cases h⟩
  | false =>
    simp only [Bool.false_eq_true, false_or]
    cases run with
    | transparent r =>
      simp only [RealModeRun.accepted, RealModeRun.acceptanceArrives, RealModeRun.broadcast?,
        RealModeRun.txidKnown, CompositeRealSender.send, startedAnswer] at haccepted ⊢
      cases hprep : r.prepare cfg with
      | error e => simp [hprep, Except.toOption] at haccepted
      | ok txid => simp [realSend_keeps_iff hprep, Except.toOption]
    | unified r =>
      simp only [RealModeRun.accepted, RealModeRun.acceptanceArrives, RealModeRun.broadcast?,
        RealModeRun.txidKnown, CompositeRealSender.send, T2zSender.send] at haccepted ⊢
      cases hprep : r.prepare cfg with
      | none => simp [hprep] at haccepted
      | some p =>
        cases p with
        | error e => simp [hprep, Except.toOption] at haccepted
        | ok u => simp [startedAnswer, t2zSend_keeps_iff, Except.toOption]
    | sapling => simp [RealModeRun.accepted, RealModeRun.broadcast?] at haccepted

/-! ## Paid claims given up, and left open -/

def stockReal : RealConfig where
  explorerTxUrl := js "https://testnet.cipherscan.app/tx/\x7btxid\x7d"
  amountZat := 10000000

def someTxId : TxId := ⟨List.replicate 32 0xC5, rfl⟩

/-- The first endpoint takes the transaction and its reply is late; the
second knows it already. -/
def lateReply : Broadcast where
  startedAt := 0
  endpoints :=
    [(0, .ok (.acceptedReplyLost (js "4 DEADLINE_EXCEEDED"))),
      (6000, .ok (.alreadyKnown ⟨-27, by decide⟩ (js "transaction already in mempool")))]

def promptReply : Broadcast where
  startedAt := 0
  endpoints := [(0, .ok (.accepted []))]

def lateRealRun : RealModeRun :=
  .transparent ⟨.ok [20000000], .ok (), .ok someTxId, lateReply⟩

def unreadT2zRun : RealModeRun :=
  .unified ⟨.ok [20000000], .ok (), some (.ok ()), promptReply, none⟩

/-- Paid twice over: a claim that was paid is given up, and another is left
to lapse. -/
theorem real_mode_releases :
    lateRealRun.accepted stockReal = true ∧
      LeavesRow CompositeRealSender.name
        (startedAnswer false (CompositeRealSender.send stockReal lateRealRun)) .failed ∧
      unreadT2zRun.accepted stockReal = true ∧
      LeavesRow CompositeRealSender.name
        (startedAnswer false (CompositeRealSender.send stockReal unreadT2zRun)) .pending := by
  rw [leavesRow_iff, leavesRow_iff]
  decide +kernel

end ZcashFaucet.Zcash
