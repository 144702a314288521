/-
ZcashFaucet.Zcash.CrosslinkSend — the cTAZ sender and its transport, from
`crosslink/transport.ts` and `zcash/crosslinksend.ts`.

One call, `requestfaucetdonation`, which pays. It goes over a unix socket
(or over HTTP in development), and everything that can happen on the way
comes back as one value: a reply, or null with a reason. The sender turns
that value into a result or an error.

A `NodeRun` is what the node and the wire do during one send. Whether the
node executed the call is part of it; nothing here can see it.
-/
import ZcashFaucet.Api.FaucetRoute
import ZcashFaucet.Lib.Json

namespace ZcashFaucet.Zcash

open Lib Api

structure CrosslinkConfig where
  socketPath : String
  rpcUrl : String
  timeoutMs : ℚ
  expectedZat : Int
  /-- Decode the bytes and parse them; `none` when they are not JSON. -/
  parseJson : List UInt8 → Option Json
  numText : ℚ → JsString

/-! ## The transport -/

inductive Via
  | socket
  | http
  deriving DecidableEq, Repr

/-- `reply` is null when there is none, and when the other side wrote
`null`. -/
structure RpcResult where
  reply : Json
  via : Option Via
  failure : Option JsString

def RpcResult.failed (failure : JsString) : RpcResult := ⟨.null, none, some failure⟩

/-- What happens on the socket. The request is written on `connected`. -/
inductive SocketEvent
  | connected
  | data (bytes : List UInt8)
  | ended
  | timeout
  | error (message : JsString)

/-- `rpcOverSocket`: the first event that settles it decides; `none` when
no such event comes. -/
def rpcOverSocket (cfg : CrosslinkConfig) : List UInt8 → List SocketEvent → Option RpcResult
  | _, [] => none
  | chunks, .connected :: es => rpcOverSocket cfg chunks es
  | chunks, .data bytes :: es => rpcOverSocket cfg (chunks ++ bytes) es
  | chunks, .ended :: _ =>
      if chunks.isEmpty then some (.failed (js "the broker closed without answering"))
      else
        match cfg.parseJson chunks with
        | some reply => some ⟨reply, some .socket, none⟩
        | none => some (.failed (js "the broker's answer was not JSON"))
  | _, .timeout :: _ => some (.failed (js "no reply within " ++ cfg.numText cfg.timeoutMs ++ js "ms"))
  | _, .error message :: _ => some (.failed message)

/-- What `fetch` and `res.json()` do. The abort signal sees to it that
they settle. -/
inductive HttpOutcome
  | rejected (message : JsString)
  | response (status : Nat) (body : Except JsString Json)

def rpcOverHttp (cfg : CrosslinkConfig) : HttpOutcome → RpcResult
  | .rejected message => .failed message
  | .response status body =>
      if 200 ≤ status ∧ status ≤ 299 then
        match body with
        | .ok reply => ⟨reply, some .http, none⟩
        | .error message => .failed message
      else .failed (js "HTTP " ++ cfg.numText status)

/-- What the node and the wire do during one send, and when the queue's
deadline comes. -/
structure NodeRun where
  socket : List SocketEvent
  http : HttpOutcome
  executed : Bool
  deadlineFirst : Bool

/-- A configured socket that does not answer is the answer. -/
def ctazRpc (cfg : CrosslinkConfig) (run : NodeRun) : Option RpcResult :=
  if cfg.socketPath ≠ "" then rpcOverSocket cfg [] run.socket
  else if cfg.rpcUrl ≠ "" then some (rpcOverHttp cfg run.http)
  else some (.failed (js "no crosslink transport configured"))

/-! ## The sender -/

def asciiLower (c : UInt16) : UInt16 := if 0x41 ≤ c ∧ c ≤ 0x5A then c + 0x20 else c

/-- `/text/i.test(s)` for a lower-case text. -/
def containsIgnoreCase (text s : JsString) : Bool :=
  (s.map asciiLower).tails.any fun t => text.isPrefixOf t

/-- The error thrown for a reply with a truthy `error`. -/
def replyError (cfg : CrosslinkConfig) (error : Json) : SendError :=
  let msg := orElse (error.field (js "message")) (some (.str (js "unknown error")))
  match toText? cfg.numText msg with
  | none => notPrimitive
  | some text =>
      if containsIgnoreCase (js "too busy") text then .plain (js "crosslink faucet is busy: " ++ text)
      else .plain (js "crosslink rpc requestfaucetdonation: " ++ text)

def unusableAmount (cfg : CrosslinkConfig) (result : Option Json) : SendError :=
  .plain (js "crosslink replied without a usable amount: " ++ stringify? cfg.numText result ++
    js (". Their reply is the only evidence a donation happened, so an unreadable one is " ++
      "an unknown outcome rather than a success."))

/-- The RangeError of `BigInt(amount)`. -/
def notAnInteger (cfg : CrosslinkConfig) (q : ℚ) : SendError :=
  .plain (js "The number " ++ cfg.numText q ++
    js " cannot be converted to a BigInt because it is not an integer")

/-- CrosslinkAmountDrift. -/
def amountDrift (expected actual : Int) : SendError :=
  .plain (js ("crosslink paid " ++ toString actual ++ " zatoshi, we expected " ++ toString expected ++
    ". Their FAUCET_VALUE is a constant in their wallet code, so a change to it is theirs and not " ++
    "ours. The claim was PAID at the amount above."))

/-- What `send` makes of a reply. -/
def settleReply (cfg : CrosslinkConfig) (reply : Json) : Settlement :=
  match reply.field (js "error") with
  | some error =>
      if error.truthy then .error (replyError cfg error) else readAmount (reply.field (js "result"))
  | none => readAmount (reply.field (js "result"))
where
  readAmount (result : Option Json) : Settlement :=
    match field? (js "amount") result with
    | some (.num (.finite q)) =>
        if (⌊q⌋ : ℚ) ≠ q then .error (notAnInteger cfg q)
        else if ⌊q⌋ ≠ cfg.expectedZat then .error (amountDrift cfg.expectedZat ⌊q⌋)
        else .ok ⟨none, none, some ⌊q⌋⟩
    | _ => .error (unusableAmount cfg result)

namespace CrosslinkSender

def name : String := "crosslink"

/-- `CrosslinkSender.send`; `none` while it has not settled. -/
def send (cfg : CrosslinkConfig) (run : NodeRun) : Option Settlement :=
  (ctazRpc cfg run).map fun res =>
    if res.reply.truthy then settleReply cfg res.reply
    else
      .error (.plain (js "crosslink rpc requestfaucetdonation: " ++ res.failure.getD (js "no reply")))

/-- What the route hears from `queue.run` about this send. -/
def answer (cfg : CrosslinkConfig) (run : NodeRun) : Answer Settlement :=
  startedAnswer run.deadlineFirst (send cfg run)

end CrosslinkSender

/-! ## When a cTAZ claim is kept -/

/-- A reply that says what was expected: no error, and the amount. -/
def RepliesExpected (cfg : CrosslinkConfig) (reply : Json) : Prop :=
  truthy? (reply.field (js "error")) = false ∧
    ∃ q : ℚ, field? (js "amount") (reply.field (js "result")) = some (.num (.finite q)) ∧
      q = cfg.expectedZat

/-- Only an object has fields. -/
theorem truthy_of_field {key : JsString} {v w : Json} (h : v.field key = some w) : v.truthy = true := by
  cases v with
  | obj fields => rfl
  | _ => cases h

/-- A settlement of this sender: the expected amount, or a plain error. -/
theorem readAmount_plain {cfg : CrosslinkConfig} {result : Option Json} :
    plainFailure (settleReply.readAmount cfg result) = false ↔
      ∃ q : ℚ, field? (js "amount") result = some (.num (.finite q)) ∧ q = cfg.expectedZat := by
  unfold settleReply.readAmount
  split
  · rename_i q hq
    rw [hq]
    simp only [Option.some.injEq, Json.num.injEq, JsNumber.finite.injEq, exists_eq_left']
    by_cases hint : (⌊q⌋ : ℚ) ≠ q
    · rw [if_pos hint]
      refine iff_of_false (by simp [plainFailure, notAnInteger]) fun heq => hint ?_
      rw [heq, Int.floor_intCast]
    · rw [if_neg hint]
      rw [not_not] at hint
      by_cases hdrift : ⌊q⌋ ≠ cfg.expectedZat
      · rw [if_pos hdrift]
        refine iff_of_false (by simp [plainFailure, amountDrift]) fun heq => hdrift ?_
        rw [heq, Int.floor_intCast]
      · rw [if_neg hdrift]
        rw [not_not] at hdrift
        exact iff_of_true rfl (by rw [← hint, hdrift])
  · rename_i hno
    refine iff_of_false (by simp [plainFailure, unusableAmount]) ?_
    rintro ⟨q, hq, -⟩
    exact hno q hq

theorem replyError_plain (cfg : CrosslinkConfig) (error : Json) :
    plainFailure (.error (replyError cfg error)) = true := by
  simp only [replyError]
  split
  · rfl
  · split <;> rfl

theorem settleReply_plain {cfg : CrosslinkConfig} {reply : Json} :
    plainFailure (settleReply cfg reply) = false ↔ RepliesExpected cfg reply := by
  unfold settleReply RepliesExpected
  cases herr : reply.field (js "error") with
  | none => simp only [truthy?, Option.any_none, true_and, readAmount_plain]
  | some error =>
    cases htruthy : error.truthy with
    | true => simp [truthy?, htruthy, replyError_plain]
    | false =>
      simp only [truthy?, Option.any_some, htruthy, true_and, Bool.false_eq_true, if_false,
        readAmount_plain]

/-- What settles is recorded: this sender's rows are never left pending. -/
theorem leavesRow_crosslink {a : Answer Settlement} :
    LeavesRow CrosslinkSender.name a .sent ↔ (finalizeArgs CrosslinkSender.name a).status = .sent := by
  rw [leavesRow_iff, rowStatus_sent]
  exact and_iff_left fun _ _ => Or.inl rfl

/-- **A cTAZ claim that may have been paid is kept** exactly if the node
did not pay after all, the queue's deadline came first, or every reply
that arrived is the expected one. -/
theorem crosslink_keeps_claim_iff (cfg : CrosslinkConfig) (run : NodeRun) :
    (run.executed = true → LeavesRow CrosslinkSender.name (CrosslinkSender.answer cfg run) .sent) ↔
      run.executed = false ∨ run.deadlineFirst = true ∨
        ∀ res, ctazRpc cfg run = some res → RepliesExpected cfg res.reply := by
  rw [leavesRow_crosslink, ← Bool.not_eq_true, ← imp_iff_not_or]
  refine imp_congr_right fun _ => ?_
  unfold CrosslinkSender.answer CrosslinkSender.send
  cases run.deadlineFirst with
  | true => simp [startedAnswer, finalizeArgs]
  | false =>
    cases ctazRpc cfg run with
    | none => simp [startedAnswer, finalizeArgs]
    | some res =>
      have hkept : ∀ out : Settlement, (finalizeArgs CrosslinkSender.name (.own out)).status = .sent ↔
          plainFailure out = false := by
        rintro ((⟨opid, cause⟩ | ⟨reason⟩ | ⟨message⟩) | result) <;> simp [finalizeArgs, plainFailure]
      simp only [startedAnswer, Option.map_some, hkept, Bool.false_eq_true, false_or,
        Option.some.injEq, forall_eq']
      by_cases htruthy : res.reply.truthy = true
      · rw [if_pos htruthy, settleReply_plain]
      · rw [if_neg htruthy]
        refine iff_of_false (by simp [plainFailure]) ?_
        rintro ⟨-, q, hq, -⟩
        cases hresult : res.reply.field (js "result") with
        | none => rw [hresult] at hq; cases hq
        | some result => exact htruthy (truthy_of_field hresult)

/-! ## A paid claim given up -/

def stockCrosslink : CrosslinkConfig where
  socketPath := "/app/data/ctaz-rpc.sock"
  rpcUrl := ""
  timeoutMs := 15000
  expectedZat := 50000000
  parseJson := fun _ => none
  numText := fun q => js (toString q)

/-- The request is written, the node pays, and the reply does not come in
time. -/
def lostReply : NodeRun := ⟨[.connected, .timeout], .rejected [], true, false⟩

theorem crosslink_releases_lostReply :
    lostReply.executed = true ∧
      LeavesRow CrosslinkSender.name (CrosslinkSender.answer stockCrosslink lostReply) .failed ∧
      ¬ LeavesRow CrosslinkSender.name (CrosslinkSender.answer stockCrosslink lostReply) .sent := by
  rw [leavesRow_iff, leavesRow_iff]
  decide +kernel

end ZcashFaucet.Zcash
