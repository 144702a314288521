/-
ZcashFaucet.Zcash.ZalletSend — the shielded TAZ sender, from
`zcash/zalletsend.ts`.

A send is three phases of JSON-RPC calls: submit (`z_sendmany`), poll
until the operation is over (`z_getoperationstatus`), collect how it
ended (`z_getoperationresult`). Every call can fail in its own way, and
every error is given one of three classes on the way out: plain,
recipient refused, outcome unknown.

Any value the wallet answers with is JSON of any shape. Where the code
puts such a value into a text, the text may not exist, and then a
TypeError takes the place of the error that was being built.
-/
import ZcashFaucet.Api.FaucetRoute
import ZcashFaucet.Lib.Json
import ZcashFaucet.Zcash.Explorer

namespace ZcashFaucet.Zcash

open Lib Api

structure ZalletConfig where
  address : JsString
  passphrase : JsString
  opTimeoutMs : ℚ
  /-- FAUCET_EXPLORER_TX_URL, or the default. -/
  explorerTxUrl : JsString
  numText : ℚ → JsString
  /-- What the txid column gets from a value that is not a text, where the
  driver binds it. -/
  bindTxid : Json → Option ColumnText

/-- POLL_RETRIES. -/
def pollRetries : Nat := 3

/-! ## One call -/

/-- An error, with the code `causeCode` finds on it. -/
structure JsError where
  name : JsString
  message : JsString
  code : Option JsString

/-- An error of `fetch` or of reading the body. Its message is not one of
ours. -/
structure ForeignError extends JsError where
  foreign : (js "zallet RPC ").isPrefixOf message = false

/-- The three digits of an HTTP status. -/
structure HttpStatus where
  hundreds : Fin 10
  tens : Fin 10
  ones : Fin 10

def digitUnit (d : Fin 10) : UInt16 := (0x30 + d.val).toUInt16

def HttpStatus.text (s : HttpStatus) : JsString :=
  [digitUnit s.hundreds, digitUnit s.tens, digitUnit s.ones]

/-- How a call went: an error of the transport (which covers a timeout, a
reset and a body that is not JSON), a status other than 2xx, or a reply. -/
inductive RpcOutcome
  | foreign (e : ForeignError)
  | http (status : HttpStatus) (statusText : JsString)
  | reply (v : Json)

def ourError (message : JsString) : JsError := ⟨js "Error", message, none⟩

def typeError (message : JsString) : JsError := ⟨js "TypeError", message, none⟩

/-- The error thrown for a reply with a truthy `error`. -/
def rpcErrorOf (numText : ℚ → JsString) (method : JsString) (error : Json) : JsError :=
  match toText? numText (error.field (js "message")), toText? numText (error.field (js "code")) with
  | some message, some code =>
      ourError (js "zallet RPC " ++ method ++ js ": " ++ message ++ js " (code " ++ code ++ js ")")
  | _, _ => typeError (js "Cannot convert object to primitive value")

/-- `rpc`: one round-trip, and its result. -/
def rpc (numText : ℚ → JsString) (method : JsString) : RpcOutcome → Except JsError (Option Json)
  | .foreign e => .error e.toJsError
  | .http status statusText =>
      .error (ourError (js "zallet RPC " ++ method ++ js " HTTP " ++ status.text ++ js " " ++ statusText))
  | .reply v =>
      if v.isNull then .error (typeError (js "Cannot read properties of null (reading 'error')"))
      else
        match v.field (js "error") with
        | some error =>
            if error.truthy then .error (rpcErrorOf numText method error)
            else .ok (v.field (js "result"))
        | none => .ok (v.field (js "result"))

/-- `[x] = await rpc(…)`. -/
def rpcFirst (numText : ℚ → JsString) (method : JsString) (o : RpcOutcome) :
    Except JsError (Option Json) :=
  match rpc numText method o with
  | .error e => .error e
  | .ok v =>
      match firstOf v with
      | .ok x => .ok x
      | .error _ => .error (typeError (js "object is not iterable"))

/-! ## Telling a refusal from a lost reply -/

def isDigit (c : UInt16) : Bool := 0x30 ≤ c && c ≤ 0x39

/-- `\w`. -/
def isWordUnit (c : UInt16) : Bool :=
  isDigit c || (0x41 ≤ c && c ≤ 0x5A) || (0x61 ≤ c && c ≤ 0x7A) || c == 0x5F

/-- `/^zallet RPC z_sendmany: /`. -/
def isRpcRefusal (message : JsString) : Bool := (js "zallet RPC z_sendmany: ").isPrefixOf message

/-- `/^zallet RPC z_sendmany HTTP 4\d\d\b/`. -/
def isHttp4xx (message : JsString) : Bool :=
  let start := js "zallet RPC z_sendmany HTTP 4"
  start.isPrefixOf message &&
    match message.drop start.length with
    | a :: b :: rest => isDigit a && isDigit b && !rest.head?.any isWordUnit
    | _ => false

/-- The errors of a connection that was never made. -/
def notConnected : List JsString := [js "ECONNREFUSED", js "ENOTFOUND", js "EAI_AGAIN"]

def sendmanyFailureIsDefinite (e : JsError) : Bool :=
  isRpcRefusal e.message || isHttp4xx e.message || e.code.any notConnected.contains

def describe (e : JsError) : JsString :=
  e.name ++ (match e.code with
    | some (c :: cs) => js " " ++ (c :: cs)
    | _ => []) ++ js ": " ++ e.message

def recipientRefusals : List JsString :=
  ["Invalid parameter, unknown address format",
    "Invalid parameter, duplicated recipient address",
    "Cannot send memo to transparent recipient",
    "Cannot send zero-valued output to transparent recipient",
    "This transaction would have transparent recipients",
    "This transaction would send to a transparent receiver of a unified address",
    "Could not send to the ",
    "Could not send to a shielded receiver of a unified address",
    "Address is for ",
    "Invalid Sapling payment address",
    "Invalid Orchard receiver in Unified Address",
    "Invalid Sapling receiver in Unified Address"].map js

/-- The value of a run of digits. -/
def digitsValue (digits : JsString) : Nat := digits.foldl (fun n c => 10 * n + (c.toNat - 0x30)) 0

/-- `/^zallet RPC z_sendmany: ([\s\S]*) \(code (-?\d+)\)$/`: the message
and whether the code is negative, with its digits. Read from the end,
where the last group can begin in one place only. -/
def refusalParts (message : JsString) : Option (JsString × Bool × Nat) :=
  let start := js "zallet RPC z_sendmany: "
  if start.isPrefixOf message then
    match (message.drop start.length).reverse with
    | 0x29 :: rest =>
        let digits := rest.takeWhile isDigit
        let rest := rest.dropWhile isDigit
        let (negative, rest) := match rest with
          | 0x2D :: rest => (true, rest)
          | rest => (false, rest)
        let mark := (js " (code ").reverse
        if digits.isEmpty = false ∧ mark.isPrefixOf rest then
          some ((rest.drop mark.length).reverse, negative, digitsValue digits.reverse)
        else none
    | _ => none
  else none

/-- The recipient's fault, by the wallet's own code and openings. -/
def isRecipientRefusal (negative : Bool) (code : Nat) (message : JsString) : Bool :=
  negative && code == 8 && recipientRefusals.any fun p => p.isPrefixOf message

/-- What `send` throws when `z_sendmany` fails. -/
def sendmanyError (e : JsError) : SendError :=
  if sendmanyFailureIsDefinite e then
    match refusalParts e.message with
    | some (reason, negative, code) =>
        if isRecipientRefusal negative code reason then .recipientRefused reason else .plain e.message
    | none => .plain e.message
  else .outcomeUnknown (js "no-opid") (js "z_sendmany reply lost: " ++ describe e)

/-! ## One send -/

/-- What the wallet and the wire do during one send: the outcome of each
call, and what the clock reads after each poll. Time goes on, so there is
a poll after which the deadline has passed. -/
structure WalletRun (cfg : ZalletConfig) where
  unlock : RpcOutcome
  sendmany : RpcOutcome
  /-- The calls of `z_getoperationstatus`, in the order they are made. -/
  status : Nat → RpcOutcome
  result : RpcOutcome
  startedAt : ℚ
  clock : Nat → ℚ
  lastPoll : Nat
  passes : startedAt + cfg.opTimeoutMs < clock lastPoll

section

variable (cfg : ZalletConfig) (run : WalletRun cfg) (opid : Option Json)

/-- `new SendOutcomeUnknownError(opid, cause)`. -/
def unknownOutcome (cause : JsString) : SendError :=
  match toText? cfg.numText opid with
  | some text => .outcomeUnknown text cause
  | none => notPrimitive

/-- `pollStatus`, from the `k`th call on: the status, and the next call. -/
def pollStatus : Nat → Nat → Option JsError → Except SendError (Option Json) × Nat
  | 0, k, lastErr =>
      (.error (unknownOutcome cfg opid (js "status unreadable after " ++ js (toString pollRetries) ++
        js " tries: " ++ (lastErr.map JsError.message).getD (js "undefined"))), k)
  | left + 1, k, _ =>
      match rpcFirst cfg.numText (js "z_getoperationstatus") (run.status k) with
      | .ok status => (.ok status, k + 1)
      | .error e => pollStatus left (k + 1) (some e)

/-- The wallet says the operation is over. -/
def isOver (status : Option Json) : Bool :=
  truthy? status && !isStr? (js "queued") (field? (js "status") status) &&
    !isStr? (js "executing") (field? (js "status") status)

/-- How the poll loop ends. -/
inductive PollEnd
  | finished
  | gaveUp (e : SendError)

/-- The error of a deadline that passed. -/
def stillRunning (status : Option Json) : SendError :=
  match toText? cfg.numText (orElse (field? (js "status") status) (some (.str (js "pending")))) with
  | some text =>
      unknownOutcome cfg opid (js "still " ++ text ++ js " after " ++ cfg.numText cfg.opTimeoutMs ++ js "ms")
  | none => notPrimitive

/-- The poll loop of `awaitOperation`, from the `n`th poll and the `k`th
call on; `none` when the fuel runs out. -/
def pollLoop : Nat → Nat → Nat → Option PollEnd
  | 0, _, _ => none
  | fuel + 1, n, k =>
      match pollStatus cfg run opid pollRetries k none with
      | (.error e, _) => some (.gaveUp e)
      | (.ok status, k') =>
          if isOver status then some .finished
          else if run.startedAt + cfg.opTimeoutMs < run.clock n then
            some (.gaveUp (stillRunning cfg opid status))
          else pollLoop fuel (n + 1) k'

def polls : Option PollEnd := pollLoop cfg run opid (run.lastPoll + 1) 0 0

/-- What `awaitOperation` makes of the collected report. -/
def readReport (done : Option Json) : Except SendError Json :=
  let status := field? (js "status") done
  if isStr? (js "failed") status || isStr? (js "cancelled") status then
    match toText? cfg.numText (orElse (field? (js "message") (field? (js "error") done)) status) with
    | some text => .error (.plain (js "zallet send failed: " ++ text))
    | none => .error notPrimitive
  else if truthy? done && isStr? (js "success") status then
    match field? (js "txid") (field? (js "result") done) with
    | some txid =>
        if txid.truthy then .ok txid
        else .error (unknownOutcome cfg opid (js "succeeded but returned no txid"))
    | none => .error (unknownOutcome cfg opid (js "succeeded but returned no txid"))
  else
    match toText? cfg.numText (orElse status (some (.str (js "missing")))) with
    | some text => .error (unknownOutcome cfg opid (js "unexpected final status " ++ text))
    | none => .error notPrimitive

/-- `awaitOperation` after the poll loop. -/
def collect : Except SendError Json :=
  match rpcFirst cfg.numText (js "z_getoperationresult") run.result with
  | .error e => .error (unknownOutcome cfg opid (js "result unreadable: " ++ e.message))
  | .ok done => readReport cfg opid done

def awaitOperation : Option (Except SendError Json) :=
  (polls cfg run opid).map fun
    | .gaveUp e => .error e
    | .finished => collect cfg run opid

/-- `explorerTxUrl` of a value from the wallet, with `none` for what it
throws. -/
def zalletTxUrl (txid : Json) : Option JsString :=
  (txid.toText cfg.numText).bind (explorerTxUrl cfg.explorerTxUrl)

/-- What `send` returns for a txid. -/
def sendResult (txid : Json) : Except SendError (Json × JsString) :=
  match zalletTxUrl cfg txid with
  | some url => .ok (txid, url)
  | none => .error (.plain (js "URI malformed"))

def unlockIfNeeded : Except JsError Unit :=
  if cfg.passphrase.truthy then
    match rpc cfg.numText (js "walletpassphrase") run.unlock with
    | .ok _ => .ok ()
    | .error e => .error e
  else .ok ()

namespace ZalletSender

def name : String := "zallet"

/-- `ZalletSender.send`: the txid and the link, or what it throws. -/
def send : Option (Except SendError (Json × JsString)) :=
  if !cfg.address.truthy then
    some (.error (.plain
      (js "FAUCET_ZALLET_ADDRESS (faucet unified address) is required for zallet mode.")))
  else
    match unlockIfNeeded cfg run with
    | .error e => some (.error (.plain e.message))
    | .ok _ =>
        match rpc cfg.numText (js "z_sendmany") run.sendmany with
        | .error e => some (.error (sendmanyError e))
        | .ok opid =>
            (awaitOperation cfg run opid).map fun
              | .error e => .error e
              | .ok txid => sendResult cfg txid

/-- The txid of the result, which the wallet need not have put into a text. -/
def txid : Json → Txid
  | .str s => .text s
  | v => .value (cfg.bindTxid v)

/-- The settlement the route sees. -/
def settlement (out : Except SendError (Json × JsString)) : Settlement :=
  match out with
  | .ok (v, url) => .ok ⟨some (txid cfg v), some url, none⟩
  | .error e => .error e

end ZalletSender

end

end ZcashFaucet.Zcash
