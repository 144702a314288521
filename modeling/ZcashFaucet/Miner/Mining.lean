/-
ZcashFaucet.Miner.Mining — one turn of the mining loop: `sync_guard`,
`mine_once` and the arm of the main loop its outcome takes.

`Answers` is all a turn is told: what each call to the node returned,
what the solver found, whether the watcher set `abandon`. A turn yields
what it recorded in the heartbeat, in order, and how it ended. The end is
no record of what was recorded before it: a turn that ends in an error
may have solved a block.

`seekBlock` is `mine_once` up to a solved block, `settleBlock` the rest.
-/
import ZcashFaucet.Miner.Target
import ZcashFaucet.Miner.Block
import ZcashFaucet.Miner.Lifetime

namespace ZcashFaucet.Miner

open Lib

/-! ## The sync guard -/

/-- `sync::Verdict`. -/
inductive SyncVerdict
  | mine (lag : UInt64)
  | wait (lag blocks estimated : UInt64)
  deriving DecidableEq, Repr

/-- `as_array` and `is_empty`. -/
def isolated : Value → Except String Bool
  | .array peers => .ok peers.isEmpty
  | _ => .error "getpeerinfo did not return a list: the node's peer count is unknown, so this miner will not mine on it"

def field (info : Value) (key : String) : Except String UInt64 :=
  match (info.get (js key)).bind Value.asU64 with
  | some n => .ok n
  | none => .error s!"getblockchaininfo has no integer '{key}': the node's sync state is unknown, so this miner will not mine on it"

def verdict (info : Value) (maxLag : UInt64) : Except String SyncVerdict := do
  let blocks ← field info "blocks"
  let estimated ← field info "estimatedheight"
  let lag := if blocks ≤ estimated then estimated - blocks else 0
  return if lag > maxLag then .wait lag blocks estimated else .mine lag

/-- What the node says to the two calls of the guard. -/
structure GuardReplies where
  info : Except String Value
  peers : Except String Value

/-- `sync_guard`: a reason not to mine, or none. -/
def syncGuard (maxLag : UInt64) (g : GuardReplies) : List Recorded × Except String (Option String) :=
  match g.info with
  | .error e => ([.error .getblockchaininfo], .error e)
  | .ok info =>
    match verdict info maxLag with
    | .error e => ([.error .syncstate], .error e)
    | .ok judged =>
      match g.peers with
      | .error e => ([.error .getpeerinfo], .error e)
      | .ok peers =>
        match isolated peers with
        | .error e => ([.error .syncstate], .error e)
        | .ok alone =>
          match judged with
          | .wait lag blocks estimated =>
              ([.nodeLag lag (some .behind)], .ok (some s!"node is {lag} blocks behind its own estimate (verified {blocks}, estimated {estimated}); mining resumes within {maxLag} (MINER_MAX_LAG)"))
          | .mine lag =>
              if alone then
                ([.nodeLag lag (some .noPeers)], .ok (some "node has NO PEERS; a node with no peers believes it is at the tip and mines a fork of it"))
              else ([.nodeLag lag none], .ok none)

/-! ## A turn -/

/-- Code the miner calls: the `hex` crate, the derived reader of a
template and the printer of JSON. -/
structure Crates where
  hex : HexDecoder
  fromValue : Value → Except String Template
  display : Value → JsString

structure Config where
  mode : Mode
  maxLag : UInt64

/-- What a turn is told. The solver finds a nonce and a solution, or its
window ends. -/
structure Answers where
  guard : GuardReplies
  template : Except String Value
  abandon : Bool
  found : Option (Vector UInt8 32 × Vec UInt8)
  proposal : Except String Value
  recheck : GuardReplies
  submit : Except String Value

inductive Outcome
  | waiting (why : String)
  | accepted (height : UInt32)
  | proposalValid (height : UInt32)
  | rejected (height : UInt32) (reason : JsString)
  | noSolution (height : UInt32)

def Value.isNull : Value → Bool
  | .null => true
  | _ => false

/-- Where the search for a block ends. -/
inductive Sought
  | ended (result : Except String Outcome)
  | found (t : Template) (solved : Header)

/-- `mine_once` between the template's parse and `g.solved()`. -/
def seekWithin (crates : Crates) (t : Template) (a : Answers) : List Recorded × Sought :=
  match expandTarget crates.hex t.bits with
  | .error e => ([], .ended (.error e))
  | .ok _ =>
    match Header.fromTemplate crates.hex t with
    | .error e => ([], .ended (.error e))
    | .ok header =>
      if a.abandon then ([.abandoned], .ended (.ok (.noSolution t.height)))
      else
        match a.found with
        | none => ([], .ended (.ok (.noSolution t.height)))
        | some (nonce, solution) =>
            ([], .found t { header with nonce := nonce, solution := solution })

/-- `mine_once` up to a solved block. -/
def seekBlock (crates : Crates) (config : Config) (a : Answers) : List Recorded × Sought :=
  match syncGuard config.maxLag a.guard with
  | (rs, .error e) => (rs, .ended (.error e))
  | (rs, .ok (some why)) => (rs, .ended (.ok (.waiting why)))
  | (rs, .ok none) =>
    match a.template with
    | .error e => (rs ++ [.error .getblocktemplate], .ended (.error e))
    | .ok raw =>
      match crates.fromValue raw with
      | .error e => (rs, .ended (.error s!"could not parse the template: {e}"))
      | .ok t =>
        match seekWithin crates t a with
        | (rs', sought) => (rs ++ .templateOk t.height.toUInt64 :: rs', sought)

/-- `mine_once` after `g.solved()`. -/
def settleBlock (crates : Crates) (config : Config) (t : Template) (solved : Header)
    (a : Answers) : List Recorded × Except String Outcome :=
  match serializeBlock crates.hex solved t with
  | .error e => ([], .error e)
  | .ok _ =>
    match a.proposal with
    | .error e => ([.error .proposal], .error e)
    | .ok said =>
      if !said.isNull then
        ([], .ok (.rejected t.height (js "proposal check said " ++ crates.display said)))
      else if config.mode = .proposal then ([], .ok (.proposalValid t.height))
      else
        match syncGuard config.maxLag a.recheck with
        | (rs, .error e) => (rs ++ [.discarded], .error e)
        | (rs, .ok (some why)) => (rs ++ [.discarded], .ok (.waiting why))
        | (rs, .ok none) =>
          match a.submit with
          | .error e => (rs ++ [.error .submitblock], .error e)
          | .ok submitted =>
            if submitted.isNull then (rs, .ok (.accepted t.height))
            else (rs, .ok (.rejected t.height (crates.display submitted)))

/-- `mine_once`. -/
def mineOnce (crates : Crates) (config : Config) (a : Answers) :
    List Recorded × Except String Outcome :=
  match seekBlock crates config a with
  | (rs, .ended result) => (rs, result)
  | (rs, .found t solved) =>
    match settleBlock crates config t solved a with
    | (rs', result) => (rs ++ .solved :: rs', result)

/-- What the main loop records of an outcome. -/
def recordedOf : Except String Outcome → List Recorded
  | .ok (.accepted _) => [.submitted true]
  | .ok (.rejected _ reason) => [.rejected reason]
  | _ => []

/-- One turn of the main loop. -/
def turn (crates : Crates) (config : Config) (a : Answers) : List Recorded :=
  match mineOnce crates config a with
  | (rs, result) => rs ++ recordedOf result

end ZcashFaucet.Miner
