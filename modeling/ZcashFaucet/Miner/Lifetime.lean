/-
ZcashFaucet.Miner.Lifetime — the miner's heartbeat file across restarts:
`resume`, `keep_unreadable`, `start` and the beat's `write_atomic`.

`Box` is what a restart finds and what it loses. The disk has three
names, the file, the copy set aside and the temporary file beside them.
The process has the state of the mining loop and one beat thread, which
renders a snapshot and then writes it without the lock, so what is
recorded in between is not in that file. A crash takes the process at any
point of a write and leaves the disk as it is. While no process runs,
anything at all may be put in the file's place.
-/
import ZcashFaucet.Miner.Heartbeat

namespace ZcashFaucet.Miner

open Lib

/-! ## What is read back -/

/-- `serde_json::Number`. -/
inductive Number
  | posInt (n : UInt64)
  | negInt (n : Int)
  | float (f : JsNumber)

/-- `serde_json::Value`. -/
inductive Value
  | null
  | bool (b : Bool)
  | number (n : Number)
  | string (s : JsString)
  | array (items : List Value)
  | object (fields : List (JsString × Value))

/-- A number the way the miner prints it, a whole one in digits alone: a
natural number that fits in 64 bits, a negative one that does, or a float. -/
def Number.ofJson : JsNumber → Number
  | .finite q =>
      if q.den = 1 ∧ 0 ≤ q.num ∧ q.num < 2 ^ 64 then .posInt (UInt64.ofNat q.num.toNat)
      else if q.den = 1 ∧ q.num < 0 ∧ -2 ^ 63 ≤ q.num then .negInt q.num
      else .float (.finite q)
  | f => .float f

mutual

/-- `serde_json::from_str` of the text that the miner prints of a value. -/
def Value.ofJson : Json → Value
  | .null => .null
  | .bool b => .bool b
  | .num n => .number (.ofJson n)
  | .str s => .string s
  | .arr items => .array (ofItems items)
  | .obj fields => .object (ofFields fields)

def ofItems : List Json → List Value
  | [] => []
  | v :: items => .ofJson v :: ofItems items

def ofFields : List (JsString × Json) → List (JsString × Value)
  | [] => []
  | (key, v) :: fields => (key, .ofJson v) :: ofFields fields

end

namespace Value

def get (key : JsString) : Value → Option Value
  | .object fields => (fields.find? fun f => f.1 == key).map Prod.snd
  | _ => none

/-- `as_u64`. -/
def asU64 : Value → Option UInt64
  | .number (.posInt n) => some n
  | _ => none

end Value

/-- What stands under a name. -/
inductive Body
  | unreadable (bytes : List UInt8)
  | notJson (text : JsString)
  | json (v : Value)

inductive Resumed
  | noFile
  | unusable (why : String)
  | counts (c : Counts)
  deriving DecidableEq

def resume : Option Body → Resumed
  | none => .noFile
  | some (.unreadable _) => .unusable "could not be read"
  | some (.notJson _) => .unusable "is not JSON"
  | some (.json v) =>
      if (v.get (js "schema")).bind Value.asU64 ≠ some (UInt64.ofNat schema) then
        .unusable "has a schema this miner does not know"
      else
        let n (key : JsString) := (v.get key).bind Value.asU64
        .counts
          { solved := n (js "solvedCount")
            accepted := n (js "submittedAccepted")
            rejected := n (js "submittedRejected")
            abandoned := n (js "abandonedCount")
            discarded := n (js "discardedCount") }

/-- The counts `start` seeds its state with. -/
def Resumed.seed : Resumed → Counts
  | .counts c => c
  | _ => .unknown

def Resumed.isUnusable : Resumed → Bool
  | .unusable _ => true
  | _ => false

/-! ## The disk -/

/-- The temporary file: `File::create` empties it, and until it is synced
it holds any part of the body. -/
inductive Temp
  | absent
  | torn
  | whole (body : Json)

structure Disk where
  file : Option Body
  /-- `heartbeat.json.unreadable`. -/
  kept : Option Body
  tmp : Temp

namespace Disk

/-- `keep_unreadable`, whose rename may be refused. -/
def keepUnreadable (renames : Bool) (d : Disk) : Disk :=
  if d.kept.isSome || d.file.isNone then d
  else if renames then { d with file := none, kept := d.file }
  else d

/-- The last line of `write_atomic`. -/
def renameTmp (d : Disk) : Disk :=
  match d.tmp with
  | .whole body => { d with file := some (.json (.ofJson body)), tmp := .absent }
  | _ => d

end Disk

/-! ## The box -/

/-- Where the beat thread is. A write that fails is given up without a
word, and the thread sleeps. -/
inductive Beat
  | asleep
  | rendered (body : Json)
  | writing (body : Json)
  | synced (body : Json)

inductive Process
  | down
  | starting (resumed : Resumed) (state : State)
  | up (state : State) (beat : Beat)

structure Box where
  disk : Disk
  process : Process

inductive BoxEvent
  | replaced (file : Option Body)
  | start (mode : Mode) (now beatSecs templateSecs : UInt64)
  | spawn (renames : Bool)
  | record (now : UInt64) (r : Recorded)
  | snapshot (now : UInt64)
  | create
  | sync
  | rename
  | giveUp
  | crash

namespace Box

/-- The state of the process, if one runs. -/
def state (b : Box) : Option State :=
  match b.process with
  | .down => none
  | .starting _ s => some s
  | .up s _ => some s

def step (b : Box) : BoxEvent → Option Box
  | .replaced file =>
      match b.process with
      | .down => some { b with disk := { b.disk with file := file } }
      | _ => none
  | .start mode now beatSecs templateSecs =>
      match b.process with
      | .down =>
          let resumed := resume b.disk.file
          some { b with process := .starting resumed (.seeded mode now beatSecs templateSecs resumed.seed) }
      | _ => none
  | .spawn renames =>
      match b.process with
      | .starting resumed s =>
          some
            { disk := if resumed.isUnusable then b.disk.keepUnreadable renames else b.disk
              process := .up s .asleep }
      | _ => none
  | .record now r =>
      match b.process with
      | .up s beat => some { b with process := .up (s.record now r) beat }
      | _ => none
  | .snapshot now =>
      match b.process with
      | .up s .asleep => some { b with process := .up s (.rendered (render now s)) }
      | _ => none
  | .create =>
      match b.process with
      | .up s (.rendered body) => some { disk := { b.disk with tmp := .torn }, process := .up s (.writing body) }
      | _ => none
  | .sync =>
      match b.process with
      | .up s (.writing body) =>
          some { disk := { b.disk with tmp := .whole body }, process := .up s (.synced body) }
      | _ => none
  | .rename =>
      match b.process with
      | .up s (.synced _) => some { disk := b.disk.renameTmp, process := .up s .asleep }
      | _ => none
  | .giveUp =>
      match b.process with
      | .up s _ => some { b with process := .up s .asleep }
      | _ => none
  | .crash => some { b with process := .down }

end Box

end ZcashFaucet.Miner
