/-
ZcashFaucet.Miner.Solve — the search for a block: `solve`, `watch_tip` and
the scope of `mine_once` they run in.

A search is some solver threads, a watcher of the chain's tip and the main
thread, over the flags `found`, `abandon` and `stopped`. Each of them takes
its steps alone, in any order. A solver's load of a flag may return what the
flag was before (`Ordering::Relaxed`): a load that saw `true` saw a flag that
is set, and nothing more is known of one that saw `false`. What the main
thread reads it reads after a join, and so as it is.

The main thread joins the solvers in the order they were spawned and stops at
the first that has a header. The ones after it are not joined.

The solver of Equihash is a parameter. `tried`, `readings` and `late` belong
to the history: the nonces in the order they were begun, what the watcher
read, and how many nonces a thread began after the search was over.
-/
import ZcashFaucet.Lib.Run
import ZcashFaucet.Lib.Sha256
import ZcashFaucet.Miner.Settings

namespace ZcashFaucet.Miner

open Lib

/-! ## Nonces and hits -/

/-- `hash_le`, by `double_sha256`. -/
def Header.hashLe (h : Header) : Vector UInt8 32 :=
  ⟨(Sha256.sha256 (Sha256.sha256 h.serialize)).toArray, by simp [Sha256.length_sha256]⟩

/-- `nonce[0] = id`, `nonce[1..9]` the counter. -/
def nonceOf (id : Nat) (counter : UInt64) : Vector UInt8 32 :=
  copyInto ((Vector.replicate 32 0).setIfInBounds 0 id.toUInt8) 1 (leBytes 8 counter.toNat)

/-- The loop over the solutions of one nonce: the header it leaves, and
whether that is a hit. -/
def trySolutions (target : Vector UInt8 32) (header : Header) : List (Vec UInt8) → Header × Bool
  | [] => (header, false)
  | solution :: solutions =>
      let header := { header with solution := solution }
      if meetsTarget header.hashLe target then (header, true) else trySolutions target header solutions

/-- What a search is started with. -/
structure SearchConfig where
  /-- `solve_200_9`, of the header's prefix and one nonce. -/
  solve2009 : Vector UInt8 108 → Vector UInt8 32 → List (Vec UInt8)
  header : Header
  target : Vector UInt8 32
  /-- The template's `previousblockhash`. -/
  parent : JsString
  deadline : Nat
  threads : Nat
  /-- `load_config` refuses more. -/
  threads_le : threads ≤ maxThreads

/-! ## The parties -/

inductive SolverPhase
  /-- At the three conditions of the loop. -/
  | loadsFound
  | loadsAbandon
  | readsClock
  /-- In `solve_200_9`. -/
  | solves (nonce : Vector UInt8 32)
  | returned (result : Option Header)
  | panicked

structure Solver where
  phase : SolverPhase
  counter : UInt64
  header : Header

inductive WatcherPhase
  /-- At the two conditions of the loop. -/
  | loadsStop
  | loadsAbandon
  | reads
  | waits
  | returned
  deriving DecidableEq

inductive MainPhase
  /-- Joins solver `i`. -/
  | joins (i : Nat)
  /-- `solve` has returned. -/
  | stops (solved : Option Header)
  | joinsWatcher (solved : Option Header)
  | done (solved : Option Header)

structure Search where
  clock : Nat
  found : Bool
  abandon : Bool
  stopped : Bool
  solvers : Nat → Solver
  watcher : WatcherPhase
  main : MainPhase
  tried : List (Nat × Vector UInt8 32)
  readings : List (Option JsString)
  late : Nat → Nat
  /-- Reads of the tip that ended after `stop`. -/
  readsAfterStop : Nat

variable (cfg : SearchConfig)

def Search.start (startedAt : Nat) : Search where
  clock := startedAt
  found := false
  abandon := false
  stopped := false
  solvers := fun _ => ⟨.loadsFound, 0, cfg.header⟩
  watcher := .loadsStop
  main := .joins 0
  tried := []
  readings := []
  late := fun _ => 0
  readsAfterStop := 0

/-- There is a hit, or the parent is no longer the tip. -/
def Search.over (s : Search) : Bool := s.found || s.abandon

/-! ## Steps -/

/-- `current_tip`: the reply to `getbestblockhash`, where it is a text. -/
def currentTip : Except String Value → Option JsString
  | .ok (.string tip) => some tip
  | _ => none

inductive SearchEvent
  | tick (ms : Nat)
  | loadFound (id : Nat) (seen : Bool)
  | loadAbandon (id : Nat) (seen : Bool)
  | readClock (id : Nat)
  | solver (id : Nat)
  | panics (id : Nat)
  | join
  | stop
  | joinWatcher
  | watchStop
  | watchAbandon
  | watchRead (reply : Except String Value)
  | watchWake

def Search.withPhase (id : Nat) (phase : SolverPhase) (s : Search) : Search :=
  { s with solvers := Function.update s.solvers id { s.solvers id with phase := phase } }

/-- A nonce is begun. -/
def Search.begin (id : Nat) (s : Search) : Search :=
  let own := s.solvers id
  let nonce := nonceOf id own.counter
  { s with
    solvers := Function.update s.solvers id
      ⟨.solves nonce, own.counter + 1, { own.header with nonce := nonce }⟩
    tried := s.tried ++ [(id, nonce)]
    late := Function.update s.late id (s.late id + s.over.toNat) }

/-- `solve_200_9` returns, and its solutions are tried. -/
def Search.finish (id : Nat) (nonce : Vector UInt8 32) (s : Search) : Search :=
  let own := s.solvers id
  match trySolutions cfg.target own.header (cfg.solve2009 own.header.prefixBytes nonce) with
  | (header, true) =>
      { s with
        found := true
        solvers := Function.update s.solvers id ⟨.returned (some header), own.counter, header⟩ }
  | (header, false) => { s with solvers := Function.update s.solvers id ⟨.loadsFound, own.counter, header⟩ }

/-- `handles.into_iter().filter_map(|h| h.join().ok().flatten()).next()`,
at solver `i`. -/
def Search.join (i : Nat) (s : Search) : Option Search :=
  if i < cfg.threads then
    match (s.solvers i).phase with
    | .returned (some header) => some { s with main := .stops (some header) }
    | .returned none | .panicked => some { s with main := .joins (i + 1) }
    | _ => none
  else some { s with main := .stops none }

def Search.readTip (reply : Except String Value) (s : Search) : Search :=
  let s := { s with
    readings := s.readings ++ [currentTip reply]
    readsAfterStop := s.readsAfterStop + s.stopped.toNat }
  match currentTip reply with
  | some tip => if tip ≠ cfg.parent then { s with abandon := true, watcher := .returned } else { s with watcher := .waits }
  | none => { s with watcher := .waits }

def Search.step (s : Search) : SearchEvent → Option Search
  | .tick ms => some { s with clock := s.clock + ms }
  | .loadFound id seen =>
      match (s.solvers id).phase with
      | .loadsFound =>
          if id < cfg.threads ∧ (seen = true → s.found = true) then
            some (s.withPhase id (if seen then .returned none else .loadsAbandon))
          else none
      | _ => none
  | .loadAbandon id seen =>
      match (s.solvers id).phase with
      | .loadsAbandon =>
          if id < cfg.threads ∧ (seen = true → s.abandon = true) then
            some (s.withPhase id (if seen then .returned none else .readsClock))
          else none
      | _ => none
  | .readClock id =>
      match (s.solvers id).phase with
      | .readsClock =>
          if id < cfg.threads then
            some (if s.clock < cfg.deadline then s.begin id else s.withPhase id (.returned none))
          else none
      | _ => none
  | .solver id =>
      match (s.solvers id).phase with
      | .solves nonce => if id < cfg.threads then some (s.finish cfg id nonce) else none
      | _ => none
  | .panics id =>
      match (s.solvers id).phase with
      | .solves _ => if id < cfg.threads then some (s.withPhase id .panicked) else none
      | _ => none
  | .join =>
      match s.main with
      | .joins i => s.join cfg i
      | _ => none
  | .stop =>
      match s.main with
      | .stops solved => some { s with stopped := true, main := .joinsWatcher solved }
      | _ => none
  | .joinWatcher =>
      match s.main with
      | .joinsWatcher solved => if s.watcher = .returned then some { s with main := .done solved } else none
      | _ => none
  | .watchStop =>
      if s.watcher = .loadsStop then
        some { s with watcher := if s.stopped then .returned else .loadsAbandon }
      else none
  | .watchAbandon =>
      if s.watcher = .loadsAbandon then
        some { s with watcher := if s.abandon then .returned else .reads }
      else none
  | .watchRead reply => if s.watcher = .reads then some (s.readTip cfg reply) else none
  | .watchWake =>
      if s.watcher = .waits then some { s with watcher := if s.stopped then .returned else .loadsStop } else none

/-- Every load saw its flag as it was. -/
def Search.fresh (s : Search) : SearchEvent → Bool
  | .loadFound _ seen => seen == s.found
  | .loadAbandon _ seen => seen == s.abandon
  | _ => true

def Search.stepFresh (s : Search) (e : SearchEvent) : Option Search := if s.fresh e then s.step cfg e else none

/-! ## In the turn -/

/-- The search of a template: what `mine_once` starts, with the clock in
milliseconds. -/
def searchOf (hex : HexDecoder) (solve2009 : Vector UInt8 108 → Vector UInt8 32 → List (Vec UInt8))
    (settings : Settings) (startedAt : Nat) (t : Template) : Except String SearchConfig :=
  match expandTarget hex t.bits with
  | .error e => .error e
  | .ok target =>
    match Header.fromTemplate hex t with
    | .error e => .error e
    | .ok header =>
        .ok ⟨solve2009, header, target, js t.previousBlockHash, startedAt + settings.templateSecs.toNat * 1000,
          settings.threads, settings.threads.2.2⟩

/-- What a search that is done tells the turn. -/
def Search.tells (s : Search) (solved : Option Header) (a : Answers) : Answers :=
  { a with abandon := s.abandon, found := solved.map fun h => (h.nonce, h.solution) }

end ZcashFaucet.Miner
