/-
ZcashFaucet.Crosslink.Node — may we hand out cTAZ: the read of the
Crosslink node in `crosslink/read.ts` and the serving decision of
`crosslink/recency.ts`.

The node is asked twice, for its view of finality and then for where it is
on the chain. Only when neither answer is readable is the box's file read,
and what came off the file serves nobody. `servable_iff` says what the
decision comes to in terms of the two replies.

A reply is what was parsed off the wire, `null` where there was none. A
read can throw: the text of an error message may be an object that cannot
be turned into one.
-/
import ZcashFaucet.Evidence.CtazRecency
import ZcashFaucet.Api.PreReservation

namespace ZcashFaucet.Crosslink

open Lib Evidence

/-! ## The serving decision -/

inductive NodeSource
  | file
  | rpc
  | none
  deriving DecidableEq, Repr

structure CtazNodeState where
  reading : CtazReading
  syncPercent : Option ℚ
  blocks : Option ℚ
  tip : Option ℚ
  source : NodeSource
  deriving DecidableEq

/-- MAX_SYNC_LAG_BLOCKS. -/
def maxSyncLagBlocks : ℚ := 2

def canServeCtaz (state : CtazState) (blocks tip : Option ℚ) (source : NodeSource) : Bool :=
  if source ≠ .rpc then false
  else if state ≠ .ready then false
  else
    match blocks, tip with
    | some blocks, some tip => decide (tip - blocks ≤ maxSyncLagBlocks)
    | _, _ => false

/-- What the claim and the page ask of a state. -/
def CtazNodeState.servable (node : CtazNodeState) : Bool :=
  canServeCtaz node.reading.state (node.blocks.or node.reading.height) node.tip node.source

/-! ## The two calls -/

/-- TFL off is an answer of its own. -/
def notActivated : CtazReading := { unverifiable with state := .notActivated }

/-- `readCtazRecency`, on the reply and the clock at the reply; `none` is
the TypeError of a message that has no text. -/
def readCtazRecency (numText : ℚ → JsString) (reply : Json) (atReply : ℚ) : Option CtazReading :=
  if !reply.truthy then some (readingFor none atReply)
  else
    let error := reply.field (js "error")
    if truthy? error then
      (toText? numText (orElse (field? (js "message") error) (some (.str [])))).map fun message =>
        if containsFolded (js "not activated") message then notActivated else readingFor none atReply
    else some (readingFor (reply.field (js "result")) atReply)

structure CtazInfo where
  blocks : Option ℚ
  tip : Option ℚ

/-- `readCtazInfo`. The tip is never taken from the node's own height. -/
def readCtazInfo (reply : Json) : CtazInfo :=
  if !reply.truthy || truthy? (reply.field (js "error")) then ⟨none, none⟩
  else
    let r := reply.field (js "result")
    ⟨finiteNumber (field? (js "blocks") r),
      (finiteNumber (field? (js "estimatedheight") r)).or (finiteNumber (field? (js "headers") r))⟩

/-- The share of the chain it has, to a tenth of a percent. -/
def syncPercentOf (info : CtazInfo) : Option ℚ :=
  match info.blocks, info.tip with
  | some blocks, some tip =>
      if tip > 0 then some (min 100 (((⌊blocks / tip * 1000 + 1 / 2⌋ : ℤ) : ℚ) / 10)) else none
  | _, _ => none

/-! ## The read -/

/-- Nothing known of the node. -/
def unknownNode (source : NodeSource) : CtazNodeState := ⟨unverifiable, none, none, none, source⟩

/-- `readCtazNodeState` after both calls. `file` is what the box's file
parses to, if there is one. -/
def nodeStateOf (nowMs : ℚ) (reading : CtazReading) (info : CtazInfo) (file : Option Json) : CtazNodeState :=
  if reading.state ≠ .cannotVerify ∨ info.blocks.isSome then
    ⟨reading, syncPercentOf info, info.blocks, info.tip, .rpc⟩
  else
    let f := readCtazStatusFile file
    if f.writtenAt.isSome then
      if statusIsStale f nowMs then unknownNode .file
      else if !f.readable then unknownNode .file
      else ⟨readingFor f.recency nowMs, f.syncPercent, f.blocks, f.tip, .file⟩
    else unknownNode .none

/-- What the node and the box said during one read. -/
structure NodeAnswers where
  recency : Json
  /-- When the answer to the first call came. -/
  answeredAt : ℚ
  info : Json
  file : Option Json

/-- `readCtazNodeState`. -/
def readCtazNodeState (numText : ℚ → JsString) (enabled : Bool) (nowMs : ℚ) (a : NodeAnswers) :
    Option CtazNodeState :=
  if !enabled then some (unknownNode .none)
  else (readCtazRecency numText a.recency a.answeredAt).map fun reading =>
    nodeStateOf nowMs reading (readCtazInfo a.info) a.file

/-! ## What serving means -/

/-- The reply is no error and reports a node at `height` that follows the
finality layer, as of the clock `answeredAt`. -/
def SaysCurrent (recency : Json) (answeredAt height : ℚ) : Prop :=
  recency.truthy = true ∧ truthy? (recency.field (js "error")) = false ∧
    ∃ nowUtc round locked,
      finiteNumber (field? (js "now_utc") (recency.field (js "result"))) = some nowUtc ∧
      finiteNumber (field? (js "my_height") (recency.field (js "result"))) = some height ∧
      finiteNumber (field? (js "my_round") (recency.field (js "result"))) = some round ∧
      finiteNumber (field? (js "my_locked_round") (recency.field (js "result"))) = some locked ∧
      0 ≤ (⌊answeredAt / 1000⌋ : ℤ) - nowUtc ∧ (⌊answeredAt / 1000⌋ : ℤ) - nowUtc ≤ maxAgeSeconds ∧
      0 ≤ round - locked ∧ round - locked ≤ maxRoundLag ∧
      finalizersOf (field? (js "finalizer_statuses") (recency.field (js "result"))) ≠ some 0

/-- The other reply has a tip, and the node is at most two blocks short of
it. Where it has no height of its own, the first reply's counts. -/
def NearTip (info : Json) (height : ℚ) : Prop :=
  ∃ tip, (readCtazInfo info).tip = some tip ∧ tip - (readCtazInfo info).blocks.getD height ≤ maxSyncLagBlocks

theorem judge_ready_iff {height age roundLag : ℚ} {finalizers : Option Nat} :
    (judge height age roundLag finalizers).state = .ready ↔
      age ≤ maxAgeSeconds ∧ 0 ≤ roundLag ∧ roundLag ≤ maxRoundLag ∧ finalizers ≠ some 0 := by
  unfold judge
  split
  case isTrue hstale => simp [not_le.mpr hstale]
  case isFalse hfresh =>
    split
    case isTrue hneg => simp [not_le.mpr hneg]
    case isFalse hpos =>
      split
      case isTrue hlag => simp [not_le.mpr hlag]
      case isFalse hkeeps =>
        split
        case isTrue hnone => simp [hnone]
        case isFalse hsome => simp [not_lt.mp hfresh, not_lt.mp hpos, not_lt.mp hkeeps, hsome]

theorem judge_height {height age roundLag : ℚ} {finalizers : Option Nat} :
    (judge height age roundLag finalizers).height = some height := by
  unfold judge
  repeat' split
  all_goals rfl

/-- A reply is judged ready when it has its numbers and they are good. -/
theorem readingFor_ready_iff {raw : Option Json} {nowMs height : ℚ} :
    (readingFor raw nowMs).state = .ready ∧ (readingFor raw nowMs).height = some height ↔
      ∃ nowUtc round locked,
        finiteNumber (field? (js "now_utc") raw) = some nowUtc ∧
        finiteNumber (field? (js "my_height") raw) = some height ∧
        finiteNumber (field? (js "my_round") raw) = some round ∧
        finiteNumber (field? (js "my_locked_round") raw) = some locked ∧
        0 ≤ (⌊nowMs / 1000⌋ : ℤ) - nowUtc ∧ (⌊nowMs / 1000⌋ : ℤ) - nowUtc ≤ maxAgeSeconds ∧
        0 ≤ round - locked ∧ round - locked ≤ maxRoundLag ∧
        finalizersOf (field? (js "finalizer_statuses") raw) ≠ some 0 := by
  unfold readingFor
  split
  case h_1 nowUtc height' round locked hnow hheight hround hlocked =>
    rw [hnow, hheight, hround, hlocked]
    dsimp only
    split
    case isTrue hfuture =>
      constructor
      · rintro ⟨hstate, -⟩
        cases hstate
      · rintro ⟨nowUtc', -, -, hnow', -, -, -, hage, -⟩
        obtain rfl := Option.some.inj hnow'
        exact absurd hage (not_le.mpr hfuture)
    case isFalse hpast =>
      rw [judge_ready_iff, judge_height]
      constructor
      · rintro ⟨⟨hage, hpos, hlag, hfinal⟩, hh⟩
        exact ⟨nowUtc, round, locked, rfl, hh, rfl, rfl, not_lt.mp hpast, hage, hpos, hlag, hfinal⟩
      · rintro ⟨nowUtc', round', locked', hnow', hheight', hround', hlocked', -, hage, hpos, hlag, hfinal⟩
        obtain rfl := Option.some.inj hnow'
        obtain rfl := Option.some.inj hround'
        obtain rfl := Option.some.inj hlocked'
        exact ⟨⟨hage, hpos, hlag, hfinal⟩, hheight'⟩
  case h_2 hmissing =>
    constructor
    · rintro ⟨hstate, -⟩
      cases hstate
    · rintro ⟨nowUtc, round, locked, hnow, hheight, hround, hlocked, -⟩
      exact (hmissing _ _ _ _ hnow hheight hround hlocked).elim

/-- A ready reading has a height. -/
theorem height_of_ready {raw : Option Json} {nowMs : ℚ} (h : (readingFor raw nowMs).state = .ready) :
    ∃ height, (readingFor raw nowMs).height = some height := by
  unfold readingFor at h ⊢
  split at h
  case h_1 =>
    dsimp only at h ⊢
    split at h
    case isTrue => cases h
    case isFalse hpast =>
      rw [if_neg hpast, judge_height]
      exact ⟨_, rfl⟩
  case h_2 => cases h

/-- Only a reply that is no error can be ready. -/
theorem readCtazRecency_ready_iff {numText : ℚ → JsString} {reply : Json} {atReply height : ℚ}
    {reading : CtazReading} (hread : readCtazRecency numText reply atReply = some reading) :
    reading.state = .ready ∧ reading.height = some height ↔ SaysCurrent reply atReply height := by
  have hnull : ¬ ((readingFor none atReply).state = .ready) := by
    intro h
    cases h
  unfold readCtazRecency at hread
  dsimp only at hread
  unfold SaysCurrent
  split at hread
  case isTrue hfalsy =>
    obtain rfl := Option.some.inj hread
    have hreply : reply.truthy = false := by simpa using hfalsy
    simp [hnull, hreply]
  case isFalse htruthy =>
    split at hread
    case isTrue herror =>
      obtain ⟨message, -, rfl⟩ := Option.map_eq_some_iff.mp hread
      simp only [herror, Bool.true_eq_false, false_and, and_false, iff_false]
      split
      · rintro ⟨hstate, -⟩
        cases hstate
      · exact fun h => hnull h.1
    case isFalse hok =>
      obtain rfl := Option.some.inj hread
      have hreply : reply.truthy = true := by simpa using htruthy
      rw [readingFor_ready_iff]
      simp [hreply, hok]

theorem canServeCtaz_iff {state : CtazState} {blocks tip : Option ℚ} {source : NodeSource} :
    canServeCtaz state blocks tip source = true ↔
      source = .rpc ∧ state = .ready ∧ ∃ b t, blocks = some b ∧ tip = some t ∧ t - b ≤ maxSyncLagBlocks := by
  unfold canServeCtaz
  split
  case isTrue hsource => simp [hsource]
  case isFalse hsource =>
    split
    case isTrue hstate => simp [hstate]
    case isFalse hstate =>
      rw [not_not] at hsource hstate
      cases blocks <;> cases tip <;> simp [hsource, hstate]

theorem unknownNode_refuses (source : NodeSource) : (unknownNode source).servable = false := by
  cases source <;> rfl

/-- What came off the file, or from nowhere, is refused whatever it says. -/
theorem servable_source {node : CtazNodeState} (h : node.servable = true) : node.source = .rpc :=
  (canServeCtaz_iff.mp h).1

/-- What came over RPC is the two answers. -/
theorem nodeStateOf_rpc {nowMs : ℚ} {reading : CtazReading} {info : CtazInfo} {file : Option Json}
    (h : (nodeStateOf nowMs reading info file).source = .rpc) :
    nodeStateOf nowMs reading info file = ⟨reading, syncPercentOf info, info.blocks, info.tip, .rpc⟩ := by
  unfold nodeStateOf at h ⊢
  split
  case isTrue => rfl
  case isFalse hneither =>
    rw [if_neg hneither] at h
    dsimp only at h
    split at h
    · split at h
      · cases h
      · split at h <;> cases h
    · cases h

/-- A state of a node that is not ready serves nobody. -/
theorem nodeStateOf_ready {nowMs : ℚ} {reading : CtazReading} {info : CtazInfo} {file : Option Json}
    (h : (nodeStateOf nowMs reading info file).servable = true) : reading.state = .ready := by
  rw [nodeStateOf_rpc (servable_source h)] at h
  exact (canServeCtaz_iff.mp h).2.1

/-- After both calls: ready, and near the tip of the second. -/
theorem nodeStateOf_servable_iff {nowMs : ℚ} {reading : CtazReading} {info : CtazInfo} {file : Option Json}
    {height : ℚ} (hheight : reading.height = some height) :
    (nodeStateOf nowMs reading info file).servable = true ↔
      reading.state = .ready ∧ ∃ tip, info.tip = some tip ∧ tip - info.blocks.getD height ≤ maxSyncLagBlocks := by
  constructor
  · intro h
    have hready := nodeStateOf_ready h
    rw [nodeStateOf_rpc (servable_source h), CtazNodeState.servable, canServeCtaz_iff, hheight] at h
    obtain ⟨-, -, b, t, hb, ht, hlag⟩ := h
    refine ⟨hready, t, ht, ?_⟩
    rw [show info.blocks.getD height = b by cases hblocks : info.blocks <;> simp_all]
    exact hlag
  · rintro ⟨hready, tip, htip, hlag⟩
    have hanswered : reading.state ≠ .cannotVerify ∨ info.blocks.isSome = true := by
      rw [hready]
      exact .inl (by decide)
    rw [nodeStateOf, if_pos hanswered, CtazNodeState.servable, canServeCtaz_iff, hheight]
    refine ⟨rfl, hready, info.blocks.getD height, tip, ?_, htip, hlag⟩
    cases info.blocks <;> rfl

/-- A reply that is read as ready reports a height. -/
theorem readCtazRecency_height {numText : ℚ → JsString} {reply : Json} {atReply : ℚ} {reading : CtazReading}
    (hread : readCtazRecency numText reply atReply = some reading) (hready : reading.state = .ready) :
    ∃ height, reading.height = some height := by
  unfold readCtazRecency at hread
  dsimp only at hread
  split at hread
  · obtain rfl := Option.some.inj hread
    exact height_of_ready hready
  · split at hread
    · obtain ⟨message, -, rfl⟩ := Option.map_eq_some_iff.mp hread
      split at hready <;> cases hready
    · obtain rfl := Option.some.inj hread
      exact height_of_ready hready

/-- The serving decision, in terms of what the node said. -/
theorem servable_readCtazNodeState {numText : ℚ → JsString} {nowMs : ℚ} {a : NodeAnswers}
    {node : CtazNodeState} (hread : readCtazNodeState numText true nowMs a = some node) :
    node.servable = true ↔ ∃ height, SaysCurrent a.recency a.answeredAt height ∧ NearTip a.info height := by
  obtain ⟨reading, hrecency, rfl⟩ := Option.map_eq_some_iff.mp hread
  constructor
  · intro h
    have hready := nodeStateOf_ready h
    obtain ⟨height, hheight⟩ := readCtazRecency_height hrecency hready
    obtain ⟨-, htip⟩ := (nodeStateOf_servable_iff hheight).mp h
    exact ⟨height, (readCtazRecency_ready_iff hrecency).mp ⟨hready, hheight⟩, htip⟩
  · rintro ⟨height, hsays, htip⟩
    obtain ⟨hready, hheight⟩ := (readCtazRecency_ready_iff hrecency).mpr hsays
    exact (nodeStateOf_servable_iff hheight).mpr ⟨hready, htip⟩

/-- The claim's own gate, which reads the node itself: a cTAZ claim goes
through exactly if the two replies say that the node can pay. -/
theorem ctazReadinessGate_passes_iff {numText : ℚ → JsString} {nowMs : ℚ} {a : NodeAnswers}
    {node : CtazNodeState} (hread : readCtazNodeState numText true nowMs a = some node) (r : Api.GateReadings) :
    Api.ctazReadinessGate .ctaz { r with ctazServes := node.servable } = none ↔
      ∃ height, SaysCurrent a.recency a.answeredAt height ∧ NearTip a.info height := by
  rw [← servable_readCtazNodeState hread]
  cases hserves : node.servable <;> simp [Api.ctazReadinessGate]

/-- What a node near its tip answers. -/
def recencyReplyNow : Json :=
  .obj [(js "result", .obj [(js "now_utc", .num (.finite 1700000000)), (js "my_height", .num (.finite 100)),
    (js "my_round", .num (.finite 7)), (js "my_locked_round", .num (.finite 6)),
    (js "finalizer_statuses", .arr [.null])])]

def infoReplyNow : Json :=
  .obj [(js "result", .obj [(js "blocks", .num (.finite 100)), (js "estimatedheight", .num (.finite 101))])]

/-- What a claim reads where nothing else is known. -/
def readingsAtStart : Api.GateReadings where
  draining := false
  sends := Zcash.readSendHealth 900000 1700000000000 [] .ctaz
  balance := none
  node := none
  tip := none
  ctazServes := false

/-- What its two answers come to. -/
def nodeNow : CtazNodeState := ⟨⟨.ready, some 100, some 1, some 20, some 1⟩, some 99, some 100, some 101, .rpc⟩

theorem ctazReadinessGate_passes_iff_now :
    Api.ctazReadinessGate .ctaz { readingsAtStart with ctazServes := nodeNow.servable } = none ↔
      ∃ height, SaysCurrent recencyReplyNow 1700000020000 height ∧ NearTip infoReplyNow height :=
  @ctazReadinessGate_passes_iff (fun _ => []) 1700000000000 ⟨recencyReplyNow, 1700000020000, infoReplyNow, none⟩
    nodeNow (by decide +kernel) readingsAtStart

end ZcashFaucet.Crosslink
