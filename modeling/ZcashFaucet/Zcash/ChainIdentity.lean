/-
ZcashFaucet.Zcash.ChainIdentity — are we on the real chain: the verdict of
`zcash/chainIdentity.ts` and the reader behind it,
`zcash/chainIdentityOracle.ts`.

The verdict is a function of facts. The reader asks our wallet and an
independent server for a consensus branch id, both at once, and keeps the
verdict; whoever asks gets the last one, or that it is too old. It never
has a block hash, so what it can report is different rules and nothing
else (`isChainProblem_iff`).

Our own branch id is whatever the wallet put where it belongs, of any type.
Theirs is a text: the generated reader fills it in where it is missing.
-/
import ZcashFaucet.Lib.Run
import ZcashFaucet.Lib.Cells
import ZcashFaucet.Lib.Json
import ZcashFaucet.Lib.JsLower
import ZcashFaucet.Lib.JsTrim

namespace ZcashFaucet.Zcash

open Lib

/-! ## The verdict -/

inductive IdentityState
  | sameChain
  | differentRules
  | forked
  | cannotVerify
  deriving DecidableEq, Repr

structure IdentityVerdict where
  state : IdentityState
  reason : JsString
  deriving DecidableEq

structure IdentityFacts where
  ourBranchId : Option Json
  theirBranchId : Option JsString
  ourBranchIdDetail : Option JsString
  comparedAtHeight : Option ℚ
  ourHashAtHeight : Option JsString
  theirHashAtHeight : Option JsString

/-- COMPARE_DEPTH_BLOCKS. -/
def compareDepthBlocks : ℚ := 20

def comparisonHeight (ourTip theirTip : Option ℚ) : Option ℚ :=
  match ourTip, theirTip with
  | some ours, some theirs =>
      let common := min ours theirs - compareDepthBlocks
      if common > 0 then some common else none
  | _, _ => none

/-- Who is silent, and why where we know. -/
def missingReason (f : IdentityFacts) : JsString :=
  let missing :=
    if f.ourBranchId.isNone && f.theirBranchId.isNone then
      js "neither our node nor the independent source reports"
    else if f.ourBranchId.isNone then js "our node does not report"
    else js "the independent source does not report"
  let detail := trim (f.ourBranchIdDetail.getD [])
  let because := if f.ourBranchId.isNone && detail.truthy then js " (" ++ detail ++ js ")" else []
  missing ++ js " a consensus branch id" ++ because ++ js ", so whether we share rules is unestablished"

/-- The rest of it, where the rules are the same. -/
def classifyHistory (lower : LowerCase) (numText : ℚ → JsString) (rules : JsString) (f : IdentityFacts) :
    IdentityVerdict :=
  match f.comparedAtHeight with
  | none =>
      ⟨.cannotVerify, js "no common height could be chosen, so history was not compared. Rules match"⟩
  | some height =>
      match f.ourHashAtHeight, f.theirHashAtHeight with
      | some ours, some theirs =>
          if lower.apply ours ≠ lower.apply theirs then
            ⟨.forked, js "at height " ++ numText height ++ js " our node has block " ++ ours ++
              js " and the independent source has " ++ theirs ++ js ". Same rules, different history, so this " ++
              js "is a chain split and we are on the minority side of it or they are"⟩
          else
            ⟨.sameChain, js "same rules (" ++ rules ++ js ") and same history at height " ++ numText height⟩
      | _, _ =>
          ⟨.cannotVerify, js "a block hash at height " ++ numText height ++
            js " is missing, so history was not compared. Rules match"⟩

/-- `classifyChainIdentity`; `none` is the TypeError of an id that has no
text. -/
def classifyChainIdentity (lower : LowerCase) (numText : ℚ → JsString) (f : IdentityFacts) :
    Option IdentityVerdict :=
  match f.ourBranchId, f.theirBranchId with
  | some ours, some theirs =>
      if ours.isStr theirs then some (classifyHistory lower numText theirs f)
      else
        (ours.toText numText).map fun text =>
          ⟨.differentRules, js "our node reports consensus branch " ++ text ++
            js ", the independent source reports " ++ theirs ++
            js ". We are validating by different rules, which usually means a network " ++
            js "upgrade activated and we did not take it. Any hash mismatch below follows from this"⟩
  | _, _ => some ⟨.cannotVerify, missingReason f⟩

def isChainProblem (v : IdentityVerdict) : Bool :=
  v.state == .forked || v.state == .differentRules

/-! ## Our half -/

/-- The `result` of a reply that holds a branch id, in either of the two
places. -/
def branchIdFromRpc (json : Json) : Option Json :=
  let result := json.field (js "result")
  match orElse (field? (js "chaintip") (field? (js "consensus") result)) (field? (js "consensusBranchId") result) with
  | none | some .null => none
  | some id => some id

/-- `failureDetail`: why there is no answer, if there is none. The error of
the outer option is the TypeError of a message that cannot be read. -/
def failureDetail (numText : ℚ → JsString) (json : Json) : Option (Option JsString) :=
  match json.field (js "error") with
  | some error =>
      if error.truthy then do
        let msg ← match error.field (js "message") with
          | none | some .null => some []
          | some (.str message) => some (trim message)
          | some _ => none
        let said := if msg.isEmpty then js "RPC error" else msg
        match error.field (js "code") with
        | none | some .null => return some (js "zallet: " ++ said)
        | some code => return some (js "zallet: " ++ said ++ js " (" ++ (← code.toText numText) ++ js ")")
      else some (if (branchIdFromRpc json).isNone then some (js "zallet answered without a consensus branch id") else none)
  | none => some (if (branchIdFromRpc json).isNone then some (js "zallet answered without a consensus branch id") else none)

/-- How the wallet took the call. -/
inductive WalletAnswer
  | unreachable (message : JsString)
  | status (code : Nat)
  | body (json : Json)

/-- `ourBranchId`: the id, and why there is none. `typeError` is the message
of the TypeError. -/
def ourBranchId (numText : ℚ → JsString) (typeError : JsString) : WalletAnswer → Option Json × Option JsString
  | .unreachable message => (none, some (js "zallet unreachable: " ++ message))
  | .status code => (none, some (js "zallet answered HTTP " ++ numText code))
  | .body json =>
      match json, failureDetail numText json with
      | .null, _ | _, none => (none, some (js "zallet unreachable: " ++ typeError))
      | json, some detail => (if truthy? (json.field (js "error")) then none else branchIdFromRpc json, detail)

/-! ## The reader -/

/-- STALE_MS. -/
def identityStaleMs : ℚ := 60000

/-- MAX_AGE_MS. -/
def identityMaxAgeMs : ℚ := 600000

/-- A verdict with both halves it was made of. -/
structure IdentityRead where
  verdict : IdentityVerdict
  ours : Option Json
  theirs : Option JsString

structure ChainOracle where
  cells : Cells IdentityRead
  /-- The halves of the refresh in flight that are in. -/
  ours : Option (Option Json)
  theirs : Option (Option JsString)
  lastOurFailure : Option JsString

structure ChainOracleConfig where
  lower : LowerCase
  numText : ℚ → JsString
  typeError : JsString
  /-- There is an endpoint to ask. -/
  walletKnown : Bool

def ChainOracle.boot (clock : ℚ) : ChainOracle := ⟨.cold clock, none, none, none⟩

/-- UNKNOWN. -/
def identityUnknown : IdentityVerdict := ⟨.cannotVerify, js "chain identity has not been read yet"⟩

def ChainOracle.readAt (s : ChainOracle) : ℚ := (s.cells.current.held.map Prod.snd).getD 0

variable (cfg : ChainOracleConfig)

/-- Both halves are in. History is not compared. -/
def identityFacts (ours : Option Json) (theirs detail : Option JsString) : IdentityFacts :=
  ⟨ours, theirs, detail, none, none, none⟩

def ChainOracle.settle (s : ChainOracle) : ChainOracle :=
  match s.ours, s.theirs with
  | some ours, some theirs =>
      match classifyChainIdentity cfg.lower cfg.numText (identityFacts ours theirs s.lastOurFailure) with
      | some verdict => { s with cells := s.cells.store s.cells.number ⟨verdict, ours, theirs⟩ }
      | none => { s with cells := s.cells.fail s.cells.number }
  | _, _ => s

/-- `refresh`. A wallet that is not configured answers at once. -/
def ChainOracle.refresh (s : ChainOracle) : ChainOracle :=
  if s.cells.current.inflight then s
  else { s with cells := s.cells.start, ours := if cfg.walletKnown then none else some none, theirs := none }

/-- What `getChainIdentity` says of the cell as it is. -/
def chainVerdict (s : ChainOracle) : IdentityVerdict :=
  let age := s.cells.clock - s.readAt
  if s.readAt = 0 then identityUnknown
  else if identityMaxAgeMs < age then
    ⟨.cannotVerify, js "the last chain-identity reading is " ++ cfg.numText (⌊age / 60000 + 1 / 2⌋ : ℤ) ++
      js " minutes old, so it no longer describes now"⟩
  else (s.cells.current.held.map fun d => d.1.verdict).getD identityUnknown

/-- `getChainIdentity`: the last verdict, and a refresh where it is stale. -/
def getChainIdentity (s : ChainOracle) : ChainOracle × IdentityVerdict :=
  (if s.readAt = 0 ∨ identityStaleMs < s.cells.clock - s.readAt then s.refresh cfg else s, chainVerdict cfg s)

inductive ChainOracleEvent
  | tick (ms : ℚ)
  | warm
  | asked
  | ours (answer : WalletAnswer)
  | theirs (branch : Option JsString)

def ChainOracle.step (s : ChainOracle) : ChainOracleEvent → Option ChainOracle
  | .tick ms => if 0 ≤ ms then some { s with cells := s.cells.tick ms } else none
  | .warm => some (s.refresh cfg)
  | .asked => some (getChainIdentity cfg s).1
  | .ours answer =>
      if s.cells.current.inflight ∧ s.ours.isNone then
        let (branch, failure) := ourBranchId cfg.numText cfg.typeError answer
        some ({ s with ours := some branch, lastOurFailure := failure }.settle cfg)
      else none
  | .theirs branch =>
      if s.cells.current.inflight ∧ s.theirs.isNone then some ({ s with theirs := some branch }.settle cfg) else none

/-! ## What the verdict says -/

/-- A verdict on branch ids alone: different rules, or nothing. -/
theorem isChainProblem_classify {lower : LowerCase} {numText : ℚ → JsString} {ours : Option Json}
    {theirs detail : Option JsString} {v : IdentityVerdict}
    (h : classifyChainIdentity lower numText (identityFacts ours theirs detail) = some v) :
    v.state ≠ .sameChain ∧ v.state ≠ .forked ∧
      (v.state = .differentRules ↔ ∃ o t, ours = some o ∧ theirs = some t ∧ o.isStr t = false) := by
  cases ours with
  | none =>
    obtain rfl := Option.some.inj h
    simp
  | some o =>
    cases theirs with
    | none =>
      obtain rfl := Option.some.inj h
      simp
    | some t =>
      simp only [classifyChainIdentity, identityFacts] at h
      split at h
      case isTrue hsame =>
        obtain rfl := Option.some.inj h
        simp [classifyHistory, hsame]
      case isFalse hdiffer =>
        obtain ⟨text, -, rfl⟩ := Option.map_eq_some_iff.mp h
        simp [hdiffer]

/-! ## The invariant -/

structure ChainOracleInv (s : ChainOracle) : Prop where
  cells : s.cells.Inv
  /-- What is kept was classified from its two halves. -/
  classified : ∀ d ∈ s.cells.stored, ∃ detail,
    classifyChainIdentity cfg.lower cfg.numText (identityFacts d.value.ours d.value.theirs detail) =
      some d.value.verdict

namespace ChainOracleInv

variable {cfg} {s : ChainOracle}

theorem boot (clock : ℚ) : ChainOracleInv cfg (.boot clock) := by
  refine ⟨Cells.Inv.cold clock, fun d hd => ?_⟩
  cases hd

theorem refresh (h : ChainOracleInv cfg s) : ChainOracleInv cfg (s.refresh cfg) := by
  unfold ChainOracle.refresh
  split
  · exact h
  · refine ⟨h.cells.start, fun d hd => ?_⟩
    rw [Cells.start_stored] at hd
    exact h.classified d hd

theorem settle (h : ChainOracleInv cfg s) (hflight : s.cells.current.inflight = true) :
    ChainOracleInv cfg (s.settle cfg) := by
  have hmem := h.cells.mem_of_inflight le_rfl hflight
  unfold ChainOracle.settle
  split
  · split
    case h_1 ours theirs _ _ verdict hverdict =>
      refine ⟨h.cells.store hmem _, fun d hd => ?_⟩
      rcases List.mem_append.mp hd with hold | hnew
      · exact h.classified d hold
      · obtain rfl := List.mem_singleton.mp hnew
        exact ⟨_, hverdict⟩
    case h_2 => exact ⟨h.cells.fail hmem, h.classified⟩
  · exact h

theorem step {s' : ChainOracle} {e : ChainOracleEvent} (h : ChainOracleInv cfg s)
    (hstep : s.step cfg e = some s') : ChainOracleInv cfg s' := by
  cases e with
  | tick ms =>
    obtain ⟨hms, heq⟩ := Option.ite_none_right_eq_some.mp hstep
    obtain rfl := Option.some.inj heq
    exact ⟨h.cells.tick hms, h.classified⟩
  | warm =>
    obtain rfl := Option.some.inj hstep
    exact h.refresh
  | asked =>
    obtain rfl := Option.some.inj hstep
    unfold getChainIdentity
    dsimp only
    split
    · exact h.refresh
    · exact h
  | ours answer =>
    obtain ⟨⟨hflight, -⟩, heq⟩ := Option.ite_none_right_eq_some.mp hstep
    obtain rfl := Option.some.inj heq
    have hin : ChainOracleInv cfg
        { s with
          ours := some (ourBranchId cfg.numText cfg.typeError answer).1
          lastOurFailure := (ourBranchId cfg.numText cfg.typeError answer).2 } := ⟨h.cells, h.classified⟩
    exact hin.settle hflight
  | theirs branch =>
    obtain ⟨⟨hflight, -⟩, heq⟩ := Option.ite_none_right_eq_some.mp hstep
    obtain rfl := Option.some.inj heq
    have hin : ChainOracleInv cfg { s with theirs := some branch } := ⟨h.cells, h.classified⟩
    exact hin.settle hflight

end ChainOracleInv

/-! ## Every run -/

variable {cfg}

/-- A reading of two branch ids that are not the same. -/
def IdentityRead.Differs (r : IdentityRead) : Prop :=
  ∃ o t, r.ours = some o ∧ r.theirs = some t ∧ o.isStr t = false

/-- The faucet never reports a fork, nor that all is well: it has no hashes.
It reports a chain problem exactly while the last reading, at most ten
minutes old, has two branch ids that differ. -/
theorem isChainProblem_iff {clock : ℚ} {es : List ChainOracleEvent} {s : ChainOracle}
    (hrun : run (ChainOracle.step cfg) (.boot clock) es = some s) :
    (chainVerdict cfg s).state ≠ .sameChain ∧ (chainVerdict cfg s).state ≠ .forked ∧
      (isChainProblem (chainVerdict cfg s) = true ↔
        ∃ r storedAt, lastStored s.cells.number s.cells.stored = some (r, storedAt) ∧ storedAt ≠ 0 ∧
          s.cells.clock - storedAt ≤ identityMaxAgeMs ∧ r.Differs) := by
  have hinv : ChainOracleInv cfg s :=
    run_invariant (ChainOracleInv cfg) (fun _ _ _ h hstep => h.step hstep) (.boot clock) hrun
  have hheld := hinv.cells.held s.cells.number le_rfl
  rw [← hheld, show s.cells.cells s.cells.number = s.cells.current from rfl]
  unfold chainVerdict ChainOracle.readAt
  cases hc : s.cells.current.held with
  | none => simp [isChainProblem, identityUnknown]
  | some d =>
    obtain ⟨r, storedAt⟩ := d
    rw [show s.cells.cells s.cells.number = s.cells.current from rfl, hc] at hheld
    obtain ⟨detail, hmade⟩ := hinv.classified _ (mem_of_lastStored hheld.symm)
    obtain ⟨hsame, hforked, hdiffer⟩ := isChainProblem_classify hmade
    simp only [Option.map_some, Option.getD_some]
    by_cases hzero : storedAt = 0
    · simp [hzero, isChainProblem, identityUnknown]
    · rw [if_neg hzero]
      by_cases hold : identityMaxAgeMs < s.cells.clock - storedAt
      · rw [if_pos hold]
        refine ⟨by simp, by simp, by simp [isChainProblem], ?_⟩
        rintro ⟨r', storedAt', heq, -, hage, -⟩
        obtain ⟨rfl, rfl⟩ := Prod.mk.inj (Option.some.inj heq)
        exact absurd hage (not_le.mpr hold)
      · rw [if_neg hold]
        refine ⟨hsame, hforked, ?_⟩
        have hproblem : isChainProblem r.verdict = true ↔ r.verdict.state = .differentRules := by
          simp [isChainProblem, hforked]
        rw [hproblem, hdiffer]
        constructor
        · exact fun h => ⟨r, storedAt, rfl, hzero, not_lt.mp hold, h⟩
        · rintro ⟨r', storedAt', heq, -, -, h⟩
          obtain ⟨rfl, rfl⟩ := Prod.mk.inj (Option.some.inj heq)
          exact h

/-- An upgrade that our node missed is reported by the read after it. -/
def missedUpgrade : List ChainOracleEvent :=
  [.warm, .ours (.body (.obj [(js "result", .obj [(js "consensus", .obj [(js "chaintip", .str (js "c8e71055"))])])])),
    .theirs (some (js "4dec4df0")), .tick 1000]

theorem isChainProblem_iff_missedUpgrade :
    ∃ s, run (ChainOracle.step ⟨foldOnly, fun _ => [], [], true⟩) (.boot 1700000000000) missedUpgrade = some s ∧
      isChainProblem (chainVerdict ⟨foldOnly, fun _ => [], [], true⟩ s) = true := by
  have hview : (run (ChainOracle.step ⟨foldOnly, fun _ => [], [], true⟩) (.boot 1700000000000)
      missedUpgrade).map (fun s =>
        ((lastStored s.cells.number s.cells.stored).any fun d => d.2 == 1700000000000 &&
          d.1.ours.any fun o => d.1.theirs.any fun t => !o.isStr t, s.cells.clock)) =
      some (true, 1700000001000) := by decide +kernel
  obtain ⟨s, hrun, hs⟩ := Option.map_eq_some_iff.mp hview
  obtain ⟨hstored, hclock⟩ := Prod.mk.inj hs
  simp only [Option.any_eq_true, Bool.and_eq_true, beq_iff_eq, Bool.not_eq_true'] at hstored
  obtain ⟨⟨r, storedAt⟩, hlast, hat, o, hours, u, htheirs, hdiffers⟩ := hstored
  dsimp only at hat
  refine ⟨s, hrun, (isChainProblem_iff hrun).2.2.mpr ⟨r, storedAt, hlast, ?_, ?_, o, u, hours, htheirs, hdiffers⟩⟩
  · norm_num [hat]
  · norm_num [hat, hclock, identityMaxAgeMs]

end ZcashFaucet.Zcash
