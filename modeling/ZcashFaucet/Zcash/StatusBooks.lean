/-
ZcashFaucet.Zcash.StatusBooks — what is counted about the reads of the
node's status, and what is said about it: `zcash/nodeStatusFailure.ts`.

There are two sets of books. The log of failures counts by class and by
path, and writes a line for the first of each and then at most one a
minute; it is a `Lib.Throttle` for every class and path
(`throttleOf_record`). The shape of the reads is a histogram of the reads
that came back, with those we gave up on and those that failed beside it.
-/
import Mathlib.Algebra.BigOperators.Fin
import ZcashFaucet.Lib.Json
import ZcashFaucet.Lib.Throttle

namespace ZcashFaucet.Zcash

open Lib

/-! ## The log of failures -/

inductive NodeStatusFailureKind
  | timeout
  | http
  | parse
  | network
  deriving DecidableEq, Repr

def NodeStatusFailureKind.text : NodeStatusFailureKind → JsString
  | .timeout => js "timeout"
  | .http => js "http"
  | .parse => js "parse"
  | .network => js "network"

/-- A NodeStatusScope, who is waiting for the read. -/
inductive NodeReadPurpose
  | claim
  | page
  deriving DecidableEq, Repr

def NodeReadPurpose.text : NodeReadPurpose → JsString
  | .claim => js "claim"
  | .page => js "page"

/-- `kind:scope`. -/
abbrev FailureKey := NodeStatusFailureKind × NodeReadPurpose

/-- THROTTLE_MS. -/
def throttleMs : ℚ := 60000

/-- `classifyNodeStatusError`, by the name of what was thrown. -/
def classifyNodeStatusError (name : JsString) : NodeStatusFailureKind :=
  if name = js "TimeoutError" ∨ name = js "AbortError" then .timeout
  else if name = js "SyntaxError" then .parse
  else .network

structure FailureLog where
  counts : NodeStatusFailureKind → Nat
  lastLoggedAt : FailureKey → Option ℚ
  sinceLastLog : FailureKey → Nat
  countsByPath : FailureKey → Nat

def FailureLog.empty : FailureLog := ⟨fun _ => 0, fun _ => none, fun _ => 0, fun _ => 0⟩

/-- A line of the log. -/
structure FailureLine where
  key : FailureKey
  detail : Option JsString
  first : Bool
  spoken : Spoken

def FailureLine.text (numText : ℚ → JsString) (l : FailureLine) : JsString :=
  let suffix := match l.detail with
    | some detail => if detail.truthy then js " (" ++ detail ++ js ")" else []
    | none => []
  let said := js "[node-status] read failed: " ++ l.key.1.text ++ suffix ++ js ". "
  if l.first then said ++ js "Readiness answers \"node status unknown\" while this is happening."
  else
    said ++ numText l.spoken.since ++ js " since the last line, " ++ numText l.spoken.total ++
      js " since start on this path."

/-- A failed read: of which class, on which path, when. -/
structure StatusFailure where
  key : FailureKey
  detail : Option JsString
  failedAt : ℚ

/-- `recordNodeStatusFailure`. -/
def recordNodeStatusFailure (f : StatusFailure) (log : FailureLog) : FailureLog × Option FailureLine :=
  let counts := Function.update log.counts f.key.1 (log.counts f.key.1 + 1)
  let since := log.sinceLastLog f.key + 1
  let total := log.countsByPath f.key + 1
  let first := total = 1
  let due := f.failedAt - (log.lastLoggedAt f.key).getD 0 ≥ throttleMs
  let countsByPath := Function.update log.countsByPath f.key total
  if ¬ first ∧ ¬ due then
    (⟨counts, log.lastLoggedAt, Function.update log.sinceLastLog f.key since, countsByPath⟩, none)
  else
    (⟨counts, Function.update log.lastLoggedAt f.key (some f.failedAt), Function.update log.sinceLastLog f.key 0,
        countsByPath⟩,
      some ⟨f.key, f.detail, first, ⟨f.failedAt, since, total⟩⟩)

/-- A history of failures, and what was written about it. -/
def recordFailures (fs : List StatusFailure) : FailureLog × List FailureLine :=
  fs.foldl (fun acc f =>
    ((recordNodeStatusFailure f acc.1).1, acc.2 ++ (recordNodeStatusFailure f acc.1).2.toList)) (.empty, [])

theorem recordFailures_snoc (fs : List StatusFailure) (f : StatusFailure) :
    recordFailures (fs ++ [f]) =
      ((recordNodeStatusFailure f (recordFailures fs).1).1,
        (recordFailures fs).2 ++ (recordNodeStatusFailure f (recordFailures fs).1).2.toList) := by
  rw [recordFailures, List.foldl_append]
  rfl

/-! ## The log is a throttle for every class and path -/

/-- What the log knows of a class and path. -/
def FailureLog.throttleOf (log : FailureLog) (k : FailureKey) : Throttle :=
  ⟨log.countsByPath k, log.sinceLastLog k, log.lastLoggedAt k⟩

/-- A class and path that was never written about never failed. -/
def FailureLog.Consistent (log : FailureLog) : Prop :=
  ∀ k, log.lastLoggedAt k = none ↔ log.countsByPath k = 0

theorem due_iff {log : FailureLog} (h : log.Consistent) (k : FailureKey) (now : ℚ) :
    (log.throttleOf k).due throttleMs now = true ↔
      log.countsByPath k + 1 = 1 ∨ now - (log.lastLoggedAt k).getD 0 ≥ throttleMs := by
  unfold Throttle.due FailureLog.throttleOf
  cases hlast : log.lastLoggedAt k with
  | none => simp [(h k).mp hlast]
  | some last =>
    have hfailed : log.countsByPath k ≠ 0 := by
      rw [Ne, ← h k, hlast]
      simp
    simp [hfailed]

theorem recordNodeStatusFailure_consistent {log : FailureLog} (h : log.Consistent) (f : StatusFailure) :
    (recordNodeStatusFailure f log).1.Consistent := by
  intro k
  unfold recordNodeStatusFailure
  dsimp only
  split
  case isTrue hquiet =>
    by_cases hk : k = f.key
    · subst hk
      have hlogged : log.lastLoggedAt f.key ≠ none := fun hnone => hquiet.1 (by rw [(h _).mp hnone])
      simp [hlogged]
    · simpa [hk] using h k
  case isFalse =>
    by_cases hk : k = f.key
    · subst hk
      simp
    · simpa [hk] using h k

/-- One failure is one hit of the throttle of its class and path. -/
theorem throttleOf_record {log : FailureLog} (h : log.Consistent) (f : StatusFailure) :
    (recordNodeStatusFailure f log).1.throttleOf =
        Function.update log.throttleOf f.key ((log.throttleOf f.key).hit throttleMs f.failedAt).1 ∧
      (recordNodeStatusFailure f log).2.map FailureLine.spoken =
        ((log.throttleOf f.key).hit throttleMs f.failedAt).2 := by
  have hdue := due_iff h f.key f.failedAt
  unfold recordNodeStatusFailure Throttle.hit
  dsimp only
  by_cases hquiet : ¬ log.countsByPath f.key + 1 = 1 ∧ ¬ f.failedAt - (log.lastLoggedAt f.key).getD 0 ≥ throttleMs
  · rw [if_pos hquiet, if_neg fun hd => (hdue.mp hd).elim hquiet.1 hquiet.2]
    refine ⟨funext fun k => ?_, rfl⟩
    by_cases hk : k = f.key
    · subst hk
      simp [FailureLog.throttleOf]
    · simp [FailureLog.throttleOf, hk]
  · have hspeaks : (log.throttleOf f.key).due throttleMs f.failedAt = true := by
      rw [hdue]
      exact not_and_or.mp hquiet |>.imp not_not.mp not_not.mp
    rw [if_neg hquiet, if_pos hspeaks]
    refine ⟨funext fun k => ?_, rfl⟩
    by_cases hk : k = f.key
    · subst hk
      simp [FailureLog.throttleOf]
    · simp [FailureLog.throttleOf, hk]

/-- A failure as an occurrence. -/
def StatusFailure.occurrence (f : StatusFailure) : FailureKey × ℚ := (f.key, f.failedAt)

theorem recordFailures_key (fs : List StatusFailure) :
    (recordFailures fs).1.Consistent ∧
      (recordFailures fs).1.throttleOf = (keyed throttleMs (fs.map StatusFailure.occurrence)).1 ∧
      (recordFailures fs).2.map (fun l => (l.key, l.spoken)) =
        (keyed throttleMs (fs.map StatusFailure.occurrence)).2 := by
  induction fs using List.reverseRecOn with
  | nil => exact ⟨fun _ => ⟨fun _ => rfl, fun _ => rfl⟩, rfl, rfl⟩
  | append_singleton fs f ih =>
    obtain ⟨hcons, hstate, hlines⟩ := ih
    obtain ⟨hstate', hspoken⟩ := throttleOf_record hcons f
    rw [recordFailures_snoc, List.map_append, List.map_singleton, keyed_snoc]
    refine ⟨recordNodeStatusFailure_consistent hcons f, ?_, ?_⟩
    · rw [hstate', hstate]
      rfl
    · rw [List.map_append, hlines, ← hstate, show (StatusFailure.occurrence f).1 = f.key from rfl,
        show (StatusFailure.occurrence f).2 = f.failedAt from rfl, ← hspoken]
      unfold recordNodeStatusFailure
      dsimp only
      split <;> rfl

theorem recordFailures_counts (fs : List StatusFailure) (kind : NodeStatusFailureKind) :
    (recordFailures fs).1.counts kind = fs.countP fun f => f.key.1 = kind := by
  induction fs using List.reverseRecOn with
  | nil => rfl
  | append_singleton fs f ih =>
    have hcounts : (recordNodeStatusFailure f (recordFailures fs).1).1.counts =
        Function.update (recordFailures fs).1.counts f.key.1 ((recordFailures fs).1.counts f.key.1 + 1) := by
      unfold recordNodeStatusFailure
      dsimp only
      split <;> rfl
    rw [recordFailures_snoc, hcounts, List.countP_append]
    by_cases hk : f.key.1 = kind
    · subst hk
      simp [ih]
    · simp [ih, hk, Function.update_of_ne (Ne.symm hk)]

/-- The lines about one class and path. -/
def linesOf (k : FailureKey) (lines : List FailureLine) : List Spoken :=
  (lines.filter fun l => l.key = k).map FailureLine.spoken

theorem linesOf_recordFailures (fs : List StatusFailure) (k : FailureKey) :
    linesOf k (recordFailures fs).2 =
      (heard throttleMs ((fs.filter fun f => f.key = k).map StatusFailure.failedAt)).2 := by
  obtain ⟨-, -, hlines⟩ := recordFailures_key fs
  have hkey : ((keyed throttleMs (fs.map StatusFailure.occurrence)).2.filter fun l => l.1 = k).map Prod.snd =
      (heard throttleMs (occurrences k (fs.map StatusFailure.occurrence))).2 := (keyed_eq_heard k _).2
  rw [← hlines, List.filter_map, List.map_map] at hkey
  rw [show occurrences k (fs.map StatusFailure.occurrence) =
      (fs.filter fun f => f.key = k).map StatusFailure.failedAt by
    rw [occurrences, List.filter_map, List.map_map]; rfl] at hkey
  exact hkey

theorem throttleOf_recordFailures (fs : List StatusFailure) (k : FailureKey) :
    (recordFailures fs).1.throttleOf k =
      (heard throttleMs ((fs.filter fun f => f.key = k).map StatusFailure.failedAt)).1 := by
  obtain ⟨-, hstate, -⟩ := recordFailures_key fs
  rw [hstate, (keyed_eq_heard k _).1, occurrences, List.filter_map, List.map_map]
  rfl

/-- Whatever fails, on whichever path and whenever: every class is counted;
for each class and path the first failure is written about, two lines are a
minute apart, and the numbers of the lines add up, with what is still to be
said, to the failures. -/
theorem failure_log_accounts (fs : List StatusFailure) :
    (∀ kind, (recordFailures fs).1.counts kind = fs.countP fun f => f.key.1 = kind) ∧
      ∀ k,
        (recordFailures fs).1.countsByPath k = (fs.filter fun f => f.key = k).length ∧
        ((linesOf k (recordFailures fs).2).map Spoken.since).sum + (recordFailures fs).1.sinceLastLog k =
          (fs.filter fun f => f.key = k).length ∧
        ((linesOf k (recordFailures fs).2).IsChain fun a b => throttleMs ≤ b.saidAt - a.saidAt) ∧
        (linesOf k (recordFailures fs).2).head?.map Spoken.saidAt =
          (fs.filter fun f => f.key = k).head?.map StatusFailure.failedAt := by
  refine ⟨recordFailures_counts fs, fun k => ?_⟩
  have hstate := throttleOf_recordFailures fs k
  rw [linesOf_recordFailures]
  refine ⟨?_, ?_, heard_spaced _, ?_⟩
  · have htotal := congrArg Throttle.total hstate
    rw [heard_total, List.length_map] at htotal
    exact htotal
  · have hsince := congrArg Throttle.since hstate
    rw [show (recordFailures fs).1.sinceLastLog k = ((recordFailures fs).1.throttleOf k).since from rfl, hsince,
      heard_sum, List.length_map]
  · rw [heard_head, List.head?_map]

/-! ## The shape of the reads -/

/-- LATENCY_BUCKET_EDGES_MS. -/
def latencyBucketEdgesMs : List ℚ := [50, 250, 1000, 2000, 4000, 8000, 12000]

/-- LATENCY_LABELS. -/
def latencyLabels : List JsString :=
  [js "<50ms", js "50-250ms", js "250ms-1s", js "1-2s", js "2-4s", js "4-8s", js "8-12s", js ">=12s"]

def bucketOf (ms : ℚ) : Fin 8 :=
  ⟨latencyBucketEdgesMs.findIdx fun edge => decide (ms < edge), Nat.lt_succ_of_le List.findIdx_le_length⟩

structure ShapeCounters where
  latency : Fin 8 → Nat
  censored : Nat
  slowestMs : ℚ
  recoveredOnRetry : Nat
  countingSince : ℚ
  failedAttempts : Nat
  fastestFailureMs : Option ℚ
  slowestFailureMs : Option ℚ
  lastShapeAt : ℚ
  everReported : Bool

def emptyCounters : ShapeCounters := ⟨fun _ => 0, 0, 0, 0, 0, 0, none, none, 0, false⟩

namespace ShapeCounters

/-- How many reads came back. -/
def reads (c : ShapeCounters) : Nat := ∑ i, c.latency i

def counting (now : ℚ) (c : ShapeCounters) : ShapeCounters :=
  if c.countingSince = 0 then { c with countingSince := now } else c

/-- `recordNodeStatusLatency`. -/
def recordLatency (ms now : ℚ) (c : ShapeCounters) : ShapeCounters :=
  if ms < 0 then c
  else
    let c := c.counting now
    { c with
      latency := Function.update c.latency (bucketOf ms) (c.latency (bucketOf ms) + 1)
      slowestMs := if ms > c.slowestMs then ms else c.slowestMs }

def recordFailedAttempt (ms now : ℚ) (c : ShapeCounters) : ShapeCounters :=
  let c := c.counting now
  let c := { c with failedAttempts := c.failedAttempts + 1 }
  if ms < 0 then c
  else
    { c with
      fastestFailureMs := if c.fastestFailureMs.all fun f => decide (ms < f) then some ms else c.fastestFailureMs
      slowestFailureMs := if c.slowestFailureMs.all fun f => decide (ms > f) then some ms else c.slowestFailureMs }

def recordCensoredRead (now : ℚ) (c : ShapeCounters) : ShapeCounters :=
  let c := c.counting now
  { c with censored := c.censored + 1 }

def recordRecoveredOnRetry (c : ShapeCounters) : ShapeCounters :=
  { c with recoveredOnRetry := c.recoveredOnRetry + 1 }

/-- The line of `reportNodeStatusShape`. -/
def shapeText (numText : ℚ → JsString) (now : ℚ) (scope : NodeReadPurpose) (ladderMs : List ℚ)
    (c : ShapeCounters) : JsString :=
  let shape := (List.finRange 8).filterMap fun i =>
    if c.latency i > 0 then some (latencyLabels.getD i [] ++ js "=" ++ numText (c.latency i)) else none
  let overMs := max 0 (now - c.countingSince)
  let overText :=
    if overMs ≥ 60000 then numText (⌊overMs / 60000 + 1 / 2⌋ : ℤ) ++ js "m"
    else numText (⌊overMs / 1000 + 1 / 2⌋ : ℤ) ++ js "s"
  let failures :=
    if c.failedAttempts > 0 then
      js "failed-attempts=" ++ numText c.failedAttempts ++
        js " fastest-failure=" ++ (c.fastestFailureMs.map numText).getD (js "null") ++
        js "ms slowest-failure=" ++ (c.slowestFailureMs.map numText).getD (js "null") ++ js "ms "
    else js "failed-attempts=0 "
  let ladder := if ladderMs.isEmpty then [] else js "ladder " ++ (js "+").intercalate (ladderMs.map numText) ++ js "ms, "
  let slowest := if c.reads = 0 then js "none" else numText c.slowestMs ++ js "ms"
  js "[node-status] shape (" ++ ladder ++ js "purpose=" ++ scope.text ++ js ") over " ++ overText ++
    js ": recovered-on-retry=" ++ numText c.recoveredOnRetry ++ js " censored=" ++ numText c.censored ++ js " " ++
    failures ++ js "slowest-returned=" ++ slowest ++ js " reads=" ++ numText c.reads ++ js " " ++
    (js " ").intercalate shape

/-- `reportNodeStatusShape`: the first one speaks, then one a minute, and
only about something. -/
def report (numText : ℚ → JsString) (now : ℚ) (scope : NodeReadPurpose) (ladderMs : List ℚ) (c : ShapeCounters) :
    ShapeCounters × Option JsString :=
  if c.reads = 0 ∧ c.censored = 0 ∧ c.failedAttempts = 0 then (c, none)
  else if c.everReported ∧ now - c.lastShapeAt < throttleMs then (c, none)
  else ({ c with everReported := true, lastShapeAt := now }, some (shapeText numText now scope ladderMs c))

/-! What each of them counts. -/

@[simp] theorem counting_latency (now : ℚ) (c : ShapeCounters) : (c.counting now).latency = c.latency := by
  unfold counting
  split <;> rfl

@[simp] theorem counting_censored (now : ℚ) (c : ShapeCounters) : (c.counting now).censored = c.censored := by
  unfold counting
  split <;> rfl

@[simp] theorem counting_failed (now : ℚ) (c : ShapeCounters) :
    (c.counting now).failedAttempts = c.failedAttempts := by
  unfold counting
  split <;> rfl

@[simp] theorem counting_recovered (now : ℚ) (c : ShapeCounters) :
    (c.counting now).recoveredOnRetry = c.recoveredOnRetry := by
  unfold counting
  split <;> rfl

/-- Attempts that ended: came back, given up on, failed. -/
def ended (c : ShapeCounters) : Nat := c.reads + c.censored + c.failedAttempts

theorem reads_update (c : ShapeCounters) (i : Fin 8) :
    ∑ j, Function.update c.latency i (c.latency i + 1) j = c.reads + 1 := by
  rw [Finset.sum_update_of_mem (Finset.mem_univ i), reads, ← Finset.add_sum_erase _ _ (Finset.mem_univ i),
    Finset.sdiff_singleton_eq_erase]
  omega

theorem recordLatency_ended {ms now : ℚ} (hms : 0 ≤ ms) (c : ShapeCounters) :
    (c.recordLatency ms now).ended = c.ended + 1 := by
  have hreads : (c.recordLatency ms now).reads = c.reads + 1 := by
    rw [recordLatency, if_neg (not_lt.mpr hms)]
    have h := reads_update (c.counting now) (bucketOf ms)
    simp only [reads, counting_latency] at h ⊢
    exact h
  unfold ended
  rw [hreads, recordLatency, if_neg (not_lt.mpr hms)]
  simp only [counting_censored, counting_failed]
  omega

theorem recordLatency_recovered (ms now : ℚ) (c : ShapeCounters) :
    (c.recordLatency ms now).recoveredOnRetry = c.recoveredOnRetry := by
  unfold recordLatency
  split
  · rfl
  · exact counting_recovered now c

theorem recordFailedAttempt_ended (ms now : ℚ) (c : ShapeCounters) :
    (c.recordFailedAttempt ms now).ended = c.ended + 1 := by
  unfold recordFailedAttempt ended reads
  dsimp only
  split <;> simp only [counting_latency, counting_censored, counting_failed] <;> omega

theorem recordFailedAttempt_recovered (ms now : ℚ) (c : ShapeCounters) :
    (c.recordFailedAttempt ms now).recoveredOnRetry = c.recoveredOnRetry := by
  unfold recordFailedAttempt
  dsimp only
  split <;> exact counting_recovered now c

theorem recordCensoredRead_ended (now : ℚ) (c : ShapeCounters) :
    (c.recordCensoredRead now).ended = c.ended + 1 := by
  simp only [recordCensoredRead, ended, reads, counting_latency, counting_censored, counting_failed]
  omega

theorem recordCensoredRead_recovered (now : ℚ) (c : ShapeCounters) :
    (c.recordCensoredRead now).recoveredOnRetry = c.recoveredOnRetry := counting_recovered now c

theorem recordRecoveredOnRetry_ended (c : ShapeCounters) : c.recordRecoveredOnRetry.ended = c.ended := rfl

theorem report_ended (numText : ℚ → JsString) (now : ℚ) (scope : NodeReadPurpose) (ladderMs : List ℚ)
    (c : ShapeCounters) : (c.report numText now scope ladderMs).1.ended = c.ended := by
  unfold report
  split
  · rfl
  · split <;> rfl

theorem report_recovered (numText : ℚ → JsString) (now : ℚ) (scope : NodeReadPurpose) (ladderMs : List ℚ)
    (c : ShapeCounters) :
    (c.report numText now scope ladderMs).1.recoveredOnRetry = c.recoveredOnRetry := by
  unfold report
  split
  · rfl
  · split <;> rfl

end ShapeCounters

end ZcashFaucet.Zcash
