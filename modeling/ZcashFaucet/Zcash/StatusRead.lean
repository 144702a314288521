/-
ZcashFaucet.Zcash.StatusRead — how the wallet is asked for the node's
status: the attempts of `getNodeStatus` in `zcash/nodeStatus.ts`, and what
each of them leaves in the books.

A read is one or two attempts on one budget. An attempt that throws is
repeated, one that was answered is not, whatever the answer; the body of
the answer still comes under the deadline of its attempt. Any number of
reads of both kinds are under way at once, and they share the books.

The clock cannot pass the deadline of an attempt that is under way: its
signal aborts it there. `begun`, `retries`, `served` and `nulls` belong to
the history.
-/
import Mathlib.Algebra.Order.BigOperators.Group.List
import Mathlib.Data.List.GetD
import Mathlib.Tactic.Linarith
import ZcashFaucet.Lib.Run
import ZcashFaucet.Zcash.StatusBooks

namespace ZcashFaucet.Zcash

open Lib

/-! ## The ladder of deadlines -/

/-- `nodeStatusTimeoutMs`, of what the environment's text is as a number;
`none` where it is none. -/
def nodeStatusTimeoutMs (raw : Option ℚ) : ℚ :=
  match raw with
  | some ms => if ms ≥ 1000 then ms else 12000
  | none => 12000

def nodeStatusBudgetMs (raw : Option ℚ) : NodeReadPurpose → ℚ
  | .claim => nodeStatusTimeoutMs raw
  | .page => min (nodeStatusTimeoutMs raw) 6000

def nodeStatusAttemptsMs (raw : Option ℚ) : NodeReadPurpose → List ℚ
  | .page => [nodeStatusBudgetMs raw .page]
  | .claim =>
      let budget := nodeStatusBudgetMs raw .claim
      let first := max 1000 ((⌊budget / 3⌋ : ℤ) : ℚ)
      [first, budget - first]

theorem nodeStatusTimeoutMs_ge (raw : Option ℚ) : 1000 ≤ nodeStatusTimeoutMs raw := by
  unfold nodeStatusTimeoutMs
  split
  · split
    · assumption
    · norm_num
  · norm_num

/-- The attempts share the budget, and none has less than nothing. -/
theorem attempts_sum (raw : Option ℚ) (p : NodeReadPurpose) :
    (nodeStatusAttemptsMs raw p).sum = nodeStatusBudgetMs raw p := by
  cases p <;> simp [nodeStatusAttemptsMs]

theorem attempts_nonneg (raw : Option ℚ) (p : NodeReadPurpose) : ∀ ms ∈ nodeStatusAttemptsMs raw p, 0 ≤ ms := by
  have hbudget := nodeStatusTimeoutMs_ge raw
  cases p with
  | page =>
    intro ms hms
    obtain rfl := List.mem_singleton.mp hms
    exact le_min (by linarith) (by norm_num)
  | claim =>
    have hfloor : ((⌊nodeStatusTimeoutMs raw / 3⌋ : ℤ) : ℚ) ≤ nodeStatusTimeoutMs raw / 3 := Int.floor_le _
    have hfirst : max 1000 ((⌊nodeStatusTimeoutMs raw / 3⌋ : ℤ) : ℚ) ≤ nodeStatusTimeoutMs raw :=
      max_le hbudget (by linarith)
    intro ms hms
    simp only [nodeStatusAttemptsMs, nodeStatusBudgetMs, List.mem_cons, List.not_mem_nil, or_false] at hms
    rcases hms with rfl | rfl
    · exact le_max_of_le_left (by norm_num)
    · exact sub_nonneg.mpr hfirst

/-- What the attempts so far and this one may take together. -/
theorem attempts_take_sum_le (raw : Option ℚ) (p : NodeReadPurpose) (i : Nat) :
    ((nodeStatusAttemptsMs raw p).take i).sum ≤ nodeStatusBudgetMs raw p := by
  rw [← attempts_sum, ← List.sum_take_add_sum_drop (nodeStatusAttemptsMs raw p) i]
  refine le_add_of_nonneg_right (List.sum_nonneg fun ms hms => ?_)
  exact attempts_nonneg raw p ms (List.mem_of_mem_drop hms)

/-! ## Reads under way -/

structure StatusRead where
  purpose : NodeReadPurpose
  begunAt : ℚ
  /-- Which attempt it is on. -/
  attempt : Nat
  startedAt : ℚ
  /-- The wallet answered 200, the body is on its way. -/
  answered : Bool
  deriving DecidableEq

structure StatusDesk where
  clock : ℚ
  reads : List StatusRead
  shape : NodeReadPurpose → ShapeCounters
  log : FailureLog
  begun : NodeReadPurpose → Nat
  retries : NodeReadPurpose → Nat
  served : NodeReadPurpose → Nat
  nulls : NodeReadPurpose → Nat

def StatusDesk.boot (clock : ℚ) : StatusDesk :=
  ⟨clock, [], fun _ => emptyCounters, .empty, fun _ => 0, fun _ => 0, fun _ => 0, fun _ => 0⟩

structure StatusConfig where
  numText : ℚ → JsString
  timeoutRaw : Option ℚ

variable (cfg : StatusConfig)

/-- The deadline of the attempt a read is on. -/
def StatusRead.deadline (r : StatusRead) : ℚ :=
  r.startedAt + (nodeStatusAttemptsMs cfg.timeoutRaw r.purpose).getD r.attempt 0

/-- Add one to the count of a purpose. -/
def countOne (p : NodeReadPurpose) (counts : NodeReadPurpose → Nat) : NodeReadPurpose → Nat :=
  Function.update counts p (counts p + 1)

def StatusDesk.withShape (p : NodeReadPurpose) (f : ShapeCounters → ShapeCounters) (s : StatusDesk) : StatusDesk :=
  { s with shape := Function.update s.shape p (f (s.shape p)) }

/-- `reportNodeStatusShape` with the ladder of that purpose. -/
def reportShape (now : ℚ) (p : NodeReadPurpose) (c : ShapeCounters) : ShapeCounters :=
  (c.report cfg.numText now p (nodeStatusAttemptsMs cfg.timeoutRaw p)).1

/-- The read ends with null, for a reason that is written down. -/
def StatusDesk.fails (r : StatusRead) (kind : NodeStatusFailureKind) (detail : JsString) (s : StatusDesk) : StatusDesk :=
  { s with
    reads := s.reads.erase r
    log := (recordNodeStatusFailure ⟨(kind, r.purpose), some detail, s.clock⟩ s.log).1
    nulls := countOne r.purpose s.nulls }

def onThePath (r : StatusRead) : JsString := js " on the " ++ r.purpose.text ++ js " path"

/-- The catch of the whole read. -/
def StatusDesk.catches (r : StatusRead) (name : JsString) (s : StatusDesk) : StatusDesk :=
  (s.fails r (classifyNodeStatusError name)
    (js "after " ++ cfg.numText (nodeStatusBudgetMs cfg.timeoutRaw r.purpose) ++ js "ms" ++ onThePath r)).withShape
    r.purpose (reportShape cfg s.clock r.purpose)

/-- The first attempt of a read. -/
def StatusDesk.begin (p : NodeReadPurpose) (s : StatusDesk) : StatusDesk :=
  { s with reads := ⟨p, s.clock, 0, s.clock, false⟩ :: s.reads, begun := countOne p s.begun }

/-- An answered attempt, in the books. -/
def countAnswer (r : StatusRead) (status : Nat) (now : ℚ) (c : ShapeCounters) : ShapeCounters :=
  let c :=
    if 200 ≤ status ∧ status ≤ 299 then c.recordLatency (now - r.startedAt) now
    else c.recordFailedAttempt (now - r.startedAt) now
  let c := reportShape cfg now r.purpose c
  if r.attempt > 0 then c.recordRecoveredOnRetry else c

def StatusDesk.answer (r : StatusRead) (status : Nat) (s : StatusDesk) : StatusDesk :=
  let s := s.withShape r.purpose (countAnswer cfg r status s.clock)
  if 200 ≤ status ∧ status ≤ 299 then { s with reads := { r with answered := true } :: s.reads.erase r }
  else s.fails r .http (js "status " ++ cfg.numText status ++ onThePath r)

/-- An attempt that threw, in the books. -/
def countThrow (r : StatusRead) (name : JsString) (now : ℚ) (c : ShapeCounters) : ShapeCounters :=
  if classifyNodeStatusError name = .timeout then c.recordCensoredRead now
  else c.recordFailedAttempt (now - r.startedAt) now

def StatusDesk.throws (r : StatusRead) (name : JsString) (s : StatusDesk) : StatusDesk :=
  let s := s.withShape r.purpose (countThrow r name s.clock)
  if r.attempt + 1 < (nodeStatusAttemptsMs cfg.timeoutRaw r.purpose).length then
    { s with
      reads := { r with attempt := r.attempt + 1, startedAt := s.clock } :: s.reads.erase r
      retries := countOne r.purpose s.retries }
  else s.catches cfg r name

/-- `height`, of one of the two tips. -/
def tipHeight (tip : JsString) (json : Json) : Option Json :=
  field? (js "height") (field? tip (json.field (js "result")))

/-- What a height that is not a number is said to be. -/
def heightShape (raw : Option Json) : JsString :=
  match finiteNumber raw, raw with
  | some _, _ => js "present"
  | none, none | none, some .null => js "missing"
  | none, some _ => js "not a number"

/-- The body of an answer: what `res.json()` threw, or the JSON. -/
def StatusDesk.body (r : StatusRead) (body : Except JsString Json) (s : StatusDesk) : StatusDesk :=
  match body with
  | .error name => s.catches cfg r name
  | .ok .null => s.catches cfg r (js "TypeError")
  | .ok json =>
      let rawW := tipHeight (js "wallet_tip") json
      let rawN := tipHeight (js "node_tip") json
      if (finiteNumber rawW).isSome && (finiteNumber rawN).isSome then
        { s with reads := s.reads.erase r, served := countOne r.purpose s.served }
      else
        s.fails r .parse (js "wallet_tip " ++ heightShape rawW ++ js ", node_tip " ++ heightShape rawN ++ onThePath r)

inductive StatusEvent
  | tick (ms : ℚ)
  | begin (p : NodeReadPurpose)
  | answered (r : StatusRead) (status : Nat)
  | threw (r : StatusRead) (name : JsString)
  | body (r : StatusRead) (body : Except JsString Json)

def StatusDesk.step (s : StatusDesk) : StatusEvent → Option StatusDesk
  | .tick ms =>
      if 0 ≤ ms ∧ ∀ r ∈ s.reads, s.clock + ms ≤ r.deadline cfg then some { s with clock := s.clock + ms } else none
  | .begin p => some (s.begin p)
  | .answered r status => if r ∈ s.reads ∧ r.answered = false then some (s.answer cfg r status) else none
  | .threw r name => if r ∈ s.reads ∧ r.answered = false then some (s.throws cfg r name) else none
  | .body r body => if r ∈ s.reads ∧ r.answered = true then some (s.body cfg r body) else none

/-! ## The books -/

/-- First attempts of a purpose that wait for an answer. -/
def firstTries (p : NodeReadPurpose) (reads : List StatusRead) : Nat :=
  reads.countP fun r => r.purpose == p && !r.answered && r.attempt == 0

/-- Second attempts. -/
def secondTries (p : NodeReadPurpose) (reads : List StatusRead) : Nat :=
  reads.countP fun r => r.purpose == p && !r.answered && r.attempt != 0

def underWay (p : NodeReadPurpose) (reads : List StatusRead) : Nat := reads.countP fun r => r.purpose == p

theorem tries_split (p : NodeReadPurpose) (reads : List StatusRead) :
    firstTries p reads + secondTries p reads = reads.countP fun r => r.purpose == p && !r.answered := by
  unfold firstTries secondTries
  induction reads with
  | nil => rfl
  | cons r reads ih =>
    rw [List.countP_cons, List.countP_cons, List.countP_cons, ← ih]
    cases hwaits : r.purpose == p && !r.answered <;> by_cases hfirst : r.attempt = 0 <;> simp [hfirst] <;> omega

/-- The failures of a path, over all classes. -/
def FailureLog.ofPath (log : FailureLog) (p : NodeReadPurpose) : Nat :=
  log.countsByPath (.timeout, p) + log.countsByPath (.http, p) + log.countsByPath (.parse, p) +
    log.countsByPath (.network, p)

structure Books (s : StatusDesk) (p : NodeReadPurpose) : Prop where
  /-- Every attempt is counted once when it ends. -/
  attempts : s.begun p + s.retries p = (s.shape p).ended + firstTries p s.reads + secondTries p s.reads
  reads : s.begun p = s.served p + s.nulls p + underWay p s.reads
  /-- Every null is written down, under its own path. -/
  reasons : s.log.ofPath p = s.nulls p
  recovered : (s.shape p).recoveredOnRetry + secondTries p s.reads ≤ s.retries p
  /-- No read is retried twice. -/
  once : s.retries p + firstTries p s.reads ≤ s.begun p
  page : p = .page → s.retries p = 0

/-- Where a read stands in its budget. -/
structure InBudget (clock : ℚ) (r : StatusRead) : Prop where
  known : r.attempt < (nodeStatusAttemptsMs cfg.timeoutRaw r.purpose).length
  began : r.startedAt - r.begunAt ≤ ((nodeStatusAttemptsMs cfg.timeoutRaw r.purpose).take r.attempt).sum
  started : r.startedAt ≤ clock
  deadline : clock ≤ r.deadline cfg

structure DeskInv (s : StatusDesk) : Prop where
  books : ∀ p, Books s p
  budget : ∀ r ∈ s.reads, InBudget cfg s.clock r

/-! What a step does to the counts. -/

theorem countP_close {P : StatusRead → Bool} {r : StatusRead} {reads : List StatusRead} (h : r ∈ reads) :
    (reads.erase r).countP P + (P r).toNat = reads.countP P := by
  have hperm := (List.perm_cons_erase h).countP_eq P
  rw [List.countP_cons] at hperm
  cases hP : P r <;> simp_all

theorem countOne_apply (p q : NodeReadPurpose) (counts : NodeReadPurpose → Nat) :
    countOne p counts q = counts q + (p == q).toNat := by
  unfold countOne
  by_cases h : p = q
  · subst h
    simp
  · rw [Function.update_of_ne (Ne.symm h), beq_false_of_ne h]
    rfl

theorem ofPath_record (log : FailureLog) (kind : NodeStatusFailureKind) (p q : NodeReadPurpose)
    (detail : Option JsString) (now : ℚ) :
    (recordNodeStatusFailure ⟨(kind, p), detail, now⟩ log).1.ofPath q = log.ofPath q + (p == q).toNat := by
  have hcounts : (recordNodeStatusFailure ⟨(kind, p), detail, now⟩ log).1.countsByPath =
      Function.update log.countsByPath (kind, p) (log.countsByPath (kind, p) + 1) := by
    unfold recordNodeStatusFailure
    dsimp only
    split <;> rfl
  rw [FailureLog.ofPath, hcounts]
  by_cases h : p = q
  · subst h
    cases kind <;> simp [FailureLog.ofPath, Function.update] <;> omega
  · have hne : ∀ k : NodeStatusFailureKind, (k, q) ≠ (kind, p) := fun k heq => h (congrArg Prod.snd heq).symm
    simp only [Function.update_of_ne (hne _)]
    rw [beq_false_of_ne h]
    rfl

theorem countAnswer_ended {r : StatusRead} {status : Nat} {now : ℚ} (h : r.startedAt ≤ now) (c : ShapeCounters) :
    (countAnswer cfg r status now c).ended = c.ended + 1 := by
  have hdone : (if 200 ≤ status ∧ status ≤ 299 then c.recordLatency (now - r.startedAt) now
      else c.recordFailedAttempt (now - r.startedAt) now).ended = c.ended + 1 := by
    split
    · exact ShapeCounters.recordLatency_ended (sub_nonneg.mpr h) c
    · exact ShapeCounters.recordFailedAttempt_ended _ _ c
  unfold countAnswer reportShape
  dsimp only
  split
  · rw [ShapeCounters.recordRecoveredOnRetry_ended, ShapeCounters.report_ended, hdone]
  · rw [ShapeCounters.report_ended, hdone]

theorem countAnswer_recovered {r : StatusRead} {status : Nat} {now : ℚ} (c : ShapeCounters) :
    (countAnswer cfg r status now c).recoveredOnRetry = c.recoveredOnRetry + (r.attempt != 0).toNat := by
  have hsame : (if 200 ≤ status ∧ status ≤ 299 then c.recordLatency (now - r.startedAt) now
      else c.recordFailedAttempt (now - r.startedAt) now).recoveredOnRetry = c.recoveredOnRetry := by
    split
    · exact ShapeCounters.recordLatency_recovered _ _ c
    · exact ShapeCounters.recordFailedAttempt_recovered _ _ c
  unfold countAnswer reportShape
  dsimp only
  split
  case isTrue hlater =>
    have hretry : (r.attempt != 0) = true := by simpa using Nat.pos_iff_ne_zero.mp hlater
    rw [ShapeCounters.recordRecoveredOnRetry, ShapeCounters.report_recovered, hsame, hretry]
    rfl
  case isFalse hfirst =>
    rw [ShapeCounters.report_recovered, hsame, Nat.eq_zero_of_not_pos hfirst]
    rfl

theorem countThrow_ended {r : StatusRead} {name : JsString} {now : ℚ} (c : ShapeCounters) :
    (countThrow r name now c).ended = c.ended + 1 := by
  unfold countThrow
  split
  · exact ShapeCounters.recordCensoredRead_ended now c
  · exact ShapeCounters.recordFailedAttempt_ended _ _ c

theorem countThrow_recovered {r : StatusRead} {name : JsString} {now : ℚ} (c : ShapeCounters) :
    (countThrow r name now c).recoveredOnRetry = c.recoveredOnRetry := by
  unfold countThrow
  split
  · exact ShapeCounters.recordCensoredRead_recovered now c
  · exact ShapeCounters.recordFailedAttempt_recovered _ _ c

/-! ## Every step keeps the books -/

namespace Books

variable {cfg} {s s' : StatusDesk} {p : NodeReadPurpose}

/-- What is not this purpose's is nothing to its books. -/
theorem of_same (h : Books s p) (hshape : s'.shape p = s.shape p) (hlog : s'.log.ofPath p = s.log.ofPath p)
    (hbegun : s'.begun p = s.begun p) (hretries : s'.retries p = s.retries p)
    (hserved : s'.served p = s.served p) (hnulls : s'.nulls p = s.nulls p)
    (hfirst : firstTries p s'.reads = firstTries p s.reads)
    (hsecond : secondTries p s'.reads = secondTries p s.reads)
    (hway : underWay p s'.reads = underWay p s.reads) : Books s' p := by
  refine ⟨?_, ?_, ?_, ?_, ?_, ?_⟩
  · rw [hbegun, hretries, hshape, hfirst, hsecond, h.attempts]
  · rw [hbegun, hserved, hnulls, hway, h.reads]
  · rw [hlog, hnulls, h.reasons]
  · rw [hshape, hsecond, hretries]
    exact h.recovered
  · rw [hretries, hfirst, hbegun]
    exact h.once
  · rw [hretries]
    exact h.page

theorem begin (h : Books s p) (q : NodeReadPurpose) : Books (s.begin q) p := by
  obtain ⟨hattempts, hreads, hreasons, hrecovered, honce, hpage⟩ := h
  have hbegun : (s.begin q).begun p = s.begun p + (q == p).toNat := countOne_apply _ _ _
  have hfirst : firstTries p (s.begin q).reads = firstTries p s.reads + (q == p).toNat := by
    simp [StatusDesk.begin, firstTries, List.countP_cons, Bool.toNat, Bool.cond_eq_ite]
  have hsecond : secondTries p (s.begin q).reads = secondTries p s.reads := by
    simp [StatusDesk.begin, secondTries]
  have hway : underWay p (s.begin q).reads = underWay p s.reads + (q == p).toNat := by
    simp [StatusDesk.begin, underWay, List.countP_cons, Bool.toNat, Bool.cond_eq_ite]
  refine ⟨?_, ?_, hreasons, ?_, ?_, hpage⟩
  · rw [hbegun, hfirst, hsecond]
    exact (by omega : s.begun p + (q == p).toNat + s.retries p =
      (s.shape p).ended + (firstTries p s.reads + (q == p).toNat) + secondTries p s.reads)
  · rw [hbegun, hway]
    exact (by omega : s.begun p + (q == p).toNat =
      s.served p + s.nulls p + (underWay p s.reads + (q == p).toNat))
  · rw [hsecond]
    exact hrecovered
  · rw [hbegun, hfirst]
    exact (by omega : s.retries p + (firstTries p s.reads + (q == p).toNat) ≤ s.begun p + (q == p).toNat)

variable {r : StatusRead}

/-! A read that leaves the list, and what was counted of it. -/

private theorem firstTries_erase (hr : r ∈ s.reads) (hopen : r.answered = false) :
    firstTries r.purpose (s.reads.erase r) + (r.attempt == 0).toNat = firstTries r.purpose s.reads := by
  have h := countP_close (P := fun r' => r'.purpose == r.purpose && !r'.answered && r'.attempt == 0) hr
  simpa [firstTries, hopen] using h

private theorem secondTries_erase (hr : r ∈ s.reads) (hopen : r.answered = false) :
    secondTries r.purpose (s.reads.erase r) + (r.attempt != 0).toNat = secondTries r.purpose s.reads := by
  have h := countP_close (P := fun r' => r'.purpose == r.purpose && !r'.answered && r'.attempt != 0) hr
  simpa [secondTries, hopen] using h

private theorem underWay_erase (hr : r ∈ s.reads) :
    underWay r.purpose (s.reads.erase r) + 1 = underWay r.purpose s.reads := by
  have h := countP_close (P := fun r' => r'.purpose == r.purpose) hr
  simpa [underWay] using h

private theorem tries_of_answered (hr : r ∈ s.reads) (hanswered : r.answered = true) :
    firstTries p (s.reads.erase r) = firstTries p s.reads ∧
      secondTries p (s.reads.erase r) = secondTries p s.reads := by
  have hfirst := countP_close (P := fun r' => r'.purpose == p && !r'.answered && r'.attempt == 0) hr
  have hsecond := countP_close (P := fun r' => r'.purpose == p && !r'.answered && r'.attempt != 0) hr
  simp only [hanswered, Bool.not_true, Bool.and_false, Bool.false_and, Bool.toNat_false, Nat.add_zero] at hfirst hsecond
  exact ⟨hfirst, hsecond⟩

private theorem other_erase (hr : r ∈ s.reads) (hp : r.purpose ≠ p) :
    firstTries p (s.reads.erase r) = firstTries p s.reads ∧
      secondTries p (s.reads.erase r) = secondTries p s.reads ∧
      underWay p (s.reads.erase r) = underWay p s.reads := by
  have hfirst := countP_close (P := fun r' => r'.purpose == p && !r'.answered && r'.attempt == 0) hr
  have hsecond := countP_close (P := fun r' => r'.purpose == p && !r'.answered && r'.attempt != 0) hr
  have hway := countP_close (P := fun r' => r'.purpose == p) hr
  simp only [beq_false_of_ne hp, Bool.false_and, Bool.toNat_false, Nat.add_zero] at hfirst hsecond hway
  exact ⟨hfirst, hsecond, hway⟩

private theorem attempt_once (n : Nat) : (n == 0).toNat + (n != 0).toNat = 1 := by
  cases n <;> rfl

/-- A read that is not this purpose's, whatever becomes of it. -/
theorem other (h : Books s p) (hr : r ∈ s.reads) (hp : r.purpose ≠ p) (more : List StatusRead)
    (hmore : ∀ r' ∈ more, r'.purpose = r.purpose) (hreads : s'.reads = more ++ s.reads.erase r)
    (hshape : s'.shape p = s.shape p) (hlog : s'.log.ofPath p = s.log.ofPath p) (hbegun : s'.begun p = s.begun p)
    (hretries : s'.retries p = s.retries p) (hserved : s'.served p = s.served p)
    (hnulls : s'.nulls p = s.nulls p) : Books s' p := by
  obtain ⟨hfirst, hsecond, hway⟩ := other_erase hr hp
  have hnone : ∀ P : StatusRead → Bool, (∀ r', P r' = true → r'.purpose = p) → more.countP P = 0 := by
    intro P hP
    exact List.countP_eq_zero.mpr fun r' hr' htrue => hp ((hmore r' hr').symm.trans (hP r' htrue))
  refine h.of_same hshape hlog hbegun hretries hserved hnulls ?_ ?_ ?_
  · rw [hreads, firstTries, List.countP_append, hnone _ (by simp +contextual), Nat.zero_add]
    exact hfirst
  · rw [hreads, secondTries, List.countP_append, hnone _ (by simp +contextual), Nat.zero_add]
    exact hsecond
  · rw [hreads, underWay, List.countP_append, hnone _ (by simp +contextual), Nat.zero_add]
    exact hway

theorem answer (h : Books s p) (hr : r ∈ s.reads) (hopen : r.answered = false) (hstart : r.startedAt ≤ s.clock)
    (status : Nat) : Books (s.answer cfg r status) p := by
  by_cases hp : r.purpose = p
  · subst hp
    obtain ⟨hattempts, hreads, hreasons, hrecovered, honce, hpage⟩ := h
    have hended : ((s.withShape r.purpose (countAnswer cfg r status s.clock)).shape r.purpose).ended =
        (s.shape r.purpose).ended + 1 := by
      simp [StatusDesk.withShape, countAnswer_ended cfg hstart]
    have hrec : ((s.withShape r.purpose (countAnswer cfg r status s.clock)).shape r.purpose).recoveredOnRetry =
        (s.shape r.purpose).recoveredOnRetry + (r.attempt != 0).toNat := by
      simp [StatusDesk.withShape, countAnswer_recovered]
    have hfirst := firstTries_erase hr hopen
    have hsecond := secondTries_erase hr hopen
    have hway := underWay_erase hr
    have hone := attempt_once r.attempt
    unfold StatusDesk.answer
    dsimp only
    split
    · have hfirst' : firstTries r.purpose ({ r with answered := true } :: s.reads.erase r) =
          firstTries r.purpose (s.reads.erase r) := by simp [firstTries]
      have hsecond' : secondTries r.purpose ({ r with answered := true } :: s.reads.erase r) =
          secondTries r.purpose (s.reads.erase r) := by simp [secondTries]
      have hway' : underWay r.purpose ({ r with answered := true } :: s.reads.erase r) =
          underWay r.purpose (s.reads.erase r) + 1 := by simp [underWay]
      refine ⟨?_, ?_, hreasons, ?_, ?_, hpage⟩
      · dsimp only [StatusDesk.withShape] at hended ⊢
        rw [hended, hfirst', hsecond']
        omega
      · dsimp only [StatusDesk.withShape]
        rw [hway']
        omega
      · dsimp only [StatusDesk.withShape] at hrec ⊢
        rw [hrec, hsecond']
        omega
      · dsimp only [StatusDesk.withShape]
        rw [hfirst']
        omega
    · have hnulls : countOne r.purpose s.nulls r.purpose = s.nulls r.purpose + 1 := by simp [countOne_apply]
      refine ⟨?_, ?_, ?_, ?_, ?_, hpage⟩
      · dsimp only [StatusDesk.fails, StatusDesk.withShape] at hended ⊢
        rw [hended]
        omega
      · dsimp only [StatusDesk.fails, StatusDesk.withShape]
        rw [hnulls]
        omega
      · dsimp only [StatusDesk.fails, StatusDesk.withShape]
        rw [ofPath_record, hnulls, hreasons, beq_self_eq_true]
        rfl
      · dsimp only [StatusDesk.fails, StatusDesk.withShape] at hrec ⊢
        rw [hrec]
        omega
      · dsimp only [StatusDesk.fails, StatusDesk.withShape]
        omega
  · unfold StatusDesk.answer
    dsimp only
    have hshape : (s.withShape r.purpose (countAnswer cfg r status s.clock)).shape p = s.shape p :=
      Function.update_of_ne (Ne.symm hp) _ _
    split
    · exact h.other hr hp [{ r with answered := true }] (by simp) rfl hshape rfl rfl rfl rfl rfl
    · refine h.other hr hp [] (by simp) rfl hshape ?_ rfl rfl rfl ?_
      · dsimp only [StatusDesk.fails, StatusDesk.withShape]
        rw [ofPath_record, beq_false_of_ne hp]
        rfl
      · dsimp only [StatusDesk.fails, StatusDesk.withShape]
        rw [countOne_apply, beq_false_of_ne hp]
        rfl

/-! The end of a read that is caught. -/

private theorem catches_ended (r : StatusRead) (name : JsString) (s : StatusDesk) (q : NodeReadPurpose) :
    ((s.catches cfg r name).shape q).ended = (s.shape q).ended := by
  by_cases hq : q = r.purpose
  · subst hq
    simp [StatusDesk.catches, StatusDesk.withShape, StatusDesk.fails, reportShape, ShapeCounters.report_ended]
  · simp [StatusDesk.catches, StatusDesk.withShape, StatusDesk.fails, Function.update_of_ne hq]

private theorem catches_recovered (r : StatusRead) (name : JsString) (s : StatusDesk) (q : NodeReadPurpose) :
    ((s.catches cfg r name).shape q).recoveredOnRetry = (s.shape q).recoveredOnRetry := by
  by_cases hq : q = r.purpose
  · subst hq
    simp [StatusDesk.catches, StatusDesk.withShape, StatusDesk.fails, reportShape, ShapeCounters.report_recovered]
  · simp [StatusDesk.catches, StatusDesk.withShape, StatusDesk.fails, Function.update_of_ne hq]

private theorem catches_ofPath (r : StatusRead) (name : JsString) (s : StatusDesk) (q : NodeReadPurpose) :
    (s.catches cfg r name).log.ofPath q = s.log.ofPath q + (r.purpose == q).toNat :=
  ofPath_record s.log _ _ _ _ _

private theorem catches_nulls (r : StatusRead) (name : JsString) (s : StatusDesk) (q : NodeReadPurpose) :
    (s.catches cfg r name).nulls q = s.nulls q + (r.purpose == q).toNat := countOne_apply _ _ _

/-- A read whose attempt is counted ends with a null: what is left to count
of it is the null. -/
theorem catches (h : Books s p) (hr : r ∈ s.reads) (hanswered : r.answered = true) (name : JsString) :
    Books (s.catches cfg r name) p := by
  obtain ⟨hattempts, hreads, hreasons, hrecovered, honce, hpage⟩ := h
  obtain ⟨hfirst, hsecond⟩ := tries_of_answered (p := p) hr hanswered
  have hway := countP_close (P := fun r' => r'.purpose == p) hr
  have hlist : (s.catches cfg r name).reads = s.reads.erase r := rfl
  refine ⟨?_, ?_, ?_, ?_, ?_, hpage⟩
  · rw [catches_ended, hlist, hfirst, hsecond]
    exact hattempts
  · rw [catches_nulls, hlist]
    change s.begun p = s.served p + (s.nulls p + (r.purpose == p).toNat) + underWay p (s.reads.erase r)
    rw [hreads]
    dsimp only [underWay] at hway ⊢
    omega
  · rw [catches_ofPath, catches_nulls, hreasons]
  · rw [catches_recovered, hlist, hsecond]
    exact hrecovered
  · rw [hlist, hfirst]
    exact honce

theorem throws (h : Books s p) (hr : r ∈ s.reads) (hopen : r.answered = false) (name : JsString) :
    Books (s.throws cfg r name) p := by
  by_cases hp : r.purpose = p
  · subst hp
    obtain ⟨hattempts, hreads, hreasons, hrecovered, honce, hpage⟩ := h
    have hended : ((s.withShape r.purpose (countThrow r name s.clock)).shape r.purpose).ended =
        (s.shape r.purpose).ended + 1 := by
      simp [StatusDesk.withShape, countThrow_ended]
    have hrec : ((s.withShape r.purpose (countThrow r name s.clock)).shape r.purpose).recoveredOnRetry =
        (s.shape r.purpose).recoveredOnRetry := by
      simp [StatusDesk.withShape, countThrow_recovered]
    have hfirst := firstTries_erase hr hopen
    have hsecond := secondTries_erase hr hopen
    have hway := underWay_erase hr
    have hone := attempt_once r.attempt
    unfold StatusDesk.throws
    dsimp only
    split
    case isTrue hagain =>
      -- only a claim has a second attempt, and it is the one after the first
      obtain ⟨hclaim, hzero⟩ : r.purpose ≠ .page ∧ r.attempt = 0 := by
        cases hpurpose : r.purpose <;> rw [hpurpose] at hagain <;>
          simp only [nodeStatusAttemptsMs, List.length_cons, List.length_nil] at hagain
        · exact ⟨by simp, by omega⟩
        · omega
      have hretries : countOne r.purpose s.retries r.purpose = s.retries r.purpose + 1 := by simp [countOne_apply]
      have hfirst' : firstTries r.purpose
          ({ r with attempt := r.attempt + 1, startedAt := s.clock } :: s.reads.erase r) =
          firstTries r.purpose (s.reads.erase r) := by simp [firstTries]
      have hsecond' : secondTries r.purpose
          ({ r with attempt := r.attempt + 1, startedAt := s.clock } :: s.reads.erase r) =
          secondTries r.purpose (s.reads.erase r) + 1 := by simp [secondTries, hopen]
      have hway' : underWay r.purpose
          ({ r with attempt := r.attempt + 1, startedAt := s.clock } :: s.reads.erase r) =
          underWay r.purpose (s.reads.erase r) + 1 := by simp [underWay]
      rw [hzero] at hfirst hsecond
      simp only [beq_self_eq_true, bne_self_eq_false, Bool.toNat_true, Bool.toNat_false, Nat.add_zero] at hfirst hsecond
      refine ⟨?_, ?_, hreasons, ?_, ?_, fun hpg => absurd hpg hclaim⟩
      · dsimp only [StatusDesk.withShape] at hended ⊢
        rw [hended, hfirst', hsecond', hretries]
        omega
      · dsimp only [StatusDesk.withShape]
        rw [hway']
        omega
      · dsimp only [StatusDesk.withShape] at hrec ⊢
        rw [hrec, hsecond', hretries]
        omega
      · dsimp only [StatusDesk.withShape]
        rw [hfirst', hretries]
        omega
    case isFalse =>
      refine ⟨?_, ?_, ?_, ?_, ?_, hpage⟩
      · rw [catches_ended, hended]
        dsimp only [StatusDesk.catches, StatusDesk.fails, StatusDesk.withShape]
        omega
      · rw [catches_nulls, beq_self_eq_true]
        dsimp only [StatusDesk.catches, StatusDesk.fails, StatusDesk.withShape, Bool.toNat_true]
        omega
      · rw [catches_ofPath, catches_nulls]
        dsimp only [StatusDesk.withShape]
        rw [hreasons]
      · rw [catches_recovered, hrec]
        dsimp only [StatusDesk.catches, StatusDesk.fails, StatusDesk.withShape]
        omega
      · dsimp only [StatusDesk.catches, StatusDesk.fails, StatusDesk.withShape]
        omega
  · have hshape : (s.withShape r.purpose (countThrow r name s.clock)).shape p = s.shape p :=
      Function.update_of_ne (Ne.symm hp) _ _
    unfold StatusDesk.throws
    dsimp only
    split
    · refine h.other hr hp [{ r with attempt := r.attempt + 1, startedAt := s.clock }] (by simp) rfl hshape rfl rfl ?_
        rfl rfl
      dsimp only
      rw [countOne_apply, beq_false_of_ne hp]
      rfl
    · refine h.other hr hp [] (by simp) rfl ?_ ?_ rfl rfl rfl ?_
      · exact (Function.update_of_ne (Ne.symm hp) _ _).trans hshape
      · rw [catches_ofPath, beq_false_of_ne hp]
        rfl
      · rw [catches_nulls, beq_false_of_ne hp]
        rfl

theorem body (h : Books s p) (hr : r ∈ s.reads) (hanswered : r.answered = true) (body : Except JsString Json) :
    Books (s.body cfg r body) p := by
  unfold StatusDesk.body
  split
  · exact h.catches hr hanswered _
  · exact h.catches hr hanswered _
  · obtain ⟨hattempts, hreads, hreasons, hrecovered, honce, hpage⟩ := h
    obtain ⟨hfirst, hsecond⟩ := tries_of_answered (p := p) hr hanswered
    have hway := countP_close (P := fun r' => r'.purpose == p) hr
    dsimp only [underWay] at hreads
    dsimp only
    split
    · refine ⟨?_, ?_, hreasons, ?_, ?_, hpage⟩
      · dsimp only
        rw [hfirst, hsecond]
        exact hattempts
      · dsimp only [underWay]
        rw [countOne_apply]
        omega
      · dsimp only
        rw [hsecond]
        exact hrecovered
      · dsimp only
        rw [hfirst]
        exact honce
    · refine ⟨?_, ?_, ?_, ?_, ?_, hpage⟩
      · dsimp only [StatusDesk.fails]
        rw [hfirst, hsecond]
        exact hattempts
      · dsimp only [StatusDesk.fails, underWay]
        rw [countOne_apply]
        omega
      · dsimp only [StatusDesk.fails]
        rw [ofPath_record, countOne_apply, hreasons]
      · dsimp only [StatusDesk.fails]
        rw [hsecond]
        exact hrecovered
      · dsimp only [StatusDesk.fails]
        rw [hfirst]
        exact honce

end Books

/-! ## The budget -/

namespace InBudget

variable {cfg} {clock : ℚ} {r : StatusRead}

theorem begin (p : NodeReadPurpose) (clock : ℚ) : InBudget cfg clock ⟨p, clock, 0, clock, false⟩ := by
  have hfirst : 0 < (nodeStatusAttemptsMs cfg.timeoutRaw p).length := by cases p <;> simp [nodeStatusAttemptsMs]
  refine ⟨hfirst, ?_, le_refl _, ?_⟩
  · simp
  · have hnonneg := attempts_nonneg cfg.timeoutRaw p _ (List.getElem_mem hfirst)
    rw [StatusRead.deadline, List.getD_eq_getElem _ _ hfirst]
    exact le_add_of_nonneg_right hnonneg

/-- The next attempt starts where the clock is, which is not past the
deadline of this one. -/
theorem again (h : InBudget cfg clock r)
    (hagain : r.attempt + 1 < (nodeStatusAttemptsMs cfg.timeoutRaw r.purpose).length) :
    InBudget cfg clock { r with attempt := r.attempt + 1, startedAt := clock } := by
  refine ⟨hagain, ?_, le_refl _, ?_⟩
  · have hdeadline := h.deadline
    have hbegan := h.began
    rw [StatusRead.deadline, List.getD_eq_getElem _ _ h.known] at hdeadline
    dsimp only
    rw [List.sum_take_succ _ _ h.known]
    linarith
  · have hnonneg := attempts_nonneg cfg.timeoutRaw r.purpose _ (List.getElem_mem hagain)
    rw [StatusRead.deadline, List.getD_eq_getElem _ _ hagain]
    exact le_add_of_nonneg_right hnonneg

/-- A read is on its first attempt or, where it is a claim's, on its second. -/
theorem retried_once (h : InBudget cfg clock r) : r.attempt ≤ 1 ∧ (r.purpose = .page → r.attempt = 0) := by
  have hknown := h.known
  cases hpurpose : r.purpose with
  | page =>
    rw [hpurpose] at hknown
    have hzero : r.attempt = 0 := Nat.lt_one_iff.mp hknown
    exact ⟨by omega, fun _ => hzero⟩
  | claim =>
    rw [hpurpose] at hknown
    exact ⟨Nat.lt_succ_iff.mp hknown, fun hpage => NodeReadPurpose.noConfusion hpage⟩

/-- A read that is under way is within the budget of its purpose. -/
theorem within (h : InBudget cfg clock r) : clock - r.begunAt ≤ nodeStatusBudgetMs cfg.timeoutRaw r.purpose := by
  have hdeadline := h.deadline
  have hbegan := h.began
  have htake := attempts_take_sum_le cfg.timeoutRaw r.purpose (r.attempt + 1)
  rw [StatusRead.deadline, List.getD_eq_getElem _ _ h.known] at hdeadline
  rw [List.sum_take_succ _ _ h.known] at htake
  linarith

end InBudget

/-! ## Runs -/

namespace DeskInv

variable {cfg} {s s' : StatusDesk}

theorem boot (clock : ℚ) : DeskInv cfg (.boot clock) := by
  refine ⟨fun p => ⟨?_, rfl, rfl, ?_, ?_, fun _ => rfl⟩, by simp [StatusDesk.boot]⟩
  · simp [StatusDesk.boot, emptyCounters, ShapeCounters.ended, ShapeCounters.reads, firstTries, secondTries]
  · simp [StatusDesk.boot, emptyCounters, secondTries]
  · simp [StatusDesk.boot, firstTries]

/-- The reads a step leaves alone stay within their budgets. -/
theorem budget_of (h : DeskInv cfg s) {r : StatusRead} (hclock : s'.clock = s.clock)
    (hreads : ∀ r' ∈ s'.reads, r' ∈ s.reads.erase r ∨ InBudget cfg s.clock r') :
    ∀ r' ∈ s'.reads, InBudget cfg s'.clock r' := by
  intro r' hr'
  rw [hclock]
  exact (hreads r' hr').elim (fun hkept => h.budget r' (List.mem_of_mem_erase hkept)) id

theorem tick (h : DeskInv cfg s) {ms : ℚ} (hms : 0 ≤ ms) (hbound : ∀ r ∈ s.reads, s.clock + ms ≤ r.deadline cfg) :
    DeskInv cfg { s with clock := s.clock + ms } := by
  refine ⟨fun p => ?_, fun r hr => ?_⟩
  · exact (h.books p).of_same rfl rfl rfl rfl rfl rfl rfl rfl rfl
  · have hr' := h.budget r hr
    exact ⟨hr'.known, hr'.began, hr'.started.trans (le_add_of_nonneg_right hms), hbound r hr⟩

theorem answer (h : DeskInv cfg s) {r : StatusRead} (hr : r ∈ s.reads) (hopen : r.answered = false) (status : Nat) :
    DeskInv cfg (s.answer cfg r status) := by
  have hbudget := h.budget r hr
  refine ⟨fun p => (h.books p).answer hr hopen hbudget.started status, h.budget_of (r := r) ?_ fun r' hr' => ?_⟩
  · unfold StatusDesk.answer
    dsimp only
    split <;> rfl
  · unfold StatusDesk.answer at hr'
    dsimp only at hr'
    split at hr'
    · rcases List.mem_cons.mp hr' with rfl | hkept
      · exact .inr ⟨hbudget.known, hbudget.began, hbudget.started, hbudget.deadline⟩
      · exact .inl hkept
    · exact .inl hr'

theorem throws (h : DeskInv cfg s) {r : StatusRead} (hr : r ∈ s.reads) (hopen : r.answered = false)
    (name : JsString) : DeskInv cfg (s.throws cfg r name) := by
  have hbudget := h.budget r hr
  refine ⟨fun p => (h.books p).throws hr hopen name, h.budget_of (r := r) ?_ fun r' hr' => ?_⟩
  · unfold StatusDesk.throws
    dsimp only
    split <;> rfl
  · unfold StatusDesk.throws at hr'
    dsimp only at hr'
    split at hr'
    case isTrue hagain =>
      rcases List.mem_cons.mp hr' with rfl | hkept
      · exact .inr (hbudget.again hagain)
      · exact .inl hkept
    case isFalse => exact .inl hr'

theorem body (h : DeskInv cfg s) {r : StatusRead} (hr : r ∈ s.reads) (hanswered : r.answered = true)
    (answer : Except JsString Json) : DeskInv cfg (s.body cfg r answer) := by
  refine ⟨fun p => (h.books p).body hr hanswered answer, h.budget_of (r := r) ?_ fun r' hr' => .inl ?_⟩
  · unfold StatusDesk.body
    split
    · rfl
    · rfl
    · dsimp only
      split <;> rfl
  · unfold StatusDesk.body at hr'
    split at hr'
    · exact hr'
    · exact hr'
    · dsimp only at hr'
      split at hr' <;> exact hr'

theorem step (h : DeskInv cfg s) {e : StatusEvent} (hstep : s.step cfg e = some s') : DeskInv cfg s' := by
  cases e with
  | tick ms =>
    obtain ⟨⟨hms, hbound⟩, hnext⟩ := Option.ite_none_right_eq_some.mp hstep
    obtain rfl := Option.some.inj hnext
    exact h.tick hms hbound
  | begin p =>
    obtain rfl := Option.some.inj hstep
    refine ⟨fun q => (h.books q).begin p, fun r hr => ?_⟩
    rcases List.mem_cons.mp hr with rfl | hkept
    · exact .begin p s.clock
    · exact h.budget r hkept
  | answered r status =>
    obtain ⟨⟨hr, hopen⟩, hnext⟩ := Option.ite_none_right_eq_some.mp hstep
    obtain rfl := Option.some.inj hnext
    exact h.answer hr hopen status
  | threw r name =>
    obtain ⟨⟨hr, hopen⟩, hnext⟩ := Option.ite_none_right_eq_some.mp hstep
    obtain rfl := Option.some.inj hnext
    exact h.throws hr hopen name
  | body r answer =>
    obtain ⟨⟨hr, hanswered⟩, hnext⟩ := Option.ite_none_right_eq_some.mp hstep
    obtain rfl := Option.some.inj hnext
    exact h.body hr hanswered answer

theorem of_run (clock : ℚ) {events : List StatusEvent}
    (hrun : run (StatusDesk.step cfg) (.boot clock) events = some s) : DeskInv cfg s :=
  run_invariant (DeskInv cfg) (fun _ _ _ hinv hstep => hinv.step hstep) (boot clock) hrun

end DeskInv

/-- Whatever reads are under way at once and whatever becomes of them: an
attempt that ended is in the shape of its purpose once, as one that came
back, was given up on or failed; a read that ended is one that was served or
one null, and the nulls are what the log of failures counts on that path. No
more are counted as recovered than were retried. At no point of a run is a
read past its second attempt, nor a page's past its first, and none is under
way past the budget of its purpose. -/
theorem status_reads_account (clock : ℚ) {events : List StatusEvent} {s : StatusDesk}
    (hrun : run (StatusDesk.step cfg) (.boot clock) events = some s) :
    (∀ p,
      s.begun p + s.retries p =
          (s.shape p).reads + (s.shape p).censored + (s.shape p).failedAttempts +
            s.reads.countP (fun r => r.purpose == p && !r.answered) ∧
        s.begun p = s.served p + s.nulls p + s.reads.countP (fun r => r.purpose == p) ∧
        s.log.ofPath p = s.nulls p ∧
        (s.shape p).recoveredOnRetry ≤ s.retries p ∧ s.retries p ≤ s.begun p ∧ s.retries .page = 0) ∧
      ∀ r ∈ s.reads,
        r.attempt ≤ 1 ∧ (r.purpose = .page → r.attempt = 0) ∧
          s.clock - r.begunAt ≤ nodeStatusBudgetMs cfg.timeoutRaw r.purpose := by
  have hinv : DeskInv cfg s := .of_run clock hrun
  refine ⟨fun p => ?_, fun r hr => ?_⟩
  · obtain ⟨hattempts, hreads, hreasons, hrecovered, honce, -⟩ := hinv.books p
    have htries := tries_split p s.reads
    refine ⟨?_, hreads, hreasons, by omega, by omega, (hinv.books .page).page rfl⟩
    rw [hattempts, ShapeCounters.ended, ← htries]
    omega
  · obtain ⟨honce, hpage⟩ := (hinv.budget r hr).retried_once
    exact ⟨honce, hpage, (hinv.budget r hr).within⟩

/-- A claim whose first attempt is given up on and whose second is served,
and a page that is answered 500. -/
theorem status_reads_account_retry : ∃ (cfg : StatusConfig) (events : List StatusEvent) (s : StatusDesk),
    run (StatusDesk.step cfg) (.boot 5) events = some s ∧
      (s.retries .claim, s.served .claim, s.nulls .page) = (1, 1, 1) ∧
      s.begun .claim + s.retries .claim =
        (s.shape .claim).reads + (s.shape .claim).censored + (s.shape .claim).failedAttempts +
          s.reads.countP (fun r => r.purpose == .claim && !r.answered) ∧
      s.log.ofPath .page = s.nulls .page := by
  let tip : Json := .obj [(js "height", .num (.finite 7))]
  let json : Json := .obj [(js "result", .obj [(js "wallet_tip", tip), (js "node_tip", tip)])]
  let cfg : StatusConfig := ⟨fun _ => js "n", none⟩
  let events : List StatusEvent :=
    [.begin .claim, .tick 4000, .threw ⟨.claim, 5, 0, 5, false⟩ (js "TimeoutError"), .begin .page, .tick 20,
      .answered ⟨.page, 4005, 0, 4005, false⟩ 500, .answered ⟨.claim, 5, 1, 4005, false⟩ 200,
      .body ⟨.claim, 5, 1, 4005, true⟩ (.ok json)]
  have hends : (run (StatusDesk.step cfg) (.boot 5) events).map
      (fun s => (s.retries .claim, s.served .claim, s.nulls .page)) = some (1, 1, 1) := by decide +kernel
  obtain ⟨s, hrun, hcounts⟩ := Option.map_eq_some_iff.mp hends
  have hbooks := (status_reads_account cfg 5 hrun).1
  exact ⟨cfg, events, s, hrun, hcounts, (hbooks .claim).1, (hbooks .page).2.2.1⟩

end ZcashFaucet.Zcash
