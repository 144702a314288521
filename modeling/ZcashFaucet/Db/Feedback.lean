/-
ZcashFaucet.Db.Feedback — what visitors type, `recordFeedback` of
`db/index.ts`.

A call that gets past its own checks makes two statements, a count and an
INSERT, each awaited. `FeedbackRun` is the table with every call that is
under way on it, whichever process it belongs to; `sawUpTo` is a ghost, the
id the table was at when the call counted. A statement whose answer is lost
may have run.

A call inserts on the strength of a count that is as old as its await.
`FeedbackRun.HasRoom` says that the count still leaves room for the rows
that came after it, and `quota_of_room` that nothing else is needed.
-/
import ZcashFaucet.Lib.JsTrim
import ZcashFaucet.Lib.Modify
import ZcashFaucet.Lib.RollingWindow
import ZcashFaucet.Lib.Run
import Mathlib.Data.Rat.Floor
import Mathlib.Tactic.Linarith

namespace ZcashFaucet.Db

open Lib

/-! ## The limits -/

/-- MAX_FEEDBACK_BODY. -/
def maxFeedbackBody : Nat := 2000

/-- MAX_FEEDBACK_REPLY_TO. -/
def maxFeedbackReplyTo : Nat := 200

/-- FEEDBACK_PER_DAY. -/
def feedbackPerDay : Nat := 5

/-- FEEDBACK_RETENTION_SECONDS. -/
def feedbackRetentionSeconds : Int := 30 * 86400

/-! ## The table -/

/-- A row of `feedback` as it is inserted. -/
structure FeedbackRow where
  id : Nat
  createdAt : Int
  body : JsString
  replyTo : Option JsString
  ipHash : String
  deriving DecidableEq, Repr

/-- FEEDBACK_RECENT_SQL. -/
def feedbackRecentSql (key : String) (since : Int) (rows : List FeedbackRow) : Nat :=
  rows.countP fun r => r.ipHash == key && decide (since ≤ r.createdAt)

/-- FEEDBACK_PURGE_SQL. -/
def feedbackPurgeSql (cutoff : Int) (rows : List FeedbackRow) : List FeedbackRow :=
  rows.filter fun r => !decide (r.createdAt < cutoff)

/-! ## A call -/

structure FeedbackOpts where
  body : JsString
  replyTo : Option JsString
  ipHash : Option String
  now : ℚ

inductive FeedbackResult
  | ok
  | empty
  | tooLong
  | rate
  | ledger
  deriving DecidableEq, Repr

/-- What a call does before its first statement. -/
def validateFeedback (opts : FeedbackOpts) : Except FeedbackResult (JsString × Option JsString) :=
  let body := trim opts.body
  if body.length = 0 then .error .empty
  else if body.length > maxFeedbackBody then .error .tooLong
  else
    let replyTo := orNull (opts.replyTo.map trim)
    if replyTo.any fun r => decide (r.length > maxFeedbackReplyTo) then .error .tooLong
    else .ok (body, replyTo)

inductive FeedbackStage
  | counting
  | inserting (recent sawUpTo : Nat)
  | answered (result : FeedbackResult)
  deriving DecidableEq, Repr

/-- A call under way. -/
structure FeedbackCall where
  body : JsString
  replyTo : Option JsString
  key : String
  /-- `Math.floor(opts.now / 1000)`. -/
  seconds : Int
  stage : FeedbackStage
  deriving DecidableEq, Repr

/-- Callers without a fingerprint share one bucket. -/
def feedbackKey (ipHash : Option String) : String := ipHash.getD "anon"

/-- The start of a call. -/
def FeedbackCall.start (opts : FeedbackOpts) : FeedbackCall :=
  match validateFeedback opts with
  | .error result => ⟨[], none, feedbackKey opts.ipHash, ⌊opts.now / 1000⌋, .answered result⟩
  | .ok (body, replyTo) => ⟨body, replyTo, feedbackKey opts.ipHash, ⌊opts.now / 1000⌋, .counting⟩

def FeedbackCall.since (c : FeedbackCall) : Int := c.seconds - 86400

def FeedbackCall.row (c : FeedbackCall) (id : Nat) : FeedbackRow := ⟨id, c.seconds, c.body, c.replyTo, c.key⟩

/-! ## Calls and the table -/

/-- The rows are newest first. -/
structure FeedbackRun where
  rows : List FeedbackRow
  nextId : Nat
  calls : List FeedbackCall

inductive FeedbackEvent
  | call (opts : FeedbackOpts)
  | count (i : Nat)
  | insert (i : Nat) (delivered : Bool)
  | fail (i : Nat)
  | purge (nowMs : ℚ)

namespace FeedbackRun

def new : FeedbackRun := ⟨[], 1, []⟩

def setStage (i : Nat) (stage : FeedbackStage) (s : FeedbackRun) : FeedbackRun :=
  { s with calls := s.calls.modify i fun c => { c with stage := stage } }

/-- The count, and the refusal. -/
def count (i : Nat) (s : FeedbackRun) : Option FeedbackRun :=
  match s.calls[i]? with
  | some c =>
      if c.stage = .counting then
        let recent := feedbackRecentSql c.key c.since s.rows
        some (s.setStage i (if recent ≥ feedbackPerDay then .answered .rate else .inserting recent s.nextId))
      else none
  | none => none

/-- The INSERT runs, and its answer arrives or is lost. -/
def insert (i : Nat) (delivered : Bool) (s : FeedbackRun) : Option FeedbackRun :=
  match s.calls[i]? with
  | some c =>
      match c.stage with
      | .inserting _ _ =>
          some
            { s.setStage i (.answered (if delivered then .ok else .ledger)) with
              rows := c.row s.nextId :: s.rows
              nextId := s.nextId + 1 }
      | _ => none
  | none => none

/-- A statement that did not run. -/
def fail (i : Nat) (s : FeedbackRun) : Option FeedbackRun :=
  match s.calls[i]? with
  | some c =>
      match c.stage with
      | .answered _ => none
      | _ => some (s.setStage i (.answered .ledger))
  | none => none

/-- `purgeFeedback`. -/
def purge (nowMs : ℚ) (s : FeedbackRun) : FeedbackRun :=
  { s with rows := feedbackPurgeSql (⌊nowMs / 1000⌋ - feedbackRetentionSeconds) s.rows }

def step (s : FeedbackRun) : FeedbackEvent → Option FeedbackRun
  | .call opts => some { s with calls := s.calls ++ [.start opts] }
  | .count i => s.count i
  | .insert i delivered => s.insert i delivered
  | .fail i => s.fail i
  | .purge nowMs => some (s.purge nowMs)

/-! ## The quota -/

/-- At most FEEDBACK_PER_DAY rows of a key in the day that ends with one of
them. -/
def KeepsQuota (s : FeedbackRun) : Prop :=
  ∀ last ∈ s.rows, (s.rows.countP fun r => r.ipHash == last.ipHash &&
    decide (last.createdAt - 86400 ≤ r.createdAt ∧ r.createdAt ≤ last.createdAt)) ≤ feedbackPerDay

instance (s : FeedbackRun) : Decidable s.KeepsQuota :=
  inferInstanceAs (Decidable (∀ last ∈ s.rows, _))

/-- The rows of a key that came after a count. -/
def insertedSince (key : String) (sawUpTo : Nat) (s : FeedbackRun) : Nat :=
  s.rows.countP fun r => r.ipHash == key && decide (sawUpTo ≤ r.id)

/-- A call that is about to insert was overtaken by no more inserts of its
key than the rows it counted leave room for. -/
def HasRoom (s : FeedbackRun) : FeedbackEvent → Prop
  | .insert i _ => ∀ c ∈ s.calls[i]?, ∀ recent sawUpTo, c.stage = .inserting recent sawUpTo →
      recent + s.insertedSince c.key sawUpTo < feedbackPerDay
  | _ => True

instance (s : FeedbackRun) : (ev : FeedbackEvent) → Decidable (s.HasRoom ev)
  | .insert i _ =>
      match hc : s.calls[i]? with
      | none => isTrue (by simp [HasRoom, hc])
      | some c =>
          match hstage : c.stage with
          | .inserting recent sawUpTo =>
              decidable_of_iff (recent + s.insertedSince c.key sawUpTo < feedbackPerDay)
                (by simp [HasRoom, hc, hstage])
          | .counting => isTrue (by simp [HasRoom, hc, hstage])
          | .answered _ => isTrue (by simp [HasRoom, hc, hstage])
  | .call _ => isTrue trivial
  | .count _ => isTrue trivial
  | .fail _ => isTrue trivial
  | .purge _ => isTrue trivial

/-- The steps of a run in which every insert has room. -/
def roomyStep (s : FeedbackRun) (ev : FeedbackEvent) : Option FeedbackRun :=
  if s.HasRoom ev then s.step ev else none

end FeedbackRun

/-! ## A day of a key -/

/-- Rows of one key, each weighed with those before it that its own count
would find. -/
def feedbackLimit : Limit FeedbackRow where
  weight _ := 1
  near x a := a.ipHash == x.ipHash && decide (x.createdAt - 86400 ≤ a.createdAt)
  bound := feedbackPerDay

structure FeedbackInv (s : FeedbackRun) : Prop where
  standing : feedbackLimit.Standing (fun _ => true) s.rows
  ids : ∀ r ∈ s.rows, r.id < s.nextId
  /-- A count only goes down among the rows it saw. -/
  counted : ∀ c ∈ s.calls, ∀ recent sawUpTo, c.stage = .inserting recent sawUpTo →
    sawUpTo ≤ s.nextId ∧
      (s.rows.countP fun r => (r.ipHash == c.key && decide (c.since ≤ r.createdAt)) && decide (r.id < sawUpTo)) ≤ recent

namespace FeedbackInv

variable {s s' : FeedbackRun}

theorem sum_map_one (l : List FeedbackRow) : (l.map feedbackLimit.weight).sum = l.length := by
  induction l with
  | nil => rfl
  | cons r l ih =>
    rw [List.map_cons, List.sum_cons, ih, List.length_cons]
    exact Nat.add_comm 1 _

/-- **Every day of a key is within the quota.** -/
theorem keepsQuota (h : FeedbackInv s) : s.KeepsQuota := by
  intro last _
  have hwindow := h.standing.window_le
    (W := fun r => r.ipHash == last.ipHash &&
      decide (last.createdAt - 86400 ≤ r.createdAt ∧ r.createdAt ≤ last.createdAt))
    (fun _ _ _ => rfl) (fun x _ a _ hx ha => ?_)
  · rwa [sum_map_one, ← List.countP_eq_length_filter] at hwindow
  · simp only [Bool.and_eq_true, beq_iff_eq, decide_eq_true_eq] at hx ha
    simp only [feedbackLimit, Bool.and_eq_true, beq_iff_eq, decide_eq_true_eq]
    exact ⟨ha.1.trans hx.1.symm, by omega⟩

theorem new : FeedbackInv .new where
  standing := trivial
  ids := by simp [FeedbackRun.new]
  counted := by simp [FeedbackRun.new]

/-- A call that does not come to insert leaves the rest as it is. -/
theorem setStage (h : FeedbackInv s) {i : Nat} {stage : FeedbackStage}
    (hstage : ∀ c ∈ s.calls[i]?, ∀ recent sawUpTo, stage = .inserting recent sawUpTo →
      sawUpTo ≤ s.nextId ∧ (s.rows.countP fun r =>
        (r.ipHash == c.key && decide (c.since ≤ r.createdAt)) && decide (r.id < sawUpTo)) ≤ recent) :
    FeedbackInv (s.setStage i stage) where
  standing := h.standing
  ids := h.ids
  counted := forall_mem_modify h.counted fun c hc => hstage c hc

theorem count (h : FeedbackInv s) {i : Nat} (hs : s.count i = some s') : FeedbackInv s' := by
  unfold FeedbackRun.count at hs
  split at hs
  · rename_i c hc
    split at hs
    · obtain rfl := Option.some.inj hs
      refine h.setStage fun c' hc' recent sawUpTo heq => ?_
      obtain rfl : c = c' := Option.some.inj (hc.symm.trans hc')
      split at heq
      · cases heq
      · obtain ⟨rfl, rfl⟩ := FeedbackStage.inserting.inj heq
        exact ⟨le_refl _, List.countP_mono_left fun r _ hr => (Bool.and_eq_true_iff.mp hr).1⟩
    · cases hs
  · cases hs

/-- A row that finds room keeps the limit. -/
theorem insert (h : FeedbackInv s) {i : Nat} {delivered : Bool} (hroom : s.HasRoom (.insert i delivered))
    (hs : s.insert i delivered = some s') : FeedbackInv s' := by
  unfold FeedbackRun.insert at hs
  split at hs
  case h_2 => cases hs
  case h_1 c hc =>
    split at hs
    case h_2 => cases hs
    case h_1 recent sawUpTo hstage =>
      obtain rfl := Option.some.inj hs
      obtain ⟨hsaw, hcounted⟩ := h.counted c (List.mem_of_getElem? hc) recent sawUpTo hstage
      have hfree := hroom c hc recent sawUpTo hstage
      refine ⟨h.standing.push ?_, ?_, ?_⟩
      · -- what its own count would find now: the rows it saw, and those since
        have hload : feedbackLimit.load (fun _ => true) (c.row s.nextId) s.rows =
            s.rows.countP fun r => r.ipHash == c.key && decide (c.since ≤ r.createdAt) := by
          rw [Limit.load, sum_map_one, ← List.countP_eq_length_filter]
          simp only [Bool.and_true]
          rfl
        have hsplit := List.countP_eq_countP_filter_add s.rows
          (fun r => r.ipHash == c.key && decide (c.since ≤ r.createdAt)) fun r => decide (r.id < sawUpTo)
        have hlate : (s.rows.countP fun r => (r.ipHash == c.key && decide (c.since ≤ r.createdAt)) &&
            !decide (r.id < sawUpTo)) ≤ s.insertedSince c.key sawUpTo := by
          refine List.countP_mono_left fun r _ hr => ?_
          simp only [Bool.and_eq_true, Bool.not_eq_true', decide_eq_false_iff_not, not_lt] at hr ⊢
          exact ⟨hr.1.1, by simpa using hr.2⟩
        simp only [List.countP_filter] at hsplit
        rw [hload]
        show 1 + _ ≤ feedbackPerDay
        omega
      · intro r hr
        rcases List.mem_cons.mp hr with rfl | hr
        · exact Nat.lt_succ_self _
        · exact Nat.lt_succ_of_lt (h.ids r hr)
      · refine forall_mem_modify (fun b hb recent sawUpTo hb' => ?_) fun b _ recent sawUpTo hb' => by cases hb'
        obtain ⟨hle, hcount⟩ := h.counted b hb recent sawUpTo hb'
        refine ⟨Nat.le_succ_of_le hle, ?_⟩
        -- the new row is none of those that were counted
        have hnew : ¬ s.nextId < sawUpTo := not_lt.mpr hle
        rw [List.countP_cons_of_neg (by simp [FeedbackCall.row, hnew])]
        exact hcount

theorem fail (h : FeedbackInv s) {i : Nat} (hs : s.fail i = some s') : FeedbackInv s' := by
  unfold FeedbackRun.fail at hs
  split at hs
  · split at hs
    · cases hs
    · obtain rfl := Option.some.inj hs
      exact h.setStage fun _ _ _ _ heq => by cases heq
  · cases hs

theorem purge (h : FeedbackInv s) (nowMs : ℚ) : FeedbackInv (s.purge nowMs) where
  standing := h.standing.filter _
  ids r hr := h.ids r (List.mem_of_mem_filter hr)
  counted c hc recent sawUpTo hstage := by
    obtain ⟨hle, hcount⟩ := h.counted c hc recent sawUpTo hstage
    exact ⟨hle, (List.filter_sublist.countP_le).trans hcount⟩

theorem step (h : FeedbackInv s) {ev : FeedbackEvent} (hs : s.roomyStep ev = some s') : FeedbackInv s' := by
  unfold FeedbackRun.roomyStep at hs
  split at hs
  case isFalse => cases hs
  case isTrue hroom =>
    cases ev with
    | call opts =>
      obtain rfl := Option.some.inj hs
      refine ⟨h.standing, h.ids, fun c hc recent sawUpTo hstage => ?_⟩
      rcases List.mem_append.mp hc with hc | hc
      · exact h.counted c hc recent sawUpTo hstage
      · rw [List.mem_singleton.mp hc, FeedbackCall.start] at hstage
        split at hstage <;> cases hstage
    | count i => exact h.count hs
    | insert i delivered => exact h.insert hroom hs
    | fail i => exact h.fail hs
    | purge nowMs => exact Option.some.inj hs ▸ h.purge nowMs

end FeedbackInv

/-- **The quota holds** in every run in which every insert has room. -/
theorem quota_of_room (es : List FeedbackEvent) (s : FeedbackRun)
    (h : run FeedbackRun.roomyStep .new es = some s) : s.KeepsQuota :=
  (run_invariant FeedbackInv (fun _ _ _ hs hstep => hs.step hstep) FeedbackInv.new h).keepsQuota

/-! ## Calls that meet -/

def someFeedback : FeedbackOpts := ⟨js "The page says queued.", none, some "fp", 1757500000000⟩

/-- A call with nobody in between. -/
def aloneCall (i : Nat) : List FeedbackEvent := [.call someFeedback, .count i, .insert i true]

/-- Four calls after one another, then two that both count four. -/
def twoCountFour : List FeedbackEvent :=
  aloneCall 0 ++ aloneCall 1 ++ aloneCall 2 ++ aloneCall 3 ++
    [.call someFeedback, .call someFeedback, .count 4, .count 5, .insert 4 true, .insert 5 true]

/-- The clocks of the calls, in order. -/
def clocksOf (es : List FeedbackEvent) : List ℚ :=
  es.filterMap fun ev => match ev with
    | .call opts => some opts.now
    | _ => none

/-- Six rows in one second, and each of the six calls was answered ok. -/
theorem six_in_a_day :
    (clocksOf twoCountFour).Pairwise (· ≤ ·) ∧
    (run FeedbackRun.step .new twoCountFour).map (fun s => (s.rows.length, s.calls.map FeedbackCall.stage)) =
      some (6, List.replicate 6 (.answered .ok)) ∧
    ∃ s, run FeedbackRun.step .new twoCountFour = some s ∧ ¬ s.KeepsQuota := by
  have hover : (run FeedbackRun.step .new twoCountFour).map (fun s => decide s.KeepsQuota) = some false := by
    decide +kernel
  obtain ⟨s, hs, hquota⟩ := Option.map_eq_some_iff.mp hover
  exact ⟨by decide +kernel, by decide +kernel, s, hs, of_decide_eq_false hquota⟩

/-- Six calls after one another, the last of which is refused. -/
def sixCalls : List FeedbackEvent :=
  aloneCall 0 ++ aloneCall 1 ++ aloneCall 2 ++ aloneCall 3 ++ aloneCall 4 ++ [.call someFeedback, .count 5]

theorem quota_of_room_sixCalls :
    ∃ s, run FeedbackRun.roomyStep .new sixCalls = some s ∧
      s.calls[5]?.map FeedbackCall.stage = some (.answered .rate) ∧ s.KeepsQuota := by
  have hrate : (run FeedbackRun.roomyStep .new sixCalls).map (fun s => s.calls[5]?.map FeedbackCall.stage) =
      some (some (.answered .rate)) := by decide +kernel
  obtain ⟨s, hs, hstage⟩ := Option.map_eq_some_iff.mp hrate
  exact ⟨s, hs, hstage, quota_of_room sixCalls s hs⟩

end ZcashFaucet.Db
