/-
ZcashFaucet.Miner.WaitingTheorems — does the page call the miner that the
sync guard holds back a waiting one?

The history is taken apart twice. `waitBegan` is the time of the hold that
opened the wait still running, and the writer's `waitingSince` is that time
after every history (`replay_waitingSince`). `errorFree` says that no call
has failed since the latest template, and the writer's error count is zero
exactly then (`replay_consecutiveErrors`). The reader asks for both
(`readingFor_waiting`), but only the first is what a hold establishes: an
error stays counted through every reading of the guard until a template is
fetched, and a miner held back fetches none.
-/
import ZcashFaucet.Miner.Heartbeat
import ZcashFaucet.Miner.Reading
import Mathlib.Data.List.Induction

namespace ZcashFaucet.Miner

open Lib

/-! ## Histories -/

/-- What the loop recorded, oldest first, each with its reading of the clock. -/
abbrev History := List (UInt64 × Recorded)

def State.replay (s : State) (es : History) : State := es.foldl (fun s e => s.record e.1 e.2) s

theorem State.replay_concat (s : State) (es : History) (e : UInt64 × Recorded) :
    s.replay (es ++ [e]) = (s.replay es).record e.1 e.2 := by
  simp [State.replay, List.foldl_append]

/-- What an error or a reading of the guard says about mining. -/
inductive Verdict
  | error
  | hold
  | mine
  deriving DecidableEq, Repr

def Recorded.verdict : Recorded → Option Verdict
  | .error _ => some .error
  | .nodeLag _ (some _) => some .hold
  | .nodeLag _ none => some .mine
  | _ => none

def Recorded.isTemplate : Recorded → Bool
  | .templateOk _ => true
  | _ => false

def Recorded.isError : Recorded → Bool
  | .error _ => true
  | _ => false

/-- The error and guard events, the latest first. -/
def verdicts (es : History) : List (UInt64 × Verdict) :=
  es.reverse.filterMap fun e => e.2.verdict.map fun v => (e.1, v)

def lastVerdict (es : History) : Option Verdict := (verdicts es).head?.map Prod.snd

/-- The time of the hold that opened the wait still running. -/
def waitBegan (es : History) : Option UInt64 :=
  ((verdicts es).takeWhile fun v => v.2 == .hold).getLast?.map Prod.fst

/-- No call has failed since the latest template, or since the start. -/
def errorFree (es : History) : Bool :=
  (es.reverse.takeWhile fun e => !e.2.isTemplate).all fun e => !e.2.isError

/-! ## What the writer keeps -/

theorem verdicts_concat (es : History) (now : UInt64) (r : Recorded) :
    verdicts (es ++ [(now, r)]) = (r.verdict.map fun v => (now, v)).toList ++ verdicts es := by
  cases h : r.verdict <;> simp [verdicts, h]

/-- What one event makes of the wait still running. -/
def waitAfter (now : UInt64) : Option Verdict → Option UInt64 → Option UInt64
  | none, began => began
  | some .hold, began => some (began.getD now)
  | some _, _ => none

theorem waitBegan_concat (es : History) (now : UInt64) (r : Recorded) :
    waitBegan (es ++ [(now, r)]) = waitAfter now r.verdict (waitBegan es) := by
  rw [waitBegan, verdicts_concat]
  cases r.verdict with
  | none => rfl
  | some v =>
      cases v with
      | hold =>
          rw [Option.map_some, Option.toList_some, List.singleton_append,
            List.takeWhile_cons_of_pos rfl, List.getLast?_cons, waitAfter, waitBegan]
          cases ((verdicts es).takeWhile fun v => v.2 == .hold).getLast? <;> rfl
      | error => rfl
      | mine => rfl

theorem record_waitingSince (now : UInt64) (s : State) (r : Recorded) :
    (s.record now r).waitingSince = waitAfter now r.verdict s.waitingSince := by
  cases r with
  | nodeLag lag waiting => cases waiting <;> rfl
  | submitted accepted => cases accepted <;> rfl
  | _ => rfl

/-- The wait clock of the writer. -/
theorem replay_waitingSince {s : State} (hs : s.waitingSince = none) (es : History) :
    (s.replay es).waitingSince = waitBegan es := by
  induction es using List.reverseRecOn with
  | nil => exact hs
  | append_singleton es e ih =>
      obtain ⟨now, r⟩ := e
      rw [State.replay_concat, record_waitingSince, ih, waitBegan_concat]

theorem errorFree_concat (es : History) (now : UInt64) (r : Recorded) :
    errorFree (es ++ [(now, r)]) = (r.isTemplate || (!r.isError && errorFree es)) := by
  rw [errorFree, List.reverse_concat, List.takeWhile_cons]
  cases r.isTemplate <;> simp [errorFree]

/-- The error count of the writer. -/
theorem replay_consecutiveErrors {s : State} (hs : s.consecutiveErrors = 0) (es : History) :
    (s.replay es).consecutiveErrors = 0 ↔ errorFree es = true := by
  induction es using List.reverseRecOn with
  | nil => exact iff_of_true hs rfl
  | append_singleton es e ih =>
      obtain ⟨now, r⟩ := e
      rw [State.replay_concat, errorFree_concat]
      cases r with
      | templateOk height => exact iff_of_true rfl rfl
      | error stage => exact iff_of_false (saturatingSucc_ne_zero _) Bool.false_ne_true
      | nodeLag lag waiting => exact ih
      | solved => exact ih
      | submitted accepted => cases accepted <;> exact ih
      | rejected reason => exact ih
      | abandoned => exact ih
      | discarded => exact ih

theorem waitBegan_isSome_iff (es : History) : (waitBegan es).isSome ↔ lastVerdict es = some .hold := by
  rw [waitBegan, lastVerdict, Option.isSome_map]
  cases hverdicts : verdicts es with
  | nil => simp
  | cons v vs =>
      by_cases hv : v.2 = .hold
      · simp [hv]
      · simp [hv]

/-! ## What the reader makes of it -/

/-- The reader can take this stamp: it has a year of four digits and is not
ahead of the reader's clock. -/
structure Readable (stamp : UInt64) (nowMs : ℚ) : Prop where
  year : stamp.toNat < longYears
  past : 1000 * (stamp.toNat : ℚ) ≤ nowMs

/-- The file written at `now` is no older than its own threshold. -/
structure Fresh (now : UInt64) (s : State) (nowMs : ℚ) : Prop where
  readable : Readable now nowMs
  young : (nowMs - 1000 * now.toNat) / 1000 ≤ saturatingMul s.beatSecs.val 6

theorem ageSeconds_stamp {t : UInt64} {nowMs : ℚ} (h : Readable t nowMs) :
    ageSeconds dateParse (some (.str (rfc3339 t.toNat))) nowMs = some ((nowMs - 1000 * t.toNat) / 1000) := by
  rw [ageSeconds_of_date (dateParse_rfc3339 h.year)]
  push_cast
  rw [if_neg (not_lt.mpr h.past)]

theorem ageSeconds_stamp_eq_none {t : UInt64} {nowMs : ℚ} (h : ¬ Readable t nowMs) :
    ageSeconds dateParse (some (.str (rfc3339 t.toNat))) nowMs = none := by
  by_cases hyear : t.toNat < longYears
  · have hahead : nowMs < 1000 * (t.toNat : ℚ) := lt_of_not_ge fun hle => h ⟨hyear, hle⟩
    rw [ageSeconds_of_date (dateParse_rfc3339 hyear)]
    push_cast
    rw [if_pos hahead]
  · rw [ageSeconds, dateParse_rfc3339_eq_none (Nat.le_of_not_lt hyear)]

theorem ageSeconds_jsonStamp (stamp : Option UInt64) (nowMs : ℚ) :
    (ageSeconds dateParse (some (jsonStamp stamp)) nowMs).isSome ↔ ∃ t, stamp = some t ∧ Readable t nowMs := by
  cases stamp with
  | none => simp [jsonStamp, ageSeconds]
  | some t =>
      by_cases h : Readable t nowMs
      · simp [jsonStamp, ageSeconds_stamp h, h]
      · simp [jsonStamp, ageSeconds_stamp_eq_none h, h]

theorem one_le_saturatingMul (n : {n : UInt64 // 1 ≤ n}) : 1 ≤ saturatingMul n.val 6 := by
  have h : 1 ≤ n.val.toNat := UInt64.le_iff_toNat_le.mp n.property
  unfold saturatingMul
  omega

theorem positiveNumber_jsonNat {n : Nat} (h : 1 ≤ n) : positiveNumber (some (jsonNat n)) = some (n : ℚ) := by
  have : (0 : ℚ) < n := by exact_mod_cast h
  simp [positiveNumber, jsonNat, this]

section

variable (now : UInt64) (s : State)

theorem render_schema : (render now s).field (js "schema") = some (jsonNat schema) := rfl

theorem render_writtenAt : (render now s).field (js "writtenAt") = some (.str (rfc3339 now.toNat)) := rfl

theorem render_staleAfter : (render now s).field (js "staleAfterSeconds") =
    some (jsonNat (saturatingMul s.beatSecs.val 6)) := rfl

theorem render_templateStaleAfter : (render now s).field (js "templateStaleAfterSeconds") =
    some (jsonNat (saturatingMul s.templateSecs.val 6)) := rfl

theorem render_consecutiveErrors : (render now s).field (js "consecutiveErrors") =
    some (jsonNat s.consecutiveErrors.toNat) := rfl

theorem render_waitingSince :
    (render now s).field (js "waitingSince") = some (jsonStamp s.waitingSince) := rfl

end

theorem stateOf_waiting {facts : MinerFacts} {beatAgo staleAfter templateStaleAfter : ℚ}
    (h : ¬ staleAfter < beatAgo) :
    stateOf facts beatAgo staleAfter templateStaleAfter = .waiting ↔
      facts.waitingAgoSeconds.isSome ∧ facts.consecutiveErrors = some (.finite 0) := by
  rw [stateOf, if_neg h]
  split
  · simp_all
  · split <;> simp_all

/-- A fresh file is taken apart. -/
theorem readingFor_render {now : UInt64} {s : State} {nowMs : ℚ} (h : Readable now nowMs) :
    let facts := factsOf dateParse (render now s) ((nowMs - 1000 * now.toNat) / 1000) nowMs
    readingFor dateParse (some (render now s)) nowMs =
      ⟨facts, stateOf facts ((nowMs - 1000 * now.toNat) / 1000) (saturatingMul s.beatSecs.val 6)
        (saturatingMul s.templateSecs.val 6)⟩ := by
  have hschema : numberOf ((render now s).field (js "schema")) = some (.finite 1) := by
    rw [render_schema]
    simp [numberOf, jsonNat, schema]
  have hstale := positiveNumber_jsonNat (one_le_saturatingMul s.beatSecs)
  have htemplate := positiveNumber_jsonNat (one_le_saturatingMul s.templateSecs)
  rw [← render_staleAfter now s] at hstale
  rw [← render_templateStaleAfter now s] at htemplate
  have hbeat := ageSeconds_stamp h
  rw [← render_writtenAt now s] at hbeat
  rw [readingFor]
  rw [if_pos hschema, hstale, htemplate, hbeat]

/-- A fresh file reads as waiting when its wait has a stamp the reader can
take and no error stands beside it. -/
theorem readingFor_waiting {now : UInt64} {s : State} {nowMs : ℚ} (h : Fresh now s nowMs) :
    (readingFor dateParse (some (render now s)) nowMs).state = .waiting ↔
      (∃ t, s.waitingSince = some t ∧ Readable t nowMs) ∧ s.consecutiveErrors = 0 := by
  have hwait : (factsOf dateParse (render now s) ((nowMs - 1000 * now.toNat) / 1000) nowMs).waitingAgoSeconds =
      ageSeconds dateParse (some (jsonStamp s.waitingSince)) nowMs := by
    rw [← render_waitingSince now s, factsOf]
  have herrors : (factsOf dateParse (render now s) ((nowMs - 1000 * now.toNat) / 1000) nowMs).consecutiveErrors =
      some (.finite s.consecutiveErrors.toNat) := by
    rw [factsOf, render_consecutiveErrors]
    rfl
  rw [readingFor_render h.readable]
  rw [stateOf_waiting (not_lt.mpr h.young), hwait, herrors, ageSeconds_jsonStamp]
  simp [← UInt64.toNat_inj]

/-! ## Agreement -/

/-- The fresh file of every history is read as its latest verdict says, as
long as no hold stands on an error that no template has followed, or on a
wait whose stamp the reader cannot take. -/
theorem waiting_agrees (mode : Mode) (startedAt beatSecs templateSecs : UInt64) (counts : Counts)
    (es : History) (now : UInt64) (nowMs : ℚ) :
    let s := (State.seeded mode startedAt beatSecs templateSecs counts).replay es
    let state := (readingFor dateParse (some (render now s)) nowMs).state
    Fresh now s nowMs →
      ((lastVerdict es = some .hold → state = .waiting) ∧
          (lastVerdict es = some .error ∨ lastVerdict es = some .mine → state ≠ .waiting) ↔
        (lastVerdict es = some .hold →
          errorFree es = true ∧ ∀ t, waitBegan es = some t → Readable t nowMs)) := by
  intro s state hfresh
  have hwaiting : state = .waiting ↔
      (∃ t, waitBegan es = some t ∧ Readable t nowMs) ∧ errorFree es = true := by
    rw [readingFor_waiting hfresh, replay_waitingSince rfl, replay_consecutiveErrors rfl]
  have hbegan := waitBegan_isSome_iff es
  constructor
  · rintro ⟨hagree, -⟩ hhold
    obtain ⟨⟨t, hbegan, hreadable⟩, herrors⟩ := hwaiting.mp (hagree hhold)
    refine ⟨herrors, ?_⟩
    rintro u hu
    rw [hbegan] at hu
    exact Option.some.inj hu ▸ hreadable
  · intro hcond
    refine ⟨?_, ?_⟩
    · intro hhold
      obtain ⟨t, ht⟩ := Option.isSome_iff_exists.mp (hbegan.mpr hhold)
      obtain ⟨herrors, hstamp⟩ := hcond hhold
      exact hwaiting.mpr ⟨⟨t, ht, hstamp t ht⟩, herrors⟩
    · rintro hlast hstate
      obtain ⟨⟨t, ht, _⟩, _⟩ := hwaiting.mp hstate
      have hhold : lastVerdict es = some .hold := hbegan.mp (by rw [ht]; rfl)
      rcases hlast with hlast | hlast
      · rw [hlast] at hhold
        exact absurd hhold (by decide)
      · rw [hlast] at hhold
        exact absurd hhold (by decide)

/-- A miner held back by the lag guard and then by the peer guard, after it
had mined, with a discard in between. -/
def heldMiner : State :=
  (State.seeded .submit 1785020400 10 8 Counts.unknown).replay
    [(1785020405, .nodeLag 2 none), (1785020406, .templateOk 4237523),
      (1785020500, .nodeLag 120 (some .behind)), (1785020501, .discarded),
      (1785020530, .nodeLag 0 (some .noPeers))]

theorem waiting_agrees_held :
    (readingFor dateParse (some (render 1785020540 heldMiner)) 1785020545250).state = .waiting := by
  have hfresh : Fresh 1785020540 heldMiner 1785020545250 :=
    ⟨⟨by decide +kernel, by decide +kernel⟩, by decide +kernel⟩
  have hstamp : ∀ t, some (1785020500 : UInt64) = some t → Readable t 1785020545250 := by
    rintro t ⟨⟩
    exact ⟨by decide +kernel, by decide +kernel⟩
  exact ((waiting_agrees .submit 1785020400 10 8 Counts.unknown _ 1785020540 1785020545250 hfresh).mpr
    fun _ => ⟨by decide, hstamp⟩).1 (by decide)

/-- A call fails, the next ones answer and the node is behind. -/
def erredThenHeld : History :=
  [(1785020415, .error .getblockchaininfo), (1785020425, .nodeLag 1443 (some .behind))]

/-- The same hold reads as stalled on a miner that has not mined yet, and as
running on one that has. -/
theorem waiting_disagrees :
    let idle := (State.seeded .submit 1785020400 10 8 Counts.unknown).replay erredThenHeld
    let mined := (State.seeded .submit 1785020400 10 8 Counts.unknown).replay
      ([(1785020405, .nodeLag 2 none), (1785020406, .templateOk 4237523)] ++ erredThenHeld)
    lastVerdict erredThenHeld = some .hold ∧
      Fresh 1785020440 idle 1785020445250 ∧ Fresh 1785020440 mined 1785020445250 ∧
      (readingFor dateParse (some (render 1785020440 idle)) 1785020445250).state = .stalled ∧
      (readingFor dateParse (some (render 1785020440 mined)) 1785020445250).state = .running := by
  intro idle mined
  refine ⟨by decide, ?_, ?_, by decide +kernel, by decide +kernel⟩
  · exact ⟨⟨by decide +kernel, by decide +kernel⟩, by decide +kernel⟩
  · exact ⟨⟨by decide +kernel, by decide +kernel⟩, by decide +kernel⟩

end ZcashFaucet.Miner
