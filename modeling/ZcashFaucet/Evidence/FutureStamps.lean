/-
ZcashFaucet.Evidence.FutureStamps — evidence stamped ahead of the clock of
whoever reads it.

Five readers age what they read. The miner's heartbeat, the Crosslink
reply and the Crosslink file call a negative age unreadable or stale. The
box report and the drift audit clamp it to zero, so there the verdict is
what the counts say, however long ago they stopped being true.
-/
import ZcashFaucet.Evidence.BoxIntegrity
import ZcashFaucet.Evidence.CtazRecency
import ZcashFaucet.Miner.Reading

namespace ZcashFaucet.Evidence

open Lib

/-- The text of a field is a date, and this is its time. -/
def Stamped (dateOf : JsString → Option ℤ) (raw : Option Json) (key : JsString) (t : ℤ) : Prop :=
  ∃ text, field? key raw = some (.str text) ∧ dateOf text = some t

/-- The counts of a report are not those of a complete box. -/
def IntegrityReport.CountsFault (r : IntegrityReport) : Prop := r.present < r.expected ∨ 0 < r.notEnabled

/-- An exit code or a count of the audit is not that of a clean one. -/
def DriftReport.CountsFault (d : DriftReport) : Prop :=
  (3 ≤ d.config.rc ∨ 3 ≤ d.access.rc) ∨
  (d.config.rc = 1 ∨ d.access.rc = 1 ∨ 0 < d.config.findings + d.access.findings) ∨
  (0 < d.config.unverified + d.access.unverified ∨ d.config.rc = 2 ∨ d.access.rc = 2)

/-! ## The heartbeat -/

variable {dateOf : JsString → Option ℤ}

theorem ageSeconds_future {raw : Option Json} {key : JsString} {t : ℤ} {nowMs : ℚ} (h : Stamped dateOf raw key t)
    (hfuture : nowMs < t) : Miner.ageSeconds dateOf (field? key raw) nowMs = none := by
  obtain ⟨text, htext, hdate⟩ := h
  rw [htext, Miner.ageSeconds_of_date hdate, if_pos hfuture]

/-- A miner is running only by a beat and a template that both have an age. -/
theorem ages_of_running {raw : Option Json} {nowMs : ℚ}
    (h : (Miner.readingFor dateOf raw nowMs).state = .running) :
    (Miner.ageSeconds dateOf (field? (js "writtenAt") raw) nowMs).isSome = true ∧
      (Miner.ageSeconds dateOf (field? (js "lastTemplateAt") raw) nowMs).isSome = true := by
  unfold Miner.readingFor at h
  split at h
  case h_2 => cases h
  case h_1 j =>
    split at h
    case isFalse => cases h
    case isTrue =>
      split at h
      case h_2 => cases h
      case h_1 staleAfter templateStaleAfter beatAgo _ _ hbeat =>
        refine ⟨by rw [show field? (js "writtenAt") (some j) = j.field (js "writtenAt") from rfl, hbeat]; rfl, ?_⟩
        rw [show field? (js "lastTemplateAt") (some j) = j.field (js "lastTemplateAt") from rfl]
        cases htemplate : Miner.ageSeconds dateOf (j.field (js "lastTemplateAt")) nowMs with
        | some ago => rfl
        | none =>
            have hfacts : (Miner.factsOf dateOf j beatAgo nowMs).templateAgoSeconds = none := htemplate
            simp only [Miner.stateOf, hfacts, Option.all_none, if_true] at h
            split at h
            · cases h
            · split at h <;> cases h

theorem heartbeat_future {raw : Option Json} {t : ℤ} {nowMs : ℚ} (hfuture : nowMs < t)
    (h : Stamped dateOf raw (js "writtenAt") t ∨ Stamped dateOf raw (js "lastTemplateAt") t) :
    (Miner.readingFor dateOf raw nowMs).state ≠ .running := by
  intro hrunning
  obtain ⟨hbeat, htemplate⟩ := ages_of_running hrunning
  rcases h with h | h
  · rw [ageSeconds_future h hfuture] at hbeat
    cases hbeat
  · rw [ageSeconds_future h hfuture] at htemplate
    cases htemplate

/-! ## The box -/

/-- A report that carries its stamp is one the box could write. -/
theorem readable_of_reportedAt {parsed : Option Json} {r : IntegrityReport} {t : ℚ}
    (hread : readBoxIntegrity parsed = some r) (hstamp : r.reportedAt = some t) : r.readable = true := by
  obtain ⟨j, -, hj⟩ := Option.bind_eq_some_iff.mp hread
  split at hj
  case h_1 =>
    obtain rfl := Option.some.inj hj
    cases hstamp
  case h_2 =>
    obtain ⟨expected, -, hj⟩ := Option.bind_eq_some_iff.mp hj
    obtain ⟨present, -, hj⟩ := Option.bind_eq_some_iff.mp hj
    obtain ⟨notEnabled, -, hj⟩ := Option.bind_eq_some_iff.mp hj
    obtain ⟨reportedAt, -, hj⟩ := Option.bind_eq_some_iff.mp hj
    obtain rfl := Option.some.inj hj
    rfl

variable {numText : ℚ → JsString} {nowMs t : ℚ}

/-- A stamp ahead of the clock makes the age zero, and leaves the counts. -/
theorem judgeReport_future {r : IntegrityReport} {drift : DriftStatus} (hfuture : nowMs < t) :
    (judgeReport numText r t nowMs drift).state ≠ .complete ↔ r.CountsFault := by
  have hage : max 0 (nowMs - t) = 0 := max_eq_left (sub_neg.mpr hfuture).le
  have hfresh : ¬ staleAfterMs < 0 := by norm_num [staleAfterMs]
  have hmissing : 0 < max 0 (r.expected - r.present) ↔ r.present < r.expected := by
    rw [lt_max_iff, sub_pos]
    simp
  unfold judgeReport IntegrityReport.CountsFault
  simp only [hage, hfresh, if_false, hmissing]
  split
  case isTrue hfault => simp [hfault]
  case isFalse hfault => simp [hfault]

theorem driftVerdict_clean_iff {d : DriftReport} :
    (driftVerdict numText d).1 ≠ .clean ↔ d.CountsFault := by
  unfold driftVerdict DriftReport.CountsFault
  dsimp only
  split
  case isTrue h => simp [h]
  case isFalse h =>
    split
    case isTrue h' => simp [h']
    case isFalse h' =>
      split
      case isTrue h'' => simp [h'']
      case isFalse h'' => simp [h, h', h'']

theorem classifyDrift_future {d : DriftReport} (hfuture : nowMs < d.auditedAt) :
    (classifyDrift numText (some (some d)) nowMs).state ≠ .clean ↔ d.CountsFault := by
  have hage : max 0 (nowMs - d.auditedAt) = 0 := max_eq_left (sub_neg.mpr hfuture).le
  have hfresh : ¬ driftStaleAfterMs < 0 := by norm_num [driftStaleAfterMs]
  unfold classifyDrift
  simp only [hage, hfresh, if_false]
  exact driftVerdict_clean_iff

/-- **Evidence stamped ahead of the reader's clock.** The heartbeat, the
Crosslink reply and the Crosslink file are never running, ready or fresh,
whatever texts `Date.parse` takes for dates. The box is not complete, and
the audit not clean, exactly if the counts they report are not. -/
theorem future_stamps (numText : ℚ → JsString) (dateOf : JsString → Option ℤ) (nowMs : ℚ) :
    (∀ raw (t : ℤ), nowMs < t → Stamped dateOf raw (js "writtenAt") t ∨ Stamped dateOf raw (js "lastTemplateAt") t →
      (Miner.readingFor dateOf raw nowMs).state ≠ .running) ∧
    (∀ raw t, nowMs < t * 1000 → finiteNumber (field? (js "now_utc") raw) = some t →
      (readingFor raw nowMs).state ≠ .ready) ∧
    (∀ parsed t, nowMs < t → (readCtazStatusFile parsed).writtenAt = some t →
      statusIsStale (readCtazStatusFile parsed) nowMs = true ∧
        (readingOffFile (readCtazStatusFile parsed) nowMs).state ≠ .ready) ∧
    (∀ parsed r t, nowMs < t → readBoxIntegrity parsed = some r → r.reportedAt = some t →
      ((classifyIntegrity numText (readBoxIntegrity parsed) nowMs).state ≠ .complete ↔ r.CountsFault)) ∧
    (∀ parsed r d, nowMs < d.auditedAt → readBoxIntegrity parsed = some r → r.drift = some (some d) →
      ((classifyIntegrity numText (readBoxIntegrity parsed) nowMs).drift.state ≠ .clean ↔
        d.CountsFault)) := by
  refine ⟨fun raw t hfuture h => heartbeat_future hfuture h, ?_, ?_, ?_, ?_⟩
  · intro raw t hfuture hstamp
    rw [readingFor_future hstamp hfuture]
    decide
  · intro parsed t hfuture hstamp
    have hstale := statusIsStale_future hstamp hfuture
    refine ⟨hstale, ?_⟩
    rw [readingOffFile_of_stale hstale]
    decide
  · intro parsed r t hfuture hread hstamp
    rw [hread, classifyIntegrity]
    simp only [readable_of_reportedAt hread hstamp, hstamp]
    exact judgeReport_future hfuture
  · intro parsed r d hfuture hread hdrift
    have hcarried : (classifyIntegrity numText (some r) nowMs).drift =
        classifyDrift numText (some (some d)) nowMs := by
      rw [classifyIntegrity, Option.bind_some, hdrift]
      split
      · unfold judgeReport
        dsimp only
        split
        · rfl
        · split <;> rfl
      · rfl
    rw [hread, hcarried]
    exact classifyDrift_future hfuture

/-! ## A report of the year 2100 -/

def numJson (q : ℚ) : Json := .num (.finite q)

def quietAudit : Json :=
  .obj [(js "rc", numJson 0), (js "findings", numJson 0), (js "unverified", numJson 0)]

/-- A report and an audit with nothing wrong but the stamp and the number
of files. -/
def reportOf (stamp present : ℚ) : Json :=
  .obj [(js "readable", .bool true), (js "expected", numJson 15), (js "present", numJson present),
    (js "notEnabled", numJson 0), (js "at", numJson stamp),
    (js "drift", .obj [(js "at", numJson stamp), (js "config", quietAudit), (js "access", quietAudit)])]

/-- A file is missing, so the report is not taken for complete. -/
theorem future_stamps_missing :
    (classifyIntegrity (fun _ => js "1") (readBoxIntegrity (some (reportOf 4102444800000 14)))
      1800000000000).state ≠ .complete := by
  obtain ⟨-, -, -, hbox, -⟩ := future_stamps (fun _ => js "1") dateParse 1800000000000
  refine (hbox _ _ 4102444800000 (by norm_num) (show readBoxIntegrity _ = some _ from rfl) rfl).mpr (.inl ?_)
  show (14 : ℚ) < 15
  norm_num

/-- In 2027 this report is complete and its audit clean, as fresh as can be,
and will be for another 73 years. -/
theorem future_report_complete :
    ((classifyIntegrity (fun _ => js "1") (readBoxIntegrity (some (reportOf 4102444800000 15)))
        1800000000000).state,
      (classifyIntegrity (fun _ => js "1") (readBoxIntegrity (some (reportOf 4102444800000 15)))
        1800000000000).drift.state,
      (classifyIntegrity (fun _ => js "1") (readBoxIntegrity (some (reportOf 4102444800000 15)))
        1800000000000).ageSeconds) = (.complete, .clean, some 0) ∧
    (readBoxIntegrity (some (reportOf 4102444800000 15))).bind IntegrityReport.reportedAt =
      some 4102444800000 ∧
    isIntegrityFailing (classifyIntegrity (fun _ => js "1")
      (readBoxIntegrity (some (reportOf 4102444800000 15))) 1800000000000) = false := by
  decide +kernel

end ZcashFaucet.Evidence
