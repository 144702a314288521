/-
ZcashFaucet.Api.SendWindow — does the window of `zcash/sendHealth.ts` hold
the evidence its verdict needs?

The route records a send when `queue.run` answers it, so MIN_SAMPLE sends
that run back to back and never resolve are recorded as far apart as the
queue spaces them (`Zcash.QueueTiming`): by the residence of each. The
window is derived from the deadline. `windowFits_iff` is when it holds all
of them.
-/
import ZcashFaucet.Api.FaucetRoute
import ZcashFaucet.Reserve.Residence
import ZcashFaucet.Zcash.QueueTiming
import ZcashFaucet.Zcash.SendHealth

namespace ZcashFaucet.Api

open Lib Db Zcash Reserve

/-! ## The log -/

/-- A call of `recordSend`. -/
structure SendReport where
  outcome : SendOutcome
  network : FaucetNetwork
  sentAt : ℚ
  unanswered : Bool
  deriving DecidableEq, Repr

/-- What it pushes. -/
def SendReport.toRecord (p : SendReport) : SendLogRecord := ⟨p.outcome, p.sentAt, some p.network, p.unanswered⟩

/-- The log after some calls. -/
def recordAll (windowMs : ℚ) (reports : List SendReport) (log : List SendLogRecord) : List SendLogRecord :=
  reports.foldl (fun log p => recordSend windowMs p.outcome p.network p.sentAt p.unanswered log) log

section

variable {windowMs now : ℚ}

theorem sublist_dropWhile {β : Type} {p : β → Bool} {l log : List β} (h : l.Sublist log)
    (hl : ∀ x ∈ l, p x = false) : l.Sublist (log.dropWhile p) := by
  induction h with
  | slnil => exact .slnil
  | @cons l log x hsub ih =>
    rw [List.dropWhile_cons]
    split
    · exact ih hl
    · exact hsub.cons x
  | @cons_cons l log x hsub ih =>
    rw [List.dropWhile_cons, if_neg (by simp [hl x List.mem_cons_self])]
    exact hsub.cons_cons x

/-- A call of `recordSend` forgets nothing that is still in the window. -/
theorem sublist_recordSend {l log : List SendLogRecord} (h : l.Sublist log) (p : SendReport) (hp : p.sentAt ≤ now)
    (hl : ∀ r ∈ l, now - windowMs ≤ r.sentAt) :
    l.Sublist (recordSend windowMs p.outcome p.network p.sentAt p.unanswered log) := by
  refine sublist_dropWhile (h.trans (List.sublist_append_left _ _)) fun r hr => ?_
  have hlive := hl r hr
  simp only [decide_eq_false_iff_not, not_lt]
  linarith

/-- Nor the record it pushes, where that is in the window. -/
theorem sublist_recordSend_concat {l log : List SendLogRecord} (h : l.Sublist log) (p : SendReport)
    (hp : p.sentAt ≤ now) (hl : ∀ r ∈ l, now - windowMs ≤ r.sentAt) (hlive : now - windowMs ≤ p.sentAt) :
    (l ++ [p.toRecord]).Sublist (recordSend windowMs p.outcome p.network p.sentAt p.unanswered log) := by
  refine sublist_dropWhile (h.append (List.Sublist.refl _)) fun r hr => ?_
  have hr' : now - windowMs ≤ r.sentAt := by
    rcases List.mem_append.mp hr with hr | hr
    · exact hl r hr
    · rw [List.mem_singleton.mp hr]
      exact hlive
  simp only [decide_eq_false_iff_not, not_lt]
  linarith

/-- What is in the window at the end is in the log. -/
theorem sublist_recordAll (network : FaucetNetwork) {reports : List SendReport} {l log : List SendLogRecord}
    (hreports : ∀ p ∈ reports, p.sentAt ≤ now)
    (hlive : ∀ p ∈ reports, p.network = network → now - windowMs ≤ p.sentAt)
    (h : l.Sublist log) (hl : ∀ r ∈ l, now - windowMs ≤ r.sentAt) :
    (l ++ (reports.filter fun p => p.network = network).map SendReport.toRecord).Sublist
      (recordAll windowMs reports log) := by
  induction reports generalizing l log with
  | nil => simpa [recordAll] using h
  | cons p reports ih =>
    have hp := hreports p List.mem_cons_self
    have hrest := fun q hq => hreports q (List.mem_cons_of_mem p hq)
    have hrest' := fun q hq => hlive q (List.mem_cons_of_mem p hq)
    by_cases hnetwork : p.network = network
    · have hplive := hlive p List.mem_cons_self hnetwork
      have hstep := sublist_recordSend_concat h p hp hl hplive
      have hall : ∀ r ∈ l ++ [p.toRecord], now - windowMs ≤ r.sentAt := by
        intro r hr
        rcases List.mem_append.mp hr with hr | hr
        · exact hl r hr
        · rw [List.mem_singleton.mp hr]
          exact hplive
      have hind := ih hrest hrest' hstep hall
      rw [List.filter_cons_of_pos (by simp [hnetwork]), List.map_cons]
      simpa [recordAll] using hind
    · rw [List.filter_cons_of_neg (by simp [hnetwork])]
      exact ih hrest hrest' (sublist_recordSend h p hp hl) hl

/-- Where nothing succeeded, MIN_SAMPLE unresolved sends are a verdict. -/
theorem degraded_of_unresolved {records : List SendLogRecord} {network : FaucetNetwork}
    (hok : ∀ r ∈ liveRecords windowMs now network records, r.outcome ≠ .ok)
    (hunknown : minSample ≤ (liveRecords windowMs now network records).countP fun r => r.outcome == .unknown) :
    (readSendHealth windowMs now records network).state = .degraded := by
  have hnone : ((liveRecords windowMs now network records).countP fun r => r.outcome == .ok) = 0 :=
    List.countP_eq_zero.mpr fun r hr => by simpa using hok r hr
  have hkind : ((liveRecords windowMs now network records).countP fun r => r.outcome == .unknown && r.unanswered) ≤
      (liveRecords windowMs now network records).countP fun r => r.outcome == .unknown :=
    List.countP_mono_left fun r _ h => (Bool.and_eq_true_iff.mp h).1
  unfold readSendHealth
  dsimp only
  rw [hnone]
  split
  · rw [if_pos ⟨rfl, by omega⟩]
  · rename_i hdecided
    rw [Nat.zero_add, minSample] at hdecided
    rw [Nat.zero_add, div_self (Nat.cast_ne_zero.mpr (by omega)), if_pos (by norm_num [failRatio])]

end

/-! ## Sends that never resolve -/

/-- MIN_SAMPLE sends that run back to back, each for up to the residence,
and never resolve: any run of the queue that comes to their answers. -/
structure UnresolvedSends (cfg : QueueSettings) where
  maxPending : Nat
  bootedAt : ℚ
  first : Nat
  events : List (QueueEvent Settlement)
  final : QueueRun Settlement
  runs : run (Stretch.step ⟨first, minSample, sendResidenceMs cfg⟩) (.new maxPending bootedAt) events = some final
  answer : Nat → Answer Settlement
  unanswered : Nat → Bool
  recordedAt : Nat → ℚ
  answered : ∀ k < minSample,
    Answered final (first + k) cfg.sendTaskDeadlineMs (answer k) (recordedAt k)
  unresolved : ∀ k < minSample, sendRecord (answer k) = some (.unknown (unanswered k))

namespace UnresolvedSends

variable {cfg : QueueSettings} (sends : UnresolvedSends cfg)

/-- What the route reports of them. -/
def reports (network : FaucetNetwork) : List SendReport :=
  (List.range minSample).map fun k => ⟨.unknown, network, sends.recordedAt k, sends.unanswered k⟩

/-- When the last of them is recorded. -/
def lastRecordedAt : ℚ := sends.recordedAt (minSample - 1)

end UnresolvedSends

/-- The window holds such sends, and their verdict is that the wallet is
not finishing sends, unless one that succeeded is in the window as well.
`all` is what is recorded meanwhile: of this network only these sends. -/
def WindowFits (cfg : QueueSettings) : Prop :=
  ∀ (sends : UnresolvedSends cfg) (network : FaucetNetwork) (all : List SendReport) (earlier : List SendLogRecord),
    (all.filter fun p => p.network = network) = sends.reports network →
    (∀ p ∈ all, p.sentAt ≤ sends.lastRecordedAt) →
      let windowMs := windowFor cfg.sendTaskDeadlineMs
      let log := recordAll windowMs all earlier
      let live := liveRecords windowMs sends.lastRecordedAt network log
      ((sends.reports network).map SendReport.toRecord).Sublist live ∧
        ((∀ r ∈ live, r.outcome ≠ .ok) →
          (readSendHealth windowMs sends.lastRecordedAt log network).state = .degraded)

theorem timeoutDelay_le_residence (cfg : QueueSettings) :
    timeoutDelay cfg.sendTaskDeadlineMs ≤ sendResidenceMs cfg :=
  (timeoutDelay_le (by linarith [cfg.deadline_floor])).trans (le_max_left _ _)

/-- The sends are recorded within two residences. -/
theorem UnresolvedSends.within {cfg : QueueSettings} (sends : UnresolvedSends cfg) {k : Nat} (hk : k < minSample) :
    sends.lastRecordedAt - 2 * sendResidenceMs cfg ≤ sends.recordedAt k := by
  have hpos := sendResidenceMs_pos cfg
  have hresidence : 0 ≤ (⟨sends.first, minSample, sendResidenceMs cfg⟩ : Stretch).residence := hpos.le
  obtain ⟨hspacing, done, hr⟩ := spacing_run hresidence sends.runs
  have hwithin := hspacing.answers_within hr (show 0 < cfg.sendTaskDeadlineMs by linarith [cfg.deadline_floor])
    (timeoutDelay_le_residence cfg) (fun k hk => ⟨_, sends.answered k hk⟩) (k := k) (minSample - 1 - k)
    (show k + (minSample - 1 - k) < minSample by omega)
  rw [show k + (minSample - 1 - k) = minSample - 1 by omega] at hwithin
  have hcount : ((minSample - 1 - k : Nat) : ℚ) ≤ 2 := by
    exact_mod_cast (show minSample - 1 - k ≤ 2 by rw [minSample]; omega)
  have hspan := mul_le_mul_of_nonneg_right hcount hpos.le
  unfold UnresolvedSends.lastRecordedAt
  linarith

/-- A window of two residences fits. -/
theorem windowFits_of_le {cfg : QueueSettings}
    (h : 2 * sendResidenceMs cfg ≤ windowFor cfg.sendTaskDeadlineMs) : WindowFits cfg := by
  intro sends network all earlier hall hbefore
  dsimp only
  have hlive : ∀ p ∈ all, p.network = network →
      sends.lastRecordedAt - windowFor cfg.sendTaskDeadlineMs ≤ p.sentAt := by
    intro p hp hnetwork
    have hmem : p ∈ sends.reports network := hall ▸ List.mem_filter.mpr ⟨hp, by simp [hnetwork]⟩
    obtain ⟨k, hk, rfl⟩ := List.mem_map.mp hmem
    have hwithin := sends.within (List.mem_range.mp hk)
    dsimp only
    linarith
  have hlog := sublist_recordAll network hbefore hlive (List.nil_sublist earlier) (by simp)
  rw [hall, List.nil_append] at hlog
  have hsub : ((sends.reports network).map SendReport.toRecord).Sublist
      (liveRecords (windowFor cfg.sendTaskDeadlineMs) sends.lastRecordedAt network
        (recordAll (windowFor cfg.sendTaskDeadlineMs) all earlier)) := by
    have hfilter := hlog.filter fun r => decide (r.sentAt ≥ sends.lastRecordedAt - windowFor cfg.sendTaskDeadlineMs) &&
      r.network.getD defaultNetwork == network
    rwa [List.filter_eq_self.mpr] at hfilter
    intro r hr
    obtain ⟨p, hp, rfl⟩ := List.mem_map.mp hr
    rw [← hall] at hp
    obtain ⟨hp, hnetwork⟩ := List.mem_filter.mp hp
    have hnetwork : p.network = network := by simpa using hnetwork
    simp [SendReport.toRecord, hnetwork]
    linarith [hlive p hp hnetwork]
  refine ⟨hsub, fun hok => degraded_of_unresolved hok (le_trans ?_ hsub.countP_le)⟩
  simp [UnresolvedSends.reports, SendReport.toRecord, List.countP_map, Function.comp_def]

/-! ## They can be two residences apart -/

/-- MIN_SAMPLE sends held for the whole residence, whose deadline answers. -/
def heldJobs (cfg : QueueSettings) : HeldJobs Settlement where
  count := minSample
  deadlineMs := cfg.sendTaskDeadlineMs
  residence := sendResidenceMs cfg
  out := .error (.outcomeUnknown (js "opid-1") (js "timeout"))
  deadline_pos := by linarith [cfg.deadline_floor]
  delay_le := timeoutDelay_le_residence cfg

def heldSends (cfg : QueueSettings) : UnresolvedSends cfg where
  maxPending := minSample
  bootedAt := 0
  first := 0
  events := (heldJobs cfg).trace
  final := (heldJobs cfg).after minSample
  runs := (heldJobs cfg).runs
  answer _ := .deadline
  unanswered _ := false
  recordedAt k := k * sendResidenceMs cfg + timeoutDelay cfg.sendTaskDeadlineMs
  answered k hk := by
    rw [Nat.zero_add]
    exact HeldJobs.answered hk
  unresolved _ _ := rfl

theorem heldSends_reports (cfg : QueueSettings) (network : FaucetNetwork) :
    ((heldSends cfg).reports network).filter (fun p => p.network = network) = (heldSends cfg).reports network := by
  refine List.filter_eq_self.mpr fun p hp => ?_
  obtain ⟨k, -, rfl⟩ := List.mem_map.mp hp
  simp

theorem heldSends_before (cfg : QueueSettings) (network : FaucetNetwork) :
    ∀ p ∈ (heldSends cfg).reports network, p.sentAt ≤ (heldSends cfg).lastRecordedAt := by
  intro p hp
  obtain ⟨k, hk, rfl⟩ := List.mem_map.mp hp
  have hpos := sendResidenceMs_pos cfg
  have hlast : (k : ℚ) ≤ (minSample - 1 : Nat) := by
    exact_mod_cast Nat.le_sub_one_of_lt (List.mem_range.mp hk)
  have hspan := mul_le_mul_of_nonneg_right hlast hpos.le
  simp only [UnresolvedSends.lastRecordedAt, heldSends]
  linarith

theorem le_of_windowFits {cfg : QueueSettings} (h : WindowFits cfg) :
    2 * sendResidenceMs cfg ≤ windowFor cfg.sendTaskDeadlineMs := by
  have hfits := h (heldSends cfg) .taz ((heldSends cfg).reports .taz) [] (heldSends_reports cfg .taz)
    (heldSends_before cfg .taz)
  have hsub := hfits.1
  have hmem : SendReport.toRecord ⟨.unknown, .taz, (heldSends cfg).recordedAt 0, false⟩ ∈
      ((heldSends cfg).reports .taz).map SendReport.toRecord :=
    List.mem_map.mpr ⟨_, List.mem_map.mpr ⟨0, List.mem_range.mpr (by decide), rfl⟩, rfl⟩
  have hlive := (Bool.and_eq_true_iff.mp (List.mem_filter.mp (hsub.subset hmem)).2).1
  have hlive := of_decide_eq_true hlive
  simp only [SendReport.toRecord, UnresolvedSends.lastRecordedAt, heldSends, minSample] at hlive
  push_cast at hlive
  linarith

/-! ## When it fits -/

theorem fits_iff (cfg : QueueSettings) :
    2 * sendResidenceMs cfg ≤ windowFor cfg.sendTaskDeadlineMs ↔
      senderWorstCaseMs cfg.zallet.toSenderTimings ≤ cfg.sendTaskDeadlineMs + 30000 ∨
        senderWorstCaseMs cfg.zallet.toSenderTimings ≤ 450000 := by
  have hsample : (minSample - 1 : ℚ) = 2 := by norm_num [minSample]
  rw [windowFor, hsample, sendResidenceMs, mul_max_of_nonneg _ _ (by norm_num), max_le_iff, le_max_iff, le_max_iff]
  constructor
  · rintro ⟨-, h | h⟩
    · exact Or.inr (by linarith)
    · exact Or.inl (by linarith)
  · rintro (h | h)
    · exact ⟨Or.inr (by linarith), Or.inr (by linarith)⟩
    · exact ⟨Or.inr (by linarith), Or.inl (by linarith)⟩

/-- **When the window holds the evidence.** -/
theorem windowFits_iff (cfg : QueueSettings) :
    WindowFits cfg ↔
      senderWorstCaseMs cfg.zallet.toSenderTimings ≤ cfg.sendTaskDeadlineMs + 30000 ∨
        senderWorstCaseMs cfg.zallet.toSenderTimings ≤ 450000 := by
  rw [← fits_iff]
  exact ⟨le_of_windowFits, windowFits_of_le⟩

/-- An operation timeout of ten minutes beside a deadline of one. -/
def pinnedDeadline : QueueSettings where
  zallet :=
    { stockZallet with
      opTimeoutMs := 600000
      rpcTimeoutMs := 15000
      pollMs := 1500
      opTimeout_floor := by norm_num
      rpcTimeout_floor := pollsEachMinute.zallet.rpcTimeout_floor
      poll_floor := by norm_num
      poll_whole := by norm_num }
  shield := pollsEachMinute.shield
  gates := pollsEachMinute.gates
  crosslink := pollsEachMinute.crosslink
  sendTaskDeadlineMs := 60000
  deadline_floor := by norm_num
  nodeStatusTimeoutMs := 12000
  nodeStatus_floor := pollsEachMinute.nodeStatus_floor
  socket := pollsEachMinute.socket

/-- Three sends that are lost 699 seconds apart, and too few to judge. -/
theorem lost_sends_too_few :
    sendResidenceMs pinnedDeadline = 699000 ∧ windowFor pinnedDeadline.sendTaskDeadlineMs = 900000 ∧
      (readSendHealth 900000 (heldSends pinnedDeadline).lastRecordedAt
        (recordAll 900000 ((heldSends pinnedDeadline).reports .taz) []) .taz).state = .unknown ∧
      ¬ WindowFits pinnedDeadline := by
  have hworst : senderWorstCaseMs pinnedDeadline.zallet.toSenderTimings = 699000 := by
    rw [senderWorstCaseMs_eq]
    norm_num [pinnedDeadline]
  have hresidence : sendResidenceMs pinnedDeadline = 699000 := by
    rw [sendResidenceMs, hworst]
    norm_num [pinnedDeadline]
  have hwindow : windowFor pinnedDeadline.sendTaskDeadlineMs = 900000 := by
    norm_num [windowFor, minSample, pinnedDeadline]
  have hdelay : timeoutDelay pinnedDeadline.sendTaskDeadlineMs = 60000 := by
    norm_num [timeoutDelay, timeoutMax, pinnedDeadline]
  have hat (k : Nat) : (heldSends pinnedDeadline).recordedAt k = k * 699000 + 60000 := by
    show (k : ℚ) * sendResidenceMs pinnedDeadline + timeoutDelay pinnedDeadline.sendTaskDeadlineMs = _
    rw [hresidence, hdelay]
  have hreports : (heldSends pinnedDeadline).reports .taz =
      [⟨.unknown, .taz, 60000, false⟩, ⟨.unknown, .taz, 759000, false⟩, ⟨.unknown, .taz, 1458000, false⟩] := by
    norm_num [UnresolvedSends.reports, minSample, List.range_succ, hat]
    simp [heldSends]
  have hlast : (heldSends pinnedDeadline).lastRecordedAt = 1458000 := by
    norm_num [UnresolvedSends.lastRecordedAt, hat, minSample]
  refine ⟨hresidence, hwindow, ?_, ?_⟩
  · rw [hreports, hlast]
    decide +kernel
  · intro h
    have hle := le_of_windowFits h
    rw [hresidence, hwindow] at hle
    exact absurd hle (by norm_num)

end ZcashFaucet.Api
