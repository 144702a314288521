/-
ZcashFaucet.Api.SendHealthLaws — what one more record does to the verdict
of `zcash/sendHealth.ts`.

A verdict reads three numbers of the live records: the sends that went
out, those that count against the wallet (a failure, a lost reply) and
those it holds back. `SendEvidence` orders them, more against the wallet
upwards, and `degraded` is an upper set of that order
(`SendEvidence.degraded_mono`), so a law about a record is a comparison of
the evidence with it and without it. Trimming on write forgets only what no
later window holds.
-/
import ZcashFaucet.Api.SendWindow

namespace ZcashFaucet.Api

open Db Zcash

/-! ## Evidence -/

/-- What a verdict weighs. -/
@[ext]
structure SendEvidence where
  ok : Nat
  /-- Failures and lost replies. -/
  failing : Nat
  /-- Unresolved, where the wallet took the job. -/
  heldBack : Nat

namespace SendEvidence

/-- No fewer sends that went out, and no more of the others. -/
instance : LE SendEvidence :=
  ⟨fun e f => f.ok ≤ e.ok ∧ e.failing ≤ f.failing ∧ e.heldBack ≤ f.heldBack⟩

theorem le_def {e f : SendEvidence} : e ≤ f ↔ f.ok ≤ e.ok ∧ e.failing ≤ f.failing ∧ e.heldBack ≤ f.heldBack :=
  Iff.rfl

def state (e : SendEvidence) : SendHealthState :=
  if e.ok + e.failing < minSample then
    if e.ok = 0 ∧ (e.heldBack + e.failing ≥ minSample ∨ e.failing ≥ failAlone) then .degraded else .unknown
  else if e.ok ≤ e.failing then .degraded
  else .ok

/-- Nothing went out and enough did not, or half of a sample failed. -/
theorem state_degraded_iff {e : SendEvidence} :
    e.state = .degraded ↔
      (e.ok = 0 ∧ (3 ≤ e.heldBack + e.failing ∨ 2 ≤ e.failing)) ∨ (3 ≤ e.ok + e.failing ∧ e.ok ≤ e.failing) := by
  unfold state
  split <;> split <;> rename_i hsample hcount <;> simp [minSample, failAlone] at * <;> omega

/-- **More evidence against a wallet leaves it degraded.** A send that went
out, taken away from a sample of three, leaves two failures alone. -/
theorem degraded_mono {e f : SendEvidence} (h : e ≤ f) (hdegraded : e.state = .degraded) : f.state = .degraded := by
  rw [le_def] at h
  rw [state_degraded_iff] at hdegraded ⊢
  omega

end SendEvidence

section

variable (windowMs now : ℚ) (network : FaucetNetwork)

/-- The evidence about a network's wallet in the window. -/
def sendEvidence (records : List SendLogRecord) : SendEvidence :=
  let live := liveRecords windowMs now network records
  { ok := live.countP fun r => r.outcome == .ok
    failing := (live.countP fun r => r.outcome == .failed) +
      live.countP fun r => r.outcome == .unknown && r.unanswered
    heldBack := (live.countP fun r => r.outcome == .unknown) -
      live.countP fun r => r.outcome == .unknown && r.unanswered }

theorem failRatio_le_iff {ok failing : Nat} (h : 0 < ok + failing) :
    ((failing / (ok + failing : Nat) : ℚ) ≥ failRatio) ↔ ok ≤ failing := by
  have hpos : (0 : ℚ) < (ok + failing : Nat) := by exact_mod_cast h
  rw [ge_iff_le, failRatio, div_le_div_iff₀ (by norm_num) hpos, one_mul]
  constructor
  · intro hle
    have hle : ok + failing ≤ failing * 2 := by exact_mod_cast hle
    omega
  · intro hle
    exact_mod_cast (show ok + failing ≤ failing * 2 by omega)

/-- The verdict is that of the evidence. -/
theorem readSendHealth_state (records : List SendLogRecord) :
    (readSendHealth windowMs now records network).state = (sendEvidence windowMs now network records).state := by
  unfold readSendHealth sendEvidence SendEvidence.state
  dsimp only
  generalize (if _ > 0 then "failed or went unanswered" else "failed") = failingWord
  split
  · split
    · rename_i h
      rw [if_pos ⟨h.1, Or.inl h.2⟩]
    · rename_i hheld
      split
      · rename_i h
        rw [if_pos ⟨h.1, Or.inr h.2⟩]
      · rename_i halone
        rw [if_neg fun h => h.2.elim (fun h' => hheld ⟨h.1, h'⟩) fun h' => halone ⟨h.1, h'⟩]
  · rename_i hsample
    have hpos := lt_of_lt_of_le (show 0 < minSample by decide) (not_lt.mp hsample)
    simp only [failRatio_le_iff hpos]
    split <;> rfl

end

/-! ## One more record -/

section

variable {windowMs now : ℚ} {network : FaucetNetwork}

/-- A verdict does not see the order of the live records. -/
theorem readSendHealth_congr {records records' : List SendLogRecord}
    (h : (liveRecords windowMs now network records).Perm (liveRecords windowMs now network records')) :
    readSendHealth windowMs now records network = readSendHealth windowMs now records' network := by
  unfold readSendHealth
  simp only [h.countP_eq]

/-- A record is counted wherever it lies. -/
theorem readSendHealth_insert (front back : List SendLogRecord) (r : SendLogRecord) :
    readSendHealth windowMs now (front ++ r :: back) network =
      readSendHealth windowMs now (r :: (front ++ back)) network :=
  readSendHealth_congr (List.perm_middle.filter _)

/-- One that is not counted changes nothing. -/
theorem readSendHealth_cons_of_not_live (records : List SendLogRecord) {r : SendLogRecord}
    (h : ¬ (now - windowMs ≤ r.sentAt ∧ r.network.getD defaultNetwork = network)) :
    readSendHealth windowMs now (r :: records) network = readSendHealth windowMs now records network := by
  have hlive : liveRecords windowMs now network (r :: records) = liveRecords windowMs now network records := by
    rw [liveRecords, List.filter_cons_of_neg (by simpa using h), liveRecords]
  exact readSendHealth_congr (hlive ▸ List.Perm.refl _)

theorem liveRecords_cons_of_live (records : List SendLogRecord) {r : SendLogRecord}
    (h : now - windowMs ≤ r.sentAt ∧ r.network.getD defaultNetwork = network) :
    liveRecords windowMs now network (r :: records) = r :: liveRecords windowMs now network records := by
  rw [liveRecords, List.filter_cons_of_pos (by simpa using h), liveRecords]

/-- What a record adds to the evidence, by its outcome. -/
theorem sendEvidence_cons (records : List SendLogRecord) {r : SendLogRecord}
    (h : now - windowMs ≤ r.sentAt ∧ r.network.getD defaultNetwork = network) :
    let e := sendEvidence windowMs now network records
    sendEvidence windowMs now network (r :: records) =
      match r.outcome, r.unanswered with
      | .ok, _ => { e with ok := e.ok + 1 }
      | .failed, _ => { e with failing := e.failing + 1 }
      | .unknown, true => { e with failing := e.failing + 1 }
      | .unknown, false => { e with heldBack := e.heldBack + 1 }
      | .refused, _ => e := by
  have hle : ((liveRecords windowMs now network records).countP fun r => r.outcome == .unknown && r.unanswered) ≤
      (liveRecords windowMs now network records).countP fun r => r.outcome == .unknown :=
    List.countP_mono_left fun r _ h => (Bool.and_eq_true_iff.mp h).1
  obtain ⟨outcome, sentAt, on, unanswered⟩ := r
  simp only [sendEvidence, liveRecords_cons_of_live records h, List.countP_cons]
  cases outcome <;> cases unanswered <;> ext <;> simp <;> omega

theorem readSendHealth_cons_ok (records : List SendLogRecord) {r : SendLogRecord} (hr : r.outcome = .ok)
    (h : (readSendHealth windowMs now (r :: records) network).state = .degraded) :
    (readSendHealth windowMs now records network).state = .degraded := by
  by_cases hlive : now - windowMs ≤ r.sentAt ∧ r.network.getD defaultNetwork = network
  · rw [readSendHealth_state, sendEvidence_cons records hlive] at h
    rw [readSendHealth_state]
    refine SendEvidence.degraded_mono ?_ h
    simp [hr, SendEvidence.le_def]
  · rwa [readSendHealth_cons_of_not_live records hlive] at h

theorem readSendHealth_cons_failing (records : List SendLogRecord) {r : SendLogRecord}
    (hr : r.outcome = .failed ∨ r.outcome = .unknown ∧ r.unanswered = true)
    (h : (readSendHealth windowMs now records network).state = .degraded) :
    (readSendHealth windowMs now (r :: records) network).state = .degraded := by
  by_cases hlive : now - windowMs ≤ r.sentAt ∧ r.network.getD defaultNetwork = network
  · rw [readSendHealth_state] at h
    rw [readSendHealth_state, sendEvidence_cons records hlive]
    refine SendEvidence.degraded_mono ?_ h
    rcases hr with hr | ⟨hr, hlost⟩
    · simp [hr, SendEvidence.le_def]
    · simp [hr, hlost, SendEvidence.le_def]
  · rwa [readSendHealth_cons_of_not_live records hlive]

/-- A refused recipient is reported and not weighed. -/
theorem readSendHealth_cons_refused (records : List SendLogRecord) {r : SendLogRecord} (hr : r.outcome = .refused) :
    { readSendHealth windowMs now (r :: records) network with
      refused := (readSendHealth windowMs now records network).refused } =
      readSendHealth windowMs now records network := by
  by_cases hlive : now - windowMs ≤ r.sentAt ∧ r.network.getD defaultNetwork = network
  · unfold readSendHealth
    simp only [liveRecords_cons_of_live records hlive, List.countP_cons, hr]
    simp only [beq_iff_eq, reduceCtorEq, if_false, Nat.add_zero, Bool.and_eq_true, false_and]
    split
    · split
      · rfl
      · split <;> rfl
    · split <;> rfl
  · rw [readSendHealth_cons_of_not_live records hlive]

/-- An unresolved send is not weighed beside one that went out. -/
theorem readSendHealth_cons_unresolved (records : List SendLogRecord) {r : SendLogRecord} (hr : r.outcome = .unknown)
    (htook : r.unanswered = false) (hok : ∃ o ∈ liveRecords windowMs now network records, o.outcome = .ok) :
    (readSendHealth windowMs now (r :: records) network).state = (readSendHealth windowMs now records network).state ∧
      (readSendHealth windowMs now (r :: records) network).reason =
        (readSendHealth windowMs now records network).reason := by
  by_cases hlive : now - windowMs ≤ r.sentAt ∧ r.network.getD defaultNetwork = network
  · obtain ⟨o, ho, hsent⟩ := hok
    have hpos : (liveRecords windowMs now network records).countP (fun r => r.outcome == .ok) ≠ 0 := by
      rw [← Nat.pos_iff_ne_zero, List.countP_pos_iff]
      exact ⟨o, ho, by simp [hsent]⟩
    unfold readSendHealth
    simp only [liveRecords_cons_of_live records hlive, List.countP_cons, hr, htook]
    simp only [beq_iff_eq, reduceCtorEq, if_false, Nat.add_zero, Bool.and_false, Bool.false_eq_true, hpos, false_and]
    split
    · exact ⟨rfl, rfl⟩
    · split <;> exact ⟨rfl, rfl⟩
  · rw [readSendHealth_cons_of_not_live records hlive]
    exact ⟨rfl, rfl⟩

/-! ## Trimming -/

/-- What `recordSend` forgets no window from then on holds. -/
theorem liveRecords_recordSend (p : SendReport) (log : List SendLogRecord) (hp : p.sentAt ≤ now) :
    liveRecords windowMs now network (recordSend windowMs p.outcome p.network p.sentAt p.unanswered log) =
      liveRecords windowMs now network (log ++ [p.toRecord]) := by
  unfold recordSend
  rw [← SendReport.toRecord]
  induction log ++ [p.toRecord] with
  | nil => rfl
  | cons r records ih =>
    rw [List.dropWhile_cons]
    split
    · rename_i hold
      have hold : r.sentAt < p.sentAt - windowMs := of_decide_eq_true hold
      rw [ih, liveRecords, liveRecords, List.filter_cons_of_neg]
      simp only [Bool.and_eq_true, decide_eq_true_eq, not_and]
      intro hlive
      linarith
    · rfl

theorem liveRecords_recordAll {reports : List SendReport} {log log' : List SendLogRecord}
    (hreports : ∀ p ∈ reports, p.sentAt ≤ now)
    (hlog : liveRecords windowMs now network log = liveRecords windowMs now network log') :
    liveRecords windowMs now network (recordAll windowMs reports log) =
      liveRecords windowMs now network (log' ++ reports.map SendReport.toRecord) := by
  induction reports generalizing log log' with
  | nil => simpa [recordAll] using hlog
  | cons p reports ih =>
    have hstep : liveRecords windowMs now network
        (recordSend windowMs p.outcome p.network p.sentAt p.unanswered log) =
          liveRecords windowMs now network (log' ++ [p.toRecord]) := by
      rw [liveRecords_recordSend p log (hreports p List.mem_cons_self)]
      simp only [liveRecords, List.filter_append] at hlog ⊢
      rw [hlog]
    have hind := ih (fun q hq => hreports q (List.mem_cons_of_mem p hq)) hstep
    simpa [recordAll] using hind

theorem readSendHealth_recordAll {reports : List SendReport} (log : List SendLogRecord)
    (hreports : ∀ p ∈ reports, p.sentAt ≤ now) :
    readSendHealth windowMs now (recordAll windowMs reports log) network =
      readSendHealth windowMs now (log ++ reports.map SendReport.toRecord) network :=
  readSendHealth_congr (liveRecords_recordAll hreports rfl ▸ List.Perm.refl _)

end

/-- **The evidence laws.** Whatever the log, and wherever the record lies
in it. -/
theorem sendHealth_laws (windowMs now : ℚ) (network : FaucetNetwork) :
    (∀ (front back : List SendLogRecord) (r : SendLogRecord),
      let before := readSendHealth windowMs now (front ++ back) network
      let after := readSendHealth windowMs now (front ++ r :: back) network
      (r.outcome = .ok → sendHealthBlocksServing before = false → sendHealthBlocksServing after = false) ∧
      (r.outcome = .failed ∨ r.outcome = .unknown ∧ r.unanswered = true →
        sendHealthBlocksServing before = true → sendHealthBlocksServing after = true) ∧
      (r.outcome = .refused → { after with refused := before.refused } = before) ∧
      (r.network.getD defaultNetwork ≠ network → after = before) ∧
      (r.outcome = .unknown → r.unanswered = false →
        (∃ o ∈ liveRecords windowMs now network (front ++ back), o.outcome = .ok) →
          after.state = before.state ∧ after.reason = before.reason)) ∧
    ∀ (log : List SendLogRecord) (reports : List SendReport), (∀ p ∈ reports, p.sentAt ≤ now) →
      readSendHealth windowMs now (recordAll windowMs reports log) network =
        readSendHealth windowMs now (log ++ reports.map SendReport.toRecord) network := by
  refine ⟨fun front back r => ?_, fun log reports => readSendHealth_recordAll log⟩
  dsimp only
  rw [readSendHealth_insert]
  simp only [sendHealthBlocksServing, beq_eq_false_iff_ne, beq_iff_eq]
  refine ⟨fun hr hok hdegraded => hok (readSendHealth_cons_ok _ hr hdegraded),
    fun hr => readSendHealth_cons_failing _ hr, readSendHealth_cons_refused _, fun hr => ?_,
    readSendHealth_cons_unresolved _⟩
  exact readSendHealth_cons_of_not_live _ fun h => hr h.2

end ZcashFaucet.Api
