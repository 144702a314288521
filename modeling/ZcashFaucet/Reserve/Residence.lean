/-
ZcashFaucet.Reserve.Residence — how long a task can occupy a send queue:
the three tasks there are, against `sendResidenceMs` of `config.ts`.

A send is the one of `Zcash.SendBudget`. The shield step reads the node's
status, makes one call and waits for the operation (`stepTime`); its poll
loop is the same `DeadlineLoop` with one call a poll. The cTAZ send is one
call over a socket (`socketTime`).

The residence is the sender's own worst case or the deadline.
`residenceBounds_iff` is when it covers all three.
-/
import Mathlib.Algebra.Order.BigOperators.Group.List
import ZcashFaucet.Reserve.ZalletRefiller
import ZcashFaucet.Zcash.CrosslinkSend
import ZcashFaucet.Zcash.SendBudget

namespace ZcashFaucet.Reserve

open Lib Zcash

/-! ## Settings -/

structure QueueSettings where
  zallet : ZalletSettings
  shield : ShieldConfig
  gates : GateConfig
  crosslink : CrosslinkConfig
  /-- `sendTaskDeadlineMs`, as configured. -/
  sendTaskDeadlineMs : ℚ
  deadline_floor : 1000 ≤ sendTaskDeadlineMs
  /-- `nodeStatusTimeoutMs()`. -/
  nodeStatusTimeoutMs : ℚ
  nodeStatus_floor : 1000 ≤ nodeStatusTimeoutMs
  socket : crosslink.socketPath ≠ ""

/-- `config.sendResidenceMs`. -/
def sendResidenceMs (cfg : QueueSettings) : ℚ :=
  max cfg.sendTaskDeadlineMs (senderWorstCaseMs cfg.zallet.toSenderTimings)

/-- The first of the attempts to read the node's status. -/
def firstAttemptMs (budget : ℚ) : ℚ := max 1000 ⌊budget / 3⌋

/-- `nodeStatusAttemptsMs("claim")`. -/
def nodeStatusAttemptsMs (budget : ℚ) : List ℚ := [firstAttemptMs budget, budget - firstAttemptMs budget]

/-! ## The shield step -/

/-- One read of `getwalletstatus`: how long it takes, the body included,
and whether `fetch` threw. -/
structure NodeRead where
  latency : ℚ
  threw : Bool
  latency_nonneg : 0 ≤ latency

/-- The loop over the attempts: the next one is made where one threw. -/
def readTime : List ℚ → List NodeRead → ℚ
  | _ :: attempts, read :: reads => read.latency + if read.threw then readTime attempts reads else 0
  | _, _ => 0

/-- What the wallet and the wire do during one step. -/
structure StepRun where
  reads : List NodeRead
  nodeStatus : Option NodeStatus
  tip : Option ClaimedHeight
  shieldcoinbase : TimedCall
  status : Nat → TimedCall
  result : TimedCall

structure StepRun.WithinTimeout (run : StepRun) (cfg : QueueSettings) : Prop where
  reads : List.Forall₂ (fun read ms => read.latency ≤ ms) run.reads (nodeStatusAttemptsMs cfg.nodeStatusTimeoutMs)
  shieldcoinbase : run.shieldcoinbase.latency ≤ cfg.zallet.rpcTimeoutMs
  status : ∀ k, (run.status k).latency ≤ cfg.zallet.rpcTimeoutMs
  result : run.result.latency ≤ cfg.zallet.rpcTimeoutMs

inductive ShieldEnd
  | finished
  | threw

/-- The poll loop of the refiller's `awaitOperation`, which remembers the
next call. A status that cannot be read ends it. -/
def shieldLoop (z : ZalletSettings) (run : StepRun) : DeadlineLoop Nat ShieldEnd where
  timeout := z.opTimeoutMs
  interval := sleepMs z.toSenderTimings 1
  poll k :=
    ((run.status k).latency,
      match rpcFirst z.numText (js "z_getoperationstatus") (run.status k).outcome with
      | .error _ => .inl .threw
      | .ok status => if isOver status then .inl .finished else .inr (k + 1))
  late _ := .threw

def shieldTime (z : ZalletSettings) (run : StepRun) : Option ℚ :=
  ((shieldLoop z run).run (shieldLoop z run).fuel 0 0).map fun
    | (.threw, t) => t
    | (.finished, t) => t + run.result.latency

/-- How long `ZalletRefiller.step` takes. -/
def stepTime (cfg : QueueSettings) (run : StepRun) : Option ℚ :=
  if cfg.shield.account.isEmpty ∨ cfg.shield.address.isEmpty then some 0
  else
    let statusRead := readTime (nodeStatusAttemptsMs cfg.nodeStatusTimeoutMs) run.reads
    match stepStart cfg.gates cfg.shield run.tip run.nodeStatus with
    | .calls =>
        let called := statusRead + run.shieldcoinbase.latency
        match rpc cfg.zallet.numText (js "z_shieldcoinbase") run.shieldcoinbase.outcome with
        | .error _ => some called
        | .ok op =>
            if truthy? (field? (js "opid") op) then (shieldTime cfg.zallet run).map (called + ·)
            else some called
    | _ => some statusRead

/-! ## The cTAZ send -/

/-- An event on the socket, and how long after the one before. -/
structure TimedEvent where
  event : SocketEvent
  gap : ℚ
  gap_nonneg : 0 ≤ gap

/-- The events that settle the call. -/
def settlesCall : SocketEvent → Bool
  | .connected => false
  | .data _ => false
  | .ended => true
  | .timeout => true
  | .error _ => true

/-- When `rpcOverSocket` settles, and the send with it. -/
def socketTime : List TimedEvent → Option ℚ
  | [] => none
  | e :: es => if settlesCall e.event then some e.gap else (socketTime es).map (e.gap + ·)

/-- The call takes no longer than its timeout. A timeout of zero disables
the socket's timer. -/
def SocketWithinTimeout (cfg : CrosslinkConfig) (t : ℚ) : Prop := cfg.timeoutMs ≠ 0 → t ≤ cfg.timeoutMs

theorem socketTime_isSome (cfg : CrosslinkConfig) (chunks : List UInt8) (es : List TimedEvent) :
    (socketTime es).isSome = (rpcOverSocket cfg chunks (es.map TimedEvent.event)).isSome := by
  induction es generalizing chunks with
  | nil => rfl
  | cons e es ih =>
    rw [socketTime, List.map_cons]
    cases e.event with
    | connected => simpa [settlesCall, rpcOverSocket] using ih chunks
    | data bytes => simpa [settlesCall, rpcOverSocket] using ih (chunks ++ bytes)
    | ended =>
      rw [if_pos (show settlesCall .ended = true from rfl), rpcOverSocket]
      split
      · rfl
      · split <;> rfl
    | timeout => rfl
    | error message => rfl

/-! ## How long a step takes -/

theorem readTime_le {attempts : List ℚ} {reads : List NodeRead}
    (h : List.Forall₂ (fun read ms => NodeRead.latency read ≤ ms) reads attempts)
    (hnonneg : ∀ ms ∈ attempts, 0 ≤ ms) : readTime attempts reads ≤ attempts.sum := by
  induction h with
  | nil => exact le_rfl
  | @cons read ms reads attempts hread _ ih =>
    have hrest := ih fun ms hms => hnonneg ms (List.mem_cons_of_mem _ hms)
    have hsum : 0 ≤ attempts.sum := List.sum_nonneg fun ms hms => hnonneg ms (List.mem_cons_of_mem _ hms)
    rw [readTime, List.sum_cons]
    split <;> linarith

theorem firstAttemptMs_nonneg (budget : ℚ) : 0 ≤ firstAttemptMs budget :=
  le_max_of_le_left (by norm_num)

theorem firstAttemptMs_le {budget : ℚ} (h : 1000 ≤ budget) : firstAttemptMs budget ≤ budget := by
  have hfloor := Int.floor_le (budget / 3)
  exact max_le h (by linarith)

/-- The attempts share the budget. -/
theorem nodeStatusAttemptsMs_sum (budget : ℚ) : (nodeStatusAttemptsMs budget).sum = budget := by
  simp [nodeStatusAttemptsMs]

theorem statusRead_le {cfg : QueueSettings} {run : StepRun} (hrun : run.WithinTimeout cfg) :
    readTime (nodeStatusAttemptsMs cfg.nodeStatusTimeoutMs) run.reads ≤ cfg.nodeStatusTimeoutMs := by
  have hfirst := firstAttemptMs_le cfg.nodeStatus_floor
  refine (readTime_le hrun.reads ?_).trans_eq (nodeStatusAttemptsMs_sum _)
  intro ms hms
  rcases List.mem_pair.mp hms with rfl | rfl
  · exact firstAttemptMs_nonneg _
  · linarith

theorem shieldTime_le {cfg : QueueSettings} {run : StepRun} (hrun : run.WithinTimeout cfg) :
    ∃ t, shieldTime cfg.zallet run = some t ∧
      t ≤ lastLookMs cfg.zallet.toSenderTimings + sleepMs cfg.zallet.toSenderTimings 1 +
        2 * cfg.zallet.rpcTimeoutMs := by
  obtain ⟨hop, hrpc, -⟩ := cfg.zallet.positive
  have hsleep := sleepMs_pos cfg.zallet.toSenderTimings 1
  have hcall (k : Nat) : DeadlineLoop.MadeOf (sleepMs cfg.zallet.toSenderTimings 1) cfg.zallet.rpcTimeoutMs
      (run.status k).latency 0 1 :=
    ⟨by simpa using (run.status k).latency_nonneg, by simpa using hrun.status k⟩
  have hsome := (shieldLoop cfg.zallet run).run_isSome hsleep (fun k => (run.status k).latency_nonneg) 0
  obtain ⟨⟨r, t⟩, hend⟩ := Option.isSome_iff_exists.mp hsome
  have hle := (shieldLoop cfg.zallet run).run_le hsleep hrpc.le hop.le (fun _ => cfg.zallet.rpcTimeoutMs)
    (fun k d k' h => by
      obtain rfl : (run.status k).latency = d := (Prod.ext_iff.mp h).1
      exact ⟨⟨0, hcall k⟩, hrun.status k⟩)
    (fun k d r h => by
      obtain rfl : (run.status k).latency = d := (Prod.ext_iff.mp h).1
      exact hrun.status k)
    hend
  have hle : t ≤ lastLookMs cfg.zallet.toSenderTimings + sleepMs cfg.zallet.toSenderTimings 1 +
      cfg.zallet.rpcTimeoutMs := hle
  have hresult := hrun.result
  rw [shieldTime, hend]
  cases r with
  | threw => exact ⟨t, rfl, by linarith⟩
  | finished => exact ⟨t + run.result.latency, rfl, by linarith⟩

/-- The latest end of a step. -/
def latestStepMs (cfg : QueueSettings) : ℚ :=
  cfg.nodeStatusTimeoutMs + 3 * cfg.zallet.rpcTimeoutMs + lastLookMs cfg.zallet.toSenderTimings +
    sleepMs cfg.zallet.toSenderTimings 1

/-- **How long a step takes.** -/
theorem stepTime_le {cfg : QueueSettings} {run : StepRun} (hrun : run.WithinTimeout cfg) :
    ∃ t, stepTime cfg run = some t ∧ t ≤ latestStepMs cfg := by
  have hrpc := cfg.zallet.positive.2.1
  have hsleep := sleepMs_pos cfg.zallet.toSenderTimings 1
  have hread := statusRead_le hrun
  have hlook := lastLookMs_nonneg cfg.zallet.toSenderTimings
  have hstatus := cfg.nodeStatus_floor
  have hshield := hrun.shieldcoinbase
  unfold stepTime latestStepMs
  split
  · exact ⟨0, rfl, by linarith⟩
  · dsimp only
    split
    · split
      · exact ⟨_, rfl, by linarith⟩
      · split
        · obtain ⟨t, ht, hle⟩ := shieldTime_le hrun
          exact ⟨_, by rw [ht]; rfl, by linarith⟩
        · exact ⟨_, rfl, by linarith⟩
    · exact ⟨_, rfl, by linarith⟩

/-! ## It can take so long -/

section

variable (cfg : QueueSettings)

/-- A status that passes both gates: our node is as far behind as it may
be, and the wallet is not behind it. -/
def passingStatus (gates : GateConfig) : NodeStatus where
  ready := true
  syncPercent := some 100
  height := 4000000 - gates.shieldMaxLag.val
  nodeHeight := 4000000 - gates.shieldMaxLag.val
  externalHeight := some (4000000 : ℚ)
  frozen := false
  behind := false
  tipStalledMs := some 0
  networkQuiet := false
  shield := chainFreshness gates (some (4000000 - gates.shieldMaxLag.val)) (some (4000000 : ℚ))
  canBuildTx := true

theorem stepStart_passing (haccount : cfg.shield.account.isEmpty = false)
    (haddress : cfg.shield.address.isEmpty = false) :
    stepStart cfg.gates cfg.shield none (some (passingStatus cfg.gates)) = .calls := by
  have hchain : mayBuildTransaction (passingStatus cfg.gates).shield = true :=
    mayBuildTransaction_iff.mpr ⟨_, _, rfl, rfl, by rw [sub_add_cancel]⟩
  have hwallet : mayBuildFromWallet (walletLagFreshness cfg.gates (some (passingStatus cfg.gates).height)
      (some (passingStatus cfg.gates).nodeHeight)) = true :=
    mayBuildFromWallet_iff.mpr ⟨_, _, rfl, rfl, Or.inl le_rfl⟩
  simp [stepStart, haccount, haddress, hchain, hwallet]

/-- The second read of the status answers, the operation is pending until
the last look, and its report is collected. -/
def latestStep : StepRun where
  reads :=
    [⟨firstAttemptMs cfg.nodeStatusTimeoutMs, true, firstAttemptMs_nonneg _⟩,
      ⟨cfg.nodeStatusTimeoutMs - firstAttemptMs cfg.nodeStatusTimeoutMs, false,
        sub_nonneg.mpr (firstAttemptMs_le cfg.nodeStatus_floor)⟩]
  nodeStatus := some (passingStatus cfg.gates)
  tip := none
  shieldcoinbase :=
    ⟨replyResult (.obj [(js "opid", .str (js "opid-2"))]), cfg.zallet.rpcTimeoutMs, cfg.zallet.positive.2.1.le⟩
  status k :=
    if k ≤ pendingPolls cfg.zallet.toSenderTimings then
      ⟨replyResult (.arr [executing]), evenCallMs cfg.zallet.toSenderTimings, evenCallMs_nonneg _⟩
    else ⟨replyResult (.arr [.obj [successStatus]]), cfg.zallet.rpcTimeoutMs, cfg.zallet.positive.2.1.le⟩
  result := ⟨replyResult (.arr [.obj [successStatus]]), cfg.zallet.rpcTimeoutMs, cfg.zallet.positive.2.1.le⟩

theorem latestStep_within : (latestStep cfg).WithinTimeout cfg where
  reads := .cons le_rfl (.cons le_rfl .nil)
  shieldcoinbase := le_rfl
  status k := by
    rw [latestStep]
    dsimp only
    split
    · exact DeadlineLoop.evenCall_le
    · exact le_rfl
  result := le_rfl

theorem latestStep_shieldTime :
    shieldTime cfg.zallet (latestStep cfg) =
      some (lastLookMs cfg.zallet.toSenderTimings + sleepMs cfg.zallet.toSenderTimings 1 +
        cfg.zallet.rpcTimeoutMs + cfg.zallet.rpcTimeoutMs) := by
  obtain ⟨hop, hrpc, -⟩ := cfg.zallet.positive
  have hpending (k : Nat) (hk : k ≤ pendingPolls cfg.zallet.toSenderTimings) :
      (shieldLoop cfg.zallet (latestStep cfg)).poll k =
        (evenCallMs cfg.zallet.toSenderTimings, .inr (k + 1)) := by
    simp only [shieldLoop, latestStep, if_pos hk, rpcFirst_executing]
    rfl
  have hdone (k : Nat) (hk : pendingPolls cfg.zallet.toSenderTimings < k) :
      (shieldLoop cfg.zallet (latestStep cfg)).poll k = (cfg.zallet.rpcTimeoutMs, .inl .finished) := by
    simp only [shieldLoop, latestStep, if_neg (not_le.mpr hk)]
    rfl
  have hrun := (shieldLoop cfg.zallet (latestStep cfg)).run_latest
    (sleepMs_pos cfg.zallet.toSenderTimings 1) hrpc.le hop.le id hpending
    (hdone _ (Nat.lt_succ_self _))
  rw [shieldTime, show (0 : Nat) = id 0 from rfl, hrun]
  rfl

theorem stepTime_latest (haccount : cfg.shield.account.isEmpty = false)
    (haddress : cfg.shield.address.isEmpty = false) :
    stepTime cfg (latestStep cfg) = some (latestStepMs cfg) := by
  have hcall : rpc cfg.zallet.numText (js "z_shieldcoinbase") (latestStep cfg).shieldcoinbase.outcome =
      .ok (some (.obj [(js "opid", .str (js "opid-2"))])) := rfl
  have hopid : truthy? (field? (js "opid") (some (.obj [(js "opid", .str (js "opid-2"))]))) = true := rfl
  have hread : readTime (nodeStatusAttemptsMs cfg.nodeStatusTimeoutMs) (latestStep cfg).reads =
      cfg.nodeStatusTimeoutMs := by
    simp [readTime, nodeStatusAttemptsMs, latestStep]
  have hstart : stepStart cfg.gates cfg.shield (latestStep cfg).tip (latestStep cfg).nodeStatus = .calls :=
    stepStart_passing cfg haccount haddress
  unfold stepTime
  rw [if_neg (by simp [haccount, haddress]), hread, hstart]
  dsimp only
  rw [hcall]
  dsimp only
  rw [if_pos hopid, latestStep_shieldTime]
  show some _ = some _
  rw [latestStepMs, show (latestStep cfg).shieldcoinbase.latency = cfg.zallet.rpcTimeoutMs from rfl]
  congr 1
  ring

end

/-! ## When the residence covers every task -/

/-- The bounds that the pending lease relies on. -/
structure ResidenceBounds (cfg : QueueSettings) : Prop where
  worstCase : ∀ run : CallRun, run.WithinTimeout cfg.zallet.rpcTimeoutMs →
    ∃ t, sendTime cfg.zallet run = some t ∧ t ≤ senderWorstCaseMs cfg.zallet.toSenderTimings
  send : ∀ run : CallRun, run.WithinTimeout cfg.zallet.rpcTimeoutMs →
    ∃ t, sendTime cfg.zallet run = some t ∧ t ≤ sendResidenceMs cfg
  step : ∀ run : StepRun, run.WithinTimeout cfg →
    ∃ t, stepTime cfg run = some t ∧ t ≤ sendResidenceMs cfg
  crosslink : ∀ events t, socketTime events = some t → SocketWithinTimeout cfg.crosslink t →
    t ≤ sendResidenceMs cfg

/-- The settings for which the residence bounds every shield step. -/
def StepFits (cfg : QueueSettings) : Prop :=
  cfg.shield.account.isEmpty = false → cfg.shield.address.isEmpty = false →
    latestStepMs cfg ≤ sendResidenceMs cfg

/-- The settings for which it bounds every cTAZ send. -/
def CrosslinkFits (cfg : QueueSettings) : Prop :=
  cfg.crosslink.timeoutMs ≠ 0 ∧ cfg.crosslink.timeoutMs ≤ sendResidenceMs cfg

theorem sendResidenceMs_pos (cfg : QueueSettings) : 0 < sendResidenceMs cfg :=
  lt_max_of_lt_left (by linarith [cfg.deadline_floor])

theorem step_bounded_iff (cfg : QueueSettings) :
    (∀ run : StepRun, run.WithinTimeout cfg → ∃ t, stepTime cfg run = some t ∧ t ≤ sendResidenceMs cfg) ↔
      StepFits cfg := by
  constructor
  · intro h haccount haddress
    obtain ⟨t, ht, hle⟩ := h (latestStep cfg) (latestStep_within cfg)
    rw [stepTime_latest cfg haccount haddress] at ht
    cases ht
    exact hle
  · intro h run hrun
    by_cases hset : cfg.shield.account.isEmpty = true ∨ cfg.shield.address.isEmpty = true
    · exact ⟨0, if_pos hset, (sendResidenceMs_pos cfg).le⟩
    · rw [not_or, Bool.not_eq_true, Bool.not_eq_true] at hset
      obtain ⟨t, ht, hle⟩ := stepTime_le hrun
      exact ⟨t, ht, hle.trans (h hset.1 hset.2)⟩

theorem crosslink_bounded_iff (cfg : QueueSettings) :
    (∀ events t, socketTime events = some t → SocketWithinTimeout cfg.crosslink t → t ≤ sendResidenceMs cfg) ↔
      CrosslinkFits cfg := by
  have hpos := sendResidenceMs_pos cfg
  have hone (t : ℚ) (ht : 0 ≤ t) : socketTime [⟨.timeout, t, ht⟩] = some t := rfl
  constructor
  · intro h
    constructor
    · intro hzero
      have hle := h _ _ (hone (sendResidenceMs cfg + 1) (by linarith)) fun hne => absurd hzero hne
      linarith
    · by_contra hlong
      rw [not_le] at hlong
      have hle := h _ _ (hone cfg.crosslink.timeoutMs (by linarith)) fun _ => le_rfl
      exact absurd hle (not_le.mpr hlong)
  · intro h events t _ hwithin
    exact (hwithin h.1).trans h.2

theorem socketTime_data (n : Nat) {gap : ℚ} (hgap : 0 ≤ gap) :
    socketTime (List.replicate n ⟨.data [0x20], gap, hgap⟩ ++ [⟨.ended, gap, hgap⟩]) = some ((n + 1) * gap) := by
  induction n with
  | zero => simp [socketTime, settlesCall]
  | succ n ih =>
    rw [List.replicate_succ, List.cons_append, socketTime, ih]
    simp only [settlesCall, Bool.false_eq_true, if_false, Option.map_some]
    push_cast
    congr 1
    ring

/-- The socket's own timer is one for inactivity. It bounds no call whose
reply comes a byte at a time. -/
theorem socketTimer_bounds_nothing {timeoutMs : ℚ} (h : 0 < timeoutMs) (bound : ℚ) :
    ∃ events t, (∀ e ∈ events, TimedEvent.gap e ≤ timeoutMs) ∧ socketTime events = some t ∧ bound < t := by
  have hn := Nat.lt_floor_add_one (bound / timeoutMs)
  refine ⟨_, _, ?_, socketTime_data ⌊bound / timeoutMs⌋₊ h.le, ?_⟩
  · intro e he
    rcases List.mem_append.mp he with he | he
    · rw [List.eq_of_mem_replicate he]
    · rw [List.mem_singleton.mp he]
  · rwa [div_lt_iff₀ h] at hn

/-- **When the residence bounds every queued task.** -/
theorem residenceBounds_iff (cfg : QueueSettings) :
    ResidenceBounds cfg ↔ SendFits cfg.zallet ∧ StepFits cfg ∧ CrosslinkFits cfg := by
  constructor
  · intro h
    exact ⟨(send_bounded_iff cfg.zallet).mp h.worstCase, (step_bounded_iff cfg).mp h.step,
      (crosslink_bounded_iff cfg).mp h.crosslink⟩
  · rintro ⟨hsend, hstep, hcrosslink⟩
    have hworst := (send_bounded_iff cfg.zallet).mpr hsend
    refine ⟨hworst, ?_, (step_bounded_iff cfg).mpr hstep, (crosslink_bounded_iff cfg).mpr hcrosslink⟩
    intro run hrun
    obtain ⟨t, ht, hle⟩ := hworst run hrun
    exact ⟨t, ht, hle.trans (le_max_right _ _)⟩

/-- Stock settings, apart from a passphrase and a poll a minute. -/
def pollsEachMinute : QueueSettings where
  zallet :=
    { stockZallet with
      passphrase := js "correct horse"
      rpcTimeoutMs := 15000
      pollMs := 60000
      opTimeout_floor := by norm_num [stockZallet]
      rpcTimeout_floor := by norm_num
      poll_floor := by norm_num
      poll_whole := by norm_num }
  shield := ⟨js "5f4c", js "utest1faucet"⟩
  gates := ⟨⟨5, shieldMaxLag_default_le⟩, ⟨10, walletMaxLag_default_le⟩, fun _ => []⟩
  crosslink := stockCrosslink
  sendTaskDeadlineMs := 660000
  deadline_floor := by norm_num
  nodeStatusTimeoutMs := 12000
  nodeStatus_floor := by norm_num
  socket := by simp [stockCrosslink]

/-- A send of 675 seconds, where the residence is 660. -/
theorem sleeps_past_residence :
    pollsEachMinute.sendTaskDeadlineMs = defaultTaskDeadlineMs pollsEachMinute.zallet.toSenderTimings ∧
      sendResidenceMs pollsEachMinute = 660000 ∧
      sendTime pollsEachMinute.zallet (latestRun pollsEachMinute.zallet) = some 675000 ∧
      ¬ ResidenceBounds pollsEachMinute := by
  have hkept : SleepsKept pollsEachMinute.zallet.toSenderTimings := by
    norm_num [SleepsKept, pollRetries, timeoutMax, pollsEachMinute]
  obtain ⟨hsleep, -, hfailed⟩ := hkept.pollMs
  have hlook : lastLookMs pollsEachMinute.zallet.toSenderTimings = 180000 := by
    rw [lastLookMs, hsleep]
    norm_num [DeadlineLoop.lastCheck, pollsEachMinute, stockZallet]
  have hworst : senderWorstCaseMs pollsEachMinute.zallet.toSenderTimings = 630000 := by
    rw [senderWorstCaseMs_eq]
    norm_num [pollsEachMinute, stockZallet]
  have hresidence : sendResidenceMs pollsEachMinute = 660000 := by
    rw [sendResidenceMs, hworst]
    norm_num [pollsEachMinute]
  have htime : sendTime pollsEachMinute.zallet (latestRun pollsEachMinute.zallet) = some 675000 := by
    have hheads : headCalls pollsEachMinute.zallet = 2 := rfl
    rw [sendTime_latest _ rfl, hlook, hheads, hsleep, hfailed]
    norm_num [pollsEachMinute]
  refine ⟨?_, hresidence, htime, ?_⟩
  · rw [defaultTaskDeadlineMs, hworst]
    norm_num [pollsEachMinute, deadlineMarginMs]
  · intro h
    obtain ⟨t, ht, hle⟩ := h.send _ (latestRun_within pollsEachMinute.zallet)
    rw [htime] at ht
    cases ht
    rw [hresidence] at hle
    exact absurd hle (by norm_num)

end ZcashFaucet.Reserve
