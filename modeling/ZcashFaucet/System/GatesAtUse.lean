/-
ZcashFaucet.System.GatesAtUse — whether the gates hold when the wallet is
called.

A shield step decides on the answer it has just read, so both gates pass
on what can be read at its call, in every run. A drip's gates are judged
in the request, and nothing looks again until `z_sendmany`. Its call is
right as long as no move of the world spoils a verdict on the way, which
is the condition of `steady`: `GatesInv` carries the verdict from the
gates to the call. `gates_fail_at_call` is a run where the wallet starts a
rescan while a claim is in the queue.
-/
import ZcashFaucet.System.Broadcasts
import ZcashFaucet.Zcash.QueueTheorems

namespace ZcashFaucet.System

open Lib Zcash Api Reserve

variable {cfg : BroadcastConfig} {gates : GateConfig} {s s' : Broadcasts}

/-! ## The gates on what was read -/

theorem gatesPass_iff {w n : Option ℚ} {tip : Option ClaimedHeight} :
    gatesPass gates w n tip = true ↔
      mayBuildTransaction (chainFreshness gates n tip) = true ∧
        mayBuildFromWallet (walletLagFreshness gates w n) = true := by
  simp [gatesPass]

/-- Nothing passes without a status. -/
theorem not_gatesPass_none {w : Option ℚ} {tip : Option ClaimedHeight} :
    gatesPass gates w none tip = false := by
  simp [gatesPass, mayBuildTransaction, chainFreshness]

/-- The heights and the gate of a status are those that can be read. -/
theorem status_spec {st : NodeStatus} {next : TipSample} (h : s.status cfg = some (st, next)) :
    s.view.walletTip = some st.height ∧ s.view.nodeTip = some st.nodeHeight ∧
      st.shield = chainFreshness cfg.route.node.gates (some st.nodeHeight) s.view.tip := by
  unfold Broadcasts.status getNodeStatus at h
  split at h
  · cases h
  · split at h
    · rename_i w n hw hn
      obtain ⟨rfl, -⟩ := Prod.mk.inj (Option.some.inj h)
      exact ⟨hw, hn, rfl⟩
    · cases h

theorem gatesPass_of_status {tip : Option ClaimedHeight}
    (h : gatesPass gates (((s.status cfg).map Prod.fst).map NodeStatus.height)
      (((s.status cfg).map Prod.fst).map NodeStatus.nodeHeight) tip = true) :
    gatesPass gates s.view.walletTip s.view.nodeTip tip = true := by
  cases hst : s.status cfg with
  | none => simp [hst, not_gatesPass_none] at h
  | some p =>
    obtain ⟨st, next⟩ := p
    obtain ⟨hw, hn, -⟩ := status_spec hst
    simpa [hst, hw, hn] using h

/-- A claim that no gate refuses has passed both. -/
theorem gatesPass_of_judged (hz : cfg.route.sender = "zallet") {r : GateReadings}
    (h : (refusalAfterProof cfg.route .taz r).isNone = true) :
    gatesPass cfg.route.node.gates (r.node.map NodeStatus.height) (r.node.map NodeStatus.nodeHeight)
      r.tip = true := by
  have happly : gatesApply cfg.route .taz = true := by simp [gatesApply, hz]
  have hnone : refusalAfterProof cfg.route .taz r = none := Option.isNone_iff_eq_none.mp h
  obtain ⟨-, hrest⟩ := (Option.orElse_eq_none _ _).mp hnone
  obtain ⟨hfresh, hrest⟩ := (Option.orElse_eq_none _ _).mp hrest
  obtain ⟨hlag, -⟩ := (Option.orElse_eq_none _ _).mp hrest
  exact gatesPass_iff.mpr
    ⟨freshnessGate_eq_none.mp hfresh happly, walletLagGate_eq_none.mp hlag happly⟩

/-- A shield step calls the wallet when both gates pass on what can be
read at that moment. -/
theorem gatesPass_of_calls
    (h : stepStart cfg.route.node.gates cfg.shield s.view.tip ((s.status cfg).map Prod.fst) = .calls) :
    s.view.gatesPass cfg.route.node.gates = true := by
  obtain ⟨st, hst, hchain, hwallet⟩ := gates_of_calls h
  obtain ⟨⟨st', next⟩, hstatus, rfl⟩ := Option.map_eq_some_iff.mp hst
  obtain ⟨hw, hn, hshield⟩ := status_spec hstatus
  refine gatesPass_iff.mpr ⟨?_, ?_⟩
  · rw [hn, ← hshield]
    exact hchain
  · rw [hw, hn]
    exact hwallet

/-! ## Drips on their way -/

namespace Broadcasts

/-- A claim has its status and is not judged. -/
def waiting (s : Broadcasts) : Bool :=
  s.claims.any fun c => match c with
    | .asked _ _ => true
    | _ => false

def isPassed : ClaimStage → Bool
  | .passed => true
  | _ => false

/-- Job `k` is a drip that has not called the wallet and still may. -/
def uncalled (s : Broadcasts) (k : Nat) : Bool :=
  (s.queue.jobs[k]?.any fun j => j.task == .drip && !j.isSettled) && !s.called.contains k

/-- A drip has its gates behind it and its call before it. -/
def onItsWay (s : Broadcasts) : Bool :=
  s.claims.any isPassed || (List.range s.queue.jobs.length).any s.uncalled

/-- Whatever the references say, heights that passed go on passing: the
node's does not fall, and the wallet's gate does not close. -/
def noWorse (gates : GateConfig) (v v' : View) : Bool :=
  (v.nodeTip.all fun n => v'.nodeTip.any fun n' => decide (n ≤ n')) &&
    (!mayBuildFromWallet (walletLagFreshness gates v.walletTip v.nodeTip) ||
      mayBuildFromWallet (walletLagFreshness gates v'.walletTip v'.nodeTip))

/-- The world does not move against a drip that is on its way, nor do the
heights against a claim that has read them and waits for a reference. -/
def steady (cfg : BroadcastConfig) (s : Broadcasts) : BroadcastEvent → Bool
  | .world view =>
      (!s.onItsWay || !s.view.gatesPass cfg.route.node.gates || view.gatesPass cfg.route.node.gates) &&
        (!s.waiting || noWorse cfg.route.node.gates s.view view)
  | _ => true

def steadyStep (cfg : BroadcastConfig) (s : Broadcasts) (ev : BroadcastEvent) : Option Broadcasts :=
  if s.steady cfg ev then s.step cfg ev else none

theorem uncalled_iff {k : Nat} :
    s.uncalled k = true ↔
      (∃ j, s.queue.jobs[k]? = some j ∧ j.task = .drip ∧ j.isSettled = false) ∧ k ∉ s.called := by
  unfold uncalled
  cases s.queue.jobs[k]? with
  | none => simp
  | some j => simp

theorem onItsWay_iff :
    s.onItsWay = true ↔ (∃ i : Nat, s.claims[i]? = some .passed) ∨ ∃ k, s.uncalled k = true := by
  simp only [onItsWay, Bool.or_eq_true, List.any_eq_true]
  refine or_congr ?_ ?_
  · constructor
    · rintro ⟨c, hc, hpassed⟩
      obtain ⟨i, hi⟩ := List.mem_iff_getElem?.mp hc
      cases c with
      | passed => exact ⟨i, hi⟩
      | _ => cases hpassed
    · rintro ⟨i, hi⟩
      exact ⟨.passed, List.mem_of_getElem? hi, rfl⟩
  · constructor
    · rintro ⟨k, -, hk⟩
      exact ⟨k, hk⟩
    · rintro ⟨k, hk⟩
      obtain ⟨⟨j, hj, -⟩, -⟩ := uncalled_iff.mp hk
      exact ⟨k, List.mem_range.mpr (List.getElem?_eq_some_iff.mp hj).1, hk⟩

theorem gatesPass_of_noWorse {v v' : View} {tip : Option ClaimedHeight}
    (h : noWorse gates v v' = true) (hpass : gatesPass gates v.walletTip v.nodeTip tip = true) :
    gatesPass gates v'.walletTip v'.nodeTip tip = true := by
  obtain ⟨hchain, hwallet⟩ := gatesPass_iff.mp hpass
  simp only [noWorse, Bool.and_eq_true, hwallet, Bool.not_true, Bool.false_or] at h
  obtain ⟨hnode, hwallet'⟩ := h
  refine gatesPass_iff.mpr ⟨?_, hwallet'⟩
  obtain ⟨n, h, hn, rfl, hle⟩ := mayBuildTransaction_iff.mp hchain
  simp only [hn, Option.all_some, Option.any_eq_true, decide_eq_true_eq] at hnode
  obtain ⟨n', hn', hnn'⟩ := hnode
  refine mayBuildTransaction_iff.mpr ⟨n', h, hn', rfl, hle.trans ?_⟩
  exact WithTop.coe_le_coe.mpr (by linarith)

/-! ## The verdict on its way -/

structure GatesInv (cfg : BroadcastConfig) (s : Broadcasts) : Prop where
  asked : ∀ (i : Nat) status askedAt, s.claims[i]? = some (.asked status askedAt) → ∀ tip,
    gatesPass cfg.route.node.gates (status.map NodeStatus.height) (status.map NodeStatus.nodeHeight) tip =
        true →
      gatesPass cfg.route.node.gates s.view.walletTip s.view.nodeTip tip = true
  onItsWay : cfg.route.sender = "zallet" → s.onItsWay = true →
    s.view.gatesPass cfg.route.node.gates = true
  log : ∀ b ∈ s.log, b.view.gatesPass cfg.route.node.gates = true

theorem gatesInv_init (cfg : BroadcastConfig) (maxPending : Nat) (view : View) :
    GatesInv cfg (init maxPending view) where
  asked := by
    intro i status askedAt h
    simp [init] at h
  onItsWay := by
    intro _ h
    simp [init, onItsWay, SerialQueue.new] at h
  log := by
    intro b hb
    cases hb

/-- A step that moves neither the heights nor a claim into the window
keeps the verdicts. -/
theorem GatesInv.keep (hs : GatesInv cfg s) (hview : s'.view = s.view)
    (hasked : ∀ (i : Nat) status askedAt, s'.claims[i]? = some (.asked status askedAt) →
      s.claims[i]? = some (.asked status askedAt))
    (hway : s'.onItsWay = true → s.onItsWay = true) (hlog : s'.log = s.log) : GatesInv cfg s' where
  asked := by
    intro i status askedAt h
    rw [hview]
    exact hs.asked i status askedAt (hasked i status askedAt h)
  onItsWay := by
    intro hz h
    rw [hview]
    exact hs.onItsWay hz (hway h)
  log := hlog ▸ hs.log

/-- What a queue operation leaves open was open. -/
theorem onItsWay_of_later {queue : SerialQueue WalletTask Unit} (hlater : Later s.queue queue)
    (hlength : queue.jobs.length = s.queue.jobs.length)
    (h : onItsWay { s with queue := queue } = true) : s.onItsWay = true := by
  rcases onItsWay_iff.mp h with hclaim | ⟨k, hk⟩
  · exact onItsWay_iff.mpr (Or.inl hclaim)
  · obtain ⟨⟨j, hj, htask, hopen⟩, hcalled⟩ := uncalled_iff.mp hk
    have hlt : k < s.queue.jobs.length := hlength ▸ (List.getElem?_eq_some_iff.mp hj).1
    obtain ⟨j₀, hj₀, hsame, hopen₀⟩ := hlater.open_before hlt hj hopen
    exact onItsWay_iff.mpr
      (Or.inr ⟨k, uncalled_iff.mpr ⟨⟨j₀, hj₀, hsame.trans htask, hopen₀⟩, hcalled⟩⟩)

/-- A job that is chained on is on its way if it is a drip. -/
theorem onItsWay_of_run {task : WalletTask} {deadlineMs : ℚ} {queue : SerialQueue WalletTask Unit}
    (hrun : s.queue.run task deadlineMs = some queue) (htask : task ≠ .drip)
    (h : onItsWay { s with queue := queue } = true) : s.onItsWay = true := by
  rcases onItsWay_iff.mp h with hclaim | ⟨k, hk⟩
  · exact onItsWay_iff.mpr (Or.inl hclaim)
  · obtain ⟨⟨j, hj, hdrip, hopen⟩, hcalled⟩ := uncalled_iff.mp hk
    rcases jobs_run hrun hj with hold | ⟨-, hnew⟩
    · exact onItsWay_iff.mpr (Or.inr ⟨k, uncalled_iff.mpr ⟨⟨j, hold, hdrip, hopen⟩, hcalled⟩⟩)
    · exact absurd (hnew.symm.trans hdrip) htask

/-- A claim that leaves the window adds nothing to it. -/
theorem onItsWay_of_set {i : Nat} {c : ClaimStage} (hc : c ≠ .passed)
    (h : onItsWay { s with claims := s.claims.set i c } = true) : s.onItsWay = true := by
  rcases onItsWay_iff.mp h with ⟨k, hk⟩ | hjob
  · rw [List.getElem?_set] at hk
    split at hk
    · split at hk
      · exact absurd (Option.some.inj hk) hc
      · cases hk
    · exact onItsWay_iff.mpr (Or.inl ⟨k, hk⟩)
  · exact onItsWay_iff.mpr (Or.inr hjob)

theorem asked_of_set {i k : Nat} {c : ClaimStage} {status : Option NodeStatus} {askedAt : ℚ}
    {claims : List ClaimStage} (hc : ∀ st t, c ≠ .asked st t)
    (h : (claims.set i c)[k]? = some (.asked status askedAt)) :
    claims[k]? = some (.asked status askedAt) := by
  rw [List.getElem?_set] at h
  split at h
  · split at h
    · exact absurd (Option.some.inj h) (hc status askedAt)
    · cases h
  · exact h

theorem gatesInv_world {view : View} (hs : GatesInv cfg s) (hsteady : s.steady cfg (.world view) = true) :
    GatesInv cfg { s with view := view } := by
  simp only [steady, Bool.and_eq_true, Bool.or_eq_true, Bool.not_eq_true'] at hsteady
  obtain ⟨hmove, hheights⟩ := hsteady
  refine ⟨?_, ?_, hs.log⟩
  · intro i status askedAt h tip hpass
    rcases hheights with hnone | hworse
    · have hwaiting : s.waiting = true :=
        List.any_eq_true.mpr ⟨_, List.mem_of_getElem? h, rfl⟩
      simp [hwaiting] at hnone
    · exact gatesPass_of_noWorse hworse (hs.asked i status askedAt h tip hpass)
  · intro hz hway
    have hway' : s.onItsWay = true := hway
    rcases hmove with (hnot | hclosed) | hopen
    · simp [hway'] at hnot
    · simp [hs.onItsWay hz hway'] at hclosed
    · exact hopen

theorem gatesInv_claim (hs : GatesInv cfg s) (h : s.step cfg .claim = some s') : GatesInv cfg s' := by
  obtain rfl := Option.some.inj h
  refine ⟨?_, ?_, hs.log⟩
  · intro i status askedAt hi tip hpass
    rw [List.getElem?_append] at hi
    split at hi
    · exact hs.asked i status askedAt hi tip hpass
    · obtain ⟨_, hget⟩ := List.getElem?_eq_some_iff.mp hi
      simp only [List.getElem_singleton, ClaimStage.asked.injEq] at hget
      obtain ⟨rfl, -⟩ := hget
      exact @gatesPass_of_status cfg cfg.route.node.gates s tip hpass
  · intro hz hway
    refine hs.onItsWay hz ?_
    rcases onItsWay_iff.mp hway with ⟨k, hk⟩ | hjob
    · rw [List.getElem?_append] at hk
      split at hk
      · exact onItsWay_iff.mpr (Or.inl ⟨k, hk⟩)
      · obtain ⟨_, hget⟩ := List.getElem?_eq_some_iff.mp hk
        simp at hget
    · exact onItsWay_iff.mpr (Or.inr hjob)

theorem gatesInv_judge {i : Nat} {readings : GateReadings} (hs : GatesInv cfg s)
    (h : s.judge cfg i readings = some s') : GatesInv cfg s' := by
  unfold judge at h
  split at h
  · rename_i status askedAt hi
    split at h
    · obtain rfl := Option.some.inj h
      by_cases hnone :
          (refusalAfterProof cfg.route .taz { readings with node := status, tip := s.view.tip }).isNone = true
      · rw [if_pos hnone]
        refine ⟨?_, ?_, hs.log⟩
        · intro k st t hk
          exact hs.asked k st t (asked_of_set (by simp) hk)
        · -- the claim passed on its own status, so it passes on what can be read
          intro hz _
          exact hs.asked i status askedAt hi s.view.tip (gatesPass_of_judged hz hnone)
      · rw [if_neg hnone]
        exact hs.keep rfl (fun k st t hk => asked_of_set (by simp) hk) (onItsWay_of_set (by simp)) rfl
    · cases h
  · cases h

theorem gatesInv_stop {i : Nat} (hs : GatesInv cfg s) (h : s.stop i = some s') : GatesInv cfg s' := by
  unfold stop at h
  split at h
  · obtain rfl := Option.some.inj h
    exact hs.keep rfl (fun k st t hk => asked_of_set (by simp) hk) (onItsWay_of_set (by simp)) rfl
  · cases h

theorem gatesInv_enqueue {i : Nat} (hs : GatesInv cfg s) (h : s.enqueue cfg i = some s') :
    GatesInv cfg s' := by
  unfold enqueue at h
  split at h
  · rename_i hi
    obtain rfl := Option.some.inj h
    -- the claim was on its way already
    have hway : s.onItsWay = true := onItsWay_iff.mpr (Or.inl ⟨i, hi⟩)
    exact hs.keep rfl (fun k st t hk => asked_of_set (by simp) hk) (fun _ => hway) rfl
  · cases h

theorem gatesInv_refill (hs : GatesInv cfg s) (h : s.step cfg .refill = some s') : GatesInv cfg s' := by
  obtain rfl := Option.some.inj h
  cases hrun : s.queue.run .refill cfg.sendTaskDeadlineMs with
  | none => exact hs
  | some queue => exact hs.keep rfl (fun _ _ _ hk => hk) (onItsWay_of_run hrun (by simp)) rfl

/-- A call takes its job out of the window. -/
theorem onItsWay_of_called {k : Nat} (hcalled : s'.called = s.called ++ [k]) (hqueue : s'.queue = s.queue)
    (hclaims : s'.claims = s.claims) (h : s'.onItsWay = true) : s.onItsWay = true := by
  rcases onItsWay_iff.mp h with ⟨i, hi⟩ | ⟨l, hl⟩
  · exact onItsWay_iff.mpr (Or.inl ⟨i, hclaims ▸ hi⟩)
  · obtain ⟨hjob, hnot⟩ := uncalled_iff.mp hl
    rw [hcalled] at hnot
    rw [hqueue] at hjob
    exact onItsWay_iff.mpr
      (Or.inr ⟨l, uncalled_iff.mpr ⟨hjob, fun hin => hnot (List.mem_append_left _ hin)⟩⟩)

theorem GatesInv.keep_called {k : Nat} (hs : GatesInv cfg s) (hview : s'.view = s.view)
    (hcalled : s'.called = s.called ++ [k]) (hqueue : s'.queue = s.queue) (hclaims : s'.claims = s.claims)
    (hlog : ∀ b ∈ s'.log, b ∈ s.log ∨ b.view.gatesPass cfg.route.node.gates = true) : GatesInv cfg s' where
  asked := by
    intro i status askedAt h
    rw [hclaims] at h
    rw [hview]
    exact hs.asked i status askedAt h
  onItsWay := by
    intro hz h
    rw [hview]
    exact hs.onItsWay hz (onItsWay_of_called hcalled hqueue hclaims h)
  log := by
    intro b hb
    rcases hlog b hb with hold | hpass
    · exact hs.log b hold
    · exact hpass

theorem mayCall_spec {task : WalletTask} {k : Nat} (h : s.mayCall task k = true) :
    (∃ j, s.queue.jobs[k]? = some j ∧ j.task = task ∧ j.isSettled = false) ∧ k ∉ s.called := by
  simp only [mayCall, Bool.and_eq_true, Option.any_eq_true, beq_iff_eq, Bool.not_eq_true',
    List.contains_eq_mem, decide_eq_false_iff_not] at h
  obtain ⟨⟨j, hj, htask, hrun⟩, hcalled⟩ := h
  exact ⟨⟨j, hj, htask, Job.not_settled_of_running hrun⟩, hcalled⟩

theorem gatesInv_sendmany {k : Nat} (hs : GatesInv cfg s) (h : s.sendmany cfg k = some s') :
    GatesInv cfg s' := by
  unfold sendmany at h
  split at h
  · rename_i hcall
    obtain ⟨hz, hmay⟩ := hcall
    obtain rfl := Option.some.inj h
    have hway : s.onItsWay = true :=
      onItsWay_iff.mpr (Or.inr ⟨k, uncalled_iff.mpr (mayCall_spec hmay)⟩)
    refine hs.keep_called rfl rfl rfl rfl fun b hb => ?_
    rcases List.mem_append.mp hb with hold | hnew
    · exact Or.inl hold
    · obtain rfl := List.mem_singleton.mp hnew
      exact Or.inr (hs.onItsWay hz hway)
  · cases h

/-- A shield step logs a call with both gates behind it, or none. -/
theorem shield_cases {k : Nat} (h : s.shield cfg k = some s') :
    s'.view = s.view ∧ s'.called = s.called ++ [k] ∧ s'.queue = s.queue ∧ s'.claims = s.claims ∧
      (s'.log = s.log ∨
        s'.log = s.log ++ [⟨.refill, s.view⟩] ∧ s.view.gatesPass cfg.route.node.gates = true) := by
  unfold shield at h
  split at h
  · dsimp only at h
    split at h
    · rename_i hcalls
      obtain rfl := Option.some.inj h
      exact ⟨rfl, rfl, rfl, rfl, Or.inr ⟨rfl, gatesPass_of_calls hcalls⟩⟩
    · obtain rfl := Option.some.inj h
      exact ⟨rfl, rfl, rfl, rfl, Or.inl rfl⟩
  · cases h

theorem gatesInv_shield {k : Nat} (hs : GatesInv cfg s) (h : s.shield cfg k = some s') :
    GatesInv cfg s' := by
  obtain ⟨hview, hcalled, hqueue, hclaims, hlog⟩ := shield_cases h
  refine hs.keep_called hview hcalled hqueue hclaims fun b hb => ?_
  rcases hlog with hsame | ⟨hnew, hpass⟩
  · exact Or.inl (hsame ▸ hb)
  · rw [hnew] at hb
    rcases List.mem_append.mp hb with hold | hnew
    · exact Or.inl hold
    · obtain rfl := List.mem_singleton.mp hnew
      exact Or.inr hpass

theorem gatesInv_step {ev : BroadcastEvent} (hs : GatesInv cfg s) (h : s.steadyStep cfg ev = some s') :
    GatesInv cfg s' := by
  unfold steadyStep at h
  split at h
  · rename_i hsteady
    cases ev with
    | world view =>
      simp only [step] at h
      split at h
      · obtain rfl := Option.some.inj h
        exact gatesInv_world hs hsteady
      · cases h
    | claim => exact gatesInv_claim hs h
    | judge i readings => exact gatesInv_judge hs h
    | stop i => exact gatesInv_stop hs h
    | enqueue i => exact gatesInv_enqueue hs h
    | refill => exact gatesInv_refill hs h
    | start k =>
      obtain ⟨queue, hstart, rfl⟩ := Option.map_eq_some_iff.mp h
      obtain ⟨hlater, hlength⟩ := later_start hstart
      exact hs.keep rfl (fun _ _ _ hk => hk) (onItsWay_of_later hlater hlength) rfl
    | settle k =>
      obtain ⟨queue, hsettle, rfl⟩ := Option.map_eq_some_iff.mp h
      obtain ⟨hlater, hlength⟩ := later_settle hsettle
      exact hs.keep rfl (fun _ _ _ hk => hk) (onItsWay_of_later hlater hlength) rfl
    | fire k =>
      obtain ⟨queue, hfire, rfl⟩ := Option.map_eq_some_iff.mp h
      obtain ⟨hlater, hlength⟩ := later_fire hfire
      exact hs.keep rfl (fun _ _ _ hk => hk) (onItsWay_of_later hlater hlength) rfl
    | sendmany k => exact gatesInv_sendmany hs h
    | shield k => exact gatesInv_shield hs h
  · cases h

/-! ## The law -/

/-- Every call of one kind was made while both gates passed on what could
be read. -/
def GatesHold (cfg : BroadcastConfig) (task : WalletTask) (s : Broadcasts) : Prop :=
  ∀ b ∈ s.log, b.task = task → b.view.gatesPass cfg.route.node.gates = true

/-- Shield steps keep the law by themselves. -/
theorem refills_hold_step {ev : BroadcastEvent} (hs : GatesHold cfg .refill s)
    (h : s.step cfg ev = some s') : GatesHold cfg .refill s' := by
  have hkeep : s'.log = s.log → GatesHold cfg .refill s' := fun hlog b hb => hs b (hlog ▸ hb)
  cases ev with
  | world view =>
    simp only [step] at h
    split at h
    · exact hkeep (Option.some.inj h ▸ rfl)
    · cases h
  | claim => exact hkeep (Option.some.inj h ▸ rfl)
  | judge i readings =>
    simp only [step, judge] at h
    split at h
    · split at h
      · exact hkeep (Option.some.inj h ▸ rfl)
      · cases h
    · cases h
  | stop i =>
    simp only [step, stop] at h
    split at h
    · exact hkeep (Option.some.inj h ▸ rfl)
    · cases h
  | enqueue i =>
    simp only [step, enqueue] at h
    split at h
    · exact hkeep (Option.some.inj h ▸ rfl)
    · cases h
  | refill => exact hkeep (Option.some.inj h ▸ rfl)
  | start k =>
    obtain ⟨queue, _, rfl⟩ := Option.map_eq_some_iff.mp h
    exact hkeep rfl
  | settle k =>
    obtain ⟨queue, _, rfl⟩ := Option.map_eq_some_iff.mp h
    exact hkeep rfl
  | fire k =>
    obtain ⟨queue, _, rfl⟩ := Option.map_eq_some_iff.mp h
    exact hkeep rfl
  | sendmany k =>
    simp only [step, sendmany] at h
    split at h
    · obtain rfl := Option.some.inj h
      intro b hb htask
      rcases List.mem_append.mp hb with hold | hnew
      · exact hs b hold htask
      · obtain rfl := List.mem_singleton.mp hnew
        cases htask
    · cases h
  | shield k =>
    obtain ⟨-, -, -, -, hlog⟩ := shield_cases h
    rcases hlog with hsame | ⟨hnew, hpass⟩
    · exact hkeep hsame
    · intro b hb htask
      rw [hnew] at hb
      rcases List.mem_append.mp hb with hold | hnew
      · exact hs b hold htask
      · obtain rfl := List.mem_singleton.mp hnew
        exact hpass

/-- **The gates hold when the wallet is called**: for a shield step in
every run, for a drip in every run of a world that is steady. -/
theorem gates_hold_when_called {cfg : BroadcastConfig} {maxPending : Nat} {view : View}
    {es : List BroadcastEvent} {s : Broadcasts} :
    (run (step cfg) (init maxPending view) es = some s → GatesHold cfg .refill s) ∧
      (run (steadyStep cfg) (init maxPending view) es = some s → GatesHold cfg .drip s) := by
  constructor
  · intro h
    refine run_invariant (GatesHold cfg .refill) (fun _ _ _ => refills_hold_step) ?_ h
    intro b hb
    cases hb
  · intro h
    have hs := run_invariant (GatesInv cfg) (fun _ _ _ => gatesInv_step)
      (gatesInv_init cfg maxPending view) h
    exact fun b hb _ => hs.log b hb

/-- Budgets of 5 and 10 blocks, and a shield step that may act. -/
def stockBroadcasts : BroadcastConfig where
  route := ⟨⟨⟨⟨5, shieldMaxLag_default_le⟩, ⟨10, walletMaxLag_default_le⟩, fun _ => []⟩, 200, 1200000⟩,
    "zallet", 10000000, 100000000, 900000, true⟩
  shield := ⟨js "account", js "address"⟩
  shieldCoinbase := true
  sendTaskDeadlineMs := 480000

/-- A wallet, a node and one reference. -/
def viewAt (now walletTip nodeTip : ℚ) (reference : ClaimedHeight) : View :=
  ⟨now, some walletTip, some nodeTip, ⟨[(.lightwalletd, ⟨reference, now, none⟩)], by simp⟩⟩

/-- The readings of a claim that only the two gates could refuse. -/
def amplyFunded : GateReadings :=
  ⟨false, ⟨.ok, 0, 0, 0, 0, 0, ""⟩, some 500000000, none, none, false⟩

/-- A shield step, and a drip that a block comes between. -/
def steadyRun : List BroadcastEvent :=
  [.refill, .start 0, .shield 0, .claim, .judge 0 amplyFunded, .enqueue 0,
    .world (viewAt 75000 4349919 4349921 4349922), .settle 0, .start 1, .sendmany 1]

theorem gates_hold_when_called_steady :
    (∃ s, run (step stockBroadcasts) (init 20 (viewAt 0 4349918 4349920 4349921)) steadyRun = some s ∧
      s.log.map Broadcast.task = [.refill, .drip] ∧ GatesHold stockBroadcasts .refill s) ∧
    ∃ s, run (steadyStep stockBroadcasts) (init 20 (viewAt 0 4349918 4349920 4349921)) steadyRun = some s ∧
      s.log.map Broadcast.task = [.refill, .drip] ∧ GatesHold stockBroadcasts .drip s := by
  constructor
  · have hlog : (run (step stockBroadcasts) (init 20 (viewAt 0 4349918 4349920 4349921)) steadyRun).map
        (fun s => s.log.map Broadcast.task) = some [.refill, .drip] := by decide +kernel
    obtain ⟨s, hs, htasks⟩ := Option.map_eq_some_iff.mp hlog
    exact ⟨s, hs, htasks, gates_hold_when_called.1 hs⟩
  · have hlog : (run (steadyStep stockBroadcasts) (init 20 (viewAt 0 4349918 4349920 4349921))
        steadyRun).map (fun s => s.log.map Broadcast.task) = some [.refill, .drip] := by decide +kernel
    obtain ⟨s, hs, htasks⟩ := Option.map_eq_some_iff.mp hlog
    exact ⟨s, hs, htasks, gates_hold_when_called.2 hs⟩

/-- Two claims pass their gates; while the first one's send is executing
the wallet starts a rescan. -/
def rescanRun : List BroadcastEvent :=
  [.claim, .claim, .judge 0 amplyFunded, .judge 1 amplyFunded, .enqueue 0, .enqueue 1, .start 0, .sendmany 0,
    .world (viewAt 60000 4349700 4349921 4349921), .settle 0, .start 1, .sendmany 1]

theorem gates_fail_at_call :
    ∃ s, run (step stockBroadcasts) (init 20 (viewAt 0 4349918 4349920 4349921)) rescanRun = some s ∧
      ¬ GatesHold stockBroadcasts .drip s := by
  have hlog : (run (step stockBroadcasts) (init 20 (viewAt 0 4349918 4349920 4349921)) rescanRun).map
      (fun s => s.log.map fun b => (b.task, b.view.gatesPass stockBroadcasts.route.node.gates)) =
        some [(.drip, true), (.drip, false)] := by decide +kernel
  obtain ⟨s, hs, hlog⟩ := Option.map_eq_some_iff.mp hlog
  refine ⟨s, hs, fun hhold => ?_⟩
  have hmem : (WalletTask.drip, false) ∈
      s.log.map fun b => (b.task, b.view.gatesPass stockBroadcasts.route.node.gates) := by
    rw [hlog]
    simp
  obtain ⟨b, hb, hview⟩ := List.mem_map.mp hmem
  obtain ⟨htask, hpass⟩ := Prod.mk.inj hview
  simp [hhold b hb htask] at hpass

end Broadcasts

end ZcashFaucet.System
