/-
ZcashFaucet.Reserve.OneRefill — at most one refill step is in the wallet's
queue.

The loop has its own notion of busy, `stepInFlight`, and the queue has
another, its depth. A deadline makes them differ: the flag is cleared by
the error while the step goes on holding the wallet. The bound rests on
the depth alone. A refill is chained onto an idle queue, so in the shape
of the queue (`QueueShape`) it stands at the boundary between what has
settled and what has not, and the boundary passes it only when it settles
(`RefillInv`). What is chained on later does not move it.
-/
import ZcashFaucet.Reserve.Reconciler
import ZcashFaucet.Zcash.QueueTheorems

namespace ZcashFaucet.Reserve

open Lib Zcash

variable {cfg : ReserveConfig} {s s' : ReserveRun} {ev : ReserveEvent}
  {q q' : SerialQueue SendTask SendResult} {done : Nat}

/-! ## What a step does to the queue -/

theorem decideStep_starts {now : ℚ} {queueDepth : Int} {r : Reconciler}
    (h : (r.decideStep cfg now queueDepth).2 = true) : queueDepth = 0 := by
  unfold Reconciler.decideStep at h
  dsimp only at h
  split at h
  · rename_i hstart
    exact depth_of_shouldStartStep hstart
  · cases h

inductive QueueMove (cfg : ReserveConfig) (q q' : SerialQueue SendTask SendResult) : Prop
  | idle (same : q' = q)
  | drip (run : q.run .drip cfg.sendTaskDeadlineMs = some q')
  | refill (empty : q.depth = 0) (run : q.run .refill cfg.sendTaskDeadlineMs = some q')
  | start (i : Nat) (now : ℚ) (start : q.start i now = some q')
  | settle (i : Nat) (out : SendResult) (settle : q.settle i out = some q')
  | fire (i : Nat) (now : ℚ) (fire : q.fire i now = some q')

theorem balance_queue (cfg : ReserveConfig) (spendableZat : Option Int) (s : ReserveRun) :
    QueueMove cfg s.queue (s.balance cfg spendableZat).queue := by
  unfold ReserveRun.balance
  dsimp only
  split
  · rename_i hstarts
    have hempty := decideStep_starts hstarts
    split
    · rename_i queue hrun
      exact .refill hempty hrun
    · exact .idle rfl
  · exact .idle rfl

/-- Only a tick on an idle queue enqueues a refill. -/
theorem step_queue (h : s.step cfg ev = some s') : QueueMove cfg s.queue s'.queue := by
  cases ev with
  | advance ms =>
    simp only [ReserveRun.step] at h
    split at h
    · exact .idle (Option.some.inj h ▸ rfl)
    · cases h
  | tick => exact .idle (Option.some.inj h ▸ rfl)
  | balance spendableZat =>
    simp only [ReserveRun.step] at h
    split at h
    · exact Option.some.inj h ▸ balance_queue cfg spendableZat s
    · cases h
  | drip =>
    obtain rfl := Option.some.inj h
    cases hrun : s.queue.run .drip cfg.sendTaskDeadlineMs with
    | none => exact .idle rfl
    | some queue => exact .drip hrun
  | start i =>
    obtain ⟨queue, hstart, rfl⟩ := Option.map_eq_some_iff.mp h
    exact .start i s.now hstart
  | dripSettles i =>
    simp only [ReserveRun.step] at h
    split at h
    · obtain ⟨queue, hsettle, rfl⟩ := Option.map_eq_some_iff.mp h
      exact .settle i .drip hsettle
    · cases h
  | stepSettles i out =>
    simp only [ReserveRun.step] at h
    split at h
    · obtain ⟨queue, hsettle, rfl⟩ := Option.map_eq_some_iff.mp h
      exact .settle i (.step out) hsettle
    · cases h
  | deadline i =>
    obtain ⟨queue, hfire, rfl⟩ := Option.map_eq_some_iff.mp h
    exact .fire i s.now hfire
  | react k =>
    simp only [ReserveRun.step, ReserveRun.react] at h
    split at h
    · split at h
      · obtain ⟨out, _, rfl⟩ := Option.map_eq_some_iff.mp h
        exact .idle rfl
      · cases h
    · cases h
  | cleanup k =>
    simp only [ReserveRun.step, ReserveRun.cleanup] at h
    split at h
    · exact .idle (Option.some.inj h ▸ rfl)
    · cases h

/-! ## Where a refill stands -/

/-- The refill at place `i` is queued or executing. -/
def RefillPending (q : SerialQueue SendTask SendResult) (i : Nat) : Prop :=
  ∃ j, q.jobs[i]? = some j ∧ j.task = .refill ∧ j.isSettled = false

/-- No refill stands behind the boundary of the queue. -/
structure RefillInv (q : SerialQueue SendTask SendResult) (done : Nat) : Prop where
  shape : QueueShape q done
  front : ∀ (i : Nat) (j : Job SendTask SendResult), q.jobs[i]? = some j → j.task = .refill → i ≤ done

theorem RefillInv.eq_done (hq : RefillInv q done) {i : Nat} (hi : RefillPending q i) : i = done := by
  obtain ⟨j, hj, htask, hs⟩ := hi
  have hle := hq.front i j hj htask
  have hge : ¬ i < done := fun hlt => by simp [(hq.shape.isSettled_iff hj).mpr hlt] at hs
  omega

theorem front_modify {f : Job SendTask SendResult → Job SendTask SendResult}
    (hf : ∀ j, (f j).task = j.task) {k bound : Nat}
    (hfront : ∀ (i : Nat) (j : Job SendTask SendResult), q.jobs[i]? = some j → j.task = .refill →
      i ≤ bound) (i : Nat) (j : Job SendTask SendResult) (hj : (q.jobs.modify k f)[i]? = some j)
    (htask : j.task = .refill) : i ≤ bound := by
  obtain ⟨a, ha, rfl⟩ := getElem?_modify_some hj
  refine hfront i a ha ?_
  split at htask
  · rw [hf] at htask
    exact htask
  · exact htask

theorem refillInv_move (hq : ∃ done, RefillInv q done) (h : QueueMove cfg q q') :
    ∃ done, RefillInv q' done := by
  obtain ⟨done, hq⟩ := hq
  cases h with
  | idle same => exact ⟨done, same ▸ hq⟩
  | drip hrun =>
    refine ⟨done, queueShape_run hq.shape hrun, fun i j hj htask => ?_⟩
    rcases jobs_run hrun hj with hold | ⟨-, hdrip⟩
    · exact hq.front i j hold htask
    · rw [htask] at hdrip
      cases hdrip
  | refill hempty hrun =>
    refine ⟨done, queueShape_run hq.shape hrun, fun i j hj htask => ?_⟩
    rcases jobs_run hrun hj with hold | ⟨rfl, -⟩
    · exact hq.front i j hold htask
    · -- an idle queue has settled everything, so its end is the boundary
      have hdepth := hq.shape.depth
      simp only [SerialQueue.depth] at hempty
      omega
  | start i now hstart =>
    obtain ⟨-, hshape⟩ := queueShape_start hq.shape hstart
    obtain ⟨_, _, _, rfl⟩ := start_eq_some hstart
    exact ⟨done, hshape, front_modify (Job.start_task now) hq.front⟩
  | settle i out hsettle =>
    obtain ⟨-, hshape⟩ := queueShape_settle hq.shape hsettle
    obtain ⟨_, _, _, rfl⟩ := settle_eq_some hsettle
    refine ⟨done + 1, hshape, front_modify (Job.settle_task out) fun k j hj htask => ?_⟩
    exact Nat.le_succ_of_le (hq.front k j hj htask)
  | fire i now hfire =>
    have hshape := queueShape_fire hq.shape hfire
    obtain ⟨_, _, _, _, _, rfl⟩ := fire_eq_some hfire
    exact ⟨done, hshape, front_modify Job.fire_task hq.front⟩

theorem refillInv_new (maxPending : Nat) : RefillInv (.new maxPending) 0 where
  shape := queueShape_new maxPending
  front := by
    intro i j hj
    simp [SerialQueue.new] at hj

theorem refillInv_run {maxPending : Nat} {now : ℚ} {es : List ReserveEvent}
    (h : run (ReserveRun.step cfg) (.new maxPending now) es = some s) :
    ∃ done, RefillInv s.queue done :=
  run_invariant (fun s : ReserveRun => ∃ done, RefillInv s.queue done)
    (fun _ _ _ hs hstep => refillInv_move hs (step_queue hstep)) ⟨0, refillInv_new maxPending⟩ h

/-! ## What stays of a refill -/

theorem later_move (h : QueueMove cfg q q') : Later q q' := by
  cases h with
  | idle same => exact same ▸ Later.refl q
  | drip h => exact later_run h
  | refill _ h => exact later_run h
  | start i now h => exact (later_start h).1
  | settle i out h => exact (later_settle h).1
  | fire i now h => exact (later_fire h).1

theorem later_of_run {es : List ReserveEvent} (h : run (ReserveRun.step cfg) s es = some s') :
    Later s.queue s'.queue :=
  run_invariant (fun m : ReserveRun => Later s.queue m.queue)
    (fun _ _ _ hm hstep => hm.trans (later_move (step_queue hstep))) (Later.refl _) h

theorem refillPending_of_later (h : Later q q') {i : Nat} (hi : i < q.jobs.length)
    (hp : RefillPending q' i) : RefillPending q i := by
  obtain ⟨j', hj', htask, hs⟩ := hp
  obtain ⟨j, hj, hsame, hopen⟩ := h.open_before hi hj' hs
  exact ⟨j, hj, hsame.trans htask, hopen⟩

/-! ## The bound -/

/-- The state after the first events of a run. -/
def Passes (cfg : ReserveConfig) (start : ReserveRun) (es : List ReserveEvent) (s : ReserveRun) : Prop :=
  ∃ pre post, es = pre ++ post ∧ run (ReserveRun.step cfg) start pre = some s

/-- What the queue's users rely on, of a whole run from `start`. -/
structure OneRefill (cfg : ReserveConfig) (start : ReserveRun) (es : List ReserveEvent) : Prop where
  /-- At most one refill is queued or executing. -/
  one : ∀ s, Passes cfg start es s → ∀ i k, RefillPending s.queue i → RefillPending s.queue k → i = k
  /-- A refill that a step adds was added to an idle queue. -/
  idle : ∀ pre ev post s s', es = pre ++ ev :: post → run (ReserveRun.step cfg) start pre = some s →
    s.step cfg ev = some s' → ∀ i, s.queue.jobs.length ≤ i → RefillPending s'.queue i →
      s.queue.depth = 0 ∧ ∀ j ∈ s.queue.jobs, j.isSettled = true
  /-- Whoever is admitted waits behind one refill, from admission on: of
  two that are ever pending before it, each is the other. -/
  wait : ∀ place s₁ s₂, Passes cfg start es s₁ → Passes cfg start es s₂ →
    place < s₁.queue.jobs.length → place < s₂.queue.jobs.length →
    ∀ i < place, ∀ k < place, RefillPending s₁.queue i → RefillPending s₂.queue k → i = k

section Bound

variable {maxPending : Nat} {now : ℚ} {es : List ReserveEvent}

theorem one_of_passes (h : Passes cfg (.new maxPending now) es s) {i k : Nat}
    (hi : RefillPending s.queue i) (hk : RefillPending s.queue k) : i = k := by
  obtain ⟨pre, post, -, hrun⟩ := h
  obtain ⟨done, hq⟩ := refillInv_run hrun
  exact (hq.eq_done hi).trans (hq.eq_done hk).symm

theorem idle_of_step {pre : List ReserveEvent}
    (hrun : run (ReserveRun.step cfg) (.new maxPending now) pre = some s) (hstep : s.step cfg ev = some s')
    {i : Nat} (hi : s.queue.jobs.length ≤ i) (hp : RefillPending s'.queue i) :
    s.queue.depth = 0 ∧ ∀ j ∈ s.queue.jobs, j.isSettled = true := by
  obtain ⟨done, hq⟩ := refillInv_run hrun
  obtain ⟨j, hj, htask, -⟩ := hp
  have hlt' := (List.getElem?_eq_some_iff.mp hj).1
  cases step_queue hstep with
  | idle same =>
    rw [same] at hlt'
    omega
  | drip h =>
    rcases jobs_run h hj with hold | ⟨-, hdrip⟩
    · have := (List.getElem?_eq_some_iff.mp hold).1
      omega
    · rw [htask] at hdrip
      cases hdrip
  | refill hempty _ =>
    refine ⟨hempty, fun a ha => ?_⟩
    obtain ⟨k, hk⟩ := List.mem_iff_getElem?.mp ha
    have hlt := (List.getElem?_eq_some_iff.mp hk).1
    have hdepth := hq.shape.depth
    simp only [SerialQueue.depth] at hempty
    exact (hq.shape.isSettled_iff hk).mpr (by omega)
  -- the other operations leave the number of jobs as it is
  | start k now h =>
    have := (later_start h).2
    omega
  | settle k out h =>
    have := (later_settle h).2
    omega
  | fire k now h =>
    have := (later_fire h).2
    omega

/-- Of two states of a run, one comes later. -/
theorem later_of_passes {s₁ s₂ : ReserveRun} (h₁ : Passes cfg (.new maxPending now) es s₁)
    (h₂ : Passes cfg (.new maxPending now) es s₂) :
    Later s₁.queue s₂.queue ∨ Later s₂.queue s₁.queue := by
  obtain ⟨pre₁, post₁, heq₁, hrun₁⟩ := h₁
  obtain ⟨pre₂, post₂, heq₂, hrun₂⟩ := h₂
  have hforward : ∀ {p r : List ReserveEvent} {m m' : ReserveRun},
      run (ReserveRun.step cfg) (.new maxPending now) p = some m →
      run (ReserveRun.step cfg) (.new maxPending now) r = some m' → p <+: r → Later m.queue m'.queue := by
    rintro p r m m' hp hr ⟨rest, rfl⟩
    rw [run_append, hp, Option.bind_some] at hr
    exact later_of_run hr
  rcases List.prefix_or_prefix_of_prefix ⟨post₁, heq₁.symm⟩ ⟨post₂, heq₂.symm⟩ with hpre | hpre
  · exact Or.inl (hforward hrun₁ hrun₂ hpre)
  · exact Or.inr (hforward hrun₂ hrun₁ hpre)

/-- **At most one refill** is in the queue, in every run of the loop, the
drips, the queue and its deadlines. -/
theorem one_refill (cfg : ReserveConfig) (maxPending : Nat) (now : ℚ) (es : List ReserveEvent) :
    OneRefill cfg (.new maxPending now) es where
  one := fun s h i k hi hk => one_of_passes h hi hk
  idle := fun pre ev post s s' _ hrun hstep i hi hp => idle_of_step hrun hstep hi hp
  wait := by
    intro place s₁ s₂ h₁ h₂ hlt₁ hlt₂ i hi k hk hp₁ hp₂
    rcases later_of_passes h₁ h₂ with hlater | hlater
    · have hp := refillPending_of_later hlater (Nat.lt_trans hk hlt₁) hp₂
      exact one_of_passes h₁ hp₁ hp
    · have hp := refillPending_of_later hlater (Nat.lt_trans hi hlt₂) hp₁
      exact one_of_passes h₂ hp hp₂

/-- A reserve that is short, with a step that overstays its deadline: the
flag is down, the step still runs, a drip waits behind it, and the next
tick starts nothing. -/
example :
    (run
        (ReserveRun.step ⟨⟨500, 1000⟩, true, 50, 0, 1000, fun _ => []⟩)
        (.new 20 0)
        [.tick, .balance (some 0), .start 0, .advance 1000, .deadline 0, .react 0, .cleanup 0, .drip,
          .tick, .balance (some 0), .tick, .balance (some 0)]).map
      (fun s => (s.reconciler.stepInFlight, s.queue.jobs.map fun j => (j.task, j.isRunning))) =
    some (false, [(.refill, true), (.drip, false)]) := by decide +kernel

end Bound

end ZcashFaucet.Reserve
