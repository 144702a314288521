/-
ZcashFaucet.Zcash.QueueTheorems — the serial queue is a queue, and is
serial.

The chain of promises keeps one shape (`QueueShape`): the jobs before
`done` have settled, the job at `done` is the only one that can be
running, and everything behind it is waiting. Each operation of the
event loop moves that boundary in one way: `start` and `settle` are
possible at `done` only, `settle` moves it by one, `run` and `fire`
leave it. Order, exclusion and the depth counter are read off the shape.

`QueueRunInv` adds the callers. An answer is logged once for each call;
a deadline's answer comes no earlier than the delay of its timer after
the task started. That delay is the deadline itself only when
`setTimeout` keeps it (`le_timeoutDelay_iff`), which is the condition of
the last clause of `queue_safe`.
-/
import ZcashFaucet.Lib.Modify
import ZcashFaucet.Zcash.Queue
import Mathlib.Tactic.Linarith

namespace ZcashFaucet.Zcash

open Lib

variable {τ α : Type}

/-! ## Timers -/

/-- The timer of a deadline is not early exactly when the deadline is at
most a millisecond, or whole and not too long. -/
theorem le_timeoutDelay_iff (d : ℚ) :
    d ≤ timeoutDelay d ↔ d ≤ 1 ∨ d ≤ timeoutMax ∧ (⌊d⌋ : ℚ) = d := by
  unfold timeoutDelay
  by_cases h1 : d ≤ 1
  · have hdelay : (1 : ℚ) ≤ if 1 ≤ d ∧ d ≤ timeoutMax then (⌊d⌋ : ℚ) else 1 := by
      split
      · rename_i h
        have : (1 : ℤ) ≤ ⌊d⌋ := Int.le_floor.mpr (by exact_mod_cast h.1)
        exact_mod_cast this
      · exact le_refl 1
    exact ⟨fun _ => Or.inl h1, fun _ => le_trans h1 hdelay⟩
  · have hlt : 1 < d := not_le.mp h1
    by_cases h2 : d ≤ timeoutMax
    · rw [if_pos ⟨le_of_lt hlt, h2⟩]
      constructor
      · intro h
        exact Or.inr ⟨h2, le_antisymm (Int.floor_le d) h⟩
      · rintro (h | ⟨-, h⟩)
        · exact absurd h h1
        · exact le_of_eq h.symm
    · rw [if_neg fun h => h2 h.2]
      constructor
      · intro h
        exact absurd h h1
      · rintro (h | ⟨h, -⟩)
        · exact h
        · exact absurd h h2

/-! ## Jobs -/

namespace Job

@[simp] theorem start_task (now : ℚ) (j : Job τ α) : (j.start now).task = j.task := rfl
@[simp] theorem settle_task (out : α) (j : Job τ α) : (j.settle out).task = j.task := rfl
@[simp] theorem fire_task (j : Job τ α) : j.fire.task = j.task := rfl

@[simp] theorem start_after (now : ℚ) (j : Job τ α) : (j.start now).after = j.after := rfl
@[simp] theorem settle_after (out : α) (j : Job τ α) : (j.settle out).after = j.after := rfl
@[simp] theorem fire_after (j : Job τ α) : j.fire.after = j.after := rfl

@[simp] theorem start_isSettled (now : ℚ) (j : Job τ α) : (j.start now).isSettled = false := rfl
@[simp] theorem start_isRunning (now : ℚ) (j : Job τ α) : (j.start now).isRunning = true := rfl
@[simp] theorem settle_isSettled (out : α) (j : Job τ α) : (j.settle out).isSettled = true := rfl
@[simp] theorem settle_isRunning (out : α) (j : Job τ α) : (j.settle out).isRunning = false := rfl
@[simp] theorem fire_isSettled (j : Job τ α) : j.fire.isSettled = j.isSettled := rfl
@[simp] theorem fire_isRunning (j : Job τ α) : j.fire.isRunning = j.isRunning := rfl
@[simp] theorem fire_isQueued (j : Job τ α) : j.fire.isQueued = j.isQueued := rfl

theorem not_settled_of_queued {j : Job τ α} (h : j.isQueued = true) : j.isSettled = false := by
  cases hp : j.phase <;> simp [isQueued, isSettled, hp] at h ⊢

theorem not_settled_of_running {j : Job τ α} (h : j.isRunning = true) : j.isSettled = false := by
  cases hp : j.phase <;> simp [isRunning, isSettled, hp] at h ⊢

theorem not_queued_of_running {j : Job τ α} (h : j.isRunning = true) : j.isQueued = false := by
  cases hp : j.phase <;> simp [isRunning, isQueued, hp] at h ⊢

theorem running_or_queued {j : Job τ α} (h : j.isSettled = false) :
    j.isRunning = true ∨ j.isQueued = true := by
  cases hp : j.phase <;> simp [isRunning, isQueued, isSettled, hp] at h ⊢

end Job

/-! ## The shape of the chain -/

/-- The job an admitted job is chained onto. -/
def before : Nat → Option Nat
  | 0 => none
  | n + 1 => some n

structure QueueShape (q : SerialQueue τ α) (done : Nat) : Prop where
  tail : q.tail = before q.jobs.length
  chain : ∀ i j, q.jobs[i]? = some j → j.after = before i
  settled : ∀ i, i < done → ∃ j, q.jobs[i]? = some j ∧ j.isSettled = true
  head : ∀ j, q.jobs[done]? = some j → j.isSettled = false
  waiting : ∀ i j, done < i → q.jobs[i]? = some j → j.isQueued = true
  armed : ∀ (i : Nat) (j : Job τ α), q.jobs[i]? = some j → j.timer.isSome = true → j.isRunning = true
  depth : q.pending + done = q.jobs.length
  bound : q.pending ≤ q.maxPending

theorem queueShape_new (maxPending : Nat) :
    QueueShape (SerialQueue.new maxPending : SerialQueue τ α) 0 where
  tail := rfl
  chain := by
    intro i j h
    simp [SerialQueue.new] at h
  settled := by
    intro i hi
    exact absurd hi (Nat.not_lt_zero i)
  head := by
    intro j h
    simp [SerialQueue.new] at h
  waiting := by
    intro i j _ h
    simp [SerialQueue.new] at h
  armed := by
    intro i j h
    simp [SerialQueue.new] at h
  depth := rfl
  bound := by simp [SerialQueue.new]

namespace QueueShape

variable {q q' : SerialQueue τ α} {done i : Nat} {j : Job τ α}

theorem done_le (hq : QueueShape q done) : done ≤ q.jobs.length := by
  by_contra h
  obtain ⟨j, hj, -⟩ := hq.settled q.jobs.length (Nat.lt_of_not_le h)
  simp at hj

/-- A job has settled exactly when it is before the boundary. -/
theorem isSettled_iff (hq : QueueShape q done) (hj : q.jobs[i]? = some j) :
    j.isSettled = true ↔ i < done := by
  constructor
  · intro hs
    by_contra hlt
    rcases Nat.lt_or_eq_of_le (Nat.le_of_not_lt hlt) with hgt | rfl
    · have := Job.not_settled_of_queued (hq.waiting i j hgt hj)
      simp [hs] at this
    · have := hq.head j hj
      simp [hs] at this
  · intro hlt
    obtain ⟨j', hj', hs⟩ := hq.settled i hlt
    obtain rfl : j = j' := Option.some.inj (hj.symm.trans hj')
    exact hs

/-- Only the job at the boundary can be running. -/
theorem eq_done_of_running (hq : QueueShape q done) (hj : q.jobs[i]? = some j)
    (hr : j.isRunning = true) : i = done := by
  rcases Nat.lt_trichotomy i done with hlt | heq | hgt
  · have hs := (hq.isSettled_iff hj).mpr hlt
    simp [Job.not_settled_of_running hr] at hs
  · exact heq
  · have hw := hq.waiting i j hgt hj
    simp [Job.not_queued_of_running hr] at hw

/-- Only the job at the boundary can start. -/
theorem eq_done_of_startable (hq : QueueShape q done) (hj : q.jobs[i]? = some j)
    (hs : q.startable j = true) : i = done := by
  simp only [SerialQueue.startable, Bool.and_eq_true] at hs
  obtain ⟨hqueued, hres⟩ := hs
  have hge : ¬ i < done := fun hlt => by
    have hset := (hq.isSettled_iff hj).mpr hlt
    simp [Job.not_settled_of_queued hqueued] at hset
  rw [hq.chain i j hj] at hres
  cases i with
  | zero => omega
  | succ k =>
    simp only [before, SerialQueue.resolved] at hres
    cases hp : q.jobs[k]? with
    | none => simp [hp] at hres
    | some p =>
      have := (hq.isSettled_iff hp).mp (by simpa [hp] using hres)
      omega

/-- The boundary's job, when it waits, waits for nothing. -/
theorem startable_done (hq : QueueShape q done) (hj : q.jobs[done]? = some j)
    (hqueued : j.isQueued = true) : q.startable j = true := by
  simp only [SerialQueue.startable, hqueued, Bool.true_and]
  rw [hq.chain done j hj]
  cases done with
  | zero => rfl
  | succ k =>
    obtain ⟨p, hp, hps⟩ := hq.settled k (Nat.lt_succ_self k)
    simp [before, SerialQueue.resolved, hp, hps]

/-- At most one task is executing. -/
theorem one_running (hq : QueueShape q done) {i k : Nat} {a b : Job τ α}
    (ha : q.jobs[i]? = some a) (hb : q.jobs[k]? = some b) (hra : a.isRunning = true)
    (hrb : b.isRunning = true) : i = k :=
  (hq.eq_done_of_running ha hra).trans (hq.eq_done_of_running hb hrb).symm

/-- `depth` counts the admitted tasks that have not settled. -/
theorem depth_eq_count (hq : QueueShape q done) :
    q.depth = (q.jobs.countP fun j => !j.isSettled : Nat) := by
  have hsplit := List.take_append_drop done q.jobs
  have htake : ((q.jobs.take done).countP fun j => !j.isSettled) = 0 := by
    rw [List.countP_eq_zero]
    intro j hj
    obtain ⟨i, hi⟩ := List.mem_iff_getElem?.mp hj
    rw [List.getElem?_take] at hi
    split at hi
    · rename_i hlt
      simp [(hq.isSettled_iff hi).mpr hlt]
    · cases hi
  have hdrop : ((q.jobs.drop done).countP fun j => !j.isSettled) = (q.jobs.drop done).length := by
    rw [List.countP_eq_length]
    intro j hj
    obtain ⟨i, hi⟩ := List.mem_iff_getElem?.mp hj
    rw [List.getElem?_drop] at hi
    cases hs : j.isSettled with
    | false => rfl
    | true =>
      have := (hq.isSettled_iff hi).mp hs
      omega
  rw [← hsplit, List.countP_append, htake, hdrop, List.length_drop]
  have hd := hq.depth
  have hle := hq.done_le
  simp only [SerialQueue.depth]
  omega

end QueueShape

/-! ## What an operation does -/

section Operations

variable {q q' : SerialQueue τ α} {done i : Nat} {now : ℚ} {out : α} {task : τ} {deadlineMs : ℚ}

theorem run_eq_some (h : q.run task deadlineMs = some q') :
    q.pending < q.maxPending ∧
      q' =
        { q with
          pending := q.pending + 1
          tail := some q.jobs.length
          jobs := q.jobs ++ [⟨task, deadlineMs, q.tail, .queued, none, none⟩] } := by
  unfold SerialQueue.run at h
  split at h
  · cases h
  · exact ⟨by omega, (Option.some.inj h).symm⟩

theorem start_eq_some (h : q.start i now = some q') :
    ∃ j, q.jobs[i]? = some j ∧ q.startable j = true ∧
      q' = { q with jobs := q.jobs.modify i (Job.start now) } := by
  unfold SerialQueue.start at h
  split at h
  · rename_i hany
    cases hj : q.jobs[i]? with
    | none => simp [hj] at hany
    | some j => exact ⟨j, rfl, by simpa [hj] using hany, (Option.some.inj h).symm⟩
  · cases h

theorem settle_eq_some (h : q.settle i out = some q') :
    ∃ j, q.jobs[i]? = some j ∧ j.isRunning = true ∧
      q' = { q with pending := q.pending - 1, jobs := q.jobs.modify i (Job.settle out) } := by
  unfold SerialQueue.settle at h
  split at h
  · rename_i hany
    cases hj : q.jobs[i]? with
    | none => simp [hj] at hany
    | some j => exact ⟨j, rfl, by simpa [hj] using hany, (Option.some.inj h).symm⟩
  · cases h

theorem fire_eq_some (h : q.fire i now = some q') :
    ∃ j due, q.jobs[i]? = some j ∧ j.timer = some due ∧ due ≤ now ∧
      q' = { q with jobs := q.jobs.modify i Job.fire } := by
  unfold SerialQueue.fire at h
  split at h
  · rename_i hany
    cases hj : q.jobs[i]? with
    | none => simp [hj] at hany
    | some j =>
      cases ht : j.timer with
      | none => simp [hj, ht] at hany
      | some due => exact ⟨j, due, rfl, ht, by simpa [hj, ht] using hany, (Option.some.inj h).symm⟩
  · cases h

theorem queueShape_run (hq : QueueShape q done) (h : q.run task deadlineMs = some q') :
    QueueShape q' done := by
  obtain ⟨hroom, rfl⟩ := run_eq_some h
  have hle := hq.done_le
  have hnew : ∀ k j, (q.jobs ++ [⟨task, deadlineMs, q.tail, .queued, none, none⟩])[k]? = some j →
      q.jobs[k]? = some j ∨ k = q.jobs.length ∧ j = ⟨task, deadlineMs, q.tail, .queued, none, none⟩ := by
    intro k j hk
    rw [List.getElem?_append] at hk
    split at hk
    · exact Or.inl hk
    · obtain ⟨hlt, hget⟩ := List.getElem?_eq_some_iff.mp hk
      simp only [List.length_singleton] at hlt
      refine Or.inr ⟨by omega, ?_⟩
      simpa using hget.symm
  refine ⟨?_, ?_, ?_, ?_, ?_, ?_, ?_, ?_⟩
  · simp [before]
  · intro k j hk
    rcases hnew k j hk with hold | ⟨rfl, rfl⟩
    · exact hq.chain k j hold
    · exact hq.tail
  · intro k hk
    obtain ⟨j, hj, hs⟩ := hq.settled k hk
    exact ⟨j, by rw [List.getElem?_append_left (by omega)]; exact hj, hs⟩
  · intro j hj
    rcases hnew done j hj with hold | ⟨-, rfl⟩
    · exact hq.head j hold
    · rfl
  · intro k j hk hj
    rcases hnew k j hj with hold | ⟨-, rfl⟩
    · exact hq.waiting k j hk hold
    · rfl
  · intro k j hj
    rcases hnew k j hj with hold | ⟨-, rfl⟩
    · exact hq.armed k j hold
    · simp
  · have := hq.depth
    simp only [List.length_append, List.length_singleton]
    omega
  · simp only
    omega

theorem queueShape_start (hq : QueueShape q done) (h : q.start i now = some q') :
    i = done ∧ QueueShape q' done := by
  obtain ⟨j, hj, hs, rfl⟩ := start_eq_some h
  obtain rfl := hq.eq_done_of_startable hj hs
  refine ⟨rfl, ⟨?_, ?_, ?_, ?_, ?_, ?_, ?_, hq.bound⟩⟩
  · simpa using hq.tail
  · intro k j' hk
    obtain ⟨a, ha, rfl⟩ := getElem?_modify_some hk
    split <;> simpa using hq.chain k a ha
  · intro k hk
    obtain ⟨a, ha, hset⟩ := hq.settled k hk
    exact ⟨a, by rw [getElem?_modify_ite, if_neg (by omega)]; exact ha, hset⟩
  · intro j' hk
    obtain ⟨a, _, rfl⟩ := getElem?_modify_some hk
    simp
  · intro k j' hlt hk
    obtain ⟨a, ha, rfl⟩ := getElem?_modify_some hk
    rw [if_neg (by omega)]
    exact hq.waiting k a hlt ha
  · intro k j' hk
    obtain ⟨a, ha, rfl⟩ := getElem?_modify_some hk
    split
    · simp
    · exact hq.armed k a ha
  · simpa using hq.depth

theorem queueShape_settle (hq : QueueShape q done) (h : q.settle i out = some q') :
    i = done ∧ QueueShape q' (done + 1) := by
  obtain ⟨j, hj, hr, rfl⟩ := settle_eq_some h
  obtain rfl := hq.eq_done_of_running hj hr
  refine ⟨rfl, ⟨?_, ?_, ?_, ?_, ?_, ?_, ?_, ?_⟩⟩
  · simpa using hq.tail
  · intro k j' hk
    obtain ⟨a, ha, rfl⟩ := getElem?_modify_some hk
    split <;> simpa using hq.chain k a ha
  · intro k hk
    rcases Nat.lt_or_eq_of_le (Nat.lt_succ_iff.mp hk) with hlt | rfl
    · obtain ⟨a, ha, hset⟩ := hq.settled k hlt
      exact ⟨a, by rw [getElem?_modify_ite, if_neg (by omega)]; exact ha, hset⟩
    · exact ⟨j.settle out, by rw [getElem?_modify_ite, if_pos rfl, hj]; rfl, rfl⟩
  · intro j' hk
    obtain ⟨a, ha, rfl⟩ := getElem?_modify_some hk
    rw [if_neg (by omega)]
    exact Job.not_settled_of_queued (hq.waiting _ a (by omega) ha)
  · intro k j' hlt hk
    obtain ⟨a, ha, rfl⟩ := getElem?_modify_some hk
    rw [if_neg (by omega)]
    exact hq.waiting k a (by omega) ha
  · intro k j' hk
    obtain ⟨a, ha, rfl⟩ := getElem?_modify_some hk
    split
    · simp [Job.settle]
    · exact hq.armed k a ha
  · have := hq.depth
    simp only [List.length_modify]
    omega
  · have := hq.bound
    simp only
    omega

theorem queueShape_fire (hq : QueueShape q done) (h : q.fire i now = some q') :
    QueueShape q' done := by
  obtain ⟨j, due, hj, ht, hdue, rfl⟩ := fire_eq_some h
  refine ⟨?_, ?_, ?_, ?_, ?_, ?_, ?_, hq.bound⟩
  · simpa using hq.tail
  · intro k j' hk
    obtain ⟨a, ha, rfl⟩ := getElem?_modify_some hk
    split <;> simpa using hq.chain k a ha
  · intro k hk
    obtain ⟨a, ha, hset⟩ := hq.settled k hk
    refine ⟨if i = k then a.fire else a, ?_, ?_⟩
    · rw [getElem?_modify_ite, ha]
      split <;> rfl
    · split <;> simpa using hset
  · intro j' hk
    obtain ⟨a, ha, rfl⟩ := getElem?_modify_some hk
    split <;> simpa using hq.head a ha
  · intro k j' hlt hk
    obtain ⟨a, ha, rfl⟩ := getElem?_modify_some hk
    split <;> simpa using hq.waiting k a hlt ha
  · intro k j' hk
    obtain ⟨a, ha, rfl⟩ := getElem?_modify_some hk
    split
    · simp [Job.fire]
    · exact hq.armed k a ha
  · simpa using hq.depth

/-! ## What stays of a job -/

/-- A later queue: every job is where it was, with its task, and settled
if it was. -/
def Later (q q' : SerialQueue τ α) : Prop :=
  ∀ (i : Nat) (j : Job τ α), q.jobs[i]? = some j →
    ∃ j', q'.jobs[i]? = some j' ∧ j'.task = j.task ∧ (j.isSettled = true → j'.isSettled = true)

theorem Later.refl (q : SerialQueue τ α) : Later q q := fun _ j hj => ⟨j, hj, rfl, id⟩

theorem Later.trans {q₁ q₂ q₃ : SerialQueue τ α} (h : Later q₁ q₂) (h' : Later q₂ q₃) : Later q₁ q₃ := by
  intro i j hj
  obtain ⟨j', hj', htask, hs⟩ := h i j hj
  obtain ⟨j'', hj'', htask', hs'⟩ := h' i j' hj'
  exact ⟨j'', hj'', htask'.trans htask, hs' ∘ hs⟩

/-- A job that is open was open as long as it has been there. -/
theorem Later.open_before (h : Later q q') {j' : Job τ α} (hi : i < q.jobs.length)
    (hj' : q'.jobs[i]? = some j') (hs' : j'.isSettled = false) :
    ∃ j, q.jobs[i]? = some j ∧ j.task = j'.task ∧ j.isSettled = false := by
  have hj : q.jobs[i]? = some q.jobs[i] := List.getElem?_eq_getElem hi
  obtain ⟨a, ha, htask, hs⟩ := h i _ hj
  obtain rfl : a = j' := Option.some.inj (ha.symm.trans hj')
  refine ⟨_, hj, htask.symm, ?_⟩
  cases hset : q.jobs[i].isSettled with
  | false => rfl
  | true => simp [hs hset] at hs'

theorem later_modify {f : Job τ α → Job τ α} {k : Nat} (htask : ∀ j, (f j).task = j.task)
    (hs : ∀ j, q.jobs[k]? = some j → j.isSettled = true → (f j).isSettled = true)
    (hjobs : q'.jobs = q.jobs.modify k f) : Later q q' := by
  intro i j hj
  rw [hjobs, getElem?_modify_ite, hj]
  by_cases hki : k = i
  · subst hki
    exact ⟨f j, by simp, htask j, hs j hj⟩
  · exact ⟨j, by simp [hki], rfl, id⟩

theorem later_run (h : q.run task deadlineMs = some q') : Later q q' := by
  obtain ⟨-, rfl⟩ := run_eq_some h
  intro i j hj
  have hlt := (List.getElem?_eq_some_iff.mp hj).1
  exact ⟨j, by rw [List.getElem?_append_left hlt]; exact hj, rfl, id⟩

theorem later_start (h : q.start i now = some q') :
    Later q q' ∧ q'.jobs.length = q.jobs.length := by
  obtain ⟨j, hj, hstartable, rfl⟩ := start_eq_some h
  refine ⟨later_modify (Job.start_task now) (fun a ha hs => ?_) rfl, by simp⟩
  -- what can start has not settled
  obtain rfl : j = a := Option.some.inj (hj.symm.trans ha)
  simp only [SerialQueue.startable, Bool.and_eq_true] at hstartable
  simp [Job.not_settled_of_queued hstartable.1] at hs

theorem later_settle (h : q.settle i out = some q') :
    Later q q' ∧ q'.jobs.length = q.jobs.length := by
  obtain ⟨_, _, _, rfl⟩ := settle_eq_some h
  exact ⟨later_modify (Job.settle_task out) (fun _ _ _ => rfl) rfl, by simp⟩

theorem later_fire (h : q.fire i now = some q') : Later q q' ∧ q'.jobs.length = q.jobs.length := by
  obtain ⟨_, _, _, _, _, rfl⟩ := fire_eq_some h
  exact ⟨later_modify Job.fire_task (fun _ _ hs => hs) rfl, by simp⟩

/-- A job that is chained on stands at the end. -/
theorem jobs_run (h : q.run task deadlineMs = some q') {j : Job τ α} (hj : q'.jobs[i]? = some j) :
    q.jobs[i]? = some j ∨ i = q.jobs.length ∧ j.task = task := by
  obtain ⟨-, rfl⟩ := run_eq_some h
  rw [List.getElem?_append] at hj
  split at hj
  · exact Or.inl hj
  · obtain ⟨hlt, hget⟩ := List.getElem?_eq_some_iff.mp hj
    simp only [List.length_singleton] at hlt
    refine Or.inr ⟨by omega, ?_⟩
    simp [← hget]

end Operations

/-! ## The callers -/

/-- What an answer says about the job it answers: the task settled with
it, or the deadline's timer ran out. -/
def AnswerSound (j : Job Nat α) (t : ℚ) : Answer α → Prop
  | .own out => ∃ s, j.phase = .settled s out
  | .deadline => 0 < j.deadlineMs ∧ ∃ s, j.startedAt = some s ∧ s + timeoutDelay j.deadlineMs ≤ t
  | .queueFull => False

/-- How many tasks have been called. -/
def begun (q : SerialQueue Nat α) (done : Nat) : Nat :=
  if q.jobs[done]?.any Job.isRunning then done + 1 else done

/-- A call is admitted once, or refused. -/
structure CallsInv (admitted refused : List Nat) (calls : Nat) : Prop where
  admitted_lt : ∀ c ∈ admitted, c < calls
  admitted_nodup : admitted.Nodup
  refused_lt : ∀ c ∈ refused, c < calls
  refused_admitted : ∀ c ∈ refused, c ∉ admitted

theorem mem_concat {c d : Nat} {l : List Nat} (h : c ∈ l ++ [d]) : c ∈ l ∨ c = d := by
  rcases List.mem_append.mp h with h | h
  · exact Or.inl h
  · exact Or.inr (List.mem_singleton.mp h)

theorem nodup_concat {β : Type} {l : List β} {b : β} (h : l.Nodup) (hb : b ∉ l) :
    (l ++ [b]).Nodup := by
  refine List.nodup_append.mpr ⟨h, by simp, ?_⟩
  intro c hc d hd heq
  obtain rfl := List.mem_singleton.mp hd
  exact hb (heq ▸ hc)

theorem CallsInv.refuse {admitted refused : List Nat} {calls : Nat}
    (h : CallsInv admitted refused calls) :
    CallsInv admitted (refused ++ [calls]) (calls + 1) where
  admitted_lt := fun c hc => Nat.lt_succ_of_lt (h.admitted_lt c hc)
  admitted_nodup := h.admitted_nodup
  refused_lt := by
    intro c hc
    rcases mem_concat hc with hc | rfl
    · exact Nat.lt_succ_of_lt (h.refused_lt c hc)
    · exact Nat.lt_succ_self _
  refused_admitted := by
    intro c hc hadm
    rcases mem_concat hc with hc | rfl
    · exact h.refused_admitted c hc hadm
    · exact Nat.lt_irrefl _ (h.admitted_lt _ hadm)

theorem CallsInv.admit {admitted refused : List Nat} {calls : Nat}
    (h : CallsInv admitted refused calls) :
    CallsInv (admitted ++ [calls]) refused (calls + 1) where
  admitted_lt := by
    intro c hc
    rcases mem_concat hc with hc | rfl
    · exact Nat.lt_succ_of_lt (h.admitted_lt c hc)
    · exact Nat.lt_succ_self _
  admitted_nodup := nodup_concat h.admitted_nodup fun hc => Nat.lt_irrefl _ (h.admitted_lt _ hc)
  refused_lt := fun c hc => Nat.lt_succ_of_lt (h.refused_lt c hc)
  refused_admitted := by
    intro c hc hadm
    rcases mem_concat hadm with hadm | rfl
    · exact h.refused_admitted c hc hadm
    · exact Nat.lt_irrefl _ (h.refused_lt _ hc)

structure QueueRunInv (r : QueueRun α) (done : Nat) : Prop where
  shape : QueueShape r.queue done
  started : r.started = r.admitted.take (begun r.queue done)
  ids : CallsInv r.admitted r.refused r.calls
  timers : ∀ (i : Nat) (j : Job Nat α) (due : ℚ), r.queue.jobs[i]? = some j → j.timer = some due →
    0 < j.deadlineMs ∧ ∃ s, j.phase = .running s ∧ due = s + timeoutDelay j.deadlineMs
  sound : ∀ c a t, (c, a, t) ∈ r.answers →
    (a = .queueFull ∧ c ∈ r.refused) ∨
      ∃ (i : Nat) (j : Job Nat α), r.queue.jobs[i]? = some j ∧ j.task = c ∧ j.answer = some a ∧ AnswerSound j t a
  once : (r.answers.map Prod.fst).Nodup

theorem queueRunInv_new (maxPending : Nat) (now : ℚ) :
    QueueRunInv (QueueRun.new maxPending now : QueueRun α) 0 where
  shape := queueShape_new maxPending
  started := rfl
  ids := ⟨by simp [QueueRun.admitted, QueueRun.new, SerialQueue.new], List.nodup_nil,
    by simp [QueueRun.new], by simp [QueueRun.new]⟩
  timers := by
    intro i j due hj
    simp [QueueRun.new, SerialQueue.new] at hj
  sound := by
    intro c a t h
    cases h
  once := List.nodup_nil

namespace QueueRunInv

variable {r r' : QueueRun α} {done : Nat}

/-- No two jobs have one task. -/
theorem job_of_task (hr : CallsInv r.admitted r.refused r.calls) {i k : Nat} {j j' : Job Nat α}
    (hj : r.queue.jobs[i]? = some j) (hk : r.queue.jobs[k]? = some j') (htask : j'.task = j.task) :
    i = k ∧ j = j' := by
  have hlt : i < r.admitted.length := by
    simpa [QueueRun.admitted] using (List.getElem?_eq_some_iff.mp hj).1
  have hik : r.admitted[i]? = r.admitted[k]? := by
    simp [QueueRun.admitted, List.getElem?_map, hj, hk, htask]
  obtain rfl := (List.getElem?_inj hlt hr.admitted_nodup).mp hik
  exact ⟨rfl, Option.some.inj (hj.symm.trans hk)⟩

/-- A call that has been answered has its answer recorded on its job. -/
theorem sound_at (hr : QueueRunInv r done) {i : Nat} {j : Job Nat α} {a : Answer α} {t : ℚ}
    (hj : r.queue.jobs[i]? = some j) (hin : (j.task, a, t) ∈ r.answers) :
    j.answer = some a ∧ AnswerSound j t a := by
  have hadm : j.task ∈ r.admitted := List.mem_map_of_mem (List.mem_of_getElem? hj)
  rcases hr.sound _ _ _ hin with ⟨-, href⟩ | ⟨k, j', hk, htask, hans, hsound⟩
  · exact absurd hadm (hr.ids.refused_admitted _ href)
  · obtain ⟨-, rfl⟩ := job_of_task hr.ids hj hk htask
    exact ⟨hans, hsound⟩

theorem not_answered (hr : QueueRunInv r done) {i : Nat} {j : Job Nat α}
    (hj : r.queue.jobs[i]? = some j) (hnone : j.answer = none) :
    j.task ∉ r.answers.map Prod.fst := by
  intro hmem
  obtain ⟨⟨c, a, t⟩, hin, hc⟩ := List.mem_map.mp hmem
  obtain rfl : c = j.task := hc
  have hans := (hr.sound_at hj hin).1
  simp [hnone] at hans

/-- The log of answers after a job changed: what was sound stays sound,
and the job's new answer is sound. -/
theorem sound_modify (hr : QueueRunInv r done) {i : Nat} {j : Job Nat α}
    (hj : r.queue.jobs[i]? = some j) {f : Job Nat α → Job Nat α} (htask : (f j).task = j.task)
    (hkeep : ∀ a t, j.answer = some a → AnswerSound j t a →
      (f j).answer = some a ∧ AnswerSound (f j) t a)
    (hnew : ∀ a, j.answer = none → (f j).answer = some a → AnswerSound (f j) r.now a) :
    (∀ c a t, (c, a, t) ∈ r.answers ++ newAnswer r.now j (f j) →
      (a = .queueFull ∧ c ∈ r.refused) ∨
        ∃ (k : Nat) (j' : Job Nat α), (r.queue.jobs.modify i f)[k]? = some j' ∧ j'.task = c ∧
          j'.answer = some a ∧ AnswerSound j' t a) ∧
    ((r.answers ++ newAnswer r.now j (f j)).map Prod.fst).Nodup := by
  have hfj : (r.queue.jobs.modify i f)[i]? = some (f j) := by
    rw [getElem?_modify_ite, if_pos rfl, hj]
    rfl
  constructor
  · intro c a t hin
    rcases List.mem_append.mp hin with hold | hnewest
    · rcases hr.sound c a t hold with hfull | ⟨k, j', hk, hc, hans, hs⟩
      · exact Or.inl hfull
      · refine Or.inr ?_
        by_cases hik : i = k
        · subst hik
          obtain rfl : j = j' := Option.some.inj (hj.symm.trans hk)
          obtain ⟨hans', hs'⟩ := hkeep a t hans hs
          exact ⟨i, f j, hfj, htask.trans hc, hans', hs'⟩
        · exact ⟨k, j', by rw [getElem?_modify_ite, if_neg hik]; exact hk, hc, hans, hs⟩
    · cases hnone : j.answer with
      | some _ => simp [newAnswer, hnone] at hnewest
      | none =>
        cases hans : (f j).answer with
        | none => simp [newAnswer, hnone, hans] at hnewest
        | some a' =>
          simp only [newAnswer, hnone, hans, List.mem_singleton, Prod.mk.injEq] at hnewest
          obtain ⟨rfl, rfl, rfl⟩ := hnewest
          exact Or.inr ⟨i, f j, hfj, htask, hans, hnew _ hnone hans⟩
  · rw [List.map_append]
    cases hnone : j.answer with
    | some _ => simpa [newAnswer, hnone] using hr.once
    | none =>
      cases hans : (f j).answer with
      | none => simpa [newAnswer, hnone, hans] using hr.once
      | some a' =>
        simp only [newAnswer, hnone, hans, List.map_cons, List.map_nil]
        exact nodup_concat hr.once (hr.not_answered hj hnone)

theorem begun_le (hr : QueueRunInv r done) : begun r.queue done ≤ r.queue.jobs.length := by
  unfold begun
  split
  · rename_i h
    cases hj : r.queue.jobs[done]? with
    | none => simp [hj] at h
    | some j => exact (List.getElem?_eq_some_iff.mp hj).1
  · exact hr.shape.done_le

theorem tick (hr : QueueRunInv r done) (ms : ℚ) : QueueRunInv { r with now := r.now + ms } done :=
  ⟨hr.shape, hr.started, hr.ids, hr.timers, hr.sound, hr.once⟩

theorem call_refused (hr : QueueRunInv r done) :
    QueueRunInv
      { r with
        calls := r.calls + 1
        refused := r.refused ++ [r.calls]
        answers := r.answers ++ [(r.calls, .queueFull, r.now)] } done where
  shape := hr.shape
  started := hr.started
  ids := hr.ids.refuse
  timers := hr.timers
  sound := by
    intro c a t hin
    rcases List.mem_append.mp hin with hold | hnew
    · rcases hr.sound c a t hold with ⟨ha, hc⟩ | hjob
      · exact Or.inl ⟨ha, List.mem_append_left _ hc⟩
      · exact Or.inr hjob
    · obtain ⟨rfl, rfl, rfl⟩ : c = r.calls ∧ a = .queueFull ∧ t = r.now := by simpa using hnew
      exact Or.inl ⟨rfl, List.mem_append_right _ List.mem_cons_self⟩
  once := by
    rw [List.map_append]
    refine nodup_concat hr.once fun hc => ?_
    obtain ⟨⟨c', a, t⟩, hin, rfl⟩ := List.mem_map.mp hc
    rcases hr.sound _ _ _ hin with ⟨-, href⟩ | ⟨i, j, hj, htask, -⟩
    · exact Nat.lt_irrefl _ (hr.ids.refused_lt _ href)
    · have hadm : j.task ∈ r.admitted := List.mem_map_of_mem (List.mem_of_getElem? hj)
      rw [htask] at hadm
      exact Nat.lt_irrefl _ (hr.ids.admitted_lt _ hadm)

theorem call_admitted (hr : QueueRunInv r done) {deadlineMs : ℚ} {queue : SerialQueue Nat α}
    (h : r.queue.run r.calls deadlineMs = some queue) :
    QueueRunInv { r with queue := queue, calls := r.calls + 1 } done := by
  have hshape := queueShape_run hr.shape h
  obtain ⟨-, rfl⟩ := run_eq_some h
  have hadmitted : (r.queue.jobs ++ [(⟨r.calls, deadlineMs, r.queue.tail, .queued, none, none⟩ :
      Job Nat α)]).map Job.task = r.admitted ++ [r.calls] := by
    simp [QueueRun.admitted]
  have hnew : ∀ (k : Nat) (j : Job Nat α), (r.queue.jobs ++ [(⟨r.calls, deadlineMs, r.queue.tail,
      .queued, none, none⟩ : Job Nat α)])[k]? = some j →
        r.queue.jobs[k]? = some j ∨ j.phase = .queued ∧ j.timer = none := by
    intro k j hk
    rw [List.getElem?_append] at hk
    split at hk
    · exact Or.inl hk
    · obtain ⟨hlt, hget⟩ := List.getElem?_eq_some_iff.mp hk
      obtain rfl : j = ⟨r.calls, deadlineMs, r.queue.tail, .queued, none, none⟩ := by
        simpa using hget.symm
      exact Or.inr ⟨rfl, rfl⟩
  refine ⟨hshape, ?_, ?_, ?_, ?_, hr.once⟩
  · have hbegun : begun { r.queue with
        pending := r.queue.pending + 1
        tail := some r.queue.jobs.length
        jobs := r.queue.jobs ++ [⟨r.calls, deadlineMs, r.queue.tail, .queued, none, none⟩] } done =
        begun r.queue done := by
      unfold begun
      simp only
      cases hj : r.queue.jobs[done]? with
      | some j =>
        rw [List.getElem?_append_left (List.getElem?_eq_some_iff.mp hj).1, hj]
      | none =>
        cases hk : (r.queue.jobs ++ [(⟨r.calls, deadlineMs, r.queue.tail, .queued, none, none⟩ :
            Job Nat α)])[done]? with
        | none => rfl
        | some j =>
          rcases hnew done j hk with hold | ⟨hq, -⟩
          · simp [hj] at hold
          · simp [Job.isRunning, hq]
    show r.started = List.take _ (List.map Job.task _)
    rw [hadmitted, hbegun, List.take_append_of_le_length]
    · exact hr.started
    · simpa [QueueRun.admitted] using hr.begun_le
  · show CallsInv (List.map Job.task _) _ _
    rw [hadmitted]
    exact hr.ids.admit
  · intro i j due hj hdue
    rcases hnew i j hj with hold | ⟨-, hnone⟩
    · exact hr.timers i j due hold hdue
    · simp [hnone] at hdue
  · intro c a t hin
    rcases hr.sound c a t hin with hfull | ⟨i, j, hj, hrest⟩
    · exact Or.inl hfull
    · refine Or.inr ⟨i, j, ?_, hrest⟩
      rw [List.getElem?_append_left (List.getElem?_eq_some_iff.mp hj).1]
      exact hj

/-- Changing one job changes nothing about who was admitted. -/
theorem admitted_modify {f : Job Nat α → Job Nat α} (hf : ∀ j, (f j).task = j.task) (i : Nat) :
    (r.queue.jobs.modify i f).map Job.task = r.admitted :=
  map_modify_of_eq hf i r.queue.jobs

theorem ids_modify (hr : QueueRunInv r done) {f : Job Nat α → Job Nat α}
    (hf : ∀ j, (f j).task = j.task) (i : Nat) :
    CallsInv ((r.queue.jobs.modify i f).map Job.task) r.refused r.calls := by
  rw [admitted_modify hf i]
  exact hr.ids

theorem start (hr : QueueRunInv r done) {i : Nat} {j : Job Nat α} {queue : SerialQueue Nat α}
    (hj : r.queue.jobs[i]? = some j) (h : r.queue.start i r.now = some queue) :
    QueueRunInv { r with queue := queue, started := r.started ++ [j.task] } done := by
  obtain ⟨rfl, hshape⟩ := queueShape_start hr.shape h
  obtain ⟨j', hj', hs, rfl⟩ := start_eq_some h
  obtain rfl : j = j' := Option.some.inj (hj.symm.trans hj')
  have hqueued : j.isQueued = true := by
    simp only [SerialQueue.startable, Bool.and_eq_true] at hs
    exact hs.1
  have hadm := admitted_modify (r := r) (Job.start_task r.now) i
  have hrunning : j.isRunning = false := by
    cases hrun : j.isRunning with
    | false => rfl
    | true => simp [Job.not_queued_of_running hrun] at hqueued
  refine ⟨hshape, ?_, ids_modify hr (Job.start_task r.now) i, ?_, ?_, hr.once⟩
  · have hbefore : begun r.queue i = i := by simp [begun, hj, hrunning]
    have hafter : begun { r.queue with jobs := r.queue.jobs.modify i (Job.start r.now) } i = i + 1 := by
      simp [begun, hj]
    show r.started ++ [j.task] = List.take _ (List.map Job.task _)
    rw [hadm, hafter, List.take_add_one, hr.started, hbefore]
    simp [QueueRun.admitted, List.getElem?_map, hj]
  · intro k a due hk hdue
    obtain ⟨b, hb, rfl⟩ := getElem?_modify_some hk
    by_cases hik : i = k
    · rw [if_pos hik] at hdue ⊢
      by_cases hpos : 0 < b.deadlineMs
      · refine ⟨hpos, r.now, rfl, ?_⟩
        simpa [Job.start, hpos] using hdue.symm
      · simp [Job.start, hpos] at hdue
    · rw [if_neg hik] at hdue ⊢
      exact hr.timers k b due hb hdue
  · intro c a t hin
    rcases hr.sound c a t hin with hfull | ⟨k, b, hb, htask, hans, hsound⟩
    · exact Or.inl hfull
    · refine Or.inr ⟨k, b, ?_, htask, hans, hsound⟩
      rw [getElem?_modify_ite, if_neg]
      · exact hb
      · rintro rfl
        -- a job that waits has not started, so nothing has answered it
        obtain rfl : j = b := Option.some.inj (hj.symm.trans hb)
        cases hp : j.phase with
        | queued => cases a <;> simp [AnswerSound, Job.startedAt, hp] at hsound
        | running s => simp [Job.isQueued, hp] at hqueued
        | settled s out => simp [Job.isQueued, hp] at hqueued

theorem settle (hr : QueueRunInv r done) {i : Nat} {out : α} {j : Job Nat α}
    {queue : SerialQueue Nat α} (hj : r.queue.jobs[i]? = some j)
    (h : r.queue.settle i out = some queue) :
    QueueRunInv
      { r with queue := queue, answers := r.answers ++ newAnswer r.now j (j.settle out) }
      (done + 1) := by
  obtain ⟨rfl, hshape⟩ := queueShape_settle hr.shape h
  obtain ⟨j', hj', hrun, rfl⟩ := settle_eq_some h
  obtain rfl : j = j' := Option.some.inj (hj.symm.trans hj')
  have hadm := admitted_modify (r := r) (Job.settle_task out) i
  have hlog := hr.sound_modify (f := Job.settle out) hj rfl
    (fun a t hans hs => by
      refine ⟨by simp [Job.settle, hans], ?_⟩
      cases a with
      | own out' =>
        obtain ⟨s, hp⟩ := hs
        simp [Job.isRunning, hp] at hrun
      | deadline =>
        obtain ⟨hpos, s, hst, hle⟩ := hs
        exact ⟨hpos, s, by simp [Job.startedAt, Job.settle] at hst ⊢; simp [hst], hle⟩
      | queueFull => exact hs)
    (fun a hnone hans => by
      obtain rfl : Answer.own out = a := by simpa [Job.settle, hnone] using hans
      exact ⟨_, rfl⟩)
  refine ⟨hshape, ?_, ids_modify hr (Job.settle_task out) i, ?_, hlog.1, hlog.2⟩
  · have hbefore : begun r.queue i = i + 1 := by simp [begun, hj, hrun]
    have hafter : begun { r.queue with
        pending := r.queue.pending - 1
        jobs := r.queue.jobs.modify i (Job.settle out) } (i + 1) = i + 1 := by
      unfold begun
      rw [if_neg]
      simp only [getElem?_modify_ite, if_neg (show ¬ i = i + 1 by omega)]
      cases hn : r.queue.jobs[i + 1]? with
      | none => simp
      | some b =>
        have hq := hr.shape.waiting (i + 1) b (by omega) hn
        cases hb : b.isRunning with
        | false => simp [hb]
        | true => simp [Job.not_queued_of_running hb] at hq
    show r.started = List.take _ (List.map Job.task _)
    rw [hadm, hafter, hr.started, hbefore]
  · intro k a due hk hdue
    obtain ⟨b, hb, rfl⟩ := getElem?_modify_some hk
    by_cases hik : i = k
    · simp [hik, Job.settle] at hdue
    · rw [if_neg hik] at hdue ⊢
      exact hr.timers k b due hb hdue

theorem fire (hr : QueueRunInv r done) {i : Nat} {j : Job Nat α} {queue : SerialQueue Nat α}
    (hj : r.queue.jobs[i]? = some j) (h : r.queue.fire i r.now = some queue) :
    QueueRunInv { r with queue := queue, answers := r.answers ++ newAnswer r.now j j.fire }
      done := by
  have hshape := queueShape_fire hr.shape h
  obtain ⟨j', due, hj', htimer, hdue, rfl⟩ := fire_eq_some h
  obtain rfl : j = j' := Option.some.inj (hj.symm.trans hj')
  have hadm := admitted_modify (r := r) Job.fire_task i
  obtain ⟨hpos, s, hphase, hdueEq⟩ := hr.timers i j due hj htimer
  have hlog := hr.sound_modify (f := Job.fire) hj rfl
    (fun a t hans hs => by
      refine ⟨by simp [Job.fire, hans], ?_⟩
      cases a with
      | own out' => exact hs
      | deadline => exact hs
      | queueFull => exact hs)
    (fun a hnone hans => by
      obtain rfl : Answer.deadline = a := by simpa [Job.fire, hnone] using hans
      refine ⟨hpos, s, by simp [Job.startedAt, Job.fire, hphase], ?_⟩
      exact hdueEq ▸ hdue)
  refine ⟨hshape, ?_, ids_modify hr Job.fire_task i, ?_, hlog.1, hlog.2⟩
  · have hbegun : begun { r.queue with jobs := r.queue.jobs.modify i Job.fire } done =
        begun r.queue done := by
      unfold begun
      simp only [getElem?_modify_ite]
      split
      · rw [Option.any_map]
        rfl
      · rfl
    show r.started = List.take _ (List.map Job.task _)
    rw [hadm, hbegun]
    exact hr.started
  · intro k a due' hk hdue'
    obtain ⟨b, hb, rfl⟩ := getElem?_modify_some hk
    by_cases hik : i = k
    · simp [hik, Job.fire] at hdue'
    · rw [if_neg hik] at hdue' ⊢
      exact hr.timers k b due' hb hdue'

end QueueRunInv

/-! ## Runs -/

theorem queueRunInv_step {r r' : QueueRun α} {ev : QueueEvent α}
    (hr : ∃ done, QueueRunInv r done) (h : r.step ev = some r') : ∃ done, QueueRunInv r' done := by
  obtain ⟨done, hr⟩ := hr
  cases ev with
  | tick ms =>
    simp only [QueueRun.step] at h
    split at h
    · obtain rfl := Option.some.inj h
      exact ⟨done, hr.tick ms⟩
    · cases h
  | call deadlineMs =>
    simp only [QueueRun.step] at h
    cases hrun : r.queue.run r.calls deadlineMs with
    | some queue =>
      simp only [hrun] at h
      obtain rfl := Option.some.inj h
      exact ⟨done, hr.call_admitted hrun⟩
    | none =>
      simp only [hrun] at h
      obtain rfl := Option.some.inj h
      exact ⟨done, hr.call_refused⟩
  | start i =>
    simp only [QueueRun.step] at h
    split at h
    · rename_i j queue hj hstart
      obtain rfl := Option.some.inj h
      exact ⟨done, hr.start hj hstart⟩
    · cases h
  | settle i out =>
    simp only [QueueRun.step] at h
    split at h
    · rename_i j queue hj hsettle
      obtain rfl := Option.some.inj h
      exact ⟨done + 1, hr.settle hj hsettle⟩
    · cases h
  | fire i =>
    simp only [QueueRun.step] at h
    split at h
    · rename_i j queue hj hfire
      obtain rfl := Option.some.inj h
      exact ⟨done, hr.fire hj hfire⟩
    · cases h

theorem queueRunInv_run {maxPending : Nat} {now : ℚ} {es : List (QueueEvent α)} {r : QueueRun α}
    (h : run QueueRun.step (.new maxPending now) es = some r) : ∃ done, QueueRunInv r done :=
  run_invariant (fun r => ∃ done, QueueRunInv r done) (fun _ _ _ => queueRunInv_step)
    ⟨0, queueRunInv_new maxPending now⟩ h

/-- `setTimeout` keeps a deadline: it is at most a millisecond (or none at
all), or a whole number of milliseconds up to TIMEOUT_MAX. -/
def DeadlineKept (deadlineMs : ℚ) : Prop :=
  deadlineMs ≤ 1 ∨ deadlineMs ≤ timeoutMax ∧ (⌊deadlineMs⌋ : ℚ) = deadlineMs

def QueueEvent.DeadlineKept : QueueEvent α → Prop
  | .call deadlineMs => ZcashFaucet.Zcash.DeadlineKept deadlineMs
  | _ => True

/-- No operation changes a deadline. -/
theorem deadlines_step {P : ℚ → Prop} {r r' : QueueRun α} {ev : QueueEvent α}
    (hev : ∀ d, ev = .call d → P d) (hr : ∀ j ∈ r.queue.jobs, P j.deadlineMs)
    (h : r.step ev = some r') : ∀ j ∈ r'.queue.jobs, P j.deadlineMs := by
  have hmodify : ∀ (i : Nat) (f : Job Nat α → Job Nat α), (∀ j, (f j).deadlineMs = j.deadlineMs) →
      ∀ j ∈ r.queue.jobs.modify i f, P j.deadlineMs := by
    intro i f hf j hj
    obtain ⟨k, hk⟩ := List.mem_iff_getElem?.mp hj
    obtain ⟨b, hb, rfl⟩ := getElem?_modify_some hk
    have hb' := hr b (List.mem_of_getElem? hb)
    split
    · rw [hf]
      exact hb'
    · exact hb'
  cases ev with
  | tick ms =>
    simp only [QueueRun.step] at h
    split at h
    · obtain rfl := Option.some.inj h
      exact hr
    · cases h
  | call deadlineMs =>
    simp only [QueueRun.step] at h
    cases hrun : r.queue.run r.calls deadlineMs with
    | some queue =>
      simp only [hrun] at h
      obtain rfl := Option.some.inj h
      obtain ⟨-, rfl⟩ := run_eq_some hrun
      intro j hj
      rcases List.mem_append.mp hj with hj | hj
      · exact hr j hj
      · obtain rfl := List.mem_singleton.mp hj
        exact hev deadlineMs rfl
    | none =>
      simp only [hrun] at h
      obtain rfl := Option.some.inj h
      exact hr
  | start i =>
    simp only [QueueRun.step] at h
    split at h
    · rename_i j queue hj hstart
      obtain rfl := Option.some.inj h
      obtain ⟨_, _, _, rfl⟩ := start_eq_some hstart
      exact hmodify i _ fun _ => rfl
    · cases h
  | settle i out =>
    simp only [QueueRun.step] at h
    split at h
    · rename_i j queue hj hsettle
      obtain rfl := Option.some.inj h
      obtain ⟨_, _, _, rfl⟩ := settle_eq_some hsettle
      exact hmodify i _ fun _ => rfl
    · cases h
  | fire i =>
    simp only [QueueRun.step] at h
    split at h
    · rename_i j queue hj hfire
      obtain rfl := Option.some.inj h
      obtain ⟨_, _, _, _, _, rfl⟩ := fire_eq_some hfire
      exact hmodify i _ fun _ => rfl
    · cases h

/-- What the queue promises, of a queue and the callers it has had. -/
structure QueueSafe (r : QueueRun α) : Prop where
  /-- Tasks start in the order they were admitted, each once. -/
  order : r.started <+: r.admitted ∧ r.started.Nodup
  /-- At most one task is executing. -/
  exclusion : ∀ (i k : Nat) (a b : Job Nat α), r.queue.jobs[i]? = some a →
    r.queue.jobs[k]? = some b → a.isRunning = true → b.isRunning = true → i = k
  /-- `depth` counts the admitted tasks that have not settled. -/
  depth : r.queue.depth = (r.queue.jobs.countP fun j => !j.isSettled : Nat)
  depth_le : r.queue.depth ≤ r.queue.maxPending
  /-- A refused call never runs its task. -/
  refused : ∀ c ∈ r.refused, c ∉ r.started
  /-- A caller is answered at most once. -/
  once : (r.answers.map Prod.fst).Nodup
  /-- A caller is refused, or answered with what its own task settled
  with, or with a TaskDeadlineError that is not early. -/
  answer : ∀ c a t, (c, a, t) ∈ r.answers →
    match a with
    | .queueFull => c ∈ r.refused
    | .own out => ∃ j ∈ r.queue.jobs, j.task = c ∧ ∃ s, j.phase = .settled s out
    | .deadline => ∃ j ∈ r.queue.jobs, j.task = c ∧ 0 < j.deadlineMs ∧
        ∃ s, j.startedAt = some s ∧ s + j.deadlineMs ≤ t

theorem queueSafe_of_inv {r : QueueRun α} {done : Nat} (hr : QueueRunInv r done)
    (hkept : ∀ j ∈ r.queue.jobs, DeadlineKept j.deadlineMs) : QueueSafe r where
  order := by
    rw [hr.started]
    exact ⟨List.take_prefix _ _, hr.ids.admitted_nodup.sublist (List.take_sublist _ _)⟩
  exclusion := fun i k a b ha hb => hr.shape.one_running ha hb
  depth := hr.shape.depth_eq_count
  depth_le := hr.shape.bound
  refused := by
    intro c hc hstarted
    rw [hr.started] at hstarted
    exact hr.ids.refused_admitted c hc (List.mem_of_mem_take hstarted)
  once := hr.once
  answer := by
    intro c a t hin
    rcases hr.sound c a t hin with ⟨rfl, hc⟩ | ⟨i, j, hj, htask, -, hsound⟩
    · exact hc
    · have hmem := List.mem_of_getElem? hj
      cases a with
      | own out => exact ⟨j, hmem, htask, hsound⟩
      | deadline =>
        obtain ⟨hpos, s, hs, hle⟩ := hsound
        have hdelay := (le_timeoutDelay_iff j.deadlineMs).mpr (hkept j hmem)
        exact ⟨j, hmem, htask, hpos, s, hs, by linarith⟩
      | queueFull => exact hsound.elim

/-- **The queue is safe** in every run whose deadlines `setTimeout`
keeps. -/
theorem queue_safe {maxPending : Nat} {now : ℚ} {es : List (QueueEvent α)} {r : QueueRun α}
    (hes : ∀ ev ∈ es, ev.DeadlineKept)
    (h : run QueueRun.step (.new maxPending now) es = some r) : QueueSafe r := by
  obtain ⟨done, hr⟩ := queueRunInv_run h
  refine queueSafe_of_inv hr ?_
  refine run_invariant_of (fun r : QueueRun α => ∀ j ∈ r.queue.jobs, DeadlineKept j.deadlineMs)
    (P := QueueEvent.DeadlineKept) ?_ hes ?_ h
  · intro s ev s' hev hs hstep
    refine deadlines_step (fun d hd => ?_) hs hstep
    subst hd
    exact hev
  · intro j hj
    cases hj

/-- Two calls on a queue for one: the first overstays a deadline of 1000
ms and settles later, the second is refused. -/
def overstayRun : List (QueueEvent Unit) :=
  [.call 1000, .start 0, .call 1000, .tick 1500, .fire 0, .tick 500, .settle 0 ()]

theorem queue_safe_overstay :
    ∃ r, run QueueRun.step (.new 1 0) overstayRun = some r ∧
      r.answers = [(1, .queueFull, 0), (0, .deadline, 1500)] ∧ QueueSafe r := by
  have hanswers : (run QueueRun.step (.new 1 0) overstayRun).map QueueRun.answers =
      some [(1, .queueFull, 0), (0, .deadline, 1500)] := by decide +kernel
  obtain ⟨r, hr, hlog⟩ := Option.map_eq_some_iff.mp hanswers
  have hkept : ∀ ev ∈ overstayRun, ev.DeadlineKept := by
    have h1000 : DeadlineKept 1000 := (le_timeoutDelay_iff 1000).mp (by decide +kernel)
    intro ev hev
    simp only [overstayRun, List.mem_cons, List.not_mem_nil, or_false] at hev
    rcases hev with rfl | rfl | rfl | rfl | rfl | rfl | rfl <;>
      first
        | exact h1000
        | trivial
  exact ⟨r, hr, hlog, queue_safe hkept hr⟩

/-- One call with a deadline a millisecond past TIMEOUT_MAX, on a queue
for twenty. -/
def tooLongRun : List (QueueEvent Unit) := [.call 2147483648, .start 0, .tick 1, .fire 0]

/-- A deadline of 25 days answers after one millisecond. -/
theorem queue_unsafe_tooLong :
    ∃ r, run QueueRun.step (.new 20 0) tooLongRun = some r ∧ r.answers = [(0, .deadline, 1)] ∧
      ¬ QueueSafe r := by
  have hview : (run QueueRun.step (.new 20 0) tooLongRun).map (fun r =>
      (r.answers, r.queue.jobs.map fun j => (j.deadlineMs, j.startedAt))) =
        some ([(0, .deadline, 1)], [(2147483648, some 0)]) := by decide +kernel
  obtain ⟨r, hr, hlog⟩ := Option.map_eq_some_iff.mp hview
  obtain ⟨hanswers, hjobs⟩ := Prod.mk.inj hlog
  refine ⟨r, hr, hanswers, fun hsafe => ?_⟩
  obtain ⟨j, hj, -, -, s, hs, hle⟩ := hsafe.answer 0 .deadline 1 (by simp [hanswers])
  have hmem : (j.deadlineMs, j.startedAt) ∈ [((2147483648 : ℚ), some (0 : ℚ))] :=
    hjobs ▸ List.mem_map_of_mem (f := fun j => (j.deadlineMs, j.startedAt)) hj
  obtain ⟨hd, hstart⟩ := Prod.mk.inj (List.mem_singleton.mp hmem)
  obtain rfl : s = 0 := Option.some.inj (hs.symm.trans hstart)
  rw [hd] at hle
  norm_num at hle

end ZcashFaucet.Zcash
