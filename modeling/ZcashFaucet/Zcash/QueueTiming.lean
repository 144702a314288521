/-
ZcashFaucet.Zcash.QueueTiming — how far apart the answers of a serial
queue can be.

`QueueRun` lets the clock advance at any moment. Here it advances only
where the event loop has nothing left to do: no timer is overdue, and of
the jobs in question none outlives its residence and the next has begun
once the one before has settled (`onTime`). `began` is when a job was
called; while it was not, the present bounds it from below (`earliest`).

What a step does to one job is `JobMove`. From it, `Spacing`: the next
job begins within a residence of the one before, and no later than that
one's own answer. `answers_within` follows: answers of jobs that run back
to back are at most a residence apart for each job between. `HeldJobs` are
jobs whose answers are that far apart.
-/
import ZcashFaucet.Zcash.QueueTheorems

namespace ZcashFaucet.Zcash

open Lib

variable {α : Type}

/-! ## One job -/

/-- What a step may do to a job. -/
inductive JobMove (now : ℚ) (j : Job Nat α) : Job Nat α → Prop
  | stays : JobMove now j j
  | starts : j.isQueued = true → JobMove now j (j.start now)
  | settles (out : α) : j.isRunning = true → JobMove now j (j.settle out)
  | fires (due : ℚ) : j.timer = some due → due ≤ now → JobMove now j j.fire

namespace JobMove

variable {now : ℚ} {j j' : Job Nat α}

theorem task (h : JobMove now j j') : j'.task = j.task := by
  cases h <;> rfl

theorem deadlineMs (h : JobMove now j j') : j'.deadlineMs = j.deadlineMs := by
  cases h <;> rfl

theorem startedAt (h : JobMove now j j') :
    j'.startedAt = j.startedAt ∨ j.startedAt = none ∧ j'.startedAt = some now := by
  cases h with
  | stays => exact Or.inl rfl
  | starts hq =>
    refine Or.inr ⟨?_, rfl⟩
    cases hp : j.phase <;> simp [Job.isQueued, Job.startedAt, hp] at hq ⊢
  | settles out hr =>
    refine Or.inl ?_
    cases hp : j.phase <;> simp [Job.isRunning, Job.startedAt, Job.settle, hp] at hr ⊢
  | fires due _ _ => exact Or.inl rfl

/-- A timer is set when the task is called. -/
theorem timer (h : JobMove now j j') {due : ℚ} (hdue : j'.timer = some due) :
    j.timer = some due ∨ due = now + timeoutDelay j.deadlineMs := by
  cases h with
  | stays => exact Or.inl hdue
  | starts hq =>
    simp only [Job.start, Option.ite_none_right_eq_some, Option.some.injEq] at hdue
    exact Or.inr hdue.2.symm
  | settles out hr => cases hdue
  | fires due' _ _ => cases hdue

/-- And it is there until somebody has answered. -/
theorem armed (h : JobMove now j j') (hpos : 0 < j.deadlineMs) (hempty : j'.answer = none) {s : ℚ}
    (hp : j'.phase = .running s) :
    j'.timer = some (s + timeoutDelay j.deadlineMs) ∨
      j.answer = none ∧ j.phase = .running s ∧ j'.timer = j.timer := by
  cases h with
  | stays => exact Or.inr ⟨hempty, hp, rfl⟩
  | starts hq =>
    obtain rfl : now = s := by simpa [Job.start] using hp
    exact Or.inl (if_pos hpos)
  | settles out hr => simp [Job.settle] at hp
  | fires due _ _ => simp [Job.fire] at hempty

/-- A task that answers for itself was not settled. -/
theorem open_of_own (h : JobMove now j j') {out : α} (hempty : j.answer = none)
    (hans : j'.answer = some (.own out)) : j.isSettled = false := by
  cases h with
  | stays => simp [hempty] at hans
  | starts hq => exact Job.not_settled_of_queued hq
  | settles out' hr => exact Job.not_settled_of_running hr
  | fires due _ _ => simp [Job.fire, hempty] at hans

end JobMove

/-- A job that `run` has just admitted. -/
structure FreshJob (calls : Nat) (j : Job Nat α) : Prop where
  task : j.task = calls
  phase : j.phase = .queued
  timer : j.timer = none
  answer : j.answer = none

/-- What a step does to the jobs and the answers. -/
structure StepSpec (r r' : QueueRun α) : Prop where
  kept : ∀ (i : Nat) (j : Job Nat α), r.queue.jobs[i]? = some j →
    ∃ j', r'.queue.jobs[i]? = some j' ∧ JobMove r.now j j'
  added : ∀ (i : Nat) (j' : Job Nat α), r.queue.jobs[i]? = none → r'.queue.jobs[i]? = some j' →
    FreshJob r.calls j'
  answers : ∀ (i : Nat) (j' : Job Nat α) (a : Answer α) (t : ℚ), r'.queue.jobs[i]? = some j' →
    (j'.task, a, t) ∈ r'.answers →
      (j'.task, a, t) ∈ r.answers ∨
        t = r.now ∧ ∃ j, r.queue.jobs[i]? = some j ∧ j.answer = none ∧ j'.answer = some a

theorem stepSpec_modify {r r' : QueueRun α} {i : Nat} {j : Job Nat α} {f : Job Nat α → Job Nat α}
    (hr : CallsInv r.admitted r.refused r.calls) (hj : r.queue.jobs[i]? = some j)
    (hmove : JobMove r.now j (f j)) (hjobs : r'.queue.jobs = r.queue.jobs.modify i f)
    (hanswers : r'.answers = r.answers ++ newAnswer r.now j (f j)) : StepSpec r r' where
  kept := by
    intro k a ha
    rw [hjobs, getElem?_modify_ite, ha]
    by_cases hik : i = k
    · obtain rfl := hik
      obtain rfl : j = a := Option.some.inj (hj.symm.trans ha)
      exact ⟨f j, by simp, hmove⟩
    · exact ⟨a, by simp [hik], .stays⟩
  added := by
    intro k a hnone ha
    rw [hjobs, getElem?_modify_ite, hnone] at ha
    simp at ha
  answers := by
    intro k a' ans t ha' hin
    rw [hanswers] at hin
    rcases List.mem_append.mp hin with hold | hnew
    · exact Or.inl hold
    · rw [hjobs] at ha'
      obtain ⟨a, ha, rfl⟩ := getElem?_modify_some ha'
      have hempty : j.answer = none := by
        cases hans : j.answer with
        | none => rfl
        | some _ => simp [newAnswer, hans] at hnew
      cases hans : (f j).answer with
      | none => simp [newAnswer, hempty, hans] at hnew
      | some x =>
        simp only [newAnswer, hempty, hans, List.mem_singleton, Prod.mk.injEq] at hnew
        obtain ⟨htask, rfl, rfl⟩ := hnew
        -- the tasks are distinct, so the answer is for this job
        have htask' : a.task = j.task := by
          split at htask
          · rename_i hik
            obtain rfl := hik
            rw [Option.some.inj (ha.symm.trans hj)]
          · exact htask
        obtain ⟨rfl, rfl⟩ := QueueRunInv.job_of_task hr hj ha htask'
        exact Or.inr ⟨rfl, j, hj, hempty, by simpa using hans⟩

theorem stepSpec_admit {r r' : QueueRun α} {j : Job Nat α} (hjobs : r'.queue.jobs = r.queue.jobs ++ [j])
    (hfresh : FreshJob r.calls j) (hanswers : r'.answers = r.answers) : StepSpec r r' where
  kept := by
    intro i a ha
    have hlt := (List.getElem?_eq_some_iff.mp ha).1
    exact ⟨a, by rw [hjobs, List.getElem?_append_left hlt]; exact ha, .stays⟩
  added := by
    intro i a hnone ha
    have hlen := List.getElem?_eq_none_iff.mp hnone
    rw [hjobs, List.getElem?_append_right hlen] at ha
    obtain rfl := List.mem_singleton.mp (List.mem_of_getElem? ha)
    exact hfresh
  answers := fun i a ans t _ hin => Or.inl (hanswers ▸ hin)

theorem stepSpec_refuse {r r' : QueueRun α} (hr : CallsInv r.admitted r.refused r.calls)
    (hjobs : r'.queue.jobs = r.queue.jobs) (hanswers : r'.answers = r.answers ++ [(r.calls, .queueFull, r.now)]) :
    StepSpec r r' where
  kept := fun i a ha => ⟨a, hjobs ▸ ha, .stays⟩
  added := by
    intro i a hnone ha
    rw [hjobs, hnone] at ha
    cases ha
  answers := by
    intro i a ans t ha hin
    rw [hjobs] at ha
    rw [hanswers] at hin
    rcases List.mem_append.mp hin with hold | hnew
    · exact Or.inl hold
    · -- the refused call is no task of the queue
      have hlt := hr.admitted_lt a.task (List.mem_map_of_mem (List.mem_of_getElem? ha))
      simp only [List.mem_singleton, Prod.mk.injEq] at hnew
      omega

theorem stepSpec {r r' : QueueRun α} {ev : QueueEvent α} {done : Nat} (hr : QueueRunInv r done)
    (h : r.step ev = some r') : StepSpec r r' := by
  cases ev with
  | tick ms =>
    simp only [QueueRun.step] at h
    split at h
    · obtain rfl := Option.some.inj h
      exact ⟨fun i j hj => ⟨j, hj, .stays⟩, fun i j hnone hj => by simp [hnone] at hj,
        fun i j a t _ hin => Or.inl hin⟩
    · cases h
  | call deadlineMs =>
    simp only [QueueRun.step] at h
    cases hrun : r.queue.run r.calls deadlineMs with
    | some queue =>
      simp only [hrun] at h
      obtain rfl := Option.some.inj h
      obtain ⟨-, rfl⟩ := run_eq_some hrun
      exact stepSpec_admit rfl ⟨rfl, rfl, rfl, rfl⟩ rfl
    | none =>
      simp only [hrun] at h
      obtain rfl := Option.some.inj h
      exact stepSpec_refuse hr.ids rfl rfl
  | start i =>
    simp only [QueueRun.step] at h
    split at h
    · rename_i j queue hj hstart
      obtain rfl := Option.some.inj h
      obtain ⟨j', hj', hs, rfl⟩ := start_eq_some hstart
      obtain rfl : j = j' := Option.some.inj (hj.symm.trans hj')
      have hqueued : j.isQueued = true := by
        simp only [SerialQueue.startable, Bool.and_eq_true] at hs
        exact hs.1
      refine stepSpec_modify hr.ids hj (.starts hqueued) rfl ?_
      have hnone : newAnswer r.now j (j.start r.now) = [] := by
        cases hans : j.answer <;> simp [newAnswer, Job.start, hans]
      simp [hnone]
    · cases h
  | settle i out =>
    simp only [QueueRun.step] at h
    split at h
    · rename_i j queue hj hsettle
      obtain rfl := Option.some.inj h
      obtain ⟨j', hj', hrun, rfl⟩ := settle_eq_some hsettle
      obtain rfl : j = j' := Option.some.inj (hj.symm.trans hj')
      exact stepSpec_modify hr.ids hj (.settles out hrun) rfl rfl
    · cases h
  | fire i =>
    simp only [QueueRun.step] at h
    split at h
    · rename_i j queue hj hfire
      obtain rfl := Option.some.inj h
      obtain ⟨j', due, hj', htimer, hdue, rfl⟩ := fire_eq_some hfire
      obtain rfl : j = j' := Option.some.inj (hj.symm.trans hj')
      exact stepSpec_modify hr.ids hj (.fires due htimer hdue) rfl rfl
    · cases h

/-- Only a tick moves the clock. -/
theorem step_now {r r' : QueueRun α} {ev : QueueEvent α} (h : r.step ev = some r')
    (hev : ∀ ms, ev ≠ .tick ms) : r'.now = r.now := by
  cases ev with
  | tick ms => exact absurd rfl (hev ms)
  | call deadlineMs =>
    simp only [QueueRun.step] at h
    split at h <;> obtain rfl := Option.some.inj h <;> rfl
  | start i | settle i out | fire i =>
    simp only [QueueRun.step] at h
    split at h
    · obtain rfl := Option.some.inj h
      rfl
    · cases h

/-! ## When a job began -/

/-- When the `i`th job was called. -/
def began (r : QueueRun α) (i : Nat) : Option ℚ := r.queue.jobs[i]?.bind Job.startedAt

/-- The earliest that the `i`th job can have begun. -/
def earliest (r : QueueRun α) (i : Nat) : ℚ := (began r i).getD r.now

theorem earliest_of_began {r : QueueRun α} {i : Nat} {s : ℚ} (h : began r i = some s) : earliest r i = s := by
  rw [earliest, h, Option.getD_some]

theorem earliest_of_none {r : QueueRun α} {i : Nat} (h : began r i = none) : earliest r i = r.now := by
  rw [earliest, h, Option.getD_none]

theorem began_of_job {r : QueueRun α} {i : Nat} {j : Job Nat α} (hj : r.queue.jobs[i]? = some j) :
    began r i = j.startedAt := by
  rw [began, hj, Option.bind_some]

namespace StepSpec

variable {r r' : QueueRun α} {i : Nat}

/-- Where a job comes from. -/
theorem before (h : StepSpec r r') {j' : Job Nat α} (hj' : r'.queue.jobs[i]? = some j') :
    r.queue.jobs[i]? = none ∧ FreshJob r.calls j' ∨ ∃ j, r.queue.jobs[i]? = some j ∧ JobMove r.now j j' := by
  cases hj : r.queue.jobs[i]? with
  | none => exact Or.inl ⟨rfl, h.added i j' hj hj'⟩
  | some j =>
    obtain ⟨j'', hj'', hmove⟩ := h.kept i j hj
    obtain rfl : j'' = j' := Option.some.inj (hj''.symm.trans hj')
    exact Or.inr ⟨j, rfl, hmove⟩

/-- A job that had not begun begins now, if it begins. -/
theorem began (h : StepSpec r r') (i : Nat) :
    Zcash.began r' i = Zcash.began r i ∨ Zcash.began r i = none ∧ Zcash.began r' i = some r.now := by
  cases hj : r.queue.jobs[i]? with
  | some j =>
    obtain ⟨j', hj', hmove⟩ := h.kept i j hj
    rw [began_of_job hj, began_of_job hj']
    exact hmove.startedAt
  | none =>
    refine Or.inl ?_
    rw [Zcash.began, Zcash.began, hj]
    cases hj' : r'.queue.jobs[i]? with
    | none => rfl
    | some j' => simp [Job.startedAt, (h.added i j' hj hj').phase]

/-- Where the clock stands, nothing about the earliest beginning changes. -/
theorem earliest (h : StepSpec r r') (hnow : r'.now = r.now) (i : Nat) :
    Zcash.earliest r' i = Zcash.earliest r i := by
  rcases h.began i with hsame | ⟨hnone, hsome⟩
  · rw [Zcash.earliest, hsame, hnow, Zcash.earliest]
  · rw [earliest_of_began hsome, earliest_of_none hnone]

/-- A job that is answered was there before. -/
theorem job_of_answer (h : StepSpec r r') {done : Nat} (hr : QueueRunInv r done) {j' : Job Nat α}
    (hj' : r'.queue.jobs[i]? = some j') {a : Answer α} {t : ℚ} (hin : (j'.task, a, t) ∈ r'.answers) :
    ∃ j, r.queue.jobs[i]? = some j ∧ JobMove r.now j j' ∧
      ((j.task, a, t) ∈ r.answers ∨ t = r.now ∧ j.answer = none ∧ j'.answer = some a) := by
  rcases h.before hj' with ⟨hnone, hfresh⟩ | ⟨j, hj, hmove⟩
  · exfalso
    rcases h.answers i j' a t hj' hin with hold | ⟨-, k, hk, -⟩
    · rw [hfresh.task] at hold
      rcases hr.sound _ _ _ hold with ⟨-, href⟩ | ⟨k, b, hb, htask, -⟩
      · exact Nat.lt_irrefl _ (hr.ids.refused_lt _ href)
      · have hlt := hr.ids.admitted_lt b.task (List.mem_map_of_mem (List.mem_of_getElem? hb))
        omega
    · simp [hnone] at hk
  · refine ⟨j, hj, hmove, ?_⟩
    rcases h.answers i j' a t hj' hin with hold | ⟨ht, k, hk, hempty, hans⟩
    · exact Or.inl (hmove.task ▸ hold)
    · obtain rfl : k = j := Option.some.inj (hk.symm.trans hj)
      exact Or.inr ⟨ht, hempty, hans⟩

end StepSpec

/-! ## The job behind -/

section

variable {r : QueueRun α} {done i : Nat} {j : Job Nat α}

/-- No job that began comes after one that has not settled. -/
theorem QueueRunInv.began_next (hr : QueueRunInv r done) (hj : r.queue.jobs[i]? = some j)
    (hopen : j.isSettled = false) : began r (i + 1) = none := by
  have hge : done ≤ i := by
    by_contra hlt
    rw [(hr.shape.isSettled_iff hj).mpr (by omega)] at hopen
    cases hopen
  cases hnext : r.queue.jobs[i + 1]? with
  | none => rw [began, hnext, Option.bind_none]
  | some j' =>
    have hwait := hr.shape.waiting (i + 1) j' (by omega) hnext
    rw [began_of_job hnext]
    cases hp : j'.phase <;> simp [Job.isQueued, Job.startedAt, hp] at hwait ⊢

/-- Where a job begins, the one behind it has not begun. -/
theorem QueueRunInv.behind_of_begins {r' : QueueRun α} (hr : QueueRunInv r done) (h : StepSpec r r')
    (hnone : began r i = none) (hsome : began r' i = some r.now) : began r (i + 1) = none := by
  obtain ⟨j', hj', hbegan⟩ := Option.bind_eq_some_iff.mp hsome
  rcases h.before hj' with ⟨-, hfresh⟩ | ⟨j, hj, -⟩
  · simp [Job.startedAt, hfresh.phase] at hbegan
  · refine hr.began_next hj ?_
    rw [began_of_job hj] at hnone
    cases hp : j.phase <;> simp [Job.startedAt, Job.isSettled, hp] at hnone ⊢

end

/-! ## Time passes -/

/-- The jobs `first`, `first + 1`, … hold the queue for at most the
residence, one right after the other. -/
structure Stretch where
  first : Nat
  count : Nat
  residence : ℚ

/-- What the `k`th job of a stretch allows the clock. -/
def Stretch.allows (w : Stretch) (r : QueueRun α) (later : ℚ) (k : Nat) : Bool :=
  match (r.queue.jobs[w.first + k]?).map Job.phase with
  | none => true
  | some .queued => true
  | some (.running s) => decide (later ≤ s + w.residence)
  | some (.settled _ _) => decide (k + 1 = w.count) || (began r (w.first + (k + 1))).isSome

/-- The clock may advance by so much: every timer fires when it is due. -/
def Stretch.onTime (w : Stretch) (r : QueueRun α) (ms : ℚ) : Bool :=
  (r.queue.jobs.all fun j => j.timer.all fun due => decide (r.now + ms ≤ due)) &&
    (List.range w.count).all (w.allows r (r.now + ms))

def Stretch.step (w : Stretch) (r : QueueRun α) : QueueEvent α → Option (QueueRun α)
  | .tick ms => if w.onTime r ms then r.step (.tick ms) else none
  | ev => r.step ev

theorem Stretch.step_eq_some {w : Stretch} {r r' : QueueRun α} {ev : QueueEvent α}
    (h : w.step r ev = some r') : r.step ev = some r' ∧ ∀ ms, ev = .tick ms → w.onTime r ms = true := by
  unfold Stretch.step at h
  split at h
  · rename_i ms
    split at h
    · rename_i htime
      refine ⟨h, fun ms' heq => ?_⟩
      cases heq
      exact htime
    · cases h
  · rename_i hne
    exact ⟨h, fun ms heq => absurd heq (hne ms)⟩

section

variable {w : Stretch} {r r' : QueueRun α} {ms : ℚ} {k : Nat} {j : Job Nat α}

theorem Stretch.timer_of_onTime (h : w.onTime r ms = true) (hj : j ∈ r.queue.jobs) {due : ℚ}
    (hdue : j.timer = some due) : r.now + ms ≤ due := by
  have hall := List.all_eq_true.mp (Bool.and_eq_true_iff.mp h).1 j hj
  simpa [hdue] using hall

/-- Where the clock advances, a job that began is still in its residence
or has made way for the next. -/
theorem Stretch.next_of_onTime (h : w.onTime r ms = true) (hk : k + 1 < w.count)
    (hj : r.queue.jobs[w.first + k]? = some j) :
    (∀ s, j.phase = .running s → r.now + ms ≤ s + w.residence) ∧
      (j.isSettled = true → (began r (w.first + (k + 1))).isSome = true) := by
  have hall := List.all_eq_true.mp (Bool.and_eq_true_iff.mp h).2 k (List.mem_range.mpr (by omega))
  rw [Stretch.allows, hj] at hall
  constructor
  · intro s hp
    simpa [hp] using hall
  · intro hs
    cases hp : j.phase with
    | queued => simp [Job.isSettled, hp] at hs
    | running s => simp [Job.isSettled, hp] at hs
    | settled s out =>
      simp only [Option.map_some, hp, Bool.or_eq_true, decide_eq_true_eq] at hall
      rcases hall with hlast | hbegan
      · omega
      · exact hbegan

/-! ## The spacing of a stretch -/

structure Spacing (w : Stretch) (r : QueueRun α) : Prop where
  /-- no timer is overdue -/
  due : ∀ j ∈ r.queue.jobs, ∀ t, j.timer = some t → r.now ≤ t
  /-- a task that nobody has answered has its timer -/
  armed : ∀ j ∈ r.queue.jobs, 0 < j.deadlineMs → j.answer = none → ∀ s, j.phase = .running s →
    j.timer = some (s + timeoutDelay j.deadlineMs)
  /-- an answer comes when the timer fires, at the latest -/
  answerBy : ∀ (i : Nat) (j : Job Nat α), r.queue.jobs[i]? = some j → 0 < j.deadlineMs →
    ∀ a t, (j.task, a, t) ∈ r.answers → ∃ s, began r i = some s ∧ t ≤ s + timeoutDelay j.deadlineMs
  next : ∀ k, k + 1 < w.count → ∀ s, began r (w.first + k) = some s →
    earliest r (w.first + (k + 1)) ≤ s + w.residence
  nextOwn : ∀ k, k + 1 < w.count → ∀ j, r.queue.jobs[w.first + k]? = some j →
    ∀ out t, (j.task, .own out, t) ∈ r.answers → earliest r (w.first + (k + 1)) ≤ t

theorem spacing_new (w : Stretch) (maxPending : Nat) (now : ℚ) :
    Spacing w (QueueRun.new maxPending now : QueueRun α) where
  due := by
    intro j hj
    cases hj
  armed := by
    intro j hj
    cases hj
  answerBy := by
    intro i j hj
    simp [QueueRun.new, SerialQueue.new] at hj
  next := by
    intro k _ s hs
    simp [began, QueueRun.new, SerialQueue.new] at hs
  nextOwn := by
    intro k _ j hj
    simp [QueueRun.new, SerialQueue.new] at hj

/-- Advancing the clock delays only what has not begun. -/
theorem earliest_tick (r : QueueRun α) (i : Nat) (now : ℚ) :
    earliest { r with now := now } i = (began r i).getD now := rfl

theorem Spacing.tick (h : Spacing w r) {done : Nat} (hr : QueueRunInv r done) (htime : w.onTime r ms = true) :
    Spacing w { r with now := r.now + ms } where
  due := fun j hj t ht => Stretch.timer_of_onTime htime hj ht
  armed := h.armed
  answerBy := h.answerBy
  next := by
    intro k hk s hs
    rw [earliest_tick]
    cases hnext : began r (w.first + (k + 1)) with
    | some s' => simpa [earliest_of_began hnext] using h.next k hk s hs
    | none =>
      obtain ⟨j, hj, hjs⟩ := Option.bind_eq_some_iff.mp hs
      obtain ⟨hrunning, hsettled⟩ := Stretch.next_of_onTime htime hk hj
      cases hp : j.phase with
      | queued => simp [Job.startedAt, hp] at hjs
      | running s' =>
        obtain rfl : s' = s := by simpa [Job.startedAt, hp] using hjs
        exact hrunning s' hp
      | settled s' out =>
        have hbegan := hsettled (by simp [Job.isSettled, hp])
        simp [hnext] at hbegan
  nextOwn := by
    intro k hk j hj out t hin
    obtain ⟨-, s', hp⟩ := hr.sound_at hj hin
    have hsettled : j.isSettled = true := by simp [Job.isSettled, hp]
    have hbegan := (Stretch.next_of_onTime htime hk hj).2 hsettled
    obtain ⟨s, hs⟩ := Option.isSome_iff_exists.mp hbegan
    rw [earliest_tick, hs]
    simpa [earliest_of_began hs] using h.nextOwn k hk j hj out t hin

/-- A task that is answered just now has not been running for longer than
its timer. -/
theorem Spacing.answered_now (h : Spacing w r) {done i : Nat} (hr : QueueRunInv r done)
    (hj : r.queue.jobs[i]? = some j) {j' : Job Nat α} (hmove : JobMove r.now j j') (hpos : 0 < j.deadlineMs)
    (hempty : j.answer = none) (hans : j'.answer ≠ none) :
    ∃ s, began r i = some s ∧ r.now ≤ s + timeoutDelay j.deadlineMs := by
  have hmem := List.mem_of_getElem? hj
  rw [began_of_job hj]
  cases hmove with
  | stays => exact absurd hempty hans
  | starts hq => exact absurd hempty hans
  | settles out hrunning =>
    cases hp : j.phase with
    | queued => simp [Job.isRunning, hp] at hrunning
    | running s =>
      have htimer := h.armed j hmem hpos hempty s hp
      exact ⟨s, by simp [Job.startedAt, hp], h.due j hmem _ htimer⟩
    | settled s out => simp [Job.isRunning, hp] at hrunning
  | fires due htimer hdue =>
    obtain ⟨-, s, hp, rfl⟩ := hr.timers i j due hj htimer
    exact ⟨s, by simp [Job.startedAt, hp], h.due j hmem _ htimer⟩

/-- A step that leaves the clock alone. -/
theorem Spacing.event (h : Spacing w r) {done : Nat} (hr : QueueRunInv r done) (hspec : StepSpec r r')
    (hnow : r'.now = r.now) (hresidence : 0 ≤ w.residence) : Spacing w r' where
  due := by
    intro j' hj' t ht
    obtain ⟨i, hi⟩ := List.mem_iff_getElem?.mp hj'
    rw [hnow]
    rcases hspec.before hi with ⟨-, hfresh⟩ | ⟨j, hj, hmove⟩
    · simp [hfresh.timer] at ht
    · rcases hmove.timer ht with hold | rfl
      · exact h.due j (List.mem_of_getElem? hj) t hold
      · linarith [timeoutDelay_pos j.deadlineMs]
  armed := by
    intro j' hj' hpos hempty s hp
    obtain ⟨i, hi⟩ := List.mem_iff_getElem?.mp hj'
    rcases hspec.before hi with ⟨-, hfresh⟩ | ⟨j, hj, hmove⟩
    · simp [hfresh.phase] at hp
    · rw [hmove.deadlineMs] at hpos ⊢
      rcases hmove.armed hpos hempty hp with hset | ⟨hopen, hrunning, hsame⟩
      · exact hset
      · rw [hsame]
        exact h.armed j (List.mem_of_getElem? hj) hpos hopen s hrunning
  answerBy := by
    intro i j' hj' hpos a t hin
    obtain ⟨j, hj, hmove, hanswer⟩ := hspec.job_of_answer hr hj' hin
    rw [hmove.deadlineMs] at hpos ⊢
    have hbegan : ∃ s, began r i = some s ∧ t ≤ s + timeoutDelay j.deadlineMs := by
      rcases hanswer with hold | ⟨rfl, hempty, hans⟩
      · exact h.answerBy i j hj hpos a t hold
      · exact h.answered_now hr hj hmove hpos hempty (by simp [hans])
    obtain ⟨s, hs, hle⟩ := hbegan
    refine ⟨s, ?_, hle⟩
    rcases hspec.began i with hsame | ⟨hnone, -⟩
    · rw [hsame, hs]
    · simp [hs] at hnone
  next := by
    intro k hk s hs
    rw [hspec.earliest hnow]
    rcases hspec.began (w.first + k) with hsame | ⟨hnone, hsome⟩
    · exact h.next k hk s (hsame ▸ hs)
    · obtain rfl : r.now = s := Option.some.inj (hsome.symm.trans hs)
      rw [← Nat.add_assoc, earliest_of_none (hr.behind_of_begins hspec hnone hsome)]
      linarith
  nextOwn := by
    intro k hk j' hj' out t hin
    rw [hspec.earliest hnow]
    obtain ⟨j, hj, hmove, hold | ⟨rfl, hempty, hans⟩⟩ := hspec.job_of_answer hr hj' hin
    · exact h.nextOwn k hk j hj out t hold
    · have hopen := hmove.open_of_own hempty hans
      rw [← Nat.add_assoc, earliest_of_none (hr.began_next hj hopen)]

theorem spacing_step {ev : QueueEvent α} (hresidence : 0 ≤ w.residence)
    (h : Spacing w r ∧ ∃ done, QueueRunInv r done) (hstep : w.step r ev = some r') :
    Spacing w r' ∧ ∃ done, QueueRunInv r' done := by
  obtain ⟨hspacing, done, hr⟩ := h
  obtain ⟨hstep, htime⟩ := Stretch.step_eq_some hstep
  refine ⟨?_, queueRunInv_step ⟨done, hr⟩ hstep⟩
  have hspec := stepSpec hr hstep
  cases ev with
  | tick ms =>
    simp only [QueueRun.step] at hstep
    split at hstep
    · obtain rfl := Option.some.inj hstep
      exact hspacing.tick hr (htime ms rfl)
    · cases hstep
  | call deadlineMs => exact hspacing.event hr hspec (step_now hstep (by simp)) hresidence
  | start i => exact hspacing.event hr hspec (step_now hstep (by simp)) hresidence
  | settle i out => exact hspacing.event hr hspec (step_now hstep (by simp)) hresidence
  | fire i => exact hspacing.event hr hspec (step_now hstep (by simp)) hresidence

theorem spacing_run (hresidence : 0 ≤ w.residence) {maxPending : Nat} {now : ℚ} {es : List (QueueEvent α)}
    (h : run w.step (.new maxPending now) es = some r) : Spacing w r ∧ ∃ done, QueueRunInv r done :=
  run_invariant (fun r => Spacing w r ∧ ∃ done, QueueRunInv r done) (fun _ _ _ => spacing_step hresidence)
    ⟨spacing_new w maxPending now, 0, queueRunInv_new maxPending now⟩ h

/-! ## How far apart answers are -/

/-- The `i`th job, called with this deadline, was answered at `t`. -/
def Answered (r : QueueRun α) (i : Nat) (deadlineMs : ℚ) (a : Answer α) (t : ℚ) : Prop :=
  ∃ j, r.queue.jobs[i]? = some j ∧ j.deadlineMs = deadlineMs ∧ (j.task, a, t) ∈ r.answers

theorem Spacing.began_of_answered (h : Spacing w r) {i : Nat} {deadlineMs t : ℚ} {a : Answer α}
    (ha : Answered r i deadlineMs a t) (hpos : 0 < deadlineMs) :
    ∃ s, began r i = some s ∧ t ≤ s + timeoutDelay deadlineMs := by
  obtain ⟨j, hj, rfl, hin⟩ := ha
  exact h.answerBy i j hj hpos a t hin

/-- The job behind one that was answered begins soon after the answer. -/
theorem Spacing.earliest_behind (h : Spacing w r) {done : Nat} (hr : QueueRunInv r done) (hk : k + 1 < w.count)
    {deadlineMs t : ℚ} {a : Answer α} (ha : Answered r (w.first + k) deadlineMs a t)
    (hdelay : timeoutDelay deadlineMs ≤ w.residence) :
    earliest r (w.first + (k + 1)) ≤ t + (w.residence - timeoutDelay deadlineMs) := by
  obtain ⟨j, hj, rfl, hin⟩ := ha
  obtain ⟨-, hsound⟩ := hr.sound_at hj hin
  cases a with
  | own out =>
    have hown := h.nextOwn k hk j hj out t hin
    linarith
  | deadline =>
    obtain ⟨-, s, hs, hle⟩ := hsound
    have hnext := h.next k hk s ((began_of_job hj).trans hs)
    linarith
  | queueFull => cases hsound

/-- **Spacing.** The answers of a stretch are a residence apart for each
job between them, at most. -/
theorem Spacing.answers_within (h : Spacing w r) {done : Nat} (hr : QueueRunInv r done) {deadlineMs : ℚ}
    (hpos : 0 < deadlineMs) (hdelay : timeoutDelay deadlineMs ≤ w.residence) {t : Nat → ℚ}
    (hall : ∀ k < w.count, ∃ a, Answered r (w.first + k) deadlineMs a (t k)) (n : Nat)
    (hn : k + n < w.count) : t (k + n) ≤ t k + n * w.residence := by
  have hearliest : ∀ n, k + (n + 1) < w.count →
      earliest r (w.first + (k + (n + 1))) ≤ t k + (n + 1) * w.residence - timeoutDelay deadlineMs := by
    intro n hn
    induction n with
    | zero =>
      obtain ⟨a, ha⟩ := hall k (by omega)
      have hbehind := h.earliest_behind hr hn ha hdelay
      push_cast
      linarith
    | succ n ih =>
      have hbefore := ih (by omega)
      obtain ⟨a, ha⟩ := hall (k + (n + 1)) (by omega)
      obtain ⟨s, hs, -⟩ := h.began_of_answered ha hpos
      rw [earliest_of_began hs] at hbefore
      have hnext : earliest r (w.first + (k + (n + 1 + 1))) ≤ s + w.residence :=
        h.next (k + (n + 1)) hn s hs
      push_cast
      linarith
  cases n with
  | zero => simp
  | succ n =>
    obtain ⟨a, ha⟩ := hall (k + (n + 1)) hn
    obtain ⟨s, hs, hle⟩ := h.began_of_answered ha hpos
    have hlast := hearliest n hn
    rw [earliest_of_began hs] at hlast
    push_cast
    linarith

end

/-! ## Jobs that are held -/

/-- Jobs that are called together, each held for the whole residence, with
a deadline that answers first. -/
structure HeldJobs (α : Type) where
  count : Nat
  deadlineMs : ℚ
  residence : ℚ
  out : α
  deadline_pos : 0 < deadlineMs
  delay_le : timeoutDelay deadlineMs ≤ residence

namespace HeldJobs

variable (h : HeldJobs α)

def stretch : Stretch := ⟨0, h.count, h.residence⟩

/-- The `i`th of them when this many have settled. -/
def job (held i : Nat) : Job Nat α :=
  if i < held then ⟨i, h.deadlineMs, before i, .settled (i * h.residence) h.out, none, some .deadline⟩
  else ⟨i, h.deadlineMs, before i, .queued, none, none⟩

/-- The queue while the one behind those is as `j` says. -/
def queue (held : Nat) (j : Job Nat α) : SerialQueue Nat α where
  maxPending := h.count
  pending := h.count - held
  tail := before h.count
  jobs := (List.range h.count).map fun i => if i = held then j else h.job held i

def answers (held : Nat) : List (Nat × Answer α × ℚ) :=
  (List.range held).map fun i => (i, .deadline, i * h.residence + timeoutDelay h.deadlineMs)

/-- When this many have settled. -/
def after (held : Nat) : QueueRun α :=
  ⟨h.queue held (h.job held held), held * h.residence, h.count, [], List.range held, h.answers held⟩

/-- The next one has been running for so long. -/
def running (held : Nat) (ms : ℚ) (timer : Option ℚ) (answer : Option (Answer α))
    (answers : List (Nat × Answer α × ℚ)) : QueueRun α :=
  ⟨h.queue held ⟨held, h.deadlineMs, before held, .running (held * h.residence), timer, answer⟩,
    held * h.residence + ms, h.count, [], List.range (held + 1), answers⟩

def events (i : Nat) : List (QueueEvent α) :=
  [.start i, .tick (timeoutDelay h.deadlineMs), .fire i, .tick (h.residence - timeoutDelay h.deadlineMs),
    .settle i h.out]

/-- They are all called first. -/
def trace : List (QueueEvent α) :=
  List.replicate h.count (.call h.deadlineMs) ++ (List.range h.count).flatMap h.events

variable {h} {held : Nat}

theorem queue_job (j : Job Nat α) (i : Nat) :
    (h.queue held j).jobs[i]? = if i < h.count then some (if i = held then j else h.job held i) else none := by
  simp only [queue, List.getElem?_map]
  split
  · rename_i hi
    rw [List.getElem?_range hi, Option.map_some]
  · rename_i hi
    rw [List.getElem?_eq_none (by simpa using hi), Option.map_none]

theorem queue_modify (j : Job Nat α) (f : Job Nat α → Job Nat α) :
    (h.queue held j).jobs.modify held f = (h.queue held (f j)).jobs := by
  apply List.ext_getElem?
  intro i
  rw [getElem?_modify_ite, queue_job, queue_job]
  by_cases hi : i < h.count
  · by_cases hheld : held = i
    · simp [hi, hheld]
    · simp [hi, hheld, Ne.symm hheld]
  · simp [hi]

/-- The clock may advance while the job is in its residence. -/
theorem onTime {r : QueueRun α} {j : Job Nat α} {s ms : ℚ} (hqueue : r.queue = h.queue held j)
    (hphase : j.phase = .running s) (hin : r.now + ms ≤ s + h.residence)
    (htimer : ∀ due, j.timer = some due → r.now + ms ≤ due) : h.stretch.onTime r ms = true := by
  refine Bool.and_eq_true_iff.mpr ⟨?_, ?_⟩
  · rw [List.all_eq_true]
    intro j' hj'
    rw [hqueue] at hj'
    obtain ⟨i, hi⟩ := List.mem_iff_getElem?.mp hj'
    rw [queue_job, Option.ite_none_right_eq_some, Option.some.injEq] at hi
    obtain ⟨-, rfl⟩ := hi
    rw [Option.all_eq_true]
    intro due hdue
    split at hdue
    · exact decide_eq_true (htimer due hdue)
    · unfold job at hdue
      split at hdue <;> cases hdue
  · rw [List.all_eq_true]
    intro k hk
    have hk : k < h.count := List.mem_range.mp hk
    rw [Stretch.allows, hqueue, show h.stretch.first + k = k from Nat.zero_add k, queue_job, if_pos hk]
    rcases Nat.lt_trichotomy k held with hlt | rfl | hgt
    · have hbegan (hnext : k + 1 < h.count) : (began r (k + 1)).isSome = true := by
        rw [began, hqueue, queue_job, if_pos hnext]
        split
        · simp [Job.startedAt, hphase]
        · simp [job, show k + 1 < held by omega, Job.startedAt]
      by_cases hlast : k + 1 = h.count
      · simp [stretch, job, hlt, hlt.ne, hlast]
      · simpa [stretch, job, hlt, hlt.ne, hlast] using hbegan (by omega)
    · simp only [if_true, Option.map_some, hphase]
      exact decide_eq_true hin
    · simp [job, hgt.ne', not_lt.mpr hgt.le]

theorem job_self (i : Nat) : h.job i i = ⟨i, h.deadlineMs, before i, .queued, none, none⟩ :=
  if_neg (lt_irrefl i)

/-- The job that the next one waits for has settled. -/
theorem startable (hheld : held < h.count) : (h.queue held (h.job held held)).startable (h.job held held) = true := by
  rw [job_self]
  cases held with
  | zero => rfl
  | succ n =>
    have hbefore : (h.queue (n + 1) ⟨n + 1, h.deadlineMs, before (n + 1), .queued, none, none⟩).jobs[n]? =
        some (h.job (n + 1) n) := by
      rw [queue_job, if_pos (by omega), if_neg (by omega)]
    show Option.any Job.isSettled (SerialQueue.jobs _)[n]? = true
    rw [hbefore, job, if_pos (Nat.lt_succ_self n)]
    rfl

/-- Once the job has settled, the next one is at its place. -/
theorem queue_settled :
    (h.queue held ⟨held, h.deadlineMs, before held, .settled (held * h.residence) h.out, none, some .deadline⟩).jobs =
      (h.queue (held + 1) (h.job (held + 1) (held + 1))).jobs := by
  refine List.map_congr_left fun i _ => ?_
  rcases Nat.lt_trichotomy i held with hlt | rfl | hgt
  · simp [job, hlt, show i ≠ held by omega, show i ≠ held + 1 by omega, show i < held + 1 by omega]
  · simp [job]
  · by_cases hnext : i = held + 1
    · simp [job, hnext]
    · simp [job, hnext, show i ≠ held by omega, show ¬ i < held by omega, show ¬ i < held + 1 by omega]

theorem step_start (hheld : held < h.count) :
    h.stretch.step (h.after held) (.start held) =
      some (h.running held 0 (some (held * h.residence + timeoutDelay h.deadlineMs)) none (h.answers held)) := by
  have hjob : (h.queue held (h.job held held)).jobs[held]? = some (h.job held held) := by
    rw [queue_job, if_pos hheld, if_pos rfl]
  have hstart : (h.queue held (h.job held held)).start held (held * h.residence) =
      some (h.queue held ((h.job held held).start (held * h.residence))) := by
    rw [SerialQueue.start, hjob, Option.any_some, if_pos (startable hheld), queue_modify]
    rfl
  simp only [Stretch.step, QueueRun.step, after]
  rw [hjob, hstart]
  dsimp only
  rw [job_self, Job.start, if_pos h.deadline_pos, running, List.range_succ, add_zero]

theorem step_tick {ms more : ℚ} {timer : Option ℚ} {answer : Option (Answer α)}
    {answers : List (Nat × Answer α × ℚ)} (hmore : 0 ≤ more) (hin : ms + more ≤ h.residence)
    (htimer : ∀ due, timer = some due → held * h.residence + ms + more ≤ due) :
    h.stretch.step (h.running held ms timer answer answers) (.tick more) =
      some (h.running held (ms + more) timer answer answers) := by
  have htime : h.stretch.onTime (h.running held ms timer answer answers) more = true :=
    onTime rfl rfl (show held * h.residence + ms + more ≤ held * h.residence + h.residence by linarith) htimer
  show (if _ then QueueRun.step _ _ else _) = _
  rw [if_pos htime, QueueRun.step, if_pos hmore, running, add_assoc]
  rfl

theorem step_fire (hheld : held < h.count) :
    h.stretch.step
        (h.running held (timeoutDelay h.deadlineMs) (some (held * h.residence + timeoutDelay h.deadlineMs)) none
          (h.answers held)) (.fire held) =
      some (h.running held (timeoutDelay h.deadlineMs) none (some .deadline) (h.answers (held + 1))) := by
  have hjob (j : Job Nat α) : (h.queue held j).jobs[held]? = some j := by
    rw [queue_job, if_pos hheld, if_pos rfl]
  have hfire (j : Job Nat α) (due : ℚ) (htimer : j.timer = some due) :
      (h.queue held j).fire held due = some (h.queue held j.fire) := by
    rw [SerialQueue.fire, hjob, Option.any_some, htimer, Option.any_some, if_pos (decide_eq_true le_rfl), queue_modify]
    rfl
  have hanswers : h.answers (held + 1) =
      h.answers held ++ [(held, .deadline, held * h.residence + timeoutDelay h.deadlineMs)] := by
    rw [answers, List.range_succ, List.map_append]
    rfl
  simp only [Stretch.step, QueueRun.step, running]
  rw [hjob, hfire _ _ rfl, hanswers]
  rfl

theorem step_settle (hheld : held < h.count) :
    h.stretch.step (h.running held h.residence none (some .deadline) (h.answers (held + 1))) (.settle held h.out) =
      some (h.after (held + 1)) := by
  have hjob (j : Job Nat α) : (h.queue held j).jobs[held]? = some j := by
    rw [queue_job, if_pos hheld, if_pos rfl]
  have hsettle : (h.queue held ⟨held, h.deadlineMs, before held, .running (held * h.residence), none,
      some .deadline⟩).settle held h.out = some (h.queue (held + 1) (h.job (held + 1) (held + 1))) := by
    have hpending : ((h.count : Int) - held) - 1 = h.count - (held + 1 : Nat) := by
      push_cast
      ring
    simp only [SerialQueue.settle, hjob, Option.any_some, Job.isRunning, if_true, queue_modify, Job.settle,
      Job.startedAt, Option.getD_some]
    rw [queue_settled]
    simp only [queue, hpending]
  have hnow : (held : ℚ) * h.residence + h.residence = (held + 1 : Nat) * h.residence := by
    push_cast
    ring
  simp only [Stretch.step, QueueRun.step, running]
  rw [hjob, hsettle, hnow, after]
  simp [newAnswer]

/-- **A job held.** Its deadline answers for it, and it settles when the
residence is over. -/
theorem after_step (hheld : held < h.count) :
    run h.stretch.step (h.after held) (h.events held) = some (h.after (held + 1)) := by
  have hdelay := (timeoutDelay_pos h.deadlineMs).le
  have hresidence := h.delay_le
  rw [events, run_cons, step_start hheld, Option.bind_some, run_cons, step_tick hdelay (by linarith),
    zero_add, Option.bind_some, run_cons, step_fire hheld, Option.bind_some, run_cons,
    step_tick (sub_nonneg.mpr hresidence) (by linarith) (by simp), add_sub_cancel, Option.bind_some, run_cons,
    step_settle hheld, Option.bind_some, run_nil]
  simp

/-- When this many have been called, at the start. -/
def called (h : HeldJobs α) (n : Nat) : QueueRun α :=
  ⟨⟨h.count, n, before n, (List.range n).map (h.job 0)⟩, 0, n, [], [], []⟩

theorem called_step {n : Nat} (hn : n < h.count) :
    h.stretch.step (h.called n) (.call h.deadlineMs) = some (h.called (n + 1)) := by
  have hcall : (h.called n).queue.run n h.deadlineMs = some (h.called (n + 1)).queue := by
    simp [SerialQueue.run, called, List.range_succ, job, before, hn]
  simp only [Stretch.step, QueueRun.step]
  rw [show (h.called n).calls = n from rfl, hcall]
  rfl

theorem called_run {n : Nat} (hn : n ≤ h.count) :
    run h.stretch.step (.new h.count 0) (List.replicate n (.call h.deadlineMs)) = some (h.called n) := by
  induction n with
  | zero => rfl
  | succ n ih =>
    rw [List.replicate_succ', run_append, ih (by omega), Option.bind_some, run_cons, called_step (by omega)]
    rfl

theorem after_run {n : Nat} (hn : n ≤ h.count) :
    run h.stretch.step (h.after 0) ((List.range n).flatMap h.events) = some (h.after n) := by
  induction n with
  | zero => rfl
  | succ n ih =>
    rw [List.range_succ, List.flatMap_append, run_append, ih (by omega), Option.bind_some, List.flatMap_singleton,
      after_step (by omega)]

/-- The run of these jobs, from an empty queue. -/
theorem runs (h : HeldJobs α) :
    run h.stretch.step (.new h.count 0) h.trace = some (h.after h.count) := by
  have hcalled : h.called h.count = h.after 0 := by
    have hjobs : (h.queue 0 (h.job 0 0)).jobs = (List.range h.count).map (h.job 0) := by
      refine List.map_congr_left fun i _ => ?_
      split
      · rename_i hi
        rw [hi]
      · rfl
    simp [called, after, ← hjobs, queue, answers]
  rw [trace, run_append, called_run le_rfl, Option.bind_some, hcalled, after_run le_rfl]

theorem answered {k : Nat} (hk : k < h.count) :
    Answered (h.after h.count) k h.deadlineMs .deadline (k * h.residence + timeoutDelay h.deadlineMs) := by
  refine ⟨h.job h.count k, ?_, ?_, ?_⟩
  · rw [after, queue_job, if_pos hk, if_neg hk.ne]
  · rw [job, if_pos hk]
  · rw [job, if_pos hk]
    exact List.mem_map.mpr ⟨k, List.mem_range.mpr hk, rfl⟩

end HeldJobs

end ZcashFaucet.Zcash
