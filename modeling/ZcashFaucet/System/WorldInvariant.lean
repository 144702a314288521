/-
ZcashFaucet.System.WorldInvariant — what holds in every state of a
punctual process.

The invariant has five parts, one for each thing that is tied to
another: the ledger (`LedgerPart`), each queue (`QueuePart`), the jobs of
the queues to the requests they belong to (`LinkPart`), the requests to
the rows they reserved (`RowsPart`), and the requests to the clock
(`TimePart`).

The last one carries the lease. A request that waits at place `k` of a
queue whose first unsettled job is `done` is owed `k - done` sends and
its own, and `waiting_slack` says that they all fit into the residence
of a full queue, counted from the instant it was enqueued. When the job
at `done` settles the base of the count moves to the present, which is
at most one residence later, and the place moves by one: the sum does
not grow. `insideLease_of_inFlight` turns it into seconds: a row whose
request has not recorded its outcome is inside its pending lease.
-/
import ZcashFaucet.Db.LedgerTheorems
import ZcashFaucet.System.World
import ZcashFaucet.Zcash.QueueTheorems

namespace ZcashFaucet.System

open Lib Db Zcash Api

/-! ## The parts -/

structure LedgerPart (cfg : FaucetConfig) (b : Books) : Prop where
  inv : BooksInv cfg.ledger b
  ids : BooksIds b
  seen : ∀ m ∈ b.maxNow, m * 1000 ≤ b.clockMs

structure QueuePart (cfg : FaucetConfig) (clockMs : ℚ) (q : SendQueue) (done : Nat) : Prop where
  shape : QueueShape q done
  capacity : q.maxPending = cfg.ledger.sendQueueMaxPending
  started : ∀ j ∈ q.jobs, ∀ s, j.startedAt = some s → s ≤ clockMs
  own : ∀ j ∈ q.jobs, ∀ out, j.answer = some (.own out) → ∃ s, j.phase = .settled s out
  admitted : ∀ j ∈ q.jobs, j.answer ≠ some .queueFull

/-- Where the request of a job is: it waits for this job, or it has the
answer this job was given. -/
def Linked (j : Job (Option Nat) Settlement) (k : Nat) : Stage → Prop
  | .waiting _ k' _ => k' = k ∧ j.answer = none
  | .answered _ _ a _ => j.answer = some a
  | .done _ a => j.answer = some a
  | _ => False

def LinkPart (queues : FaucetNetwork → SendQueue) (requests : List Request) : Prop :=
  ∀ (n : FaucetNetwork) (k i : Nat) (j : Job (Option Nat) Settlement),
    (queues n).jobs[k]? = some j → j.task = some i →
      ∃ rq, requests[i]? = some rq ∧ rq.req.network = n ∧ Linked j k rq.stage

/-- The status a request gives its row. -/
def Stage.rowStatus (senderName : String) : Stage → ClaimStatus
  | .done _ a => (finalizeArgs senderName a).status.toClaimStatus
  | _ => .pending

/-- The row a request reserved. -/
structure RowOf (cfg : FaucetConfig) (rq : Request) (claimId : Nat) (e : Entry) : Prop where
  id : e.row.id = claimId
  addressHash : e.row.addressHash = cfg.ledger.fingerprintAddress rq.req.address
  network : e.row.network = rq.req.network
  createdAt : e.row.createdAt = rq.now
  status : e.row.status = rq.stage.rowStatus (cfg.senderName rq.req.network)

structure RowsPart (cfg : FaucetConfig) (archive : List Entry) (requests : List Request) : Prop where
  row : ∀ (i : Nat) (rq : Request) (c : Nat), requests[i]? = some rq → rq.stage.claimId? = some c →
    ∃ e ∈ archive, RowOf cfg rq c e
  unique : ∀ (i i' : Nat) (rq rq' : Request) (c : Nat), requests[i]? = some rq →
    requests[i']? = some rq' → rq.stage.claimId? = some c → rq'.stage.claimId? = some c → i = i'

/-- When the first unsettled job of a queue started; the present, if it
has not. -/
def base (clockMs : ℚ) (q : SendQueue) (done : Nat) : ℚ :=
  (q.jobs[done]?.bind Job.startedAt).getD clockMs

/-- A request that waits is in its queue, and what is ahead of it fits
into a full queue. -/
structure WaitingFor (cfg : FaucetConfig) (clockMs : ℚ) (q : SendQueue) (done i k : Nat)
    (enqueuedAt : ℚ) : Prop where
  ahead : done ≤ k
  past : enqueuedAt ≤ clockMs
  job : ∃ j, q.jobs[k]? = some j ∧ j.task = some i ∧ j.answer = none
  slack : base clockMs q done + ((k : ℚ) - done) * cfg.ledger.sendResidenceMs ≤
    enqueuedAt + ((cfg.ledger.sendQueueMaxPending : ℚ) - 1) * cfg.ledger.sendResidenceMs

structure TimePart (cfg : FaucetConfig) (clockMs : ℚ) (queues : FaucetNetwork → SendQueue)
    (done : FaucetNetwork → Nat) (requests : List Request) : Prop where
  read : ∀ (i : Nat) (rq : Request), requests[i]? = some rq → rq.readAt ≤ clockMs
  waiting : ∀ (i : Nat) (rq : Request) (c k : Nat) (enqueuedAt : ℚ), requests[i]? = some rq →
    rq.stage = .waiting c k enqueuedAt →
      WaitingFor cfg clockMs (queues rq.req.network) (done rq.req.network) i k enqueuedAt
  answered : ∀ (i : Nat) (rq : Request) (c : Nat) (enqueuedAt answeredAt : ℚ)
    (a : Answer Settlement), requests[i]? = some rq →
      rq.stage = .answered c enqueuedAt a answeredAt →
        answeredAt ≤ enqueuedAt + cfg.ledger.sendQueueMaxPending * cfg.ledger.sendResidenceMs

structure WorldInv (cfg : FaucetConfig) (w : World) (done : FaucetNetwork → Nat) : Prop where
  ledger : LedgerPart cfg w.books
  queue : ∀ n, QueuePart cfg w.clockMs (w.queues n) (done n)
  link : LinkPart w.queues w.requests
  rows : RowsPart cfg w.books.archive w.requests
  time : TimePart cfg w.clockMs w.queues done w.requests

theorem queuePart_new (cfg : FaucetConfig) (clockMs : ℚ) :
    QueuePart cfg clockMs (.new cfg.ledger.sendQueueMaxPending) 0 := by
  refine ⟨queueShape_new _, rfl, ?_, ?_, ?_⟩ <;>
    · intro j hj
      cases hj

theorem worldInv_init (cfg : FaucetConfig) (clockMs : ℚ) :
    WorldInv cfg (.init cfg clockMs) fun _ => 0 where
  ledger := ⟨booksInv_empty cfg.ledger clockMs, booksIds_empty clockMs, by
    intro m hm
    cases hm⟩
  queue := fun _ => queuePart_new cfg clockMs
  link := by
    intro n k i j hj
    simp [World.init, SerialQueue.new] at hj
  rows := ⟨by simp [World.init], by simp [World.init]⟩
  time := ⟨by simp [World.init], by simp [World.init], by simp [World.init]⟩

/-! ## The clock and the lease -/

theorem now_le_readAt (rq : Request) : rq.now * 1000 ≤ rq.readAt := by
  have h : (⌊rq.readAt / 1000⌋ : ℚ) ≤ rq.readAt / 1000 := Int.floor_le _
  unfold Request.now
  linarith

theorem readAt_lt_now (rq : Request) : rq.readAt < rq.now * 1000 + 1000 := by
  have h : rq.readAt / 1000 < ⌊rq.readAt / 1000⌋ + 1 := Int.lt_floor_add_one _
  unfold Request.now
  linarith

/-- The lease covers a full queue, the send and a minute. -/
theorem pendingLease_covers (cfg : LedgerConfig) :
    ((cfg.sendQueueMaxPending : ℚ) + 1) * cfg.sendResidenceMs + 60000 ≤ cfg.pendingLease * 1000 := by
  have h : (cfg.sendQueueMaxPending + 1) * cfg.sendResidenceMs + 60000 ≤ cfg.pendingLease * 1000 := by
    unfold LedgerConfig.pendingLease pendingLeaseSeconds pendingLeaseMarginSeconds
    omega
  exact_mod_cast h

/-- A punctual queue is at most one residence behind its base. -/
theorem clock_le_base {cfg : FaucetConfig} {clockMs : ℚ} {q : SendQueue} {done : Nat}
    (hq : q.jobs.all (jobPunctual cfg clockMs) = true) (hshape : QueueShape q done) :
    clockMs ≤ base clockMs q done + cfg.ledger.sendResidenceMs := by
  have hres : (0 : ℚ) ≤ cfg.ledger.sendResidenceMs := Nat.cast_nonneg _
  unfold base
  cases hj : q.jobs[done]? with
  | none =>
    simp only [Option.bind_none, Option.getD_none]
    linarith
  | some j =>
    have hp := List.all_eq_true.mp hq j (List.mem_of_getElem? hj)
    have hunsettled := hshape.head j hj
    cases hphase : j.phase with
    | queued =>
      simp only [Option.bind_some, Job.startedAt, hphase, Option.getD_none]
      linarith
    | running s =>
      simp only [jobPunctual, hphase, decide_eq_true_eq] at hp
      simpa [Job.startedAt, hphase] using hp
    | settled s out => simp [Job.isSettled, hphase] at hunsettled

/-- The base never lies ahead. -/
theorem base_le_clock {cfg : FaucetConfig} {clockMs : ℚ} {q : SendQueue} {done : Nat}
    (hq : QueuePart cfg clockMs q done) : base clockMs q done ≤ clockMs := by
  unfold base
  cases hj : q.jobs[done]? with
  | none => simp
  | some j =>
    cases hs : j.startedAt with
    | none => simp [hs]
    | some s => simpa [hs] using hq.started j (List.mem_of_getElem? hj) s hs

/-- The punctual queues and requests of a punctual world. -/
theorem punctual_iff {cfg : FaucetConfig} {w : World} :
    w.punctual cfg = true ↔
      (∀ n, (w.queues n).jobs.all (jobPunctual cfg w.clockMs) = true) ∧
        ∀ rq ∈ w.requests, rq.punctual w.clockMs = true := by
  simp only [World.punctual, Bool.and_eq_true, List.all_eq_true (l := w.requests)]
  constructor
  · rintro ⟨⟨htaz, hctaz⟩, hreq⟩
    refine ⟨fun n => ?_, hreq⟩
    cases n with
    | taz => exact htaz
    | ctaz => exact hctaz
  · rintro ⟨hq, hreq⟩
    exact ⟨⟨hq .taz, hq .ctaz⟩, hreq⟩

/-- What a request that waits has waited for, at most. -/
theorem WaitingFor.clock_le {cfg : FaucetConfig} {clockMs enqueuedAt : ℚ} {q : SendQueue}
    {done i k : Nat} (hw : WaitingFor cfg clockMs q done i k enqueuedAt)
    (hpunctual : clockMs ≤ base clockMs q done + cfg.ledger.sendResidenceMs) :
    clockMs ≤ enqueuedAt + cfg.ledger.sendQueueMaxPending * cfg.ledger.sendResidenceMs := by
  have hahead : (0 : ℚ) ≤ (k : ℚ) - done := by
    have : (done : ℚ) ≤ k := by exact_mod_cast hw.ahead
    linarith
  have hres : (0 : ℚ) ≤ cfg.ledger.sendResidenceMs := Nat.cast_nonneg _
  have hmul := mul_nonneg hahead hres
  have hslack := hw.slack
  linarith

/-- A request that has a row and has not recorded its outcome. -/
def Stage.inFlight : Stage → Bool
  | .reserved _ => true
  | .waiting _ _ _ => true
  | .answered _ _ _ _ => true
  | _ => false

/-- **The lease holds.** A row whose request has not recorded its outcome
is inside its pending lease. -/
theorem insideLease_of_inFlight {cfg : FaucetConfig} {w : World} {done : FaucetNetwork → Nat}
    (hw : WorldInv cfg w done) (hpunctual : w.punctual cfg = true) {i : Nat} {rq : Request}
    (hrq : w.requests[i]? = some rq) (hfl : rq.stage.inFlight = true) {r : ClaimRow}
    (hr : r.createdAt = rq.now) : insideLease cfg.ledger w.clockMs r := by
  obtain ⟨hqueues, hrequests⟩ := punctual_iff.mp hpunctual
  have hp := hrequests rq (List.mem_of_getElem? hrq)
  have hread := readAt_lt_now rq
  have hlease := pendingLease_covers cfg.ledger
  have hres : (0 : ℚ) ≤ cfg.ledger.sendResidenceMs := Nat.cast_nonneg _
  have hmax : (0 : ℚ) ≤ cfg.ledger.sendQueueMaxPending * cfg.ledger.sendResidenceMs :=
    mul_nonneg (Nat.cast_nonneg _) hres
  unfold insideLease
  rw [hr]
  cases hst : rq.stage with
  | reading => simp [hst, Stage.inFlight] at hfl
  | refused => simp [hst, Stage.inFlight] at hfl
  | done c a => simp [hst, Stage.inFlight] at hfl
  | reserved c =>
    simp only [Request.punctual, hst, decide_eq_true_eq] at hp
    linarith
  | waiting c k enqueuedAt =>
    simp only [Request.punctual, hst, decide_eq_true_eq] at hp
    have hwait := hw.time.waiting i rq c k enqueuedAt hrq hst
    have hclock := hwait.clock_le (clock_le_base (hqueues _) (hw.queue _).shape)
    linarith
  | answered c enqueuedAt a answeredAt =>
    simp only [Request.punctual, hst, decide_eq_true_eq] at hp
    have hans := hw.time.answered i rq c enqueuedAt answeredAt a hrq hst
    linarith

/-! ## Requests that change stage -/

section Requests

variable {cfg : FaucetConfig} {requests : List Request} {i : Nat} {rq : Request}

/-- A request after one of them was replaced. -/
theorem stage_modify {f : Request → Request} {i' : Nat} {rq' : Request}
    (h : (requests.modify i f)[i']? = some rq') :
    (i' = i ∧ ∃ rq, requests[i]? = some rq ∧ rq' = f rq) ∨ (i' ≠ i ∧ requests[i']? = some rq') := by
  obtain ⟨rq, hrq, rfl⟩ := getElem?_modify_some h
  by_cases hi : i = i'
  · subst hi
    exact Or.inl ⟨rfl, rq, hrq, by simp⟩
  · refine Or.inr ⟨fun h => hi h.symm, ?_⟩
    rw [if_neg hi]
    exact hrq

/-- A request of a job is not one that was about to enqueue. -/
theorem LinkPart.setStage {queues : FaucetNetwork → SendQueue} (hl : LinkPart queues requests)
    (hrq : requests[i]? = some rq) (st : Stage)
    (hst : ∀ (k : Nat) (j : Job (Option Nat) Settlement), Linked j k rq.stage → Linked j k st) :
    LinkPart queues (requests.modify i (Request.at st)) := by
  intro n k i' j hj htask
  obtain ⟨rq', hrq', hn, hlinked⟩ := hl n k i' j hj htask
  by_cases hi : i = i'
  · subst hi
    obtain rfl : rq = rq' := Option.some.inj (hrq.symm.trans hrq')
    refine ⟨rq.at st, ?_, hn, hst k j hlinked⟩
    rw [getElem?_modify_ite, if_pos rfl, hrq]
    rfl
  · exact ⟨rq', by rw [getElem?_modify_ite, if_neg hi]; exact hrq', hn, hlinked⟩

/-- A change that keeps what a request asked for, when it read `now`, and
what it says about its row. -/
structure KeepsRow (cfg : FaucetConfig) (rq rq' : Request) : Prop where
  req : rq'.req = rq.req
  readAt : rq'.readAt = rq.readAt
  claimId : rq'.stage.claimId? = rq.stage.claimId?
  status : rq'.stage.rowStatus (cfg.senderName rq.req.network) =
    rq.stage.rowStatus (cfg.senderName rq.req.network)

theorem KeepsRow.rowOf {rq rq' : Request} (h : KeepsRow cfg rq rq') {c : Nat} {e : Entry}
    (hrow : RowOf cfg rq c e) : RowOf cfg rq' c e := by
  refine ⟨hrow.id, ?_, ?_, ?_, ?_⟩
  · rw [h.req]
    exact hrow.addressHash
  · rw [h.req]
    exact hrow.network
  · rw [hrow.createdAt, Request.now, Request.now, h.readAt]
  · rw [h.req, h.status]
    exact hrow.status

/-- Who keeps the rows keeps them apart. -/
theorem RowsPart.unique_modify {archive : List Entry} (hr : RowsPart cfg archive requests)
    {f : Request → Request} (hf : ∀ rq, requests[i]? = some rq → (f rq).stage.claimId? = rq.stage.claimId?) :
    ∀ (i₁ i₂ : Nat) (rq₁ rq₂ : Request) (c : Nat), (requests.modify i f)[i₁]? = some rq₁ →
      (requests.modify i f)[i₂]? = some rq₂ → rq₁.stage.claimId? = some c → rq₂.stage.claimId? = some c →
        i₁ = i₂ := by
  intro i₁ i₂ rq₁ rq₂ c h₁ h₂ hc₁ hc₂
  have hback : ∀ (i' : Nat) (rq' : Request), (requests.modify i f)[i']? = some rq' →
      ∃ rq₀, requests[i']? = some rq₀ ∧ rq₀.stage.claimId? = rq'.stage.claimId? := by
    intro i' rq' h
    rcases stage_modify h with ⟨rfl, rq₀, hrq₀, rfl⟩ | ⟨-, hold⟩
    · exact ⟨rq₀, hrq₀, (hf rq₀ hrq₀).symm⟩
    · exact ⟨rq', hold, rfl⟩
  obtain ⟨rq₁', h₁', hs₁⟩ := hback i₁ rq₁ h₁
  obtain ⟨rq₂', h₂', hs₂⟩ := hback i₂ rq₂ h₂
  exact hr.unique i₁ i₂ rq₁' rq₂' c h₁' h₂' (hs₁.trans hc₁) (hs₂.trans hc₂)

/-- Moving on to a stage with the same row. -/
theorem RowsPart.modify {archive : List Entry} (hr : RowsPart cfg archive requests)
    {f : Request → Request} (hf : ∀ rq, requests[i]? = some rq → KeepsRow cfg rq (f rq)) :
    RowsPart cfg archive (requests.modify i f) where
  row := by
    intro i' rq' c hrq' hc
    rcases stage_modify hrq' with ⟨rfl, rq₀, hrq₀, rfl⟩ | ⟨-, hold⟩
    · have hkeep := hf rq₀ hrq₀
      obtain ⟨e, he, hrow⟩ := hr.row i' rq₀ c hrq₀ (hkeep.claimId ▸ hc)
      exact ⟨e, he, hkeep.rowOf hrow⟩
    · exact hr.row i' rq' c hold hc
  unique := hr.unique_modify fun rq hrq => (hf rq hrq).claimId

/-- Moving on to a stage that is neither waiting nor answered. -/
theorem TimePart.setStage {clockMs : ℚ} {queues : FaucetNetwork → SendQueue}
    {done : FaucetNetwork → Nat} (ht : TimePart cfg clockMs queues done requests) {f : Request → Request}
    (hread : ∀ rq, (f rq).readAt = rq.readAt)
    (hwaiting : ∀ rq c k enqueuedAt, requests[i]? = some rq →
      (f rq).stage = .waiting c k enqueuedAt →
        WaitingFor cfg clockMs (queues (f rq).req.network) (done (f rq).req.network) i k enqueuedAt)
    (hanswered : ∀ rq c enqueuedAt answeredAt a, requests[i]? = some rq →
      (f rq).stage = .answered c enqueuedAt a answeredAt →
        answeredAt ≤ enqueuedAt + cfg.ledger.sendQueueMaxPending * cfg.ledger.sendResidenceMs) :
    TimePart cfg clockMs queues done (requests.modify i f) where
  read := by
    intro i' rq' h
    rcases stage_modify h with ⟨rfl, rq₀, hrq₀, rfl⟩ | ⟨-, hold⟩
    · rw [hread]
      exact ht.read i' rq₀ hrq₀
    · exact ht.read i' rq' hold
  waiting := by
    intro i' rq' c k enqueuedAt h hst
    rcases stage_modify h with ⟨rfl, rq₀, hrq₀, rfl⟩ | ⟨-, hold⟩
    · exact hwaiting rq₀ c k enqueuedAt hrq₀ hst
    · exact ht.waiting i' rq' c k enqueuedAt hold hst
  answered := by
    intro i' rq' c enqueuedAt answeredAt a h hst
    rcases stage_modify h with ⟨rfl, rq₀, hrq₀, rfl⟩ | ⟨-, hold⟩
    · exact hanswered rq₀ c enqueuedAt answeredAt a hrq₀ hst
    · exact ht.answered i' rq' c enqueuedAt answeredAt a hold hst

end Requests

/-! ## The steps -/

section Steps

variable {cfg : FaucetConfig} {w w' : World} {done : FaucetNetwork → Nat}

/-- A queue that is not busy and has an unsettled job is running it. -/
theorem running_of_not_busy (hw : WorldInv cfg w done) (hbusy : w.busy = false) (n : FaucetNetwork)
    (hlt : done n < (w.queues n).jobs.length) :
    ∃ j s, (w.queues n).jobs[done n]? = some j ∧ j.startedAt = some s := by
  have hshape := (hw.queue n).shape
  have hj := List.getElem?_eq_getElem hlt
  have hnot : (w.queues n).hasStartable = false := by
    simp only [World.busy, Bool.or_eq_false_iff] at hbusy
    cases n with
    | taz => exact hbusy.1
    | ctaz => exact hbusy.2
  rcases Job.running_or_queued (hshape.head _ hj) with hr | hq
  · cases hp : ((w.queues n).jobs[done n]).phase with
    | running s => exact ⟨_, s, hj, by simp [Job.startedAt, hp]⟩
    | queued => simp [Job.isRunning, hp] at hr
    | settled s out => simp [Job.isRunning, hp] at hr
  · have hstart := hshape.startable_done hj hq
    have hall := List.any_eq_false.mp hnot _ (List.mem_of_getElem? hj)
    exact absurd hstart hall

theorem worldInv_tick {ms : ℚ} (hw : WorldInv cfg w done) (h : w.tick cfg ms = some w') :
    WorldInv cfg w' done := by
  unfold World.tick at h
  split at h
  · rename_i hc
    obtain ⟨hms, hbusy⟩ := hc
    obtain rfl := Option.some.inj h
    have hle : w.clockMs ≤ w.clockMs + ms := by linarith
    refine ⟨⟨booksInv_tick hw.ledger.inv hms, ⟨hw.ledger.ids.fresh, hw.ledger.ids.nodup⟩, ?_⟩, ?_, hw.link,
      hw.rows, ?_⟩
    · intro m hm
      exact le_trans (hw.ledger.seen m hm) hle
    · intro n
      obtain ⟨hshape, hcap, hstarted, hown, hadm⟩ := hw.queue n
      exact ⟨hshape, hcap, fun j hj s hs => le_trans (hstarted j hj s hs) hle, hown, hadm⟩
    · refine ⟨?_, ?_, hw.time.answered⟩
      · intro i rq hrq
        exact le_trans (hw.time.read i rq hrq) hle
      · intro i rq c k enqueuedAt hrq hst
        obtain ⟨hahead, hpast, hjob, hslack⟩ := hw.time.waiting i rq c k enqueuedAt hrq hst
        refine ⟨hahead, le_trans hpast hle, hjob, ?_⟩
        -- somebody waits, so the head of the queue is running and the base stands still
        obtain ⟨j, hj, -⟩ := hjob
        have hlen := (List.getElem?_eq_some_iff.mp hj).1
        obtain ⟨h₀, s, hh₀, hs⟩ := running_of_not_busy hw hbusy rq.req.network (by omega)
        have hbase : ∀ t, base t (w.queues rq.req.network) (done rq.req.network) = s := by
          intro t
          simp [base, hh₀, hs]
        rw [hbase] at hslack ⊢
        exact hslack
  · cases h

theorem linkPart_arrive (req : ClaimRequest) (hlink : LinkPart w.queues w.requests) :
    LinkPart (w.arrive req).queues (w.arrive req).requests := by
  intro n k i j hj htask
  obtain ⟨rq, hrq, hn, hl⟩ := hlink n k i j hj htask
  refine ⟨rq, ?_, hn, hl⟩
  simp only [World.arrive]
  rw [List.getElem?_append_left (List.getElem?_eq_some_iff.mp hrq).1]
  exact hrq

theorem worldInv_arrive (req : ClaimRequest) (hw : WorldInv cfg w done) :
    WorldInv cfg (w.arrive req) done := by
  have hold : ∀ (i : Nat) (rq : Request), (w.requests ++ [⟨req, w.clockMs, .reading⟩])[i]? = some rq →
      w.requests[i]? = some rq ∨ rq = ⟨req, w.clockMs, .reading⟩ := by
    intro i rq h
    rw [List.getElem?_append] at h
    split at h
    · exact Or.inl h
    · exact Or.inr (List.mem_singleton.mp (List.mem_of_getElem? h))
  refine ⟨hw.ledger, hw.queue, linkPart_arrive req hw.link, ⟨?_, ?_⟩, ⟨?_, ?_, ?_⟩⟩
  · intro i rq c h hc
    rcases hold i rq h with h | rfl
    · exact hw.rows.row i rq c h hc
    · cases hc
  · intro i i' rq rq' c h h' hc hc'
    rcases hold i rq h with h | rfl
    · rcases hold i' rq' h' with h' | rfl
      · exact hw.rows.unique i i' rq rq' c h h' hc hc'
      · cases hc'
    · cases hc
  · intro i rq h
    rcases hold i rq h with h | rfl
    · exact hw.time.read i rq h
    · exact le_refl _
  · intro i rq c k enqueuedAt h hst
    rcases hold i rq h with h | rfl
    · exact hw.time.waiting i rq c k enqueuedAt h hst
    · cases hst
  · intro i rq c enqueuedAt answeredAt a h hst
    rcases hold i rq h with h | rfl
    · exact hw.time.answered i rq c enqueuedAt answeredAt a h hst
    · cases hst

/-- The largest `now` used stays behind the clock. -/
theorem seen_see (hw : WorldInv cfg w done) {now : ℚ} (hnow : now * 1000 ≤ w.clockMs) :
    ∀ m ∈ w.books.see now, m * 1000 ≤ w.clockMs := by
  intro m hm
  obtain rfl : w.books.maxNow.elim now (fun m => max m now) = m := Option.some.inj hm
  cases hmax : w.books.maxNow with
  | none => exact hnow
  | some m₀ =>
    have hm₀ := hw.ledger.seen m₀ (by simp [hmax])
    simp only [Option.elim]
    rcases max_cases m₀ now with ⟨h, -⟩ | ⟨h, -⟩
    · rw [h]
      exact hm₀
    · rw [h]
      exact hnow

theorem now_le_clock (hw : WorldInv cfg w done) {i : Nat} {rq : Request}
    (hrq : w.requests[i]? = some rq) : rq.now * 1000 ≤ w.clockMs :=
  le_trans (now_le_readAt rq) (hw.time.read i rq hrq)

theorem worldInv_purge {i : Nat} (hw : WorldInv cfg w done) (h : w.purge cfg i = some w') :
    WorldInv cfg w' done := by
  unfold World.purge at h
  cases hrq : w.requests[i]? with
  | none => simp [hrq] at h
  | some rq =>
    simp only [hrq] at h
    obtain rfl := Option.some.inj h
    refine ⟨⟨booksInv_purge hw.ledger.inv, booksIds_apply hw.ledger.ids (.purge rq.now),
      seen_see hw (now_le_clock hw hrq)⟩, hw.queue, hw.link, ⟨?_, hw.rows.unique⟩, hw.time⟩
    intro i' rq' c h' hc
    obtain ⟨e, he, hrow⟩ := hw.rows.row i' rq' c h' hc
    exact ⟨e.purge _, List.mem_map_of_mem he, ⟨hrow.id, hrow.addressHash, hrow.network,
      hrow.createdAt, hrow.status⟩⟩

/-- What a reserve does to the world. -/
theorem reserve_eq_some {i : Nat} (h : w.reserve cfg i = some w') :
    ∃ req readAt now, w.requests[i]? = some ⟨req, readAt, .reading⟩ ∧
      now = Request.now ⟨req, readAt, .reading⟩ ∧
      ((reserveAllowed (reserveClaimParams cfg.ledger (req.opts cfg.ledger now))
            w.books.ledger.claims = true ∧
          w' =
            { books :=
                { ledger :=
                    { w.books.ledger with
                      claims := (reservedEntry cfg.ledger req now w.books.ledger.nextId).row ::
                        w.books.ledger.claims
                      nextId := w.books.ledger.nextId + 1 }
                  archive := reservedEntry cfg.ledger req now w.books.ledger.nextId :: w.books.archive
                  maxNow := w.books.see now
                  clockMs := w.clockMs }
              queues := w.queues
              requests := w.requests.modify i (Request.at (.reserved w.books.ledger.nextId)) }) ∨
        w' =
          { books := { w.books with maxNow := w.books.see now }
            queues := w.queues
            requests := w.requests.modify i (Request.at .refused) }) := by
  unfold World.reserve at h
  split at h
  · rename_i req readAt hrq
    refine ⟨req, readAt, Request.now ⟨req, readAt, .reading⟩, hrq, rfl, ?_⟩
    generalize Request.now ⟨req, readAt, .reading⟩ = now at h
    have happly := apply_reserve_cases cfg.ledger w.books req now
    rcases reserveClaim_cases cfg.ledger (req.opts cfg.ledger now) w.books.ledger with
      ⟨hok, hres⟩ | ⟨hno, hres⟩
    · rcases happly with ⟨-, happ⟩ | ⟨hno, -⟩
      · simp only [hres, happ] at h
        exact Or.inl ⟨hok, (Option.some.inj h).symm⟩
      · simp [hok] at hno
    · rcases happly with ⟨hok, -⟩ | ⟨-, happ⟩
      · simp [hno] at hok
      · simp only [hres, happ] at h
        exact Or.inr (Option.some.inj h).symm
  · cases h

/-- A request that stops reading: no job belongs to it, and it waits for
nothing. -/
theorem link_time_of_reading (hw : WorldInv cfg w done) {i : Nat} {req : ClaimRequest} {readAt : ℚ}
    (hrq : w.requests[i]? = some ⟨req, readAt, .reading⟩) (st : Stage)
    (hwait : ∀ c k t, st ≠ .waiting c k t) (hans : ∀ c t a t', st ≠ .answered c t a t') :
    LinkPart w.queues (w.requests.modify i (Request.at st)) ∧
      TimePart cfg w.clockMs w.queues done (w.requests.modify i (Request.at st)) := by
  refine ⟨hw.link.setStage hrq st fun k j hl => hl.elim, ?_⟩
  exact hw.time.setStage (fun _ => rfl) (fun rq c k t _ hst => absurd hst (hwait c k t))
    (fun rq c t t' a _ hst => absurd hst (hans c t a t'))

theorem worldInv_reserve {i : Nat} (hw : WorldInv cfg w done) (h : w.reserve cfg i = some w')
    (hpunctual : w'.punctual cfg = true) : WorldInv cfg w' done := by
  obtain ⟨req, readAt, now, hrq, hnowEq, hcases⟩ := reserve_eq_some h
  have hnow : now * 1000 ≤ w.clockMs := hnowEq ▸ now_le_clock hw hrq
  have hsee := seen_see hw hnow
  rcases hcases with ⟨hok, rfl⟩ | rfl
  · obtain ⟨hlink, htime⟩ := link_time_of_reading hw hrq (.reserved w.books.ledger.nextId) (by simp)
      (by simp)
    have hfresh : ∀ (i' : Nat) (rq' : Request) (c : Nat), w.requests[i']? = some rq' →
        rq'.stage.claimId? = some c → c < w.books.ledger.nextId := by
      intro i' rq' c h' hc
      obtain ⟨e, he, hrow⟩ := hw.rows.row i' rq' c h' hc
      exact hrow.id ▸ hw.ledger.ids.fresh e he
    have hallow : w.books.admits cfg.ledger (.reserve req now) := by
      refine ⟨hnow, fun m hm => ?_⟩
      have hm' : m * 1000 ≤ w.clockMs := hw.ledger.seen m hm
      have hp := (punctual_iff.mp hpunctual).2 ⟨req, readAt, .reserved w.books.ledger.nextId⟩ (by
        refine List.mem_of_getElem? (i := i) ?_
        rw [getElem?_modify_ite, if_pos rfl, hrq]
        rfl)
      have hclock : w.clockMs - readAt ≤ 55000 := of_decide_eq_true hp
      have hread : readAt < now * 1000 + 1000 := hnowEq ▸ readAt_lt_now ⟨req, readAt, .reading⟩
      linarith
    have hinv := booksInv_reserve hw.ledger.inv hallow
    have hids : BooksIds (w.books.apply cfg.ledger (.reserve req now)) :=
      booksIds_apply hw.ledger.ids _
    rcases apply_reserve_cases cfg.ledger w.books req now with ⟨-, happ⟩ | ⟨hno, -⟩
    · rw [happ] at hinv hids
      refine ⟨⟨hinv, hids, ?_⟩, hw.queue, hlink, ⟨?_, ?_⟩, htime⟩
      · exact hsee
      · intro i' rq' c h' hc
        rcases stage_modify h' with ⟨rfl, rq₀, hrq₀, rfl⟩ | ⟨-, hold⟩
        · obtain rfl : ⟨req, readAt, .reading⟩ = rq₀ := Option.some.inj (hrq.symm.trans hrq₀)
          obtain rfl : w.books.ledger.nextId = c := Option.some.inj hc
          exact ⟨_, List.mem_cons_self, ⟨rfl, rfl, rfl, hnowEq, rfl⟩⟩
        · obtain ⟨e, he, hrow⟩ := hw.rows.row i' rq' c hold hc
          exact ⟨e, List.mem_cons_of_mem _ he, hrow⟩
      · intro i₁ i₂ rq₁ rq₂ c h₁ h₂ hc₁ hc₂
        rcases stage_modify h₁ with ⟨rfl, rq₀, -, rfl⟩ | ⟨-, hold₁⟩ <;>
          rcases stage_modify h₂ with ⟨rfl, rq₀', -, rfl⟩ | ⟨-, hold₂⟩
        · rfl
        · obtain rfl : w.books.ledger.nextId = c := Option.some.inj hc₁
          exact absurd (hfresh i₂ rq₂ _ hold₂ hc₂) (Nat.lt_irrefl _)
        · obtain rfl : w.books.ledger.nextId = c := Option.some.inj hc₂
          exact absurd (hfresh i₁ rq₁ _ hold₁ hc₁) (Nat.lt_irrefl _)
        · exact hw.rows.unique i₁ i₂ rq₁ rq₂ c hold₁ hold₂ hc₁ hc₂
    · simp [hok] at hno
  · obtain ⟨hlink, htime⟩ := link_time_of_reading hw hrq .refused (by simp) (by simp)
    refine ⟨⟨booksInv_see hw.ledger.inv, ⟨hw.ledger.ids.fresh, hw.ledger.ids.nodup⟩, ?_⟩,
      hw.queue, hlink, ?_, htime⟩
    · exact hsee
    · refine hw.rows.modify fun rq₀ hrq₀ => ?_
      obtain rfl : ⟨req, readAt, .reading⟩ = rq₀ := Option.some.inj (hrq.symm.trans hrq₀)
      exact ⟨rfl, rfl, rfl, rfl⟩

end Steps

/-! ## Queues that take a step -/

section Queues

variable {cfg : FaucetConfig} {clockMs : ℚ} {q q' : SendQueue} {done k : Nat} {out : Settlement}

theorem queuePart_run {task : Option Nat} {deadlineMs : ℚ} (hq : QueuePart cfg clockMs q done)
    (h : q.run task deadlineMs = some q') : QueuePart cfg clockMs q' done := by
  have hshape := queueShape_run hq.shape h
  obtain ⟨-, rfl⟩ := run_eq_some h
  refine ⟨hshape, hq.capacity, ?_, ?_, ?_⟩
  · intro j hj s hs
    rcases List.mem_append.mp hj with hj | hj
    · exact hq.started j hj s hs
    · obtain rfl := List.mem_singleton.mp hj
      cases hs
  · intro j hj out hans
    rcases List.mem_append.mp hj with hj | hj
    · exact hq.own j hj out hans
    · obtain rfl := List.mem_singleton.mp hj
      cases hans
  · intro j hj
    rcases List.mem_append.mp hj with hj | hj
    · exact hq.admitted j hj
    · obtain rfl := List.mem_singleton.mp hj
      simp

theorem base_run {task : Option Nat} {deadlineMs : ℚ} (hq : QueuePart cfg clockMs q done)
    (h : q.run task deadlineMs = some q') : base clockMs q' done = base clockMs q done := by
  obtain ⟨-, rfl⟩ := run_eq_some h
  unfold base
  rcases Nat.lt_or_eq_of_le hq.shape.done_le with hlt | heq
  · simp only [List.getElem?_append_left hlt]
  · simp [heq, Job.startedAt]

theorem queuePart_start (hq : QueuePart cfg clockMs q done) (h : q.start k clockMs = some q') :
    k = done ∧ QueuePart cfg clockMs q' done ∧ base clockMs q' done = base clockMs q done := by
  obtain ⟨rfl, hshape⟩ := queueShape_start hq.shape h
  obtain ⟨j, hj, hs, rfl⟩ := start_eq_some h
  have hqueued : j.isQueued = true := by
    simp only [SerialQueue.startable, Bool.and_eq_true] at hs
    exact hs.1
  have hphase : j.phase = .queued := by
    cases hp : j.phase <;> simp [Job.isQueued, hp] at hqueued ⊢
  refine ⟨rfl, ⟨hshape, hq.capacity, ?_, ?_, ?_⟩, ?_⟩
  · refine forall_mem_modify hq.started fun j₀ _ s hs₀ => ?_
    obtain rfl : clockMs = s := Option.some.inj hs₀
    exact le_refl _
  · refine forall_mem_modify hq.own fun j₀ hj₀ out hans => ?_
    -- a queued job has no answer of its own
    obtain rfl : j = j₀ := Option.some.inj (hj.symm.trans hj₀)
    obtain ⟨s, hp⟩ := hq.own j (List.mem_of_getElem? hj) out hans
    simp [hphase] at hp
  · exact forall_mem_modify hq.admitted fun j₀ hj₀ => hq.admitted j₀ (List.mem_of_getElem? hj₀)
  · simp [base, hj, Job.startedAt, hphase, Job.start]

theorem queuePart_settle (hq : QueuePart cfg clockMs q done) (h : q.settle k out = some q') :
    k = done ∧ QueuePart cfg clockMs q' (done + 1) ∧ base clockMs q' (done + 1) = clockMs := by
  obtain ⟨rfl, hshape⟩ := queueShape_settle hq.shape h
  obtain ⟨j, hj, hr, rfl⟩ := settle_eq_some h
  refine ⟨rfl, ⟨hshape, hq.capacity, ?_, ?_, ?_⟩, ?_⟩
  · refine forall_mem_modify hq.started fun j₀ hj₀ s hs₀ => ?_
    obtain rfl : j = j₀ := Option.some.inj (hj.symm.trans hj₀)
    cases hp : j.phase with
    | queued => simp [Job.isRunning, hp] at hr
    | settled s' out' => simp [Job.isRunning, hp] at hr
    | running s' =>
      obtain rfl : s' = s := by simpa [Job.settle, Job.startedAt, hp] using hs₀
      exact hq.started j (List.mem_of_getElem? hj) s' (by simp [Job.startedAt, hp])
  · refine forall_mem_modify hq.own fun j₀ hj₀ out' hans => ?_
    obtain rfl : j = j₀ := Option.some.inj (hj.symm.trans hj₀)
    cases ha : j.answer with
    | none =>
      obtain rfl : out = out' := by simpa [Job.settle, ha] using hans
      exact ⟨_, rfl⟩
    | some a =>
      obtain rfl : a = .own out' := by simpa [Job.settle, ha] using hans
      obtain ⟨s, hp⟩ := hq.own j (List.mem_of_getElem? hj) out' ha
      simp [Job.isRunning, hp] at hr
  · refine forall_mem_modify hq.admitted fun j₀ hj₀ hans => ?_
    have hnot := hq.admitted j₀ (List.mem_of_getElem? hj₀)
    cases ha : j₀.answer <;> simp [Job.settle, ha] at hans hnot
    exact hnot hans
  · unfold base
    simp only [getElem?_modify_ite, if_neg (show ¬ k = k + 1 by omega)]
    cases hn : q.jobs[k + 1]? with
    | none => simp
    | some b =>
      have hqueued := hq.shape.waiting (k + 1) b (by omega) hn
      cases hp : b.phase with
      | queued => simp [Job.startedAt, hp]
      | running s => simp [Job.isQueued, hp] at hqueued
      | settled s out => simp [Job.isQueued, hp] at hqueued

theorem queuePart_fire (hq : QueuePart cfg clockMs q done) (h : q.fire k clockMs = some q') :
    k = done ∧ QueuePart cfg clockMs q' done ∧ base clockMs q' done = base clockMs q done := by
  have hshape := queueShape_fire hq.shape h
  obtain ⟨j, due, hj, htimer, -, rfl⟩ := fire_eq_some h
  have hr := hq.shape.armed k j hj (by simp [htimer])
  obtain rfl := hq.shape.eq_done_of_running hj hr
  refine ⟨rfl, ⟨hshape, hq.capacity, ?_, ?_, ?_⟩, ?_⟩
  · refine forall_mem_modify hq.started fun j₀ hj₀ s hs₀ => ?_
    exact hq.started j₀ (List.mem_of_getElem? hj₀) s hs₀
  · refine forall_mem_modify hq.own fun j₀ hj₀ out' hans => ?_
    cases ha : j₀.answer with
    | none => simp [Job.fire, ha] at hans
    | some a =>
      obtain rfl : a = .own out' := by simpa [Job.fire, ha] using hans
      exact hq.own j₀ (List.mem_of_getElem? hj₀) out' ha
  · refine forall_mem_modify hq.admitted fun j₀ hj₀ hans => ?_
    have hnot := hq.admitted j₀ (List.mem_of_getElem? hj₀)
    cases ha : j₀.answer <;> simp [Job.fire, ha] at hans hnot
    exact hnot hans
  · unfold base
    rw [getElem?_modify_ite, if_pos rfl, hj]
    rfl

end Queues

/-! ## Steps of a queue -/

section QueueSteps

variable {cfg : FaucetConfig} {w w' : World} {done : FaucetNetwork → Nat} {n : FaucetNetwork}
  {q' : SendQueue}

/-- The boundaries after one queue moved its own. -/
def setDone (n : FaucetNetwork) (d : Nat) (done : FaucetNetwork → Nat) : FaucetNetwork → Nat :=
  fun m => if m = n then d else done m

theorem setDone_self (n : FaucetNetwork) (done : FaucetNetwork → Nat) :
    setDone n (done n) done = done := by
  funext m
  unfold setDone
  split
  · rename_i h
    rw [h]
  · rfl

theorem queuePart_set (hw : WorldInv cfg w done) {d : Nat} (hq : QueuePart cfg w.clockMs q' d) :
    ∀ m, QueuePart cfg w.clockMs ((w.setQueue n q').queues m) (setDone n d done m) := by
  intro m
  by_cases hm : m = n
  · simp only [World.setQueue, setDone, if_pos hm]
    exact hq
  · simp only [World.setQueue, setDone, if_neg hm]
    exact hw.queue m

/-- A queue that admits a task: its requests wait as before. -/
theorem waitingFor_run {task : Option Nat} {deadlineMs enqueuedAt : ℚ} {q : SendQueue} {d i k : Nat}
    (hq : QueuePart cfg w.clockMs q d) (h : q.run task deadlineMs = some q')
    (hwait : WaitingFor cfg w.clockMs q d i k enqueuedAt) :
    WaitingFor cfg w.clockMs q' d i k enqueuedAt := by
  have hbase := base_run hq h
  obtain ⟨-, rfl⟩ := run_eq_some h
  obtain ⟨hahead, hpast, ⟨j, hj, hrest⟩, hslack⟩ := hwait
  refine ⟨hahead, hpast, ⟨j, ?_, hrest⟩, by rw [hbase]; exact hslack⟩
  rw [List.getElem?_append_left (List.getElem?_eq_some_iff.mp hj).1]
  exact hj

/-- A queue that admits a task of no claim, or of the request `i`. -/
theorem linkPart_run {task : Option Nat} {deadlineMs : ℚ} {requests : List Request}
    (hl : LinkPart w.queues requests) (h : (w.queues n).run task deadlineMs = some q')
    (hnew : ∀ i, task = some i → ∃ rq, requests[i]? = some rq ∧ rq.req.network = n ∧
      ∀ j : Job (Option Nat) Settlement, j.answer = none → Linked j (w.queues n).jobs.length rq.stage) :
    LinkPart (w.setQueue n q').queues requests := by
  intro m k i j hj htask
  by_cases hm : m = n
  · subst hm
    obtain ⟨-, rfl⟩ := run_eq_some h
    simp only [World.setQueue, if_true] at hj
    rw [List.getElem?_append] at hj
    split at hj
    · exact hl m k i j hj htask
    · rename_i hge
      have hk := (List.getElem?_eq_some_iff.mp hj).1
      obtain rfl := List.mem_singleton.mp (List.mem_of_getElem? hj)
      obtain ⟨rq, hrq, hnet, hlinked⟩ := hnew i htask
      refine ⟨rq, hrq, hnet, ?_⟩
      obtain rfl : k = (w.queues m).jobs.length := by
        simp only [List.length_singleton] at hk
        omega
      exact hlinked _ rfl
  · simp only [World.setQueue, if_neg hm] at hj
    exact hl m k i j hj htask

theorem timePart_run {task : Option Nat} {deadlineMs : ℚ} {requests : List Request}
    (hw : WorldInv cfg w done) (ht : TimePart cfg w.clockMs w.queues done requests)
    (h : (w.queues n).run task deadlineMs = some q') :
    TimePart cfg w.clockMs (w.setQueue n q').queues done requests := by
  refine ⟨ht.read, ?_, ht.answered⟩
  intro i rq c k enqueuedAt hrq hst
  have hwait := ht.waiting i rq c k enqueuedAt hrq hst
  by_cases hm : rq.req.network = n
  · subst hm
    simp only [World.setQueue, if_true]
    exact waitingFor_run (hw.queue _) h hwait
  · simp only [World.setQueue, if_neg hm]
    exact hwait

theorem worldInv_other (hw : WorldInv cfg w done) (n : FaucetNetwork) (deadlineMs : ℚ) :
    WorldInv cfg (w.other n deadlineMs) done := by
  unfold World.other
  cases hrun : (w.queues n).run none deadlineMs with
  | none => exact hw
  | some q =>
    refine ⟨hw.ledger, ?_, ?_, hw.rows, timePart_run hw hw.time hrun⟩
    · have := queuePart_set (n := n) hw (queuePart_run (hw.queue n) hrun)
      rwa [setDone_self] at this
    · exact linkPart_run hw.link hrun fun i hi => by cases hi

/-- The place of a request that joins a queue with room: what is ahead of
it fits. -/
theorem waitingFor_enqueue {i : Nat} {deadlineMs : ℚ} {q : SendQueue} {d : Nat}
    (hq : QueuePart cfg w.clockMs q d) (h : q.run (some i) deadlineMs = some q') :
    WaitingFor cfg w.clockMs q' d i q.jobs.length w.clockMs := by
  have hbase := base_run hq h
  have hle := base_le_clock hq
  have hdepth := hq.shape.depth
  have hdone := hq.shape.done_le
  have hcap := hq.capacity
  obtain ⟨hroom, rfl⟩ := run_eq_some h
  refine ⟨hdone, le_refl _, ⟨⟨some i, deadlineMs, q.tail, .queued, none, none⟩, by simp, rfl, rfl⟩, ?_⟩
  rw [hbase]
  have hplace : ((q.jobs.length : ℚ) - d) ≤ (cfg.ledger.sendQueueMaxPending : ℚ) - 1 := by
    have : q.jobs.length + 1 ≤ d + cfg.ledger.sendQueueMaxPending := by omega
    have : (q.jobs.length : ℚ) + 1 ≤ d + cfg.ledger.sendQueueMaxPending := by exact_mod_cast this
    linarith
  have hres : (0 : ℚ) ≤ cfg.ledger.sendResidenceMs := Nat.cast_nonneg _
  have := mul_le_mul_of_nonneg_right hplace hres
  linarith

/-- What an enqueue does to the world. -/
theorem enqueue_eq_some {i : Nat} (h : w.enqueue cfg i = some w') :
    ∃ req readAt c, w.requests[i]? = some ⟨req, readAt, .reserved c⟩ ∧
      ((∃ q, (w.queues req.network).run (some i) cfg.sendTaskDeadlineMs = some q ∧
          w' = { w.setQueue req.network q with
            requests := w.requests.modify i
              (Request.at (.waiting c (w.queues req.network).jobs.length w.clockMs)) }) ∨
        w' = { w with
          requests := w.requests.modify i (Request.at (.answered c w.clockMs .queueFull w.clockMs)) }) := by
  unfold World.enqueue at h
  split at h
  · rename_i req readAt c hrq
    refine ⟨req, readAt, c, hrq, ?_⟩
    cases hrun : (w.queues req.network).run (some i) cfg.sendTaskDeadlineMs with
    | some q =>
      simp only [hrun] at h
      exact Or.inl ⟨q, rfl, (Option.some.inj h).symm⟩
    | none =>
      simp only [hrun] at h
      exact Or.inr (Option.some.inj h).symm
  · cases h

theorem worldInv_enqueue {i : Nat} (hw : WorldInv cfg w done) (h : w.enqueue cfg i = some w') :
    WorldInv cfg w' done := by
  obtain ⟨req, readAt, c, hrq, hcases⟩ := enqueue_eq_some h
  have heq : ∀ rq, w.requests[i]? = some rq → rq = ⟨req, readAt, .reserved c⟩ := fun rq hrq' =>
    Option.some.inj (hrq'.symm.trans hrq)
  -- until now no job belongs to the request
  have hlink : ∀ st, LinkPart w.queues (w.requests.modify i (Request.at st)) := fun st =>
    hw.link.setStage hrq st fun k j hl => hl.elim
  rcases hcases with ⟨q, hrun, rfl⟩ | rfl
  · refine ⟨hw.ledger, ?_, ?_, ?_, ?_⟩
    · have := queuePart_set (n := req.network) hw (queuePart_run (hw.queue _) hrun)
      rwa [setDone_self] at this
    · refine linkPart_run (hlink _) hrun fun i' hi' => ?_
      obtain rfl := Option.some.inj hi'
      refine ⟨⟨req, readAt, .waiting c (w.queues req.network).jobs.length w.clockMs⟩, ?_, rfl, ?_⟩
      · rw [getElem?_modify_ite, if_pos rfl, hrq]
        rfl
      · intro j hnone
        exact ⟨rfl, hnone⟩
    · refine hw.rows.modify fun rq hrq' => ?_
      obtain rfl := heq rq hrq'
      exact ⟨rfl, rfl, rfl, rfl⟩
    · refine (timePart_run hw hw.time hrun).setStage (fun _ => rfl) ?_ ?_
      · intro rq c' k t hrq' hst
        obtain rfl := heq rq hrq'
        simp only [Request.at, Stage.waiting.injEq] at hst
        obtain ⟨-, rfl, rfl⟩ := hst
        simp only [World.setQueue, Request.at, if_true]
        exact waitingFor_enqueue (hw.queue _) hrun
      · intro rq c' t t' a _ hst
        cases hst
  · refine ⟨hw.ledger, hw.queue, hlink _, ?_, ?_⟩
    · refine hw.rows.modify fun rq hrq' => ?_
      obtain rfl := heq rq hrq'
      exact ⟨rfl, rfl, rfl, rfl⟩
    · refine hw.time.setStage (fun _ => rfl) ?_ ?_
      · intro rq c' k t _ hst
        cases hst
      · intro rq c' t t' a _ hst
        simp only [Request.at, Stage.answered.injEq] at hst
        obtain ⟨-, rfl, -, rfl⟩ := hst
        have : (0 : ℚ) ≤ cfg.ledger.sendQueueMaxPending * cfg.ledger.sendResidenceMs :=
          mul_nonneg (Nat.cast_nonneg _) (Nat.cast_nonneg _)
        linarith

/-- Starting a job changes neither its task nor its answer. -/
theorem linkPart_start {k : Nat} {t : ℚ} (hlink : LinkPart w.queues w.requests) :
    LinkPart (w.setQueue n { w.queues n with jobs := (w.queues n).jobs.modify k (Job.start t) }).queues
      w.requests := by
  intro m k' i j hj htask
  have hjob : ∃ j₀, (w.queues m).jobs[k']? = some j₀ ∧ j₀.task = j.task ∧ j₀.answer = j.answer := by
    by_cases hm : m = n
    · subst hm
      simp only [World.setQueue, if_true] at hj
      obtain ⟨j₀, hj₀, rfl⟩ := getElem?_modify_some hj
      refine ⟨j₀, hj₀, ?_⟩
      split <;> exact ⟨rfl, rfl⟩
    · simp only [World.setQueue, if_neg hm] at hj
      exact ⟨j, hj, rfl, rfl⟩
  obtain ⟨j₀, hj₀, htask₀, hans₀⟩ := hjob
  obtain ⟨rq, hrq, hnet, hl⟩ := hlink m k' i j₀ hj₀ (htask₀.trans htask)
  refine ⟨rq, hrq, hnet, ?_⟩
  cases hst : rq.stage <;> simp only [hst, Linked, hans₀] at hl ⊢ <;> exact hl

theorem worldInv_start {k : Nat} (hw : WorldInv cfg w done) (h : w.start n k = some w') :
    WorldInv cfg w' done := by
  unfold World.start at h
  cases hstart : (w.queues n).start k w.clockMs with
  | none => simp [hstart] at h
  | some q =>
    simp only [hstart] at h
    obtain rfl := Option.some.inj h
    obtain ⟨-, hq, hbase⟩ := queuePart_start (hw.queue n) hstart
    obtain ⟨j₁, hj₁, -, rfl⟩ := start_eq_some hstart
    refine ⟨hw.ledger, ?_, ?_, hw.rows, ⟨hw.time.read, ?_, hw.time.answered⟩⟩
    · have := queuePart_set (n := n) hw hq
      rwa [setDone_self] at this
    · exact linkPart_start hw.link
    · intro i rq c k' t hrq hst
      obtain ⟨hahead, hpast, ⟨j, hj, htask, hnone⟩, hslack⟩ := hw.time.waiting i rq c k' t hrq hst
      by_cases hm : rq.req.network = n
      · subst hm
        simp only [World.setQueue, if_true]
        refine ⟨hahead, hpast, ⟨if k = k' then j.start w.clockMs else j, ?_, ?_, ?_⟩, ?_⟩
        · rw [getElem?_modify_ite, hj]
          split <;> rfl
        · split <;> exact htask
        · split <;> exact hnone
        · rw [← hbase] at hslack
          exact hslack
      · simp only [World.setQueue, if_neg hm]
        exact ⟨hahead, hpast, ⟨j, hj, htask, hnone⟩, hslack⟩

/-- A request that hears an answer. -/
theorem hear_cases (a : Answer Settlement) (t : ℚ) (rq : Request) :
    (∃ c k enqueuedAt, rq.stage = .waiting c k enqueuedAt ∧
      rq.hear a t = rq.at (.answered c enqueuedAt a t)) ∨
    (∀ c k enqueuedAt, rq.stage ≠ .waiting c k enqueuedAt) ∧ rq.hear a t = rq := by
  unfold Request.hear
  cases hst : rq.stage with
  | waiting c k enqueuedAt => exact Or.inl ⟨c, k, enqueuedAt, rfl, rfl⟩
  | reading => exact Or.inr ⟨by simp, rfl⟩
  | refused => exact Or.inr ⟨by simp, rfl⟩
  | reserved c => exact Or.inr ⟨by simp, rfl⟩
  | answered c t' a' t'' => exact Or.inr ⟨by simp, rfl⟩
  | done c a' => exact Or.inr ⟨by simp, rfl⟩

theorem keepsRow_hear (cfg : FaucetConfig) (a : Answer Settlement) (t : ℚ) (rq : Request) :
    KeepsRow cfg rq (rq.hear a t) := by
  rcases hear_cases a t rq with ⟨c, k, e, hst, hhear⟩ | ⟨-, hhear⟩
  · rw [hhear]
    refine ⟨rfl, rfl, ?_, ?_⟩
    · simp [Request.at, Stage.claimId?, hst]
    · simp [Request.at, Stage.rowStatus, hst]
  · rw [hhear]
    exact ⟨rfl, rfl, rfl, rfl⟩

/-- The requests after a job was answered: the job's own request, if it
still waited, and everybody else unchanged. -/
theorem told_cases (j : Job (Option Nat) Settlement) (a : Answer Settlement) (t : ℚ)
    (requests : List Request) {i : Nat} {rq' : Request}
    (h : (World.told j a t requests)[i]? = some rq') :
    (j.task = some i ∧ j.answer = none ∧ ∃ rq, requests[i]? = some rq ∧ rq' = rq.hear a t) ∨
      (¬ (j.task = some i ∧ j.answer = none) ∧ requests[i]? = some rq') := by
  unfold World.told at h
  split at h
  · rename_i i₀ htask hnone
    rcases stage_modify h with ⟨rfl, rq, hrq, rfl⟩ | ⟨hne, hold⟩
    · exact Or.inl ⟨htask, hnone, rq, hrq, rfl⟩
    · exact Or.inr ⟨fun hc => hne (Option.some.inj (hc.1.symm.trans htask)), hold⟩
  · rename_i hnot
    exact Or.inr ⟨fun hc => hnot i hc.1 hc.2, h⟩

/-- The request of a job that has not been answered waits for it. -/
theorem waits_for {j : Job (Option Nat) Settlement} {k i : Nat} (hlink : LinkPart w.queues w.requests)
    (hj : (w.queues n).jobs[k]? = some j) (htask : j.task = some i) (hnone : j.answer = none) :
    ∃ rq c enqueuedAt, w.requests[i]? = some rq ∧ rq.req.network = n ∧
      rq.stage = .waiting c k enqueuedAt := by
  obtain ⟨rq, hrq, hnet, hl⟩ := hlink n k i j hj htask
  cases hst : rq.stage with
  | waiting c k' enqueuedAt =>
    simp only [hst, Linked] at hl
    exact ⟨rq, c, enqueuedAt, hrq, hnet, by rw [← hl.1]; exact hst⟩
  | reading => simp [hst, Linked] at hl
  | refused => simp [hst, Linked] at hl
  | reserved c => simp [hst, Linked] at hl
  | answered c t a t' => simp [hst, Linked, hnone] at hl
  | done c a => simp [hst, Linked, hnone] at hl

/-- The links after a job gets its answer. -/
theorem linkPart_answer {k : Nat} {j : Job (Option Nat) Settlement} {a : Answer Settlement}
    {f : Job (Option Nat) Settlement → Job (Option Nat) Settlement} (hlink : LinkPart w.queues w.requests)
    (hj : (w.queues n).jobs[k]? = some j) (htask : (f j).task = j.task)
    (hans : (f j).answer = some (j.answer.getD a)) (hjobs : q'.jobs = (w.queues n).jobs.modify k f) :
    LinkPart (w.setQueue n q').queues (World.told j a w.clockMs w.requests) := by
  intro m k₂ i₂ j₂ hj₂ htask₂
  by_cases hat : m = n ∧ k₂ = k
  · obtain ⟨rfl, rfl⟩ := hat
    simp only [World.setQueue, if_true, hjobs] at hj₂
    obtain rfl : f j = j₂ := by
      rw [getElem?_modify_ite, if_pos rfl, hj] at hj₂
      exact Option.some.inj hj₂
    rw [htask] at htask₂
    cases hnone : j.answer with
    | none =>
      obtain ⟨rq, c, t, hrq, hnet, hst⟩ := waits_for hlink hj htask₂ hnone
      refine ⟨rq.hear a w.clockMs, ?_, ?_, ?_⟩
      · simp only [World.told, htask₂, hnone]
        rw [getElem?_modify_ite, if_pos rfl, hrq]
        rfl
      · rcases hear_cases a w.clockMs rq with ⟨_, _, _, -, hhear⟩ | ⟨-, hhear⟩ <;>
          rw [hhear] <;> exact hnet
      · simp only [Request.hear, hst, Request.at, Linked]
        rw [hans, hnone]
        rfl
    | some a₀ =>
      obtain ⟨rq, hrq, hnet, hl⟩ := hlink m k₂ i₂ j hj htask₂
      refine ⟨rq, ?_, hnet, ?_⟩
      · simp only [World.told, htask₂, hnone]
        exact hrq
      · cases hst : rq.stage <;> simp only [hst, Linked, hnone] at hl ⊢
        · exact absurd hl.2 (by simp)
        · rw [hans, hnone]
          exact hl
        · rw [hans, hnone]
          exact hl
  · have hold : (w.queues m).jobs[k₂]? = some j₂ := by
      by_cases hm : m = n
      · subst hm
        have hne : ¬ k = k₂ := fun h => hat ⟨rfl, h.symm⟩
        simp only [World.setQueue, if_true, hjobs] at hj₂
        rwa [getElem?_modify_ite, if_neg hne] at hj₂
      · simpa only [World.setQueue, if_neg hm] using hj₂
    obtain ⟨rq, hrq, hnet, hl⟩ := hlink m k₂ i₂ j₂ hold htask₂
    refine ⟨rq, ?_, hnet, hl⟩
    unfold World.told
    split
    · rename_i i₀ htask₀ hnone₀
      rw [getElem?_modify_ite, if_neg]
      · exact hrq
      · rintro rfl
        -- the request waits for the job that was answered, so this job is that one
        obtain ⟨rq', c, t, hrq', hnet', hst'⟩ := waits_for hlink hj htask₀ hnone₀
        obtain rfl : rq = rq' := Option.some.inj (hrq.symm.trans hrq')
        simp only [hst', Linked] at hl
        exact hat ⟨hnet.symm.trans hnet', hl.1.symm⟩
    · exact hrq

/-- A job gets its answer: `f` records it on the job, `told` on the
request. -/
theorem worldInv_answer {k d : Nat} {j : Job (Option Nat) Settlement} {a : Answer Settlement}
    {f : Job (Option Nat) Settlement → Job (Option Nat) Settlement} (hw : WorldInv cfg w done)
    (hj : (w.queues n).jobs[k]? = some j) (htask : (f j).task = j.task)
    (hans : (f j).answer = some (j.answer.getD a)) (hjobs : q'.jobs = (w.queues n).jobs.modify k f)
    (hq : QueuePart cfg w.clockMs q' d)
    (hstay : ∀ i k' t, k' ≠ k → WaitingFor cfg w.clockMs (w.queues n) (done n) i k' t →
      d ≤ k' ∧ base w.clockMs q' d + ((k' : ℚ) - d) * cfg.ledger.sendResidenceMs ≤
        t + ((cfg.ledger.sendQueueMaxPending : ℚ) - 1) * cfg.ledger.sendResidenceMs)
    (hgo : ∀ i t, WaitingFor cfg w.clockMs (w.queues n) (done n) i k t →
      w.clockMs ≤ t + cfg.ledger.sendQueueMaxPending * cfg.ledger.sendResidenceMs) :
    WorldInv cfg { w.setQueue n q' with requests := World.told j a w.clockMs w.requests }
      (setDone n d done) := by
  refine ⟨hw.ledger, queuePart_set hw hq, ?_, ?_, ?_⟩
  · exact linkPart_answer hw.link hj htask hans hjobs
  · show RowsPart cfg w.books.archive (World.told j a w.clockMs w.requests)
    unfold World.told
    split
    · exact hw.rows.modify fun rq _ => keepsRow_hear cfg a w.clockMs rq
    · exact hw.rows
  · refine ⟨?_, ?_, ?_⟩
    · intro i rq' h
      rcases told_cases j a w.clockMs w.requests h with ⟨-, -, rq, hrq, rfl⟩ | ⟨-, hold⟩
      · rw [(keepsRow_hear cfg a w.clockMs rq).readAt]
        exact hw.time.read i rq hrq
      · exact hw.time.read i rq' hold
    · intro i rq' c k' t h hst
      rcases told_cases j a w.clockMs w.requests h with ⟨-, -, rq, hrq, rfl⟩ | ⟨hnot, hold⟩
      · rcases hear_cases a w.clockMs rq with ⟨_, _, _, -, hhear⟩ | ⟨hnw, hhear⟩
        · rw [hhear] at hst
          cases hst
        · rw [hhear] at hst
          exact absurd hst (hnw c k' t)
      · have hwait := hw.time.waiting i rq' c k' t hold hst
        by_cases hm : rq'.req.network = n
        · subst hm
          simp only [World.setQueue, setDone, if_true]
          have hne : k' ≠ k := by
            rintro rfl
            obtain ⟨j', hj', htask', hnone'⟩ := hwait.job
            obtain rfl : j = j' := Option.some.inj (hj.symm.trans hj')
            exact hnot ⟨htask', hnone'⟩
          obtain ⟨hahead, hslack⟩ := hstay i k' t hne hwait
          refine ⟨hahead, hwait.past, ?_, hslack⟩
          obtain ⟨j', hj', hrest⟩ := hwait.job
          refine ⟨j', ?_, hrest⟩
          rw [hjobs, getElem?_modify_ite, if_neg (fun h => hne h.symm)]
          exact hj'
        · simp only [World.setQueue, setDone, if_neg hm]
          exact hwait
    · intro i rq' c t t' a' h hst
      rcases told_cases j a w.clockMs w.requests h with ⟨htask', hnone, rq, hrq, rfl⟩ | ⟨-, hold⟩
      · obtain ⟨rq₀, c₀, t₀, hrq₀, hnet, hst₀⟩ := waits_for hw.link hj htask' hnone
        obtain rfl : rq = rq₀ := Option.some.inj (hrq.symm.trans hrq₀)
        simp only [Request.hear, hst₀, Request.at, Stage.answered.injEq] at hst
        obtain ⟨-, rfl, -, rfl⟩ := hst
        have hwait := hw.time.waiting i rq c₀ k t₀ hrq hst₀
        rw [hnet] at hwait
        exact hgo i t₀ hwait
      · exact hw.time.answered i rq' c t t' a' hold hst

theorem worldInv_settle {k : Nat} {out : Settlement} (hw : WorldInv cfg w done)
    (hpunctual : w.punctual cfg = true) (h : w.settle n k out = some w') :
    ∃ done', WorldInv cfg w' done' := by
  unfold World.settle at h
  split at h
  · rename_i j q hj hsettle
    obtain rfl := Option.some.inj h
    have hle := clock_le_base ((punctual_iff.mp hpunctual).1 n) (hw.queue n).shape
    obtain ⟨rfl, hq, hbase⟩ := queuePart_settle (hw.queue n) hsettle
    obtain ⟨j₁, hj₁, -, rfl⟩ := settle_eq_some hsettle
    refine ⟨_, worldInv_answer hw hj (Job.settle_task out j) rfl rfl hq ?_ ?_⟩
    · intro i k' t hne hwait
      have hlt : done n + 1 ≤ k' := by
        have := hwait.ahead
        omega
      refine ⟨hlt, ?_⟩
      -- the base moves to the present, at most one residence on, and the place by one
      have hslack := hwait.slack
      rw [hbase]
      push_cast
      linarith
    · intro i t hwait
      exact hwait.clock_le hle
  · cases h

theorem worldInv_fire {k : Nat} (hw : WorldInv cfg w done) (hpunctual : w.punctual cfg = true)
    (h : w.fire n k = some w') : ∃ done', WorldInv cfg w' done' := by
  unfold World.fire at h
  split at h
  · rename_i j q hj hfire
    obtain rfl := Option.some.inj h
    have hle := clock_le_base ((punctual_iff.mp hpunctual).1 n) (hw.queue n).shape
    obtain ⟨rfl, hq, hbase⟩ := queuePart_fire (hw.queue n) hfire
    obtain ⟨j₁, due, hj₁, -, -, rfl⟩ := fire_eq_some hfire
    refine ⟨_, worldInv_answer hw hj (Job.fire_task j) rfl rfl hq ?_ ?_⟩
    · intro i k' t _ hwait
      rw [hbase]
      exact ⟨hwait.ahead, hwait.slack⟩
    · intro i t hwait
      exact hwait.clock_le hle
  · cases h

end QueueSteps

/-! ## Recording -/

section Recording

variable {cfg : FaucetConfig} {w w' : World} {done : FaucetNetwork → Nat} {i : Nat}

/-- What recording an outcome does to the world. -/
theorem record_eq_some (h : w.record cfg i = some w') :
    ∃ req readAt c enqueuedAt a answeredAt ledger,
      w.requests[i]? = some ⟨req, readAt, .answered c enqueuedAt a answeredAt⟩ ∧
        finalizeClaim c (finalizeArgs (cfg.senderName req.network) a).status
          (finalizeArgs (cfg.senderName req.network) a).txid
          (finalizeArgs (cfg.senderName req.network) a).noTxid w.books.clockMs req.network
          w.books.ledger = .ok ledger ∧
        w' =
          { books :=
              { w.books with
                ledger := ledger
                archive := w.books.archive.map (Entry.finalize
                  (finalizeArgs (cfg.senderName req.network) a).status.toClaimStatus
                  (orNull (finalizeArgs (cfg.senderName req.network) a).txid) c) }
            queues := w.queues
            requests := w.requests.modify i (Request.at (.done c a)) } := by
  unfold World.record at h
  split at h
  · rename_i req readAt c enqueuedAt a answeredAt hrq
    simp only [World.clockMs] at h
    split at h
    · rename_i ledger hfin
      refine ⟨req, readAt, c, enqueuedAt, a, answeredAt, ledger, hrq, hfin, ?_⟩
      simp only [Books.apply, hfin] at h
      exact (Option.some.inj h).symm
    · cases h
  · cases h

/-- The row of the request gets the status of its outcome. -/
theorem RowOf.finalize {rq : Request} {c : Nat} {e : Entry} (hrow : RowOf cfg rq c e) (a : Answer Settlement)
    (txid : Option JsString) :
    RowOf cfg (rq.at (.done c a)) c
      (e.finalize (finalizeArgs (cfg.senderName rq.req.network) a).status.toClaimStatus txid c) := by
  have hkey := Entry.finalize_key (finalizeArgs (cfg.senderName rq.req.network) a).status.toClaimStatus txid c e
  refine ⟨?_, ?_, ?_, ?_, ?_⟩
  · rw [Entry.finalize_id]
    exact hrow.id
  · exact (congrArg ClaimKey.addressHash hkey).trans hrow.addressHash
  · exact (congrArg ClaimKey.network hkey).trans hrow.network
  · simp only [Entry.finalize, finalized_createdAt]
    exact hrow.createdAt
  · simp only [Entry.finalize, finalized_status, hrow.id, if_true, Request.at, Stage.rowStatus]

/-- Every other row stays. -/
theorem finalize_of_ne {e : Entry} {c : Nat} (hid : e.row.id ≠ c) (status : ClaimStatus) (txid : Option JsString) :
    e.finalize status txid c = e := by
  simp [Entry.finalize, ClaimRow.finalized, hid]

theorem RowsPart.record {archive : List Entry} {requests : List Request} {rq : Request} {c : Nat}
    (hr : RowsPart cfg archive requests) (hrq : requests[i]? = some rq) (hc : rq.stage.claimId? = some c)
    (a : Answer Settlement) (txid : Option JsString) :
    RowsPart cfg
      (archive.map (Entry.finalize (finalizeArgs (cfg.senderName rq.req.network) a).status.toClaimStatus txid c))
      (requests.modify i (Request.at (.done c a))) where
  row := by
    intro i' rq' c' h' hc'
    rcases stage_modify h' with ⟨rfl, rq₀, hrq₀, rfl⟩ | ⟨hne, hold⟩
    · obtain rfl : rq = rq₀ := Option.some.inj (hrq.symm.trans hrq₀)
      obtain rfl : c = c' := Option.some.inj hc'
      obtain ⟨e, he, hrow⟩ := hr.row i' rq c hrq hc
      exact ⟨_, List.mem_map_of_mem he, hrow.finalize a txid⟩
    · obtain ⟨e, he, hrow⟩ := hr.row i' rq' c' hold hc'
      -- the row of another request has another id
      have hid : e.row.id ≠ c := by
        intro hec
        obtain rfl : c' = c := hrow.id.symm.trans hec
        exact hne (hr.unique i' i rq' rq c' hold hrq hc' hc)
      refine ⟨_, List.mem_map_of_mem he, ?_⟩
      rw [finalize_of_ne hid]
      exact hrow
  unique := by
    refine hr.unique_modify fun rq₀ hrq₀ => ?_
    obtain rfl : rq = rq₀ := Option.some.inj (hrq.symm.trans hrq₀)
    exact hc.symm

theorem worldInv_record (hw : WorldInv cfg w done) (hpunctual : w.punctual cfg = true)
    (h : w.record cfg i = some w') : WorldInv cfg w' done := by
  obtain ⟨req, readAt, c, enqueuedAt, a, answeredAt, ledger, hrq, hfin, rfl⟩ := record_eq_some h
  obtain ⟨e₀, he₀, hrow₀⟩ := hw.rows.row i _ c hrq rfl
  have hinside := insideLease_of_inFlight hw hpunctual hrq rfl hrow₀.createdAt
  have hallow : w.books.admits cfg.ledger (.finalize c
      (finalizeArgs (cfg.senderName req.network) a).status
      (finalizeArgs (cfg.senderName req.network) a).txid
      (finalizeArgs (cfg.senderName req.network) a).noTxid req.network) := by
    intro e he hid
    obtain rfl := hw.ledger.ids.eq_of_id he he₀ (hid.trans hrow₀.id.symm)
    exact ⟨hrow₀.status, fun _ => hinside⟩
  have hinv := booksInv_finalize hw.ledger.inv hallow
  have hids : BooksIds (w.books.apply cfg.ledger (.finalize c
      (finalizeArgs (cfg.senderName req.network) a).status
      (finalizeArgs (cfg.senderName req.network) a).txid
      (finalizeArgs (cfg.senderName req.network) a).noTxid req.network)) :=
    booksIds_apply hw.ledger.ids _
  simp only [Books.apply, hfin] at hinv hids
  refine ⟨⟨hinv, hids, hw.ledger.seen⟩, hw.queue, ?_, hw.rows.record hrq rfl a _, ?_⟩
  · exact hw.link.setStage hrq _ fun k j hl => hl
  · refine hw.time.setStage (fun _ => rfl) ?_ ?_
    · intro rq c' k t _ hst
      cases hst
    · intro rq c' t t' a' _ hst
      cases hst

end Recording

/-! ## What an answered request carries -/

section Carrying

variable {cfg : FaucetConfig} {w w' : World} {i : Nat}

/-- The send of a request that has its answer carries a txid, if it
resolved. -/
def Request.Carries (cfg : FaucetConfig) (rq : Request) : Prop :=
  ∀ (c : Nat) (enqueuedAt answeredAt : ℚ) (a : Answer Settlement),
    rq.stage = .answered c enqueuedAt a answeredAt →
      ∀ out, a = .own out → carriesTxid (cfg.senderName rq.req.network) out = true

def AnswersCarry (cfg : FaucetConfig) (requests : List Request) : Prop :=
  ∀ (i : Nat) (rq : Request), requests[i]? = some rq → rq.Carries cfg

theorem AnswersCarry.modify {requests : List Request} {f : Request → Request}
    (hc : AnswersCarry cfg requests) (hf : ∀ rq, requests[i]? = some rq → (f rq).Carries cfg) :
    AnswersCarry cfg (requests.modify i f) := by
  intro i' rq' h
  rcases stage_modify h with ⟨rfl, rq, hrq, rfl⟩ | ⟨-, hold⟩
  · exact hf rq hrq
  · exact hc i' rq' hold

/-- Moving on to a stage without an answer of its own. -/
theorem AnswersCarry.setStage {requests : List Request} {st : Stage} (hc : AnswersCarry cfg requests)
    (hst : ∀ c t t' out, st ≠ .answered c t (.own out) t') :
    AnswersCarry cfg (requests.modify i (Request.at st)) :=
  hc.modify fun _ _ c t t' _ h out ha => absurd (h.trans (by rw [ha])) (hst c t t' out)

theorem answersCarry_arrive (req : ClaimRequest) (hc : AnswersCarry cfg w.requests) :
    AnswersCarry cfg (w.arrive req).requests := by
  intro i rq hrq c t t' a hst
  rcases List.mem_append.mp (List.mem_of_getElem? hrq) with hold | hnew
  · obtain ⟨k, hk⟩ := List.mem_iff_getElem?.mp hold
    exact hc k rq hk c t t' a hst
  · obtain rfl := List.mem_singleton.mp hnew
    cases hst

theorem answersCarry_reserve (hc : AnswersCarry cfg w.requests) (h : w.reserve cfg i = some w') :
    AnswersCarry cfg w'.requests := by
  obtain ⟨req, readAt, now, -, -, hcases⟩ := reserve_eq_some h
  rcases hcases with ⟨-, rfl⟩ | rfl
  · exact hc.setStage (by simp)
  · exact hc.setStage (by simp)

theorem answersCarry_enqueue (hc : AnswersCarry cfg w.requests) (h : w.enqueue cfg i = some w') :
    AnswersCarry cfg w'.requests := by
  obtain ⟨req, readAt, c, -, hcases⟩ := enqueue_eq_some h
  rcases hcases with ⟨q, -, rfl⟩ | rfl
  · exact hc.setStage (by simp)
  · exact hc.setStage (by simp)

/-- A job is answered: what its request hears carries a txid, or is not
the answer of a send. -/
theorem answersCarry_told {n : FaucetNetwork} {k : Nat} {j : Job (Option Nat) Settlement}
    {a : Answer Settlement} (hlink : LinkPart w.queues w.requests) (hc : AnswersCarry cfg w.requests)
    (hj : (w.queues n).jobs[k]? = some j)
    (ha : j.task ≠ none → j.answer = none → ∀ out, a = .own out → carriesTxid (cfg.senderName n) out = true) :
    AnswersCarry cfg (World.told j a w.clockMs w.requests) := by
  intro i rq' h
  rcases told_cases j a w.clockMs w.requests h with ⟨htask, hnone, rq, hrq, rfl⟩ | ⟨-, hold⟩
  · obtain ⟨rq₀, c₀, t₀, hrq₀, hnet, hst₀⟩ := waits_for hlink hj htask hnone
    obtain rfl : rq = rq₀ := Option.some.inj (hrq.symm.trans hrq₀)
    intro c t t' a' hst out hout
    simp only [Request.hear, hst₀, Request.at, Stage.answered.injEq] at hst ⊢
    obtain ⟨-, -, rfl, -⟩ := hst
    rw [hnet]
    exact ha (by rw [htask]; exact Option.some_ne_none _) hnone out hout
  · exact hc i rq' hold

theorem answersCarry_settle {n : FaucetNetwork} {k : Nat} {out : Settlement}
    (hlink : LinkPart w.queues w.requests) (hc : AnswersCarry cfg w.requests)
    (hcarried : w.carried cfg (.settle n k out) = true) (h : w.settle n k out = some w') :
    AnswersCarry cfg w'.requests := by
  unfold World.settle at h
  split at h
  · rename_i j q hj hsettle
    obtain rfl := Option.some.inj h
    refine answersCarry_told hlink hc hj fun htask hnone out' hout => ?_
    obtain rfl := Answer.own.inj hout
    simpa [World.carried, hj, hnone, htask] using hcarried
  · cases h

theorem answersCarry_fire {n : FaucetNetwork} {k : Nat} (hlink : LinkPart w.queues w.requests)
    (hc : AnswersCarry cfg w.requests) (h : w.fire n k = some w') : AnswersCarry cfg w'.requests := by
  unfold World.fire at h
  split at h
  · rename_i j q hj hfire
    obtain rfl := Option.some.inj h
    exact answersCarry_told hlink hc hj fun _ _ out hout => by cases hout
  · cases h

/-- The finalise of a request that carries a txid does not throw. -/
theorem recordThrew_eq_none (hc : AnswersCarry cfg w.requests) : w.recordThrew cfg i = none := by
  unfold World.recordThrew
  split
  · rename_i req readAt c enqueuedAt a answeredAt hrq
    obtain ⟨l', hl'⟩ := finalizeClaim_isOk c w.clockMs req.network w.books.ledger
      fun out hout => hc i _ hrq c enqueuedAt answeredAt a rfl out hout
    simp only [hl']
  · rfl

end Carrying

/-! ## Runs -/

/-- A punctual world that satisfies the invariant, and whose requests can
record what they were answered. -/
def Sound (cfg : FaucetConfig) (w : World) : Prop :=
  w.punctual cfg = true ∧ (∃ done, WorldInv cfg w done) ∧ AnswersCarry cfg w.requests

theorem sound_init (cfg : FaucetConfig) (clockMs : ℚ) : Sound cfg (.init cfg clockMs) :=
  ⟨rfl, ⟨_, worldInv_init cfg clockMs⟩, fun i rq h => by simp [World.init] at h⟩

theorem sound_step {cfg : FaucetConfig} {w w' : World} {ev : WorldEvent} (hw : Sound cfg w)
    (h : w.carriedStep cfg ev = some w') : Sound cfg w' := by
  obtain ⟨hpunctual, ⟨done, hinv⟩, hc⟩ := hw
  obtain ⟨hcarried, hpstep⟩ := Option.ite_none_right_eq_some.mp h
  obtain ⟨hwstep, hpunctual'⟩ := guarded_eq_some.mp hpstep
  obtain ⟨hwrites, hstep⟩ := Option.ite_none_right_eq_some.mp hwstep
  refine ⟨hpunctual', ?_⟩
  cases ev with
  | tick ms =>
    refine ⟨⟨done, worldInv_tick hinv hstep⟩, ?_⟩
    obtain ⟨-, heq⟩ := Option.ite_none_right_eq_some.mp hstep
    exact Option.some.inj heq ▸ hc
  | arrive req =>
    obtain rfl := Option.some.inj hstep
    exact ⟨⟨done, worldInv_arrive req hinv⟩, answersCarry_arrive req hc⟩
  | purge i =>
    refine ⟨⟨done, worldInv_purge hinv hstep⟩, ?_⟩
    simp only [World.step, World.purge] at hstep
    split at hstep
    · exact Option.some.inj hstep ▸ hc
    · cases hstep
  | reserve i => exact ⟨⟨done, worldInv_reserve hinv hstep hpunctual'⟩, answersCarry_reserve hc hstep⟩
  | enqueue i => exact ⟨⟨done, worldInv_enqueue hinv hstep⟩, answersCarry_enqueue hc hstep⟩
  | other n deadlineMs =>
    obtain rfl := Option.some.inj hstep
    refine ⟨⟨done, worldInv_other hinv n deadlineMs⟩, ?_⟩
    unfold World.other
    split <;> exact hc
  | start n k =>
    refine ⟨⟨done, worldInv_start hinv hstep⟩, ?_⟩
    simp only [World.step, World.start] at hstep
    split at hstep
    · exact Option.some.inj hstep ▸ hc
    · cases hstep
  | settle n k out =>
    exact ⟨worldInv_settle hinv hpunctual hstep, answersCarry_settle hinv.link hc hcarried hstep⟩
  | fire n k => exact ⟨worldInv_fire hinv hpunctual hstep, answersCarry_fire hinv.link hc hstep⟩
  | record i =>
    refine ⟨⟨done, worldInv_record hinv hpunctual hstep⟩, ?_⟩
    obtain ⟨-, -, -, -, -, -, -, -, -, rfl⟩ := record_eq_some hstep
    exact hc.setStage (by simp)
  | recordThrew i => exact absurd hstep (by simp [World.step, recordThrew_eq_none hc])
  | recordFailed i => cases hwrites

theorem sound_run {cfg : FaucetConfig} {clockMs : ℚ} {es : List WorldEvent} {w : World}
    (h : run (World.carriedStep cfg) (.init cfg clockMs) es = some w) : Sound cfg w :=
  run_invariant (Sound cfg) (fun _ _ _ => sound_step) (sound_init cfg clockMs) h

end ZcashFaucet.System
