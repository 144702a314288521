/-
ZcashFaucet.System.Drain — a process that is told to stop, and what it
leaves in the ledger (src/src/lib/drain.ts, src/src/instrumentation.ts).

From the signal on new claims are refused, and `drain` looks at the depth
of the two queues now and then until it is zero or its bound has passed.
A look is a callback of its own: whatever has been settled when it is
due has had its promise callbacks run. On SQLite those include the whole
finalise of a claim, for a statement there is a function call. On D1 a
statement is a request, and its reply is an event like any other.
-/
import ZcashFaucet.System.DoubleDrip

namespace ZcashFaucet.System

open Lib Db Zcash Api

/-! ## The process -/

/-- `DB_BACKEND`. -/
inductive Driver
  | sqlite
  | d1
  deriving DecidableEq, Repr

structure Process where
  world : World
  /-- The `until` of `drain`, once a signal has arrived. -/
  drainUntil : Option ℚ
  /-- `process.exit` was called, and whether `drain` resolved true. -/
  exited : Option Bool

inductive ProcessEvent
  | world (ev : WorldEvent)
  | signal
  | poll

namespace Process

def init (cfg : FaucetConfig) (clockMs : ℚ) : Process := ⟨.init cfg clockMs, none, none⟩

def isDraining (p : Process) : Bool := p.drainUntil.isSome

/-- `getSendQueue().depth + getCtazSendQueue().depth`. -/
def depth (p : Process) : Int := (p.world.queues .taz).depth + (p.world.queues .ctaz).depth

/-- A claim was answered and its finalise has not returned. -/
def finalising (p : Process) : Bool :=
  p.world.requests.any fun rq => match rq.stage with
    | .answered _ _ _ _ => true
    | _ => false

/-- Promise callbacks are due, so no timer's callback is. -/
def microtasks (driver : Driver) (p : Process) : Bool :=
  p.world.busy || (driver == .sqlite && p.finalising)

/-- One look of `drain` at the queues, and the exit after it. -/
def poll (driver : Driver) (p : Process) : Option Process :=
  match p.drainUntil with
  | none => none
  | some drainUntil =>
      if p.microtasks driver then none
      else if p.depth ≤ 0 then some { p with exited := some true }
      else if drainUntil ≤ p.world.clockMs then some { p with exited := some false }
      else some p

/-- A second signal is ignored. -/
def signal (boundMs : ℚ) (p : Process) : Process :=
  { p with drainUntil := some (p.drainUntil.getD (p.world.clockMs + boundMs)) }

/-- The `isDraining` check at the top of the route. -/
def admitted (p : Process) : WorldEvent → Bool
  | .arrive _ => !p.isDraining
  | _ => true

def step (cfg : FaucetConfig) (driver : Driver) (boundMs : ℚ) (p : Process) :
    ProcessEvent → Option Process
  | ev =>
      if p.exited.isSome then none
      else
        match ev with
        | .world ev =>
            if p.admitted ev then (p.world.step cfg ev).map fun w => { p with world := w } else some p
        | .signal => some (p.signal boundMs)
        | .poll => p.poll driver

/-! ## What the drain promises -/

/-- Every claim whose send has started is finalised: its row, if the
table still has it, is not 'pending'. -/
def NothingOpen (p : Process) : Prop :=
  ∀ (n : FaucetNetwork) (j : Job (Option Nat) Settlement) (i : Nat) (rq : Request) (c : Nat),
    j ∈ (p.world.queues n).jobs → j.startedAt.isSome → j.task = some i →
      p.world.requests[i]? = some rq → rq.stage.claimId? = some c →
        ∀ r ∈ p.world.books.ledger.claims, r.id = c → r.status ≠ .pending

/-- No finalise fails, and on D1 none is on its way when `drain` finds
the queues empty. -/
def inTime (driver : Driver) (p : Process) : ProcessEvent → Bool
  | .world ev => ev.written
  | .signal => true
  | .poll => driver == .sqlite || decide (0 < p.depth) || !p.finalising

def inTimeStep (cfg : FaucetConfig) (driver : Driver) (boundMs : ℚ) (p : Process) (ev : ProcessEvent) :
    Option Process :=
  if p.inTime driver ev then p.step cfg driver boundMs ev else none

end Process

/-! ## The invariant -/

/-- What ties the queues, the requests and the rows together in any run,
punctual or not. -/
structure DrainInv (w : World) (done : FaucetNetwork → Nat) : Prop where
  shape : ∀ n, QueueShape (w.queues n) (done n)
  told : ∀ n, ∀ j ∈ (w.queues n).jobs, j.isSettled = true → j.answer ≠ none
  link : LinkPart w.queues w.requests
  rows : ∀ r ∈ w.books.ledger.claims, r.id < w.books.ledger.nextId
  reserved : ∀ rq ∈ w.requests, ∀ c ∈ rq.stage.claimId?, c < w.books.ledger.nextId
  closed : ∀ rq ∈ w.requests, ∀ c a, rq.stage = .done c a →
    ∀ r ∈ w.books.ledger.claims, r.id = c → r.status ≠ .pending

theorem drainInv_init (cfg : FaucetConfig) (clockMs : ℚ) : DrainInv (.init cfg clockMs) fun _ => 0 where
  shape _ := queueShape_new _
  told _ _ hj := by cases hj
  link := (worldInv_init cfg clockMs).link
  rows _ hr := by cases hr
  reserved _ hrq := by cases hrq
  closed _ hrq := by cases hrq

section Steps

variable {cfg : FaucetConfig} {w w' : World} {done : FaucetNetwork → Nat} {n : FaucetNetwork} {q' : SendQueue}

theorem shape_set (hw : DrainInv w done) {d : Nat} (hq : QueueShape q' d) (m : FaucetNetwork) :
    QueueShape ((w.setQueue n q').queues m) (setDone n d done m) := by
  by_cases hm : m = n
  · simp only [World.setQueue, setDone, if_pos hm]
    exact hq
  · simp only [World.setQueue, setDone, if_neg hm]
    exact hw.shape m

theorem told_set (hw : DrainInv w done) (hq : ∀ j ∈ q'.jobs, j.isSettled = true → j.answer ≠ none)
    (m : FaucetNetwork) : ∀ j ∈ ((w.setQueue n q').queues m).jobs, j.isSettled = true → j.answer ≠ none := by
  by_cases hm : m = n
  · simp only [World.setQueue, if_pos hm]
    exact hq
  · simp only [World.setQueue, if_neg hm]
    exact hw.told m

/-- A request that is replaced by one with the same row, not done. -/
theorem rows_modify {i : Nat} {f : Request → Request} (hw : DrainInv w done)
    (hid : ∀ rq, w.requests[i]? = some rq → (f rq).stage.claimId? = rq.stage.claimId?)
    (hdone : ∀ rq, w.requests[i]? = some rq → ∀ c a, (f rq).stage = .done c a → rq.stage = .done c a) :
    (∀ rq ∈ w.requests.modify i f, ∀ c ∈ rq.stage.claimId?, c < w.books.ledger.nextId) ∧
      ∀ rq ∈ w.requests.modify i f, ∀ c a, rq.stage = .done c a →
        ∀ r ∈ w.books.ledger.claims, r.id = c → r.status ≠ .pending := by
  have hold : ∀ rq ∈ w.requests.modify i f, rq ∈ w.requests ∨ ∃ rq₀, w.requests[i]? = some rq₀ ∧ rq = f rq₀ := by
    intro rq hrq
    obtain ⟨k, hk⟩ := List.mem_iff_getElem?.mp hrq
    rcases stage_modify hk with ⟨-, rq₀, hrq₀, rfl⟩ | ⟨-, h⟩
    · exact Or.inr ⟨rq₀, hrq₀, rfl⟩
    · exact Or.inl (List.mem_of_getElem? h)
  constructor
  · intro rq hrq c hc
    rcases hold rq hrq with h | ⟨rq₀, hrq₀, rfl⟩
    · exact hw.reserved rq h c hc
    · exact hw.reserved rq₀ (List.mem_of_getElem? hrq₀) c (hid rq₀ hrq₀ ▸ hc)
  · intro rq hrq c a hst
    rcases hold rq hrq with h | ⟨rq₀, hrq₀, rfl⟩
    · exact hw.closed rq h c a hst
    · exact hw.closed rq₀ (List.mem_of_getElem? hrq₀) c a (hdone rq₀ hrq₀ c a hst)

theorem drainInv_tick {ms : ℚ} (hw : DrainInv w done) (h : w.tick cfg ms = some w') : DrainInv w' done := by
  unfold World.tick at h
  split at h
  · obtain rfl := Option.some.inj h
    exact ⟨hw.shape, hw.told, hw.link, hw.rows, hw.reserved, hw.closed⟩
  · cases h

theorem drainInv_arrive (req : ClaimRequest) (hw : DrainInv w done) : DrainInv (w.arrive req) done := by
  refine ⟨hw.shape, hw.told, linkPart_arrive req hw.link, hw.rows, ?_, ?_⟩
  · intro rq hrq c hc
    rcases List.mem_append.mp hrq with hold | hnew
    · exact hw.reserved rq hold c hc
    · obtain rfl := List.mem_singleton.mp hnew
      cases hc
  · intro rq hrq c a hst
    rcases List.mem_append.mp hrq with hold | hnew
    · exact hw.closed rq hold c a hst
    · obtain rfl := List.mem_singleton.mp hnew
      cases hst

theorem drainInv_purge {i : Nat} (hw : DrainInv w done) (h : w.purge cfg i = some w') : DrainInv w' done := by
  unfold World.purge at h
  split at h
  · obtain rfl := Option.some.inj h
    have hkept : ∀ (cutoff : ℚ), ∀ r ∈ (purgeSql cutoff w.books.ledger).claims, r ∈ w.books.ledger.claims :=
      fun _ r hr => (List.mem_filter.mp hr).1
    exact ⟨hw.shape, hw.told, hw.link, fun r hr => hw.rows r (hkept _ r hr), hw.reserved,
      fun rq hrq c a hst r hr => hw.closed rq hrq c a hst r (hkept _ r hr)⟩
  · cases h

/-- A new row has a new id, so it is the row of no request that is done. -/
theorem drainInv_reserve {i : Nat} (hw : DrainInv w done) (h : w.reserve cfg i = some w') :
    DrainInv w' done := by
  obtain ⟨req, readAt, now, hrq, -, hcases⟩ := reserve_eq_some h
  have hlink : ∀ st, LinkPart w.queues (w.requests.modify i (Request.at st)) := fun st =>
    hw.link.setStage hrq st fun k j hl => hl.elim
  have hreading : ∀ rq, w.requests[i]? = some rq → rq = ⟨req, readAt, .reading⟩ := fun rq hrq' =>
    Option.some.inj (hrq'.symm.trans hrq)
  rcases hcases with ⟨-, rfl⟩ | rfl
  · have hold : ∀ rq ∈ w.requests.modify i (Request.at (.reserved w.books.ledger.nextId)),
        rq ∈ w.requests ∨ rq.stage = .reserved w.books.ledger.nextId := by
      intro rq hmem
      obtain ⟨k, hk⟩ := List.mem_iff_getElem?.mp hmem
      rcases stage_modify hk with ⟨-, rq₀, -, rfl⟩ | ⟨-, h⟩
      · exact Or.inr rfl
      · exact Or.inl (List.mem_of_getElem? h)
    refine ⟨hw.shape, hw.told, hlink _, ?_, ?_, ?_⟩
    · intro r hr
      rcases List.mem_cons.mp hr with rfl | hr
      · exact Nat.lt_succ_self _
      · exact Nat.lt_succ_of_lt (hw.rows r hr)
    · intro rq hmem c hc
      rcases hold rq hmem with hrq' | hst
      · exact Nat.lt_succ_of_lt (hw.reserved rq hrq' c hc)
      · rw [hst] at hc
        cases hc
        exact Nat.lt_succ_self _
    · intro rq hmem c a hst r hr hid
      rcases hold rq hmem with hrq' | hst'
      · rcases List.mem_cons.mp hr with rfl | hr
        · have hlt := hw.reserved rq hrq' c (by rw [hst]; rfl)
          have hnew : w.books.ledger.nextId = c := hid
          omega
        · exact hw.closed rq hrq' c a hst r hr hid
      · rw [hst'] at hst
        cases hst
  · obtain ⟨hreserved, hclosed⟩ := rows_modify (f := Request.at .refused) hw
      (fun rq hrq' => by rw [hreading rq hrq']; rfl) (fun rq _ c a hst => by cases hst)
    exact ⟨hw.shape, hw.told, hlink _, hw.rows, hreserved, hclosed⟩

theorem told_run {q : SendQueue} {task : Option Nat} {deadlineMs : ℚ}
    (hq : ∀ j ∈ q.jobs, j.isSettled = true → j.answer ≠ none) (h : q.run task deadlineMs = some q') :
    ∀ j ∈ q'.jobs, j.isSettled = true → j.answer ≠ none := by
  obtain ⟨-, rfl⟩ := run_eq_some h
  intro j hj hsettled
  rcases List.mem_append.mp hj with hold | hnew
  · exact hq j hold hsettled
  · obtain rfl := List.mem_singleton.mp hnew
    cases hsettled

theorem drainInv_enqueue {i : Nat} (hw : DrainInv w done) (h : w.enqueue cfg i = some w') :
    DrainInv w' done := by
  obtain ⟨req, readAt, c, hrq, hcases⟩ := enqueue_eq_some h
  have heq : ∀ rq, w.requests[i]? = some rq → rq = ⟨req, readAt, .reserved c⟩ := fun rq hrq' =>
    Option.some.inj (hrq'.symm.trans hrq)
  have hlink : ∀ st, LinkPart w.queues (w.requests.modify i (Request.at st)) := fun st =>
    hw.link.setStage hrq st fun k j hl => hl.elim
  have hrows : ∀ st : Stage, st.claimId? = some c → (∀ c a, st ≠ .done c a) → _ := fun st hc hst =>
    rows_modify (f := Request.at st) hw (fun rq hrq' => by rw [heq rq hrq']; exact hc)
      (fun rq _ c a h => absurd h (hst c a))
  rcases hcases with ⟨q, hrun, rfl⟩ | rfl
  · obtain ⟨hreserved, hclosed⟩ := hrows (.waiting c (w.queues req.network).jobs.length w.clockMs) rfl (by simp)
    refine ⟨?_, told_set hw (told_run (hw.told _) hrun), ?_, hw.rows, hreserved, hclosed⟩
    · have := shape_set (n := req.network) hw (queueShape_run (hw.shape _) hrun)
      rwa [setDone_self] at this
    · refine linkPart_run (hlink _) hrun fun i' hi' => ?_
      obtain rfl := Option.some.inj hi'
      refine ⟨⟨req, readAt, .waiting c (w.queues req.network).jobs.length w.clockMs⟩, ?_, rfl, ?_⟩
      · rw [getElem?_modify_ite, if_pos rfl, hrq]
        rfl
      · intro j hnone
        exact ⟨rfl, hnone⟩
  · obtain ⟨hreserved, hclosed⟩ := hrows (.answered c w.clockMs .queueFull w.clockMs) rfl (by simp)
    exact ⟨hw.shape, hw.told, hlink _, hw.rows, hreserved, hclosed⟩

theorem drainInv_other (deadlineMs : ℚ) (hw : DrainInv w done) : DrainInv (w.other n deadlineMs) done := by
  unfold World.other
  cases hrun : (w.queues n).run none deadlineMs with
  | none => exact hw
  | some q =>
    refine ⟨?_, told_set hw (told_run (hw.told n) hrun), ?_, hw.rows, hw.reserved, hw.closed⟩
    · have := shape_set (n := n) hw (queueShape_run (hw.shape n) hrun)
      rwa [setDone_self] at this
    · exact linkPart_run hw.link hrun fun i hi => by cases hi

theorem drainInv_start {k : Nat} (hw : DrainInv w done) (h : w.start n k = some w') : DrainInv w' done := by
  unfold World.start at h
  cases hstart : (w.queues n).start k w.clockMs with
  | none => simp [hstart] at h
  | some q =>
    simp only [hstart] at h
    obtain rfl := Option.some.inj h
    have hshape := (queueShape_start (hw.shape n) hstart).2
    obtain ⟨j₁, hj₁, -, rfl⟩ := start_eq_some hstart
    refine ⟨?_, told_set hw ?_, linkPart_start hw.link, hw.rows, hw.reserved, hw.closed⟩
    · have := shape_set (n := n) hw hshape
      rwa [setDone_self] at this
    · refine forall_mem_modify (hw.told n) fun j₀ _ hsettled => ?_
      cases hsettled

theorem hear_claimId (a : Answer Settlement) (t : ℚ) (rq : Request) :
    (rq.hear a t).stage.claimId? = rq.stage.claimId? := by
  rcases hear_cases a t rq with ⟨c, k, e, hst, hhear⟩ | ⟨-, hhear⟩
  · rw [hhear, hst]
    rfl
  · rw [hhear]

/-- A job is given its answer, and its request hears it. -/
theorem drainInv_answer {k d : Nat} {j : Job (Option Nat) Settlement} {a : Answer Settlement}
    {f : Job (Option Nat) Settlement → Job (Option Nat) Settlement} (hw : DrainInv w done)
    (hj : (w.queues n).jobs[k]? = some j) (htask : (f j).task = j.task)
    (hans : (f j).answer = some (j.answer.getD a)) (hjobs : q'.jobs = (w.queues n).jobs.modify k f)
    (hshape : QueueShape q' d) :
    DrainInv { w.setQueue n q' with requests := World.told j a w.clockMs w.requests } (setDone n d done) := by
  have hrequests : (∀ rq ∈ World.told j a w.clockMs w.requests, ∀ c ∈ rq.stage.claimId?,
      c < w.books.ledger.nextId) ∧ ∀ rq ∈ World.told j a w.clockMs w.requests, ∀ c a, rq.stage = .done c a →
        ∀ r ∈ w.books.ledger.claims, r.id = c → r.status ≠ .pending := by
    unfold World.told
    split
    · refine rows_modify hw (fun rq _ => hear_claimId a w.clockMs rq) fun rq _ c a' hst => ?_
      rcases hear_cases a w.clockMs rq with ⟨_, _, _, -, hhear⟩ | ⟨-, hhear⟩
      · rw [hhear] at hst
        cases hst
      · rw [hhear] at hst
        exact hst
    · exact ⟨hw.reserved, hw.closed⟩
  refine ⟨shape_set hw hshape, told_set hw ?_, linkPart_answer hw.link hj htask hans hjobs, hw.rows,
    hrequests.1, hrequests.2⟩
  rw [hjobs]
  refine forall_mem_modify (hw.told n) fun j₀ hj₀ _ => ?_
  obtain rfl : j = j₀ := Option.some.inj (hj.symm.trans hj₀)
  rw [hans]
  exact Option.some_ne_none _

theorem drainInv_settle {k : Nat} {out : Settlement} (hw : DrainInv w done)
    (h : w.settle n k out = some w') : ∃ done', DrainInv w' done' := by
  unfold World.settle at h
  split at h
  · rename_i j q hj hsettle
    obtain rfl := Option.some.inj h
    have hshape := (queueShape_settle (hw.shape n) hsettle).2
    obtain ⟨-, -, -, rfl⟩ := settle_eq_some hsettle
    exact ⟨_, drainInv_answer hw hj (Job.settle_task out j) rfl rfl hshape⟩
  · cases h

theorem drainInv_fire {k : Nat} (hw : DrainInv w done) (h : w.fire n k = some w') :
    ∃ done', DrainInv w' done' := by
  unfold World.fire at h
  split at h
  · rename_i j q hj hfire
    obtain rfl := Option.some.inj h
    have hshape := queueShape_fire (hw.shape n) hfire
    obtain ⟨-, -, -, -, -, rfl⟩ := fire_eq_some hfire
    exact ⟨_, drainInv_answer hw hj (Job.fire_task j) rfl rfl hshape⟩
  · cases h

/-- No finalise makes a row 'pending'. -/
theorem not_pending_finalized {status : FinalStatus} {txid : Option JsString} {id : Nat} {r : ClaimRow}
    (hr : r.id = id ∨ r.status ≠ .pending) :
    (r.finalized status.toClaimStatus txid id).status ≠ .pending := by
  rw [finalized_status]
  split
  · cases status <;> simp [FinalStatus.toClaimStatus]
  · rename_i hne
    exact hr.resolve_left hne

theorem drainInv_record {i : Nat} (hw : DrainInv w done) (h : w.record cfg i = some w') :
    DrainInv w' done := by
  obtain ⟨req, readAt, c, enqueuedAt, a, answeredAt, ledger, hrq, hfin, rfl⟩ := record_eq_some h
  obtain ⟨hclaims, hnext⟩ := finalizeClaim_ok hfin
  have hrow : ∀ r ∈ ledger.claims, ∃ r₀ ∈ w.books.ledger.claims, r = r₀.finalized
      (finalizeArgs (cfg.senderName req.network) a).status.toClaimStatus
      (orNull (finalizeArgs (cfg.senderName req.network) a).txid) c := by
    intro r hr
    rw [hclaims] at hr
    obtain ⟨r₀, hr₀, rfl⟩ := List.mem_map.mp hr
    exact ⟨r₀, hr₀, rfl⟩
  have hid : ∀ (st : ClaimStatus) (txid : Option JsString) (r : ClaimRow), (r.finalized st txid c).id = r.id := by
    intro st txid r
    unfold ClaimRow.finalized
    split <;> rfl
  have hold : ∀ rq ∈ w.requests.modify i (Request.at (.done c a)), rq ∈ w.requests ∨ rq.stage = .done c a := by
    intro rq hmem
    obtain ⟨k, hk⟩ := List.mem_iff_getElem?.mp hmem
    rcases stage_modify hk with ⟨-, rq₀, -, rfl⟩ | ⟨-, h⟩
    · exact Or.inr rfl
    · exact Or.inl (List.mem_of_getElem? h)
  refine ⟨hw.shape, hw.told, hw.link.setStage hrq _ fun k j hl => hl, ?_, ?_, ?_⟩
  · intro r hr
    obtain ⟨r₀, hr₀, rfl⟩ := hrow r hr
    rw [hid, hnext]
    exact hw.rows r₀ hr₀
  · intro rq hmem c' hc'
    rw [hnext]
    rcases hold rq hmem with hrq' | hst
    · exact hw.reserved rq hrq' c' hc'
    · rw [hst] at hc'
      exact hw.reserved _ (List.mem_of_getElem? hrq) c' hc'
  · intro rq hmem c' a' hst r hr hrid
    obtain ⟨r₀, hr₀, rfl⟩ := hrow r hr
    rw [hid] at hrid
    refine not_pending_finalized ?_
    rcases hold rq hmem with hrq' | hst'
    · exact Or.inr (hw.closed rq hrq' c' a' hst r₀ hr₀ hrid)
    · rw [hst'] at hst
      cases hst
      exact Or.inl hrid

end Steps

/-- **One step in which no finalise fails.** -/
theorem drainInv_step {cfg : FaucetConfig} {w w' : World} {ev : WorldEvent}
    (hw : ∃ done, DrainInv w done) (hwritten : ev.written = true) (h : w.step cfg ev = some w') :
    ∃ done, DrainInv w' done := by
  obtain ⟨done, hw⟩ := hw
  cases ev with
  | tick ms => exact ⟨done, drainInv_tick hw h⟩
  | arrive req =>
    obtain rfl := Option.some.inj h
    exact ⟨done, drainInv_arrive req hw⟩
  | purge i => exact ⟨done, drainInv_purge hw h⟩
  | reserve i => exact ⟨done, drainInv_reserve hw h⟩
  | enqueue i => exact ⟨done, drainInv_enqueue hw h⟩
  | other n deadlineMs =>
    obtain rfl := Option.some.inj h
    exact ⟨done, drainInv_other deadlineMs hw⟩
  | start n k => exact ⟨done, drainInv_start hw h⟩
  | settle n k out => exact drainInv_settle hw h
  | fire n k => exact drainInv_fire hw h
  | record i => exact ⟨done, drainInv_record hw h⟩
  | recordThrew i => cases hwritten
  | recordFailed i => cases hwritten

/-! ## The exit -/

namespace Process

section Exit

variable {cfg : FaucetConfig} {driver : Driver} {boundMs : ℚ} {p p' : Process}

/-- Queues of depth zero have settled everything they admitted. -/
theorem settled_of_depth {w : World} {done : FaucetNetwork → Nat} (hw : DrainInv w done)
    (hdepth : (w.queues .taz).depth + (w.queues .ctaz).depth ≤ 0) (n : FaucetNetwork)
    {j : Job (Option Nat) Settlement} (hj : j ∈ (w.queues n).jobs) : j.isSettled = true := by
  have htaz := (hw.shape .taz).depth_eq_count
  have hctaz := (hw.shape .ctaz).depth_eq_count
  have hzero : ((w.queues n).jobs.countP fun j => !j.isSettled) = 0 := by
    cases n <;> omega
  simpa using List.countP_eq_zero.mp hzero j hj

/-- A process that found its queues empty, with no finalise on its way,
leaves nothing open. -/
theorem nothingOpen_of_empty {done : FaucetNetwork → Nat} (hw : DrainInv p.world done) (hdepth : p.depth ≤ 0)
    (hfinalising : p.finalising = false) : NothingOpen p := by
  intro n j i rq c hj _ htask hrq hc r hr hid
  have hsettled := settled_of_depth hw hdepth n hj
  obtain ⟨k, hk⟩ := List.mem_iff_getElem?.mp hj
  obtain ⟨rq', hrq', -, hlinked⟩ := hw.link n k i j hk htask
  obtain rfl : rq = rq' := Option.some.inj (hrq.symm.trans hrq')
  have hmem := List.mem_of_getElem? hrq
  have hans := hw.told n j hj hsettled
  cases hst : rq.stage with
  | reading => simp [hst, Linked] at hlinked
  | refused => simp [hst, Linked] at hlinked
  | reserved c' => simp [hst, Linked] at hlinked
  | waiting c' k' t =>
    rw [hst] at hlinked
    exact absurd hlinked.2 hans
  | answered c' t a t' =>
    have hany : p.finalising = true := by
      refine List.any_eq_true.mpr ⟨rq, hmem, ?_⟩
      rw [hst]
    rw [hany] at hfinalising
    cases hfinalising
  | done c' a =>
    rw [hst] at hc
    obtain rfl : c' = c := Option.some.inj hc
    exact hw.closed rq hmem c' a hst r hr hid

/-- What holds of a process: the invariant of its world, and nothing open
once it has drained. -/
structure Drained (p : Process) : Prop where
  inv : ∃ done, DrainInv p.world done
  exit : p.exited = some true → NothingOpen p

theorem drained_poll (hp : Drained p) (hin : p.inTime driver .poll = true) (h : p.poll driver = some p') :
    Drained p' := by
  unfold poll at h
  split at h
  · cases h
  · split_ifs at h with hmicro hdepth hbound
    · obtain rfl := Option.some.inj h
      obtain ⟨done, hw⟩ := hp.inv
      refine ⟨⟨done, hw⟩, fun _ => nothingOpen_of_empty hw hdepth ?_⟩
      simp only [microtasks, Bool.or_eq_true, Bool.and_eq_true, beq_iff_eq, not_or, not_and] at hmicro
      simp only [inTime, Bool.or_eq_true, beq_iff_eq, decide_eq_true_eq, Bool.not_eq_true'] at hin
      rcases hin with (hsqlite | hpos) | hnone
      · exact Bool.eq_false_iff.mpr (hmicro.2 hsqlite)
      · exact absurd hpos (not_lt.mpr hdepth)
      · exact hnone
    · obtain rfl := Option.some.inj h
      exact ⟨hp.inv, fun hexit => by cases hexit⟩
    · obtain rfl := Option.some.inj h
      exact hp

theorem drained_step {ev : ProcessEvent} (hp : Drained p) (h : p.inTimeStep cfg driver boundMs ev = some p') :
    Drained p' := by
  unfold inTimeStep at h
  split at h
  · rename_i hin
    unfold step at h
    split at h
    · cases h
    · rename_i hrunning
      have hopen : p.exited ≠ some true := by
        intro hexit
        rw [hexit] at hrunning
        exact hrunning rfl
      cases ev with
      | world ev =>
        simp only at h
        split at h
        · obtain ⟨w, hw, rfl⟩ := Option.map_eq_some_iff.mp h
          exact ⟨drainInv_step hp.inv hin hw, fun hexit => absurd hexit hopen⟩
        · obtain rfl := Option.some.inj h
          exact hp
      | signal =>
        obtain rfl := Option.some.inj h
        exact ⟨hp.inv, fun hexit => absurd hexit hopen⟩
      | poll => exact drained_poll hp hin h
  · cases h

theorem drained_init (cfg : FaucetConfig) (clockMs : ℚ) : Drained (.init cfg clockMs) :=
  ⟨⟨_, drainInv_init cfg clockMs⟩, fun hexit => by cases hexit⟩

/-- **A drain that resolves true leaves no claim open**, in every run in
which no finalise fails and, on D1, none is on its way when the queues
are found empty. -/
theorem drain_leaves_nothing_open {cfg : FaucetConfig} {driver : Driver} {boundMs clockMs : ℚ}
    {es : List ProcessEvent} {p : Process}
    (h : run (Process.inTimeStep cfg driver boundMs) (.init cfg clockMs) es = some p)
    (hexit : p.exited = some true) : NothingOpen p :=
  (run_invariant Drained (fun _ _ _ => drained_step) (drained_init cfg clockMs) h).exit hexit

end Exit

/-- The statuses of the rows whose send has started. -/
def openSends (p : Process) : List ClaimStatus :=
  [FaucetNetwork.taz, FaucetNetwork.ctaz].flatMap fun n => (p.world.queues n).jobs.flatMap fun j =>
    if j.startedAt.isSome then
      (((j.task.bind fun i => p.world.requests[i]?).bind fun rq => rq.stage.claimId?).toList).flatMap fun c =>
        (p.world.books.ledger.claims.filter (·.id = c)).map ClaimRow.status
    else []

theorem not_nothingOpen {p : Process} (h : .pending ∈ openSends p) : ¬ NothingOpen p := by
  intro hnothing
  obtain ⟨n, -, hn⟩ := List.mem_flatMap.mp h
  obtain ⟨j, hj, hjob⟩ := List.mem_flatMap.mp hn
  split at hjob
  · rename_i hstarted
    obtain ⟨c, hc, hrows⟩ := List.mem_flatMap.mp hjob
    obtain ⟨rq, hrq, hclaim⟩ := Option.bind_eq_some_iff.mp (Option.mem_toList.mp hc)
    obtain ⟨i, htask, hi⟩ := Option.bind_eq_some_iff.mp hrq
    obtain ⟨r, hr, hpending⟩ := List.mem_map.mp hrows
    obtain ⟨hmem, hid⟩ := List.mem_filter.mp hr
    exact hnothing n j i rq c hj hstarted htask hi hclaim r hmem (of_decide_eq_true hid) hpending
  · cases hjob

/-- On SQLite: one claim is being sent when the signal arrives, one is
refused, and one that was past the check joins the queue late. -/
def lateClaim : List ProcessEvent :=
  [.world (.arrive (stockRequest "a")), .world (.arrive (stockRequest "b")), .world (.reserve 0),
    .world (.enqueue 0), .world (.start .taz 0), .signal, .poll, .world (.arrive (stockRequest "c")),
    .world (.tick 250), .poll, .world (.reserve 1), .world (.enqueue 1),
    .world (.settle .taz 0 (.ok ⟨some (.text (js "t")), none, none⟩)), .world (.record 0),
    .world (.start .taz 1), .world (.tick 250), .poll,
    .world (.settle .taz 1 (.error (.plain []))), .world (.record 1), .world (.tick 250), .poll]

theorem drain_leaves_nothing_open_lateClaim :
    ∃ p, run (Process.inTimeStep stockFaucet .sqlite 40000) (.init stockFaucet 1800000000000) lateClaim =
      some p ∧ p.exited = some true ∧
        p.world.books.ledger.claims.map ClaimRow.status = [.failed, .sent] ∧ NothingOpen p := by
  have hview : (run (Process.inTimeStep stockFaucet .sqlite 40000) (.init stockFaucet 1800000000000)
      lateClaim).map (fun p => (p.exited, p.world.books.ledger.claims.map ClaimRow.status)) =
        some (some true, [.failed, .sent]) := by
    decide +kernel
  obtain ⟨p, hp, hremains⟩ := Option.map_eq_some_iff.mp hview
  obtain ⟨hexit, hstatus⟩ := Prod.mk.inj hremains
  exact ⟨p, hp, hexit, hstatus, drain_leaves_nothing_open hp hexit⟩

/-- On D1: the send settles, the finalise is a request on its way, and
the next look finds the queues empty. -/
def finaliseOnItsWay : List ProcessEvent :=
  [.world (.arrive (stockRequest "a")), .world (.reserve 0), .world (.enqueue 0), .world (.start .taz 0),
    .signal, .poll, .world (.tick 200), .world (.settle .taz 0 (.ok ⟨some (.text (js "t")), none, none⟩)),
    .world (.tick 50), .poll]

theorem drain_leaves_open_finaliseOnItsWay :
    ∃ p, run (Process.step stockFaucet .d1 40000) (.init stockFaucet 1800000000000) finaliseOnItsWay =
      some p ∧ p.exited = some true ∧ ¬ NothingOpen p := by
  have hview : (run (Process.step stockFaucet .d1 40000) (.init stockFaucet 1800000000000)
      finaliseOnItsWay).map (fun p => (p.exited, openSends p)) = some (some true, [.pending]) := by
    decide +kernel
  obtain ⟨p, hp, hremains⟩ := Option.map_eq_some_iff.mp hview
  obtain ⟨hexit, hopen⟩ := Prod.mk.inj hremains
  exact ⟨p, hp, hexit, not_nothingOpen (by rw [hopen]; exact List.mem_singleton.mpr rfl)⟩

end Process

end ZcashFaucet.System
