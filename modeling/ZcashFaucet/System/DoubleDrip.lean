/-
ZcashFaucet.System.DoubleDrip — no address is paid twice inside one
cooldown.

The two halves are already there. `WorldInvariant` keeps every row whose
outcome is not recorded inside its lease, so a claim whose send may have
moved money is 'sent', or pending and still counted: it may pay
(`mayPay_of_moved`). The ledger's address limit stands over the rows that
may pay, so of two such rows the newer one was admitted when the older
was at least a cooldown old (`Limit.Standing.not_counts_of_near`).

All of it on condition that a send which resolves carries its txid. Of one
that does not, nothing is recorded, and once its lease is out the address
is paid again (`no_double_drip_paidAgain`).
-/
import ZcashFaucet.System.WorldInvariant

namespace ZcashFaucet.System

open Lib Db Zcash Api

/-- The task was called, and was not reported as a plain failure. -/
def jobMayHaveMoved (j : Job (Option Nat) Settlement) : Bool :=
  match j.phase with
  | .queued => false
  | .running _ => true
  | .settled _ out => !plainFailure out

/-- The send of a claim may have moved money. -/
def World.moved (w : World) (claimId : Nat) : Bool :=
  [FaucetNetwork.taz, FaucetNetwork.ctaz].any fun n => (w.queues n).jobs.any fun j =>
    jobMayHaveMoved j &&
      (j.task.bind fun i => w.requests[i]?).any fun rq => rq.stage.claimId? == some claimId

theorem moved_eq_true {w : World} {claimId : Nat} (h : w.moved claimId = true) :
    ∃ (n : FaucetNetwork) (k : Nat) (j : Job (Option Nat) Settlement) (i : Nat) (rq : Request),
      (w.queues n).jobs[k]? = some j ∧ jobMayHaveMoved j = true ∧ j.task = some i ∧
        w.requests[i]? = some rq ∧ rq.stage.claimId? = some claimId := by
  obtain ⟨n, -, hn⟩ := List.any_eq_true.mp h
  obtain ⟨j, hj, hjob⟩ := List.any_eq_true.mp hn
  obtain ⟨k, hk⟩ := List.mem_iff_getElem?.mp hj
  rw [Bool.and_eq_true] at hjob
  obtain ⟨hmoved, hreq⟩ := hjob
  cases htask : j.task with
  | none => simp [htask] at hreq
  | some i =>
    cases hrq : w.requests[i]? with
    | none => simp [htask, hrq] at hreq
    | some rq => exact ⟨n, k, j, i, rq, hk, hmoved, htask, hrq, by simpa [htask, hrq] using hreq⟩

section

variable {cfg : FaucetConfig} {w : World} {done : FaucetNetwork → Nat}

/-- A request that recorded a send that may have moved money recorded it
as 'sent'. -/
theorem rowStatus_of_moved (hw : WorldInv cfg w done) {n : FaucetNetwork} {k c : Nat}
    {j : Job (Option Nat) Settlement} {a : Answer Settlement} (hj : (w.queues n).jobs[k]? = some j)
    (hmoved : jobMayHaveMoved j = true) (hl : Linked j k (.done c a)) (senderName : String) :
    (Stage.done c a).rowStatus senderName = .sent := by
  have hmem := List.mem_of_getElem? hj
  simp only [Stage.rowStatus]
  cases hs : (finalizeArgs senderName a).status with
  | sent => rfl
  | failed =>
    exfalso
    rcases (finalizeArgs_status senderName a).mp hs with rfl | ⟨out, rfl, hout⟩
    · exact (hw.queue n).admitted j hmem hl
    · obtain ⟨s, hp⟩ := (hw.queue n).own j hmem out hl
      simp [jobMayHaveMoved, hp, hout] at hmoved

/-- The row of a send that may have moved money may pay. -/
theorem mayPay_of_moved (hw : WorldInv cfg w done) (hpunctual : w.punctual cfg = true) {e : Entry}
    (he : e ∈ w.books.archive) (hmoved : w.moved e.row.id = true) :
    mayPay cfg.ledger w.clockMs e = true := by
  obtain ⟨n, k, j, i, rq, hj, hjob, htask, hrq, hclaim⟩ := moved_eq_true hmoved
  obtain ⟨e', he', hrow⟩ := hw.rows.row i rq _ hrq hclaim
  obtain rfl := hw.ledger.ids.eq_of_id he he' hrow.id.symm
  obtain ⟨rq', hrq', -, hl⟩ := hw.link n k i j hj htask
  obtain rfl : rq = rq' := Option.some.inj (hrq.symm.trans hrq')
  rw [mayPay_eq_true]
  have hpending : rq.stage.inFlight = true → rq.stage.rowStatus (cfg.senderName rq.req.network) =
      .pending → e.row.status = .pending ∧ insideLease cfg.ledger w.clockMs e.row := fun hfl hst =>
    ⟨hrow.status.trans hst, insideLease_of_inFlight hw hpunctual hrq hfl hrow.createdAt⟩
  cases hst : rq.stage with
  | reading => simp [hst, Linked] at hl
  | refused => simp [hst, Linked] at hl
  | reserved c => simp [hst, Linked] at hl
  | waiting c k' t => exact Or.inr (hpending (by rw [hst]; rfl) (by rw [hst]; rfl))
  | answered c t a t' => exact Or.inr (hpending (by rw [hst]; rfl) (by rw [hst]; rfl))
  | done c a =>
    rw [hst] at hl
    refine Or.inl (hrow.status.trans ?_)
    rw [hst]
    exact rowStatus_of_moved hw hj hjob hl _

/-- Two entries of the archive: one of them is below the other. -/
theorem below_or_below {e e' : Entry} {l : List Entry} (he : e ∈ l) (he' : e' ∈ l) (hne : e ≠ e') :
    (∃ post pre, l = post ++ e :: pre ∧ e' ∈ pre) ∨ ∃ post pre, l = post ++ e' :: pre ∧ e ∈ pre := by
  obtain ⟨post, pre, rfl⟩ := List.append_of_mem he
  rcases List.mem_append.mp he' with hpost | hpre
  · obtain ⟨a, b, rfl⟩ := List.append_of_mem hpost
    exact Or.inr ⟨a, b ++ e :: pre, by simp, by simp⟩
  · rcases List.mem_cons.mp hpre with h | hpre
    · exact absurd h.symm hne
    · exact Or.inl ⟨post, pre, rfl, hpre⟩

/-- The newer of two rows of one address that may pay is a cooldown
younger. -/
theorem cooldown_le_of_below (hw : WorldInv cfg w done) {x a : Entry} {post pre : List Entry}
    (harchive : w.books.archive = post ++ x :: pre) (ha : a ∈ pre)
    (haddress : x.row.addressHash = a.row.addressHash) (hnetwork : x.row.network = a.row.network)
    (hpay : mayPay cfg.ledger w.clockMs a = true) :
    cfg.ledger.cooldownSeconds ≤ x.row.createdAt - a.row.createdAt := by
  by_contra hlt
  have hstand := hw.ledger.inv.limits _ (.address x.row.addressHash x.row.network)
  rw [harchive] at hstand
  have hselx : forAddress x.row.addressHash x.row.network x.row.key = true := by
    simp [forAddress, ClaimRow.key]
  have hsela : forAddress x.row.addressHash x.row.network a.row.key = true := by
    simp [forAddress, ClaimRow.key, haddress, hnetwork]
  have hwin : inCooldown cfg.ledger x.row.createdAt a.row.createdAt = true := by
    simp only [inCooldown, decide_eq_true_eq]
    linarith
  have hno := hstand.not_counts_of_near (x := x) (a := a)
    (by simp [addressLimit, keyLimit, hselx, hsela])
    (by simp [addressLimit, keyLimit, hselx, hsela, hwin]) ha
  have hpay' : mayPay cfg.ledger w.books.clockMs a = true := hpay
  simp [hpay'] at hno

/-- A row whose outcome is not recorded is in the table, pending, and
blocks its address. -/
theorem blocking_of_inFlight (hw : WorldInv cfg w done) (hpunctual : w.punctual cfg = true) {i : Nat}
    {rq : Request} {c : Nat} (hrq : w.requests[i]? = some rq) (hfl : rq.stage.inFlight = true)
    (hc : rq.stage.claimId? = some c) :
    ∃ r ∈ w.books.ledger.claims, r.id = c ∧ r.status = .pending ∧
      ∀ (req : ClaimRequest) (now : ℚ), now * 1000 ≤ w.clockMs → req.network = rq.req.network →
        cfg.ledger.fingerprintAddress req.address = cfg.ledger.fingerprintAddress rq.req.address →
          reserveAllowed (reserveClaimParams cfg.ledger (req.opts cfg.ledger now))
            w.books.ledger.claims = false := by
  obtain ⟨e, he, hrow⟩ := hw.rows.row i rq c hrq hc
  have hinside := insideLease_of_inFlight hw hpunctual hrq hfl hrow.createdAt
  have hstatus : e.row.status = .pending := by
    rw [hrow.status]
    cases hst : rq.stage with
    | done c' a => simp [hst, Stage.inFlight] at hfl
    | _ => rfl
  have hkept : e.kept = true := by
    cases hk : e.kept with
    | true => rfl
    | false =>
      obtain ⟨m, hm, hold⟩ := hw.ledger.inv.gone e he hk
      have hseen : m * 1000 ≤ w.clockMs := hw.ledger.seen m hm
      have hmax : (cfg.ledger.pendingLease : ℚ) + 3600 ≤ retention cfg.ledger := by
        unfold retention
        have h1 : (cfg.ledger.pendingLease : ℚ) ≤
            max cfg.ledger.cooldownSeconds (max 86400 (cfg.ledger.pendingLease : ℚ)) :=
          le_trans (le_max_right _ _) (le_max_right _ _)
        linarith
      unfold insideLease at hinside
      linarith
  have hmem : e.row ∈ w.books.ledger.claims := by
    rw [hw.ledger.inv.table]
    exact List.mem_map_of_mem (List.mem_filter.mpr ⟨he, hkept⟩)
  refine ⟨e.row, hmem, hrow.id, hstatus, fun req now hnow hnetwork haddress => ?_⟩
  have hlive : e.row.liveAfter (now - cfg.ledger.cooldownSeconds) (now - cfg.ledger.pendingLease) =
      true := by
    have hlt : now - cfg.ledger.pendingLease < e.row.createdAt := by
      unfold insideLease at hinside
      linarith
    simp [ClaimRow.liveAfter, hstatus, hlt]
  have hblocked : addressClear (reserveClaimParams cfg.ledger (req.opts cfg.ledger now))
      w.books.ledger.claims = false := by
    rw [addressClear, Bool.not_eq_false', List.any_eq_true]
    refine ⟨e.row, hmem, ?_⟩
    have h1 : e.row.addressHash = cfg.ledger.fingerprintAddress req.address :=
      hrow.addressHash.trans haddress.symm
    have h2 : e.row.network = req.network := hrow.network.trans hnetwork.symm
    simp only [reserveClaimParams, reserveParams, ClaimRequest.opts, h1, h2, beq_self_eq_true,
      Bool.true_and]
    exact hlive
  simp [reserveAllowed, hblocked]

end

/-- No two sends of one address on one network that may have moved money
belong to rows less than a cooldown apart, and a claim whose outcome is
not recorded blocks its address. -/
structure NoDoubleDrip (cfg : FaucetConfig) (w : World) : Prop where
  apart : ∀ e ∈ w.books.archive, ∀ e' ∈ w.books.archive, e.row.id ≠ e'.row.id →
    e.row.addressHash = e'.row.addressHash → e.row.network = e'.row.network →
      w.moved e.row.id = true → w.moved e'.row.id = true →
        cfg.ledger.cooldownSeconds ≤ |e.row.createdAt - e'.row.createdAt|
  blocking : ∀ (i : Nat) (rq : Request) (c : Nat), w.requests[i]? = some rq →
    rq.stage.inFlight = true → rq.stage.claimId? = some c →
      ∃ r ∈ w.books.ledger.claims, r.id = c ∧ r.status = .pending ∧
        ∀ (req : ClaimRequest) (now : ℚ), now * 1000 ≤ w.clockMs → req.network = rq.req.network →
          cfg.ledger.fingerprintAddress req.address = cfg.ledger.fingerprintAddress rq.req.address →
            reserveAllowed (reserveClaimParams cfg.ledger (req.opts cfg.ledger now))
              w.books.ledger.claims = false

/-- **No double drip**, in every state a punctual process reaches whose
sends carry their txids. -/
theorem no_double_drip {cfg : FaucetConfig} {clockMs : ℚ} {es : List WorldEvent} {w : World}
    (h : run (World.carriedStep cfg) (.init cfg clockMs) es = some w) : NoDoubleDrip cfg w := by
  obtain ⟨hpunctual, ⟨done, hw⟩, -⟩ := sound_run h
  refine ⟨?_, fun i rq c hrq hfl hc => blocking_of_inFlight hw hpunctual hrq hfl hc⟩
  intro e he e' he' hid haddress hnetwork hmoved hmoved'
  have hne : e ≠ e' := fun heq => hid (heq ▸ rfl)
  rcases below_or_below he he' hne with ⟨post, pre, harchive, hbelow⟩ | ⟨post, pre, harchive, hbelow⟩
  · have hle := cooldown_le_of_below hw harchive hbelow haddress hnetwork
      (mayPay_of_moved hw hpunctual he' hmoved')
    exact le_trans hle (le_abs_self _)
  · have hle := cooldown_le_of_below hw harchive hbelow haddress.symm hnetwork.symm
      (mayPay_of_moved hw hpunctual he hmoved)
    rw [abs_sub_comm]
    exact le_trans hle (le_abs_self _)

def stockFaucet : FaucetConfig where
  ledger := stockConfig
  sendTaskDeadlineMs := 309000
  senderName
    | .taz => "zallet"
    | .ctaz => "crosslink"

/-- A claim waits behind another task and is paid; a retry is refused; a
day later the address is being paid again. -/
def twoDrips : List WorldEvent :=
  [.other .taz 0, .start .taz 0, .arrive (stockRequest "a"), .purge 0, .reserve 0, .tick 2000,
    .enqueue 0, .tick 300000, .settle .taz 0 (.error (.plain [])), .start .taz 1,
    .arrive (stockRequest "a"), .reserve 1, .tick 200000,
    .settle .taz 1 (.ok ⟨some (.text (js "t")), none, none⟩), .tick 3000, .record 0, .tick 86400000,
    .arrive (stockRequest "a"), .reserve 2, .enqueue 2, .start .taz 2, .tick 1000]

theorem no_double_drip_twoDrips :
    ∃ w, run (World.carriedStep stockFaucet) (.init stockFaucet 1800000000000) twoDrips = some w ∧
      w.moved 1 = true ∧ w.moved 2 = true ∧ NoDoubleDrip stockFaucet w := by
  have hview : (run (World.carriedStep stockFaucet) (.init stockFaucet 1800000000000) twoDrips).map
      (fun w => (w.moved 1, w.moved 2)) = some (true, true) := by decide +kernel
  obtain ⟨w, hw, hmoved⟩ := Option.map_eq_some_iff.mp hview
  obtain ⟨h1, h2⟩ := Prod.mk.inj hmoved
  exact ⟨w, hw, h1, h2, no_double_drip hw⟩

/-! ## A send without a txid -/

/-- The stock configuration in real mode. -/
def realFaucet : FaucetConfig :=
  { stockFaucet with senderName := fun
      | .taz => "t2z"
      | .ctaz => "crosslink" }

/-- A send resolves with the empty text for its txid, the finalise throws,
and the row outlives its lease: the address is paid again two hours
later. -/
def paidAgain : List WorldEvent :=
  [.arrive (stockRequest "a"), .reserve 0, .enqueue 0, .start .taz 0, .tick 1000,
    .settle .taz 0 (.ok ⟨some (.text []), none, none⟩), .recordThrew 0, .tick 7200000,
    .arrive (stockRequest "a"), .reserve 1, .enqueue 1, .start .taz 1, .tick 1000]

theorem no_double_drip_paidAgain :
    ¬ ∀ (cfg : FaucetConfig) (clockMs : ℚ) (es : List WorldEvent) (w : World),
      run (World.punctualStep cfg) (.init cfg clockMs) es = some w → NoDoubleDrip cfg w := by
  intro hall
  have hview : (run (World.punctualStep realFaucet) (.init realFaucet 1800000000000) paidAgain).map
      (fun w => w.moved 1 && w.moved 2 && w.books.archive.any fun e => w.books.archive.any fun e' =>
        decide (e.row.id = 1 ∧ e'.row.id = 2 ∧ e.row.addressHash = e'.row.addressHash ∧
          e.row.network = e'.row.network ∧ e'.row.createdAt - e.row.createdAt = 7201)) = some true := by
    decide +kernel
  obtain ⟨w, hw, hpaid⟩ := Option.map_eq_some_iff.mp hview
  simp only [Bool.and_eq_true, List.any_eq_true, decide_eq_true_eq] at hpaid
  obtain ⟨⟨h1, h2⟩, e, he, e', he', hid, hid', haddress, hnetwork, hgap⟩ := hpaid
  have hapart := (hall _ _ _ w hw).apart e he e' he' (by omega) haddress hnetwork
    (hid ▸ h1) (hid' ▸ h2)
  rw [abs_sub_comm, hgap] at hapart
  norm_num [realFaucet, stockFaucet, stockConfig] at hapart

end ZcashFaucet.System
