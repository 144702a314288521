/-
ZcashFaucet.Zcash.T2zWorker — the client of the proving worker: `getWorker`,
`fail` and `call` of `zcash/t2z.ts`.

Workers are numbered in the order they are spawned, calls by their id. A
worker that throws is heard of twice, by its `error` and then by its
`exit`, and both handlers fail whatever is pending and forget the current
worker, whichever that is by then. In between, a call spawns the next
worker, and the exit of the old one is a failure of the new
(`t2z_failures_kept_apart`).

`phase`, `postedTo` and `settled` are not variables of the code: they say
what became of each worker and each call.
-/
import ZcashFaucet.Lib.Run
import Mathlib.Data.List.Nodup
import Mathlib.Data.Nat.Basic
import Mathlib.Logic.Function.Basic
import Mathlib.Order.Basic

namespace ZcashFaucet.Zcash

open Lib

/-- How a call settled: with a reply of a worker, or with its failure. -/
inductive JobOutcome
  | reply (worker : Nat) (ok : Bool)
  | failure (worker : Nat)
  deriving DecidableEq

def JobOutcome.worker : JobOutcome → Nat
  | .reply w _ => w
  | .failure w => w

inductive WorkerPhase
  | running
  | failed
  | gone
  deriving DecidableEq

structure T2zClient where
  /-- `worker` -/
  current : Option Nat
  spawned : Nat
  seq : Nat
  pending : List Nat
  phase : Nat → WorkerPhase
  postedTo : Nat → Option Nat
  settled : List (Nat × JobOutcome)

def T2zClient.start : T2zClient := ⟨none, 0, 0, [], fun _ => .running, fun _ => none, []⟩

inductive T2zEvent
  | call
  | message (worker id : Nat) (ok : Bool)
  | error (worker : Nat)
  | exit (worker : Nat)
  deriving DecidableEq

namespace T2zClient

/-- `getWorker`. -/
def getWorker (s : T2zClient) : Nat × T2zClient :=
  match s.current with
  | some w => (w, s)
  | none => (s.spawned, { s with current := some s.spawned, spawned := s.spawned + 1 })

/-- A job under the next id, posted to worker `w`. -/
def post (w : Nat) (s : T2zClient) : T2zClient :=
  { s with
    seq := s.seq + 1
    pending := s.pending ++ [s.seq + 1]
    postedTo := Function.update s.postedTo (s.seq + 1) (some w) }

/-- `call`. -/
def call (s : T2zClient) : T2zClient := s.getWorker.2.post s.getWorker.1

/-- The `message` handler of worker `w`. -/
def message (w id : Nat) (ok : Bool) (s : T2zClient) : T2zClient :=
  if id ∈ s.pending then
    { s with
      pending := s.pending.erase id
      settled := s.settled ++ [(id, .reply w ok)] }
  else s

/-- `fail`, of worker `w`. -/
def fail (w : Nat) (s : T2zClient) : T2zClient :=
  { s with
    settled := s.settled ++ s.pending.map fun id => (id, .failure w)
    pending := []
    current := none }

def mark (w : Nat) (p : WorkerPhase) (s : T2zClient) : T2zClient := { s with phase := Function.update s.phase w p }

/-- A worker answers the jobs that were posted to it, with their ids, until
it is gone. It may throw while it runs, and goes once. -/
def step (s : T2zClient) : T2zEvent → Option T2zClient
  | .call => some s.call
  | .message w id ok => if s.postedTo id = some w ∧ s.phase w ≠ .gone then some (s.message w id ok) else none
  | .error w => if w < s.spawned ∧ s.phase w = .running then some ((s.mark w .failed).fail w) else none
  | .exit w => if w < s.spawned ∧ s.phase w ≠ .gone then some ((s.mark w .gone).fail w) else none

/-- Each call settles once, by the worker it was posted to; a worker that
runs is the current one, and a call it has not settled can hear from it. -/
structure KeptApart (s : T2zClient) : Prop where
  once : (s.settled.map Prod.fst).Nodup
  own : ∀ x ∈ s.settled, s.postedTo x.1 = some x.2.worker
  keeps : ∀ w < s.spawned, s.phase w = .running → s.current = some w
  hears : ∀ id w, s.postedTo id = some w → id ∉ s.settled.map Prod.fst → id ∈ s.pending

/-- An exit that comes when a later worker is the current one. -/
def StrayExit (s : T2zClient) : T2zEvent → Prop
  | .exit w => s.current.isSome = true ∧ s.current ≠ some w
  | _ => False

instance (s : T2zClient) : (e : T2zEvent) → Decidable (s.StrayExit e)
  | .exit _ => inferInstanceAs (Decidable (_ ∧ _))
  | .call => inferInstanceAs (Decidable False)
  | .message _ _ _ => inferInstanceAs (Decidable False)
  | .error _ => inferInstanceAs (Decidable False)

/-- The step, but for stray exits. -/
def cleanStep (s : T2zClient) (e : T2zEvent) : Option T2zClient := if s.StrayExit e then none else s.step e

/-! ## The invariant -/

structure Inv (s : T2zClient) : Prop extends KeptApart s where
  live : ∀ w, s.current = some w → w < s.spawned ∧ s.phase w = .running
  numbered : ∀ id w, s.postedTo id = some w → id ≤ s.seq
  nodup : s.pending.Nodup
  unsettled : ∀ id ∈ s.pending, id ∉ s.settled.map Prod.fst
  posted : ∀ id ∈ s.pending, s.current.isSome = true ∧ s.postedTo id = s.current
  unspawned : ∀ w, s.spawned ≤ w → s.phase w = .running

theorem Inv.start : Inv .start where
  once := List.nodup_nil
  own _ hx := by cases hx
  keeps _ hw := by cases hw
  hears _ _ h := by cases h
  live _ h := by cases h
  numbered _ _ h := by cases h
  nodup := List.nodup_nil
  unsettled _ h := by cases h
  posted _ h := by cases h
  unspawned _ _ := rfl

theorem Inv.getWorker {s : T2zClient} (h : Inv s) :
    Inv s.getWorker.2 ∧ s.getWorker.2.current = some s.getWorker.1 := by
  unfold T2zClient.getWorker
  cases hcur : s.current with
  | some w => exact ⟨h, hcur⟩
  | none =>
      have hpending : s.pending = [] := List.eq_nil_iff_forall_not_mem.mpr fun id hid => by
        have hsome := (h.posted id hid).1
        rw [hcur] at hsome
        cases hsome
      refine ⟨{ h with keeps := ?_, live := ?_, posted := ?_, unspawned := ?_ }, rfl⟩
      · intro w hw hrun
        rcases Nat.lt_succ_iff_lt_or_eq.mp hw with hold | rfl
        · have hother := h.keeps w hold hrun
          rw [hcur] at hother
          cases hother
        · rfl
      · rintro w hw
        cases hw
        exact ⟨Nat.lt_succ_self _, h.unspawned _ le_rfl⟩
      · intro id hid
        rw [hpending] at hid
        cases hid
      · exact fun w hw => h.unspawned w (Nat.le_of_succ_le hw)

theorem Inv.post {s : T2zClient} (h : Inv s) {w : Nat} (hcur : s.current = some w) : Inv (s.post w) := by
  have hnew : s.postedTo (s.seq + 1) = none := by
    by_contra hsome
    obtain ⟨v, hv⟩ := Option.ne_none_iff_exists'.mp hsome
    exact absurd (h.numbered _ v hv) (Nat.not_succ_le_self _)
  have hfresh : s.seq + 1 ∉ s.settled.map Prod.fst := fun hmem => by
    obtain ⟨x, hx, hid⟩ := List.mem_map.mp hmem
    have hown := h.own x hx
    rw [hid, hnew] at hown
    cases hown
  have hunheld : s.seq + 1 ∉ s.pending := fun hmem => by
    have hposted := (h.posted _ hmem).2
    rw [hnew, hcur] at hposted
    cases hposted
  have hother : ∀ id, id ≠ s.seq + 1 → (s.post w).postedTo id = s.postedTo id := fun id hid =>
    Function.update_of_ne hid _ _
  have hself : (s.post w).postedTo (s.seq + 1) = some w := Function.update_self _ _ _
  refine { h with own := ?_, hears := ?_, numbered := ?_, nodup := ?_, unsettled := ?_, posted := ?_ }
  · intro x hx
    rw [hother x.1 fun heq => hfresh (heq ▸ List.mem_map_of_mem hx)]
    exact h.own x hx
  · intro id v hv hunsettled
    by_cases hid : id = s.seq + 1
    · exact List.mem_append_right _ (List.mem_singleton.mpr hid)
    · rw [hother id hid] at hv
      exact List.mem_append_left _ (h.hears id v hv hunsettled)
  · intro id v hv
    by_cases hid : id = s.seq + 1
    · exact hid.le
    · rw [hother id hid] at hv
      exact Nat.le_succ_of_le (h.numbered id v hv)
  · exact List.nodup_append.mpr ⟨h.nodup, List.nodup_singleton _, fun a ha b hb hab =>
      hunheld (List.mem_singleton.mp hb ▸ hab ▸ ha)⟩
  · intro id hid
    rcases List.mem_append.mp hid with hold | hlast
    · exact h.unsettled id hold
    · rw [List.mem_singleton.mp hlast]
      exact hfresh
  · intro id hid
    refine ⟨(congrArg Option.isSome hcur).trans rfl, ?_⟩
    rcases List.mem_append.mp hid with hold | hlast
    · rw [hother id fun heq => hunheld (heq ▸ hold)]
      exact (h.posted id hold).2
    · rw [List.mem_singleton.mp hlast, hself]
      exact hcur.symm

theorem Inv.call {s : T2zClient} (h : Inv s) : Inv s.call := (h.getWorker.1).post h.getWorker.2

/-- A reply settles the job, if nothing has settled it yet. -/
theorem Inv.message {s : T2zClient} (h : Inv s) {w id : Nat} (hposted : s.postedTo id = some w) (ok : Bool) :
    Inv (s.message w id ok) := by
  unfold T2zClient.message
  split
  case isFalse => exact h
  case isTrue hpending =>
    have hids : (s.settled ++ [(id, JobOutcome.reply w ok)]).map Prod.fst = s.settled.map Prod.fst ++ [id] := by
      rw [List.map_append, List.map_singleton]
    have herase : ∀ j, j ∈ s.pending.erase id ↔ j ≠ id ∧ j ∈ s.pending := fun j => h.nodup.mem_erase_iff
    refine { h with once := ?_, own := ?_, hears := ?_, nodup := h.nodup.erase id, unsettled := ?_, posted := ?_ }
    · rw [hids]
      exact List.nodup_append.mpr ⟨h.once, List.nodup_singleton _, fun a ha b hb hab =>
        h.unsettled id hpending (List.mem_singleton.mp hb ▸ hab ▸ ha)⟩
    · intro x hx
      rcases List.mem_append.mp hx with hold | hlast
      · exact h.own x hold
      · rw [List.mem_singleton.mp hlast]
        exact hposted
    · intro j v hv hunsettled
      rw [hids, List.mem_append, not_or, List.mem_singleton] at hunsettled
      exact (herase j).mpr ⟨hunsettled.2, h.hears j v hv hunsettled.1⟩
    · intro j hj
      rw [hids, List.mem_append, not_or, List.mem_singleton]
      exact ⟨h.unsettled j ((herase j).mp hj).2, ((herase j).mp hj).1⟩
    · exact fun j hj => h.posted j ((herase j).mp hj).2

/-- The failure of the current worker, or of one with none after it. -/
theorem Inv.fail {s : T2zClient} (h : Inv s) {w : Nat} {p : WorkerPhase} (hspawned : w < s.spawned)
    (hdown : p ≠ .running) (hcur : s.current = none ∨ s.current = some w) : Inv ((s.mark w p).fail w) := by
  have hids : (s.pending.map fun id => (id, JobOutcome.failure w)).map Prod.fst = s.pending := by
    rw [List.map_map]
    exact List.map_id _
  have hall : ((s.mark w p).fail w).settled.map Prod.fst = s.settled.map Prod.fst ++ s.pending := by
    show (s.settled ++ s.pending.map fun id => (id, JobOutcome.failure w)).map Prod.fst = _
    rw [List.map_append, hids]
  have hphase : ∀ v, ((s.mark w p).fail w).phase v = .running → v ≠ w ∧ s.phase v = .running := by
    intro v hv
    by_cases hvw : v = w
    · subst hvw
      rw [show ((s.mark v p).fail v).phase v = p from Function.update_self _ _ _] at hv
      exact absurd hv hdown
    · rw [show ((s.mark w p).fail w).phase v = s.phase v from Function.update_of_ne hvw _ _] at hv
      exact ⟨hvw, hv⟩
  refine { h with
    once := ?_, own := ?_, keeps := ?_, hears := ?_, live := ?_, nodup := List.nodup_nil, unsettled := ?_,
    posted := ?_, unspawned := ?_ }
  · rw [hall]
    exact List.nodup_append.mpr ⟨h.once, h.nodup, fun a ha b hb hab => h.unsettled b hb (hab ▸ ha)⟩
  · intro x hx
    rcases List.mem_append.mp hx with hold | hfailed
    · exact h.own x hold
    · obtain ⟨id, hid, rfl⟩ := List.mem_map.mp hfailed
      obtain ⟨hsome, hposted⟩ := h.posted id hid
      rcases hcur with hnone | hself
      · rw [hnone] at hsome
        cases hsome
      · exact hposted.trans hself
  · intro v hv hrun
    obtain ⟨hvw, hold⟩ := hphase v hrun
    have hother := h.keeps v hv hold
    rcases hcur with hnone | hself
    · rw [hnone] at hother
      cases hother
    · exact absurd (Option.some.inj (hother.symm.trans hself)) hvw
  · intro id v hv hunsettled
    rw [hall, List.mem_append, not_or] at hunsettled
    exact absurd (h.hears id v hv hunsettled.1) hunsettled.2
  · intro v hv
    cases hv
  · intro id hid
    cases hid
  · intro id hid
    cases hid
  · intro v hv
    have hvw : v ≠ w := fun heq => absurd hspawned (not_lt.mpr (heq ▸ hv))
    rw [show ((s.mark w p).fail w).phase v = s.phase v from Function.update_of_ne hvw _ _]
    exact h.unspawned v hv

theorem Inv.step {s s' : T2zClient} {e : T2zEvent} (h : Inv s) (hclean : ¬ s.StrayExit e)
    (hstep : s.step e = some s') : Inv s' := by
  cases e with
  | call =>
      cases hstep
      exact h.call
  | message w id ok =>
      obtain ⟨hposted, heq⟩ := Option.ite_none_right_eq_some.mp hstep
      cases heq
      exact h.message hposted.1 ok
  | error w =>
      obtain ⟨hruns, heq⟩ := Option.ite_none_right_eq_some.mp hstep
      cases heq
      exact h.fail hruns.1 (by decide) (.inr (h.keeps w hruns.1 hruns.2))
  | exit w =>
      obtain ⟨hspawned, heq⟩ := Option.ite_none_right_eq_some.mp hstep
      cases heq
      refine h.fail hspawned.1 (by decide) ?_
      cases hcur : s.current with
      | none => exact .inl rfl
      | some v =>
          refine .inr (hcur ▸ ?_)
          by_contra hother
          exact hclean ⟨congrArg Option.isSome hcur, hother⟩

theorem Inv.of_cleanRun {es : List T2zEvent} {s : T2zClient} (hrun : run cleanStep .start es = some s) :
    Inv s := by
  refine run_invariant Inv ?_ Inv.start hrun
  intro s e s' hs hstep
  obtain ⟨hclean, hstep⟩ := Option.ite_none_left_eq_some.mp hstep
  exact hs.step hclean hstep

/-- After a stray exit the later worker runs on, and is nobody's. -/
theorem dropped_of_strayExit {s s' : T2zClient} {e : T2zEvent} (h : Inv s) (hstray : s.StrayExit e)
    (hstep : s.step e = some s') : ∃ v < s'.spawned, s'.phase v = .running ∧ s'.current = none := by
  cases e with
  | call => exact hstray.elim
  | message w id ok => exact hstray.elim
  | error w => exact hstray.elim
  | exit w =>
      obtain ⟨hsome, hother⟩ := hstray
      obtain ⟨v, hcur⟩ := Option.isSome_iff_exists.mp hsome
      obtain ⟨hspawned, hrun⟩ := h.live v hcur
      have hvw : v ≠ w := fun heq => hother (heq ▸ hcur)
      obtain ⟨-, heq⟩ := Option.ite_none_right_eq_some.mp hstep
      cases heq
      exact ⟨v, hspawned, (Function.update_of_ne hvw _ _).trans hrun, rfl⟩

/-- **The proving worker's failures are kept apart** in every run without a
stray exit, and by the next step exactly if that is none. A reply to a call
that is not settled settles it. -/
theorem t2z_failures_kept_apart {es : List T2zEvent} {s : T2zClient} (hrun : run cleanStep .start es = some s) :
    KeptApart s ∧
    (∀ w id ok s', s.step (.message w id ok) = some s' → id ∉ s.settled.map Prod.fst →
      (id, .reply w ok) ∈ s'.settled) ∧
    ∀ e s', s.step e = some s' → (KeptApart s' ↔ ¬ s.StrayExit e) := by
  have hinv := Inv.of_cleanRun hrun
  refine ⟨hinv.toKeptApart, fun w id ok s' hstep hunsettled => ?_, fun e s' hstep => ⟨fun hapart hstray => ?_,
    fun hclean => (hinv.step hclean hstep).toKeptApart⟩⟩
  · obtain ⟨hposted, heq⟩ := Option.ite_none_right_eq_some.mp hstep
    cases heq
    rw [message, if_pos (hinv.hears id w hposted.1 hunsettled)]
    exact List.mem_append_right _ (List.mem_singleton_self _)
  · obtain ⟨v, hv, hruns, hnone⟩ := dropped_of_strayExit hinv hstray hstep
    have hkept := hapart.keeps v hv hruns
    rw [hnone] at hkept
    cases hkept

/-- A worker throws and goes, and the next one does the next job. -/
theorem t2z_failures_kept_apart_respawn :
    ∃ s, run cleanStep .start [.call, .error 0, .exit 0, .call, .message 1 2 true] = some s ∧
      s.settled = [(1, .failure 0), (2, .reply 1 true)] ∧ KeptApart s := by
  have hrun : ∃ s, run cleanStep .start [.call, .error 0, .exit 0, .call, .message 1 2 true] = some s ∧
      s.settled = [(1, .failure 0), (2, .reply 1 true)] := ⟨_, rfl, rfl⟩
  obtain ⟨s, hs, hsettled⟩ := hrun
  exact ⟨s, hs, hsettled, (t2z_failures_kept_apart hs).1⟩

/-- The exit of the first worker fails the job of the second. -/
theorem exit_fails_next_worker :
    ¬ ∀ (es : List T2zEvent) (s : T2zClient), run T2zClient.step .start es = some s → KeptApart s := by
  intro hclaim
  have hrun : ∃ s, run T2zClient.step .start [.call, .error 0, .call, .exit 0] = some s ∧
      (2, .failure 0) ∈ s.settled ∧ s.postedTo 2 = some 1 := ⟨_, rfl, by decide, by decide⟩
  obtain ⟨s, hs, hsettled, hposted⟩ := hrun
  have hown := (hclaim _ s hs).own _ hsettled
  rw [hposted] at hown
  exact absurd hown (by decide)

end T2zClient

end ZcashFaucet.Zcash
