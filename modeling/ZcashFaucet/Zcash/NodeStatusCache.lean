/-
ZcashFaucet.Zcash.NodeStatusCache — the node's status, read off the
request path and served from memory: `zcash/nodeStatusCache.ts`.

A cell holds the last good reading and the refresh that is in flight. A
page read that finds nothing to serve waits for the refresh of the cell it
looked at; when that refresh settles, whoever waits is resumed at once and
serves from the cell that is current by then, by the clock it read when it
came. A reset leaves the old cell behind, with its refresh and whoever
waits for it.

Cells are numbered in the order of the resets. `done` is the history of
the refreshes that settled.
-/
import ZcashFaucet.Lib.Run
import ZcashFaucet.Zcash.QuietNetwork
import Mathlib.Logic.Function.Basic

namespace ZcashFaucet.Zcash

open Lib

/-- REFRESH_AFTER_MS. -/
def refreshAfterMs : ℚ := 2000

/-- NODE_STATUS_MAX_AGE_MS. -/
def nodeStatusMaxAgeMs : ℚ := 15000

/-- A Cell, with the clocks of the page reads that wait for its refresh. -/
structure StatusCell where
  status : Option NodeStatus
  /-- 0 means that nothing has ever been read. -/
  readAt : ℚ
  inflight : Bool
  waiting : List ℚ

def coldCell : StatusCell := ⟨none, 0, false, []⟩

/-- A refresh that settled: of which cell, with which status, and when. -/
structure Settled where
  cell : Nat
  status : Option NodeStatus
  settledAt : ℚ

structure StatusCache where
  clock : ℚ
  refs : TipSources
  cells : Nat → StatusCell
  /-- The number of the current cell. -/
  number : Nat
  /-- The cells of the refreshes that are running. -/
  flights : List Nat
  done : List Settled

def StatusCache.start (clock : ℚ) (refs : TipSources) : StatusCache :=
  ⟨clock, refs, fun _ => coldCell, 0, [], []⟩

def StatusCache.current (s : StatusCache) : StatusCell := s.cells s.number

/-! ## Serving -/

variable (cfg : NodeConfig)

/-- `readChainFreshness`, by the references of this instant. -/
def readChainFreshness (clock : ℚ) (refs : TipSources) (nodeHeight : ℚ) : ChainGate :=
  chainFreshness cfg.gates (some nodeHeight) (referenceTipAt clock refs).height

/-- The status as it is served: the facts as read, the verdict of now. -/
def NodeStatus.served (clock : ℚ) (refs : TipSources) (s : NodeStatus) : NodeStatus :=
  let shield := readChainFreshness cfg clock refs s.nodeHeight
  { s with shield := shield, canBuildTx := mayBuildTransaction shield }

/-- `cachedNodeStatus`. The verdict goes by the clock itself. -/
def cachedNodeStatus (nowMs : ℚ) (s : StatusCache) : Option NodeStatus :=
  if s.current.readAt = 0 ∨ nodeStatusMaxAgeMs < nowMs - s.current.readAt then none
  else s.current.status.map (NodeStatus.served cfg s.clock s.refs)

/-- A status that a page read came back with. -/
structure Served where
  value : NodeStatus
  cell : Nat
  readAt : ℚ
  servedAt : ℚ
  refs : TipSources

/-- What a page read that came at `nowMs` serves, if anything. -/
def serve (nowMs : ℚ) (s : StatusCache) : List Served :=
  ((cachedNodeStatus cfg nowMs s).map fun v => ⟨v, s.number, s.current.readAt, s.clock, s.refs⟩).toList

/-! ## Steps -/

/-- `refresh`: one in flight at a time. -/
def StatusCache.refresh (s : StatusCache) : StatusCache :=
  if s.current.inflight then s
  else { s with
    cells := Function.update s.cells s.number { s.current with inflight := true }
    flights := s.number :: s.flights }

theorem refresh_clock (s : StatusCache) : s.refresh.clock = s.clock := by
  unfold StatusCache.refresh
  split <;> rfl

theorem refresh_current (s : StatusCache) : s.refresh.current = { s.current with inflight := true } := by
  unfold StatusCache.refresh
  split
  case isTrue hflight => rw [← hflight]
  case isFalse => exact Function.update_self _ _ _

theorem refresh_readAt (s : StatusCache) : s.refresh.current.readAt = s.current.readAt := by
  rw [refresh_current]

/-- The page read waits for the refresh of its cell. -/
def StatusCache.await (s : StatusCache) : StatusCache :=
  { s with
    cells := Function.update s.cells s.number { s.current with waiting := s.current.waiting ++ [s.clock] } }

/-- `nodeStatusForPage`, up to its answer or its wait. -/
def nodeStatusForPage (s : StatusCache) : StatusCache × List Served :=
  if (cachedNodeStatus cfg s.clock s).isNone then (s.refresh.await, [])
  else if refreshAfterMs < s.clock - s.current.readAt then (s.refresh, serve cfg s.clock s.refresh)
  else (s, serve cfg s.clock s)

/-- What a refresh leaves in its cell. A failed one leaves the reading. -/
def StatusCell.settle (clock : ℚ) (result : Option NodeStatus) (c : StatusCell) : StatusCell :=
  match result with
  | some status => ⟨some status, clock, false, []⟩
  | none => { c with inflight := false, waiting := [] }

/-- The cache after a refresh of cell `k` has settled. -/
def StatusCache.settled (k : Nat) (result : Option NodeStatus) (s : StatusCache) : StatusCache :=
  { s with
    cells := Function.update s.cells k ((s.cells k).settle s.clock result)
    flights := s.flights.erase k
    done := s.done ++ [⟨k, result, s.clock⟩] }

/-- A refresh of cell `k` settles, and whoever waited for it is resumed. -/
def StatusCache.settle (k : Nat) (result : Option NodeStatus) (s : StatusCache) :
    Option (StatusCache × List Served) :=
  if k ∈ s.flights then
    some (s.settled k result, (s.cells k).waiting.flatMap fun nowMs => serve cfg nowMs (s.settled k result))
  else none

/-- A reset: the next cell is cold. -/
def StatusCache.reset (s : StatusCache) : StatusCache :=
  { s with cells := Function.update s.cells (s.number + 1) coldCell, number := s.number + 1 }

inductive CacheEvent
  | tick (ms : ℚ)
  | tips (refs : TipSources)
  | page
  | refresh
  | settle (k : Nat) (result : Option NodeStatus)
  | reset

def StatusCache.step (s : StatusCache) : CacheEvent → Option (StatusCache × List Served)
  | .tick ms => if 0 ≤ ms then some ({ s with clock := s.clock + ms }, []) else none
  | .tips refs => some ({ s with refs := refs }, [])
  | .page => some (nodeStatusForPage cfg s)
  | .refresh => some (s.refresh, [])
  | .settle k result => s.settle cfg k result
  | .reset => some (s.reset, [])

/-- The step, without what it served. -/
def StatusCache.next (s : StatusCache) (e : CacheEvent) : Option StatusCache := (s.step cfg e).map Prod.fst

theorem settled_of_step {cfg : NodeConfig} {s s' : StatusCache} {k : Nat} {result : Option NodeStatus}
    {out : List Served} (hstep : s.step cfg (.settle k result) = some (s', out)) :
    k ∈ s.flights ∧ s' = s.settled k result ∧
      out = (s.cells k).waiting.flatMap fun nowMs => serve cfg nowMs s' := by
  obtain ⟨hflight, heq⟩ := Option.ite_none_right_eq_some.mp hstep
  cases heq
  exact ⟨hflight, rfl, rfl⟩

theorem tick_of_step {cfg : NodeConfig} {s s' : StatusCache} {ms : ℚ} {out : List Served}
    (hstep : s.step cfg (.tick ms) = some (s', out)) :
    0 ≤ ms ∧ s' = { s with clock := s.clock + ms } ∧ out = [] := by
  obtain ⟨hms, heq⟩ := Option.ite_none_right_eq_some.mp hstep
  cases heq
  exact ⟨hms, rfl, rfl⟩

/-! ## The history of a cell -/

/-- The last refresh of a cell that brought a status. -/
def lastGood (k : Nat) (done : List Settled) : Option (NodeStatus × ℚ) :=
  (done.filterMap fun d => if d.cell = k then d.status.map fun status => (status, d.settledAt) else none).getLast?

theorem lastGood_snoc (k : Nat) (done : List Settled) (d : Settled) :
    lastGood k (done ++ [d]) =
      if d.cell = k then (d.status.map fun status => (status, d.settledAt)).or (lastGood k done)
      else lastGood k done := by
  unfold lastGood
  rw [List.filterMap_append]
  by_cases hk : d.cell = k
  · cases hs : d.status with
    | none => simp [hs]
    | some status => simp [hk, hs]
  · simp [hk]

theorem lastGood_of_lt {k : Nat} {done : List Settled} (h : ∀ d ∈ done, d.cell < k) :
    lastGood k done = none := by
  unfold lastGood
  have hnil : done.filterMap (fun d =>
      if d.cell = k then d.status.map fun status => (status, d.settledAt) else none) = [] := by
    rw [List.filterMap_eq_nil_iff]
    intro d hd
    exact if_neg (h d hd).ne
  rw [hnil]
  rfl

/-- A cell holds what its last good refresh brought. -/
def StatusCell.Holds (c : StatusCell) : Option (NodeStatus × ℚ) → Prop
  | some (status, readAt) => c.status = some status ∧ c.readAt = readAt
  | none => c.status = none ∧ c.readAt = 0

theorem StatusCell.Holds.of_reading {c c' : StatusCell} (hstatus : c'.status = c.status)
    (hreadAt : c'.readAt = c.readAt) {last : Option (NodeStatus × ℚ)} (h : c.Holds last) : c'.Holds last := by
  cases last with
  | none => exact ⟨hstatus.trans h.1, hreadAt.trans h.2⟩
  | some last => exact ⟨hstatus.trans h.1, hreadAt.trans h.2⟩

/-! ## The invariant -/

structure CacheInv (s : StatusCache) : Prop where
  numbered : ∀ k ∈ s.flights, k ≤ s.number
  /-- One refresh in flight, where the cell says so. -/
  single : ∀ k ≤ s.number, s.flights.count k = if (s.cells k).inflight then 1 else 0
  past : ∀ k ≤ s.number, ∀ e ∈ (s.cells k).waiting, e ≤ s.clock
  /-- Whoever waits for the current cell found nothing in it. -/
  cold : ∀ e ∈ s.current.waiting, s.current.readAt = 0 ∨ nodeStatusMaxAgeMs < e - s.current.readAt
  /-- Whoever waits for a cell left behind came before the current reading. -/
  left : ∀ k < s.number, ∀ e ∈ (s.cells k).waiting, s.current.readAt = 0 ∨ e ≤ s.current.readAt
  history : ∀ d ∈ s.done, d.cell ≤ s.number
  good : s.current.Holds (lastGood s.number s.done)

namespace CacheInv

variable {cfg} {s : StatusCache}

theorem start (clock : ℚ) (refs : TipSources) : CacheInv (.start clock refs) :=
  ⟨by simp [StatusCache.start], fun _ _ => rfl, fun _ _ e he => (by cases he), fun e he => (by cases he),
    fun _ _ e he => (by cases he), fun d hd => (by cases hd), ⟨rfl, rfl⟩⟩

/-- A cell that was read has a status. -/
theorem status_of_readAt (h : CacheInv s) (hread : s.current.readAt ≠ 0) :
    ∃ status, s.current.status = some status := by
  have hgood := h.good
  cases hlast : lastGood s.number s.done with
  | none =>
      rw [hlast] at hgood
      exact absurd hgood.2 hread
  | some last =>
      rw [hlast] at hgood
      exact ⟨last.1, hgood.1⟩

/-- Nothing to serve: never read, or too old. -/
theorem cold_of_none (h : CacheInv s) {nowMs : ℚ} (hnone : (cachedNodeStatus cfg nowMs s).isNone = true) :
    s.current.readAt = 0 ∨ nodeStatusMaxAgeMs < nowMs - s.current.readAt := by
  by_contra hserves
  obtain ⟨status, hstatus⟩ := h.status_of_readAt (not_or.mp hserves).1
  rw [cachedNodeStatus, if_neg hserves, hstatus] at hnone
  cases hnone

/-- What only the current cell's refresh and waits change. -/
theorem of_current {s' : StatusCache} (h : CacheInv s) (c : StatusCell)
    (hs' : s' = { s with cells := Function.update s.cells s.number c, flights := s'.flights })
    (hstatus : c.status = s.current.status) (hreadAt : c.readAt = s.current.readAt)
    (hnumbered : ∀ k ∈ s'.flights, k ≤ s.number)
    (hother : ∀ k ≠ s.number, s'.flights.count k = s.flights.count k)
    (hown : s'.flights.count s.number = if c.inflight then 1 else 0)
    (hpast : ∀ e ∈ c.waiting, e ≤ s.clock)
    (hcold : ∀ e ∈ c.waiting, c.readAt = 0 ∨ nodeStatusMaxAgeMs < e - c.readAt) : CacheInv s' := by
  have hcur : s'.current = c := by
    rw [hs']
    exact Function.update_self _ _ _
  have hcells : ∀ k ≠ s.number, s'.cells k = s.cells k := fun k hk => by
    rw [hs']
    exact Function.update_of_ne hk _ _
  have hnum : s'.number = s.number := by rw [hs']
  have hclock : s'.clock = s.clock := by rw [hs']
  have hdone : s'.done = s.done := by rw [hs']
  have hself : s'.cells s.number = c := by
    rw [← hnum]
    exact hcur
  refine ⟨?_, ?_, ?_, ?_, ?_, ?_, ?_⟩
  · rw [hnum]
    exact hnumbered
  · intro k hk
    by_cases hkn : k = s.number
    · rw [hkn, hself]
      exact hown
    · rw [hother k hkn, hcells k hkn]
      exact h.single k (hnum ▸ hk)
  · intro k hk e he
    rw [hclock]
    by_cases hkn : k = s.number
    · rw [hkn, hself] at he
      exact hpast e he
    · rw [hcells k hkn] at he
      exact h.past k (hnum ▸ hk) e he
  · rw [hcur]
    exact hcold
  · intro k hk e he
    rw [hnum] at hk
    rw [hcells k hk.ne] at he
    rw [hcur, hreadAt]
    exact h.left k hk e he
  · rw [hdone, hnum]
    exact h.history
  · rw [hcur, hnum, hdone]
    exact h.good.of_reading hstatus hreadAt

theorem refresh (h : CacheInv s) : CacheInv s.refresh := by
  unfold StatusCache.refresh
  split
  case isTrue => exact h
  case isFalse hidle =>
    refine h.of_current { s.current with inflight := true } rfl rfl rfl ?_ ?_ ?_ (h.past s.number le_rfl)
      h.cold
    · intro k hk
      rcases List.mem_cons.mp hk with rfl | hold
      · exact le_rfl
      · exact h.numbered k hold
    · intro k hk
      exact List.count_cons_of_ne hk.symm
    · have hzero := h.single s.number le_rfl
      rw [show s.cells s.number = s.current from rfl, if_neg hidle] at hzero
      rw [List.count_cons_self, hzero]
      rfl

theorem await (h : CacheInv s)
    (hcold : s.current.readAt = 0 ∨ nodeStatusMaxAgeMs < s.clock - s.current.readAt) : CacheInv s.await := by
  refine h.of_current { s.current with waiting := s.current.waiting ++ [s.clock] } rfl rfl rfl h.numbered
    (fun _ _ => rfl) (h.single s.number le_rfl) ?_ ?_
  · intro e he
    rcases List.mem_append.mp he with hold | hnew
    · exact h.past s.number le_rfl e hold
    · exact (List.mem_singleton.mp hnew).le
  · intro e he
    rcases List.mem_append.mp he with hold | hnew
    · exact h.cold e hold
    · rw [List.mem_singleton.mp hnew]
      exact hcold

theorem tick (h : CacheInv s) {ms : ℚ} (hms : 0 ≤ ms) : CacheInv { s with clock := s.clock + ms } :=
  ⟨h.numbered, h.single, fun k hk e he => (h.past k hk e he).trans (le_add_of_nonneg_right hms), h.cold,
    h.left, h.history, h.good⟩

theorem tips (h : CacheInv s) (refs : TipSources) : CacheInv { s with refs := refs } :=
  ⟨h.numbered, h.single, h.past, h.cold, h.left, h.history, h.good⟩

theorem reset (h : CacheInv s) : CacheInv s.reset := by
  have hcells : ∀ k ≤ s.number, s.reset.cells k = s.cells k := fun k hk =>
    Function.update_of_ne (Nat.lt_succ_of_le hk).ne _ _
  have hcur : s.reset.current = coldCell := Function.update_self _ _ _
  refine ⟨fun k hk => Nat.le_succ_of_le (h.numbered k hk), ?_, ?_, ?_, ?_,
    fun d hd => Nat.le_succ_of_le (h.history d hd), ?_⟩
  · intro k hk
    rcases Nat.le_succ_iff.mp hk with hold | rfl
    · rw [hcells k hold]
      exact h.single k hold
    · rw [show s.reset.cells (s.number + 1) = coldCell from hcur]
      refine List.count_eq_zero.mpr fun hmem => ?_
      exact absurd (h.numbered _ hmem) (Nat.not_succ_le_self _)
  · intro k hk e he
    rcases Nat.le_succ_iff.mp hk with hold | rfl
    · rw [hcells k hold] at he
      exact h.past k hold e he
    · rw [show s.reset.cells (s.number + 1) = coldCell from hcur] at he
      cases he
  · rw [hcur]
    intro e he
    cases he
  · rw [hcur]
    exact fun _ _ _ _ => .inl rfl
  · rw [hcur, show lastGood s.reset.number s.reset.done = none from
      lastGood_of_lt fun d hd => Nat.lt_succ_of_le (h.history d hd)]
    exact ⟨rfl, rfl⟩

/-- A settled refresh closes its flight, and nobody waits for its cell any more. -/
theorem settled (h : CacheInv s) {k : Nat} (hk : k ∈ s.flights) (result : Option NodeStatus) :
    CacheInv (s.settled k result) := by
  have hself : (s.settled k result).cells k = (s.cells k).settle s.clock result := Function.update_self _ _ _
  have hcells : ∀ j ≠ k, (s.settled k result).cells j = s.cells j := fun j hj => Function.update_of_ne hj _ _
  have hidle : ((s.cells k).settle s.clock result).inflight = false := by cases result <;> rfl
  have hnobody : ((s.cells k).settle s.clock result).waiting = [] := by cases result <;> rfl
  -- a wait after the step is one from before it, in another cell
  have hwaits : ∀ j, ∀ e ∈ ((s.settled k result).cells j).waiting, j ≠ k ∧ e ∈ (s.cells j).waiting := by
    intro j e he
    by_cases hj : j = k
    · rw [hj, hself, hnobody] at he
      cases he
    · rw [hcells j hj] at he
      exact ⟨hj, he⟩
  refine ⟨fun j hj => h.numbered j (List.mem_of_mem_erase hj), ?_,
    fun j hj e he => h.past j hj e (hwaits j e he).2, ?_, ?_, ?_, ?_⟩
  · intro j hj
    by_cases hjk : j = k
    · have hcount := h.single k (h.numbered k hk)
      have hpos := List.count_pos_iff.mpr hk
      rw [hjk, hself, hidle, show (s.settled k result).flights = s.flights.erase k from rfl,
        List.count_erase_self]
      split at hcount
      · rw [hcount]
        rfl
      · omega
    · rw [hcells j hjk, show (s.settled k result).flights = s.flights.erase k from rfl,
        List.count_erase_of_ne hjk]
      exact h.single j hj
  · intro e he
    obtain ⟨hne, hold⟩ := hwaits s.number e he
    rw [show (s.settled k result).current = s.current from hcells _ hne]
    exact h.cold e hold
  · intro j hj e he
    obtain ⟨-, hold⟩ := hwaits j e he
    by_cases hcur : s.number = k
    · rw [show (s.settled k result).current = s.current.settle s.clock result from hcur ▸ hself]
      cases result with
      | none => exact h.left j hj e hold
      | some status => exact .inr (h.past j hj.le e hold)
    · rw [show (s.settled k result).current = s.current from hcells _ hcur]
      exact h.left j hj e hold
  · intro d hd
    rcases List.mem_append.mp hd with hold | hnew
    · exact h.history d hold
    · rw [List.mem_singleton.mp hnew]
      exact h.numbered k hk
  · have hgood := h.good
    rw [show (s.settled k result).done = s.done ++ [⟨k, result, s.clock⟩] from rfl, lastGood_snoc]
    show (s.settled k result).current.Holds (if k = s.number
      then (result.map fun status => (status, s.clock)).or (lastGood s.number s.done)
      else lastGood s.number s.done)
    by_cases hcur : s.number = k
    · rw [if_pos hcur.symm, show (s.settled k result).current = s.current.settle s.clock result from hcur ▸ hself]
      cases result with
      | none => exact hgood
      | some status => exact ⟨rfl, rfl⟩
    · rw [if_neg fun hk => hcur hk.symm, show (s.settled k result).current = s.current from hcells _ hcur]
      exact hgood

theorem step (h : CacheInv s) {e : CacheEvent} {s' : StatusCache} {out : List Served}
    (hstep : s.step cfg e = some (s', out)) : CacheInv s' := by
  cases e with
  | tick ms =>
      obtain ⟨hms, rfl, -⟩ := tick_of_step hstep
      exact h.tick hms
  | tips refs =>
      cases hstep
      exact h.tips refs
  | page =>
      rw [StatusCache.step, nodeStatusForPage] at hstep
      split at hstep
      case isTrue hnone =>
        cases hstep
        refine h.refresh.await ?_
        have hcold := h.cold_of_none hnone
        rwa [show s.refresh.clock = s.clock from refresh_clock s, refresh_readAt]
      case isFalse =>
        split at hstep
        · cases hstep
          exact h.refresh
        · cases hstep
          exact h
  | refresh =>
      cases hstep
      exact h.refresh
  | settle k result =>
      obtain ⟨hflight, rfl, -⟩ := settled_of_step hstep
      exact h.settled hflight result
  | reset =>
      cases hstep
      exact h.reset

end CacheInv

/-- The invariant of every run. -/
theorem CacheInv.of_run {cfg : NodeConfig} {es : List CacheEvent} {clock : ℚ} {refs : TipSources}
    {s : StatusCache} (hrun : run (StatusCache.next cfg) (.start clock refs) es = some s) : CacheInv s := by
  refine run_invariant CacheInv ?_ (CacheInv.start clock refs) hrun
  intro s e s' hs hnext
  obtain ⟨⟨s₁, out⟩, hstep, rfl⟩ := Option.map_eq_some_iff.mp hnext
  exact hs.step hstep

/-! ## What is served -/

theorem mem_serve {cfg : NodeConfig} {nowMs : ℚ} {s : StatusCache} {x : Served} :
    x ∈ serve cfg nowMs s ↔
      ∃ status, s.current.readAt ≠ 0 ∧ nowMs - s.current.readAt ≤ nodeStatusMaxAgeMs ∧
        s.current.status = some status ∧
        x = ⟨status.served cfg s.clock s.refs, s.number, s.current.readAt, s.clock, s.refs⟩ := by
  unfold serve cachedNodeStatus
  split
  case isTrue hnothing =>
    simp only [Option.map_none, Option.toList_none, List.not_mem_nil, false_iff]
    rintro ⟨status, hread, hage, -, -⟩
    rcases hnothing with hnever | hold
    · exact hread hnever
    · exact absurd hage (not_le.mpr hold)
  case isFalse hserves =>
    obtain ⟨hread, hage⟩ := not_or.mp hserves
    cases hs : s.current.status with
    | none => simp
    | some status =>
        simp only [Option.map_some, Option.toList_some, List.mem_singleton]
        constructor
        · exact fun hx => ⟨status, hread, not_lt.mp hage, rfl, hx⟩
        · intro hserved
          obtain ⟨good, -, -, hstatus, hx⟩ := hserved
          exact Option.some.inj hstatus ▸ hx

/-- What a step served it served from the cache it leaves: a page read by
the clock, and whoever waited by the clock of its coming. -/
theorem served_of_step {cfg : NodeConfig} {s s' : StatusCache} {e : CacheEvent} {out : List Served}
    (hstep : s.step cfg e = some (s', out)) {x : Served} (hx : x ∈ out) :
    ∃ nowMs, x ∈ serve cfg nowMs s' ∧
      (nowMs = s'.clock ∨ ∃ k result, e = .settle k result ∧ nowMs ∈ (s.cells k).waiting) := by
  cases e with
  | tick ms =>
      obtain ⟨-, -, rfl⟩ := tick_of_step hstep
      cases hx
  | tips refs =>
      cases hstep
      cases hx
  | page =>
      rw [StatusCache.step, nodeStatusForPage] at hstep
      split at hstep
      case isTrue =>
        cases hstep
        cases hx
      case isFalse =>
        split at hstep
        · cases hstep
          exact ⟨s.clock, hx, .inl (refresh_clock s).symm⟩
        · cases hstep
          exact ⟨s.clock, hx, .inl rfl⟩
  | refresh =>
      cases hstep
      cases hx
  | settle k result =>
      obtain ⟨-, -, rfl⟩ := settled_of_step hstep
      obtain ⟨nowMs, hwaited, hx⟩ := List.mem_flatMap.mp hx
      exact ⟨nowMs, hx, .inr ⟨k, result, rfl, hwaited⟩⟩
  | reset =>
      cases hstep
      cases hx

theorem settled_current_of_ne {s : StatusCache} {k : Nat} (hk : k ≠ s.number) (result : Option NodeStatus) :
    (s.settled k result).current = s.current := Function.update_of_ne hk.symm _ _

theorem settled_current (s : StatusCache) (result : Option NodeStatus) :
    (s.settled s.number result).current = s.current.settle s.clock result := Function.update_self _ _ _

/-- A failed refresh leaves what the cache has to serve. -/
theorem cachedNodeStatus_settled_none (cfg : NodeConfig) (s : StatusCache) (k : Nat) (nowMs : ℚ) :
    cachedNodeStatus cfg nowMs (s.settled k none) = cachedNodeStatus cfg nowMs s := by
  unfold cachedNodeStatus
  by_cases hk : k = s.number
  · rw [hk, settled_current]
    rfl
  · rw [settled_current_of_ne hk]
    rfl

/-- The step that serves a reading past its age: a refresh left behind by
a reset settles, somebody still waits for it, and the reading of the cell
that is current by then is past the maximum age. -/
def ServesLate (s : StatusCache) : CacheEvent → Prop
  | .settle k _ => k < s.number ∧ (s.cells k).waiting ≠ [] ∧ s.current.readAt ≠ 0 ∧
      nodeStatusMaxAgeMs < s.clock - s.current.readAt
  | _ => False

theorem age_of_servesLate {cfg : NodeConfig} {s s' : StatusCache} {e : CacheEvent} {out : List Served}
    (h : CacheInv s) (hstep : s.step cfg e = some (s', out)) (hlate : ServesLate s e) :
    ∃ x ∈ out, nodeStatusMaxAgeMs < x.servedAt - x.readAt := by
  cases e with
  | settle k result =>
      obtain ⟨hk, hwaits, hread, hage⟩ := hlate
      obtain ⟨nowMs, hwaited⟩ := List.exists_mem_of_ne_nil _ hwaits
      obtain ⟨-, rfl, rfl⟩ := settled_of_step hstep
      have hcur := settled_current_of_ne (s := s) hk.ne result
      obtain ⟨status, hstatus⟩ := h.status_of_readAt hread
      have hcame := (h.left k hk nowMs hwaited).resolve_left hread
      refine ⟨⟨status.served cfg s.clock s.refs, s.number, s.current.readAt, s.clock, s.refs⟩,
        List.mem_flatMap.mpr ⟨nowMs, hwaited, ?_⟩, hage⟩
      refine mem_serve.mpr ⟨status, ?_, ?_, ?_, ?_⟩
      · rwa [hcur]
      · rw [hcur]
        exact (sub_nonpos.mpr hcame).trans (by decide)
      · rwa [hcur]
      · rw [hcur]
        rfl
  | tick => exact hlate.elim
  | tips => exact hlate.elim
  | page => exact hlate.elim
  | refresh => exact hlate.elim
  | reset => exact hlate.elim

theorem age_of_not_servesLate {cfg : NodeConfig} {s s' : StatusCache} {e : CacheEvent} {out : List Served}
    (h : CacheInv s) (hstep : s.step cfg e = some (s', out)) (hlate : ¬ ServesLate s e)
    {x : Served} (hx : x ∈ out) : x.servedAt - x.readAt ≤ nodeStatusMaxAgeMs := by
  obtain ⟨nowMs, hserve, hwhen⟩ := served_of_step hstep hx
  obtain ⟨status, hread, hage, -, rfl⟩ := mem_serve.mp hserve
  rcases hwhen with rfl | ⟨k, result, rfl, hwaited⟩
  · exact hage
  obtain ⟨hk, rfl, rfl⟩ := settled_of_step hstep
  rcases (h.numbered k hk).lt_or_eq with hleft | rfl
  · -- of a cell left behind: the reading is of the current cell, and young
    rw [settled_current_of_ne hleft.ne] at hread ⊢
    by_contra hold
    exact hlate ⟨hleft, List.ne_nil_of_mem hwaited, hread, not_le.mp hold⟩
  · rw [settled_current] at hread hage ⊢
    cases result with
    | none =>
        -- the reading that was too old for who waited still is
        rcases h.cold nowMs hwaited with hnever | hold
        · exact absurd hnever hread
        · exact absurd hage (not_le.mpr hold)
    | some status =>
        show s.clock - s.clock ≤ nodeStatusMaxAgeMs
        rw [sub_self]
        decide

/-- **The node status cache**, at every step of every run. One refresh in
flight per cell; a failed one leaves what there is to serve; one that a
reset left behind does not touch the current cell; what is served are the
heights of the last good refresh of the current cell, with the verdict of
this instant, and it is within the maximum age exactly if the step is not
one that serves late. -/
theorem node_status_cache (cfg : NodeConfig) (clock : ℚ) (refs : TipSources) {es : List CacheEvent}
    {s s' : StatusCache} {e : CacheEvent} {out : List Served}
    (hrun : run (StatusCache.next cfg) (.start clock refs) es = some s)
    (hstep : s.step cfg e = some (s', out)) :
    (∀ k, s'.flights.count k ≤ 1) ∧
    ((∀ x ∈ out, x.servedAt - x.readAt ≤ nodeStatusMaxAgeMs) ↔ ¬ ServesLate s e) ∧
    (∀ k, e = .settle k none → ∀ nowMs, cachedNodeStatus cfg nowMs s' = cachedNodeStatus cfg nowMs s) ∧
    (∀ k result, e = .settle k result → k < s.number → s'.current = s.current) ∧
    (∀ x ∈ out, ∃ status, lastGood s'.number s'.done = some (status, x.readAt) ∧
      x.value.height = status.height ∧ x.value.nodeHeight = status.nodeHeight) ∧
    ∀ x ∈ out, x.value.canBuildTx =
      mayBuildTransaction (readChainFreshness cfg s'.clock s'.refs x.value.nodeHeight) := by
  have hinv := CacheInv.of_run hrun
  have hnext := hinv.step hstep
  refine ⟨fun k => ?_, ⟨fun hall hlate => ?_, fun hlate x hx => age_of_not_servesLate hinv hstep hlate hx⟩,
    ?_, ?_, fun x hx => ?_, fun x hx => ?_⟩
  · by_cases hk : k ≤ s'.number
    · rw [hnext.single k hk]
      split <;> decide
    · rw [List.count_eq_zero.mpr fun hmem => hk (hnext.numbered k hmem)]
      exact Nat.zero_le 1
  · obtain ⟨x, hx, hold⟩ := age_of_servesLate hinv hstep hlate
    exact absurd (hall x hx) (not_le.mpr hold)
  · rintro k rfl nowMs
    obtain ⟨-, rfl, -⟩ := settled_of_step hstep
    exact cachedNodeStatus_settled_none cfg s k nowMs
  · rintro k result rfl hk
    obtain ⟨-, rfl, -⟩ := settled_of_step hstep
    exact settled_current_of_ne hk.ne result
  · obtain ⟨nowMs, hserve, -⟩ := served_of_step hstep hx
    obtain ⟨status, hread, -, hstatus, rfl⟩ := mem_serve.mp hserve
    have hgood := hnext.good
    cases hlast : lastGood s'.number s'.done with
    | none =>
        rw [hlast] at hgood
        exact absurd hgood.2 hread
    | some last =>
        rw [hlast] at hgood
        obtain ⟨good, readAt⟩ := last
        have hsame : status = good := Option.some.inj (hstatus.symm.trans hgood.1)
        have hwhen : s'.current.readAt = readAt := hgood.2
        subst hsame
        exact ⟨status, by rw [hwhen], rfl, rfl⟩
  · obtain ⟨nowMs, hserve, -⟩ := served_of_step hstep hx
    obtain ⟨status, -, -, -, rfl⟩ := mem_serve.mp hserve
    rfl

/-- A wallet and a node at height 100, as read with no reference around. -/
def statusAt100 : NodeStatus := (nodeStatusOf stockNode none ⟨[], List.nodup_nil⟩ 1000 100 100).1

/-- A read that waits across a reset, while the new cell is read and ages. -/
def acrossReset : List CacheEvent := [.page, .reset, .refresh, .settle 1 (some statusAt100), .tick 20000]

/-- The readings that the step after a run serves, with their times. -/
def servedAfter (es : List CacheEvent) (e : CacheEvent) : Option (List (ℚ × ℚ)) :=
  ((run (StatusCache.next stockNode) (.start 1000 ⟨[], List.nodup_nil⟩) es).bind
    fun s => s.step stockNode e).map fun r => r.2.map fun x => (x.readAt, x.servedAt)

theorem step_of_servedAfter {es : List CacheEvent} {e : CacheEvent} {times : List (ℚ × ℚ)}
    (h : servedAfter es e = some times) :
    ∃ s s' out, run (StatusCache.next stockNode) (.start 1000 ⟨[], List.nodup_nil⟩) es = some s ∧
      s.step stockNode e = some (s', out) ∧ out.map (fun x => (x.readAt, x.servedAt)) = times := by
  obtain ⟨⟨s', out⟩, hboth, htimes⟩ := Option.map_eq_some_iff.mp h
  obtain ⟨s, hrun, hstep⟩ := Option.bind_eq_some_iff.mp hboth
  exact ⟨s, s', out, hrun, hstep, htimes⟩

/-- A page served from memory, five seconds after the read it waited for. -/
theorem node_status_cache_warm :
    ∃ s s' out, run (StatusCache.next stockNode) (.start 1000 ⟨[], List.nodup_nil⟩)
        [.page, .settle 0 (some statusAt100), .tick 5000] = some s ∧
      s.step stockNode .page = some (s', out) ∧ out.length = 1 ∧ s'.flights.count 0 ≤ 1 ∧
      ∀ x ∈ out, x.servedAt - x.readAt ≤ nodeStatusMaxAgeMs := by
  obtain ⟨s, s', out, hrun, hstep, htimes⟩ := step_of_servedAfter
    (show servedAfter [.page, .settle 0 (some statusAt100), .tick 5000] .page = some [(1000, 6000)] by
      decide +kernel)
  obtain ⟨hsingle, hage, -⟩ := node_status_cache stockNode 1000 ⟨[], List.nodup_nil⟩ hrun hstep
  refine ⟨s, s', out, hrun, hstep, ?_, hsingle 0, hage.mpr fun hlate => hlate⟩
  simpa using congrArg List.length htimes

/-- The refresh that the reset left behind fails, and the read that waited
for it is answered with a reading twenty seconds old. -/
theorem waiting_read_serves_old :
    ¬ ∀ (es : List CacheEvent) (e : CacheEvent) (s s' : StatusCache) (out : List Served),
      run (StatusCache.next stockNode) (.start 1000 ⟨[], List.nodup_nil⟩) es = some s →
      s.step stockNode e = some (s', out) → ∀ x ∈ out, x.servedAt - x.readAt ≤ nodeStatusMaxAgeMs := by
  intro hclaim
  obtain ⟨s, s', out, hrun, hstep, htimes⟩ := step_of_servedAfter
    (show servedAfter acrossReset (.settle 0 none) = some [(1000, 21000)] by decide +kernel)
  obtain ⟨x, rfl, hx⟩ := List.map_eq_singleton_iff.mp htimes
  have hage := hclaim _ _ s s' [x] hrun hstep x (List.mem_singleton_self x)
  rw [(Prod.mk.inj hx).1, (Prod.mk.inj hx).2] at hage
  exact absurd hage (by decide +kernel)

end ZcashFaucet.Zcash
