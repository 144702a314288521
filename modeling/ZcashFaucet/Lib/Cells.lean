/-
ZcashFaucet.Lib.Cells — a value read in the background and kept in a cell.

One refresh at a time fills a cell: `start` raises its flag, `store` and
`fail` lower it, and only `store` touches the value, with the clock of
that instant beside it. `reset` does not clear the cell, it leaves it
behind: a refresh that is still running goes on writing into the cell it
started from. Cells are numbered in the order of the resets.

`stored` is the history of the writes. `Cells.Inv` says that a cell holds
the last write into it, and `Inv.fresh` what that gives to a reader who
refuses what is too old.
-/
import Mathlib.Algebra.Order.Ring.Rat
import Mathlib.Logic.Function.Basic

namespace ZcashFaucet.Lib

/-- A value with the time it was stored, and whether a refresh runs. -/
structure Cell (α : Type) where
  held : Option (α × ℚ)
  inflight : Bool

/-- A write: into which cell, what and when. -/
structure Stored (α : Type) where
  cell : Nat
  value : α
  storedAt : ℚ

structure Cells (α : Type) where
  clock : ℚ
  cells : Nat → Cell α
  /-- The number of the current cell. -/
  number : Nat
  /-- The cells whose refresh is running. -/
  flights : List Nat
  stored : List (Stored α)

variable {α : Type}

/-- The value of a cell, unless it is too old. -/
def Cell.fresh (maxAge now : ℚ) (c : Cell α) : Option α :=
  match c.held with
  | none => none
  | some (v, storedAt) => if maxAge < now - storedAt then none else some v

/-- The last write into a cell. -/
def lastStored (k : Nat) (stored : List (Stored α)) : Option (α × ℚ) :=
  ((stored.filter fun d => d.cell = k).getLast?).map fun d => (d.value, d.storedAt)

theorem lastStored_snoc (k : Nat) (stored : List (Stored α)) (d : Stored α) :
    lastStored k (stored ++ [d]) =
      if d.cell = k then some (d.value, d.storedAt) else lastStored k stored := by
  unfold lastStored
  rw [List.filter_append]
  by_cases hk : d.cell = k
  · simp [hk]
  · simp [hk]

theorem lastStored_of_lt {k : Nat} {stored : List (Stored α)} (h : ∀ d ∈ stored, d.cell < k) :
    lastStored k stored = none := by
  unfold lastStored
  have hnil : stored.filter (fun d => decide (d.cell = k)) = [] := by
    rw [List.filter_eq_nil_iff]
    intro d hd
    simpa using (h d hd).ne
  rw [hnil]
  rfl

theorem mem_of_lastStored {k : Nat} {stored : List (Stored α)} {v : α} {storedAt : ℚ}
    (h : lastStored k stored = some (v, storedAt)) : ⟨k, v, storedAt⟩ ∈ stored := by
  obtain ⟨d, hlast, heq⟩ := Option.map_eq_some_iff.mp h
  obtain ⟨hmem, hcell⟩ := List.mem_filter.mp (List.mem_of_getLast? hlast)
  obtain ⟨rfl, rfl⟩ := Prod.mk.inj heq
  obtain rfl : d.cell = k := by simpa using hcell
  exact hmem

namespace Cells

/-- A start without a value. -/
def cold (clock : ℚ) : Cells α := ⟨clock, fun _ => ⟨none, false⟩, 0, [], []⟩

def current (s : Cells α) : Cell α := s.cells s.number

/-! ## Steps -/

def tick (ms : ℚ) (s : Cells α) : Cells α := { s with clock := s.clock + ms }

/-- A refresh of the current cell, unless one is running. -/
def start (s : Cells α) : Cells α :=
  if s.current.inflight then s
  else { s with
    cells := Function.update s.cells s.number { s.current with inflight := true }
    flights := s.number :: s.flights }

/-- The refresh of cell `k` brought a value. -/
def store (k : Nat) (v : α) (s : Cells α) : Cells α :=
  { s with
    cells := Function.update s.cells k ⟨some (v, s.clock), false⟩
    flights := s.flights.erase k
    stored := s.stored ++ [⟨k, v, s.clock⟩] }

/-- The refresh of cell `k` brought nothing. -/
def fail (k : Nat) (s : Cells α) : Cells α :=
  { s with
    cells := Function.update s.cells k { s.cells k with inflight := false }
    flights := s.flights.erase k }

/-- The next cell, cold. -/
def reset (s : Cells α) : Cells α :=
  { s with cells := Function.update s.cells (s.number + 1) ⟨none, false⟩, number := s.number + 1 }

@[simp] theorem tick_number (ms : ℚ) (s : Cells α) : (s.tick ms).number = s.number := rfl

@[simp] theorem tick_flights (ms : ℚ) (s : Cells α) : (s.tick ms).flights = s.flights := rfl

@[simp] theorem tick_stored (ms : ℚ) (s : Cells α) : (s.tick ms).stored = s.stored := rfl

@[simp] theorem store_number (k : Nat) (v : α) (s : Cells α) : (s.store k v).number = s.number := rfl

@[simp] theorem store_clock (k : Nat) (v : α) (s : Cells α) : (s.store k v).clock = s.clock := rfl

@[simp] theorem store_stored (k : Nat) (v : α) (s : Cells α) :
    (s.store k v).stored = s.stored ++ [⟨k, v, s.clock⟩] := rfl

@[simp] theorem fail_number (k : Nat) (s : Cells α) : (s.fail k).number = s.number := rfl

@[simp] theorem fail_clock (k : Nat) (s : Cells α) : (s.fail k).clock = s.clock := rfl

@[simp] theorem fail_stored (k : Nat) (s : Cells α) : (s.fail k).stored = s.stored := rfl

@[simp] theorem reset_clock (s : Cells α) : s.reset.clock = s.clock := rfl

@[simp] theorem reset_number (s : Cells α) : s.reset.number = s.number + 1 := rfl

@[simp] theorem reset_stored (s : Cells α) : s.reset.stored = s.stored := rfl

@[simp] theorem reset_flights (s : Cells α) : s.reset.flights = s.flights := rfl

@[simp] theorem reset_current (s : Cells α) : s.reset.current = ⟨none, false⟩ := Function.update_self _ _ _

theorem start_of_inflight {s : Cells α} (h : s.current.inflight = true) : s.start = s := if_pos h

theorem start_of_idle {s : Cells α} (h : ¬ s.current.inflight = true) :
    s.start = { s with
      cells := Function.update s.cells s.number { s.current with inflight := true }
      flights := s.number :: s.flights } := if_neg h

@[simp] theorem start_number (s : Cells α) : s.start.number = s.number := by
  unfold start
  split <;> rfl

@[simp] theorem start_clock (s : Cells α) : s.start.clock = s.clock := by
  unfold start
  split <;> rfl

@[simp] theorem start_stored (s : Cells α) : s.start.stored = s.stored := by
  unfold start
  split <;> rfl

theorem start_current (s : Cells α) : s.start.current = { s.current with inflight := true } := by
  unfold start
  split
  case isTrue hflight => rw [← hflight]
  case isFalse => exact Function.update_self _ _ _

@[simp] theorem start_held (s : Cells α) : s.start.current.held = s.current.held := by rw [start_current]

theorem mem_flights_start {s : Cells α} {k : Nat} (h : k ∈ s.start.flights) :
    k ∈ s.flights ∨ (k = s.number ∧ s.current.inflight = false) := by
  unfold start at h
  split at h
  case isTrue => exact .inl h
  case isFalse hidle =>
    rcases List.mem_cons.mp h with rfl | hold
    · exact .inr ⟨rfl, by simpa using hidle⟩
    · exact .inl hold

/-- What ends in a cell that was left behind is nothing to the current one. -/
theorem fail_current_of_ne {s : Cells α} {k : Nat} (h : k ≠ s.number) : (s.fail k).current = s.current :=
  Function.update_of_ne h.symm _ _

theorem store_current (v : α) (s : Cells α) :
    (s.store s.number v).current = ⟨some (v, s.clock), false⟩ := Function.update_self _ _ _

/-! ## The invariant -/

structure Inv (s : Cells α) : Prop where
  numbered : ∀ k ∈ s.flights, k ≤ s.number
  /-- One refresh at a time, where the cell says so. -/
  single : ∀ k ≤ s.number, s.flights.count k = if (s.cells k).inflight then 1 else 0
  history : ∀ d ∈ s.stored, d.cell ≤ s.number ∧ d.storedAt ≤ s.clock
  /-- A cell holds the last write into it. -/
  held : ∀ k ≤ s.number, (s.cells k).held = lastStored k s.stored

namespace Inv

variable {s : Cells α}

theorem cold (clock : ℚ) : Inv (.cold clock : Cells α) := by
  refine ⟨fun k hk => ?_, fun _ _ => rfl, fun d hd => ?_, fun _ _ => rfl⟩
  · cases hk
  · cases hd

/-- No two refreshes of one cell. -/
theorem nodup (h : Inv s) : s.flights.Nodup := by
  refine List.nodup_iff_count.mpr fun k => ?_
  by_cases hk : k ≤ s.number
  · rw [h.single k hk]
    split <;> omega
  · rw [List.count_eq_zero.mpr fun hmem => hk (h.numbered k hmem)]
    exact Nat.zero_le 1

theorem inflight_of_mem (h : Inv s) {k : Nat} (hk : k ∈ s.flights) : (s.cells k).inflight = true := by
  have hpos := List.count_pos_iff.mpr hk
  rw [h.single k (h.numbered k hk)] at hpos
  by_contra hidle
  rw [if_neg hidle] at hpos
  exact absurd hpos (lt_irrefl 0)

theorem mem_of_inflight (h : Inv s) {k : Nat} (hk : k ≤ s.number) (hflight : (s.cells k).inflight = true) :
    k ∈ s.flights := by
  rw [← List.count_pos_iff, h.single k hk, if_pos hflight]
  exact Nat.one_pos

theorem tick (h : Inv s) {ms : ℚ} (hms : 0 ≤ ms) : Inv (s.tick ms) :=
  ⟨h.numbered, h.single, fun d hd => ⟨(h.history d hd).1, (h.history d hd).2.trans (le_add_of_nonneg_right hms)⟩,
    h.held⟩

theorem start (h : Inv s) : Inv s.start := by
  by_cases hflight : s.current.inflight = true
  · rw [start_of_inflight hflight]
    exact h
  · have hflights : s.start.flights = s.number :: s.flights := by rw [start_of_idle hflight]
    have hself : s.start.cells s.number = { s.current with inflight := true } := by
      rw [start_of_idle hflight]
      exact Function.update_self _ _ _
    have hcells : ∀ k ≠ s.number, s.start.cells k = s.cells k := fun k hk => by
      rw [start_of_idle hflight]
      exact Function.update_of_ne hk _ _
    refine ⟨?_, ?_, ?_, ?_⟩
    · intro k hk
      rw [hflights] at hk
      rw [start_number]
      rcases List.mem_cons.mp hk with rfl | hold
      · exact le_rfl
      · exact h.numbered k hold
    · intro k hk
      rw [start_number] at hk
      rw [hflights]
      by_cases hkn : k = s.number
      · have hzero := h.single s.number le_rfl
        rw [show s.cells s.number = s.current from rfl, if_neg hflight] at hzero
        rw [hkn, hself, List.count_cons_self, hzero]
        rfl
      · rw [List.count_cons_of_ne (Ne.symm hkn), hcells k hkn]
        exact h.single k hk
    · rw [start_stored, start_number, start_clock]
      exact h.history
    · intro k hk
      rw [start_number] at hk
      rw [start_stored]
      by_cases hkn : k = s.number
      · rw [hkn, hself]
        exact h.held s.number le_rfl
      · rw [hcells k hkn]
        exact h.held k hk

/-- A refresh that ends lowers the flag of its own cell. -/
private theorem single_erase (h : Inv s) {k : Nat} (hk : k ∈ s.flights) {cells : Nat → Cell α}
    (hself : (cells k).inflight = false) (hother : ∀ j ≠ k, cells j = s.cells j) :
    ∀ j ≤ s.number, (s.flights.erase k).count j = if (cells j).inflight then 1 else 0 := by
  intro j hj
  by_cases hjk : j = k
  · subst hjk
    have hcount := h.single j hj
    rw [if_pos (h.inflight_of_mem hk)] at hcount
    rw [hself, List.count_erase_self, hcount]
    rfl
  · rw [hother j hjk, List.count_erase_of_ne hjk]
    exact h.single j hj

theorem store (h : Inv s) {k : Nat} (hk : k ∈ s.flights) (v : α) : Inv (s.store k v) := by
  have hself : (s.store k v).cells k = ⟨some (v, s.clock), false⟩ := Function.update_self _ _ _
  have hcells : ∀ j ≠ k, (s.store k v).cells j = s.cells j := fun j hj => Function.update_of_ne hj _ _
  refine ⟨fun j hj => h.numbered j (List.mem_of_mem_erase hj),
    h.single_erase hk (by rw [hself]) hcells, ?_, ?_⟩
  · intro d hd
    rcases List.mem_append.mp hd with hold | hnew
    · exact h.history d hold
    · obtain rfl := List.mem_singleton.mp hnew
      exact ⟨h.numbered k hk, le_rfl⟩
  · intro j hj
    rw [store_stored, lastStored_snoc]
    by_cases hjk : k = j
    · rw [if_pos hjk, ← hjk, hself]
    · rw [if_neg hjk, hcells j (Ne.symm hjk)]
      exact h.held j hj

theorem fail (h : Inv s) {k : Nat} (hk : k ∈ s.flights) : Inv (s.fail k) := by
  have hself : (s.fail k).cells k = { s.cells k with inflight := false } := Function.update_self _ _ _
  have hcells : ∀ j ≠ k, (s.fail k).cells j = s.cells j := fun j hj => Function.update_of_ne hj _ _
  refine ⟨fun j hj => h.numbered j (List.mem_of_mem_erase hj),
    h.single_erase hk (by rw [hself]) hcells, h.history, ?_⟩
  intro j hj
  rw [fail_stored]
  by_cases hjk : j = k
  · rw [hjk, hself]
    exact h.held k (hjk ▸ hj)
  · rw [hcells j hjk]
    exact h.held j hj

theorem reset (h : Inv s) : Inv s.reset := by
  have hcells : ∀ k ≤ s.number, s.reset.cells k = s.cells k := fun k hk =>
    Function.update_of_ne (Nat.lt_succ_of_le hk).ne _ _
  have hnew : s.reset.cells (s.number + 1) = ⟨none, false⟩ := reset_current s
  refine ⟨fun k hk => Nat.le_succ_of_le (h.numbered k hk), ?_,
    fun d hd => ⟨Nat.le_succ_of_le (h.history d hd).1, (h.history d hd).2⟩, ?_⟩
  · intro k hk
    rcases Nat.le_succ_iff.mp hk with hold | rfl
    · rw [hcells k hold]
      exact h.single k hold
    · rw [hnew]
      exact List.count_eq_zero.mpr fun hmem => absurd (h.numbered _ hmem) (Nat.not_succ_le_self _)
  · intro k hk
    rcases Nat.le_succ_iff.mp hk with hold | rfl
    · rw [hcells k hold]
      exact h.held k hold
    · rw [hnew, reset_stored, lastStored_of_lt fun d hd => Nat.lt_succ_of_le (h.history d hd).1]

/-- **What a reader gets.** A value that is not refused was written into the
current cell, and not longer ago than the age allows. -/
theorem fresh (h : Inv s) {maxAge now : ℚ} {v : α} (hfresh : s.current.fresh maxAge now = some v) :
    ∃ d ∈ s.stored, d.cell = s.number ∧ d.value = v ∧ d.storedAt ≤ s.clock ∧ now - d.storedAt ≤ maxAge := by
  unfold Cell.fresh at hfresh
  have hheld := h.held s.number le_rfl
  rw [show s.cells s.number = s.current from rfl] at hheld
  cases hc : s.current.held with
  | none =>
    rw [hc] at hfresh
    cases hfresh
  | some w =>
    obtain ⟨w, storedAt⟩ := w
    rw [hc] at hfresh hheld
    dsimp only at hfresh
    have hmem := mem_of_lastStored hheld.symm
    split at hfresh
    case isTrue => cases hfresh
    case isFalse hage =>
      obtain rfl := Option.some.inj hfresh
      exact ⟨_, hmem, rfl, rfl, (h.history _ hmem).2, not_lt.mp hage⟩

end Inv

end Cells

end ZcashFaucet.Lib
