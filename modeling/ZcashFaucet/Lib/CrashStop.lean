/-
ZcashFaucet.Lib.CrashStop — a list of instructions that may be cut off.

A machine executes instructions that each take effect at once or fail. A
budget says how many it gets to execute; when it is spent, the next
instruction halts the machine and everything after it is skipped. So a
crash is a budget, and the states a crash can leave behind are the states
of the machine for every budget.

`Reaches I A` is the assertion of this little logic: `I` holds whatever
happened, and `A` holds if the machine is still running.
`Reaches.exec` is its rule for one instruction.
-/
import Mathlib.Data.List.Basic

namespace ZcashFaucet.Lib

variable {σ ι : Type}

/-- Why a machine no longer runs. -/
inductive Halt
  | cut
  | threw (message : String)
  deriving DecidableEq, Repr

structure Machine (σ : Type) where
  state : σ
  /-- How many more instructions it may execute; `none` for no bound. -/
  left : Option Nat
  halted : Option Halt

namespace Machine

def start (state : σ) (budget : Option Nat) : Machine σ := ⟨state, budget, none⟩

def exec (step : ι → σ → Except String σ) (m : Machine σ) (i : ι) : Machine σ :=
  match m.halted, m.left with
  | some _, _ => m
  | none, some 0 => { m with halted := some .cut }
  | none, left =>
      match step i m.state with
      | .ok state => ⟨state, left.map (· - 1), none⟩
      | .error e => { m with halted := some (.threw e) }

def execAll (step : ι → σ → Except String σ) (m : Machine σ) (is : List ι) : Machine σ :=
  is.foldl (exec step) m

variable {step : ι → σ → Except String σ} {m : Machine σ} {i : ι}

theorem exec_halted {h : Halt} (hm : m.halted = some h) : m.exec step i = m := by
  unfold exec
  rw [hm]

theorem execAll_halted {h : Halt} (hm : m.halted = some h) : ∀ is : List ι, m.execAll step is = m
  | [] => rfl
  | i :: is => by
      rw [execAll, List.foldl_cons, exec_halted hm]
      exact execAll_halted hm is

theorem exec_cut (hrun : m.halted = none) (hleft : m.left = some 0) :
    m.exec step i = ⟨m.state, some 0, some .cut⟩ := by
  simp only [exec, hrun, hleft]

theorem exec_ok {s : σ} (hrun : m.halted = none) (hleft : m.left ≠ some 0)
    (hstep : step i m.state = .ok s) : m.exec step i = ⟨s, m.left.map (· - 1), none⟩ := by
  unfold exec
  rw [hrun]
  cases hl : m.left with
  | none => simp [hstep]
  | some n =>
    cases n with
    | zero => exact absurd hl hleft
    | succ n => simp [hstep]

theorem exec_error {e : String} (hrun : m.halted = none) (hleft : m.left ≠ some 0)
    (hstep : step i m.state = .error e) : m.exec step i = { m with halted := some (.threw e) } := by
  unfold exec
  rw [hrun]
  cases hl : m.left with
  | none => simp [hstep]
  | some n =>
    cases n with
    | zero => exact absurd hl hleft
    | succ n => simp [hstep]

/-- What one instruction does: nothing (and the machine has halted), or its
step. -/
theorem exec_cases (step : ι → σ → Except String σ) (m : Machine σ) (i : ι) :
    (m.exec step i).state = m.state ∧ (m.exec step i).halted ≠ none ∨
      ∃ s, step i m.state = .ok s ∧ m.exec step i = ⟨s, m.left.map (· - 1), none⟩ ∧
        m.left ≠ some 0 := by
  cases hrun : m.halted with
  | some h =>
    left
    rw [exec_halted hrun, hrun]
    exact ⟨rfl, Option.some_ne_none h⟩
  | none =>
    by_cases hleft : m.left = some 0
    · left
      rw [exec_cut hrun hleft]
      exact ⟨rfl, by simp⟩
    · cases hstep : step i m.state with
      | error e =>
        left
        rw [exec_error hrun hleft hstep]
        exact ⟨rfl, by simp⟩
      | ok s =>
        right
        exact ⟨s, rfl, exec_ok hrun hleft hstep, hleft⟩

/-- An instruction that fails is the last one. -/
theorem execAll_refused {is : List ι} {e : String} (hstep : step i m.state = .error e) :
    (m.execAll step (i :: is)).state = m.state := by
  have htail : m.execAll step (i :: is) = (m.exec step i).execAll step is := rfl
  rw [htail]
  rcases exec_cases step m i with ⟨hstate, hhalted⟩ | ⟨s, hok, -⟩
  · obtain ⟨halt, hhalt⟩ := Option.ne_none_iff_exists'.mp hhalted
    rw [execAll_halted hhalt, hstate]
  · rw [hstep] at hok
    cases hok

/-- A machine with no bound is never cut off. -/
structure Unbounded (m : Machine σ) : Prop where
  left : m.left = none
  halted : m.halted ≠ some .cut

theorem unbounded_start (s : σ) : Unbounded (start s none) := ⟨rfl, by simp [start]⟩

theorem Unbounded.exec (hm : Unbounded m) : Unbounded (m.exec step i) := by
  obtain ⟨s, left, halted⟩ := m
  obtain ⟨rfl, hcut⟩ : left = none ∧ halted ≠ some .cut := ⟨hm.left, hm.halted⟩
  cases halted with
  | some h =>
    rw [exec_halted rfl]
    exact hm
  | none =>
    simp only [Machine.exec]
    split
    · exact ⟨rfl, by simp⟩
    · exact ⟨rfl, by simp⟩

theorem Unbounded.execAll : ∀ (is : List ι) {m : Machine σ}, Unbounded m → Unbounded (m.execAll step is)
  | [], _, hm => hm
  | _ :: is, _, hm => Unbounded.execAll is hm.exec

/-- `I` holds, and `A` holds of a machine that is still running; nothing
was thrown. -/
structure Reaches (I A : σ → Prop) (m : Machine σ) : Prop where
  inv : I m.state
  here : m.halted = none → A m.state
  unthrown : ∀ e, m.halted ≠ some (.threw e)

variable {I A B : σ → Prop}

theorem reaches_start {s : σ} (budget : Option Nat) (hI : I s) (hA : A s) :
    Reaches I A (start s budget) :=
  ⟨hI, fun _ => hA, fun e => by simp [start]⟩

theorem Reaches.weaken (hm : Reaches I A m) (h : I m.state → A m.state → B m.state) : Reaches I B m :=
  ⟨hm.inv, fun hrun => h hm.inv (hm.here hrun), hm.unthrown⟩

theorem Reaches.halted {h : Halt} (hm : Reaches I A m) (hhalt : m.halted = some h) : Reaches I B m :=
  ⟨hm.inv, fun hrun => absurd (hhalt.symm.trans hrun) (Option.some_ne_none h), hm.unthrown⟩

/-- **Rule for one instruction.** -/
theorem Reaches.exec (hm : Reaches I A m)
    (h : ∀ s, I s → A s → ∃ s', step i s = .ok s' ∧ I s' ∧ B s') :
    Reaches I B (m.exec step i) := by
  cases hrun : m.halted with
  | some halt =>
    rw [exec_halted hrun]
    exact hm.halted hrun
  | none =>
    by_cases hleft : m.left = some 0
    · rw [exec_cut hrun hleft]
      exact ⟨hm.inv, (by simp), fun e => by simp⟩
    · obtain ⟨s', hstep, hI, hB⟩ := h _ hm.inv (hm.here hrun)
      rw [exec_ok hrun hleft hstep]
      exact ⟨hI, fun _ => hB, fun e => by simp⟩

/-- A machine with no bound that reaches an assertion has done so. -/
theorem Reaches.done (hm : Reaches I A m) (hu : Unbounded m) : m.halted = none ∧ I m.state ∧ A m.state := by
  have hrun : m.halted = none := by
    cases h : m.halted with
    | none => rfl
    | some halt =>
      cases halt with
      | cut => exact absurd h hu.halted
      | threw e => exact absurd h (hm.unthrown e)
  exact ⟨hrun, hm.inv, hm.here hrun⟩

theorem running_of_execAll {is : List ι} (hrun : (m.execAll step is).halted = none) : m.halted = none := by
  cases h : m.halted with
  | none => rfl
  | some halt =>
    rw [execAll_halted h, h] at hrun
    cases hrun

/-- A machine that is still running after some instructions has executed
each of them, and its budget sufficed. -/
theorem execAll_left : ∀ (is : List ι) {m : Machine σ}, (m.execAll step is).halted = none →
    (m.execAll step is).left = m.left.map (· - is.length) ∧ ∀ n ∈ m.left, is.length ≤ n
  | [], m, _ => ⟨by cases h : m.left <;> simp [execAll, h], fun n _ => Nat.zero_le n⟩
  | i :: is, m, hrun => by
      have htail : m.execAll step (i :: is) = (m.exec step i).execAll step is := rfl
      rw [htail] at hrun ⊢
      obtain ⟨hleft, henough⟩ := execAll_left is hrun
      rcases exec_cases step m i with ⟨-, hhalted⟩ | ⟨s, -, hm, hleft0⟩
      · exact absurd (running_of_execAll hrun) hhalted
      · rw [hleft]
        rw [hm] at henough ⊢
        cases hl : m.left with
        | none => simp
        | some n =>
          rw [hl] at henough hleft0
          have hn := henough (n - 1) (by simp)
          have hpos : n ≠ 0 := fun h => hleft0 (by rw [h])
          refine ⟨?_, fun k hk => ?_⟩
          · simp only [Option.map_some, List.length_cons, Option.some.injEq]
            omega
          · cases hk
            simp only [List.length_cons]
            omega

/-- A cut machine has no budget left. -/
theorem execAll_cut : ∀ (is : List ι) {m : Machine σ}, m.halted = none →
    (m.execAll step is).halted = some .cut → ∃ n ∈ m.left, n < is.length
  | [], m, hrun, hcut => by
      have hsame : (m.execAll step []).halted = none := hrun
      rw [hsame] at hcut
      cases hcut
  | i :: is, m, hrun, hcut => by
      have htail : m.execAll step (i :: is) = (m.exec step i).execAll step is := rfl
      rw [htail] at hcut
      by_cases hleft : m.left = some 0
      · exact ⟨0, hleft, Nat.succ_pos _⟩
      · cases hstep : step i m.state with
        | error e =>
          rw [exec_error hrun hleft hstep, execAll_halted rfl] at hcut
          cases hcut
        | ok s =>
          rw [exec_ok hrun hleft hstep] at hcut
          obtain ⟨k, hk, hlt⟩ := execAll_cut is rfl hcut
          obtain ⟨n, hn, rfl⟩ := Option.map_eq_some_iff.mp hk
          refine ⟨n, hn, ?_⟩
          simp only [List.length_cons]
          omega

/-- The machine was given `budget`, and is past `k` instructions unless it
has halted. -/
structure Spent (budget : Option Nat) (k : Nat) (m : Machine σ) : Prop where
  running : m.halted = none → m.left = budget.map (· - k) ∧ ∀ n ∈ budget, k ≤ n
  cut : m.halted = some .cut → ∃ n ∈ budget, n < k

theorem spent_start (s : σ) (budget : Option Nat) : Spent budget 0 (start s budget) :=
  ⟨fun _ => ⟨by cases budget <;> rfl, fun _ _ => Nat.zero_le _⟩, fun h => by cases h⟩

theorem Spent.mono {budget : Option Nat} {k l : Nat} {h : Halt} (hm : Spent budget k m) (hkl : k ≤ l)
    (hhalt : m.halted = some h) : Spent budget l m := by
  refine ⟨fun hrun => absurd (hhalt.symm.trans hrun) (Option.some_ne_none h), fun hcut => ?_⟩
  obtain ⟨n, hn, hlt⟩ := hm.cut hcut
  exact ⟨n, hn, Nat.lt_of_lt_of_le hlt hkl⟩

theorem Spent.execAll {budget : Option Nat} {k : Nat} (hm : Spent budget k m) (is : List ι) :
    Spent budget (k + is.length) (m.execAll step is) := by
  constructor
  · intro hrun
    obtain ⟨hleft, henough⟩ := hm.running (running_of_execAll hrun)
    obtain ⟨hleft', henough'⟩ := execAll_left is hrun
    rw [hleft] at hleft' henough'
    refine ⟨?_, fun n hn => ?_⟩
    · rw [hleft']
      cases budget with
      | none => rfl
      | some n => simp [Nat.sub_sub]
    · have hk := henough n hn
      have hlen := henough' (n - k) (Option.map_eq_some_iff.mpr ⟨n, hn, rfl⟩)
      omega
  · intro hcut
    cases hrun : m.halted with
    | some halt =>
      rw [execAll_halted hrun] at hcut
      obtain ⟨n, hn, hlt⟩ := hm.cut hcut
      exact ⟨n, hn, by omega⟩
    | none =>
      obtain ⟨hleft, henough⟩ := hm.running hrun
      obtain ⟨l, hl, hlt⟩ := execAll_cut is hrun hcut
      rw [hleft] at hl
      obtain ⟨n, hn, rfl⟩ := Option.map_eq_some_iff.mp hl
      have := henough n hn
      exact ⟨n, hn, by omega⟩

/-- The instructions one after the other, with no machine around them. -/
def sequence (step : ι → σ → Except String σ) (is : List ι) (s : σ) : Except String σ :=
  is.foldlM (fun s i => step i s) s

theorem sequence_cons {is : List ι} {s s1 : σ} (hstep : step i s = .ok s1) :
    sequence step (i :: is) s = sequence step is s1 := by
  simp [sequence, hstep, bind, Except.bind]

/-- A budget that suffices for a block executes all of it. -/
theorem execAll_whole : ∀ (is : List ι) {m : Machine σ} {s : σ}, m.halted = none →
    (∀ n ∈ m.left, is.length ≤ n) → sequence step is m.state = .ok s →
      m.execAll step is = ⟨s, m.left.map (· - is.length), none⟩
  | [], ⟨state, left, halted⟩, s, hrun, _, hseq => by
      cases hseq
      cases hrun
      cases left <;> rfl
  | i :: is, m, s, hrun, henough, hseq => by
      cases hstep : step i m.state with
      | error e => simp [sequence, hstep, bind, Except.bind] at hseq
      | ok s1 =>
        rw [sequence_cons hstep] at hseq
        have hleft : m.left ≠ some 0 := by
          intro h0
          exact absurd (henough 0 h0) (by simp)
        have htail : m.execAll step (i :: is) = (m.exec step i).execAll step is := rfl
        rw [htail, exec_ok hrun hleft hstep]
        rw [execAll_whole is rfl ?_ hseq]
        · cases m.left with
          | none => rfl
          | some n => simp [Nat.sub_sub, Nat.add_comm]
        · intro k hk
          obtain ⟨n, hn, rfl⟩ := Option.map_eq_some_iff.mp hk
          have := henough n hn
          simp only [List.length_cons] at this
          omega

/-- What no successful step undoes, no instructions undo. -/
theorem execAll_preserves {J : σ → Prop} : ∀ (is : List ι) {m : Machine σ}, J m.state →
    (∀ i ∈ is, ∀ s s', J s → step i s = .ok s' → J s') → J (m.execAll step is).state
  | [], _, hJ, _ => hJ
  | i :: is, m, hJ, h => by
      refine execAll_preserves is (m := m.exec step i) ?_ fun j hj =>
        h j (List.mem_cons_of_mem _ hj)
      rcases exec_cases step m i with ⟨hstate, -⟩ | ⟨s, hstep, hm, -⟩
      · rw [hstate]
        exact hJ
      · rw [hm]
        exact h i List.mem_cons_self _ _ hJ hstep

end Machine

end ZcashFaucet.Lib
