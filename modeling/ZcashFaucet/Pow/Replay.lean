/-
ZcashFaucet.Pow.Replay — one solution, many requests, over time.

The route verifies a solution when the request arrives and burns it
seconds later, once its own gates have passed. Any number of requests
can stand between the two. The burn is an INSERT OR IGNORE, which lets
one of them through as long as the row is there; but every burn also
deletes the rows of expired challenges, and a request that verified
before the expiry may burn after it.

The DELETE and the INSERT of one burn are two events: the SQLite driver
runs them back to back, D1 in either order, and the DELETE may never
run. `spent_once` is about the runs in which no DELETE takes away a row
that a request has yet to run into (`PowGate.keepsHeld`); `spent_twice`
is a run, in the order of the SQLite driver, in which one does.
-/
import ZcashFaucet.Lib.Modify
import ZcashFaucet.Lib.Run
import ZcashFaucet.Pow.ChallengeTheorems
import Mathlib.Tactic.Linarith

namespace ZcashFaucet.Pow

open Lib Db

/-- Where a request stands. -/
inductive Gate
  | arrived
  | refused
  | verified
  | gated
  | burning
  | burned (won : Bool)
  deriving DecidableEq

structure Attempt where
  solution : Solution
  ipHash : JsString
  gate : Gate
  /-- The `now` of a DELETE this request has issued and that has not run. -/
  purgeNow : Option ℚ

structure PowGate where
  clockMs : ℚ
  attempts : List Attempt
  used : List UsedChallenge

namespace PowGate

def start (clockMs : ℚ) (used : List UsedChallenge) : PowGate := ⟨clockMs, [], used⟩

def tick (ms : ℚ) (g : PowGate) : Option PowGate :=
  if 0 ≤ ms then some { g with clockMs := g.clockMs + ms } else none

def arrive (s : Solution) (ipHash : JsString) (g : PowGate) : PowGate :=
  { g with attempts := g.attempts ++ [⟨s, ipHash, .arrived, none⟩] }

def setGate (i : Nat) (gate : Gate) (g : PowGate) : PowGate :=
  { g with attempts := g.attempts.modify i fun a => { a with gate } }

/-- `verifySolution(body.pow, …, false)`. -/
def verify (cfg : PowConfig) (i : Nat) (g : PowGate) : Option PowGate :=
  match g.attempts[i]? with
  | some ⟨s, ipHash, .arrived, _⟩ =>
      match verifySolution cfg g.clockMs s ipHash with
      | .ok _ => some (g.setGate i .verified)
      | .error _ => some (g.setGate i .refused)
  | _ => none

/-- `challengeAlreadySpent`. A read that fails lets the claim proceed. -/
def check (i : Nat) (readable : Bool) (g : PowGate) : Option PowGate :=
  match g.attempts[i]? with
  | some ⟨s, _, .verified, _⟩ =>
      some (g.setGate i (if readable && isSpent s.sig g.used then .refused else .gated))
  | _ => none

/-- One of the gates between the check and the burn refuses. -/
def refuse (i : Nat) (g : PowGate) : Option PowGate :=
  match g.attempts[i]? with
  | some ⟨_, _, .gated, _⟩ => some (g.setGate i .refused)
  | _ => none

/-- `spendVerifiedSolution` reads the clock and issues its two statements. -/
def burn (i : Nat) (g : PowGate) : Option PowGate :=
  match g.attempts[i]? with
  | some ⟨_, _, .gated, _⟩ =>
      some { g with attempts := g.attempts.modify i fun a =>
        { a with gate := .burning, purgeNow := some (unixSeconds g.clockMs) } }
  | _ => none

/-- The DELETE of a burn runs. -/
def purge (i : Nat) (g : PowGate) : Option PowGate :=
  match g.attempts[i]? with
  | some ⟨_, _, _, some now⟩ =>
      some { g with
        attempts := g.attempts.modify i fun a => { a with purgeNow := none }
        used := purgeChallenges now g.used }
  | _ => none

/-- The INSERT of a burn runs, and its answer arrives or is lost. -/
def insert (i : Nat) (delivered : Bool) (g : PowGate) : Option PowGate :=
  match g.attempts[i]? with
  | some ⟨s, _, .burning, _⟩ =>
      let res := insertChallenge s.sig s.exp g.used
      some { g.setGate i (.burned (delivered && res.2 == 1)) with used := res.1 }
  | _ => none

end PowGate

inductive GateEvent
  | tick (ms : ℚ)
  | arrive (s : Solution) (ipHash : JsString)
  | verify (i : Nat)
  | check (i : Nat) (readable : Bool)
  | refuse (i : Nat)
  | burn (i : Nat)
  | purge (i : Nat)
  | insert (i : Nat) (delivered : Bool)

def PowGate.step (cfg : PowConfig) (g : PowGate) : GateEvent → Option PowGate
  | .tick ms => g.tick ms
  | .arrive s ipHash => some (g.arrive s ipHash)
  | .verify i => g.verify cfg i
  | .check i readable => g.check i readable
  | .refuse i => g.refuse i
  | .burn i => g.burn i
  | .purge i => g.purge i
  | .insert i delivered => g.insert i delivered

/-! ## Who has won, and who still may -/

/-- The request presents the challenge of this row. -/
def Attempt.presents (r : UsedChallenge) (a : Attempt) : Bool :=
  spendKey a.solution == r.sig && a.solution.exp == r.exp

/-- `spendVerifiedSolution` answered `true`. -/
def Attempt.won (r : UsedChallenge) (a : Attempt) : Bool := a.gate == .burned true && a.presents r

/-- Verified, and yet to insert. -/
def Gate.unspent : Gate → Bool
  | .verified | .gated | .burning => true
  | _ => false

def Attempt.holds (r : UsedChallenge) (a : Attempt) : Bool := a.gate.unspent && a.presents r

/-- How many requests have bought a claim with the challenge. -/
def PowGate.wins (r : UsedChallenge) (g : PowGate) : Nat := g.attempts.countP (Attempt.won r)

/-- A DELETE takes away no row whose challenge a request has verified and
not yet tried to insert. -/
def PowGate.keepsHeld (g : PowGate) : GateEvent → Bool
  | .purge i =>
      match g.attempts[i]? with
      | some ⟨_, _, _, some now⟩ =>
          g.used.all fun r => !decide (r.exp < now) || !g.attempts.any (Attempt.holds r)
      | _ => true
  | _ => true

/-- A step of a run in which every DELETE keeps what is held. -/
def PowGate.keptStep (cfg : PowConfig) (g : PowGate) (ev : GateEvent) : Option PowGate :=
  if g.keepsHeld ev then g.step cfg ev else none

/-! ## The invariant -/

/-- Once a request has won, its row is there, or nobody can come after
it: the challenge has expired and no request that verified it is left. -/
structure OnceInv (r : UsedChallenge) (g : PowGate) : Prop where
  purges : ∀ a ∈ g.attempts, ∀ now, a.purgeNow = some now → now ≤ unixSeconds g.clockMs
  once : g.wins r = 0 ∨ g.wins r = 1 ∧
    (r ∈ g.used ∨ r.exp < unixSeconds g.clockMs ∧ ∀ a ∈ g.attempts, a.holds r = false)

theorem unixSeconds_mono {a b : ℚ} (h : a ≤ b) : unixSeconds a ≤ unixSeconds b := by
  have : a / 1000 ≤ b / 1000 := by linarith
  exact Int.cast_le.mpr (Int.floor_le_floor this)

section

variable {cfg : PowConfig} {r : UsedChallenge} {g g' : PowGate} {i : Nat} {a : Attempt}

/-- A request that changes without winning leaves the count. -/
theorem countP_won_modify {attempts : List Attempt} {f : Attempt → Attempt}
    (h : attempts[i]? = some a) (hf : (f a).won r = a.won r) :
    (attempts.modify i f).countP (Attempt.won r) = attempts.countP (Attempt.won r) := by
  obtain ⟨pre, post, rfl, hmodify⟩ := modify_split h
  rw [hmodify]
  simp only [List.countP_append, List.countP_cons, hf]

/-- A request that moves without winning, and comes to hold the challenge
only while it is alive, keeps the invariant. -/
theorem OnceInv.move (hg : OnceInv r g) {f : Attempt → Attempt} (h : g.attempts[i]? = some a)
    (hwon : (f a).won r = a.won r)
    (hholds : (f a).holds r = true → a.holds r = true ∨ unixSeconds g.clockMs ≤ r.exp)
    (hpurge : ∀ now, (f a).purgeNow = some now → now ≤ unixSeconds g.clockMs) :
    OnceInv r { g with attempts := g.attempts.modify i f } where
  purges := forall_mem_modify hg.purges fun b hb => by
    obtain rfl := Option.some.inj (h.symm.trans hb)
    exact hpurge
  once := by
    have hcount : PowGate.wins r { g with attempts := g.attempts.modify i f } = g.wins r :=
      countP_won_modify h hwon
    rw [hcount]
    refine hg.once.imp_right fun ⟨hwins, hrow⟩ => ⟨hwins, hrow.imp_right ?_⟩
    rintro ⟨hdead, hnone⟩
    refine ⟨hdead, forall_mem_modify hnone fun b hb => ?_⟩
    obtain rfl := Option.some.inj (h.symm.trans hb)
    have hold := hnone a (List.mem_of_getElem? h)
    cases hnew : (f a).holds r with
    | false => rfl
    | true =>
      rcases hholds hnew with hheld | halive
      · exact absurd hheld (by simp [hold])
      · exact absurd hdead (not_lt.mpr halive)

theorem onceInv_tick {ms : ℚ} (hg : OnceInv r g) (h : g.tick ms = some g') : OnceInv r g' := by
  unfold PowGate.tick at h
  split at h
  · rename_i hms
    obtain rfl := Option.some.inj h
    have hle : unixSeconds g.clockMs ≤ unixSeconds (g.clockMs + ms) :=
      unixSeconds_mono (by linarith)
    refine ⟨fun b hb now hnow => le_trans (hg.purges b hb now hnow) hle, ?_⟩
    exact hg.once.imp_right fun ⟨hwins, hrow⟩ =>
      ⟨hwins, hrow.imp_right fun ⟨hdead, hnone⟩ => ⟨lt_of_lt_of_le hdead hle, hnone⟩⟩
  · cases h

theorem onceInv_arrive (hg : OnceInv r g) (s : Solution) (ipHash : JsString) :
    OnceInv r (g.arrive s ipHash) where
  purges := by
    intro b hb now hnow
    rcases List.mem_append.mp hb with hb | hb
    · exact hg.purges b hb now hnow
    · rw [List.mem_singleton.mp hb] at hnow
      cases hnow
  once := by
    have hwins : (g.arrive s ipHash).wins r = g.wins r := by
      simp [PowGate.wins, PowGate.arrive, Attempt.won]
    rw [hwins]
    refine hg.once.imp_right fun ⟨h1, hrow⟩ => ⟨h1, hrow.imp_right fun ⟨hdead, hnone⟩ => ⟨hdead, ?_⟩⟩
    intro b hb
    rcases List.mem_append.mp hb with hb | hb
    · exact hnone b hb
    · rw [List.mem_singleton.mp hb]
      rfl

theorem onceInv_verify (hg : OnceInv r g) (h : g.verify cfg i = some g') : OnceInv r g' := by
  unfold PowGate.verify at h
  split at h
  · rename_i s ipHash purgeNow hi
    have hpurge := hg.purges _ (List.mem_of_getElem? hi)
    split at h
    · rename_i hok
      obtain rfl := Option.some.inj h
      refine hg.move hi rfl (fun hholds => Or.inr ?_) hpurge
      -- the challenge was alive when it was verified
      simp only [Attempt.holds, Attempt.presents, Bool.and_eq_true, beq_iff_eq] at hholds
      rw [← hholds.2.2]
      exact (verifySolution_ok hok).1
    · obtain rfl := Option.some.inj h
      exact hg.move (f := fun a => { a with gate := .refused }) hi rfl
        (fun hholds => by simp [Attempt.holds, Gate.unspent] at hholds) hpurge
  · cases h

theorem onceInv_check {readable : Bool} (hg : OnceInv r g) (h : g.check i readable = some g') :
    OnceInv r g' := by
  unfold PowGate.check at h
  split at h
  · rename_i s ipHash purgeNow hi
    obtain rfl := Option.some.inj h
    have hpurge := hg.purges _ (List.mem_of_getElem? hi)
    refine hg.move (f := fun a => { a with gate := if readable && isSpent s.sig g.used then .refused
      else .gated }) hi ?_ (fun hholds => Or.inl ?_) hpurge
    · dsimp only [Attempt.won]
      split <;> rfl
    · simp only [Attempt.holds, Bool.and_eq_true] at hholds ⊢
      exact ⟨rfl, hholds.2⟩
  · cases h

theorem onceInv_refuse (hg : OnceInv r g) (h : g.refuse i = some g') : OnceInv r g' := by
  unfold PowGate.refuse at h
  split at h
  · rename_i s ipHash purgeNow hi
    obtain rfl := Option.some.inj h
    have hpurge := hg.purges _ (List.mem_of_getElem? hi)
    exact hg.move (f := fun a => { a with gate := .refused }) hi rfl
      (fun hholds => by simp [Attempt.holds, Gate.unspent] at hholds) hpurge
  · cases h

theorem onceInv_burn (hg : OnceInv r g) (h : g.burn i = some g') : OnceInv r g' := by
  unfold PowGate.burn at h
  split at h
  · rename_i s ipHash purgeNow hi
    obtain rfl := Option.some.inj h
    refine hg.move (f := fun a => { a with
      gate := .burning, purgeNow := some (unixSeconds g.clockMs) }) hi rfl
      (fun hholds => Or.inl hholds) fun now hnow => ?_
    rw [← Option.some.inj hnow]
  · cases h

/-- A DELETE that takes the winner's row away leaves nobody to come after
it: the challenge has expired, and no request holds it. -/
theorem onceInv_purge (hg : OnceInv r g) (hkept : g.keepsHeld (.purge i) = true)
    (h : g.purge i = some g') : OnceInv r g' := by
  unfold PowGate.purge at h
  split at h
  · rename_i s ipHash gate now hi
    obtain rfl := Option.some.inj h
    have hmove := hg.move (f := fun a => { a with purgeNow := none }) hi rfl Or.inl
      (fun now hnow => by cases hnow)
    refine ⟨hmove.purges, hmove.once.imp_right fun ⟨hwins, hrow⟩ => ⟨hwins, ?_⟩⟩
    rcases hrow with hrow | hdead
    · by_cases hexp : r.exp < now
      · right
        have hnow : now ≤ unixSeconds g.clockMs := hg.purges _ (List.mem_of_getElem? hi) now rfl
        refine ⟨lt_of_lt_of_le hexp hnow, ?_⟩
        simp only [PowGate.keepsHeld, hi, List.all_eq_true, Bool.or_eq_true, Bool.not_eq_true',
          decide_eq_false_iff_not] at hkept
        have hnone := (hkept r hrow).resolve_left (not_not.mpr hexp)
        have hnone' : ∀ b ∈ g.attempts, b.holds r = false := by
          intro b hb
          exact Bool.eq_false_iff.mpr (List.any_eq_false.mp hnone b hb)
        exact forall_mem_modify hnone' fun b hb => hnone' b (List.mem_of_getElem? hb)
      · exact Or.inl (mem_purgeChallenges.mpr ⟨hrow, not_lt.mp hexp⟩)
    · exact Or.inr hdead
  · cases h

/-- The row of the request that inserts, if it presents the challenge. -/
theorem presents_iff : a.presents r = true ↔ ⟨toWellFormed a.solution.sig, a.solution.exp⟩ = r := by
  cases r
  simp [Attempt.presents, spendKey]

theorem onceInv_insert {delivered : Bool} (hg : OnceInv r g) (h : g.insert i delivered = some g') :
    OnceInv r g' := by
  unfold PowGate.insert at h
  split at h
  · rename_i s ipHash purgeNow hi
    obtain rfl := Option.some.inj h
    have hmem := List.mem_of_getElem? hi
    have hpurge := hg.purges _ hmem
    by_cases hwon : (Attempt.mk s ipHash (.burned (delivered && (insertChallenge s.sig s.exp g.used).2
        == 1)) purgeNow).won r = true
    · -- a first win: the row was not there, so nobody had won, and now it is
      have hparts := hwon
      simp only [Attempt.won, Bool.and_eq_true, beq_iff_eq, Gate.burned.injEq] at hparts
      obtain ⟨⟨-, hchanges⟩, hpresents⟩ := hparts
      have hrow := presents_iff.mp hpresents
      have habsent : r ∉ g.used := by
        intro hr
        rw [insertChallenge_changes, Bool.eq_false_iff] at hchanges
        exact hchanges (isSpent_eq_true.mpr ⟨r, hr, by rw [← hrow]⟩)
      have hzero : g.wins r = 0 := by
        rcases hg.once with h0 | ⟨-, hr | ⟨-, hnone⟩⟩
        · exact h0
        · exact absurd hr habsent
        · have := hnone _ hmem
          rw [Attempt.holds, show (Attempt.mk s ipHash .burning purgeNow).presents r = true from
            hpresents] at this
          cases this
      refine ⟨forall_mem_modify hg.purges fun b hb => ?_, Or.inr ⟨?_, Or.inl ?_⟩⟩
      · obtain rfl := Option.some.inj (hi.symm.trans hb)
        exact hpurge
      · obtain ⟨pre, post, hsplit, hmodify⟩ := modify_split hi
        unfold PowGate.wins at hzero ⊢
        rw [hsplit, List.countP_append, List.countP_cons] at hzero
        simp only [PowGate.setGate, hmodify, List.countP_append, List.countP_cons, hwon, if_pos]
        omega
      · rw [mem_of_insertChallenge hchanges, hrow]
        exact List.mem_cons_self
    · have hmove := hg.move (f := fun a => { a with gate := .burned (delivered &&
          (insertChallenge s.sig s.exp g.used).2 == 1) }) hi
        (Bool.eq_false_iff.mpr hwon) (fun hholds => by simp [Attempt.holds, Gate.unspent] at hholds)
        hpurge
      refine ⟨hmove.purges, hmove.once.imp_right fun ⟨hwins, hrow⟩ => ⟨hwins, hrow.imp_left ?_⟩⟩
      exact mem_insertChallenge
  · cases h

theorem onceInv_step {ev : GateEvent} (hg : OnceInv r g) (h : g.keptStep cfg ev = some g') :
    OnceInv r g' := by
  unfold PowGate.keptStep at h
  split at h
  · rename_i hkept
    cases ev with
    | tick ms => exact onceInv_tick hg h
    | arrive s ipHash =>
      obtain rfl := Option.some.inj h
      exact onceInv_arrive hg s ipHash
    | verify i => exact onceInv_verify hg h
    | check i readable => exact onceInv_check hg h
    | refuse i => exact onceInv_refuse hg h
    | burn i => exact onceInv_burn hg h
    | purge i => exact onceInv_purge hg hkept h
    | insert i delivered => exact onceInv_insert hg h
  · cases h

end

/-- **A challenge buys at most one claim** in every run in which no DELETE
takes away the row of a challenge that a request still holds. -/
theorem spent_once {cfg : PowConfig} {clockMs : ℚ} {used : List UsedChallenge} {es : List GateEvent}
    {g : PowGate} (h : run (PowGate.keptStep cfg) (.start clockMs used) es = some g)
    (r : UsedChallenge) : g.wins r ≤ 1 := by
  have hinit : OnceInv r (.start clockMs used) :=
    ⟨fun a ha => absurd ha List.not_mem_nil, Or.inl rfl⟩
  have hg := run_invariant (OnceInv r) (fun _ _ _ hg hstep => onceInv_step hg hstep) hinit h
  rcases hg.once with hwins | ⟨hwins, -⟩ <;> omega

/-- The challenge of `spelled lowerSig`, as a row. -/
def lowerRow : UsedChallenge := ⟨lowerSig, 1800000600⟩

/-- Two requests with one solution pass the gates. -/
def bothGated : List GateEvent :=
  [.arrive (spelled lowerSig) (js "anon"), .arrive (spelled lowerSig) (js "anon"), .verify 0, .verify 1,
    .check 0 true, .check 1 true]

/-- Both burn before the expiry, as the SQLite driver runs it. -/
def promptRun : List GateEvent :=
  bothGated ++ [.burn 0, .purge 0, .insert 0 true, .burn 1, .purge 1, .insert 1 true]

theorem spent_once_promptRun :
    ∃ g, run (PowGate.keptStep eightBits) (.start 1800000598000 []) promptRun = some g ∧
      g.wins lowerRow = 1 ∧ ∀ r, g.wins r ≤ 1 := by
  have hview : (run (PowGate.keptStep eightBits) (.start 1800000598000 []) promptRun).map
      (PowGate.wins lowerRow) = some 1 := by
    rw [← eightBits_knows]
    decide +kernel
  obtain ⟨g, hg, hwins⟩ := Option.map_eq_some_iff.mp hview
  exact ⟨g, hg, hwins, spent_once hg⟩

/-- The second burns three seconds later, past the expiry. -/
def lateRun : List GateEvent :=
  bothGated ++ [.burn 0, .purge 0, .insert 0 true, .tick 3000, .burn 1, .purge 1, .insert 1 true]

/-- The second burn deletes the row of the first, and wins again. -/
theorem spent_twice_lateRun :
    ∃ g, run (PowGate.step eightBits) (.start 1800000598000 []) lateRun = some g ∧
      g.wins lowerRow = 2 := by
  have hview : (run (PowGate.step eightBits) (.start 1800000598000 []) lateRun).map
      (PowGate.wins lowerRow) = some 2 := by
    rw [← eightBits_knows]
    decide +kernel
  obtain ⟨g, hg, hwins⟩ := Option.map_eq_some_iff.mp hview
  exact ⟨g, hg, hwins⟩

end ZcashFaucet.Pow
