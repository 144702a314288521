/-
ZcashFaucet.Miner.SolveTheorems — what a search for a block keeps, in any
order of its parties' steps.

A step of one solver leaves the others, the watcher and the main thread alone
(`SolverStep`), so what is known of each solver (`SolverInv`) is kept by its
own five steps and by the flags being set only once. The join order and the
watcher have an invariant each, and `SearchInv` is all of them.

The header that comes out is a hit for one of the nonces that were begun, and
`found` is never set for nothing: where it is, `solve` returns a header. The
search is abandoned if and only if a read of the tip was another block.
-/
import Mathlib.Data.List.Nodup
import ZcashFaucet.Miner.Accounting
import ZcashFaucet.Miner.Solve

namespace ZcashFaucet.Miner

open Lib

/-! ## Nonces -/

theorem nonceOf_toList (id : Nat) (counter : UInt64) :
    (nonceOf id counter).toList = id.toUInt8 :: leBytes 8 counter.toNat ++ List.replicate 23 0 := by
  rw [nonceOf, toList_copyInto _ _ _ (by simp), Vector.toList_setIfInBounds, Vector.toList_replicate]
  simp

theorem nonceOf_inj {id id' : Nat} {counter counter' : UInt64} (hid : id < 256) (hid' : id' < 256)
    (h : nonceOf id counter = nonceOf id' counter') : id = id' ∧ counter = counter' := by
  have hlists := congrArg Vector.toList h
  rw [nonceOf_toList, nonceOf_toList, List.append_left_inj, List.cons.injEq] at hlists
  obtain ⟨hids, hcounters⟩ := hlists
  have hvalues := congrArg leValue hcounters
  rw [leValue_leBytes (by simpa using counter.toNat_lt), leValue_leBytes (by simpa using counter'.toNat_lt)] at hvalues
  refine ⟨?_, UInt64.toNat_inj.mp hvalues⟩
  have hnats := congrArg UInt8.toNat hids
  simp only [Nat.toUInt8, UInt8.toNat_ofNat'] at hnats
  omega

/-- The nonces one solver began. -/
def noncesOf (id : Nat) (tried : List (Nat × Vector UInt8 32)) : List (Vector UInt8 32) :=
  (tried.filter fun e => e.1 = id).map Prod.snd

theorem noncesOf_snoc_self (id : Nat) (nonce : Vector UInt8 32) (tried : List (Nat × Vector UInt8 32)) :
    noncesOf id (tried ++ [(id, nonce)]) = noncesOf id tried ++ [nonce] := by
  simp [noncesOf]

theorem noncesOf_append_other {id : Nat} {more : List (Nat × Vector UInt8 32)} (hmore : ∀ e ∈ more, e.1 ≠ id)
    (tried : List (Nat × Vector UInt8 32)) : noncesOf id (tried ++ more) = noncesOf id tried := by
  have hnone : more.filter (fun e => decide (e.1 = id)) = [] :=
    List.filter_eq_nil_iff.mpr fun e he => by simpa using hmore e he
  rw [noncesOf, List.filter_append, hnone, List.append_nil, noncesOf]

/-- What the loop over the solutions leaves. -/
theorem trySolutions_spec {target : Vector UInt8 32} {solutions : List (Vec UInt8)} :
    ∀ {header header' : Header} {hit : Bool}, trySolutions target header solutions = (header', hit) →
      header'.prefixBytes = header.prefixBytes ∧ header'.nonce = header.nonce ∧
        (hit = true → header'.solution ∈ solutions ∧ meetsTarget header'.hashLe target = true) := by
  induction solutions with
  | nil =>
    intro header header' hit h
    obtain ⟨rfl, rfl⟩ := Prod.mk.inj h
    simp
  | cons solution solutions ih =>
    intro header header' hit h
    unfold trySolutions at h
    dsimp only at h
    split at h
    case isTrue hmeets =>
      obtain ⟨rfl, rfl⟩ := Prod.mk.inj h
      exact ⟨rfl, rfl, fun _ => ⟨List.mem_cons_self, hmeets⟩⟩
    case isFalse =>
      obtain ⟨hbytes, hnonce, hhit⟩ := ih h
      refine ⟨hbytes, hnonce, fun htrue => ?_⟩
      obtain ⟨hmem, hmeets⟩ := hhit htrue
      exact ⟨List.mem_cons_of_mem _ hmem, hmeets⟩

/-! ## The invariant -/

section Invariant

variable (cfg : SearchConfig)

/-- A header with a nonce of that solver, a solution of it, and a hash that
meets the target. -/
structure Hit (tried : List (Nat × Vector UInt8 32)) (id : Nat) (h : Header) : Prop where
  same : h.prefixBytes = cfg.header.prefixBytes
  begun : h.nonce ∈ noncesOf id tried
  solved : h.solution ∈ cfg.solve2009 cfg.header.prefixBytes h.nonce
  meets : meetsTarget h.hashLe cfg.target = true

structure SolverInv (s : Search) (id : Nat) : Prop where
  same : (s.solvers id).header.prefixBytes = cfg.header.prefixBytes
  counter : (s.solvers id).counter = UInt64.ofNat (noncesOf id s.tried).length
  nonces : noncesOf id s.tried = (List.range (noncesOf id s.tried).length).map fun k => nonceOf id (UInt64.ofNat k)
  solving : ∀ nonce, (s.solvers id).phase = .solves nonce →
    (s.solvers id).header.nonce = nonce ∧ nonce ∈ noncesOf id s.tried
  hit : ∀ h, (s.solvers id).phase = .returned (some h) → Hit cfg s.tried id h
  missed : (s.solvers id).phase = .returned none → s.found = true ∨ s.abandon = true ∨ cfg.deadline ≤ s.clock

/-- The solver has ended without a header. -/
def Empty (s : Search) (id : Nat) : Prop :=
  (s.solvers id).phase = .returned none ∨ (s.solvers id).phase = .panicked

/-- What `solve` returned: the first header in the order of the joins. -/
def Joined (s : Search) : Option Header → Prop
  | none => ∀ j < cfg.threads, Empty s j
  | some h => ∃ i < cfg.threads, (s.solvers i).phase = .returned (some h) ∧ ∀ j < i, Empty s j

def MainInv (s : Search) : Prop :=
  match s.main with
  | .joins i => s.stopped = false ∧ ∀ j < i, Empty s j
  | .stops solved => s.stopped = false ∧ Joined cfg s solved
  | .joinsWatcher solved => s.stopped = true ∧ Joined cfg s solved
  | .done solved => s.stopped = true ∧ Joined cfg s solved ∧ s.watcher = .returned

/-- Every text the node gave for its tip is the parent. -/
def OnParent (readings : List (Option JsString)) : Prop := ∀ tip, some tip ∈ readings → tip = cfg.parent

structure WatchInv (s : Search) : Prop where
  quiet : s.abandon = false → OnParent cfg s.readings
  moved : s.abandon = true → s.watcher = .returned ∧
    ∃ earlier tip, s.readings = earlier ++ [some tip] ∧ tip ≠ cfg.parent ∧ OnParent cfg earlier
  returned : s.watcher = .returned → s.abandon = true ∨ s.stopped = true
  before : s.stopped = false → s.readsAfterStop = 0
  once : s.readsAfterStop ≤ 1
  last : s.readsAfterStop = 1 → s.watcher = .waits ∨ s.watcher = .returned

structure SearchInv (s : Search) : Prop where
  solvers : ∀ id, SolverInv cfg s id
  known : ∀ e ∈ s.tried, e.1 < cfg.threads
  found : s.found = true ↔ ∃ id < cfg.threads, ∃ h, (s.solvers id).phase = .returned (some h)
  main : MainInv cfg s
  watched : WatchInv cfg s

end Invariant

variable {cfg : SearchConfig} {s s' : Search} {id : Nat}

theorem withPhase_self (id : Nat) (phase : SolverPhase) (s : Search) :
    (s.withPhase id phase).solvers id = { s.solvers id with phase := phase } := Function.update_self _ _ _

theorem begin_self (id : Nat) (s : Search) :
    (s.begin id).solvers id = ⟨.solves (nonceOf id (s.solvers id).counter), (s.solvers id).counter + 1,
      { (s.solvers id).header with nonce := nonceOf id (s.solvers id).counter }⟩ := Function.update_self _ _ _

/-! ## A step of one solver -/

/-- The solver has ended. -/
def Through (s : Search) (id : Nat) : Prop := Empty s id ∨ ∃ h, (s.solvers id).phase = .returned (some h)

/-- What a step of solver `id` leaves alone, and what it may add. -/
structure SolverStep (cfg : SearchConfig) (s s' : Search) (id : Nat) : Prop where
  inside : id < cfg.threads
  running : ¬ Through s id
  others : ∀ j, j ≠ id → s'.solvers j = s.solvers j
  clock : s'.clock = s.clock
  abandon : s'.abandon = s.abandon
  stopped : s'.stopped = s.stopped
  watcher : s'.watcher = s.watcher
  main : s'.main = s.main
  readings : s'.readings = s.readings
  readsAfterStop : s'.readsAfterStop = s.readsAfterStop
  found : s'.found = true ↔ s.found = true ∨ ∃ h, (s'.solvers id).phase = .returned (some h)
  tried : ∃ more, s'.tried = s.tried ++ more ∧ ∀ e ∈ more, e.1 = id

/-- A solver that is left alone keeps what is known of it. -/
theorem SolverInv.of_same (h : SolverInv cfg s id) (hsolver : s'.solvers id = s.solvers id)
    (hnonces : noncesOf id s'.tried = noncesOf id s.tried) (hfound : s.found = true → s'.found = true)
    (habandon : s.abandon = true → s'.abandon = true) (hclock : s.clock ≤ s'.clock) : SolverInv cfg s' id := by
  refine ⟨?_, ?_, ?_, ?_, ?_, ?_⟩
  · rw [hsolver]
    exact h.same
  · rw [hsolver, hnonces]
    exact h.counter
  · rw [hnonces]
    exact h.nonces
  · rw [hsolver, hnonces]
    exact h.solving
  · rw [hsolver]
    intro header hphase
    obtain ⟨hsame, hbegun, hsolved, hmeets⟩ := h.hit header hphase
    exact ⟨hsame, by rw [hnonces]; exact hbegun, hsolved, hmeets⟩
  · rw [hsolver]
    intro hphase
    exact (h.missed hphase).imp hfound (Or.imp habandon (le_trans · hclock))

namespace SolverStep

theorem empty (h : SolverStep cfg s s' id) {j : Nat} (hj : Empty s j) : Empty s' j := by
  have hne : j ≠ id := fun heq => h.running (.inl (heq ▸ hj))
  rw [Empty, h.others j hne]
  exact hj

theorem joined (h : SolverStep cfg s s' id) {solved : Option Header} (hj : Joined cfg s solved) :
    Joined cfg s' solved := by
  cases solved with
  | none => exact fun j hlt => h.empty (hj j hlt)
  | some header =>
    obtain ⟨i, hi, hphase, hbefore⟩ := hj
    have hne : i ≠ id := fun heq => h.running (.inr ⟨header, heq ▸ hphase⟩)
    refine ⟨i, hi, ?_, fun j hlt => h.empty (hbefore j hlt)⟩
    rw [h.others i hne]
    exact hphase

theorem mainInv (h : SolverStep cfg s s' id) (hmain : MainInv cfg s) : MainInv cfg s' := by
  unfold MainInv at hmain ⊢
  rw [h.main, h.stopped, h.watcher]
  cases hphase : s.main with
  | joins i =>
    rw [hphase] at hmain
    exact ⟨hmain.1, fun j hlt => h.empty (hmain.2 j hlt)⟩
  | stops solved =>
    rw [hphase] at hmain
    exact ⟨hmain.1, h.joined hmain.2⟩
  | joinsWatcher solved =>
    rw [hphase] at hmain
    exact ⟨hmain.1, h.joined hmain.2⟩
  | done solved =>
    rw [hphase] at hmain
    exact ⟨hmain.1, h.joined hmain.2.1, hmain.2.2⟩

/-- The invariant, where the solver's own part of it is kept. -/
theorem searchInv (h : SolverStep cfg s s' id) (hinv : SearchInv cfg s) (hown : SolverInv cfg s' id) :
    SearchInv cfg s' := by
  obtain ⟨more, htried, hmore⟩ := h.tried
  refine ⟨fun j => ?_, ?_, ?_, h.mainInv hinv.main, ?_⟩
  · by_cases hj : j = id
    · subst hj
      exact hown
    · refine (hinv.solvers j).of_same (h.others j hj) ?_ (fun hf => h.found.mpr (.inl hf)) ?_ h.clock.ge
      · rw [htried]
        exact noncesOf_append_other (fun e he heq => hj (heq.symm.trans (hmore e he))) _
      · rw [h.abandon]
        exact fun ha => ha
  · rw [htried]
    intro e he
    rcases List.mem_append.mp he with hold | hnew
    · exact hinv.known e hold
    · rw [hmore e hnew]
      exact h.inside
  · rw [h.found, hinv.found]
    refine ⟨?_, ?_⟩
    · rintro (⟨j, hj, header, hphase⟩ | ⟨header, hphase⟩)
      · have hne : j ≠ id := fun heq => h.running (.inr ⟨header, heq ▸ hphase⟩)
        exact ⟨j, hj, header, by rw [h.others j hne]; exact hphase⟩
      · exact ⟨id, h.inside, header, hphase⟩
    · rintro ⟨j, hj, header, hphase⟩
      by_cases hne : j = id
      · subst hne
        exact .inr ⟨header, hphase⟩
      · rw [h.others j hne] at hphase
        exact .inl ⟨j, hj, header, hphase⟩
  · obtain ⟨hquiet, hmoved, hreturned, hbefore, honce, hlast⟩ := hinv.watched
    refine ⟨?_, ?_, ?_, ?_, ?_, ?_⟩
    · rw [h.abandon, h.readings]
      exact hquiet
    · rw [h.abandon, h.readings, h.watcher]
      exact hmoved
    · rw [h.abandon, h.watcher, h.stopped]
      exact hreturned
    · rw [h.stopped, h.readsAfterStop]
      exact hbefore
    · rw [h.readsAfterStop]
      exact honce
    · rw [h.readsAfterStop, h.watcher]
      exact hlast

end SolverStep

/-! ## The steps -/

/-- What the main thread does is nothing to the watcher. -/
theorem WatchInv.of_main {main : MainPhase} (h : WatchInv cfg s) : WatchInv cfg { s with main := main } := by
  obtain ⟨hquiet, hmoved, hreturned, hbefore, honce, hlast⟩ := h
  exact ⟨hquiet, hmoved, hreturned, hbefore, honce, hlast⟩

namespace SearchInv

/-- A step that only moves the solver in its loop, or out of it empty. -/
theorem withPhase (h : SearchInv cfg s) (hid : id < cfg.threads) (hrunning : ¬ Through s id) {phase : SolverPhase}
    (hsolves : ∀ nonce, phase ≠ .solves nonce) (hhit : ∀ header, phase ≠ .returned (some header))
    (hmissed : phase = .returned none → s.found = true ∨ s.abandon = true ∨ cfg.deadline ≤ s.clock) :
    SearchInv cfg (s.withPhase id phase) := by
  have hown := withPhase_self id phase s
  have hbefore := h.solvers id
  have hstep : SolverStep cfg s (s.withPhase id phase) id := by
    refine ⟨hid, hrunning, fun j hj => Function.update_of_ne hj _ _, rfl, rfl, rfl, rfl, rfl, rfl, rfl, ?_, [], ?_⟩
    · rw [hown]
      refine ⟨.inl, fun hfound => hfound.elim (fun hf => hf) ?_⟩
      rintro ⟨header, hphase⟩
      exact absurd hphase (hhit header)
    · simp [Search.withPhase]
  refine hstep.searchInv h ⟨?_, ?_, hbefore.nonces, ?_, ?_, ?_⟩
  · rw [hown]
    exact hbefore.same
  · rw [hown]
    exact hbefore.counter
  · rw [hown]
    exact fun nonce hphase => absurd hphase (hsolves nonce)
  · rw [hown]
    exact fun header hphase => absurd hphase (hhit header)
  · rw [hown]
    exact hmissed

theorem begin (h : SearchInv cfg s) (hid : id < cfg.threads) (hphase : (s.solvers id).phase = .readsClock) :
    SearchInv cfg (s.begin id) := by
  obtain ⟨hsame, hcounter, hnonces, -, -, -⟩ := h.solvers id
  have hown := begin_self id s
  have htried : noncesOf id (s.begin id).tried = noncesOf id s.tried ++ [nonceOf id (s.solvers id).counter] :=
    noncesOf_snoc_self id _ _
  have hrunning : ¬ Through s id := by
    rintro ((hnone | hpanicked) | ⟨header, hsome⟩) <;> simp_all
  have hstep : SolverStep cfg s (s.begin id) id := by
    refine ⟨hid, hrunning, fun j hj => Function.update_of_ne hj _ _, rfl, rfl, rfl, rfl, rfl, rfl, rfl, ?_, _, rfl, ?_⟩
    · rw [hown]
      simp [Search.begin]
    · simp
  refine hstep.searchInv h ⟨?_, ?_, ?_, ?_, ?_, ?_⟩
  · rw [hown]
    exact hsame
  · rw [hown, htried, List.length_append, List.length_singleton, hcounter, UInt64.ofNat_add]
    rfl
  · rw [htried, List.length_append, List.length_singleton, List.range_succ, List.map_append, ← hnonces, hcounter]
    rfl
  · rw [hown, htried]
    intro nonce hnonce
    obtain rfl := SolverPhase.solves.inj hnonce
    exact ⟨rfl, List.mem_append_right _ (List.mem_singleton_self _)⟩
  · rw [hown]
    exact nofun
  · rw [hown]
    exact nofun

theorem finish (h : SearchInv cfg s) (hid : id < cfg.threads) {nonce : Vector UInt8 32}
    (hphase : (s.solvers id).phase = .solves nonce) : SearchInv cfg (s.finish cfg id nonce) := by
  obtain ⟨hsame, hcounter, hnonces, hsolving, -, -⟩ := h.solvers id
  obtain ⟨hnonce, hbegun⟩ := hsolving nonce hphase
  have hrunning : ¬ Through s id := by
    rintro ((hnone | hpanicked) | ⟨header, hsome⟩) <;> simp_all
  unfold Search.finish
  dsimp only
  split
  case h_1 header hsearch =>
    obtain ⟨hbytes, hkept, hhit⟩ := trySolutions_spec hsearch
    obtain ⟨hmem, hmeets⟩ := hhit rfl
    have hown : Function.update s.solvers id ⟨.returned (some header), (s.solvers id).counter, header⟩ id =
        ⟨.returned (some header), (s.solvers id).counter, header⟩ := Function.update_self _ _ _
    refine @SolverStep.searchInv _ _ _ id ⟨hid, hrunning, fun j hj => Function.update_of_ne hj _ _, rfl, rfl, rfl,
      rfl, rfl, rfl, rfl, ?_, [], by simp, by simp⟩ h ⟨?_, ?_, hnonces, ?_, ?_, ?_⟩ <;> dsimp only <;> rw [hown]
    · simp
    · exact hbytes.trans hsame
    · exact hcounter
    · exact nofun
    · intro header' hreturned
      obtain rfl := Option.some.inj (SolverPhase.returned.inj hreturned)
      rw [hsame] at hmem
      refine ⟨hbytes.trans hsame, ?_, ?_, hmeets⟩
      · rw [hkept, hnonce]
        exact hbegun
      · rw [hkept, hnonce]
        exact hmem
    · exact nofun
  case h_2 header hsearch =>
    obtain ⟨hbytes, -, -⟩ := trySolutions_spec hsearch
    have hown : Function.update s.solvers id ⟨.loadsFound, (s.solvers id).counter, header⟩ id =
        ⟨.loadsFound, (s.solvers id).counter, header⟩ := Function.update_self _ _ _
    refine @SolverStep.searchInv _ _ _ id ⟨hid, hrunning, fun j hj => Function.update_of_ne hj _ _, rfl, rfl, rfl,
      rfl, rfl, rfl, rfl, ?_, [], by simp, by simp⟩ h ⟨?_, ?_, hnonces, ?_, ?_, ?_⟩ <;> dsimp only <;> rw [hown]
    · simp
    · exact hbytes.trans hsame
    · exact hcounter
    · exact nofun
    · exact nofun
    · exact nofun

/-! The solvers are left alone by the main thread and by the watcher. -/

theorem of_solvers (h : SearchInv cfg s) (hsolvers : s'.solvers = s.solvers) (htried : s'.tried = s.tried)
    (hfound : s'.found = s.found) (habandon : s.abandon = true → s'.abandon = true) (hclock : s.clock ≤ s'.clock)
    (hmain : MainInv cfg s') (hwatched : WatchInv cfg s') : SearchInv cfg s' := by
  refine ⟨fun id => ?_, ?_, ?_, hmain, hwatched⟩
  · refine (h.solvers id).of_same (congrFun hsolvers id) (by rw [htried]) (fun hf => ?_) habandon hclock
    rw [hfound]
    exact hf
  · rw [htried]
    exact h.known
  · rw [hfound, hsolvers]
    exact h.found

theorem join (h : SearchInv cfg s) {i : Nat} (hmain : s.main = .joins i) (hjoin : s.join cfg i = some s') :
    SearchInv cfg s' := by
  have hbefore := h.main
  rw [MainInv, hmain] at hbefore
  obtain ⟨hstopped, hempty⟩ := hbefore
  unfold Search.join at hjoin
  split at hjoin
  case isTrue hi =>
    split at hjoin
    case h_1 header hphase =>
      obtain rfl := Option.some.inj hjoin
      exact h.of_solvers rfl rfl rfl (fun ha => ha) le_rfl ⟨hstopped, i, hi, hphase, hempty⟩ h.watched.of_main
    case h_2 hphase =>
      obtain rfl := Option.some.inj hjoin
      refine h.of_solvers rfl rfl rfl (fun ha => ha) le_rfl ⟨hstopped, fun j hj => ?_⟩ h.watched.of_main
      rcases Nat.lt_succ_iff_lt_or_eq.mp hj with hlt | rfl
      · exact hempty j hlt
      · exact .inl hphase
    case h_3 hphase =>
      obtain rfl := Option.some.inj hjoin
      refine h.of_solvers rfl rfl rfl (fun ha => ha) le_rfl ⟨hstopped, fun j hj => ?_⟩ h.watched.of_main
      rcases Nat.lt_succ_iff_lt_or_eq.mp hj with hlt | rfl
      · exact hempty j hlt
      · exact .inr hphase
    case h_4 => cases hjoin
  case isFalse hi =>
    obtain rfl := Option.some.inj hjoin
    refine h.of_solvers rfl rfl rfl (fun ha => ha) le_rfl ⟨hstopped, fun j hj => ?_⟩ h.watched.of_main
    exact hempty j (by omega)

theorem stop (h : SearchInv cfg s) {solved : Option Header} (hmain : s.main = .stops solved) :
    SearchInv cfg { s with stopped := true, main := .joinsWatcher solved } := by
  have hbefore := h.main
  rw [MainInv, hmain] at hbefore
  obtain ⟨hstopped, hjoined⟩ := hbefore
  obtain ⟨hquiet, hmoved, -, hnone, honce, hlast⟩ := h.watched
  refine h.of_solvers rfl rfl rfl (fun ha => ha) le_rfl ⟨rfl, hjoined⟩ ?_
  exact ⟨hquiet, hmoved, fun _ => .inr rfl, nofun, honce, hlast⟩

theorem joinWatcher (h : SearchInv cfg s) {solved : Option Header} (hmain : s.main = .joinsWatcher solved)
    (hwatcher : s.watcher = .returned) : SearchInv cfg { s with main := .done solved } := by
  have hbefore := h.main
  rw [MainInv, hmain] at hbefore
  obtain ⟨hstopped, hjoined⟩ := hbefore
  exact h.of_solvers rfl rfl rfl (fun ha => ha) le_rfl ⟨hstopped, hjoined, hwatcher⟩ h.watched.of_main

/-- The main thread's own part, which a step of the watcher keeps: it is done
only where the watcher has returned. -/
theorem main_of_watcher (h : SearchInv cfg s) (hrunning : s.watcher ≠ .returned) (hmain : s'.main = s.main)
    (hstopped : s'.stopped = s.stopped) (hsolvers : s'.solvers = s.solvers) : MainInv cfg s' := by
  have hbefore := h.main
  unfold MainInv Joined Empty at hbefore ⊢
  rw [hmain, hstopped, hsolvers]
  cases hphase : s.main with
  | done solved =>
    rw [hphase] at hbefore
    exact absurd hbefore.2.2 hrunning
  | _ =>
    rw [hphase] at hbefore
    exact hbefore

/-- A step of the watcher that reads nothing. -/
theorem watch (h : SearchInv cfg s) (hrunning : s.watcher ≠ .returned) {next : WatcherPhase}
    (hreturned : next = .returned → s.stopped = true) (hlast : s.readsAfterStop = 1 → next = .waits ∨ next = .returned) :
    SearchInv cfg { s with watcher := next } := by
  obtain ⟨hquiet, hmoved, -, hbefore, honce, -⟩ := h.watched
  refine h.of_solvers rfl rfl rfl (fun ha => ha) le_rfl (h.main_of_watcher hrunning rfl rfl rfl) ?_
  exact ⟨hquiet, fun ha => absurd (hmoved ha).1 hrunning, fun hnext => .inr (hreturned hnext), hbefore, honce, hlast⟩

theorem readTip (h : SearchInv cfg s) (hwatcher : s.watcher = .reads) (reply : Except String Value) :
    SearchInv cfg (s.readTip cfg reply) := by
  obtain ⟨hquiet, hmoved, -, hbefore, honce, hlast⟩ := h.watched
  have hrunning : s.watcher ≠ .returned := by simp [hwatcher]
  have hon : s.abandon = false := by
    cases ha : s.abandon with
    | false => rfl
    | true => exact absurd (hmoved ha).1 hrunning
  -- the one read in flight when the search is stopped
  have hzero : s.readsAfterStop = 0 := by
    rcases Nat.le_one_iff_eq_zero_or_eq_one.mp honce with hzero | hone
    · exact hzero
    · simpa [hwatcher] using hlast hone
  have hreads : s.readsAfterStop + s.stopped.toNat ≤ 1 := by
    rw [hzero, Nat.zero_add]
    exact Bool.toNat_le _
  have hunstopped : s.stopped = false → s.readsAfterStop + s.stopped.toNat = 0 := fun hf => by rw [hzero, hf]; rfl
  unfold Search.readTip
  dsimp only
  split
  case h_1 tip htip =>
    split
    case isTrue hother =>
      refine h.of_solvers rfl rfl rfl (fun _ => rfl) le_rfl (h.main_of_watcher hrunning rfl rfl rfl) ?_
      exact ⟨fun hoff => absurd hoff Bool.noConfusion, fun _ => ⟨rfl, s.readings, tip, by rw [htip], hother, hquiet hon⟩,
        fun _ => .inl rfl, hunstopped, hreads, fun _ => .inr rfl⟩
    case isFalse hsame =>
      refine h.of_solvers rfl rfl rfl (fun ha => ha) le_rfl (h.main_of_watcher hrunning rfl rfl rfl) ?_
      refine ⟨fun _ tip' hmem => ?_, fun ha => by simp [hon] at ha, fun hback => absurd hback WatcherPhase.noConfusion, hunstopped, hreads,
        fun _ => .inl rfl⟩
      rcases List.mem_append.mp hmem with hold | hnew
      · exact hquiet hon tip' hold
      · rw [htip, List.mem_singleton] at hnew
        rw [Option.some.inj hnew]
        exact not_not.mp hsame
  case h_2 htip =>
    refine h.of_solvers rfl rfl rfl (fun ha => ha) le_rfl (h.main_of_watcher hrunning rfl rfl rfl) ?_
    refine ⟨fun _ tip' hmem => ?_, fun ha => by simp [hon] at ha, fun hback => absurd hback WatcherPhase.noConfusion, hunstopped, hreads,
      fun _ => .inl rfl⟩
    rcases List.mem_append.mp hmem with hold | hnew
    · exact hquiet hon tip' hold
    · rw [htip, List.mem_singleton] at hnew
      cases hnew

theorem start (clock : Nat) : SearchInv cfg (.start cfg clock) := by
  refine ⟨fun id => ⟨rfl, rfl, rfl, ?_, ?_, ?_⟩, by simp [Search.start], ?_, ⟨rfl, by simp⟩, ?_⟩
  · exact nofun
  · exact nofun
  · exact nofun
  · simp [Search.start]
  · refine ⟨nofun, nofun, nofun, fun _ => rfl, ?_, ?_⟩
    · exact Nat.zero_le 1
    · exact nofun

theorem step (h : SearchInv cfg s) {e : SearchEvent} (hstep : s.step cfg e = some s') : SearchInv cfg s' := by
  cases e with
  | tick ms =>
    obtain rfl := Option.some.inj hstep
    refine h.of_solvers rfl rfl rfl (fun ha => ha) (Nat.le_add_right _ _) h.main ?_
    obtain ⟨hquiet, hmoved, hreturned, hbefore, honce, hlast⟩ := h.watched
    exact ⟨hquiet, hmoved, hreturned, hbefore, honce, hlast⟩
  | loadFound id seen =>
    dsimp only [Search.step] at hstep
    split at hstep <;> try contradiction
    rename_i hphase
    obtain ⟨⟨hid, hseen⟩, hnext⟩ := Option.ite_none_right_eq_some.mp hstep
    obtain rfl := Option.some.inj hnext
    have hrunning : ¬ Through s id := by simp [Through, Empty, hphase]
    cases seen with
    | true => exact h.withPhase hid hrunning (by simp) (by simp) fun _ => .inl (hseen rfl)
    | false => exact h.withPhase hid hrunning (by simp) (by simp) (by simp)
  | loadAbandon id seen =>
    dsimp only [Search.step] at hstep
    split at hstep <;> try contradiction
    rename_i hphase
    obtain ⟨⟨hid, hseen⟩, hnext⟩ := Option.ite_none_right_eq_some.mp hstep
    obtain rfl := Option.some.inj hnext
    have hrunning : ¬ Through s id := by simp [Through, Empty, hphase]
    cases seen with
    | true => exact h.withPhase hid hrunning (by simp) (by simp) fun _ => .inr (.inl (hseen rfl))
    | false => exact h.withPhase hid hrunning (by simp) (by simp) (by simp)
  | readClock id =>
    dsimp only [Search.step] at hstep
    split at hstep <;> try contradiction
    rename_i hphase
    obtain ⟨hid, hnext⟩ := Option.ite_none_right_eq_some.mp hstep
    obtain rfl := Option.some.inj hnext
    have hrunning : ¬ Through s id := by simp [Through, Empty, hphase]
    split
    · exact h.begin hid hphase
    · rename_i hlate
      exact h.withPhase hid hrunning (by simp) (by simp) fun _ => .inr (.inr (not_lt.mp hlate))
  | solver id =>
    dsimp only [Search.step] at hstep
    split at hstep <;> try contradiction
    rename_i nonce hphase
    obtain ⟨hid, hnext⟩ := Option.ite_none_right_eq_some.mp hstep
    obtain rfl := Option.some.inj hnext
    exact h.finish hid hphase
  | panics id =>
    dsimp only [Search.step] at hstep
    split at hstep <;> try contradiction
    rename_i nonce hphase
    obtain ⟨hid, hnext⟩ := Option.ite_none_right_eq_some.mp hstep
    obtain rfl := Option.some.inj hnext
    exact h.withPhase hid (by simp [Through, Empty, hphase]) (by simp) (by simp) (by simp)
  | join =>
    dsimp only [Search.step] at hstep
    split at hstep <;> try contradiction
    rename_i i hmain
    exact h.join hmain hstep
  | stop =>
    dsimp only [Search.step] at hstep
    split at hstep <;> try contradiction
    rename_i solved hmain
    obtain rfl := Option.some.inj hstep
    exact h.stop hmain
  | joinWatcher =>
    dsimp only [Search.step] at hstep
    split at hstep <;> try contradiction
    rename_i solved hmain
    obtain ⟨hwatcher, hnext⟩ := Option.ite_none_right_eq_some.mp hstep
    obtain rfl := Option.some.inj hnext
    exact h.joinWatcher hmain hwatcher
  | watchStop =>
    obtain ⟨hwatcher, hnext⟩ := Option.ite_none_right_eq_some.mp hstep
    obtain rfl := Option.some.inj hnext
    refine h.watch (by simp [hwatcher]) (by cases s.stopped <;> simp) fun hone => ?_
    simpa [hwatcher] using h.watched.last hone
  | watchAbandon =>
    obtain ⟨hwatcher, hnext⟩ := Option.ite_none_right_eq_some.mp hstep
    obtain rfl := Option.some.inj hnext
    have hon : s.abandon = false := by
      cases ha : s.abandon with
      | false => rfl
      | true => simpa [hwatcher] using (h.watched.moved ha).1
    refine h.watch (by simp [hwatcher]) (by simp [hon]) fun hone => ?_
    simpa [hwatcher] using h.watched.last hone
  | watchRead reply =>
    obtain ⟨hwatcher, hnext⟩ := Option.ite_none_right_eq_some.mp hstep
    obtain rfl := Option.some.inj hnext
    exact h.readTip hwatcher reply
  | watchWake =>
    obtain ⟨hwatcher, hnext⟩ := Option.ite_none_right_eq_some.mp hstep
    obtain rfl := Option.some.inj hnext
    refine h.watch (by simp [hwatcher]) (by cases s.stopped <;> simp) fun hone => ?_
    cases hstopped : s.stopped with
    | true => simp
    | false => simp [h.watched.before hstopped] at hone

theorem of_run (clock : Nat) {events : List SearchEvent}
    (hrun : run (Search.step cfg) (.start cfg clock) events = some s) : SearchInv cfg s :=
  run_invariant (SearchInv cfg) (fun _ _ _ hinv hstep => hinv.step hstep) (start clock) hrun

end SearchInv

/-! ## A search on the sample template -/

def sampleSettings : Settings where
  rpcUrl := "http://127.0.0.1:18232"
  cookiePath := "/var/run/auth/.cookie"
  threads := ⟨2, by decide⟩
  mode := .submit
  pollSecs := 5
  templateSecs := 60
  maxLag := ⟨100, by decide⟩

/-- Two solvers, and no nonce has a solution. -/
def barren (header : Header) (target : Vector UInt8 32) : SearchConfig :=
  ⟨fun _ _ => [], header, target, js sampleTemplate.previousBlockHash, 60000, 2, by decide⟩

/-- Each solver begins a nonce, and the tip moves. -/
def movedEvents : List SearchEvent :=
  [.loadFound 0 false, .loadAbandon 0 false, .readClock 0, .watchStop, .loadFound 1 false, .watchAbandon,
    .loadAbandon 1 false, .readClock 1, .watchRead (.error "timeout"), .watchWake, .solver 0, .loadFound 0 false,
    .watchStop, .watchAbandon, .watchRead (.ok (.string (js "another block"))), .loadAbandon 0 true, .join, .solver 1,
    .loadFound 1 false, .loadAbandon 1 true, .join, .join, .stop, .joinWatcher]

theorem barren_run (header : Header) (target : Vector UInt8 32) :
    ∃ s, run (Search.stepFresh (barren header target)) (.start (barren header target) 0) movedEvents = some s ∧
      run (Search.step (barren header target)) (.start (barren header target) 0) movedEvents = some s ∧
      s.main = .done none ∧ s.tried.length = 2 := ⟨_, rfl, rfl, rfl, rfl⟩

theorem sample_searches : ∃ header target, ∀ (solve2009 : Vector UInt8 108 → Vector UInt8 32 → List (Vec UInt8)),
    searchOf sampleCrates.hex solve2009 sampleSettings 0 sampleTemplate =
      .ok ⟨solve2009, header, target, js sampleTemplate.previousBlockHash, 60000, 2, by decide⟩ := by
  have htarget : (expandTarget sampleCrates.hex sampleTemplate.bits).toOption.isSome = true := by decide +kernel
  have hheader : (Header.fromTemplate sampleCrates.hex sampleTemplate).toOption.isSome = true := by decide +kernel
  unfold searchOf
  cases ht : expandTarget sampleCrates.hex sampleTemplate.bits with
  | error e => simp [ht, Except.toOption] at htarget
  | ok target =>
    cases hh : Header.fromTemplate sampleCrates.hex sampleTemplate with
    | error e => simp [hh, Except.toOption] at hheader
    | ok header => exact ⟨header, target, fun _ => rfl⟩

/-! ## No nonce twice -/

theorem SearchInv.of_mem_tried (h : SearchInv cfg s) {e : Nat × Vector UInt8 32} (he : e ∈ s.tried) :
    ∃ k < (noncesOf e.1 s.tried).length, e.2 = nonceOf e.1 (UInt64.ofNat k) := by
  have hmem : e.2 ∈ noncesOf e.1 s.tried := List.mem_map.mpr ⟨e, List.mem_filter.mpr ⟨he, by simp⟩, rfl⟩
  rw [(h.solvers e.1).nonces] at hmem
  obtain ⟨k, hk, heq⟩ := List.mem_map.mp hmem
  exact ⟨k, List.mem_range.mp hk, heq.symm⟩

theorem length_noncesOf_le (id : Nat) (tried : List (Nat × Vector UInt8 32)) :
    (noncesOf id tried).length ≤ tried.length := by
  rw [noncesOf, List.length_map]
  exact List.length_filter_le _ _

theorem ofNat_inj_of_lt {k k' : Nat} (hk : k < 2 ^ 64) (hk' : k' < 2 ^ 64)
    (h : UInt64.ofNat k = UInt64.ofNat k') : k = k' := by
  have hnats := congrArg UInt64.toNat h
  rwa [UInt64.toNat_ofNat', UInt64.toNat_ofNat', Nat.mod_eq_of_lt hk, Nat.mod_eq_of_lt hk'] at hnats

/-- One solver's nonces are apart while its counter has not come round. -/
theorem SearchInv.nodup_noncesOf (h : SearchInv cfg s) (hid : id < 256) (hfew : s.tried.length ≤ 2 ^ 64) :
    (noncesOf id s.tried).Nodup := by
  have hlength := (length_noncesOf_le id s.tried).trans hfew
  rw [(h.solvers id).nonces]
  refine List.Nodup.map_on (fun k hk k' hk' heq => ?_) List.nodup_range
  rw [List.mem_range] at hk hk'
  exact ofNat_inj_of_lt (by omega) (by omega) (nonceOf_inj hid hid heq).2

theorem SearchInv.nodup_tried (h : SearchInv cfg s) (hfew : s.tried.length ≤ 2 ^ 64) :
    (s.tried.map Prod.snd).Nodup := by
  have hids : ∀ e ∈ s.tried, e.1 < 256 := by
    intro e he
    have hlt := h.known e he
    have hmax := cfg.threads_le
    rw [maxThreads] at hmax
    omega
  have hnodup : s.tried.Nodup := by
    refine List.nodup_iff_count.mpr fun e => ?_
    by_cases he : e ∈ s.tried
    · rw [← List.count_filter (p := fun e' => decide (e'.1 = e.1)) (by simp)]
      exact List.nodup_iff_count.mp (h.nodup_noncesOf (hids e he) hfew).of_map e
    · rw [List.count_eq_zero_of_not_mem he]
      exact Nat.zero_le 1
  refine List.Nodup.map_on (fun e he e' he' heq => ?_) hnodup
  obtain ⟨k, -, hk⟩ := h.of_mem_tried he
  obtain ⟨k', -, hk'⟩ := h.of_mem_tried he'
  rw [hk, hk'] at heq
  refine Prod.ext (nonceOf_inj (hids e he) (hids e' he') heq).1 ?_
  rw [hk, hk', heq]

/-- No two nonces of a search are the same, whichever solver begins them and
in whatever order, until 2^64 are begun. -/
theorem search_nonces_once (clock : Nat) {events : List SearchEvent}
    (hrun : run (Search.step cfg) (.start cfg clock) events = some s) (hfew : s.tried.length ≤ 2 ^ 64) :
    (s.tried.map Prod.snd).Nodup := (SearchInv.of_run clock hrun).nodup_tried hfew

theorem search_nonces_once_moved : ∃ (cfg : SearchConfig) (s : Search),
    run (Search.step cfg) (.start cfg 0) movedEvents = some s ∧ s.tried.length = 2 ∧
      (s.tried.map Prod.snd).Nodup := by
  obtain ⟨header, target, -⟩ := sample_searches
  obtain ⟨s, -, hrun, -, htwo⟩ := barren_run header target
  exact ⟨barren header target, s, hrun, htwo, search_nonces_once 0 hrun (by rw [htwo]; decide)⟩

/-! ## One nonce more -/

/-- How late a solver can be. -/
structure LateInv (s : Search) (id : Nat) : Prop where
  once : s.late id ≤ 1
  ended : s.late id = 1 → s.found = true ∨ s.abandon = true
  atAbandon : (s.solvers id).phase = .loadsAbandon → s.late id = 1 → s.abandon = true
  atClock : (s.solvers id).phase = .readsClock → s.late id = 0

namespace LateInv

theorem start (clock : Nat) (id : Nat) : LateInv (.start cfg clock) id :=
  ⟨Nat.zero_le 1, nofun, nofun, nofun⟩

/-- A step that begins no nonce and moves no solver to a condition. -/
theorem of_flags (h : LateInv s id) (hlate : s'.late id = s.late id)
    (hphase : (s'.solvers id).phase = (s.solvers id).phase ∨
      (s'.solvers id).phase ≠ .loadsAbandon ∧ (s'.solvers id).phase ≠ .readsClock)
    (hfound : s.found = true → s'.found = true) (habandon : s.abandon = true → s'.abandon = true) :
    LateInv s' id := by
  obtain ⟨honce, hover, hatAbandon, hatClock⟩ := h
  refine ⟨by rw [hlate]; exact honce, fun hone => ?_, fun hat hone => ?_, fun hat => ?_⟩
  · rw [hlate] at hone
    exact (hover hone).imp hfound habandon
  · rw [hlate] at hone
    rcases hphase with hsame | ⟨hne, -⟩
    · exact habandon (hatAbandon (hsame ▸ hat) hone)
    · exact absurd hat hne
  · rw [hlate]
    rcases hphase with hsame | ⟨-, hne⟩
    · exact hatClock (hsame ▸ hat)
    · exact absurd hat hne

theorem withPhase_other (h : LateInv s id) {j : Nat} (hj : id ≠ j) (phase : SolverPhase) :
    LateInv (s.withPhase j phase) id := by
  refine h.of_flags rfl (.inl ?_) (fun hf => hf) (fun ha => ha)
  exact congrArg Solver.phase (Function.update_of_ne hj _ _)

theorem withPhase_out (h : LateInv s id) {phase : SolverPhase} (hout : phase ≠ .loadsAbandon ∧ phase ≠ .readsClock) :
    LateInv (s.withPhase id phase) id := by
  refine h.of_flags rfl (.inr ?_) (fun hf => hf) (fun ha => ha)
  rw [withPhase_self]
  exact hout

/-- A solver that saw no hit goes on to the next condition. -/
theorem toAbandon (h : LateInv s id) (hfound : s.found = false) : LateInv (s.withPhase id .loadsAbandon) id := by
  refine ⟨h.once, h.ended, fun _ hone => ?_, by simp [withPhase_self]⟩
  exact (h.ended hone).resolve_left (by simp [hfound])

theorem toClock (h : LateInv s id) (hat : (s.solvers id).phase = .loadsAbandon) (habandon : s.abandon = false) :
    LateInv (s.withPhase id .readsClock) id := by
  refine ⟨h.once, h.ended, by simp [withPhase_self], fun _ => ?_⟩
  rcases Nat.le_one_iff_eq_zero_or_eq_one.mp h.once with hzero | hone
  · exact hzero
  · simpa [habandon] using h.atAbandon hat hone

/-- Only a solver that was not late begins a nonce. -/
theorem begin (h : LateInv s id) (hat : (s.solvers id).phase = .readsClock) : LateInv (s.begin id) id := by
  have hlate : (s.begin id).late id = s.over.toNat := by
    dsimp only [Search.begin]
    rw [Function.update_self, h.atClock hat, Nat.zero_add]
  refine ⟨by rw [hlate]; exact Bool.toNat_le _, fun hone => ?_, by simp [begin_self], by simp [begin_self]⟩
  rw [hlate, Bool.toNat_eq_one] at hone
  have hover : s.found = true ∨ s.abandon = true := by simpa [Search.over] using hone
  exact hover

theorem begin_other (h : LateInv s id) {j : Nat} (hj : id ≠ j) : LateInv (s.begin j) id :=
  h.of_flags (Function.update_of_ne hj _ _) (.inl (congrArg Solver.phase (Function.update_of_ne hj _ _)))
    (fun hf => hf) (fun ha => ha)

theorem finish (h : LateInv s id) (j : Nat) (nonce : Vector UInt8 32) : LateInv (s.finish cfg j nonce) id := by
  unfold Search.finish
  dsimp only
  split
  all_goals
    by_cases hj : id = j
    · subst hj
      exact h.of_flags rfl (.inr (by simp)) (by simp) (fun ha => ha)
    · exact h.of_flags rfl (.inl (congrArg Solver.phase (Function.update_of_ne hj _ _))) (by simp) (fun ha => ha)

theorem readTip (h : LateInv s id) (reply : Except String Value) : LateInv (s.readTip cfg reply) id := by
  unfold Search.readTip
  dsimp only
  split
  · split
    · exact h.of_flags rfl (.inl rfl) (fun hf => hf) (fun _ => rfl)
    · exact h.of_flags rfl (.inl rfl) (fun hf => hf) (fun ha => ha)
  · exact h.of_flags rfl (.inl rfl) (fun hf => hf) (fun ha => ha)

theorem join (h : LateInv s id) {i : Nat} (hjoin : s.join cfg i = some s') : LateInv s' id := by
  unfold Search.join at hjoin
  split at hjoin
  · split at hjoin <;> cases hjoin <;> exact h.of_flags rfl (.inl rfl) (fun hf => hf) (fun ha => ha)
  · cases hjoin
    exact h.of_flags rfl (.inl rfl) (fun hf => hf) (fun ha => ha)

theorem step (h : LateInv s id) {e : SearchEvent} (hstep : s.stepFresh cfg e = some s') : LateInv s' id := by
  obtain ⟨hfresh, hstep⟩ := Option.ite_none_right_eq_some.mp hstep
  cases e with
  | tick ms =>
    obtain rfl := Option.some.inj hstep
    exact h.of_flags rfl (.inl rfl) (fun hf => hf) (fun ha => ha)
  | loadFound j seen =>
    obtain rfl : seen = s.found := by simpa [Search.fresh] using hfresh
    dsimp only [Search.step] at hstep
    split at hstep <;> try contradiction
    obtain ⟨-, hnext⟩ := Option.ite_none_right_eq_some.mp hstep
    obtain rfl := Option.some.inj hnext
    by_cases hj : id = j
    · subst hj
      cases hfound : s.found with
      | true => exact h.withPhase_out (by simp)
      | false => exact h.toAbandon hfound
    · exact h.withPhase_other hj _
  | loadAbandon j seen =>
    obtain rfl : seen = s.abandon := by simpa [Search.fresh] using hfresh
    dsimp only [Search.step] at hstep
    split at hstep <;> try contradiction
    rename_i hphase
    obtain ⟨-, hnext⟩ := Option.ite_none_right_eq_some.mp hstep
    obtain rfl := Option.some.inj hnext
    by_cases hj : id = j
    · subst hj
      cases habandon : s.abandon with
      | true => exact h.withPhase_out (by simp)
      | false => exact h.toClock hphase habandon
    · exact h.withPhase_other hj _
  | readClock j =>
    dsimp only [Search.step] at hstep
    split at hstep <;> try contradiction
    rename_i hphase
    obtain ⟨-, hnext⟩ := Option.ite_none_right_eq_some.mp hstep
    obtain rfl := Option.some.inj hnext
    by_cases hj : id = j
    · subst hj
      split
      · exact h.begin hphase
      · exact h.withPhase_out (by simp)
    · split
      · exact h.begin_other hj
      · exact h.withPhase_other hj _
  | solver j =>
    dsimp only [Search.step] at hstep
    split at hstep <;> try contradiction
    obtain ⟨-, hnext⟩ := Option.ite_none_right_eq_some.mp hstep
    obtain rfl := Option.some.inj hnext
    exact h.finish j _
  | panics j =>
    dsimp only [Search.step] at hstep
    split at hstep <;> try contradiction
    obtain ⟨-, hnext⟩ := Option.ite_none_right_eq_some.mp hstep
    obtain rfl := Option.some.inj hnext
    by_cases hj : id = j
    · subst hj
      exact h.withPhase_out (by simp)
    · exact h.withPhase_other hj _
  | join =>
    dsimp only [Search.step] at hstep
    split at hstep <;> try contradiction
    exact h.join hstep
  | stop =>
    dsimp only [Search.step] at hstep
    split at hstep <;> try contradiction
    obtain rfl := Option.some.inj hstep
    exact h.of_flags rfl (.inl rfl) (fun hf => hf) (fun ha => ha)
  | joinWatcher =>
    dsimp only [Search.step] at hstep
    split at hstep <;> try contradiction
    obtain ⟨-, hnext⟩ := Option.ite_none_right_eq_some.mp hstep
    obtain rfl := Option.some.inj hnext
    exact h.of_flags rfl (.inl rfl) (fun hf => hf) (fun ha => ha)
  | watchRead reply =>
    obtain ⟨-, hnext⟩ := Option.ite_none_right_eq_some.mp hstep
    obtain rfl := Option.some.inj hnext
    exact h.readTip reply
  | watchStop | watchAbandon | watchWake =>
    obtain ⟨-, hnext⟩ := Option.ite_none_right_eq_some.mp hstep
    obtain rfl := Option.some.inj hnext
    exact h.of_flags rfl (.inl rfl) (fun hf => hf) (fun ha => ha)

end LateInv

theorem step_of_stepFresh {e : SearchEvent} (h : s.stepFresh cfg e = some s') : s.step cfg e = some s' :=
  (Option.ite_none_right_eq_some.mp h).2

/-- Where every load sees its flag as it is, a solver begins one nonce at the
most once there is a hit or the tip has moved, and the watcher ends one read
at the most once it is stopped. -/
theorem search_one_more (clock : Nat) {events : List SearchEvent}
    (hrun : run (Search.stepFresh cfg) (.start cfg clock) events = some s) :
    (∀ id, s.late id ≤ 1) ∧ s.readsAfterStop ≤ 1 := by
  have hboth : (∀ id, LateInv s id) ∧ SearchInv cfg s :=
    run_invariant (fun s => (∀ id, LateInv s id) ∧ SearchInv cfg s)
      (fun _ _ _ hinv hstep => ⟨fun id => (hinv.1 id).step hstep, hinv.2.step (step_of_stepFresh hstep)⟩)
      ⟨LateInv.start clock, .start clock⟩ hrun
  exact ⟨fun id => (hboth.1 id).once, hboth.2.watched.once⟩

theorem search_one_more_moved : ∃ (cfg : SearchConfig) (s : Search),
    run (Search.stepFresh cfg) (.start cfg 0) movedEvents = some s ∧ s.main = .done none ∧
      (∀ id, s.late id ≤ 1) ∧ s.readsAfterStop ≤ 1 := by
  obtain ⟨header, target, -⟩ := sample_searches
  obtain ⟨s, hrun, -, hdone, -⟩ := barren_run header target
  exact ⟨barren header target, s, hrun, hdone, search_one_more 0 hrun⟩

/-! ## What the turn is told -/

theorem searchOf_ok {hex : HexDecoder} {solve2009 : Vector UInt8 108 → Vector UInt8 32 → List (Vec UInt8)}
    {settings : Settings} {startedAt : Nat} {t : Template}
    (h : searchOf hex solve2009 settings startedAt t = .ok cfg) :
    expandTarget hex t.bits = .ok cfg.target ∧ Header.fromTemplate hex t = .ok cfg.header ∧
      cfg.parent = js t.previousBlockHash := by
  unfold searchOf at h
  split at h
  · cases h
  · rename_i target htarget
    split at h
    · cases h
    · rename_i header hheader
      obtain rfl := Except.ok.inj h
      exact ⟨htarget, hheader, rfl⟩

theorem SearchInv.abandon_iff (h : SearchInv cfg s) : s.abandon = false ↔ OnParent cfg s.readings := by
  refine ⟨h.watched.quiet, fun hon => ?_⟩
  cases habandon : s.abandon with
  | false => rfl
  | true =>
    obtain ⟨-, earlier, tip, hreadings, hother, -⟩ := h.watched.moved habandon
    exact absurd (hon tip (by simp [hreadings])) hother

theorem SearchInv.of_done (h : SearchInv cfg s) {solved : Option Header} (hdone : s.main = .done solved) :
    Joined cfg s solved ∧ s.watcher = .returned := by
  have hmain := h.main
  rw [MainInv, hdone] at hmain
  exact hmain.2

/-- `found` is set for the header `solve` returns and for nothing else. -/
theorem SearchInv.found_of_none (h : SearchInv cfg s) (hjoined : Joined cfg s none) : s.found = false := by
  cases hfound : s.found with
  | false => rfl
  | true =>
    obtain ⟨id, hid, header, hphase⟩ := h.found.mp hfound
    rcases hjoined id hid with hnone | hpanicked
    · rw [hphase] at hnone
      cases hnone
    · rw [hphase] at hpanicked
      cases hpanicked

/-- However the solvers, the watcher and the main thread take their steps: a
turn goes on with a header if and only if the search returned it and every
tip the watcher read was the parent. That header has a nonce the search
began, a solution of it, and a hash that meets the template's target. A
search that returns none missed no hit, and of its solvers each panicked, saw
the deadline or was abandoned. No watcher is left behind. -/
theorem search_settles {crates : Crates}
    {solve2009 : Vector UInt8 108 → Vector UInt8 32 → List (Vec UInt8)} {settings : Settings} {startedAt : Nat}
    {t : Template} (hcfg : searchOf crates.hex solve2009 settings startedAt t = .ok cfg) {events : List SearchEvent}
    (hrun : run (Search.step cfg) (.start cfg startedAt) events = some s)
    {solved : Option Header} (hdone : s.main = .done solved) (a : Answers) :
    (∀ h, seekWithin crates t (s.tells solved a) = ([], .found t h) ↔
        solved = some h ∧ ∀ tip, some tip ∈ s.readings → tip = js t.previousBlockHash) ∧
      (∀ h, solved = some h → ∃ id < cfg.threads, Hit cfg s.tried id h) ∧
      (solved = none → s.found = false ∧
        ∀ id < cfg.threads, (s.solvers id).phase = .panicked ∨ s.abandon = true ∨ cfg.deadline ≤ s.clock) ∧
      s.watcher = .returned := by
  have hinv := SearchInv.of_run startedAt hrun
  obtain ⟨hjoined, hwatcher⟩ := hinv.of_done hdone
  obtain ⟨htarget, hheader, hparent⟩ := searchOf_ok hcfg
  have hhit : ∀ h, solved = some h → ∃ id < cfg.threads, Hit cfg s.tried id h := by
    rintro h rfl
    obtain ⟨id, hid, hphase, -⟩ := hjoined
    exact ⟨id, hid, (hinv.solvers id).hit h hphase⟩
  refine ⟨fun h => ?_, hhit, ?_, hwatcher⟩
  · have hseek : seekWithin crates t (s.tells solved a) =
        if s.abandon then ([.abandoned], .ended (.ok (.noSolution t.height)))
        else match solved with
          | none => ([], .ended (.ok (.noSolution t.height)))
          | some h => ([], .found t { cfg.header with nonce := h.nonce, solution := h.solution }) := by
      rw [seekWithin, htarget, hheader]
      cases solved <;> rfl
    rw [hseek, ← hparent]
    change _ ↔ solved = some h ∧ OnParent cfg s.readings
    rw [← hinv.abandon_iff]
    cases habandon : s.abandon with
    | true => simp
    | false =>
      cases solved with
      | none => simp
      | some found =>
        obtain ⟨id, hid, hsame, -, -, -⟩ := hhit found rfl
        simp [← hsame]
  · rintro rfl
    have hfound := hinv.found_of_none hjoined
    refine ⟨hfound, fun id hid => ?_⟩
    rcases hjoined id hid with hnone | hpanicked
    · exact .inr (((hinv.solvers id).missed hnone).resolve_left (by simp [hfound]))
    · exact .inl hpanicked

theorem search_settles_moved : ∃ (cfg : SearchConfig) (s : Search),
    run (Search.step cfg) (.start cfg 0) movedEvents = some s ∧ s.main = .done none ∧
      (∀ h, seekWithin sampleCrates sampleTemplate (s.tells none acceptedTurn.answers) ≠ ([], .found sampleTemplate h)) ∧
      s.found = false ∧ s.watcher = .returned := by
  obtain ⟨header, target, hcfg⟩ := sample_searches
  obtain ⟨s, -, hrun, hdone, -⟩ := barren_run header target
  obtain ⟨hturn, -, hnone, hwatcher⟩ := search_settles (hcfg _) hrun hdone acceptedTurn.answers
  refine ⟨barren header target, s, hrun, hdone, fun h heq => ?_, (hnone rfl).1, hwatcher⟩
  cases ((hturn h).mp heq).1

end ZcashFaucet.Miner
