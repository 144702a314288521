/-
ZcashFaucet.Zcash.ForkReference — the hash of an independent chain that
`/api/ready` publishes for the watchdog to compare: `zcash/forkReference.ts`,
with `resolveEndpoint` of `zcash/lightwalletd.ts`.

A read of the reference starts a refresh where one is due and answers from
memory. A refresh picks the first endpoint that answers a probe and asks it
for the block ten below the reference tip; only a hash replaces what is
there, so a reference that was published once stays, and ages.

`asked` is the history of the questions, `answered` that of the ones that
were answered by a hash.
-/
import ZcashFaucet.Lib.Run
import ZcashFaucet.Lib.Cells
import ZcashFaucet.Lib.JsString
import ZcashFaucet.Zcash.TipReferences

namespace ZcashFaucet.Zcash

open Lib

/-- REFERENCE_DEPTH. -/
def referenceDepth : ℚ := 10

/-- REFRESH_MS. -/
def forkRefreshMs : ℚ := 60000

/-- `resolveEndpoint`: the first one in the list that answers a probe. -/
def resolveEndpoint (endpoints : List JsString) (reachable : JsString → Bool) : Option JsString :=
  endpoints.find? reachable

structure ForkReference where
  height : Option ClaimedHeight
  hash : Option JsString
  ageSeconds : Option ℚ
  depth : ℚ

/-- What is kept of a dial. -/
structure ForkRead where
  height : ClaimedHeight
  hash : JsString
  deriving DecidableEq

/-- A dial: whom it asks, below which tip, and for which block. -/
structure Dial where
  endpoint : JsString
  tip : ClaimedHeight
  height : ClaimedHeight
  deriving DecidableEq

/-- Where a refresh stands. -/
inductive ForkPhase
  | probing (tip : ClaimedHeight)
  | dialing (dial : Dial)

structure ForkCache where
  cells : Cells ForkRead
  phase : ForkPhase
  asked : List Dial
  answered : List (Dial × JsString)
  /-- Everything that was published, with the clock. -/
  published : List (ForkReference × ℚ)

def ForkCache.boot (clock : ℚ) : ForkCache := ⟨.cold clock, .probing 0, [], [], []⟩

/-- The height asked for. -/
def referenceHeight (tip : ClaimedHeight) : ClaimedHeight := tip.map (· - referenceDepth)

/-- Whether `kick` starts a refresh, and below which tip. -/
def kickTip (tip : Option ClaimedHeight) (s : ForkCache) : Option ClaimedHeight :=
  if s.cells.current.inflight then none
  else if (s.cells.current.held.any fun d => decide (s.cells.clock - d.2 < forkRefreshMs)) then none
  else tip.filter fun t => decide (0 < referenceHeight t)

def ForkCache.kick (tip : Option ClaimedHeight) (s : ForkCache) : ForkCache :=
  match kickTip tip s with
  | some t => { s with cells := s.cells.start, phase := .probing t }
  | none => s

def forkReferenceOf (s : ForkCache) : ForkReference where
  height := s.cells.current.held.map fun d => d.1.height
  hash := s.cells.current.held.map fun d => d.1.hash
  ageSeconds := s.cells.current.held.map fun d => ((⌊(s.cells.clock - d.2) / 1000 + 1 / 2⌋ : ℤ) : ℚ)
  depth := referenceDepth

/-- `readForkReference`. -/
def ForkCache.readForkReference (tip : Option ClaimedHeight) (s : ForkCache) : ForkCache :=
  let s' := s.kick tip
  { s' with published := s'.published ++ [(forkReferenceOf s', s'.cells.clock)] }

inductive ForkEvent
  | tick (ms : ℚ)
  | read (tip : Option ClaimedHeight)
  | probed (reachable : JsString → Bool)
  | dialed (hash : Option JsString)

variable (endpoints : List JsString)

def ForkCache.step (s : ForkCache) : ForkEvent → Option ForkCache
  | .tick ms => if 0 ≤ ms then some { s with cells := s.cells.tick ms } else none
  | .read tip => some (s.readForkReference tip)
  | .probed reachable =>
      match s.phase with
      | .probing tip =>
          if s.cells.current.inflight then
            match resolveEndpoint endpoints reachable with
            | some endpoint =>
                let dial : Dial := ⟨endpoint, tip, referenceHeight tip⟩
                some { s with phase := .dialing dial, asked := s.asked ++ [dial] }
            | none => some { s with cells := s.cells.fail s.cells.number }
          else none
      | .dialing _ => none
  | .dialed hash =>
      match s.phase with
      | .dialing dial =>
          if s.cells.current.inflight then
            match hash.filter fun h => !h.isEmpty with
            | some hash =>
                some { s with
                  cells := s.cells.store s.cells.number ⟨dial.height, hash⟩
                  answered := s.answered ++ [(dial, hash)] }
            | none => some { s with cells := s.cells.fail s.cells.number }
          else none
      | .probing _ => none

/-! ## The invariant -/

/-- A dial asks one of ours, ten below the tip and above the ground. -/
structure Dial.Sound (d : Dial) : Prop where
  ours : d.endpoint ∈ endpoints
  below : d.height = referenceHeight d.tip
  above : 0 < d.height

/-- What is published is one dial's height and its hash, or nothing. -/
def ForkReference.Backed (r : ForkReference) (answered : List (Dial × JsString)) : Prop :=
  match r.hash with
  | some hash => ∃ p ∈ answered, p.2 = hash ∧ r.height = some p.1.height
  | none => r.height = none ∧ r.ageSeconds = none

structure ForkInv (s : ForkCache) : Prop where
  cells : s.cells.Inv
  sound : ∀ d ∈ s.asked, d.Sound endpoints
  heard : ∀ p ∈ s.answered, p.1 ∈ s.asked
  dialed : ∀ d ∈ s.cells.stored, ∃ p ∈ s.answered, d.value = ⟨p.1.height, p.2⟩
  asking : s.cells.current.inflight = true → match s.phase with
    | .probing tip => 0 < referenceHeight tip
    | .dialing dial => dial ∈ s.asked
  backed : ∀ p ∈ s.published, p.1.Backed s.answered

theorem ForkReference.Backed.mono {r : ForkReference} {answered more : List (Dial × JsString)}
    (h : r.Backed answered) : r.Backed (answered ++ more) := by
  unfold ForkReference.Backed at h ⊢
  cases hr : r.hash with
  | none =>
    rw [hr] at h
    exact h
  | some hash =>
    rw [hr] at h
    obtain ⟨d, hd, hrest⟩ := h
    exact ⟨d, List.mem_append_left _ hd, hrest⟩

theorem kickTip_eq_some {tip : Option ClaimedHeight} {s : ForkCache} {t : ClaimedHeight}
    (h : kickTip tip s = some t) : ¬ s.cells.current.inflight = true ∧ tip = some t ∧ 0 < referenceHeight t := by
  unfold kickTip at h
  split at h
  case isTrue => cases h
  case isFalse hidle =>
    split at h
    case isTrue => cases h
    case isFalse =>
      obtain ⟨htip, habove⟩ := Option.filter_eq_some_iff.mp h
      exact ⟨hidle, htip, by simpa using habove⟩

namespace ForkInv

variable {endpoints} {s : ForkCache}

theorem boot (clock : ℚ) : ForkInv endpoints (.boot clock) := by
  refine ⟨Cells.Inv.cold clock, fun d hd => ?_, fun p hp => ?_, fun d hd => ?_, fun h => ?_, fun p hp => ?_⟩
  · cases hd
  · cases hp
  · cases hd
  · cases h
  · cases hp

theorem kick (h : ForkInv endpoints s) (tip : Option ClaimedHeight) : ForkInv endpoints (s.kick tip) := by
  unfold ForkCache.kick
  cases htip : kickTip tip s with
  | none => exact h
  | some t =>
    refine ⟨h.cells.start, h.sound, h.heard, fun d hd => ?_, fun _ => (kickTip_eq_some htip).2.2, h.backed⟩
    rw [Cells.start_stored] at hd
    exact h.dialed d hd

/-- The cell as it is, published. -/
theorem backed_now (h : ForkInv endpoints s) : (forkReferenceOf s).Backed s.answered := by
  have hheld := h.cells.held s.cells.number le_rfl
  rw [show s.cells.cells s.cells.number = s.cells.current from rfl] at hheld
  unfold ForkReference.Backed forkReferenceOf
  cases hc : s.cells.current.held with
  | none => exact ⟨rfl, rfl⟩
  | some d =>
    rw [hc] at hheld
    obtain ⟨p, hp, hread⟩ := h.dialed _ (mem_of_lastStored hheld.symm)
    exact ⟨p, hp, congrArg ForkRead.hash hread.symm, congrArg (some ∘ ForkRead.height) hread⟩

theorem readForkReference (h : ForkInv endpoints s) (tip : Option ClaimedHeight) :
    ForkInv endpoints (s.readForkReference tip) := by
  have hkick := h.kick tip
  refine ⟨hkick.cells, hkick.sound, hkick.heard, hkick.dialed, hkick.asking, fun p hp => ?_⟩
  rcases List.mem_append.mp hp with hold | hnew
  · exact hkick.backed p hold
  · obtain rfl := List.mem_singleton.mp hnew
    exact hkick.backed_now

/-- A refresh that ends without a hash. -/
theorem fail (h : ForkInv endpoints s) (hflight : s.cells.current.inflight = true) :
    ForkInv endpoints { s with cells := s.cells.fail s.cells.number } := by
  refine ⟨h.cells.fail (h.cells.mem_of_inflight le_rfl hflight), h.sound, h.heard, h.dialed, fun hstill => ?_,
    h.backed⟩
  have hidle : (s.cells.fail s.cells.number).current = { s.cells.current with inflight := false } :=
    Function.update_self _ _ _
  rw [hidle] at hstill
  cases hstill

/-- A dial goes out to the endpoint that was found. -/
theorem dial (h : ForkInv endpoints s) (hflight : s.cells.current.inflight = true) {tip : ClaimedHeight}
    {endpoint : JsString} (hphase : s.phase = .probing tip) (hours : endpoint ∈ endpoints) :
    ForkInv endpoints
      { s with
        phase := .dialing ⟨endpoint, tip, referenceHeight tip⟩
        asked := s.asked ++ [⟨endpoint, tip, referenceHeight tip⟩] } := by
  have hasking := h.asking hflight
  rw [hphase] at hasking
  refine ⟨h.cells, fun d hd => ?_, fun p hp => List.mem_append_left _ (h.heard p hp), h.dialed,
    fun _ => List.mem_append_right _ (List.mem_singleton_self _), h.backed⟩
  rcases List.mem_append.mp hd with hold | hnew
  · exact h.sound d hold
  · obtain rfl := List.mem_singleton.mp hnew
    exact ⟨hours, rfl, hasking⟩

theorem store (h : ForkInv endpoints s) (hflight : s.cells.current.inflight = true) {dial : Dial} {hash : JsString}
    (hphase : s.phase = .dialing dial) :
    ForkInv endpoints
      { s with
        cells := s.cells.store s.cells.number ⟨dial.height, hash⟩
        answered := s.answered ++ [(dial, hash)] } := by
  have hasking := h.asking hflight
  rw [hphase] at hasking
  refine ⟨h.cells.store (h.cells.mem_of_inflight le_rfl hflight) _, h.sound, fun p hp => ?_, fun d hd => ?_,
    fun hstill => ?_, fun p hp => (h.backed p hp).mono⟩
  · rcases List.mem_append.mp hp with hold | hnew
    · exact h.heard p hold
    · obtain rfl := List.mem_singleton.mp hnew
      exact hasking
  · rcases List.mem_append.mp hd with hold | hnew
    · obtain ⟨p, hp, hread⟩ := h.dialed d hold
      exact ⟨p, List.mem_append_left _ hp, hread⟩
    · obtain rfl := List.mem_singleton.mp hnew
      exact ⟨_, List.mem_append_right _ (List.mem_singleton_self _), rfl⟩
  · rw [Cells.store_current] at hstill
    cases hstill

theorem step {s' : ForkCache} {e : ForkEvent} (h : ForkInv endpoints s) (hstep : s.step endpoints e = some s') :
    ForkInv endpoints s' := by
  cases e with
  | tick ms =>
    obtain ⟨hms, heq⟩ := Option.ite_none_right_eq_some.mp hstep
    obtain rfl := Option.some.inj heq
    exact ⟨h.cells.tick hms, h.sound, h.heard, h.dialed, h.asking, h.backed⟩
  | read tip =>
    obtain rfl := Option.some.inj hstep
    exact h.readForkReference tip
  | probed reachable =>
    simp only [ForkCache.step] at hstep
    split at hstep
    case h_1 tip hphase =>
      obtain ⟨hflight, heq⟩ := Option.ite_none_right_eq_some.mp hstep
      split at heq
      case h_1 endpoint hfound =>
        obtain rfl := Option.some.inj heq
        exact h.dial hflight hphase (List.mem_of_find?_eq_some hfound)
      case h_2 =>
        obtain rfl := Option.some.inj heq
        exact h.fail hflight
    case h_2 => cases hstep
  | dialed hash =>
    simp only [ForkCache.step] at hstep
    split at hstep
    case h_1 dial hphase =>
      obtain ⟨hflight, heq⟩ := Option.ite_none_right_eq_some.mp hstep
      split at heq
      · obtain rfl := Option.some.inj heq
        exact h.store hflight hphase
      · obtain rfl := Option.some.inj heq
        exact h.fail hflight
    case h_2 => cases hstep

end ForkInv

/-! ## Every run -/

variable {endpoints}

/-- Only a new hash takes the place of the one that is there. -/
theorem held_of_step {s s' : ForkCache} {e : ForkEvent} (hstep : s.step endpoints e = some s')
    (hheld : s.cells.current.held.isSome = true) : s'.cells.current.held.isSome = true := by
  have hfail : (s.cells.fail s.cells.number).current.held = s.cells.current.held := by
    rw [show (s.cells.fail s.cells.number).current = { s.cells.current with inflight := false } from
      Function.update_self _ _ _]
  cases e with
  | tick ms =>
    obtain ⟨-, heq⟩ := Option.ite_none_right_eq_some.mp hstep
    obtain rfl := Option.some.inj heq
    exact hheld
  | read tip =>
    obtain rfl := Option.some.inj hstep
    unfold ForkCache.readForkReference ForkCache.kick
    split
    · rw [show ((s.cells.start).current.held) = s.cells.current.held from Cells.start_held _]
      exact hheld
    · exact hheld
  | probed reachable =>
    simp only [ForkCache.step] at hstep
    split at hstep
    · obtain ⟨-, heq⟩ := Option.ite_none_right_eq_some.mp hstep
      split at heq
      · obtain rfl := Option.some.inj heq
        exact hheld
      · obtain rfl := Option.some.inj heq
        exact hfail ▸ hheld
    · cases hstep
  | dialed hash =>
    simp only [ForkCache.step] at hstep
    split at hstep
    · obtain ⟨-, heq⟩ := Option.ite_none_right_eq_some.mp hstep
      split at heq
      · obtain rfl := Option.some.inj heq
        exact congrArg (fun c : Cell ForkRead => c.held.isSome) (Cells.store_current _ s.cells)
      · obtain rfl := Option.some.inj heq
        exact hfail ▸ hheld
    · cases hstep

/-- Every reference published has the height and the hash of one dial, or has
neither. Every dial, answered or not, asks an endpoint of ours for the block
ten below a tip and above the ground. And once a hash was there, there is one
for ever. -/
theorem forkReference_backed {clock : ℚ} {es : List ForkEvent} {s : ForkCache}
    (hrun : run (ForkCache.step endpoints) (.boot clock) es = some s) :
    (∀ p ∈ s.published, p.1.Backed s.answered) ∧
      ((∀ d ∈ s.asked, d.Sound endpoints) ∧ ∀ p ∈ s.answered, p.1 ∈ s.asked) ∧
      ((forkReferenceOf s).hash.isSome = true → ∀ more s', run (ForkCache.step endpoints) s more = some s' →
        (forkReferenceOf s').hash.isSome = true) := by
  have hinv : ForkInv endpoints s :=
    run_invariant (ForkInv endpoints) (fun _ _ _ h hstep => h.step hstep) (.boot clock) hrun
  refine ⟨hinv.backed, ⟨hinv.sound, hinv.heard⟩, fun hhash more s' hmore => ?_⟩
  have hheld : s'.cells.current.held.isSome = true := by
    refine run_invariant (fun q : ForkCache => q.cells.current.held.isSome = true)
      (fun _ _ _ h hstep => held_of_step hstep h) ?_ hmore
    simpa [forkReferenceOf] using hhash
  simpa [forkReferenceOf] using hheld

/-- A refresh with the first endpoint down, and one whose dial is lost. -/
def twoDials : List ForkEvent :=
  [.read (some (4349930 : ℚ)), .probed (fun e => e == js "b"), .dialed (some (js "00ab")), .tick 60000,
    .read (some (4349931 : ℚ)), .probed (fun _ => true), .dialed none, .tick 1000, .read none]

theorem forkReference_backed_twoDials :
    ∃ s, run (ForkCache.step [js "a", js "b"]) (.boot 1700000000000) twoDials = some s ∧
      s.asked = [⟨js "b", 4349930, 4349920⟩, ⟨js "a", 4349931, 4349921⟩] ∧
      s.answered = [(⟨js "b", 4349930, 4349920⟩, js "00ab")] ∧ (∀ p ∈ s.published, p.1.Backed s.answered) ∧
      ∀ d ∈ s.asked, d.Sound [js "a", js "b"] := by
  have heval : (run (ForkCache.step [js "a", js "b"]) (.boot 1700000000000) twoDials).map (fun s =>
      (s.asked, s.answered)) = some ([⟨js "b", 4349930, 4349920⟩, ⟨js "a", 4349931, 4349921⟩],
        [(⟨js "b", 4349930, 4349920⟩, js "00ab")]) := by
    decide +kernel
  obtain ⟨s, hrun, heq⟩ := Option.map_eq_some_iff.mp heval
  obtain ⟨hasked, hanswered⟩ := Prod.mk.inj heq
  obtain ⟨hbacked, ⟨hsound, -⟩, -⟩ := forkReference_backed hrun
  exact ⟨s, hrun, hasked, hanswered, hbacked, hsound⟩

end ZcashFaucet.Zcash
