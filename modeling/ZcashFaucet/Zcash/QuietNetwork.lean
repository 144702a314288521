/-
ZcashFaucet.Zcash.QuietNetwork — a node that stands still with its
network: `zcash/tipProgress.ts` over a run of polls.

A poll is the sample it would leave: our height, the external height and
the time. `lastTipAfter_concat` says which sample is remembered, the poll
that brought our tip to where it is (`arrival`); everything about a run is
read off that one. A stall is reported when that poll is old and the
external height is not the one it saw (`tipProgress_stalled_iff`).
-/
import Mathlib.Data.List.DropRight
import ZcashFaucet.Zcash.GateTheorems
import ZcashFaucet.Zcash.NodeStatus

namespace ZcashFaucet.Zcash

/-! ## The sample that is remembered -/

/-- `lastTip` after these polls. -/
def lastTipAfter (tipStallMs : ℚ) (polls : List TipSample) : Option TipSample :=
  polls.foldl (fun prev p => some (tipProgress tipStallMs prev p.height p.externalHeight p.seenAt).next) none

/-- The poll that brought our tip to `height`, where it has stood since. -/
def arrival (height : ℚ) (polls : List TipSample) : Option TipSample :=
  (polls.rtakeWhile fun p => p.height = height).head?

variable {tipStallMs : ℚ}

theorem lastTipAfter_step (polls : List TipSample) (p : TipSample) :
    lastTipAfter tipStallMs (polls ++ [p]) =
      some (tipProgress tipStallMs (lastTipAfter tipStallMs polls) p.height p.externalHeight p.seenAt).next := by
  rw [lastTipAfter, List.foldl_append]
  rfl

theorem tipProgress_next (prev : Option TipSample) (height : ℚ) (externalHeight : Option ClaimedHeight)
    (now : ℚ) :
    (tipProgress tipStallMs prev height externalHeight now).next =
      match prev with
      | some prev => if height ≠ prev.height then ⟨height, now, externalHeight⟩ else prev
      | none => ⟨height, now, externalHeight⟩ := by
  cases prev with
  | none => rfl
  | some prev =>
    simp only [tipProgress]
    split <;> rfl

theorem arrival_height {height : ℚ} {polls : List TipSample} {s : TipSample}
    (h : arrival height polls = some s) : s.height = height := by
  have hmem := List.mem_of_mem_head? h
  simpa using List.mem_rtakeWhile_imp hmem

theorem mem_of_arrival {height : ℚ} {polls : List TipSample} {s : TipSample}
    (h : arrival height polls = some s) : s ∈ polls :=
  List.rtakeWhile_suffix _ _ |>.subset (List.mem_of_mem_head? h)

theorem arrival_concat (polls : List TipSample) (p : TipSample) :
    arrival p.height (polls ++ [p]) = some ((arrival p.height polls).getD p) := by
  rw [arrival, List.rtakeWhile_concat_pos _ polls p (by simp), List.head?_append, ← arrival]
  cases arrival p.height polls <;> rfl

theorem arrival_concat_of_ne {height : ℚ} (polls : List TipSample) {q : TipSample} (h : q.height ≠ height) :
    arrival height (polls ++ [q]) = none := by
  rw [arrival, List.rtakeWhile_concat_neg _ polls q (by simpa using h)]
  rfl

/-- What is remembered is the poll that brought our tip to where it is. -/
theorem lastTipAfter_concat (polls : List TipSample) (p : TipSample) :
    lastTipAfter tipStallMs (polls ++ [p]) = arrival p.height (polls ++ [p]) := by
  induction polls using List.reverseRecOn generalizing p with
  | nil => simp [lastTipAfter, tipProgress, arrival, List.rtakeWhile]
  | append_singleton polls q ih =>
    have hprev : arrival q.height (polls ++ [q]) = some ((arrival q.height polls).getD q) := arrival_concat polls q
    rw [lastTipAfter_step, tipProgress_next, ih, arrival_concat (polls ++ [q]) p, hprev]
    have hheight := arrival_height hprev
    by_cases hmoved : q.height = p.height
    · rw [← hmoved, hprev]
      simp [hheight]
    · rw [arrival_concat_of_ne polls hmoved]
      simp [hheight, Ne.symm hmoved]

/-! ## A stall -/

/-- With an external height, a stall is an old sample that did not see
that height. -/
theorem tipProgress_stalled_iff (prev : Option TipSample) (height : ℚ) (e : ClaimedHeight) (now : ℚ) :
    (tipProgress tipStallMs prev height (some e) now).stalled = true ↔
      tipStallMs ≤ now - (tipProgress tipStallMs prev height (some e) now).next.seenAt ∧
        (tipProgress tipStallMs prev height (some e) now).next.externalHeight ≠ some e := by
  cases prev with
  | none => simp [tipProgress]
  | some prev =>
    simp only [tipProgress]
    split
    · simp
    · cases prev.externalHeight with
      | none => simp
      | some seen =>
        by_cases hseen : seen = e
        · simp [hseen]
        · simp [hseen, Ne.symm hseen]

/-- The polls from some poll on: our tip stands at `height`, and no
external height is above it. -/
structure Quiet (height : ℚ) (polls : List TipSample) : Prop where
  stands : ∀ p ∈ polls, p.height = height
  atMost : ∀ p ∈ polls, ∀ e, p.externalHeight = some e → e ≤ (height : ClaimedHeight)

/-- At none of these polls that knows an external height is our tip
stalled, nor the status made of it frozen. -/
def NotBlamed (cfg : NodeConfig) (before quiet : List TipSample) : Prop :=
  ∀ front p, front ++ [p] <+: quiet → p.externalHeight.isSome →
    (tipProgress cfg.tipStallMs (lastTipAfter cfg.tipStallMs (before ++ front)) p.height p.externalHeight
        p.seenAt).stalled = false ∧
      ∀ refs w, (referenceTipAt p.seenAt refs).height = p.externalHeight → 0 ≤ cfg.freezeBlocks →
        (nodeStatusOf cfg (lastTipAfter cfg.tipStallMs (before ++ front)) refs p.seenAt w p.height).1.frozen =
          false

theorem stalled_iff_arrival (polls : List TipSample) {p s : TipSample} {e : ClaimedHeight}
    (he : p.externalHeight = some e) (hs : arrival p.height (polls ++ [p]) = some s) :
    (tipProgress tipStallMs (lastTipAfter tipStallMs polls) p.height p.externalHeight p.seenAt).stalled = true ↔
      tipStallMs ≤ p.seenAt - s.seenAt ∧ s.externalHeight ≠ some e := by
  have hnext : (tipProgress tipStallMs (lastTipAfter tipStallMs polls) p.height p.externalHeight
      p.seenAt).next = s := by
    have hafter : lastTipAfter tipStallMs (polls ++ [p]) = some s := (lastTipAfter_concat polls p).trans hs
    rw [lastTipAfter_step] at hafter
    exact Option.some.inj hafter
  rw [he] at hnext ⊢
  rw [tipProgress_stalled_iff, hnext]

/-- A network that is not above us never makes us behind. -/
theorem frozen_eq_stalled (cfg : NodeConfig) (lastTip : Option TipSample) (refs : TipSources) (now w n : ℚ)
    {e : ClaimedHeight} (href : (referenceTipAt now refs).height = some e) (hle : e ≤ (n : ClaimedHeight))
    (hfreeze : 0 ≤ cfg.freezeBlocks) :
    (nodeStatusOf cfg lastTip refs now w n).1.frozen =
      (tipProgress cfg.tipStallMs lastTip n (some e) now).stalled := by
  have hbehind : ¬ (cfg.freezeBlocks : ClaimedHeight) < e.map (· - n) := by
    rw [not_lt, lag_le_iff]
    exact hle.trans (WithTop.coe_le_coe.mpr (by linarith))
  simp [nodeStatusOf, href, hbehind]

/-! ## Quiet networks -/

/-- **When a quiet network is not a stalled node.** From the poll on where
our tip stands and no source is above it, no poll blames our node exactly
when each one that knows the external height comes within TIP_STALL_MS of
the poll that brought our tip there, or reads what that one read. -/
theorem notBlamed_iff (cfg : NodeConfig) {height : ℚ} (before : List TipSample) {quiet : List TipSample}
    (hquiet : Quiet height quiet) :
    NotBlamed cfg before quiet ↔
      ∀ front p, front ++ [p] <+: quiet → ∀ e, p.externalHeight = some e →
        ∀ s, arrival height (before ++ front ++ [p]) = some s →
          p.seenAt - s.seenAt < cfg.tipStallMs ∨ s.externalHeight = some e := by
  have hmem {front : List TipSample} {p : TipSample} (hfront : front ++ [p] <+: quiet) : p ∈ quiet :=
    hfront.subset (by simp)
  constructor
  · intro hnot front p hfront e he s hs
    have hstalled := (hnot front p hfront (by simp [he])).1
    rw [← hquiet.stands p (hmem hfront)] at hs
    rw [← Bool.not_eq_true, stalled_iff_arrival _ he hs] at hstalled
    by_contra hboth
    rw [not_or, not_lt] at hboth
    exact hstalled hboth
  · intro h front p hfront hknown
    obtain ⟨e, he⟩ := Option.isSome_iff_exists.mp hknown
    obtain ⟨s, hs⟩ : ∃ s, arrival p.height (before ++ front ++ [p]) = some s :=
      ⟨_, arrival_concat (before ++ front) p⟩
    have hstalled : (tipProgress cfg.tipStallMs (lastTipAfter cfg.tipStallMs (before ++ front)) p.height
        p.externalHeight p.seenAt).stalled = false := by
      rw [← Bool.not_eq_true, stalled_iff_arrival _ he hs]
      rintro ⟨hlong, hread⟩
      rw [hquiet.stands p (hmem hfront)] at hs
      rcases h front p hfront e he s hs with hshort | hsame
      · exact absurd hlong (not_le.mpr hshort)
      · exact hread hsame
    refine ⟨hstalled, ?_⟩
    intro refs w href hfreeze
    rw [he] at href hstalled
    have hle : e ≤ (p.height : ClaimedHeight) := by
      rw [hquiet.stands p (hmem hfront)]
      exact hquiet.atMost p (hmem hfront) e he
    rw [frozen_eq_stalled cfg _ refs _ w _ href hle hfreeze]
    exact hstalled

/-- The node's settings where no variable is set. -/
def stockNode : NodeConfig where
  gates := ⟨⟨5, shieldMaxLag_default_le⟩, ⟨10, walletMaxLag_default_le⟩, fun _ => []⟩
  freezeBlocks := 200
  tipStallMs := 20 * 60000

/-- Our height and an external height, as a poll at `minutes`. -/
def pollAt (minutes height external : ℚ) : TipSample := ⟨height, minutes * 60000, some (external : ClaimedHeight)⟩

/-- Half an hour at the network's height is no stall. -/
theorem notBlamed_even : NotBlamed stockNode [] [pollAt 0 4220000 4220000, pollAt 30 4220000 4220000] := by
  have hquiet : Quiet 4220000 [pollAt 0 4220000 4220000, pollAt 30 4220000 4220000] :=
    ⟨by decide +kernel, by simp [pollAt]⟩
  have hread : ∀ p ∈ [pollAt 0 4220000 4220000, pollAt 30 4220000 4220000],
      p.externalHeight = some ((4220000 : ℚ) : ClaimedHeight) := by simp [pollAt]
  refine (notBlamed_iff stockNode [] hquiet).mpr fun front p hfront e he s hs => Or.inr ?_
  rw [← he, hread p (hfront.subset (by simp)), hread s (hfront.subset (mem_of_arrival hs))]

def hoshAt (minutes height : ℚ) : TipSources where
  entries := [(.hosh, ⟨(height : ClaimedHeight), minutes * 60000, none⟩)]
  nodup := List.nodup_singleton _

/-- The reference was a block behind when our tip came to the network's
height, and has read that height since. After twenty minutes without a
block our node is frozen. -/
theorem caught_up_is_blamed :
    Quiet 4220000 [pollAt 0 4220000 4219999, pollAt 20 4220000 4220000] ∧
      (tipProgress stockNode.tipStallMs (lastTipAfter stockNode.tipStallMs [pollAt 0 4220000 4219999]) 4220000
          (some (4220000 : ℚ)) (20 * 60000)).stalled = true ∧
      (nodeStatusOf stockNode (lastTipAfter stockNode.tipStallMs [pollAt 0 4220000 4219999]) (hoshAt 20 4220000)
          (20 * 60000) 4220000 4220000).1.frozen = true ∧
      ¬ NotBlamed stockNode [] [pollAt 0 4220000 4219999, pollAt 20 4220000 4220000] := by
  have hstalled : (tipProgress stockNode.tipStallMs (lastTipAfter stockNode.tipStallMs [pollAt 0 4220000 4219999])
      4220000 (some (4220000 : ℚ)) (20 * 60000)).stalled = true := by decide +kernel
  refine ⟨⟨by decide +kernel, ?_⟩, hstalled, by decide +kernel, ?_⟩
  · intro p hp e he
    rcases List.mem_pair.mp hp with rfl | rfl
    · cases he
      exact WithTop.coe_le_coe.mpr (by norm_num)
    · cases he
      exact le_rfl
  · intro hnot
    have hfalse := (hnot [pollAt 0 4220000 4219999] (pollAt 20 4220000 4220000) (List.prefix_refl _) rfl).1
    exact absurd (hstalled.symm.trans hfalse) (by decide)

end ZcashFaucet.Zcash
