/-
ZcashFaucet.Lib.SlidingWindow — timestamps in a list, forgotten from the
front.

A window is pruned by dropping what lies before a cut, stopping at the
first stamp that does not. `Tracks` relates such a list to all the times
that were ever pushed: whatever was pruned on the way, the stamps that a
later cut leaves are as many as the times it leaves.
-/
import Mathlib.Order.Basic
import Mathlib.Order.Lattice
import Mathlib.Data.List.Basic

namespace ZcashFaucet.Lib

variable {τ : Type} [LinearOrder τ]

/-- The while loop of a prune. -/
def pruneBefore (cut : τ) (stamps : List τ) : List τ := stamps.dropWhile fun t => decide (t < cut)

/-- How many of the times are not before the cut. -/
def countSince (cut : τ) (times : List τ) : Nat := times.countP fun t => decide (cut ≤ t)

@[simp] theorem countSince_nil (cut : τ) : countSince cut [] = 0 := rfl

theorem countSince_append (cut : τ) (l l' : List τ) :
    countSince cut (l ++ l') = countSince cut l + countSince cut l' := List.countP_append

/-- What a prune drops counts for no later cut. -/
theorem countSince_prune {cut cut' : τ} (h : cut ≤ cut') (l : List τ) :
    countSince cut' (pruneBefore cut l) = countSince cut' l := by
  induction l with
  | nil => rfl
  | cons t l ih =>
      by_cases ht : t < cut
      · have hout : ¬ cut' ≤ t := not_le.mpr (ht.trans_le h)
        simp only [pruneBefore, countSince, List.dropWhile_cons, ht, hout, decide_true, if_true,
          decide_false, List.countP_cons] at ih ⊢
        simpa using ih
      · simp [pruneBefore, ht]

/-- In a sorted list the prune leaves exactly what is not before the cut. -/
theorem length_pruneBefore {cut : τ} {l : List τ} (h : l.Pairwise (· ≤ ·)) :
    (pruneBefore cut l).length = countSince cut l := by
  induction l with
  | nil => rfl
  | cons t l ih =>
      rw [List.pairwise_cons] at h
      by_cases ht : t < cut
      · have hout : ¬ cut ≤ t := not_le.mpr ht
        have hl := ih h.2
        simp only [pruneBefore, countSince, List.dropWhile_cons, ht, hout, decide_true, if_true,
          decide_false, List.countP_cons] at hl ⊢
        simpa using hl
      · have hin : cut ≤ t := not_lt.mp ht
        have hall : countSince cut (t :: l) = (t :: l).length := by
          rw [countSince, List.countP_eq_length]
          intro s hs
          rcases List.mem_cons.mp hs with rfl | hs
          · simpa using hin
          · simpa using hin.trans (h.1 s hs)
        rw [hall]
        simp [pruneBefore, ht]

/-- `stamps` is what is left of `times` at `now`, for every cut from `cut` on. -/
structure Tracks (now cut : τ) (stamps times : List τ) : Prop where
  sorted : stamps.Pairwise (· ≤ ·)
  past : ∀ t ∈ stamps, t ≤ now
  count : ∀ c, cut ≤ c → countSince c stamps = countSince c times

namespace Tracks

variable {now cut : τ} {stamps times : List τ}

theorem nil (now cut : τ) : Tracks now cut [] [] := ⟨List.Pairwise.nil, by simp, fun _ _ => rfl⟩

theorem later (h : Tracks now cut stamps times) {now' cut' : τ} (hnow : now ≤ now') (hcut : cut ≤ cut') :
    Tracks now' cut' stamps times :=
  ⟨h.sorted, fun t ht => (h.past t ht).trans hnow, fun c hc => h.count c (hcut.trans hc)⟩

theorem prune (h : Tracks now cut stamps times) : Tracks now cut (pruneBefore cut stamps) times := by
  have hsub : (pruneBefore cut stamps).Sublist stamps := List.dropWhile_sublist _
  refine ⟨h.sorted.sublist hsub, fun t ht => h.past t (hsub.subset ht), ?_⟩
  intro c hc
  rw [countSince_prune hc, h.count c hc]

theorem push (h : Tracks now cut stamps times) : Tracks now cut (stamps ++ [now]) (times ++ [now]) := by
  refine ⟨?_, ?_, ?_⟩
  · rw [List.pairwise_append]
    refine ⟨h.sorted, by simp, ?_⟩
    intro t ht u hu
    have hu' : u = now := by simpa using hu
    exact hu' ▸ h.past t ht
  · intro t ht
    rcases List.mem_append.mp ht with ht | ht
    · exact h.past t ht
    · exact le_of_eq (by simpa using ht)
  · intro c hc
    rw [countSince_append, countSince_append, h.count c hc]

/-- The length a prune leaves is the number of times in the window. -/
theorem length_prune (h : Tracks now cut stamps times) :
    (pruneBefore cut stamps).length = countSince cut times := by
  rw [length_pruneBefore h.sorted, h.count cut le_rfl]

end Tracks

end ZcashFaucet.Lib
