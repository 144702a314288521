/-
ZcashFaucet.Lib.FixedWindow — limits per fixed window, and what they leave
of a window chosen afterwards.

A stamp is an event with the start of the fixed window it was counted in.
Where the fixed windows do not overlap and none has more than `bound`
stamps, a fixed window has at most `bound` events (`window_le`), and any
span no longer than a window meets two of them at most (`span_le`).
-/
import Mathlib.Data.List.Count
import Mathlib.Algebra.Order.Ring.Defs
import Mathlib.Tactic.Linarith

namespace ZcashFaucet.Lib

structure Stamp (τ : Type) where
  start : τ
  time : τ

variable {τ : Type} [CommRing τ] [LinearOrder τ]

/-- The stamps of fixed windows of a length, with at most `bound` in each. -/
structure FixedWindows (length : τ) (bound : Nat) (stamps : List (Stamp τ)) : Prop where
  inside : ∀ a ∈ stamps, a.start ≤ a.time ∧ a.time < a.start + length
  apart : ∀ a ∈ stamps, ∀ b ∈ stamps, a.start < b.start → a.start + length ≤ b.start
  bounded : ∀ s, stamps.countP (fun a => decide (a.start = s)) ≤ bound

/-- How many events lie in `[t, t + length)`. -/
def countSpan (length t : τ) (stamps : List (Stamp τ)) : Nat :=
  stamps.countP fun a => decide (t ≤ a.time ∧ a.time < t + length)

/-- How many stamps satisfy what only stamps of one window satisfy. -/
theorem FixedWindows.countP_le {length : τ} {bound : Nat} {stamps : List (Stamp τ)}
    (h : FixedWindows length bound stamps) {p : Stamp τ → Bool}
    (hp : ∀ a ∈ stamps, ∀ b ∈ stamps, p a = true → p b = true → a.start = b.start) :
    stamps.countP p ≤ bound := by
  rcases Nat.eq_zero_or_pos (stamps.countP p) with hzero | hpos
  · omega
  · obtain ⟨a, ha, hpa⟩ := List.countP_pos_iff.mp hpos
    refine le_trans (List.countP_mono_left ?_) (h.bounded a.start)
    intro b hb hpb
    exact decide_eq_true (hp b hb a ha hpb hpa)

namespace FixedWindows

variable {length : τ} {bound : Nat} {stamps : List (Stamp τ)}

/-- Windows that start less than a length apart are the same. -/
theorem start_eq (h : FixedWindows length bound stamps) {a b : Stamp τ} (ha : a ∈ stamps) (hb : b ∈ stamps)
    (hab : a.start < b.start + length) (hba : b.start < a.start + length) : a.start = b.start := by
  rcases lt_trichotomy a.start b.start with hlt | heq | hgt
  · exact absurd (h.apart a ha b hb hlt) (not_le.mpr hba)
  · exact heq
  · exact absurd (h.apart b hb a ha hgt) (not_le.mpr hab)

theorem nil (length : τ) (bound : Nat) : FixedWindows length bound [] :=
  ⟨by simp, by simp, fun _ => Nat.zero_le _⟩

/-- One more stamp of a window that has room. -/
theorem push_same (h : FixedWindows length bound stamps) {b : Stamp τ} (hb : b ∈ stamps) {t : τ}
    (ht : b.start ≤ t ∧ t < b.start + length)
    (hroom : stamps.countP (fun a => decide (a.start = b.start)) < bound) :
    FixedWindows length bound (stamps ++ [⟨b.start, t⟩]) := by
  refine ⟨?_, ?_, ?_⟩
  · intro a ha
    rcases List.mem_append.mp ha with hold | hnew
    · exact h.inside a hold
    · rw [List.mem_singleton.mp hnew]
      exact ht
  · intro a ha c hc hlt
    -- the new stamp has the start of `b`
    obtain ⟨a', ha', hsa⟩ : ∃ a' ∈ stamps, a.start = a'.start := by
      rcases List.mem_append.mp ha with hold | hnew
      · exact ⟨a, hold, rfl⟩
      · exact ⟨b, hb, by rw [List.mem_singleton.mp hnew]⟩
    obtain ⟨c', hc', hsc⟩ : ∃ c' ∈ stamps, c.start = c'.start := by
      rcases List.mem_append.mp hc with hold | hnew
      · exact ⟨c, hold, rfl⟩
      · exact ⟨b, hb, by rw [List.mem_singleton.mp hnew]⟩
    rw [hsa, hsc] at hlt ⊢
    exact h.apart a' ha' c' hc' hlt
  · intro s
    rw [List.countP_append, List.countP_singleton]
    have hold := h.bounded s
    by_cases hs : b.start = s
    · subst hs
      simp only [decide_true, if_true]
      omega
    · simpa [hs] using hold

/-- The first stamp of a window, where every other is over. -/
theorem push_new (h : FixedWindows length bound stamps) {t : τ} (hlength : t < t + length)
    (hbound : 1 ≤ bound) (hover : ∀ a ∈ stamps, a.start + length ≤ t)
    (hpast : ∀ a ∈ stamps, a.start < t) : FixedWindows length bound (stamps ++ [⟨t, t⟩]) := by
  refine ⟨?_, ?_, ?_⟩
  · intro a ha
    rcases List.mem_append.mp ha with hold | hnew
    · exact h.inside a hold
    · rw [List.mem_singleton.mp hnew]
      exact ⟨le_rfl, hlength⟩
  · intro a ha c hc hlt
    rcases List.mem_append.mp ha with ha | ha
    · rcases List.mem_append.mp hc with hc | hc
      · exact h.apart a ha c hc hlt
      · rw [List.mem_singleton.mp hc]
        exact hover a ha
    · rw [List.mem_singleton.mp ha] at hlt
      rcases List.mem_append.mp hc with hc | hc
      · exact absurd hlt (hpast c hc).asymm
      · rw [List.mem_singleton.mp hc] at hlt
        exact absurd hlt (lt_irrefl t)
  · intro s
    rw [List.countP_append, List.countP_singleton]
    have hold := h.bounded s
    by_cases hs : t = s
    · subst hs
      have hnone : stamps.countP (fun a => decide (a.start = t)) = 0 := by
        rw [List.countP_eq_zero]
        intro a ha
        simpa using (hpast a ha).ne
      simpa [hnone] using hbound
    · simpa [hs] using hold

variable [IsStrictOrderedRing τ]

/-- A fixed window has at most `bound` events. -/
theorem window_le (h : FixedWindows length bound stamps) {a : Stamp τ} (ha : a ∈ stamps) :
    countSpan length a.start stamps ≤ bound := by
  have hsame : ∀ b ∈ stamps, a.start ≤ b.time ∧ b.time < a.start + length → b.start = a.start := by
    intro b hb ht
    have hin := h.inside b hb
    exact h.start_eq hb ha (by linarith) (by linarith)
  refine h.countP_le ?_
  intro b hb c hc hbt hct
  exact (hsame b hb (of_decide_eq_true hbt)).trans (hsame c hc (of_decide_eq_true hct)).symm

/-- A span meets the window it starts in, and one that starts in it. -/
theorem span_le (h : FixedWindows length bound stamps) (t : τ) :
    countSpan length t stamps ≤ 2 * bound := by
  have hbefore : (stamps.filter fun a => decide (a.start ≤ t)).countP
      (fun a => decide (t ≤ a.time ∧ a.time < t + length)) ≤ bound := by
    rw [List.countP_filter]
    refine h.countP_le ?_
    intro a ha b hb hpa hpb
    simp only [Bool.and_eq_true, decide_eq_true_eq] at hpa hpb
    have hain := h.inside a ha
    have hbin := h.inside b hb
    exact h.start_eq ha hb (by linarith) (by linarith)
  have hafter : (stamps.filter fun a => !decide (a.start ≤ t)).countP
      (fun a => decide (t ≤ a.time ∧ a.time < t + length)) ≤ bound := by
    rw [List.countP_filter]
    refine h.countP_le ?_
    intro a ha b hb hpa hpb
    simp only [Bool.and_eq_true, Bool.not_eq_true', decide_eq_true_eq, decide_eq_false_iff_not, not_le] at hpa hpb
    have hain := h.inside a ha
    have hbin := h.inside b hb
    exact h.start_eq ha hb (by linarith) (by linarith)
  rw [countSpan, List.countP_eq_countP_filter_add stamps _ fun a => decide (a.start ≤ t)]
  omega

end FixedWindows

end ZcashFaucet.Lib
