/-
ZcashFaucet.Lib.RollingWindow — limits that are checked once, when an
item is admitted, and then have to hold of every window for ever after.

A limiter keeps a list of admitted items, newest first. When it admits
`x` it sees the items already there, weighs those that are `near` `x`
and still `count`, and lets `x` in if the total with `x` is within
`bound`. Nothing is checked again later. The question is what the check
at admission says about an arbitrary window chosen afterwards.

`Limit.Standing` is the record of all those checks: every item, with
the items below it that are near it and count, weighs at most the bound.
It survives whatever makes items stop counting (`Standing.mono`) or go
(`Standing.filter`), edits of the items that keep weights and distances
(`Standing.map`) and a checked admission (`Standing.push`). `Standing.window_le` is the answer:
a window whose items are pairwise near weighs at most the bound, because
its newest item saw all the others.
-/
import Mathlib.Data.List.Basic
import Mathlib.Algebra.Order.BigOperators.Group.List
import Mathlib.Algebra.Order.Ring.Nat

namespace ZcashFaucet.Lib

variable {α : Type}

/-- One limit: what an item weighs, which earlier items an item is
weighed together with, and how much they may weigh together. -/
structure Limit (α : Type) where
  weight : α → Nat
  near : α → α → Bool
  bound : Nat

namespace Limit

/-- The weight of the items of `l` that are near `x` and count. -/
def load (L : Limit α) (counts : α → Bool) (x : α) (l : List α) : Nat :=
  ((l.filter fun a => L.near x a && counts a).map L.weight).sum

/-- Every item was within the bound when it came in, over the items that
still count. -/
def Standing (L : Limit α) (counts : α → Bool) : List α → Prop
  | [] => True
  | x :: l => L.weight x + L.load counts x l ≤ L.bound ∧ L.Standing counts l

/-- Dropping conditions from a filter only adds weight. -/
theorem sum_filter_le (w : α → Nat) {p q : α → Bool} :
    ∀ (l : List α), (∀ a ∈ l, p a = true → q a = true) →
      ((l.filter p).map w).sum ≤ ((l.filter q).map w).sum
  | [], _ => by simp
  | a :: l, h => by
      have ih := sum_filter_le w l fun b hb => h b (List.mem_cons_of_mem _ hb)
      by_cases hp : p a = true
      · have hq := h a List.mem_cons_self hp
        simpa [hp, hq] using ih
      · by_cases hq : q a = true
        · simp only [hp, hq, List.filter_cons, if_false, if_true, List.map_cons, List.sum_cons,
            Bool.false_eq_true]
          omega
        · simpa [hp, hq] using ih

theorem load_mono (L : Limit α) {counts counts' : α → Bool} (x : α) {l : List α}
    (h : ∀ a ∈ l, counts' a = true → counts a = true) :
    L.load counts' x l ≤ L.load counts x l := by
  refine sum_filter_le L.weight l fun a ha hn => ?_
  simp only [Bool.and_eq_true] at hn ⊢
  exact ⟨hn.1, h a ha hn.2⟩

theorem Standing.mono {L : Limit α} {counts counts' : α → Bool} :
    ∀ {l : List α}, (∀ a ∈ l, counts' a = true → counts a = true) →
      L.Standing counts l → L.Standing counts' l
  | [], _, _ => trivial
  | x :: l, h, ⟨hx, hl⟩ => by
      have hsub : ∀ a ∈ l, counts' a = true → counts a = true :=
        fun a ha => h a (List.mem_cons_of_mem _ ha)
      refine ⟨?_, hl.mono hsub⟩
      have := L.load_mono x hsub
      omega

/-- A checked admission. -/
theorem Standing.push {L : Limit α} {counts : α → Bool} {x : α} {l : List α}
    (hl : L.Standing counts l) (hx : L.weight x + L.load counts x l ≤ L.bound) :
    L.Standing counts (x :: l) :=
  ⟨hx, hl⟩

/-- Items that are taken out weigh nothing. -/
theorem Standing.filter {L : Limit α} {counts : α → Bool} (p : α → Bool) :
    ∀ {l : List α}, L.Standing counts l → L.Standing counts (l.filter p)
  | [], _ => trivial
  | x :: l, ⟨hx, hl⟩ => by
      have hload : L.load counts x (l.filter p) ≤ L.load counts x l := by
        rw [load, List.filter_filter]
        exact sum_filter_le L.weight l fun a _ h => (Bool.and_eq_true_iff.mp h).1
      rw [List.filter_cons]
      split
      · exact ⟨by omega, hl.filter p⟩
      · exact hl.filter p

theorem load_map {L : Limit α} {counts counts' : α → Bool} {f : α → α}
    (hw : ∀ a, L.weight (f a) = L.weight a) (hn : ∀ x a, L.near (f x) (f a) = L.near x a)
    (hc : ∀ a, counts' (f a) = counts a) (x : α) (l : List α) :
    L.load counts' (f x) (l.map f) = L.load counts x l := by
  unfold load
  induction l with
  | nil => rfl
  | cons a l ih =>
    simp only [List.map_cons, List.filter_cons, hn, hc]
    cases L.near x a && counts a
    · simpa using ih
    · simpa [hw] using ih

/-- Editing the items without touching weights, distances or what counts. -/
theorem Standing.map {L : Limit α} {counts counts' : α → Bool} {f : α → α}
    (hw : ∀ a, L.weight (f a) = L.weight a) (hn : ∀ x a, L.near (f x) (f a) = L.near x a)
    (hc : ∀ a, counts' (f a) = counts a) :
    ∀ {l : List α}, L.Standing counts l → L.Standing counts' (l.map f)
  | [], _ => trivial
  | x :: l, ⟨hx, hl⟩ => by
      refine ⟨?_, hl.map hw hn hc⟩
      rw [hw, load_map hw hn hc]
      exact hx

/-- **Every window is within the bound.** The items of a window count and
are pairwise near, so the newest of them was weighed together with all
the others. -/
theorem Standing.window_le {L : Limit α} {counts W : α → Bool} :
    ∀ {l : List α}, L.Standing counts l → (∀ a ∈ l, W a = true → counts a = true) →
      (∀ x ∈ l, ∀ a ∈ l, W x = true → W a = true → L.near x a = true) →
      ((l.filter W).map L.weight).sum ≤ L.bound
  | [], _, _, _ => by simp
  | x :: l, ⟨hx, hl⟩, hcount, hnear => by
      by_cases hW : W x = true
      · have hsub : ((l.filter W).map L.weight).sum ≤ L.load counts x l := by
          refine sum_filter_le L.weight l fun a ha hWa => ?_
          have hmem := List.mem_cons_of_mem x ha
          simp only [Bool.and_eq_true]
          exact ⟨hnear x List.mem_cons_self a hmem hW hWa, hcount a hmem hWa⟩
        simp only [hW, List.filter_cons, if_true, List.map_cons, List.sum_cons]
        omega
      · have hrest := hl.window_le (W := W)
          (fun a ha => hcount a (List.mem_cons_of_mem _ ha))
          (fun y hy a ha => hnear y (List.mem_cons_of_mem _ hy) a (List.mem_cons_of_mem _ ha))
        simpa [hW] using hrest

/-- Two items that the limit cannot hold together: of two near items, the
older one has stopped counting. -/
theorem Standing.not_counts_of_near {L : Limit α} {counts : α → Bool} {x a : α} {pre : List α}
    (hover : L.bound < L.weight x + L.weight a) (hnear : L.near x a = true) (ha : a ∈ pre) :
    ∀ {post : List α}, L.Standing counts (post ++ x :: pre) → counts a = false
  | [], ⟨hx, _⟩ => by
      by_contra hc
      have hin : a ∈ pre.filter fun b => L.near x b && counts b := by
        simp only [List.mem_filter, Bool.and_eq_true]
        exact ⟨ha, hnear, by simpa using hc⟩
      have hle : L.weight a ≤ L.load counts x pre :=
        List.single_le_sum (by simp) _ (List.mem_map_of_mem hin)
      omega
  | _ :: _, ⟨_, hl⟩ => Standing.not_counts_of_near hover hnear ha hl

end Limit

end ZcashFaucet.Lib
