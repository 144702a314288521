/-
ZcashFaucet.Lib.PagedScan — a list read page by page while it grows.

`hist p` is the list as it stands when page `p` is asked for. A page is a
slice by offset, and the scan is over with the first page that is not full.
Between two pages the list may grow at both ends (`GrowsAtEnds`).

Growth only moves entries away from the front, so nothing is skipped: what
stands at or after the offset of a page is in that page or in a later one
(`exists_page_of_drop`). What was read already and stands there is read
again, and that is the only way to be read twice (`pairwise_pages_iff`).
-/
import Mathlib.Data.List.Basic
import Mathlib.Data.Nat.Basic
import Mathlib.Order.Basic

namespace ZcashFaucet.Lib

variable {α : Type} (size : Nat) (hist : Nat → List α)

/-- The slice of page `p`, of the list as it is when the page is asked for. -/
def page (p : Nat) : List α := ((hist p).drop (p * size)).take size

/-- The pages from `p` on, `left` of them at most, and whether the last
one was not full. -/
def scanPages : Nat → Nat → List α × Bool
  | 0, _ => ([], false)
  | left + 1, p =>
      if (page size hist p).length < size then (page size hist p, true)
      else (page size hist p ++ (scanPages left (p + 1)).1, (scanPages left (p + 1)).2)

/-- Page `p` is asked for when all before it were full. -/
def Asked (p : Nat) : Prop := ∀ q < p, (page size hist q).length = size

def GrowsAtEnds : Prop := ∀ p, ∃ front back, hist (p + 1) = front ++ hist p ++ back

variable {size} {hist}

theorem length_page_le (p : Nat) : (page size hist p).length ≤ size := List.length_take_le _ _

theorem mem_of_mem_page {p : Nat} {x : α} (h : x ∈ page size hist p) : x ∈ (hist p).drop (p * size) :=
  List.mem_of_mem_take h

/-- A scan that is over has read full pages and then one that is not full. -/
theorem scanPages_complete (left : Nat) : ∀ {p : Nat}, (scanPages size hist left p).2 = true →
    ∃ n, p ≤ n ∧ n < p + left ∧ (∀ q, p ≤ q → q < n → (page size hist q).length = size) ∧
      (page size hist n).length < size ∧
      (scanPages size hist left p).1 = (List.range' p (n + 1 - p)).flatMap (page size hist) := by
  induction left with
  | zero =>
      intro p h
      cases h
  | succ left ih =>
      intro p h
      rw [scanPages] at h ⊢
      split at h
      case isTrue hshort =>
        rw [if_pos hshort]
        refine ⟨p, le_rfl, by omega, fun q hq hlt => absurd hq (by omega), hshort, ?_⟩
        rw [show p + 1 - p = 1 by omega, List.range'_one, List.flatMap_singleton]
      case isFalse hfull =>
        obtain ⟨n, hn, hlt, hpages, hlast, hread⟩ := ih h
        rw [if_neg hfull]
        refine ⟨n, by omega, by omega, fun q hq hqn => ?_, hlast, ?_⟩
        · rcases hq.lt_or_eq with hlater | rfl
          · exact hpages q hlater hqn
          · exact le_antisymm (length_page_le p) (not_lt.mp hfull)
        · show page size hist p ++ (scanPages size hist left (p + 1)).1 = _
          rw [hread, show n + 1 - p = (n + 1 - (p + 1)) + 1 by omega, List.range'_succ, List.flatMap_cons]

namespace GrowsAtEnds

variable (h : GrowsAtEnds hist)
include h

theorem sublist {p q : Nat} (hpq : p ≤ q) : (hist p).Sublist (hist q) := by
  induction q, hpq using Nat.le_induction with
  | base => exact List.Sublist.refl _
  | succ q _ ih =>
      obtain ⟨front, back, hstep⟩ := h q
      rw [hstep, List.append_assoc]
      exact ih.trans ((List.sublist_append_left _ _).trans (List.sublist_append_right _ _))

/-- What stands at or after a place goes on standing at or after it. -/
theorem mem_drop {p q k : Nat} (hpq : p ≤ q) {x : α} (hx : x ∈ (hist p).drop k) : x ∈ (hist q).drop k := by
  induction q, hpq using Nat.le_induction with
  | base => exact hx
  | succ q _ ih =>
      obtain ⟨front, back, hstep⟩ := h q
      rw [hstep, List.append_assoc, List.drop_append]
      refine List.mem_append_right _ ?_
      rw [List.drop_append]
      refine List.mem_append_left _ ?_
      have hle : k - front.length ≤ k := Nat.sub_le _ _
      exact (List.drop_sublist_drop_left _ hle).subset ih

/-- What stands at or after the offset of a page is read by it or later. -/
theorem exists_page_of_drop {n : Nat} (hlast : (page size hist n).length < size) {p : Nat} (hp : p ≤ n) {x : α}
    (hx : x ∈ (hist p).drop (p * size)) : ∃ q, p ≤ q ∧ q ≤ n ∧ x ∈ page size hist q := by
  induction hp using Nat.decreasingInduction with
  | self =>
      refine ⟨n, le_rfl, le_rfl, ?_⟩
      rw [page, List.length_take] at hlast
      rw [page, List.take_of_length_le (by omega)]
      exact hx
  | of_succ p hp ih =>
      by_cases hread : x ∈ page size hist p
      · exact ⟨p, le_rfl, by omega, hread⟩
      · rw [← List.take_append_drop size ((hist p).drop (p * size)), List.mem_append] at hx
        have hrest := hx.resolve_left hread
        rw [List.drop_drop, ← Nat.succ_mul] at hrest
        obtain ⟨q, hq, hqn, hmem⟩ := ih (h.mem_drop (Nat.le_succ p) hrest)
        exact ⟨q, by omega, hqn, hmem⟩

/-- **Rereading.** Different entries being apart, what a finished scan read
is pairwise apart exactly if, whenever a page is asked for, what was read
already and stands at or after its offset is apart from itself. -/
theorem pairwise_pages_iff {n : Nat} (hlast : (page size hist n).length < size)
    (hnodup : ∀ p, (hist p).Nodup) {Apart : α → α → Prop} (hne : ∀ x y, x ≠ y → Apart x y) :
    ((List.range (n + 1)).flatMap (page size hist)).Pairwise Apart ↔
      ∀ p ≤ n, ∀ q < p, ∀ x ∈ page size hist q, x ∈ (hist p).drop (p * size) → Apart x x := by
  rw [List.pairwise_flatMap]
  constructor
  · rintro ⟨-, hpages⟩ p hp q hq x hread hstands
    obtain ⟨r, hr, hrn, hagain⟩ := h.exists_page_of_drop hlast hp hstands
    have hqr := List.pairwise_iff_getElem.mp hpages q r (by simp; omega) (by simp; omega) (by omega)
    simp only [List.getElem_range] at hqr
    exact hqr x hread x hagain
  · intro hkept
    constructor
    · intro p _
      have hpage : (page size hist p).Nodup := (hnodup p).sublist ((List.take_sublist _ _).trans (List.drop_sublist _ _))
      exact hpage.imp fun {x y} hxy => hne x y hxy
    · refine List.pairwise_lt_range.imp_of_mem fun {q p} _ hp hqp => ?_
      intro x hx y hy
      by_cases hxy : x = y
      · subst hxy
        exact hkept p (Nat.lt_succ_iff.mp (List.mem_range.mp hp)) q hqp x hx (mem_of_mem_page hy)
      · exact hne x y hxy

end GrowsAtEnds

/-- Where the list grows at the back only, nothing that was read stands at
or after a later offset. -/
theorem not_mem_drop_of_appended (happended : ∀ p, ∃ back, hist (p + 1) = hist p ++ back)
    (hnodup : ∀ p, (hist p).Nodup) {p q : Nat} (hqp : q < p) {x : α} (hread : x ∈ page size hist q) :
    x ∉ (hist p).drop (p * size) := by
  have hfront : ∃ back, hist p = hist q ++ back := by
    induction p, hqp using Nat.le_induction with
    | base => exact happended q
    | succ p _ ih =>
        obtain ⟨old, hold⟩ := ih
        obtain ⟨back, hback⟩ := happended p
        exact ⟨old ++ back, by rw [hback, hold, List.append_assoc]⟩
  obtain ⟨back, hback⟩ := hfront
  have hbefore : x ∈ (hist p).take (p * size) := by
    have hfirst : x ∈ (hist q).take ((q + 1) * size) := by
      rw [Nat.succ_mul, List.take_add]
      exact List.mem_append_right _ hread
    have hle : (q + 1) * size ≤ p * size := Nat.mul_le_mul_right _ hqp
    rw [hback, List.take_append]
    exact List.mem_append_left _ (List.take_subset_take_left _ hle hfirst)
  have hsplit := hnodup p
  rw [← List.take_append_drop (p * size) (hist p), List.nodup_append] at hsplit
  exact fun hafter => hsplit.2.2 x hbefore x hafter rfl

end ZcashFaucet.Lib
