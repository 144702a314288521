/-
ZcashFaucet.Lib.Buckets — totals kept by key.

Items carry a key and a weight, and `bucket` is what the items of one
key weigh together. Two kinds of facts:

  * a table that holds at most one row for a key is written with
    `upsert`, which changes the bucket of that key and no other
    (`bucket_upsert`);
  * a comparison of totals follows from the comparison of the buckets,
    key by key (`sum_le_of_bucket_le`, `le_sum_of_le_bucket`), whatever
    lists the buckets come from.
-/
import Mathlib.Algebra.BigOperators.Group.List.Basic
import Mathlib.Algebra.BigOperators.Group.Finset.Piecewise
import Mathlib.Algebra.Order.BigOperators.Group.Finset
import Mathlib.Algebra.Order.Ring.Nat

namespace ZcashFaucet.Lib

variable {α β γ κ : Type} [DecidableEq κ]

/-- What the items of one key weigh together. -/
def bucket (key : α → κ) (w : α → Nat) (rows : List α) (k : κ) : Nat :=
  ((rows.filter fun a => decide (key a = k)).map w).sum

@[simp] theorem bucket_nil (key : α → κ) (w : α → Nat) (k : κ) : bucket key w [] k = 0 := rfl

@[simp] theorem bucket_cons (key : α → κ) (w : α → Nat) (a : α) (rows : List α) (k : κ) :
    bucket key w (a :: rows) k = (if key a = k then w a else 0) + bucket key w rows k := by
  by_cases h : key a = k <;> simp [bucket, h]

/-- Without a row for the key the bucket is empty. -/
theorem bucket_eq_zero {key : α → κ} {w : α → Nat} {k : κ} :
    ∀ {rows : List α}, k ∉ rows.map key → bucket key w rows k = 0
  | [], _ => rfl
  | a :: rows, h => by
      rw [List.map_cons, List.mem_cons, not_or] at h
      rw [bucket_cons, if_neg (Ne.symm h.1), bucket_eq_zero h.2]

/-- Items that weigh one are counted. -/
theorem bucket_ones (key : α → κ) (rows : List α) (k : κ) :
    bucket key (fun _ => 1) rows k = rows.countP fun a => decide (key a = k) := by
  rw [bucket, List.map_const', List.sum_replicate, List.countP_eq_length_filter]
  simp

/-! ## Upserts -/

/-- INSERT ... ON CONFLICT(key) DO UPDATE. -/
def upsert (key : α → κ) (new : α) (update : α → α) (rows : List α) : List α :=
  if rows.any fun a => decide (key a = key new) then
    rows.map fun a => if key a = key new then update a else a
  else new :: rows

section
variable {key : α → κ} {w : α → Nat} {new : α} {update : α → α} {g : Nat → Nat}

theorem map_key_update (hkey : ∀ a, key (update a) = key a) (rows : List α) :
    (rows.map fun a => if key a = key new then update a else a).map key = rows.map key := by
  rw [List.map_map]
  refine List.map_congr_left fun a _ => ?_
  by_cases h : key a = key new <;> simp [h, hkey]

/-- The keys stay distinct. -/
theorem nodup_upsert (hkey : ∀ a, key (update a) = key a) {rows : List α}
    (h : (rows.map key).Nodup) : ((upsert key new update rows).map key).Nodup := by
  unfold upsert
  split
  · rw [map_key_update hkey]
    exact h
  · rename_i hnone
    rw [List.map_cons, List.nodup_cons]
    refine ⟨fun hmem => hnone ?_, h⟩
    obtain ⟨a, ha, hka⟩ := List.mem_map.mp hmem
    exact List.any_eq_true.mpr ⟨a, ha, decide_eq_true hka⟩

/-- The rows of other keys do not change. -/
theorem bucket_update_of_ne (hkey : ∀ a, key (update a) = key a) {k : κ} (hk : k ≠ key new) :
    ∀ rows : List α, bucket key w (rows.map fun a => if key a = key new then update a else a) k =
      bucket key w rows k
  | [] => rfl
  | a :: rows => by
      rw [List.map_cons, bucket_cons, bucket_cons, bucket_update_of_ne hkey hk rows]
      by_cases h : key a = key new
      · rw [if_pos h, hkey, h, if_neg (Ne.symm hk), if_neg (Ne.symm hk)]
      · rw [if_neg h]

/-- The one row of the key is updated. -/
theorem bucket_update_self (hkey : ∀ a, key (update a) = key a) (hw : ∀ a, w (update a) = g (w a)) :
    ∀ rows : List α, (rows.map key).Nodup → key new ∈ rows.map key →
      bucket key w (rows.map fun a => if key a = key new then update a else a) (key new) =
        g (bucket key w rows (key new))
  | a :: rows, hnodup, hmem => by
      rw [List.map_cons, List.nodup_cons] at hnodup
      rw [List.map_cons, bucket_cons, bucket_cons]
      by_cases h : key a = key new
      · -- the rest has no row for the key
        have hrest : key new ∉ rows.map key := h ▸ hnodup.1
        have hsame : (rows.map fun a => if key a = key new then update a else a).map key =
            rows.map key := map_key_update hkey rows
        rw [if_pos h, hkey, if_pos h, if_pos h, hw, bucket_eq_zero hrest,
          bucket_eq_zero (hsame ▸ hrest), Nat.add_zero, Nat.add_zero]
      · have hrest : key new ∈ rows.map key := by
          rcases List.mem_cons.mp hmem with heq | hin
          · exact absurd heq.symm h
          · exact hin
        rw [if_neg h, if_neg h, Nat.zero_add, Nat.zero_add,
          bucket_update_self hkey hw rows hnodup.2 hrest]

/-- **Upsert rule.** With distinct keys, the bucket of the key goes
through `g` and every other bucket stays, if the new row is what `g`
makes of nothing. -/
theorem bucket_upsert (hkey : ∀ a, key (update a) = key a) (hw : ∀ a, w (update a) = g (w a))
    (hnew : w new = g 0) {rows : List α} (hnodup : (rows.map key).Nodup) (k : κ) :
    bucket key w (upsert key new update rows) k =
      if k = key new then g (bucket key w rows k) else bucket key w rows k := by
  unfold upsert
  by_cases hk : k = key new
  · subst hk
    rw [if_pos rfl]
    split
    · rename_i hany
      obtain ⟨a, ha, hka⟩ := List.any_eq_true.mp hany
      exact bucket_update_self hkey hw rows hnodup
        (List.mem_map.mpr ⟨a, ha, of_decide_eq_true hka⟩)
    · rename_i hnone
      have habsent : key new ∉ rows.map key := by
        intro hmem
        obtain ⟨a, ha, hka⟩ := List.mem_map.mp hmem
        exact hnone (List.any_eq_true.mpr ⟨a, ha, decide_eq_true hka⟩)
      rw [bucket_cons, if_pos rfl, bucket_eq_zero habsent, hnew, Nat.add_zero]
  · rw [if_neg hk]
    split
    · exact bucket_update_of_ne hkey hk rows
    · rw [bucket_cons, if_neg (Ne.symm hk), Nat.zero_add]

end

/-! ## Totals -/

/-- The total, bucket by bucket, over any set that has all the keys. -/
theorem sum_bucket {key : α → κ} {w : α → Nat} {keys : Finset κ} :
    ∀ {rows : List α}, (∀ a ∈ rows, key a ∈ keys) →
      ∑ k ∈ keys, bucket key w rows k = (rows.map w).sum
  | [], _ => by simp
  | a :: rows, h => by
      have ih := sum_bucket (w := w) fun b hb => h b (List.mem_cons_of_mem a hb)
      simp only [bucket_cons, Finset.sum_add_distrib, ih, List.map_cons, List.sum_cons]
      rw [Finset.sum_ite_eq keys (key a), if_pos (h a List.mem_cons_self)]

section
variable {key₁ : α → κ} {key₂ : β → κ} {key₃ : γ → κ} {w₁ : α → Nat} {w₂ : β → Nat} {w₃ : γ → Nat}
  {rows₁ : List α} {rows₂ : List β} {rows₃ : List γ}

/-- A set that has the keys of three lists. -/
theorem exists_keys (key₁ : α → κ) (key₂ : β → κ) (key₃ : γ → κ) (rows₁ : List α) (rows₂ : List β)
    (rows₃ : List γ) : ∃ keys : Finset κ, (∀ a ∈ rows₁, key₁ a ∈ keys) ∧
      (∀ b ∈ rows₂, key₂ b ∈ keys) ∧ ∀ c ∈ rows₃, key₃ c ∈ keys := by
  refine ⟨(rows₁.map key₁ ++ (rows₂.map key₂ ++ rows₃.map key₃)).toFinset, ?_, ?_, ?_⟩ <;>
    intro x hx <;>
    simp only [List.mem_toFinset, List.mem_append, List.mem_map]
  · exact Or.inl ⟨x, hx, rfl⟩
  · exact Or.inr (Or.inl ⟨x, hx, rfl⟩)
  · exact Or.inr (Or.inr ⟨x, hx, rfl⟩)

theorem sum_le_of_bucket_le
    (h : ∀ k, bucket key₁ w₁ rows₁ k ≤ bucket key₂ w₂ rows₂ k + bucket key₃ w₃ rows₃ k) :
    (rows₁.map w₁).sum ≤ (rows₂.map w₂).sum + (rows₃.map w₃).sum := by
  obtain ⟨keys, h₁, h₂, h₃⟩ := exists_keys key₁ key₂ key₃ rows₁ rows₂ rows₃
  rw [← sum_bucket h₁, ← sum_bucket h₂, ← sum_bucket h₃, ← Finset.sum_add_distrib]
  exact Finset.sum_le_sum fun k _ => h k

theorem le_sum_of_le_bucket
    (h : ∀ k, bucket key₂ w₂ rows₂ k + bucket key₃ w₃ rows₃ k ≤ bucket key₁ w₁ rows₁ k) :
    (rows₂.map w₂).sum + (rows₃.map w₃).sum ≤ (rows₁.map w₁).sum := by
  obtain ⟨keys, h₁, h₂, h₃⟩ := exists_keys key₁ key₂ key₃ rows₁ rows₂ rows₃
  rw [← sum_bucket h₁, ← sum_bucket h₂, ← sum_bucket h₃, ← Finset.sum_add_distrib]
  exact Finset.sum_le_sum fun k _ => h k

end

end ZcashFaucet.Lib
