/-
ZcashFaucet.Lib.Modify — a list in which one element changes.

A state that is a list of parties takes a step by changing one of them,
`l.modify i f`. These lemmas say what is in such a list: the elements it
had, and `f` of the one at `i`.
-/
import Mathlib.Data.List.Basic

namespace ZcashFaucet.Lib

variable {β γ : Type}

theorem getElem?_modify_ite (f : β → β) (i k : Nat) (l : List β) :
    (l.modify i f)[k]? = if i = k then l[k]?.map f else l[k]? := by
  rw [List.getElem?_modify]
  by_cases h : i = k
  · subst h
    cases l[i]? <;> simp
  · cases l[k]? <;> simp [h]

/-- The elements of a list after one of them changed. -/
theorem getElem?_modify_some {f : β → β} {i k : Nat} {l : List β} {b' : β}
    (h : (l.modify i f)[k]? = some b') : ∃ b, l[k]? = some b ∧ b' = if i = k then f b else b := by
  rw [getElem?_modify_ite] at h
  split at h
  · rename_i hik
    obtain ⟨b, hb, rfl⟩ := Option.map_eq_some_iff.mp h
    exact ⟨b, hb, by simp [hik]⟩
  · rename_i hik
    exact ⟨b', h, by simp [hik]⟩

theorem map_modify_of_eq {f : β → β} {g : β → γ} (h : ∀ b, g (f b) = g b) :
    ∀ (i : Nat) (l : List β), (l.modify i f).map g = l.map g
  | _, [] => by simp
  | 0, b :: l => by simp [h]
  | i + 1, b :: l => by
      simp only [List.modify_succ_cons, List.map_cons, map_modify_of_eq h i l]

/-- What held of every element, and holds of the changed one, holds of
every element. -/
theorem forall_mem_modify {l : List β} {f : β → β} {k : Nat} {P : β → Prop} (hold : ∀ b ∈ l, P b)
    (hnew : ∀ b, l[k]? = some b → P (f b)) : ∀ b ∈ l.modify k f, P b := by
  intro b hb
  obtain ⟨i, hi⟩ := List.mem_iff_getElem?.mp hb
  obtain ⟨b₀, hb₀, rfl⟩ := getElem?_modify_some hi
  split
  · rename_i hki
    exact hnew b₀ (hki ▸ hb₀)
  · exact hold b₀ (List.mem_of_getElem? hb₀)

/-- The list around the element that changes. -/
theorem modify_split {l : List β} {i : Nat} {a : β} (h : l[i]? = some a) :
    ∃ pre post, l = pre ++ a :: post ∧ ∀ f : β → β, l.modify i f = pre ++ f a :: post := by
  obtain ⟨hlt, ha⟩ := List.getElem?_eq_some_iff.mp h
  refine ⟨l.take i, l.drop (i + 1), ?_, fun f => ?_⟩
  · rw [← ha, List.getElem_cons_drop, List.take_append_drop]
  · rw [List.modify_eq_take_cons_drop hlt, ha]

end ZcashFaucet.Lib
