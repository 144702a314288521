/-
ZcashFaucet.Lib.JsMap — JavaScript's `Map`, as the list of its entries in
the order of insertion.

A key has one entry, which is part of the type. Every operation is
described by what `get?` reads afterwards: `get?_set`, `get?_modify` for a
value mutated in place, and `get?_filterMapValues` for a sweep that
changes or deletes every value.
-/
import Mathlib.Data.List.Nodup

namespace ZcashFaucet.Lib

structure JsMap (κ β : Type) where
  entries : List (κ × β)
  nodup : (entries.map Prod.fst).Nodup

namespace JsMap

variable {κ β : Type} [DecidableEq κ]

def empty : JsMap κ β := ⟨[], List.nodup_nil⟩

def get? (m : JsMap κ β) (k : κ) : Option β := m.entries.lookup k

def size (m : JsMap κ β) : Nat := m.entries.length

/-! ## Entries -/

/-- The entries with the value of `k` replaced. -/
def replaceIn (k : κ) (f : β → β) (l : List (κ × β)) : List (κ × β) :=
  l.map fun e => if e.1 = k then (e.1, f e.2) else e

theorem keys_replaceIn (k : κ) (f : β → β) (l : List (κ × β)) :
    (replaceIn k f l).map Prod.fst = l.map Prod.fst := by
  rw [replaceIn, List.map_map]
  apply List.map_congr_left
  intro e _
  show (if e.1 = k then (e.1, f e.2) else e).1 = e.1
  split <;> rfl

theorem lookup_cons (k : κ) (e : κ × β) (l : List (κ × β)) :
    (e :: l).lookup k = if k = e.1 then some e.2 else l.lookup k := by
  obtain ⟨a, b⟩ := e
  by_cases h : k = a
  · subst h
    simp
  · have hne : (k == a) = false := by simpa using h
    simp [List.lookup_cons, hne, h]

theorem lookup_replaceIn (k : κ) (f : β → β) (k' : κ) (l : List (κ × β)) :
    (replaceIn k f l).lookup k' = if k' = k then (l.lookup k').map f else l.lookup k' := by
  induction l with
  | nil => simp [replaceIn]
  | cons e l ih =>
      rw [replaceIn, List.map_cons, lookup_cons, lookup_cons, ← replaceIn, ih]
      by_cases hk : k' = e.1
      · subst hk
        by_cases he : e.1 = k <;> simp [he]
      · have hne : k' ≠ (if e.1 = k then (e.1, f e.2) else e).1 := by
          split <;> exact hk
        rw [if_neg hne, if_neg hk]

theorem lookup_eq_none_of_not_mem {k : κ} {l : List (κ × β)} (h : k ∉ l.map Prod.fst) :
    l.lookup k = none := by
  rw [List.lookup_eq_none_iff]
  intro e he
  have hne : k ≠ e.1 := fun heq => h (heq ▸ List.mem_map_of_mem he)
  simpa using hne

/-! ## Operations -/

/-- A value mutated in place, where there is one. -/
def modify (m : JsMap κ β) (k : κ) (f : β → β) : JsMap κ β :=
  ⟨replaceIn k f m.entries, by rw [keys_replaceIn]; exact m.nodup⟩

theorem get?_modify (m : JsMap κ β) (k : κ) (f : β → β) (k' : κ) :
    (m.modify k f).get? k' = if k' = k then (m.get? k').map f else m.get? k' :=
  lookup_replaceIn k f k' m.entries

def set (m : JsMap κ β) (k : κ) (v : β) : JsMap κ β :=
  if h : k ∈ m.entries.map Prod.fst then m.modify k fun _ => v
  else ⟨m.entries ++ [(k, v)], by
    rw [List.map_append, List.nodup_append]
    refine ⟨m.nodup, by simp, ?_⟩
    intro a ha b hb
    have hb' : b = k := by simpa using hb
    exact fun hab => h (hb' ▸ hab ▸ ha)⟩

theorem get?_set (m : JsMap κ β) (k : κ) (v : β) (k' : κ) :
    (m.set k v).get? k' = if k' = k then some v else m.get? k' := by
  unfold set
  split
  case isTrue h =>
    rw [get?_modify]
    by_cases hk : k' = k
    · subst hk
      obtain ⟨e, he, hek⟩ := List.mem_map.mp h
      have hsome : (m.get? e.1).isSome = true := by
        cases hget : m.get? e.1 with
        | some b => rfl
        | none =>
            have hnone := List.lookup_eq_none_iff.mp hget e he
            simp at hnone
      rw [hek] at hsome
      obtain ⟨b, hb⟩ := Option.isSome_iff_exists.mp hsome
      simp [hb]
    · simp [hk]
  case isFalse h =>
    show (m.entries ++ [(k, v)]).lookup k' = _
    rw [List.lookup_append]
    by_cases hk : k' = k
    · subst hk
      simp [lookup_eq_none_of_not_mem h]
    · simp [hk, get?, lookup_cons]

theorem size_modify (m : JsMap κ β) (k : κ) (f : β → β) : (m.modify k f).size = m.size :=
  List.length_map _

/-- A key that is there is set in place, another is one more. -/
theorem size_set (m : JsMap κ β) (k : κ) (v : β) :
    (m.set k v).size = if (m.get? k).isSome then m.size else m.size + 1 := by
  by_cases h : k ∈ m.entries.map Prod.fst
  · have hsome : (m.get? k).isSome = true := by
      by_contra hnone
      obtain ⟨e, he, hek⟩ := List.mem_map.mp h
      have habsent := List.lookup_eq_none_iff.mp (Option.not_isSome_iff_eq_none.mp hnone) e he
      simp [hek] at habsent
    rw [set, dif_pos h, size_modify, if_pos hsome]
  · have hnone : m.get? k = none := lookup_eq_none_of_not_mem h
    rw [set, dif_neg h, hnone, size, size]
    simp

/-- `new Map(entries)`. -/
def ofEntries (entries : List (κ × β)) : JsMap κ β := entries.foldl (fun m e => m.set e.1 e.2) .empty

/-- Where no key comes twice, a key has its own entry. -/
theorem get?_ofEntries {entries : List (κ × β)} (hkeys : (entries.map Prod.fst).Nodup) (k : κ) :
    (ofEntries entries).get? k = entries.lookup k := by
  have hfold : ∀ (entries : List (κ × β)) (m : JsMap κ β), (entries.map Prod.fst).Nodup →
      (entries.foldl (fun m e => m.set e.1 e.2) m).get? k = (entries.lookup k).or (m.get? k) := by
    intro entries
    induction entries with
    | nil => intros; simp
    | cons e entries ih =>
      intro m hkeys
      rw [List.map_cons, List.nodup_cons] at hkeys
      rw [List.foldl_cons, ih _ hkeys.2, get?_set, lookup_cons]
      by_cases hk : k = e.1
      · subst hk
        simp [lookup_eq_none_of_not_mem hkeys.1]
      · simp [hk]
  rw [ofEntries, hfold entries _ hkeys]
  cases entries.lookup k <;> rfl

/-- A sweep: every value is changed by `f`, or deleted. -/
def filterMapValues (m : JsMap κ β) (f : β → Option β) : JsMap κ β :=
  ⟨m.entries.filterMap fun e => (f e.2).map fun v => (e.1, v), by
    have hsub : ((m.entries.filterMap fun e => (f e.2).map fun v => (e.1, v)).map Prod.fst).Sublist
        (m.entries.map Prod.fst) := by
      generalize m.entries = l
      induction l with
      | nil => simp
      | cons e l ih =>
          rw [List.filterMap_cons]
          cases f e.2 with
          | none => exact ih.trans (List.sublist_cons_self _ _)
          | some v => exact ih.cons_cons e.1
    exact hsub.nodup m.nodup⟩

theorem lookup_filterMap (f : β → Option β) (k : κ) :
    ∀ {l : List (κ × β)}, (l.map Prod.fst).Nodup →
      (l.filterMap fun e => (f e.2).map fun v => (e.1, v)).lookup k = (l.lookup k).bind f
  | [], _ => rfl
  | e :: l, hnodup => by
      rw [List.map_cons, List.nodup_cons] at hnodup
      have ih := lookup_filterMap f k hnodup.2
      rw [List.filterMap_cons, lookup_cons]
      by_cases hk : k = e.1
      · subst hk
        have habsent := lookup_eq_none_of_not_mem hnodup.1
        cases hf : f e.2 <;> simp [ih, habsent, hf]
      · cases hf : f e.2 <;> simp [ih, hk, lookup_cons]

theorem get?_filterMapValues (m : JsMap κ β) (f : β → Option β) (k : κ) :
    (m.filterMapValues f).get? k = (m.get? k).bind f :=
  lookup_filterMap f k m.nodup

omit [DecidableEq κ] in
theorem size_filterMapValues (m : JsMap κ β) (f : β → Option β) : (m.filterMapValues f).size ≤ m.size :=
  List.length_filterMap_le _ _

end JsMap

end ZcashFaucet.Lib
