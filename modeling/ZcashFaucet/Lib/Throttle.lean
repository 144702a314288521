/-
ZcashFaucet.Lib.Throttle — say the first one at once, then at most one in
a while, with how many there were since.

`Throttle.hit` is one occurrence, `heard` all of them in order, whatever
the clock says at each. Nothing is lost: what was said and what is still
to be said add up to the occurrences (`heard_sum`). Nothing is said too
early: two lines in a row are that far apart (`heard_spaced`).

`keyed` is a throttle for every key, in any interleaving; for one key it
is the throttle of that key's own occurrences (`keyed_eq_heard`).
-/
import Mathlib.Algebra.Order.Field.Rat
import Mathlib.Data.List.Chain
import Mathlib.Data.List.Induction

namespace ZcashFaucet.Lib

structure Throttle where
  total : Nat
  /-- How many since the last line. -/
  since : Nat
  lastAt : Option ℚ

/-- A line: when, how many since the last one, how many in all. -/
structure Spoken where
  saidAt : ℚ
  since : Nat
  total : Nat
  deriving DecidableEq

namespace Throttle

def silent : Throttle := ⟨0, 0, none⟩

def due (every now : ℚ) (t : Throttle) : Bool := t.lastAt.all fun last => decide (every ≤ now - last)

/-- One occurrence, and the line it causes, if any. -/
def hit (every now : ℚ) (t : Throttle) : Throttle × Option Spoken :=
  if t.due every now then (⟨t.total + 1, 0, some now⟩, some ⟨now, t.since + 1, t.total + 1⟩)
  else (⟨t.total + 1, t.since + 1, t.lastAt⟩, none)

end Throttle

/-- All occurrences, in order. -/
def heard (every : ℚ) (nows : List ℚ) : Throttle × List Spoken :=
  nows.foldl (fun acc now => ((acc.1.hit every now).1, acc.2 ++ (acc.1.hit every now).2.toList)) (.silent, [])

variable {every : ℚ}

theorem heard_snoc (nows : List ℚ) (now : ℚ) :
    heard every (nows ++ [now]) =
      (((heard every nows).1.hit every now).1,
        (heard every nows).2 ++ ((heard every nows).1.hit every now).2.toList) := by
  rw [heard, List.foldl_append]
  rfl

theorem heard_total (nows : List ℚ) : (heard every nows).1.total = nows.length := by
  induction nows using List.reverseRecOn with
  | nil => rfl
  | append_singleton nows now ih =>
    rw [heard_snoc, List.length_append, List.length_singleton, ← ih]
    dsimp only [Throttle.hit]
    split <;> rfl

/-- What was said and what is still to be said is everything. -/
theorem heard_sum (nows : List ℚ) :
    ((heard every nows).2.map Spoken.since).sum + (heard every nows).1.since = nows.length := by
  induction nows using List.reverseRecOn with
  | nil => rfl
  | append_singleton nows now ih =>
    rw [heard_snoc, List.length_append, List.length_singleton, ← ih]
    dsimp only [Throttle.hit]
    split
    · simp only [Option.toList_some, List.map_append, List.map_cons, List.map_nil, List.sum_append,
        List.sum_cons, List.sum_nil]
      omega
    · simp only [Option.toList_none, List.append_nil]
      omega

theorem heard_lastAt (nows : List ℚ) :
    (heard every nows).1.lastAt = (heard every nows).2.getLast?.map Spoken.saidAt := by
  induction nows using List.reverseRecOn with
  | nil => rfl
  | append_singleton nows now ih =>
    rw [heard_snoc]
    dsimp only [Throttle.hit]
    split
    · simp
    · simpa using ih

/-- Two lines in a row are that far apart. -/
theorem heard_spaced (nows : List ℚ) :
    (heard every nows).2.IsChain fun a b => every ≤ b.saidAt - a.saidAt := by
  induction nows using List.reverseRecOn with
  | nil => exact List.isChain_nil
  | append_singleton nows now ih =>
    rw [heard_snoc]
    dsimp only [Throttle.hit]
    split
    case isTrue hdue =>
      rw [Option.toList_some, List.isChain_append]
      refine ⟨ih, List.isChain_singleton _, fun a ha b hb => ?_⟩
      obtain rfl := Option.some.inj hb
      rw [Throttle.due, heard_lastAt, Option.mem_def.mp ha] at hdue
      simpa using hdue
    case isFalse =>
      rw [Option.toList_none, List.append_nil]
      exact ih

/-- Silence before the first occurrence only. -/
theorem heard_spoken (nows : List ℚ) : (heard every nows).2 = [] ↔ nows = [] := by
  induction nows using List.reverseRecOn with
  | nil => exact ⟨fun _ => rfl, fun _ => rfl⟩
  | append_singleton nows now ih =>
    rw [heard_snoc]
    dsimp only [Throttle.hit]
    split
    case isTrue => simp
    case isFalse hdue =>
      have hspoken : (heard every nows).2 ≠ [] := by
        intro hnil
        rw [Throttle.due, heard_lastAt, hnil] at hdue
        exact hdue rfl
      simp [hspoken]

/-- The first occurrence speaks. -/
theorem heard_head (nows : List ℚ) : (heard every nows).2.head?.map Spoken.saidAt = nows.head? := by
  induction nows using List.reverseRecOn with
  | nil => rfl
  | append_singleton nows now ih =>
    rw [heard_snoc]
    by_cases hnil : nows = []
    · subst hnil
      rfl
    · obtain ⟨first, rest, hspoken⟩ := List.exists_cons_of_ne_nil (mt (heard_spoken nows).mp hnil)
      rw [List.head?_append_of_ne_nil _ hnil, ← ih, hspoken]
      rfl

/-! ## A throttle for every key -/

section
variable {κ : Type} [DecidableEq κ]

def keyed (every : ℚ) (events : List (κ × ℚ)) : (κ → Throttle) × List (κ × Spoken) :=
  events.foldl (fun acc e =>
      (Function.update acc.1 e.1 ((acc.1 e.1).hit every e.2).1,
        acc.2 ++ ((acc.1 e.1).hit every e.2).2.toList.map fun line => (e.1, line)))
    (fun _ => .silent, [])

/-- When key `k` occurred. -/
def occurrences (k : κ) (events : List (κ × ℚ)) : List ℚ := (events.filter fun e => e.1 = k).map Prod.snd

theorem keyed_snoc (events : List (κ × ℚ)) (e : κ × ℚ) :
    keyed every (events ++ [e]) =
      (Function.update (keyed every events).1 e.1 (((keyed every events).1 e.1).hit every e.2).1,
        (keyed every events).2 ++
          (((keyed every events).1 e.1).hit every e.2).2.toList.map fun line => (e.1, line)) := by
  rw [keyed, List.foldl_append]
  rfl

/-- For one key there is nothing but its own occurrences. -/
theorem keyed_eq_heard (k : κ) (events : List (κ × ℚ)) :
    (keyed every events).1 k = (heard every (occurrences k events)).1 ∧
      ((keyed every events).2.filter fun l => l.1 = k).map Prod.snd = (heard every (occurrences k events)).2 := by
  induction events using List.reverseRecOn with
  | nil => exact ⟨rfl, rfl⟩
  | append_singleton events e ih =>
    obtain ⟨hstate, hlines⟩ := ih
    rw [keyed_snoc, occurrences, List.filter_append, List.map_append, ← occurrences]
    by_cases hk : e.1 = k
    · subst hk
      rw [show (List.filter (fun e' => decide (e'.1 = e.1)) [e]).map Prod.snd = [e.2] by simp, heard_snoc, ← hstate,
        ← hlines]
      refine ⟨Function.update_self _ _ _, ?_⟩
      cases (((keyed every events).1 e.1).hit every e.2).2 <;> simp [List.filter_append]
    · rw [show (List.filter (fun e' => decide (e'.1 = k)) [e]).map Prod.snd = [] by simp [hk], List.append_nil,
        ← hstate, ← hlines]
      refine ⟨Function.update_of_ne (Ne.symm hk) _ _, ?_⟩
      cases (((keyed every events).1 e.1).hit every e.2).2 <;> simp [List.filter_append, hk]

end

end ZcashFaucet.Lib
