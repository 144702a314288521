/-
ZcashFaucet.Lib.JsTrim — `String.prototype.trim`.

White space is what the standard calls so: its own list, the space
separators of Unicode, and the line terminators. All of it is in one code
unit. A text is blank when nothing is left of it, and what surrounds a text
is trimmed off whatever it is made of (`trim_surround`).
-/
import Mathlib.Data.List.DropRight
import ZcashFaucet.Lib.JsString

namespace ZcashFaucet.Lib

def isJsSpace (c : UInt16) : Bool :=
  (0x09 ≤ c && c ≤ 0x0D) || c == 0x20 || c == 0xA0 || c == 0x1680 || (0x2000 ≤ c && c ≤ 0x200A) ||
    c == 0x2028 || c == 0x2029 || c == 0x202F || c == 0x205F || c == 0x3000 || c == 0xFEFF

def trim (s : JsString) : JsString := (s.dropWhile isJsSpace).rdropWhile isJsSpace

example : trim (js " \t a b\n") = js "a b" := by decide

def IsBlank (s : JsString) : Prop := ∀ c ∈ s, isJsSpace c = true

instance (s : JsString) : Decidable (IsBlank s) := List.decidableBAll _ s

theorem trim_eq_nil_iff {s : JsString} : trim s = [] ↔ IsBlank s := by
  rw [trim, List.rdropWhile_eq_nil_iff]
  constructor
  · intro h c hc
    rw [← List.takeWhile_append_dropWhile (p := isJsSpace) (l := s), List.mem_append] at hc
    rcases hc with hc | hc
    · exact List.mem_takeWhile_imp hc
    · exact h c hc
  · intro h c hc
    exact h c (List.dropWhile_sublist _ |>.subset hc)

theorem rdropWhile_append_blank (s : JsString) {back : JsString} (hback : IsBlank back) :
    (s ++ back).rdropWhile isJsSpace = s.rdropWhile isJsSpace := by
  have hreverse : ∀ c ∈ back.reverse, isJsSpace c = true := fun c hc => hback c (List.mem_reverse.mp hc)
  rw [List.rdropWhile, List.reverse_append, List.dropWhile_append_of_pos hreverse, List.rdropWhile]

/-- What surrounds a text goes. -/
theorem trim_surround {front back : JsString} (hfront : IsBlank front) (hback : IsBlank back) (s : JsString) :
    trim (front ++ s ++ back) = trim s := by
  rw [trim, trim, List.append_assoc, List.dropWhile_append_of_pos hfront, List.dropWhile_append]
  split
  · rename_i hempty
    rw [List.isEmpty_iff] at hempty
    rw [hempty, List.dropWhile_eq_nil_iff.mpr hback]
  · exact rdropWhile_append_blank _ hback

theorem isBlank_nil : IsBlank [] := by simp [IsBlank]

/-- A text without white space is what is left of it. -/
theorem trim_of_no_space {s : JsString} (h : ∀ c ∈ s, isJsSpace c = false) : trim s = s := by
  have hdrop (l : JsString) (hl : ∀ c ∈ l, isJsSpace c = false) : l.dropWhile isJsSpace = l := by
    cases l with
    | nil => rfl
    | cons c l => rw [List.dropWhile_cons_of_neg (by simp [hl c])]
  rw [trim, hdrop s h, List.rdropWhile, hdrop s.reverse fun c hc => h c (List.mem_reverse.mp hc), List.reverse_reverse]

end ZcashFaucet.Lib
