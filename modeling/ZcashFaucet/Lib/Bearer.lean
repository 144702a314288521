/-
ZcashFaucet.Lib.Bearer — a secret as a bearer token: what becomes of it
between the header it is put into and the token that is read out.

A header's value loses the white space around it before it is sent, and is
not sent at all where a unit of it may not stand in a field. The reader
strips `Bearer` and all the white space after it. So a secret arrives as
itself if and only if it can stand in a field, does not begin with white
space of JavaScript and does not end with white space of HTTP
(`arrives_iff`).
-/
import Mathlib.Data.List.DropRight
import ZcashFaucet.Lib.JsTrim

namespace ZcashFaucet.Lib

/-- An HTTP whitespace byte. -/
def isHttpSpace (c : UInt16) : Bool := c == 0x09 || c == 0x0A || c == 0x0D || c == 0x20

/-- What may stand in a field's value. -/
def isFieldUnit (c : UInt16) : Bool := c == 0x09 || (0x20 ≤ c && c ≤ 0x7E) || (0x80 ≤ c && c ≤ 0xFF)

def normalizeHeader (v : JsString) : JsString := (v.dropWhile isHttpSpace).rdropWhile isHttpSpace

/-- The value that is sent, or `none` where it cannot be. -/
def sendHeader (v : JsString) : Option JsString :=
  if (normalizeHeader v).all isFieldUnit then some (normalizeHeader v) else none

def bearer (secret : JsString) : JsString := js "Bearer " ++ secret

/-- `value.replace(/^Bearer\s+/i, "")`. -/
def stripBearer (v : JsString) : JsString :=
  if (v.take 6).map foldCase = js "bearer" ∧ (v.drop 6).head?.any isJsSpace then (v.drop 6).dropWhile isJsSpace else v

/-- The token read out of the header of a secret. -/
def arrived (secret : JsString) : Option JsString := (sendHeader (bearer secret)).map stripBearer

/-- A secret that survives. -/
def Sendable (secret : JsString) : Prop :=
  (∀ c ∈ secret, isFieldUnit c = true) ∧ (∀ c ∈ secret.head?, isJsSpace c = false) ∧
    ∀ c ∈ secret.getLast?, isHttpSpace c = false

instance (secret : JsString) : Decidable (Sendable secret) :=
  @instDecidableAnd _ _ (List.decidableBAll _ secret)
    (@instDecidableAnd _ _ (Option.decidableForallMem secret.head?) (Option.decidableForallMem secret.getLast?))

theorem bearer_eq (secret : JsString) :
    bearer secret = 0x42 :: 0x65 :: 0x61 :: 0x72 :: 0x65 :: 0x72 :: 0x20 :: secret := rfl

theorem dropWhile_bearer (secret : JsString) : (bearer secret).dropWhile isHttpSpace = bearer secret := by
  rw [bearer_eq, List.dropWhile_cons_of_neg (by decide)]

/-- White space is dropped off the end of what stands last. -/
theorem rdropWhile_append_kept {α : Type} {p : α → Bool} (front : List α) {back : List α}
    (h : back.rdropWhile p ≠ []) : (front ++ back).rdropWhile p = front ++ back.rdropWhile p := by
  have hkept : (List.dropWhile p back.reverse).isEmpty = false := by
    rw [List.isEmpty_eq_false_iff]
    simpa [List.rdropWhile] using h
  rw [List.rdropWhile, List.reverse_append, List.dropWhile_append, hkept]
  simp [List.rdropWhile]

theorem rdropWhile_append_gone {α : Type} {p : α → Bool} (front : List α) {back : List α} (h : ∀ c ∈ back, p c = true) :
    (front ++ back).rdropWhile p = front.rdropWhile p := by
  have hreverse : ∀ c ∈ back.reverse, p c = true := fun c hc => h c (List.mem_reverse.mp hc)
  rw [List.rdropWhile, List.reverse_append, List.dropWhile_append_of_pos hreverse, List.rdropWhile]

theorem normalizeHeader_bearer {secret : JsString} (h : secret.rdropWhile isHttpSpace ≠ []) :
    normalizeHeader (bearer secret) = bearer (secret.rdropWhile isHttpSpace) := by
  rw [normalizeHeader, dropWhile_bearer, bearer, rdropWhile_append_kept _ h, bearer]

theorem stripBearer_bearer (secret : JsString) : stripBearer (bearer secret) = secret.dropWhile isJsSpace := by
  have htake : ((bearer secret).take 6).map foldCase = js "bearer" := by
    rw [bearer_eq]
    rfl
  have hdrop : (bearer secret).drop 6 = 0x20 :: secret := by rw [bearer_eq]; rfl
  rw [stripBearer, hdrop, if_pos ⟨htake, rfl⟩, List.dropWhile_cons_of_pos (by decide)]

theorem dropWhile_eq_self_iff_head {α : Type} {p : α → Bool} {l : List α} :
    l.dropWhile p = l ↔ ∀ c ∈ l.head?, p c = false := by
  cases l with
  | nil => simp
  | cons c l =>
    rw [List.dropWhile_eq_self_iff]
    simp

theorem rdropWhile_eq_self_iff_last {α : Type} {p : α → Bool} {l : List α} :
    l.rdropWhile p = l ↔ ∀ c ∈ l.getLast?, p c = false := by
  rw [List.rdropWhile_eq_self_iff]
  cases l using List.reverseRecOn with
  | nil => simp
  | append_singleton l c => simp

/-- A secret arrives as itself if and only if it survives both ends. -/
theorem arrives_iff {secret : JsString} (hne : secret ≠ []) : arrived secret = some secret ↔ Sendable secret := by
  have hall : (bearer secret).all isFieldUnit = secret.all isFieldUnit := by
    rw [bearer_eq]
    simp [show isFieldUnit 0x42 = true by decide, show isFieldUnit 0x65 = true by decide,
      show isFieldUnit 0x61 = true by decide, show isFieldUnit 0x72 = true by decide,
      show isFieldUnit 0x20 = true by decide]
  unfold Sendable
  rw [← dropWhile_eq_self_iff_head, ← rdropWhile_eq_self_iff_last]
  by_cases hrest : secret.rdropWhile isHttpSpace = []
  · -- nothing but white space: the word alone arrives
    refine ⟨fun h => ?_, fun h => absurd (h.2.2.symm.trans hrest) hne⟩
    have hspaces : ∀ c ∈ 0x20 :: secret, isHttpSpace c = true :=
      List.forall_mem_cons.mpr ⟨rfl, List.rdropWhile_eq_nil_iff.mp hrest⟩
    have hword : normalizeHeader (bearer secret) = js "Bearer" := by
      rw [normalizeHeader, dropWhile_bearer]
      exact rdropWhile_append_gone (js "Bearer") hspaces
    have harrived : arrived secret = some (js "Bearer") := by
      rw [arrived, sendHeader, hword]
      decide
    rw [harrived] at h
    rw [← Option.some.inj h] at hrest
    exact absurd hrest (by decide)
  · have hnormal := normalizeHeader_bearer hrest
    unfold arrived sendHeader
    rw [hnormal]
    constructor
    · intro h
      obtain ⟨v, hv, hstrip⟩ := Option.map_eq_some_iff.mp h
      obtain ⟨hfield, hsome⟩ := Option.ite_none_right_eq_some.mp hv
      obtain rfl := Option.some.inj hsome
      rw [stripBearer_bearer] at hstrip
      have hprefix := List.rdropWhile_prefix isHttpSpace (l := secret)
      have hshort := List.length_dropWhile_le isJsSpace (secret.rdropWhile isHttpSpace)
      rw [hstrip] at hshort
      have hlast : secret.rdropWhile isHttpSpace = secret :=
        hprefix.eq_of_length (le_antisymm hprefix.length_le hshort)
      rw [hlast] at hstrip hfield
      rw [hall] at hfield
      exact ⟨List.all_eq_true.mp hfield, hstrip, hlast⟩
    · rintro ⟨hfield, hhead, hlast⟩
      rw [hlast, hall, List.all_eq_true.mpr hfield, if_pos rfl, Option.map_some, stripBearer_bearer, hhead]

end ZcashFaucet.Lib
