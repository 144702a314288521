/-
ZcashFaucet.Zcash.TipReferences — the network tip of `zcash/externalTip.ts`:
what the reference sources last said, and the one height a node is judged
against.

A source keeps its last answer and the time of it. Both fetches let only
heights above zero through, and a JSON numeral can be too large for a
number, so a height is a rational or an infinity. The spread, the rate and
the corroboration that `getTipReferences` publishes beside the choice are
read by no gate and left out.
-/
import Mathlib.Data.List.MinMax
import Mathlib.Data.List.Nodup
import Mathlib.Data.Rat.Floor
import Mathlib.Order.WithBot

namespace ZcashFaucet.Zcash

inductive ReferenceName
  | hosh
  | lightwalletd
  deriving DecidableEq, Repr

/-- A height some other party claims. -/
abbrev ClaimedHeight := WithTop ℚ

/-- An entry of `__faucetTipSources`. -/
structure TipSource where
  height : ClaimedHeight
  fetchedAt : ℚ
  host : Option String
  deriving DecidableEq

/-- `__faucetTipSources`: an object, so a name has one entry. -/
structure TipSources where
  entries : List (ReferenceName × TipSource)
  nodup : (entries.map Prod.fst).Nodup

/-- REFERENCE_MAX_AGE_MS. -/
def referenceMaxAgeMs : ℚ := 5 * 60000

structure TipReference where
  height : ClaimedHeight
  ageSeconds : Int
  stale : Bool
  host : Option String
  deriving DecidableEq

/-- What `getTipReferences` makes of one source. -/
def tipReference (now : ℚ) (v : TipSource) : TipReference where
  height := v.height
  ageSeconds := max 0 ⌊(now - v.fetchedAt) / 1000 + 1 / 2⌋
  stale := decide (now - v.fetchedAt > referenceMaxAgeMs)
  host := v.host

structure TipReferences where
  sources : List (ReferenceName × TipReference)
  used : Option ReferenceName
  usedHeight : Option ClaimedHeight
  hoshHeight : Option ClaimedHeight
  lightwalletdHeight : Option ClaimedHeight

/-- The entries of `sources` that are not stale. -/
def freshEntries (sources : List (ReferenceName × TipReference)) : List (ReferenceName × TipReference) :=
  sources.filter fun e => !e.2.stale

def TipSources.references (now : ℚ) (s : TipSources) : List (ReferenceName × TipReference) :=
  s.entries.map fun e => (e.1, tipReference now e.2)

/-- The references that are fresh at `now`. -/
def TipSources.fresh (now : ℚ) (s : TipSources) : List (ReferenceName × TipReference) :=
  freshEntries (s.references now)

/-- `getTipReferences`. The `reduce` over the fresh entries keeps the
earlier of two equal heights, as `argmax` does. -/
def getTipReferences (now : ℚ) (s : TipSources) : TipReferences :=
  let sources := s.references now
  let used := ((s.fresh now).argmax fun e => e.2.height).map Prod.fst
  { sources := sources
    used := used
    usedHeight := used.bind fun name => (sources.lookup name).map TipReference.height
    hoshHeight := (sources.lookup .hosh).map TipReference.height
    lightwalletdHeight := (sources.lookup .lightwalletd).map TipReference.height }

structure ReferenceTipReading where
  height : Option ClaimedHeight
  source : Option ReferenceName
  stale : Bool
  deriving DecidableEq

def referenceTipAt (now : ℚ) (s : TipSources) : ReferenceTipReading :=
  let refs := getTipReferences now s
  match refs.used with
  | some name => ⟨(refs.sources.lookup name).map TipReference.height, some name, false⟩
  | none => ⟨none, none, !refs.sources.isEmpty⟩

/-! ## The height that is used -/

/-- A name with one entry is looked up to that entry. -/
theorem lookup_of_mem {ν β : Type} [DecidableEq ν] {l : List (ν × β)} {k : ν} {b : β}
    (hnodup : (l.map Prod.fst).Nodup) (hmem : (k, b) ∈ l) : l.lookup k = some b := by
  obtain ⟨l₁, l₂, rfl⟩ := List.mem_iff_append.mp hmem
  rw [List.lookup_eq_some_iff]
  refine ⟨l₁, l₂, rfl, ?_⟩
  intro p hp
  simp only [List.map_append, List.map_cons, List.nodup_append] at hnodup
  have hne := hnodup.2.2 p.1 (List.mem_map_of_mem hp) k (by simp)
  simpa using Ne.symm hne

variable {now : ℚ} {s : TipSources}

theorem lookup_of_mem_fresh {e : ReferenceName × TipReference} (he : e ∈ s.fresh now) :
    (s.references now).lookup e.1 = some e.2 := by
  apply lookup_of_mem
  · have hnames : (s.references now).map Prod.fst = s.entries.map Prod.fst := by
      simp [TipSources.references]
    rw [hnames]
    exact s.nodup
  · exact (List.mem_filter.mp he).1

/-- The height a node is judged against is the highest fresh one. -/
theorem referenceTipAt_spec (now : ℚ) (s : TipSources) :
    match (referenceTipAt now s).height with
    | none => s.fresh now = []
    | some h => (∃ e ∈ s.fresh now, e.2.height = h) ∧ ∀ e ∈ s.fresh now, e.2.height ≤ h := by
  cases hmax : (s.fresh now).argmax fun e => e.2.height with
  | none =>
      have hnone : (referenceTipAt now s).height = none := by
        simp [referenceTipAt, getTipReferences, hmax]
      rw [hnone]
      exact List.argmax_eq_none.mp hmax
  | some m =>
      have hm : m ∈ s.fresh now := List.argmax_mem hmax
      have hsome : (referenceTipAt now s).height = some m.2.height := by
        simp [referenceTipAt, getTipReferences, hmax, lookup_of_mem_fresh hm]
      rw [hsome]
      refine ⟨⟨m, hm, rfl⟩, ?_⟩
      intro e he
      exact List.le_of_mem_argmax (f := fun e : ReferenceName × TipReference => e.2.height) he hmax

theorem le_of_height {h : ClaimedHeight} (hh : (referenceTipAt now s).height = some h)
    {e : ReferenceName × TipReference} (he : e ∈ s.fresh now) : e.2.height ≤ h := by
  have hspec := referenceTipAt_spec now s
  rw [hh] at hspec
  exact hspec.2 e he

/-- More fresh references never lower the height. -/
theorem height_mono {s' : TipSources} (hne : s.fresh now ≠ [])
    (hsub : ∀ e ∈ s.fresh now, e ∈ s'.fresh now) {h' : ClaimedHeight}
    (hh' : (referenceTipAt now s').height = some h') :
    ∃ h, (referenceTipAt now s).height = some h ∧ h ≤ h' := by
  have hspec := referenceTipAt_spec now s
  cases hh : (referenceTipAt now s).height with
  | none =>
      rw [hh] at hspec
      exact absurd hspec hne
  | some h =>
      rw [hh] at hspec
      obtain ⟨e, he, rfl⟩ := hspec.1
      exact ⟨e.2.height, rfl, le_of_height hh' (hsub e he)⟩

end ZcashFaucet.Zcash
