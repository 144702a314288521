/-
ZcashFaucet.Zcash.TipRate — the block rate of `zcash/externalTip.ts`: the
anchor every reference carries, the rate taken over it, and the tolerance
published from the rate.

A poll brings an answer of each source or none. An answer replaces the
source's entry, and `rateAnchor` says which earlier reading its rate is
taken from. So the distance the rate is taken over is settled at the
answer (`wide_answered_iff`), from the entry before it, and a run of polls
is as good as its answers (`wide_run_iff`).

What is published pools the sources that are fresh and hides a rate no
chain has. A reading that does not outrun the chain is never hidden
(`one_le_observed`), which makes the condition on the answers exact.
-/
import Mathlib.Algebra.Order.BigOperators.Group.List
import ZcashFaucet.Lib.JsMap
import ZcashFaucet.Zcash.TipReferences

namespace ZcashFaucet.Zcash

open Lib

/-! ## Anchors -/

/-- RATE_BASELINE_MS. -/
def rateBaselineMs : ℚ := 5 * 60000

/-- MIN_PLAUSIBLE_SECONDS_PER_BLOCK. -/
def minPlausibleSecondsPerBlock : ℚ := 1

/-- `prevHeight` and `prevAt`, which are set together. -/
structure RateAnchor where
  prevHeight : ClaimedHeight
  prevAt : ℚ
  deriving DecidableEq

/-- An entry of `__faucetTipSources`, with its anchor. -/
structure RatedSource extends TipSource where
  anchor : Option RateAnchor
  deriving DecidableEq

abbrev RatedSources := JsMap ReferenceName RatedSource

def RatedSources.toTipSources (s : RatedSources) : TipSources where
  entries := s.entries.map fun e => (e.1, e.2.toTipSource)
  nodup := by
    rw [List.map_map]
    exact s.nodup

def rateAnchor (was : Option RatedSource) (height : ClaimedHeight) (now : ℚ) : Option RateAnchor :=
  match was with
  | none => none
  | some was =>
      let advanced := if was.height ≠ height then some ⟨was.height, was.fetchedAt⟩ else was.anchor
      match was.anchor with
      | some held => if now - held.prevAt < rateBaselineMs then some held else advanced
      | none => advanced

/-! ## The rate -/

/-- `height - prevHeight`. Taken from an infinity it is `NaN`, or below
every number. -/
def heightDifference (height prevHeight : ClaimedHeight) : Option ClaimedHeight :=
  match prevHeight with
  | ⊤ => none
  | (p : ℚ) => some (height.map (· - p))

/-- The blocks and the seconds a source adds to the rate. -/
def rateSample (v : RatedSource) : Option (ClaimedHeight × ℚ) :=
  match v.anchor with
  | none => none
  | some anchor =>
      match heightDifference v.height anchor.prevHeight with
      | none => none
      | some b =>
          let sec := (v.fetchedAt - anchor.prevAt) / 1000
          if 0 < b ∧ 0 < sec then some (b, sec) else none

/-- `seconds / blocks`. -/
def secondsEach (seconds : ℚ) : ClaimedHeight → ℚ
  | ⊤ => 0
  | (b : ℚ) => seconds / b

def observedSecondsPerBlock (sources : List RatedSource) : Option ℚ :=
  let samples := sources.filterMap rateSample
  let blocks := (samples.map Prod.fst).sum
  let seconds := (samples.map Prod.snd).sum
  if 0 < blocks then some (secondsEach seconds blocks) else none

structure RateConfig where
  /-- AGREE_BLOCKS. -/
  agreeBlocks : ℚ
  /-- AGREE_SECONDS. -/
  agreeSeconds : ℚ

/-- The fields of `TipReferences` that the rate decides. The inner `none`
of a spread is `NaN`, between two infinities. -/
structure TipRate where
  spreadBlocks : Option (Option ClaimedHeight)
  corroborated : Option Bool
  spreadSeconds : Option (Option ClaimedHeight)
  secondsPerBlock : Option ℚ
  agreeBlocks : ℚ

/-- `Math.max(...heights) - Math.min(...heights)`. -/
def spreadOf : List ClaimedHeight → Option (Option ClaimedHeight)
  | a :: b :: rest =>
      some (heightDifference ((b :: rest).foldl max a) ((b :: rest).foldl min a))
  | _ => none

/-- `NaN` is within no bound. -/
def withinBound (spread : Option ClaimedHeight) (bound : ℚ) : Bool :=
  match spread with
  | none => false
  | some spread => decide (spread ≤ bound)

/-- `Math.round(spread * secondsPerBlock)`. -/
def spreadInSeconds (secondsPerBlock : ℚ) (spread : ClaimedHeight) : ClaimedHeight :=
  spread.map fun blocks => (⌊blocks * secondsPerBlock + 1 / 2⌋ : ℚ)

/-- The entries the rate is taken over: the names that are fresh. -/
def rateSources (now : ℚ) (s : RatedSources) : List (ReferenceName × RatedSource) :=
  s.entries.filter fun e => ((s.toTipSources.fresh now).map Prod.fst).contains e.1

/-- `getTipReferences`, as far as the rate goes. -/
def tipRate (cfg : RateConfig) (now : ℚ) (s : RatedSources) : TipRate :=
  let spreadBlocks := spreadOf ((s.toTipSources.fresh now).map fun e => e.2.height)
  let rawRate := observedSecondsPerBlock ((rateSources now s).map Prod.snd)
  let secondsPerBlock := match rawRate with
    | none => none
    | some rate => if rate < minPlausibleSecondsPerBlock then none else some (⌊rate * 100 + 1 / 2⌋ / 100)
  let spreadSeconds := match spreadBlocks, secondsPerBlock with
    | some spread, some rate => some (spread.map (spreadInSeconds rate))
    | _, _ => none
  { spreadBlocks := spreadBlocks
    corroborated := match spreadBlocks with
      | none => none
      | some spread => some (match spreadSeconds with
          | some seconds => withinBound seconds cfg.agreeSeconds
          | none => withinBound spread cfg.agreeBlocks)
    spreadSeconds := spreadSeconds
    secondsPerBlock := secondsPerBlock
    agreeBlocks := match secondsPerBlock with
      | none => cfg.agreeBlocks
      | some rate => if rate ≤ 0 then cfg.agreeBlocks else ⌊cfg.agreeSeconds / rate + 1 / 2⌋ }

/-! ## Polls -/

/-- What `fetchBothReferencesWithin` brings back. -/
structure TipAnswers where
  hosh : Option ClaimedHeight
  direct : Option (ClaimedHeight × String)

def TipAnswers.height (both : TipAnswers) : ReferenceName → Option ClaimedHeight
  | .hosh => both.hosh
  | .lightwalletd => both.direct.map Prod.fst

def TipAnswers.host (both : TipAnswers) : ReferenceName → Option String
  | .hosh => none
  | .lightwalletd => both.direct.map Prod.snd

/-- The entry an answer makes. -/
def answered (was : Option RatedSource) (height : ClaimedHeight) (host : Option String) (now : ℚ) :
    RatedSource :=
  ⟨⟨height, now, host⟩, rateAnchor was height now⟩

/-- What `refresh` does with the answers to the references. -/
def recordAnswers (now : ℚ) (both : TipAnswers) (s : RatedSources) : RatedSources :=
  let s := match both.hosh with
    | none => s
    | some height => s.set .hosh (answered (s.get? .hosh) height none now)
  match both.direct with
  | none => s
  | some (height, host) => s.set .lightwalletd (answered (s.get? .lightwalletd) height (some host) now)

structure TipPoll where
  now : ℚ
  answers : TipAnswers

/-- The references after a process has made these polls. -/
def sourcesAfter (polls : List TipPoll) : RatedSources :=
  polls.foldl (fun s p => recordAnswers p.now p.answers s) JsMap.empty

theorem get?_recordAnswers (now : ℚ) (both : TipAnswers) (s : RatedSources) (name : ReferenceName) :
    (recordAnswers now both s).get? name =
      match both.height name with
      | none => s.get? name
      | some height => some (answered (s.get? name) height (both.host name) now) := by
  obtain ⟨hosh, direct⟩ := both
  cases name with
  | hosh =>
    cases hosh <;> rcases direct with _ | ⟨height, host⟩ <;>
      simp [recordAnswers, TipAnswers.height, TipAnswers.host, JsMap.get?_set]
  | lightwalletd =>
    cases hosh <;> rcases direct with _ | ⟨height, host⟩ <;>
      simp [recordAnswers, TipAnswers.height, TipAnswers.host, JsMap.get?_set]

theorem sourcesAfter_concat (polls : List TipPoll) (p : TipPoll) :
    sourcesAfter (polls ++ [p]) = recordAnswers p.now p.answers (sourcesAfter polls) := by
  rw [sourcesAfter, List.foldl_append]
  rfl

/-! ## The distance a rate is taken over -/

/-- A reading later and higher than the anchor: `b > 0 && sec > 0`. -/
def RatedSource.Rises (v : RatedSource) (anchor : RateAnchor) : Prop :=
  anchor.prevHeight < v.height ∧ anchor.prevAt < v.fetchedAt

/-- A rate taken from the source is taken over RATE_BASELINE_MS. -/
def RatedSource.Wide (v : RatedSource) : Prop :=
  ∀ anchor, v.anchor = some anchor → v.Rises anchor → rateBaselineMs ≤ v.fetchedAt - anchor.prevAt

/-- The answer keeps the distance: it is not above an anchor that is kept
for being young, and comes RATE_BASELINE_MS after a reading that becomes
the anchor, if it is above that. -/
def KeepsBaseline (was : RatedSource) (height : ClaimedHeight) (now : ℚ) : Prop :=
  (∀ anchor, was.anchor = some anchor → now - anchor.prevAt < rateBaselineMs →
      ¬ (anchor.prevHeight < height ∧ anchor.prevAt < now)) ∧
    ((∀ anchor, was.anchor = some anchor → rateBaselineMs ≤ now - anchor.prevAt) →
      was.height < height → was.fetchedAt < now → rateBaselineMs ≤ now - was.fetchedAt)

theorem heightDifference_coe (height p : ℚ) :
    heightDifference height p = some ((height - p : ℚ) : ClaimedHeight) := rfl

theorem heightDifference_pos {height prevHeight : ClaimedHeight} :
    (∃ b, heightDifference height prevHeight = some b ∧ 0 < b) ↔ prevHeight < height := by
  cases prevHeight using WithTop.recTopCoe with
  | top => simp [heightDifference]
  | coe p =>
    cases height using WithTop.recTopCoe with
    | top => exact ⟨fun _ => WithTop.coe_lt_top p, fun _ => ⟨⊤, rfl, WithTop.coe_lt_top 0⟩⟩
    | coe h =>
      rw [heightDifference_coe, WithTop.coe_lt_coe, ← sub_pos]
      constructor
      · rintro ⟨b, hb, hpos⟩
        cases hb
        exact WithTop.coe_lt_coe.mp hpos
      · intro h
        exact ⟨_, rfl, WithTop.coe_lt_coe.mpr h⟩

/-- What a source adds, where it adds something. -/
theorem rateSample_eq_some {v : RatedSource} {x : ClaimedHeight × ℚ} :
    rateSample v = some x ↔ ∃ anchor, v.anchor = some anchor ∧ v.Rises anchor ∧
      heightDifference v.height anchor.prevHeight = some x.1 ∧
      x.2 = (v.fetchedAt - anchor.prevAt) / 1000 := by
  obtain ⟨blocks, seconds⟩ := x
  have hsec (at_ : ℚ) : 0 < (v.fetchedAt - at_) / 1000 ↔ at_ < v.fetchedAt := by
    rw [lt_div_iff₀ (by norm_num), zero_mul, sub_pos]
  constructor
  · intro h
    unfold rateSample at h
    split at h
    · cases h
    · rename_i anchor hanchor
      split at h
      · cases h
      · rename_i b hb
        dsimp only at h
        split at h
        · rename_i hpos
          cases h
          exact ⟨anchor, hanchor, ⟨heightDifference_pos.mp ⟨_, hb, hpos.1⟩, (hsec _).mp hpos.2⟩, hb, rfl⟩
        · cases h
  · rintro ⟨anchor, hanchor, hrises, hb, rfl⟩
    obtain ⟨b, hb', hpos⟩ := heightDifference_pos.mpr hrises.1
    rw [hb] at hb'
    cases hb'
    simp only [rateSample, hanchor, hb]
    rw [if_pos ⟨hpos, (hsec _).mpr hrises.2⟩]

theorem rateSample_isSome_iff {v : RatedSource} :
    (rateSample v).isSome ↔ ∃ anchor, v.anchor = some anchor ∧ v.Rises anchor := by
  rw [Option.isSome_iff_exists]
  constructor
  · rintro ⟨x, hx⟩
    obtain ⟨anchor, hanchor, hrises, -⟩ := rateSample_eq_some.mp hx
    exact ⟨anchor, hanchor, hrises⟩
  · rintro ⟨anchor, hanchor, hrises⟩
    obtain ⟨b, hb, -⟩ := heightDifference_pos.mpr hrises.1
    exact ⟨(b, _), rateSample_eq_some.mpr ⟨anchor, hanchor, hrises, hb, rfl⟩⟩

/-- A source's first answer has no rate. -/
theorem wide_first (height : ClaimedHeight) (host : Option String) (now : ℚ) :
    (answered none height host now).Wide := by
  intro anchor h
  cases h

section

variable {was : RatedSource} {height : ClaimedHeight} {now : ℚ}

theorem rateAnchor_young {held : RateAnchor} (hheld : was.anchor = some held)
    (hyoung : now - held.prevAt < rateBaselineMs) : rateAnchor (some was) height now = some held := by
  simp [rateAnchor, hheld, hyoung]

/-- Without a young anchor, the last reading becomes the anchor, unless it
is repeated. -/
theorem rateAnchor_old (hold : ∀ held, was.anchor = some held → rateBaselineMs ≤ now - held.prevAt) :
    rateAnchor (some was) height now =
      if was.height ≠ height then some ⟨was.height, was.fetchedAt⟩ else was.anchor := by
  cases hanchor : was.anchor with
  | none => simp [rateAnchor, hanchor]
  | some held => simp [rateAnchor, hanchor, not_lt.mpr (hold held hanchor)]

/-- An answer's rate is taken over RATE_BASELINE_MS exactly when the
answer keeps the distance. -/
theorem wide_answered_iff (host : Option String) :
    (answered (some was) height host now).Wide ↔ KeepsBaseline was height now := by
  by_cases hyoung : ∃ held, was.anchor = some held ∧ now - held.prevAt < rateBaselineMs
  · obtain ⟨held, hheld, hyoung⟩ := hyoung
    have hanchor : (answered (some was) height host now).anchor = some held := rateAnchor_young hheld hyoung
    constructor
    · intro hwide
      constructor
      · intro anchor ha _ hrises
        obtain rfl : held = anchor := by simpa [hheld] using ha
        exact absurd (hwide held hanchor hrises) (not_le.mpr hyoung)
      · intro hold
        exact absurd (hold held hheld) (not_le.mpr hyoung)
    · intro hkeeps anchor ha hrises
      obtain rfl : held = anchor := by simpa [hanchor] using ha
      exact absurd hrises (hkeeps.1 held hheld hyoung)
  · have hold : ∀ held, was.anchor = some held → rateBaselineMs ≤ now - held.prevAt :=
      fun held hheld => not_lt.mp fun h => hyoung ⟨held, hheld, h⟩
    have hanchor : (answered (some was) height host now).anchor = _ := rateAnchor_old hold
    have hfirst : ∀ anchor, was.anchor = some anchor → now - anchor.prevAt < rateBaselineMs →
        ¬ (anchor.prevHeight < height ∧ anchor.prevAt < now) :=
      fun anchor ha hlt => absurd hlt (not_lt.mpr (hold anchor ha))
    by_cases hrepeated : was.height = height
    · -- the old anchor stays, and is old
      rw [if_neg (not_not.mpr hrepeated)] at hanchor
      constructor
      · exact fun _ => ⟨hfirst, fun _ hlt => absurd (hrepeated ▸ hlt) (lt_irrefl _)⟩
      · exact fun _ anchor ha _ => hold anchor (hanchor ▸ ha)
    · rw [if_pos hrepeated] at hanchor
      constructor
      · intro hwide
        exact ⟨hfirst, fun _ hheight hat => hwide _ hanchor ⟨hheight, hat⟩⟩
      · intro hkeeps anchor ha hrises
        obtain rfl : ⟨was.height, was.fetchedAt⟩ = anchor := by simpa [hanchor] using ha
        exact hkeeps.2 hold hrises.1 hrises.2

end

/-! ## Runs of polls -/

/-- Every answer of the run keeps the distance, from the entry before it. -/
def WellSpaced (polls : List TipPoll) : Prop :=
  ∀ front p, front ++ [p] <+: polls → ∀ name was height, (sourcesAfter front).get? name = some was →
    p.answers.height name = some height → KeepsBaseline was height p.now

/-- Every source of the references is wide. -/
def AllWide (s : RatedSources) : Prop := ∀ name v, s.get? name = some v → v.Wide

theorem WellSpaced.front {front polls : List TipPoll} (h : WellSpaced polls) (hfront : front <+: polls) :
    WellSpaced front :=
  fun before p hbefore => h before p (hbefore.trans hfront)

/-- One poll. -/
theorem AllWide.recordAnswers {s : RatedSources} (hs : AllWide s) (p : TipPoll)
    (hkeeps : ∀ name was height, s.get? name = some was → p.answers.height name = some height →
      KeepsBaseline was height p.now) :
    AllWide (recordAnswers p.now p.answers s) := by
  intro name v hv
  rw [get?_recordAnswers] at hv
  cases hheight : p.answers.height name with
  | none =>
    rw [hheight] at hv
    exact hs name v hv
  | some height =>
    rw [hheight] at hv
    cases hv
    cases hwas : s.get? name with
    | none => exact wide_first height _ p.now
    | some was => exact (wide_answered_iff _).mpr (hkeeps name was height hwas hheight)

/-- A run of polls that keep the distance. -/
theorem allWide_of_wellSpaced {polls : List TipPoll} (h : WellSpaced polls) : AllWide (sourcesAfter polls) := by
  induction polls using List.reverseRecOn with
  | nil =>
    intro name v hv
    cases hv
  | append_singleton polls p ih =>
    rw [sourcesAfter_concat]
    exact (ih (h.front (List.prefix_append _ _))).recordAnswers p (h polls p (List.prefix_refl _))

/-! ## What is published -/

/-- A rate that is published at `now` is taken over RATE_BASELINE_MS, at
every source it is taken from. -/
def PublishesWide (cfg : RateConfig) (now : ℚ) (s : RatedSources) : Prop :=
  ∀ rate, (tipRate cfg now s).secondsPerBlock = some rate →
    ∀ e ∈ rateSources now s, (rateSample e.2).isSome →
      ∀ anchor, e.2.anchor = some anchor → rateBaselineMs ≤ e.2.fetchedAt - anchor.prevAt

theorem get?_of_mem {s : RatedSources} {e : ReferenceName × RatedSource} (he : e ∈ s.entries) :
    s.get? e.1 = some e.2 := lookup_of_mem s.nodup he

theorem mem_of_get? {s : RatedSources} {name : ReferenceName} {v : RatedSource}
    (h : s.get? name = some v) : (name, v) ∈ s.entries := by
  obtain ⟨l₁, l₂, hentries, -⟩ := List.lookup_eq_some_iff.mp h
  rw [hentries]
  simp

/-- A source answered less than REFERENCE_MAX_AGE_MS ago gives the rate. -/
theorem mem_rateSources {s : RatedSources} {now : ℚ} {name : ReferenceName} {v : RatedSource}
    (h : s.get? name = some v) (hfresh : now - v.fetchedAt ≤ referenceMaxAgeMs) :
    (name, v) ∈ rateSources now s := by
  have hmem : (name, tipReference now v.toTipSource) ∈ s.toTipSources.fresh now := by
    rw [TipSources.fresh, freshEntries, List.mem_filter]
    refine ⟨?_, by simpa [tipReference] using hfresh⟩
    exact List.mem_map_of_mem (List.mem_map_of_mem (mem_of_get? h))
  rw [rateSources, List.mem_filter]
  exact ⟨mem_of_get? h, by simpa using ⟨_, hmem⟩⟩

theorem publishesWide_of_allWide (cfg : RateConfig) (now : ℚ) {s : RatedSources} (h : AllWide s) :
    PublishesWide cfg now s := by
  intro rate _ e he hsample anchor hanchor
  obtain ⟨anchor', hanchor', hrises⟩ := rateSample_isSome_iff.mp hsample
  rw [hanchor] at hanchor'
  cases hanchor'
  exact h e.1 e.2 (get?_of_mem (List.mem_of_mem_filter he)) anchor hanchor hrises

/-! ## Sources that do not outrun the chain -/

/-- The readings of one source. -/
def readings (name : ReferenceName) (polls : List TipPoll) : List (ClaimedHeight × ℚ) :=
  polls.filterMap fun p => (p.answers.height name).map fun height => (height, p.now)

/-- No source claims more than a block a second, from any of its readings
to a later one. -/
def AtChainPace (polls : List TipPoll) : Prop :=
  ∀ name, (readings name polls).Pairwise fun a b => b.1 ≤ a.1 + (((b.2 - a.2) / 1000 : ℚ) : ClaimedHeight)

theorem readings_concat (name : ReferenceName) (polls : List TipPoll) (p : TipPoll) :
    readings name (polls ++ [p]) =
      readings name polls ++ ((p.answers.height name).map fun height => (height, p.now)).toList := by
  rw [readings, List.filterMap_append, ← readings]
  cases hheight : p.answers.height name <;> simp [hheight]

theorem rateAnchor_cases {was : RatedSource} {height : ClaimedHeight} {now : ℚ} {anchor : RateAnchor}
    (h : rateAnchor (some was) height now = some anchor) :
    was.anchor = some anchor ∨ anchor = ⟨was.height, was.fetchedAt⟩ := by
  simp only [rateAnchor] at h
  split at h
  · rename_i held hheld
    split at h
    · cases h
      exact Or.inl hheld
    · split at h
      · cases h
        exact Or.inr rfl
      · exact Or.inl h
  · split at h
    · cases h
      exact Or.inr rfl
    · exact Or.inl h

/-- An entry is the last reading of its source, and its anchor one before. -/
theorem readings_sourcesAfter (polls : List TipPoll) {name : ReferenceName} {v : RatedSource}
    (h : (sourcesAfter polls).get? name = some v) :
    ∃ earlier, readings name polls = earlier ++ [(v.height, v.fetchedAt)] ∧
      ∀ anchor, v.anchor = some anchor → (anchor.prevHeight, anchor.prevAt) ∈ earlier := by
  induction polls using List.reverseRecOn generalizing v with
  | nil => cases h
  | append_singleton polls p ih =>
    rw [sourcesAfter_concat, get?_recordAnswers] at h
    rw [readings_concat]
    cases hheight : p.answers.height name with
    | none =>
      rw [hheight] at h
      simpa using ih h
    | some height =>
      rw [hheight] at h
      cases h
      refine ⟨readings name polls, by simp [answered], ?_⟩
      intro anchor hanchor
      cases hwas : (sourcesAfter polls).get? name with
      | none =>
        rw [hwas] at hanchor
        cases hanchor
      | some was =>
        rw [hwas] at hanchor
        obtain ⟨earlier, hearlier, hanchors⟩ := ih hwas
        rw [hearlier]
        rcases rateAnchor_cases hanchor with hheld | rfl
        · exact List.mem_append_left _ (hanchors anchor hheld)
        · simp

/-- Sources that do not outrun the chain add no more blocks than seconds. -/
theorem sample_at_pace {polls : List TipPoll} (hpace : AtChainPace polls) {name : ReferenceName}
    {v : RatedSource} (h : (sourcesAfter polls).get? name = some v) {x : ClaimedHeight × ℚ}
    (hx : rateSample v = some x) : x.1 ≤ (x.2 : ClaimedHeight) := by
  obtain ⟨earlier, hreadings, hanchors⟩ := readings_sourcesAfter polls h
  obtain ⟨anchor, hanchor, -, hblocks, hseconds⟩ := rateSample_eq_some.mp hx
  have hpairs := hpace name
  rw [hreadings, List.pairwise_append] at hpairs
  have hle := hpairs.2.2 _ (hanchors anchor hanchor) _ (List.mem_singleton_self _)
  rw [hseconds]
  generalize anchor.prevHeight = prevHeight at hle hblocks
  generalize v.height = height at hle hblocks
  cases prevHeight using WithTop.recTopCoe with
  | top => cases hblocks
  | coe p =>
    cases height using WithTop.recTopCoe with
    | top => exact absurd hle (not_le.mpr (WithTop.coe_lt_top _))
    | coe h =>
      rw [heightDifference_coe] at hblocks
      rw [← Option.some.inj hblocks]
      have hle : h ≤ p + (v.fetchedAt - anchor.prevAt) / 1000 := WithTop.coe_le_coe.mp hle
      exact WithTop.coe_le_coe.mpr (sub_le_iff_le_add'.mpr hle)

theorem sum_blocks_le {samples : List (ClaimedHeight × ℚ)} (h : ∀ x ∈ samples, x.1 ≤ (x.2 : ClaimedHeight)) :
    (samples.map Prod.fst).sum ≤ ((samples.map Prod.snd).sum : ClaimedHeight) := by
  induction samples with
  | nil => exact le_rfl
  | cons x samples ih =>
    rw [List.map_cons, List.map_cons, List.sum_cons, List.sum_cons, WithTop.coe_add]
    exact add_le_add (h x List.mem_cons_self) (ih fun y hy => h y (List.mem_cons_of_mem _ hy))

theorem sum_blocks_pos {samples : List (ClaimedHeight × ℚ)} (h : ∀ x ∈ samples, 0 < x.1)
    (hne : samples ≠ []) : 0 < (samples.map Prod.fst).sum := by
  apply List.sum_pos
  · intro b hb
    obtain ⟨x, hx, rfl⟩ := List.mem_map.mp hb
    exact h x hx
  · simpa using hne

theorem rateSample_pos {v : RatedSource} {x : ClaimedHeight × ℚ} (h : rateSample v = some x) : 0 < x.1 := by
  obtain ⟨anchor, -, hrises, hblocks, -⟩ := rateSample_eq_some.mp h
  obtain ⟨b, hb, hpos⟩ := heightDifference_pos.mpr hrises.1
  rw [hblocks] at hb
  cases hb
  exact hpos

/-- A sum of rates below a block a second is published. -/
theorem one_le_observed {sources : List RatedSource}
    (hpace : ∀ v ∈ sources, ∀ x, rateSample v = some x → x.1 ≤ (x.2 : ClaimedHeight))
    (hsome : ∃ v ∈ sources, (rateSample v).isSome) :
    ∃ rate, observedSecondsPerBlock sources = some rate ∧ 1 ≤ rate := by
  have hall : ∀ x ∈ sources.filterMap rateSample, x.1 ≤ (x.2 : ClaimedHeight) := by
    intro x hx
    obtain ⟨v, hv, hvx⟩ := List.mem_filterMap.mp hx
    exact hpace v hv x hvx
  have hle := sum_blocks_le hall
  have hpos : 0 < ((sources.filterMap rateSample).map Prod.fst).sum := by
    apply sum_blocks_pos
    · intro x hx
      obtain ⟨v, -, hvx⟩ := List.mem_filterMap.mp hx
      exact rateSample_pos hvx
    · obtain ⟨v, hv, hvsome⟩ := hsome
      obtain ⟨x, hx⟩ := Option.isSome_iff_exists.mp hvsome
      exact List.ne_nil_of_mem (List.mem_filterMap.mpr ⟨v, hv, hx⟩)
  refine ⟨_, if_pos hpos, ?_⟩
  generalize ((sources.filterMap rateSample).map Prod.fst).sum = blocks at hle hpos
  cases blocks using WithTop.recTopCoe with
  | top => exact absurd hle (not_le.mpr (WithTop.coe_lt_top _))
  | coe b => exact (one_le_div (WithTop.coe_lt_coe.mp hpos)).mpr (WithTop.coe_le_coe.mp hle)

theorem AtChainPace.front {front polls : List TipPoll} (h : AtChainPace polls) (hfront : front <+: polls) :
    AtChainPace front :=
  fun name => (h name).sublist (hfront.sublist.filterMap _)

/-- A source that adds to the rate when it is answered is one the
published rate is taken from. -/
theorem published_of_sample (cfg : RateConfig) {polls : List TipPoll} (hpace : AtChainPace polls)
    {name : ReferenceName} {v : RatedSource} (h : (sourcesAfter polls).get? name = some v)
    (hsample : (rateSample v).isSome) :
    ∃ rate, (tipRate cfg v.fetchedAt (sourcesAfter polls)).secondsPerBlock = some rate := by
  have hmem : (name, v) ∈ rateSources v.fetchedAt (sourcesAfter polls) := by
    apply mem_rateSources h
    rw [sub_self, referenceMaxAgeMs]
    norm_num
  have hall : ∀ w ∈ (rateSources v.fetchedAt (sourcesAfter polls)).map Prod.snd, ∀ x,
      rateSample w = some x → x.1 ≤ (x.2 : ClaimedHeight) := by
    intro w hw x hx
    obtain ⟨e, he, rfl⟩ := List.mem_map.mp hw
    exact sample_at_pace hpace (get?_of_mem (List.mem_of_mem_filter he)) hx
  obtain ⟨rate, hrate, hone⟩ := one_le_observed hall ⟨v, List.mem_map_of_mem hmem, hsample⟩
  refine ⟨⌊rate * 100 + 1 / 2⌋ / 100, ?_⟩
  simp [tipRate, hrate, minPlausibleSecondsPerBlock, not_lt.mpr hone]

/-- **How wide the rates are.** Where every answer keeps the distance, no
rate is published over less than RATE_BASELINE_MS. Where no source outruns
the chain, nothing less will do. -/
theorem rates_wide_iff (cfg : RateConfig) (polls : List TipPoll) :
    (WellSpaced polls → ∀ front, front <+: polls → ∀ now, PublishesWide cfg now (sourcesAfter front)) ∧
      (AtChainPace polls →
        (∀ front, front <+: polls → ∀ now, PublishesWide cfg now (sourcesAfter front)) → WellSpaced polls) := by
  constructor
  · intro h front hfront now
    exact publishesWide_of_allWide cfg now (allWide_of_wellSpaced (h.front hfront))
  · intro hpace hwide front p hfront name was height hwas hheight
    have hget : (sourcesAfter (front ++ [p])).get? name =
        some (answered (some was) height (p.answers.host name) p.now) := by
      rw [sourcesAfter_concat, get?_recordAnswers, hheight, hwas]
    rw [← wide_answered_iff (p.answers.host name)]
    intro anchor hanchor hrises
    have hsample := rateSample_isSome_iff.mpr ⟨anchor, hanchor, hrises⟩
    obtain ⟨rate, hrate⟩ := published_of_sample cfg (hpace.front hfront) hget hsample
    refine hwide _ hfront p.now rate hrate (name, _) (mem_rateSources hget ?_) hsample anchor hanchor
    simp [answered, referenceMaxAgeMs]

/-- Polls RATE_BASELINE_MS apart keep the distance. -/
theorem wellSpaced_of_apart {polls : List TipPoll}
    (h : polls.Pairwise fun p q => rateBaselineMs ≤ q.now - p.now) : WellSpaced polls := by
  intro front p hfront name was height hwas _
  have hapart : ∀ x ∈ readings name front, rateBaselineMs ≤ p.now - x.2 := by
    intro x hx
    obtain ⟨q, hq, hqx⟩ := List.mem_filterMap.mp hx
    obtain ⟨_, -, rfl⟩ := Option.map_eq_some_iff.mp hqx
    have hpairs := h.sublist hfront.sublist
    rw [List.pairwise_append] at hpairs
    exact hpairs.2.2 q hq p (List.mem_singleton_self p)
  obtain ⟨earlier, hreadings, hanchors⟩ := readings_sourcesAfter front hwas
  rw [hreadings] at hapart
  constructor
  · intro anchor hanchor hyoung
    exact absurd hyoung (not_lt.mpr (hapart _ (List.mem_append_left _ (hanchors anchor hanchor))))
  · intro _ _ _
    exact hapart (was.height, was.fetchedAt) (by simp)

/-- A poll every five minutes, of a chain with a block every 75 seconds. -/
def pollEvery5min (n : Nat) : TipPoll where
  now := 300000 * n
  answers := ⟨some ((4000000 + 4 * n : ℚ) : ClaimedHeight), none⟩

theorem rates_wide_every5min :
    WellSpaced ((List.range 4).map pollEvery5min) ∧
      ∀ now, PublishesWide ⟨20, 300⟩ now (sourcesAfter ((List.range 4).map pollEvery5min)) := by
  have hspaced : WellSpaced ((List.range 4).map pollEvery5min) := wellSpaced_of_apart (by decide +kernel)
  exact ⟨hspaced, (rates_wide_iff ⟨20, 300⟩ _).1 hspaced _ (List.prefix_refl _)⟩

/-- A poll every 30 seconds, of a chain with a block every 10. -/
def pollEvery30s (n : Nat) : TipPoll where
  now := 30000 * n
  answers := ⟨some ((4000000 + 3 * n : ℚ) : ClaimedHeight), none⟩

def firstPolls (n : Nat) : List TipPoll := (List.range n).map pollEvery30s

/-- The distance the rate of `name` is taken over. -/
def baselineOf (name : ReferenceName) (s : RatedSources) : Option ℚ :=
  (s.get? name).bind fun v => v.anchor.map fun anchor => v.fetchedAt - anchor.prevAt

/-- The second poll publishes a rate over 30 seconds, and so does the
eleventh, which finds the anchor five minutes old. -/
theorem rates_over_one_poll :
    ((tipRate ⟨20, 300⟩ 30000 (sourcesAfter (firstPolls 2))).secondsPerBlock = some 10 ∧
        baselineOf .hosh (sourcesAfter (firstPolls 2)) = some 30000) ∧
      ((tipRate ⟨20, 300⟩ 300000 (sourcesAfter (firstPolls 11))).secondsPerBlock = some 10 ∧
        baselineOf .hosh (sourcesAfter (firstPolls 11)) = some 30000) ∧
      ¬ ∀ front, front <+: firstPolls 11 → ∀ now, PublishesWide ⟨20, 300⟩ now (sourcesAfter front) := by
  have hrate : (tipRate ⟨20, 300⟩ 300000 (sourcesAfter (firstPolls 11))).secondsPerBlock = some 10 := by
    decide +kernel
  refine ⟨by decide +kernel, ⟨hrate, by decide +kernel⟩, ?_⟩
  intro hwide
  have hsource : (sourcesAfter (firstPolls 11)).get? .hosh =
      some ⟨⟨(4000030 : ℚ), 300000, none⟩, some ⟨(4000027 : ℚ), 270000⟩⟩ := by decide +kernel
  have hle := hwide _ (List.prefix_refl _) 300000 10 hrate _ (mem_rateSources hsource (by decide +kernel))
    (by decide +kernel) _ rfl
  exact absurd hle (by decide +kernel)

end ZcashFaucet.Zcash
