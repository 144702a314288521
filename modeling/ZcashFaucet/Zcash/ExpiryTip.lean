/-
ZcashFaucet.Zcash.ExpiryTip — the tip a transparent send stamps its expiry
height from: `zcash/expiryTip.ts`, and what comes of it in `RealSender`.

Every endpoint is asked and the highest height is taken. A transaction can
still be mined in a chain if and only if one of the endpoints that answered
was less than 40 blocks behind it (`stamped_canMine_iff`), whatever the others
said.

What an operator is told is a separate matter (`disagreement_none_iff`). It
does not say that the highest height is right.
-/
import Mathlib.Algebra.Order.Sub.WithTop
import Mathlib.Order.Lattice.Nat
import ZcashFaucet.Lib.ExpiringChain
import ZcashFaucet.Zcash.Gates
import ZcashFaucet.Zcash.TipWire
import ZcashFaucet.Zcash.TransparentTx

namespace ZcashFaucet.Zcash

open Lib

/-- What an endpoint said: a height that was too large a number is an
infinity. -/
structure EndpointTip where
  endpoint : JsString
  height : Option (WithTop ℕ)

structure ExpiryTip where
  height : Option (WithTop ℕ)
  readings : List EndpointTip
  answered : ℕ
  /-- `some none` is NaN. -/
  spread : Option (Option (WithTop ℕ))

/-- `askOne`, whose call ended with an error or with a reply. -/
def askOne (reply : Except JsString Buffer) (fuel : Nat) : Option (Option (WithTop ℕ)) :=
  match reply with
  | .error _ => some none
  | .ok bytes => heightFromBlockID bytes fuel

/-- A height that counts. -/
def usableHeight (r : EndpointTip) : Option (WithTop ℕ) := r.height.filter (0 < ·)

/-- `a - b` where `b` is not higher: the difference of two infinities is NaN. -/
def heightSpread (a b : WithTop ℕ) : Option (WithTop ℕ) := if a = ⊤ ∧ b = ⊤ then none else some (a - b)

def summarize (readings : List EndpointTip) : ExpiryTip :=
  let heights := readings.filterMap usableHeight
  { height := heights.max?
    readings := readings
    answered := heights.length
    spread := if 2 ≤ heights.length then
        heights.max?.bind fun highest => heights.min?.map fun lowest => heightSpread highest lowest
      else none }

/-! ## Notes and errors -/

variable (cfg : GateConfig)

def heightText (h : WithTop ℕ) : JsString := cfg.numberText (h.map (Nat.cast : ℕ → ℚ))

/-- `readings.filter(…).map(…).join(", ")` of the endpoints below `highest`. -/
def behindText (highest : WithTop ℕ) (readings : List EndpointTip) : JsString :=
  (js ", ").intercalate (readings.filterMap fun r =>
    (r.height.filter (· < highest)).map fun h => r.endpoint ++ js " at " ++ heightText cfg h)

/-- A spread that is worth a note: NaN is above no budget. -/
def spreadOver (spread : Option (Option (WithTop ℕ))) : Option (WithTop ℕ) :=
  spread.join.filter fun s => decide (cfg.shieldMaxLag.val < s.map (Nat.cast : ℕ → ℚ))

def disagreement (tip : ExpiryTip) : Option JsString :=
  if tip.answered = 0 then none
  else if tip.answered = 1 then
    let which := ((tip.readings.find? fun r => r.height.isSome).map EndpointTip.endpoint).getD (js "unknown")
    some (js "only " ++ which ++ js (" answered, so the expiry height rests on ONE source and a lag there " ++
      "would produce a born-expired transaction with nothing to contradict it (#190)"))
  else
    match spreadOver cfg tip.spread, tip.height with
    | some spread, some highest =>
        some (js "lightwalletd endpoints disagree by " ++ heightText cfg spread ++ js " blocks (budget " ++
          cfg.numberText cfg.shieldMaxLag.val ++ js ", expiry dies at " ++ cfg.numberText expiryDeltaBlocks ++
          js "); using " ++ heightText cfg highest ++ js " but " ++ behindText cfg highest tip.readings ++
          js " is behind")
    | _, _ => none

/-- `tipForExpiry`, with what every endpoint answered. -/
def tipForExpiry (readings : List EndpointTip) : Except JsString ExpiryTip :=
  let tip := summarize readings
  if tip.height.isNone then
    .error (js "No lightwalletd endpoint reported a tip, so a transaction's expiry height cannot be set safely (asked " ++
      cfg.numberText (readings.length : ℚ) ++ js ": " ++
      (js ", ").intercalate (readings.map EndpointTip.endpoint) ++ js ").")
  else .ok tip

/-! ## The highest height -/

variable {cfg} {readings : List EndpointTip}

/-- The heights that are considered are those above 0. -/
theorem mem_heights {h : WithTop ℕ} :
    h ∈ readings.filterMap usableHeight ↔ 0 < h ∧ ∃ r ∈ readings, r.height = some h := by
  simp only [List.mem_filterMap, usableHeight, Option.filter_eq_some_iff, decide_eq_true_eq]
  constructor
  · rintro ⟨r, hr, hheight, hpos⟩
    exact ⟨hpos, r, hr, hheight⟩
  · rintro ⟨hpos, r, hr, hheight⟩
    exact ⟨r, hr, hheight, hpos⟩

theorem summarize_height_iff {highest : WithTop ℕ} :
    (summarize readings).height = some highest ↔
      0 < highest ∧ (∃ r ∈ readings, r.height = some highest) ∧ ∀ r ∈ readings, ∀ h, r.height = some h → h ≤ highest := by
  rw [summarize, List.max?_eq_some_iff, mem_heights, and_assoc]
  refine and_congr_right fun hpos => and_congr_right fun _ => ⟨fun hall r hr h hheight => ?_, fun hall h hmem => ?_⟩
  · rcases eq_or_ne h 0 with rfl | hne
    · exact zero_le
    · exact hall h (mem_heights.mpr ⟨pos_of_ne_zero hne, r, hr, hheight⟩)
  · obtain ⟨-, r, hr, hheight⟩ := mem_heights.mp hmem
    exact hall r hr h hheight

theorem tipForExpiry_ok_iff {tip : ExpiryTip} :
    tipForExpiry cfg readings = .ok tip ↔ tip = summarize readings ∧ ∃ highest, tip.height = some highest := by
  unfold tipForExpiry
  dsimp only
  cases hheight : (summarize readings).height with
  | none =>
    refine ⟨nofun, ?_⟩
    rintro ⟨rfl, highest, hsome⟩
    rw [hheight] at hsome
    cases hsome
  | some highest =>
    constructor
    · rintro ⟨⟩
      exact ⟨rfl, highest, hheight⟩
    · rintro ⟨rfl, -⟩
      rfl

/-! ## What is stamped -/

theorem expiryHeight_of_plan {own : JsString} {req : RealRequest} {utxos : Except JsString (List Utxo)}
    {tip : ChainTip} {plan : TxPlan} (hplan : prepareTx own req utxos (.ok tip) = .ok plan) :
    plan.expiryHeight = tip.height + 40 := by
  unfold prepareTx at hplan
  split at hplan
  · cases hplan
  · split at hplan
    · cases hplan
    · cases hplan
    · dsimp only at hplan
      split at hplan
      · cases hplan
      · obtain rfl := Except.ok.inj hplan
        rfl

/-- A transaction that `RealSender` built can still be mined in a chain if and
only if some endpoint was less than 40 blocks behind the chain. -/
theorem stamped_canMine_iff {own : JsString} {req : RealRequest} {utxos : Except JsString (List Utxo)}
    {branchId : Option Nat} {tip : ExpiryTip} {height : ℕ} {plan : TxPlan} {Tx : Type} {expiry : Tx → Nat}
    {c : Chain Tx} {t : Tx} (htip : tipForExpiry cfg readings = .ok tip) (hheight : tip.height = some height)
    (hplan : prepareTx own req utxos (.ok ⟨height, branchId⟩) = .ok plan) (hexpiry : expiry t = plan.expiryHeight)
    (hvalid : c.Valid expiry) :
    c.CanMine expiry t ↔ ∃ r ∈ readings, ∃ h : ℕ, r.height = some h ∧ c.length ≤ h + 40 := by
  obtain ⟨rfl, -⟩ := tipForExpiry_ok_iff.mp htip
  obtain ⟨-, ⟨best, hbest, hbestHeight⟩, hhighest⟩ := summarize_height_iff.mp hheight
  have hstamped : expiry t = height + 40 := by rw [hexpiry, expiryHeight_of_plan hplan]
  rw [Chain.canMine_iff hvalid, Chain.InTime, hstamped, or_iff_right (Nat.succ_ne_zero _)]
  constructor
  · exact fun hnext => ⟨best, hbest, height, hbestHeight, hnext⟩
  · rintro ⟨r, hr, h, hread, hnear⟩
    have hle : h ≤ height := WithTop.coe_le_coe.mp (hhighest r hr h hread)
    omega

/-- One endpoint at the tip is enough, with one that is a hundred blocks
behind. -/
theorem stamped_canMine_oneCurrent : Chain.CanMine (fun _ => 200) (List.replicate 161 []) () := by
  have hvalid : Chain.Valid (fun _ => 200) (List.replicate 161 [] : Chain Unit) := by
    rintro t h ⟨block, hblock, hmem⟩
    obtain rfl := List.eq_of_mem_replicate (List.mem_of_getElem? hblock)
    cases hmem
  refine (@stamped_canMine_iff ⟨⟨5, shieldMaxLag_default_le⟩, ⟨10, walletMaxLag_default_le⟩, fun _ => []⟩
    [⟨js "a", some (60 : ℕ)⟩, ⟨js "b", none⟩, ⟨js "c", some (160 : ℕ)⟩] (js "tmOwn") ⟨js "tmTo", false, 100000⟩
    (.ok [⟨⟨List.replicate 32 0, rfl⟩, 0, 1000000⟩]) none _ 160 _ Unit (fun _ => 200) _ () rfl rfl rfl rfl hvalid).mpr ?_
  exact ⟨⟨js "c", some (160 : ℕ)⟩, by simp, 160, rfl, by rw [List.length_replicate]; decide⟩

/-! ## What is noted -/

/-- Two heights that are compatible: neither is more than the budget above the
other. -/
def WithinBudget (cfg : GateConfig) (a b : WithTop ℕ) : Prop :=
  a.map (Nat.cast : ℕ → ℚ) ≤ b.map (Nat.cast : ℕ → ℚ) + (cfg.shieldMaxLag.val : WithTop ℚ)

theorem spreadOver_none_iff {highest lowest : WithTop ℕ} (hle : lowest ≤ highest) :
    spreadOver cfg (some (heightSpread highest lowest)) = none ↔ WithinBudget cfg highest lowest := by
  rw [spreadOver, WithinBudget, heightSpread]
  cases highest with
  | top =>
    cases lowest with
    | top => simp
    | coe b =>
      rw [WithTop.top_sub_coe]
      simp
  | coe a =>
    cases lowest with
    | top => exact absurd hle (by simp)
    | coe b =>
      have hnat : b ≤ a := WithTop.coe_le_coe.mp hle
      rw [if_neg (by simp), ← WithTop.coe_sub, Option.join_some, Option.filter_eq_none_iff, WithTop.map_coe,
        WithTop.map_coe, ← WithTop.coe_add, WithTop.coe_le_coe]
      simp only [Option.some.injEq, forall_eq', WithTop.map_coe, decide_eq_true_eq, not_lt, WithTop.coe_le_coe,
        Nat.cast_sub hnat]
      exact sub_le_iff_le_add'

/-- Nothing is noted if and only if nobody answered, or two or more did and
no two answers are further apart than the budget. -/
theorem disagreement_none_iff :
    disagreement cfg (summarize readings) = none ↔
      (summarize readings).answered = 0 ∨ 2 ≤ (summarize readings).answered ∧
        ∀ a ∈ readings.filterMap usableHeight, ∀ b ∈ readings.filterMap usableHeight, WithinBudget cfg a b := by
  unfold disagreement
  have hanswered : (summarize readings).answered = (readings.filterMap usableHeight).length := rfl
  split
  case isTrue hnobody => simp [hnobody]
  case isFalse hsome =>
    split
    case isTrue hone => simp [hone]
    case isFalse hmore =>
      have htwo : 2 ≤ (summarize readings).answered := by omega
      have hne : readings.filterMap usableHeight ≠ [] := fun hnil => hsome (by rw [hanswered, hnil]; rfl)
      obtain ⟨highest, hmax⟩ := Option.ne_none_iff_exists'.mp (mt List.max?_eq_none_iff.mp hne)
      obtain ⟨lowest, hmin⟩ := Option.ne_none_iff_exists'.mp (mt List.min?_eq_none_iff.mp hne)
      obtain ⟨hhighest, habove⟩ := List.max?_eq_some_iff.mp hmax
      obtain ⟨hlowest, hbelow⟩ := List.min?_eq_some_iff.mp hmin
      have hspread : (summarize readings).spread = some (heightSpread highest lowest) := by
        rw [summarize, if_pos (hanswered ▸ htwo), hmax, hmin]
        rfl
      have hheight : (summarize readings).height = some highest := hmax
      have hover := @spreadOver_none_iff cfg highest lowest (habove lowest hlowest)
      rw [hspread, hheight, or_iff_right hsome, and_iff_right htwo]
      have hall : (∀ a ∈ readings.filterMap usableHeight, ∀ b ∈ readings.filterMap usableHeight, WithinBudget cfg a b) ↔
          WithinBudget cfg highest lowest := by
        refine ⟨fun h => h highest hhighest lowest hlowest, fun h a ha b hb => ?_⟩
        have hcast : Monotone (WithTop.map (Nat.cast : ℕ → ℚ)) := WithTop.monotone_map_iff.mpr Nat.mono_cast
        exact (hcast (habove a ha)).trans (h.trans (add_le_add_left (hcast (hbelow b hb)) _))
      rw [hall, ← hover]
      cases spreadOver cfg (some (heightSpread highest lowest)) <;> simp

end ZcashFaucet.Zcash
