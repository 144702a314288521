/-
ZcashFaucet.Zcash.TransparentTx — the transaction that `RealSender` has
built for a transparent recipient: `zcash/realsend.ts`, with what it pays
and what it spends.

`RealSend` has the same preparations with the values only, which is all it
needs; `prepare_of_plan` says that they agree.

The fee is flat. It is the conventional fee of a transaction with two
inputs, and how many there are is up to the UTXOs (`transparent_tx`).
-/
import ZcashFaucet.Lib.BigNumber
import ZcashFaucet.Zcash.RealSend

namespace ZcashFaucet.Zcash

open Lib

structure Utxo where
  txid : TxId
  index : Nat
  valueZat : Int

def Utxo.outpoint (u : Utxo) : TxId × Nat := (u.txid, u.index)

def sumZat (utxos : List Utxo) : Int := (utxos.map Utxo.valueZat).sum

/-- What `send` reads of a request. -/
structure RealRequest where
  toAddress : JsString
  shielded : Bool
  amountZat : Int

/-- `tipForExpiry` and `getLightdInfo`, with what `parseInt` reads of the
branch id: `none` is NaN. -/
structure ChainTip where
  height : Nat
  branchId : Option Nat

/-- What the transaction builder is told. A signature is of an input, with
the amount it commits to. -/
structure TxPlan where
  version : Nat
  versionGroupId : Nat
  branchId : Option Nat
  expiryHeight : Nat
  lockTime : Nat
  inputs : List (TxId × Nat)
  outputs : List (JsString × JsNumber)
  signatures : List (Nat × JsNumber)

/-- ZCASH_SAPLING_VERSION. -/
def zcashSaplingVersion : Nat := 4

/-- SAPLING_VERSION_GROUP_ID. -/
def saplingVersionGroupId : Nat := 0x892f2085

/-- `selectInputs`, with the UTXOs themselves. -/
def selectUtxos (need : Int) : List Utxo → List Utxo → Int → List Utxo × Int
  | [], chosen, total => (chosen, total)
  | u :: utxos, chosen, total =>
      if need ≤ total + u.valueZat then (chosen ++ [u], total + u.valueZat)
      else selectUtxos need utxos (chosen ++ [u]) (total + u.valueZat)

/-- `buildTransparentTx`, up to the library's own work. -/
def buildTransparentTx (own : JsString) (chosen : List Utxo) (total : Int) (toAddress : JsString) (amountZat : Int)
    (branchId : Option Nat) (expiryHeight : Nat) : TxPlan :=
  let change := total - amountZat - feeZat
  { version := zcashSaplingVersion
    versionGroupId := saplingVersionGroupId
    branchId := branchId
    expiryHeight := expiryHeight
    lockTime := 0
    inputs := chosen.map Utxo.outpoint
    outputs := (toAddress, numberOf amountZat) :: if change > 0 then [(own, numberOf change)] else []
    signatures := chosen.zipIdx.map fun u => (u.2, numberOf u.1.valueZat) }

/-- `RealSender.send`, up to the transaction it has built, by a wallet at
the address `own`. -/
def prepareTx (own : JsString) (req : RealRequest) (utxos : Except JsString (List Utxo))
    (chain : Except JsString ChainTip) : Except JsString TxPlan :=
  if req.shielded then
    .error (js ("Real shielded sends aren't enabled: change would land in a shielded pool this " ++
      "transparent faucet can't re-spend (funds would be stranded). Use a transparent " ++
      "(tm…) address, or enable shielded via a sweep-capable wallet. See DEPLOY.md."))
  else
    match utxos with
    | .error e => .error e
    | .ok [] => .error (js "Faucet wallet has no confirmed funds. Top it up.")
    | .ok (u :: us) =>
        let need := req.amountZat + feeZat
        let picked := selectUtxos need (u :: us) [] 0
        if picked.2 < need then .error (js "Faucet balance too low to cover this drip + fee.")
        else
          match chain with
          | .error e => .error e
          | .ok tip =>
              .ok (buildTransparentTx own picked.1 picked.2 req.toAddress req.amountZat tip.branchId
                (tip.height + 40))

/-! ## Selection -/

theorem sumZat_take_succ (u : Utxo) (utxos : List Utxo) (k : Nat) :
    sumZat ((u :: utxos).take (k + 1)) = u.valueZat + sumZat (utxos.take k) := by
  rw [List.take_succ_cons, sumZat, List.map_cons, List.sum_cons, sumZat]

/-- The loop takes a prefix: as far as needed, or all there is. -/
theorem selectUtxos_prefix (need : Int) (utxos : List Utxo) : ∀ chosen total,
    ∃ k ≤ utxos.length, selectUtxos need utxos chosen total = (chosen ++ utxos.take k, total + sumZat (utxos.take k)) ∧
      (need ≤ total + sumZat (utxos.take k) ∨ k = utxos.length) ∧
      ∀ j, 0 < j → j < k → total + sumZat (utxos.take j) < need := by
  induction utxos with
  | nil =>
      intro chosen total
      refine ⟨0, le_rfl, ?_, .inr rfl, fun j hj hjk => absurd hjk (Nat.not_lt_zero j)⟩
      rw [selectUtxos, List.take_nil, List.append_nil]
      exact congrArg (chosen, ·) (Int.add_zero total).symm
  | cons u utxos ih =>
      intro chosen total
      rw [selectUtxos]
      split
      case isTrue hcovers =>
        have hone : sumZat ((u :: utxos).take 1) = u.valueZat := by
          rw [sumZat_take_succ, List.take_zero]
          exact Int.add_zero _
        refine ⟨1, Nat.succ_le_succ (Nat.zero_le _), ?_, .inl ?_, fun j hj hjk => absurd hjk (by omega)⟩
        · rw [hone, List.take_succ_cons, List.take_zero]
        · rw [hone]
          exact hcovers
      case isFalse hshort =>
        obtain ⟨k, hk, hselect, hreached, hbefore⟩ := ih (chosen ++ [u]) (total + u.valueZat)
        refine ⟨k + 1, Nat.succ_le_succ hk, ?_, ?_, ?_⟩
        · rw [hselect, sumZat_take_succ, List.take_succ_cons, List.append_assoc, List.singleton_append,
            Int.add_assoc]
        · rw [sumZat_take_succ, ← Int.add_assoc]
          exact hreached.imp_right (congrArg Nat.succ)
        · intro j hj hjk
          obtain ⟨i, rfl⟩ := Nat.exists_eq_succ_of_ne_zero hj.ne'
          rw [Nat.succ_eq_add_one, sumZat_take_succ, ← Int.add_assoc]
          rcases Nat.eq_zero_or_pos i with rfl | hi
          · rw [List.take_zero]
            exact lt_of_eq_of_lt (Int.add_zero _) (not_le.mp hshort)
          · exact hbefore i hi (by omega)

/-- The values of what is taken are those that `selectInputs` takes. -/
theorem selectUtxos_values (need : Int) (utxos : List Utxo) : ∀ chosen total,
    selectInputs need (utxos.map Utxo.valueZat) (chosen.map Utxo.valueZat) total =
      ((selectUtxos need utxos chosen total).1.map Utxo.valueZat, (selectUtxos need utxos chosen total).2) := by
  induction utxos with
  | nil => exact fun _ _ => rfl
  | cons u utxos ih =>
      intro chosen total
      rw [List.map_cons, selectInputs, selectUtxos]
      have hsnoc : chosen.map Utxo.valueZat ++ [u.valueZat] = (chosen ++ [u]).map Utxo.valueZat := by
        rw [List.map_append, List.map_singleton]
      split
      · rw [hsnoc]
      · rw [hsnoc]
        exact ih (chosen ++ [u]) (total + u.valueZat)

/-- `RealRun.prepare` goes as `prepareTx` and then the library's build. -/
theorem prepare_of_plan (cfg : RealConfig) (own toAddress : JsString) (utxos : Except JsString (List Utxo))
    (chain : Except JsString ChainTip) (build : Except JsString TxId) (broadcast : Broadcast) :
    RealRun.prepare cfg ⟨utxos.map (List.map Utxo.valueZat), chain.map fun _ => (), build, broadcast⟩ =
      match prepareTx own ⟨toAddress, false, cfg.amountZat⟩ utxos chain with
      | .error e => .error e
      | .ok _ => build := by
  unfold RealRun.prepare prepareTx pickInputs
  rw [if_neg Bool.false_ne_true]
  cases utxos with
  | error e => rfl
  | ok us =>
      cases us with
      | nil => rfl
      | cons u us =>
          have hvalues := selectUtxos_values (cfg.amountZat + feeZat) (u :: us) [] 0
          simp only [Except.map, List.map_cons, List.map_nil] at hvalues ⊢
          rw [hvalues]
          by_cases hlow : (selectUtxos (cfg.amountZat + feeZat) (u :: us) [] 0).2 < cfg.amountZat + feeZat
          · simp only [if_pos hlow]
          · simp only [if_neg hlow]
            cases chain with
            | error e => rfl
            | ok tip => rfl

/-! ## What the transaction pays -/

/-- The conventional fee of a transparent transaction: 5000 for each
action, and for two at least. -/
def conventionalFee (inputs outputs : Nat) : Int := 5000 * (max 2 (max inputs outputs) : Nat)

/-- What is chosen is the shortest prefix that covers what is needed. -/
def ShortestPrefix (need : Int) (utxos chosen : List Utxo) : Prop :=
  ∃ k, chosen = utxos.take k ∧ need ≤ sumZat (utxos.take k) ∧ ∀ j < k, sumZat (utxos.take j) < need

/-- The drip to the recipient and the rest to ourselves, and the fee is
what lies between inputs and outputs. -/
structure PaysExactly (own : JsString) (req : RealRequest) (chosen : List Utxo) (plan : TxPlan) : Prop where
  outputs : plan.outputs = (req.toAddress, .finite req.amountZat) ::
    (if 0 < sumZat chosen - (req.amountZat + feeZat)
      then [(own, .finite (sumZat chosen - (req.amountZat + feeZat) : Int))] else [])
  conserves : ∃ paid : List Int, plan.outputs.map Prod.snd = paid.map (fun zat => .finite zat) ∧
    sumZat chosen - paid.sum = feeZat

/-- What the wallet has picked for a request it can pay. -/
theorem picked_of_plan {own : JsString} {req : RealRequest} {utxos : List Utxo} {tip : ChainTip} {plan : TxPlan}
    (hshielded : req.shielded = false)
    (h : prepareTx own req (.ok utxos) (.ok tip) = .ok plan) :
    req.amountZat + feeZat ≤ (selectUtxos (req.amountZat + feeZat) utxos [] 0).2 ∧
      plan = buildTransparentTx own (selectUtxos (req.amountZat + feeZat) utxos [] 0).1
        (selectUtxos (req.amountZat + feeZat) utxos [] 0).2 req.toAddress req.amountZat tip.branchId
        (tip.height + 40) := by
  unfold prepareTx at h
  rw [if_neg (by rw [hshielded]; decide)] at h
  cases utxos with
  | nil => cases h
  | cons u us =>
      dsimp only at h
      split at h
      · cases h
      · exact ⟨not_lt.mp ‹_›, (Except.ok.inj h).symm⟩

theorem sumZat_append (a b : List Utxo) : sumZat (a ++ b) = sumZat a + sumZat b := by
  rw [sumZat, List.map_append, List.sum_append, sumZat, sumZat]

theorem sumZat_nonneg {utxos : List Utxo} (hpos : ∀ u ∈ utxos, 0 < u.valueZat) : 0 ≤ sumZat utxos := by
  induction utxos with
  | nil => exact le_rfl
  | cons u utxos ih =>
      have hrest := ih fun v hv => hpos v (List.mem_cons_of_mem _ hv)
      have hfirst := hpos u List.mem_cons_self
      rw [sumZat, List.map_cons, List.sum_cons]
      rw [sumZat] at hrest
      omega

theorem sumZat_take_le {utxos : List Utxo} (hpos : ∀ u ∈ utxos, 0 < u.valueZat) {j k : Nat} (hjk : j ≤ k) :
    sumZat (utxos.take j) ≤ sumZat (utxos.take k) := by
  have hsplit : utxos.take k = utxos.take j ++ (utxos.drop j).take (k - j) := by
    rw [← List.take_add, Nat.add_sub_cancel' hjk]
  rw [hsplit, sumZat_append]
  have hrest : ∀ u ∈ (utxos.drop j).take (k - j), 0 < u.valueZat := fun u hu =>
    hpos u (List.mem_of_mem_drop (List.mem_of_mem_take hu))
  have hnonneg := sumZat_nonneg hrest
  omega

theorem selected_total (need : Int) (utxos : List Utxo) :
    (selectUtxos need utxos [] 0).2 = sumZat (selectUtxos need utxos [] 0).1 := by
  obtain ⟨k, -, hselect, -⟩ := selectUtxos_prefix need utxos [] 0
  rw [hselect, List.nil_append, Int.zero_add]

theorem shortest_of_selected {need : Int} (hneed : 0 < need) {utxos : List Utxo}
    (hcovers : need ≤ (selectUtxos need utxos [] 0).2) :
    ShortestPrefix need utxos (selectUtxos need utxos [] 0).1 := by
  obtain ⟨k, -, hselect, -, hbefore⟩ := selectUtxos_prefix need utxos [] 0
  rw [hselect] at hcovers ⊢
  simp only [List.nil_append, Int.zero_add] at hcovers hbefore ⊢
  refine ⟨k, rfl, hcovers, fun j hj => ?_⟩
  rcases Nat.eq_zero_or_pos j with rfl | hpos
  · rw [List.take_zero]
    exact hneed
  · exact hbefore j hpos hj

/-- The selection covers what the whole list covers. -/
theorem selected_covers_iff {need : Int} {utxos : List Utxo} (hpos : ∀ u ∈ utxos, 0 < u.valueZat) :
    need ≤ (selectUtxos need utxos [] 0).2 ↔ need ≤ sumZat utxos := by
  obtain ⟨k, hk, hselect, hreached, -⟩ := selectUtxos_prefix need utxos [] 0
  rw [hselect]
  simp only [Int.zero_add] at hreached ⊢
  have hle := sumZat_take_le hpos hk
  rw [List.take_length] at hle
  constructor
  · exact fun hcovers => hcovers.trans hle
  · intro hall
    rcases hreached with hcovers | rfl
    · exact hcovers
    · rwa [List.take_length]

/-- At most two inputs, where two are enough. -/
theorem length_shortest_le_two_iff {need : Int} {utxos chosen : List Utxo} (hpos : ∀ u ∈ utxos, 0 < u.valueZat)
    (h : ShortestPrefix need utxos chosen) : chosen.length ≤ 2 ↔ need ≤ sumZat (utxos.take 2) := by
  obtain ⟨k, rfl, hcovers, hbefore⟩ := h
  constructor
  · intro hlength
    refine hcovers.trans ?_
    rw [List.length_take] at hlength
    rcases Nat.le_total k 2 with hk | hk
    · exact sumZat_take_le hpos hk
    · have hall : utxos.length ≤ 2 ∨ k = 2 := by omega
      rcases hall with hshort | rfl
      · rw [List.take_of_length_le hshort, List.take_of_length_le (by omega)]
      · exact le_rfl
  · intro htwo
    by_contra hlength
    rw [List.length_take] at hlength
    exact absurd htwo (not_le.mpr (hbefore 2 (by omega)))

theorem plan_of_covered {own : JsString} {req : RealRequest} {utxos : List Utxo} {tip : ChainTip}
    (hshielded : req.shielded = false) (hneed : 0 < req.amountZat + feeZat)
    (h : req.amountZat + feeZat ≤ (selectUtxos (req.amountZat + feeZat) utxos [] 0).2) :
    ∃ plan, prepareTx own req (.ok utxos) (.ok tip) = .ok plan := by
  unfold prepareTx
  rw [if_neg (by rw [hshielded]; decide)]
  cases utxos with
  | nil => exact absurd h (not_le.mpr hneed)
  | cons u us =>
      dsimp only
      rw [if_neg (not_lt.mpr h)]
      exact ⟨_, rfl⟩

section

variable (own : JsString) (req : RealRequest) (chosen : List Utxo) (branchId : Option Nat) (expiryHeight : Nat)

/-- The outputs are exact where both numbers are. -/
theorem paysExactly_iff (hcovers : req.amountZat + feeZat ≤ sumZat chosen) :
    PaysExactly own req chosen
        (buildTransparentTx own chosen (sumZat chosen) req.toAddress req.amountZat branchId expiryHeight) ↔
      IsExact req.amountZat ∧ IsExact (sumZat chosen - (req.amountZat + feeZat)) := by
  have hchange : sumZat chosen - req.amountZat - feeZat = sumZat chosen - (req.amountZat + feeZat) := by omega
  have houtputs : (buildTransparentTx own chosen (sumZat chosen) req.toAddress req.amountZat branchId
      expiryHeight).outputs = (req.toAddress, numberOf req.amountZat) ::
        if 0 < sumZat chosen - (req.amountZat + feeZat)
          then [(own, numberOf (sumZat chosen - (req.amountZat + feeZat)))] else [] := by
    rw [buildTransparentTx]
    simp only [hchange, gt_iff_lt]
  constructor
  · intro hpays
    have hall := houtputs.symm.trans hpays.outputs
    obtain ⟨hdrip, hrest⟩ := List.cons.inj hall
    refine ⟨(Prod.mk.inj hdrip).2, ?_⟩
    split at hrest
    case isTrue => exact (Prod.mk.inj (List.cons.inj hrest).1).2
    case isFalse hnone =>
      rw [show sumZat chosen - (req.amountZat + feeZat) = 0 by omega]
      exact isExact_of_lt le_rfl (by decide)
  · rintro ⟨hdrip, hrest⟩
    unfold IsExact at hdrip hrest
    rw [hdrip, hrest] at houtputs
    refine ⟨houtputs, req.amountZat :: if 0 < sumZat chosen - (req.amountZat + feeZat)
      then [sumZat chosen - (req.amountZat + feeZat)] else [], ?_, ?_⟩
    · rw [houtputs]
      split <;> rfl
    · split
      · simp only [List.sum_cons, List.sum_nil]
        omega
      · simp only [List.sum_cons, List.sum_nil]
        omega

/-- Two outputs at most, so the fee is enough for two inputs at most. -/
theorem conventionalFee_le_iff (total : Int) (toAddress : JsString) (amountZat : Int) :
    conventionalFee
        (buildTransparentTx own chosen total toAddress amountZat branchId expiryHeight).inputs.length
        (buildTransparentTx own chosen total toAddress amountZat branchId expiryHeight).outputs.length ≤ feeZat ↔
      chosen.length ≤ 2 := by
  have houtputs : (buildTransparentTx own chosen total toAddress amountZat branchId expiryHeight).outputs.length
      ≤ 2 := by
    rw [buildTransparentTx]
    dsimp only
    split
    · exact le_rfl
    · exact Nat.le_succ 1
  rw [conventionalFee, feeZat, show (buildTransparentTx own chosen total toAddress amountZat branchId
    expiryHeight).inputs.length = chosen.length from List.length_map _]
  omega

end

/-- **The transaction of `RealSender`.** One is built exactly if the UTXOs
cover the drip and the fee, from the shortest prefix that does. It pays
exactly, and at least the conventional fee, exactly if a double can hold
the drip and the change and the first two UTXOs cover the need. -/
theorem transparent_tx (own : JsString) (req : RealRequest) (hshielded : req.shielded = false)
    (hamount : 0 < req.amountZat) (utxos : List Utxo) (hpos : ∀ u ∈ utxos, 0 < u.valueZat) (tip : ChainTip) :
    ((∃ plan, prepareTx own req (.ok utxos) (.ok tip) = .ok plan) ↔ req.amountZat + feeZat ≤ sumZat utxos) ∧
    ∀ plan, prepareTx own req (.ok utxos) (.ok tip) = .ok plan →
      ∃ chosen, ShortestPrefix (req.amountZat + feeZat) utxos chosen ∧ plan.inputs = chosen.map Utxo.outpoint ∧
        (PaysExactly own req chosen plan ∧
            conventionalFee plan.inputs.length plan.outputs.length ≤ feeZat ↔
          (IsExact req.amountZat ∧ IsExact (sumZat chosen - (req.amountZat + feeZat))) ∧
            req.amountZat + feeZat ≤ sumZat (utxos.take 2)) := by
  have hneed : 0 < req.amountZat + feeZat := hamount.trans (by rw [feeZat]; omega)
  refine ⟨?_, fun plan hplan => ?_⟩
  · rw [← selected_covers_iff hpos]
    exact ⟨fun ⟨_, hplan⟩ => (picked_of_plan hshielded hplan).1, plan_of_covered hshielded hneed⟩
  · obtain ⟨hcovers, rfl⟩ := picked_of_plan hshielded hplan
    have hshortest := shortest_of_selected hneed hcovers
    rw [selected_total] at hcovers ⊢
    refine ⟨_, hshortest, rfl, and_congr ?_ ?_⟩
    · exact paysExactly_iff own req _ tip.branchId (tip.height + 40) hcovers
    · rw [conventionalFee_le_iff]
      exact length_shortest_le_two_iff hpos hshortest

/-! ## A wallet of small UTXOs -/

def drip : RealRequest := ⟨js "tmRecipient", false, 10000000⟩

def someTip : ChainTip := ⟨3500000, some 0xc2d6d0b4⟩

/-- Six and five hundredths of a TAZ. -/
def twoUtxos : List Utxo := [⟨someTxId, 0, 6000000⟩, ⟨someTxId, 1, 5000000⟩]

theorem transparent_tx_two :
    ∃ plan chosen, prepareTx (js "tmFaucet") drip (.ok twoUtxos) (.ok someTip) = .ok plan ∧
      ShortestPrefix 10010000 twoUtxos chosen ∧ PaysExactly (js "tmFaucet") drip chosen plan ∧
      conventionalFee plan.inputs.length plan.outputs.length ≤ feeZat := by
  have hpos : ∀ u ∈ twoUtxos, 0 < u.valueZat := by simp [twoUtxos]
  obtain ⟨hbuilds, hpays⟩ := transparent_tx (js "tmFaucet") drip rfl (by decide) twoUtxos hpos someTip
  obtain ⟨plan, hplan⟩ := hbuilds.mpr (by decide)
  obtain ⟨chosen, hshortest, -, hiff⟩ := hpays plan hplan
  have hchange : IsExact (sumZat chosen - (drip.amountZat + feeZat)) := by
    obtain ⟨k, rfl, hcovers, -⟩ := hshortest
    have hall := sumZat_take_le hpos (Nat.le_max_left k 2)
    rw [twoUtxos.take_of_length_le (Nat.le_max_right k 2)] at hall
    have htotal : sumZat twoUtxos = 11000000 := rfl
    have hneed : drip.amountZat + feeZat = 10010000 := rfl
    exact isExact_of_lt (Int.sub_nonneg.mpr hcovers) (by omega)
  obtain ⟨hpaid, hfee⟩ := hiff.mpr ⟨⟨isExact_of_lt (by decide) (by decide), hchange⟩, by decide⟩
  exact ⟨plan, chosen, hplan, hshortest, hpaid, hfee⟩

/-- Four hundredths of a TAZ, three times. -/
def smallUtxos : List Utxo := [⟨someTxId, 0, 4000000⟩, ⟨someTxId, 1, 4000000⟩, ⟨someTxId, 2, 4000000⟩]

/-- Three inputs are needed, and the conventional fee of three is 15000. -/
theorem small_utxos_underpaid :
    ¬ ∀ (utxos : List Utxo), (∀ u ∈ utxos, 0 < u.valueZat) → ∀ plan,
      prepareTx (js "tmFaucet") drip (.ok utxos) (.ok someTip) = .ok plan →
      conventionalFee plan.inputs.length plan.outputs.length ≤ feeZat := by
  intro hclaim
  have hbuilt : prepareTx (js "tmFaucet") drip (.ok smallUtxos) (.ok someTip) =
      .ok (buildTransparentTx (js "tmFaucet") smallUtxos 12000000 (js "tmRecipient") 10000000
        (some 0xc2d6d0b4) 3500040) := rfl
  exact absurd (hclaim smallUtxos (by simp [smallUtxos]) _ hbuilt) (by decide)

end ZcashFaucet.Zcash
