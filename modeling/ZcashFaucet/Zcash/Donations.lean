/-
ZcashFaucet.Zcash.Donations — the tally of donations, read page by page off
the wallet's history: `zcash/donations.ts`, `ZalletSender.donations` and
what `safeDonations` keeps of a scan.

`donations_scan`: a scan that is reported complete counts every donation of
the history once, unless transactions that appeared at the front between
two pages pushed a donation that was read already to or past the offset of
the next page. It is then read and counted again: rows are not told apart
by their txid.

The history is of entries, a transaction under the number the wallet has
for it, so that two transactions that look the same are still two.
-/
import Mathlib.Data.List.Nodup
import ZcashFaucet.Lib.Decimal
import ZcashFaucet.Lib.JsLower
import ZcashFaucet.Lib.JsTrim
import ZcashFaucet.Lib.PagedScan
import ZcashFaucet.Zcash.ZalletSend

namespace ZcashFaucet.Zcash

open Lib

/-- DONATION_POOLS. -/
def donationPools : List JsString := [js "ironwood", js "orchard", js "sapling"]

/-- DONATION_PAGE. -/
def donationPage : Nat := 500

/-- DONATION_MAX_PAGES. -/
def donationMaxPages : Nat := 20

/-- Number.MAX_SAFE_INTEGER. -/
def maxSafeInteger : ℚ := 2 ^ 53 - 1

inductive WalletValue
  | number (x : JsNumber)
  | text (s : JsString)
  deriving DecidableEq

structure WalletOutput where
  pool : Option JsString
  fromAccount : Option JsString
  value : Option WalletValue
  isChange : Bool
  deriving DecidableEq

structure WalletTx where
  minedHeight : Option ℚ
  expiredUnmined : Bool
  sentNoteCount : Option ℚ
  outputs : Option (List WalletOutput)
  deriving DecidableEq

structure DonationTally where
  count : Nat
  zat : Nat
  lastHeight : Option ℚ
  unattributedCount : Nat
  unattributedZat : Nat

/-! ## The tally -/

/-- `zat`: exact zatoshi, from either JSON shape. -/
def zat : Option WalletValue → Option Nat
  | some (.number (.finite q)) => if q.den = 1 ∧ |q| ≤ maxSafeInteger ∧ ¬ q < 0 then some q.num.toNat else none
  | some (.text s) =>
      if s ≠ [] ∧ trim s ≠ [] ∧ (trim s).all isDecimalUnit then some (decimalValue (trim s)) else none
  | _ => none

variable (lower : LowerCase)

/-- What one output of a transaction mined at `height` adds. -/
def tallyOutput (height : ℚ) (t : DonationTally) (out : WalletOutput) : DonationTally :=
  if out.fromAccount.any JsString.truthy then t
  else if out.isChange then t
  else
    match zat out.value with
    | none => t
    | some value =>
        if value = 0 then t
        else if lower.apply (out.pool.getD []) ∈ donationPools then
          { t with
            count := t.count + 1
            zat := t.zat + value
            lastHeight := some (t.lastHeight.elim height fun last => max last height) }
        else
          { t with
            unattributedCount := t.unattributedCount + 1
            unattributedZat := t.unattributedZat + value }

def tallyTx (t : DonationTally) (tx : WalletTx) : DonationTally :=
  match tx.minedHeight with
  | none => t
  | some height =>
      if tx.expiredUnmined then t
      else if tx.sentNoteCount.getD 0 > 0 then t
      else (tx.outputs.getD []).foldl (tallyOutput lower height) t

/-- `tallyDonations`. -/
def tallyDonations (txs : List WalletTx) : DonationTally := txs.foldl (tallyTx lower) ⟨0, 0, none, 0, 0⟩

/-! ## The scan -/

/-- The loop of `donations` over the pages. `listTransactions` answers a
call by its number, its offset and its limit; `none` is an answer that is
not an array. -/
def readHistory (listTransactions : Nat → Nat → Nat → Except JsError (Option (List WalletTx))) :
    Nat → Nat → Except JsError (List WalletTx × Bool)
  | 0, _ => .ok ([], false)
  | left + 1, page => do
      let batch ← listTransactions page (page * donationPage) donationPage
      let rows := batch.getD []
      if rows.length < donationPage then .ok (rows, true)
      else do
        let (txs, complete) ← readHistory listTransactions left (page + 1)
        .ok (rows ++ txs, complete)

/-- `ZalletSender.donations`: the tally, and whether it is complete. -/
def donations (account : JsString)
    (listTransactions : Nat → Nat → Nat → Except JsError (Option (List WalletTx))) :
    Except JsError (DonationTally × Bool) :=
  if account.truthy then do
    let (txs, complete) ← readHistory listTransactions donationMaxPages 0
    .ok (tallyDonations lower txs, complete)
  else .error (ourError (js "FAUCET_ZALLET_ACCOUNT (account UUID) is required to read donations."))

/-- What a refresh of `safeDonations` keeps of a scan. -/
def publishedTally : Except JsError (DonationTally × Bool) → Option DonationTally
  | .ok (tally, complete) => if complete then some tally else none
  | .error _ => none

/-- What is published is the tally of a complete scan. -/
theorem publishedTally_eq_some_iff {scan : Except JsError (DonationTally × Bool)} {tally : DonationTally} :
    publishedTally scan = some tally ↔ scan = .ok (tally, true) := by
  cases scan with
  | error e => simp [publishedTally]
  | ok read =>
      obtain ⟨t, complete⟩ := read
      cases complete <;> simp [publishedTally]

/-! ## Donations -/

/-- A confirmed shielded output that we did not fund. -/
def IsDonation (tx : WalletTx) (out : WalletOutput) : Prop :=
  (tx.minedHeight.isSome = true ∧ tx.expiredUnmined = false) ∧
  (¬ tx.sentNoteCount.getD 0 > 0 ∧ out.fromAccount.any JsString.truthy = false ∧ out.isChange = false) ∧
  lower.apply (out.pool.getD []) ∈ donationPools

instance (tx : WalletTx) (out : WalletOutput) : Decidable (IsDonation lower tx out) :=
  inferInstanceAs (Decidable (_ ∧ _ ∧ _))

/-- What the output brings, where that is readable. -/
def WalletOutput.worth (out : WalletOutput) : Nat := (zat out.value).getD 0

/-- The outputs of a transaction that the tally counts. -/
def donated (tx : WalletTx) : List WalletOutput :=
  (tx.outputs.getD []).filter fun out => decide (IsDonation lower tx out ∧ 0 < out.worth)

/-- The tally is that of these outputs. -/
def Tallies (t : DonationTally) (outs : List WalletOutput) : Prop :=
  t.count = outs.length ∧ t.zat = (outs.map WalletOutput.worth).sum

theorem tallies_snoc {t t' : DonationTally} {outs : List WalletOutput} {out : WalletOutput} (h : Tallies t outs)
    (hcount : t'.count = t.count + 1) (hzat : t'.zat = t.zat + out.worth) : Tallies t' (outs ++ [out]) := by
  refine ⟨?_, ?_⟩
  · rw [hcount, h.1, List.length_append, List.length_singleton]
  · rw [hzat, h.2, List.map_append, List.sum_append, List.map_singleton, List.sum_singleton]

/-- A fold that answers for what each element stands for answers for the
list. -/
theorem foldl_answers {σ α β : Type} {step : σ → α → σ} (stands : α → List β) (Answers : σ → List β → Prop)
    (hstep : ∀ s x bs, Answers s bs → Answers (step s x) (bs ++ stands x)) :
    ∀ (xs : List α) (s : σ) (bs : List β), Answers s bs → Answers (xs.foldl step s) (bs ++ xs.flatMap stands)
  | [], s, bs, h => by simpa using h
  | x :: xs, s, bs, h => by
      rw [List.foldl_cons, List.flatMap_cons, ← List.append_assoc]
      exact foldl_answers stands Answers hstep xs _ _ (hstep s x bs h)

theorem tallyOutput_answers {tx : WalletTx} {height : ℚ} (hmined : tx.minedHeight = some height)
    (hexpired : tx.expiredUnmined = false) (hspent : ¬ tx.sentNoteCount.getD 0 > 0) (t : DonationTally)
    (out : WalletOutput) (outs : List WalletOutput) (h : Tallies t outs) :
    Tallies (tallyOutput lower height t out)
      (outs ++ [out].filter fun out => decide (IsDonation lower tx out ∧ 0 < out.worth)) := by
  have hskip (hnot : ¬ (IsDonation lower tx out ∧ 0 < out.worth)) :
      [out].filter (fun out => decide (IsDonation lower tx out ∧ 0 < out.worth)) = [] := by
    simp [hnot]
  unfold tallyOutput
  split
  case isTrue hours =>
    rw [hskip fun hboth => by simp [hboth.1.2.1.2.1] at hours, List.append_nil]
    exact h
  case isFalse hours =>
    split
    case isTrue hchange =>
      rw [hskip fun hboth => by simp [hboth.1.2.1.2.2] at hchange, List.append_nil]
      exact h
    case isFalse hchange =>
      cases hvalue : zat out.value with
      | none =>
          rw [hskip fun hboth => by simp [WalletOutput.worth, hvalue] at hboth, List.append_nil]
          exact h
      | some value =>
          have hworth : out.worth = value := by rw [WalletOutput.worth, hvalue, Option.getD_some]
          dsimp only
          split
          case isTrue hzero =>
            rw [hskip fun hboth => by omega, List.append_nil]
            exact h
          case isFalse hzero =>
            split
            case isTrue hpool =>
              have hcounts : IsDonation lower tx out ∧ 0 < out.worth :=
                ⟨⟨⟨by rw [hmined]; rfl, hexpired⟩, ⟨hspent, by simpa using hours, by simpa using hchange⟩, hpool⟩,
                  by omega⟩
              rw [List.filter_singleton, decide_eq_true hcounts, cond_true]
              exact tallies_snoc h rfl (by rw [hworth])
            case isFalse hpool =>
              rw [hskip fun hboth => hpool hboth.1.2.2, List.append_nil]
              exact h

theorem tallyTx_answers (t : DonationTally) (tx : WalletTx) (outs : List WalletOutput) (h : Tallies t outs) :
    Tallies (tallyTx lower t tx) (outs ++ donated lower tx) := by
  have hskip (hnot : ∀ out, ¬ IsDonation lower tx out) : donated lower tx = [] := by
    refine List.filter_eq_nil_iff.mpr fun out _ => ?_
    rw [decide_eq_true_iff]
    exact fun hboth => hnot out hboth.1
  unfold tallyTx
  cases hmined : tx.minedHeight with
  | none =>
      rw [hskip fun out hout => absurd hout.1.1 (by simp [hmined]), List.append_nil]
      exact h
  | some height =>
      dsimp only
      split
      case isTrue hexpired =>
        rw [hskip fun out hout => absurd hout.1.2 (by simp [hexpired]), List.append_nil]
        exact h
      case isFalse hexpired =>
        split
        case isTrue hspent =>
          rw [hskip fun out hout => hout.2.1.1 hspent, List.append_nil]
          exact h
        case isFalse hspent =>
          have hfold := foldl_answers _ Tallies
            (tallyOutput_answers lower hmined (by simpa using hexpired) hspent) (tx.outputs.getD []) t outs h
          rwa [← List.filter_flatMap, List.flatMap_singleton'] at hfold

theorem tallies_tallyDonations (txs : List WalletTx) :
    Tallies (tallyDonations lower txs) (txs.flatMap (donated lower)) :=
  foldl_answers (donated lower) Tallies (tallyTx_answers lower) txs ⟨0, 0, none, 0, 0⟩ [] ⟨rfl, rfl⟩

/-! ## A history and what is counted of it -/

/-- A transaction under the number the wallet has for it. -/
structure WalletEntry where
  number : Nat
  tx : WalletTx
  deriving DecidableEq

/-- The wallet that answers call `p` out of `hist p`. -/
def walletOf (hist : Nat → List WalletEntry) (call offset limit : Nat) :
    Except JsError (Option (List WalletTx)) :=
  .ok (some ((((hist call).drop offset).take limit).map WalletEntry.tx))

theorem readHistory_walletOf (hist : Nat → List WalletEntry) (left : Nat) : ∀ p,
    readHistory (walletOf hist) left p =
      .ok ((scanPages donationPage hist left p).1.map WalletEntry.tx, (scanPages donationPage hist left p).2) := by
  induction left with
  | zero => exact fun _ => rfl
  | succ left ih =>
      intro p
      have hrows : walletOf hist p (p * donationPage) donationPage =
          .ok (some ((page donationPage hist p).map WalletEntry.tx)) := rfl
      rw [readHistory, hrows, scanPages]
      simp only [bind, Except.bind, Option.getD_some, List.length_map, ih (p + 1)]
      split
      · rfl
      · rw [List.map_append]

/-- The entries that a scan reads. -/
def entriesRead (hist : Nat → List WalletEntry) : List WalletEntry :=
  (scanPages donationPage hist donationMaxPages 0).1

theorem donations_walletOf {account : JsString} (haccount : account.truthy = true) (hist : Nat → List WalletEntry) :
    donations lower account (walletOf hist) =
      .ok (tallyDonations lower ((entriesRead hist).map WalletEntry.tx),
        (scanPages donationPage hist donationMaxPages 0).2) := by
  rw [donations, if_pos haccount, readHistory_walletOf]
  rfl

/-- One output of one entry. -/
structure Receipt where
  entry : WalletEntry
  output : WalletOutput
  index : Nat
  deriving DecidableEq

/-- The outputs of an entry that the tally counts, each in its place. -/
def receipts (e : WalletEntry) : List Receipt :=
  ((e.tx.outputs.getD []).zipIdx.filter fun o => decide (IsDonation lower e.tx o.1 ∧ 0 < o.1.worth)).map
    fun o => ⟨e, o.1, o.2⟩

def counted (entries : List WalletEntry) : List Receipt := entries.flatMap (receipts lower)

/-- Every donation of this history is counted, once, and nothing twice. -/
def CountsEachOnce (history : List WalletEntry) (counted : List Receipt) : Prop :=
  counted.Nodup ∧
  ∀ e ∈ history, ∀ out i, (out, i) ∈ (e.tx.outputs.getD []).zipIdx → IsDonation lower e.tx out →
    counted.count ⟨e, out, i⟩ = 1

/-- Whenever a page is asked for, the donations that were read already
stand before its offset. -/
def KeptBehind (hist : Nat → List WalletEntry) : Prop :=
  ∀ p, Asked donationPage hist p → ∀ q < p, ∀ e ∈ page donationPage hist q,
    e ∈ (hist p).drop (p * donationPage) → donated lower e.tx = []

section

variable {lower}

theorem map_output_receipts (e : WalletEntry) : (receipts lower e).map Receipt.output = donated lower e.tx := by
  have hfst : (e.tx.outputs.getD []).zipIdx.map Prod.fst = e.tx.outputs.getD [] := List.zipIdx_map_fst _ _
  rw [receipts, donated, List.map_map]
  conv_rhs => rw [← hfst, List.filter_map]
  rfl

theorem map_output_counted (entries : List WalletEntry) :
    (counted lower entries).map Receipt.output = (entries.map WalletEntry.tx).flatMap (donated lower) := by
  rw [counted, List.map_flatMap, List.flatMap_map]
  exact List.flatMap_congr fun e _ => map_output_receipts e

theorem mem_receipts {e : WalletEntry} {r : Receipt} :
    r ∈ receipts lower e ↔
      r.entry = e ∧ (r.output, r.index) ∈ (e.tx.outputs.getD []).zipIdx ∧
        IsDonation lower e.tx r.output ∧ 0 < r.output.worth := by
  unfold receipts
  constructor
  · intro h
    obtain ⟨o, ho, rfl⟩ := List.mem_map.mp h
    obtain ⟨hmem, hcounts⟩ := List.mem_filter.mp ho
    exact ⟨rfl, hmem, of_decide_eq_true hcounts⟩
  · rintro ⟨rfl, hmem, hcounts⟩
    exact List.mem_map.mpr ⟨(r.output, r.index), List.mem_filter.mpr ⟨hmem, decide_eq_true hcounts⟩, rfl⟩

theorem nodup_receipts (e : WalletEntry) : (receipts lower e).Nodup := by
  have hplaces : ((e.tx.outputs.getD []).zipIdx.map Prod.snd).Nodup := by
    rw [List.zipIdx_map_snd]
    exact List.nodup_range'
  refine List.Nodup.map ?_ (hplaces.of_map.filter _)
  intro o o' heq
  have hparts := Receipt.mk.inj heq
  exact Prod.ext hparts.2.1 hparts.2.2

theorem receipts_disjoint_of_ne (e e' : WalletEntry) (h : e ≠ e') :
    (receipts lower e).Disjoint (receipts lower e') := fun _ hr hr' =>
  h ((mem_receipts.mp hr).1.symm.trans (mem_receipts.mp hr').1)

theorem receipts_disjoint_self_iff (e : WalletEntry) :
    (receipts lower e).Disjoint (receipts lower e) ↔ donated lower e.tx = [] := by
  rw [← map_output_receipts, List.map_eq_nil_iff]
  constructor
  · intro h
    exact List.eq_nil_iff_forall_not_mem.mpr fun r hr => h hr hr
  · intro h
    rw [h]
    exact List.disjoint_nil_left _

/-- A counted output brings something. -/
theorem worth_of_mem_counted {entries : List WalletEntry} {r : Receipt} (h : r ∈ counted lower entries) :
    0 < r.output.worth := by
  obtain ⟨e, -, hmem⟩ := List.mem_flatMap.mp h
  exact (mem_receipts.mp hmem).2.2.2

end

/-- A scan that ended with page `n`: the pages before it were full. -/
structure EndsWith (hist : Nat → List WalletEntry) (n : Nat) : Prop where
  budget : n < donationMaxPages
  asked : ∀ p, Asked donationPage hist p ↔ p ≤ n
  last : (page donationPage hist n).length < donationPage
  read : entriesRead hist = (List.range (n + 1)).flatMap (page donationPage hist)

theorem endsWith_of_donations {account : JsString} {hist : Nat → List WalletEntry} {tally : DonationTally}
    (h : donations lower account (walletOf hist) = .ok (tally, true)) :
    tally = tallyDonations lower ((entriesRead hist).map WalletEntry.tx) ∧ ∃ n, EndsWith hist n := by
  by_cases haccount : account.truthy = true
  case neg =>
    rw [donations, if_neg haccount] at h
    cases h
  rw [donations_walletOf lower haccount] at h
  have hpair := Except.ok.inj h
  have hcomplete : (scanPages donationPage hist donationMaxPages 0).2 = true := congrArg Prod.snd hpair
  obtain ⟨n, -, hn, hfull, hlast, hread⟩ := scanPages_complete donationMaxPages hcomplete
  refine ⟨(congrArg Prod.fst hpair).symm, n, by omega, fun p => ⟨fun hasked => ?_, fun hp q hq => ?_⟩, hlast, ?_⟩
  · by_contra hlater
    rw [hasked n (by omega)] at hlast
    exact lt_irrefl _ hlast
  · exact hfull q (Nat.zero_le q) (by omega)
  · rw [entriesRead, hread, List.range_eq_range', Nat.sub_zero]

namespace EndsWith

variable {lower} {hist : Nat → List WalletEntry} {n : Nat} (h : EndsWith hist n)
include h

theorem mem_hist {e : WalletEntry} (he : e ∈ entriesRead hist) : ∃ p, Asked donationPage hist p ∧ e ∈ hist p := by
  rw [h.read] at he
  obtain ⟨p, hp, hpage⟩ := List.mem_flatMap.mp he
  exact ⟨p, (h.asked p).mpr (Nat.lt_succ_iff.mp (List.mem_range.mp hp)),
    List.mem_of_mem_drop (mem_of_mem_page hpage)⟩

/-- What is there from the start is read. -/
theorem mem_entriesRead (hgrows : GrowsAtEnds hist) {e : WalletEntry} (he : e ∈ hist 0) : e ∈ entriesRead hist := by
  have hstands : e ∈ (hist 0).drop (0 * donationPage) := by rwa [Nat.zero_mul, List.drop_zero]
  obtain ⟨q, -, hq, hpage⟩ := hgrows.exists_page_of_drop h.last (Nat.zero_le n) hstands
  rw [h.read]
  exact List.mem_flatMap.mpr ⟨q, List.mem_range.mpr (Nat.lt_succ_of_le hq), hpage⟩

theorem length_lt_budget (hgrows : GrowsAtEnds hist) {p : Nat} (hp : Asked donationPage hist p) :
    (hist p).length < donationMaxPages * donationPage := by
  have hle := (hgrows.sublist ((h.asked p).mp hp)).length_le
  have hlast := h.last
  rw [page, List.length_take, List.length_drop] at hlast
  have hbudget : (n + 1) * donationPage ≤ donationMaxPages * donationPage := Nat.mul_le_mul_right _ h.budget
  rw [Nat.succ_mul] at hbudget
  omega

theorem nodup_counted_iff (hgrows : GrowsAtEnds hist) (hnodup : ∀ p, (hist p).Nodup) :
    (counted lower (entriesRead hist)).Nodup ↔ KeptBehind lower hist := by
  rw [counted, List.nodup_flatMap, h.read]
  refine Iff.trans ⟨fun hboth => hboth.2, fun hapart => ⟨fun e _ => nodup_receipts e, hapart⟩⟩ ?_
  refine Iff.trans (hgrows.pairwise_pages_iff h.last hnodup receipts_disjoint_of_ne) ?_
  exact forall_congr' fun p => by simp only [h.asked p, receipts_disjoint_self_iff]

end EndsWith

/-- **The donation scan.** Of a wallet whose history grows at both ends, a
scan that is reported complete tallies the receipts counted of what it has
read. They are donations of the wallet; the history was shorter than the
page budget at every call; and every donation there from the start is
counted once, and none twice, exactly if the donations read already stayed
before the offsets asked for and every one of them brings something. -/
theorem donations_scan (account : JsString) {hist : Nat → List WalletEntry} (hgrows : GrowsAtEnds hist)
    (hnodup : ∀ p, (hist p).Nodup) {tally : DonationTally}
    (h : donations lower account (walletOf hist) = .ok (tally, true)) :
    (tally.count = (counted lower (entriesRead hist)).length ∧
      tally.zat = ((counted lower (entriesRead hist)).map fun r => r.output.worth).sum) ∧
    (∀ r ∈ counted lower (entriesRead hist), IsDonation lower r.entry.tx r.output ∧
      r.output ∈ r.entry.tx.outputs.getD [] ∧ ∃ p, Asked donationPage hist p ∧ r.entry ∈ hist p) ∧
    (∀ p, Asked donationPage hist p → (hist p).length < donationMaxPages * donationPage) ∧
    (CountsEachOnce lower (hist 0) (counted lower (entriesRead hist)) ↔
      KeptBehind lower hist ∧
      ∀ e ∈ hist 0, ∀ out ∈ e.tx.outputs.getD [], IsDonation lower e.tx out → 0 < out.worth) := by
  obtain ⟨rfl, n, hends⟩ := endsWith_of_donations lower h
  obtain ⟨hcount, hzat⟩ := tallies_tallyDonations lower ((entriesRead hist).map WalletEntry.tx)
  rw [← map_output_counted] at hcount hzat
  refine ⟨⟨by rw [hcount, List.length_map], by rw [hzat, List.map_map]; rfl⟩, fun r hr => ?_,
    fun p hp => hends.length_lt_budget hgrows hp, ?_⟩
  · obtain ⟨e, he, hmem⟩ := List.mem_flatMap.mp hr
    obtain ⟨rfl, hplace, hdonation, -⟩ := mem_receipts.mp hmem
    exact ⟨hdonation, (List.mem_zipIdx' hplace).2 ▸ List.getElem_mem _, hends.mem_hist he⟩
  · rw [CountsEachOnce, hends.nodup_counted_iff hgrows hnodup]
    refine and_congr_right fun hkept => ?_
    have hcounts := (hends.nodup_counted_iff hgrows hnodup).mpr hkept
    constructor
    · intro hall e he out hout hdonation
      obtain ⟨i, hi, rfl⟩ := List.getElem_of_mem hout
      have hplace : ((e.tx.outputs.getD [])[i], i) ∈ (e.tx.outputs.getD []).zipIdx :=
        List.mk_mem_zipIdx_iff_getElem?.mpr (List.getElem?_eq_getElem hi)
      have hmem := List.count_pos_iff.mp (by rw [hall e he _ i hplace hdonation]; exact Nat.one_pos)
      exact worth_of_mem_counted hmem
    · intro hworth e he out i hplace hdonation
      have hout : out ∈ e.tx.outputs.getD [] := (List.mem_zipIdx' hplace).2 ▸ List.getElem_mem _
      have hmem : (⟨e, out, i⟩ : Receipt) ∈ receipts lower e :=
        mem_receipts.mpr ⟨rfl, hplace, hdonation, hworth e he out hout hdonation⟩
      exact List.count_eq_one_of_mem hcounts
        (List.mem_flatMap.mpr ⟨e, hends.mem_entriesRead hgrows he, hmem⟩)

/-- A history that grows at the back only keeps what was read behind. -/
theorem keptBehind_of_appended {hist : Nat → List WalletEntry}
    (happended : ∀ p, ∃ back, hist (p + 1) = hist p ++ back) (hnodup : ∀ p, (hist p).Nodup) :
    KeptBehind lower hist := fun _ _ _ hqp _ hread hstands =>
  absurd hstands (not_mem_drop_of_appended happended hnodup hqp hread)

/-! ## At a page boundary -/

/-- A hundredth of a TAZ from outside. -/
def giftTx : WalletTx :=
  ⟨some 100, false, some 0, some [⟨some (js "ironwood"), none, some (.number (.finite 1000000)), false⟩]⟩

def dripTx : WalletTx := ⟨some 100, false, some 1, some []⟩

/-- A full page with a gift at its end. -/
def fullPage : List WalletEntry := ((List.range 499).map fun i => ⟨i, dripTx⟩) ++ [⟨499, giftTx⟩]

theorem numbers_fullPage : fullPage.map WalletEntry.number = List.range 500 := by
  have hnumber : WalletEntry.number ∘ (fun i => ⟨i, dripTx⟩) = id := rfl
  rw [fullPage, List.map_append, List.map_map, hnumber, List.map_id, List.map_singleton, List.range_succ (n := 499)]

theorem nodup_of_numbers {es : List WalletEntry} {n : Nat} (h : es.map WalletEntry.number = List.range n) :
    es.Nodup := by
  have hnumbers : (es.map WalletEntry.number).Nodup := by
    rw [h]
    exact List.nodup_range
  exact hnumbers.of_map

/-- One more gift arrives at the back once the page is read. -/
def grownHistory : Nat → List WalletEntry
  | 0 => fullPage
  | _ + 1 => fullPage ++ [⟨500, giftTx⟩]

theorem grownHistory_appended (p : Nat) : ∃ back, grownHistory (p + 1) = grownHistory p ++ back := by
  cases p with
  | zero => exact ⟨[⟨500, giftTx⟩], rfl⟩
  | succ p => exact ⟨[], (List.append_nil _).symm⟩

theorem grownHistory_nodup (p : Nat) : (grownHistory p).Nodup := by
  cases p with
  | zero => exact nodup_of_numbers numbers_fullPage
  | succ p =>
      refine nodup_of_numbers (n := 501) ?_
      rw [grownHistory, List.map_append, numbers_fullPage, List.map_singleton, ← List.range_succ]

/-- Two pages, with a gift on each. -/
theorem donations_scan_gift :
    ∃ tally, donations foldOnly (js "uuid") (walletOf grownHistory) = .ok (tally, true) ∧
      Asked donationPage grownHistory 1 ∧ (tally.count = 2 ∧ tally.zat = 2000000) ∧
      CountsEachOnce foldOnly fullPage (counted foldOnly (entriesRead grownHistory)) := by
  have hcomplete : (scanPages donationPage grownHistory donationMaxPages 0).2 = true := by decide +kernel
  have hread := donations_walletOf foldOnly (show (js "uuid").truthy = true from rfl) grownHistory
  rw [hcomplete] at hread
  have hgrows : GrowsAtEnds grownHistory := fun p => by
    obtain ⟨back, hback⟩ := grownHistory_appended p
    exact ⟨[], back, hback⟩
  obtain ⟨⟨hcount, hzat⟩, -, -, honce⟩ := donations_scan foldOnly (js "uuid") hgrows grownHistory_nodup hread
  refine ⟨_, hread, fun q hq => ?_, ⟨hcount.trans ?_, hzat.trans ?_⟩,
    honce.mpr ⟨keptBehind_of_appended foldOnly grownHistory_appended grownHistory_nodup, ?_⟩⟩
  · obtain rfl := Nat.lt_one_iff.mp hq
    decide +kernel
  · decide +kernel
  · decide +kernel
  · decide +kernel

/-- A drip of ours appears at the front once the page is read. -/
def pushedHistory : Nat → List WalletEntry
  | 0 => fullPage
  | _ + 1 => ⟨500, dripTx⟩ :: fullPage

theorem pushedHistory_grows : GrowsAtEnds pushedHistory := by
  intro p
  cases p with
  | zero =>
      refine ⟨[⟨500, dripTx⟩], [], ?_⟩
      rw [List.append_nil, List.singleton_append, pushedHistory, pushedHistory]
  | succ p =>
      refine ⟨[], [], ?_⟩
      rw [List.append_nil, List.nil_append, pushedHistory, pushedHistory]

theorem pushedHistory_nodup (p : Nat) : (pushedHistory p).Nodup := by
  have hpage := nodup_of_numbers numbers_fullPage
  cases p with
  | zero => exact hpage
  | succ p =>
      rw [pushedHistory, List.nodup_cons]
      refine ⟨fun hmem => ?_, hpage⟩
      have hnumber := List.mem_map_of_mem (f := WalletEntry.number) hmem
      rw [numbers_fullPage, List.mem_range] at hnumber
      exact lt_irrefl _ hnumber

/-- The gift stands at the offset of the second page, and is counted again. -/
theorem gift_counted_twice :
    ¬ ∀ (hist : Nat → List WalletEntry), GrowsAtEnds hist → (∀ p, (hist p).Nodup) → ∀ tally,
      donations foldOnly (js "uuid") (walletOf hist) = .ok (tally, true) →
      CountsEachOnce foldOnly (hist 0) (counted foldOnly (entriesRead hist)) := by
  intro hclaim
  have hcomplete : (scanPages donationPage pushedHistory donationMaxPages 0).2 = true := by decide +kernel
  have hread := donations_walletOf foldOnly (show (js "uuid").truthy = true from rfl) pushedHistory
  rw [hcomplete] at hread
  have hnodup := (hclaim pushedHistory pushedHistory_grows pushedHistory_nodup _ hread).1
  exact absurd hnodup (by decide +kernel)

end ZcashFaucet.Zcash
