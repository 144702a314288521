/-
ZcashFaucet.Zcash.DonationCache — the counter of donations on the page:
`safeDonations` and `resetDonationCache` of `zcash/send.ts`.

A page shows what the last scan published and never waits for one. Where
that is older than two minutes, or nothing, one scan is started in the
background: it asks the wallet for page after page of a history that goes
on growing, and publishes its tally into the epoch it was started in.

The wallet answers a call with the page of its history as it stands, or
the scan fails. `DonationRead` keeps with a tally the histories its calls
have seen, so that two tallies can be compared (`donation_counter`).
-/
import Mathlib.Algebra.Order.BigOperators.Group.List
import Mathlib.Data.List.GetD
import ZcashFaucet.Lib.Run
import ZcashFaucet.Lib.Cells
import ZcashFaucet.Zcash.Donations

namespace ZcashFaucet.Zcash

open Lib

/-! ## The source -/

/-- DONATION_CACHE_MS. -/
def donationCacheMs : ℚ := 120000

/-- What a scan published, and the history at each of its calls. -/
structure DonationRead where
  seen : List (List WalletEntry)
  tally : Option DonationTally

/-- The history at a call, for the calls that were made. -/
def histOf (seen : List (List WalletEntry)) (p : Nat) : List WalletEntry := seen.getD p (seen.getLastD [])

/-- Whether the loop of `donations` goes on after these calls. -/
def asksOn (seen : List (List WalletEntry)) : Bool :=
  decide ((page donationPage (histOf seen) (seen.length - 1)).length = donationPage ∧ seen.length < donationMaxPages)

/-- An answer of `safeDonations`, which is the tally of what it has held: that
and when it was published, and whether a scan was under way. -/
structure DonationAnswer where
  held : Option (DonationRead × ℚ)
  answeredAt : ℚ
  scanning : Bool

structure DonationDesk where
  /-- `donationCache` and `donationRefresh`, one cell for each epoch. -/
  cells : Cells DonationRead
  /-- What the scan of each epoch has seen. -/
  scans : Nat → List (List WalletEntry)
  /-- The wallet's history as it stands. -/
  history : List WalletEntry
  answers : List DonationAnswer

def DonationDesk.boot (clock : ℚ) : DonationDesk := ⟨.cold clock, fun _ => [], [], []⟩

def isFreshDonation (s : DonationDesk) : Bool :=
  s.cells.current.held.any fun d => decide (s.cells.clock - d.2 < donationCacheMs)

/-- What an expired cache leaves under way. -/
def DonationDesk.refreshed (s : DonationDesk) : DonationDesk :=
  if isFreshDonation s ∨ s.cells.current.inflight then s
  else { s with cells := s.cells.start, scans := Function.update s.scans s.cells.number [] }

/-- `safeDonations`. Only zallet can be asked for its receipts. -/
def DonationDesk.safeDonations (sender : String) (s : DonationDesk) : DonationDesk :=
  if sender = "zallet" then
    let s' := s.refreshed
    { s' with answers := s'.answers ++ [⟨s'.cells.current.held, s'.cells.clock, s'.cells.current.inflight⟩] }
  else { s with answers := s.answers ++ [⟨none, s.cells.clock, s.cells.current.inflight⟩] }

/-- A scan that is over publishes into its own epoch, or not at all. -/
def DonationDesk.publish (epoch : Nat) (read : DonationRead) (s : DonationDesk) : DonationDesk :=
  if epoch = s.cells.number then { s with cells := s.cells.store epoch read }
  else { s with cells := s.cells.fail epoch }

variable (lower : LowerCase) (account : JsString)

/-- The scan of an epoch hears the answer to its next call. -/
def DonationDesk.listed (epoch : Nat) (s : DonationDesk) : DonationDesk :=
  let seen := s.scans epoch ++ [s.history]
  if asksOn seen then { s with scans := Function.update s.scans epoch seen }
  else s.publish epoch ⟨seen, publishedTally (donations lower account (walletOf (histOf seen)))⟩

inductive DonationEvent
  | tick (ms : ℚ)
  /-- Transactions of the wallet, before and behind those it has. -/
  | received (front back : List WalletEntry)
  | visit
  | listed (epoch : Nat)
  | failed (epoch : Nat)
  | reset

def DonationDesk.step (sender : String) (s : DonationDesk) : DonationEvent → Option DonationDesk
  | .tick ms => if 0 ≤ ms then some { s with cells := s.cells.tick ms } else none
  | .received front back =>
      if (front ++ s.history ++ back).Nodup then some { s with history := front ++ s.history ++ back } else none
  | .visit => some (s.safeDonations sender)
  | .listed epoch =>
      if epoch ∈ s.cells.flights ∧ account.truthy = true then some (s.listed lower account epoch) else none
  | .failed epoch => if epoch ∈ s.cells.flights then some (s.publish epoch ⟨s.scans epoch, none⟩) else none
  | .reset => some { s with cells := s.cells.reset }

/-! ## What a scan has seen -/

/-- The histories of a scan, each in those after it. -/
structure Saw (seen : List (List WalletEntry)) : Prop where
  grown : seen.Pairwise fun h h' => h <:+: h'
  distinct : ∀ h ∈ seen, h.Nodup

theorem histOf_of_lt {seen : List (List WalletEntry)} {p : Nat} (hp : p < seen.length) : histOf seen p = seen[p] :=
  List.getD_eq_getElem _ _ hp

theorem histOf_of_le {seen : List (List WalletEntry)} {p : Nat} (hp : seen.length ≤ p) :
    histOf seen p = seen.getLastD [] := List.getD_eq_default _ _ hp

theorem histOf_mem {seen : List (List WalletEntry)} (hne : seen ≠ []) (p : Nat) : histOf seen p ∈ seen := by
  rcases Nat.lt_or_ge p seen.length with hp | hp
  · rw [histOf_of_lt hp]
    exact List.getElem_mem hp
  · rw [histOf_of_le hp, List.getLastD_eq_getLast?, List.getLast?_eq_some_getLast hne, Option.getD_some]
    exact List.getLast_mem hne

theorem histOf_append {seen : List (List WalletEntry)} {p : Nat} (hp : p < seen.length) (h : List WalletEntry) :
    histOf (seen ++ [h]) p = histOf seen p := by
  rw [histOf_of_lt hp, histOf_of_lt (by rw [List.length_append]; omega), List.getElem_append_left hp]

theorem Saw.growsAtEnds {seen : List (List WalletEntry)} (h : Saw seen) : GrowsAtEnds (histOf seen) := by
  intro p
  rcases Nat.lt_or_ge (p + 1) seen.length with hp | hp
  · rw [histOf_of_lt hp, histOf_of_lt (Nat.lt_of_succ_lt hp)]
    obtain ⟨front, back, heq⟩ := List.pairwise_iff_getElem.mp h.grown p (p + 1) (by omega) hp (Nat.lt_succ_self p)
    exact ⟨front, back, heq.symm⟩
  · refine ⟨[], [], ?_⟩
    rw [List.nil_append, List.append_nil, histOf_of_le hp]
    rcases Nat.lt_or_ge p seen.length with hlast | hpast
    · have hp' : p = seen.length - 1 := by omega
      rw [histOf_of_lt hlast, List.getLastD_eq_getLast?, List.getLast?_eq_getElem?, ← hp',
        List.getElem?_eq_getElem hlast, Option.getD_some]
    · rw [histOf_of_le hpast]

theorem Saw.nodup {seen : List (List WalletEntry)} (h : Saw seen) (p : Nat) : (histOf seen p).Nodup := by
  cases seen with
  | nil => exact List.nodup_nil
  | cons first rest => exact h.distinct _ (histOf_mem (List.cons_ne_nil _ _) p)

theorem Saw.nil : Saw [] := ⟨List.Pairwise.nil, nofun⟩

theorem Saw.snoc {seen : List (List WalletEntry)} {history : List WalletEntry} (h : Saw seen)
    (hpast : ∀ old ∈ seen, old <:+: history) (hnodup : history.Nodup) : Saw (seen ++ [history]) := by
  refine ⟨List.pairwise_append.mpr ⟨h.grown, List.pairwise_singleton _ _, fun old hold last hlast => ?_⟩,
    fun old hold => ?_⟩
  · obtain rfl := List.mem_singleton.mp hlast
    exact hpast old hold
  · rcases List.mem_append.mp hold with hmem | hlast
    · exact h.distinct old hmem
    · obtain rfl := List.mem_singleton.mp hlast
      exact hnodup

/-- A scan that goes on: every page so far was full. -/
structure GoesOn (seen : List (List WalletEntry)) (history : List WalletEntry) : Prop where
  saw : Saw seen
  past : ∀ h ∈ seen, h <:+: history
  full : ∀ p < seen.length, (page donationPage (histOf seen) p).length = donationPage
  budget : seen.length < donationMaxPages

/-- What a published read is. -/
structure DonationRead.Sound (r : DonationRead) : Prop where
  saw : Saw r.seen
  told : ∀ t, r.tally = some t → donations lower account (walletOf (histOf r.seen)) = .ok (t, true) ∧
    ∀ p, Asked donationPage (histOf r.seen) p ↔ p < r.seen.length

variable {lower account}

theorem page_append {seen : List (List WalletEntry)} {p : Nat} (hp : p < seen.length) (h : List WalletEntry) :
    page donationPage (histOf (seen ++ [h])) p = page donationPage (histOf seen) p := by
  rw [page, page, histOf_append hp]

theorem goesOn_nil (history : List WalletEntry) : GoesOn [] history :=
  ⟨.nil, nofun, nofun, by decide⟩

theorem GoesOn.mono {seen : List (List WalletEntry)} {history history' : List WalletEntry} (h : GoesOn seen history)
    (hgrown : history <:+: history') : GoesOn seen history' :=
  ⟨h.saw, fun old hold => (h.past old hold).trans hgrown, h.full, h.budget⟩

/-- The next call is answered with the history as it stands. -/
theorem GoesOn.past_snoc {seen : List (List WalletEntry)} {history : List WalletEntry} (h : GoesOn seen history) :
    ∀ old ∈ seen ++ [history], old <:+: history := by
  intro old hold
  rcases List.mem_append.mp hold with hmem | hlast
  · exact h.past old hmem
  · obtain rfl := List.mem_singleton.mp hlast
    exact List.infix_refl _

theorem GoesOn.next {seen : List (List WalletEntry)} {history : List WalletEntry} (h : GoesOn seen history)
    (hnodup : history.Nodup) (hmore : asksOn (seen ++ [history]) = true) : GoesOn (seen ++ [history]) history := by
  obtain ⟨hfull, hbudget⟩ := of_decide_eq_true hmore
  have hlength : (seen ++ [history]).length = seen.length + 1 := by
    rw [List.length_append, List.length_singleton]
  refine ⟨h.saw.snoc h.past hnodup, h.past_snoc, fun p hp => ?_, hbudget⟩
  rw [hlength] at hp
  rcases Nat.lt_succ_iff_lt_or_eq.mp hp with hearly | rfl
  · rw [page_append hearly]
    exact h.full p hearly
  · rwa [hlength, Nat.add_sub_cancel] at hfull

/-- A scan that is over has a tally only of the pages it asked for. -/
theorem GoesOn.ended {seen : List (List WalletEntry)} {history : List WalletEntry} (h : GoesOn seen history)
    (hnodup : history.Nodup) (hdone : asksOn (seen ++ [history]) = false) :
    DonationRead.Sound lower account ⟨seen ++ [history],
      publishedTally (donations lower account (walletOf (histOf (seen ++ [history]))))⟩ := by
  refine ⟨h.saw.snoc h.past hnodup, fun t ht => ?_⟩
  have hscan := publishedTally_eq_some_iff.mp ht
  refine ⟨hscan, fun p => ?_⟩
  obtain ⟨-, n, hends⟩ := endsWith_of_donations lower hscan
  have hlength : (seen ++ [history]).length = seen.length + 1 := by
    rw [List.length_append, List.length_singleton]
  have hlast : n = seen.length := by
    rcases Nat.lt_trichotomy n seen.length with hless | heq | hmore
    · have hfull := h.full n hless
      rw [← page_append hless history] at hfull
      exact absurd hends.last (by omega)
    · exact heq
    · have hfull := (hends.asked n).mpr le_rfl seen.length hmore
      have hbudget := hends.budget
      have hnot := of_decide_eq_false hdone
      rw [hlength, Nat.add_sub_cancel] at hnot
      exact absurd ⟨hfull, by omega⟩ hnot
  rw [hends.asked p, hlast, hlength, Nat.lt_succ_iff]

/-! ## Two tallies -/

/-- Whatever one scan has seen is part of whatever the other has. -/
def Before (seen seen' : List (List WalletEntry)) : Prop := ∀ h ∈ seen, ∀ h' ∈ seen', h <:+: h'

namespace DonationRead.Sound

variable {r r' : DonationRead} {t t' : DonationTally}

theorem seen_ne_nil (h : r.Sound lower account) (ht : r.tally = some t) : r.seen ≠ [] :=
  List.ne_nil_of_length_pos (((h.told t ht).2 0).mp fun q hq => absurd hq q.not_lt_zero)

/-- The tally of a scan that ended, in terms of the receipts on its pages. -/
theorem counts (h : r.Sound lower account) (ht : r.tally = some t) :
    (∃ n, EndsWith (histOf r.seen) n) ∧ t.count = (counted lower (entriesRead (histOf r.seen))).length ∧
      t.zat = ((counted lower (entriesRead (histOf r.seen))).map fun c => c.output.worth).sum := by
  obtain ⟨rfl, hends⟩ := endsWith_of_donations lower (h.told t ht).1
  obtain ⟨hcount, hzat⟩ := tallies_tallyDonations lower ((entriesRead (histOf r.seen)).map WalletEntry.tx)
  rw [← map_output_counted] at hcount hzat
  exact ⟨hends, by rw [hcount, List.length_map], by rw [hzat, List.map_map]; rfl⟩

/-- A later tally counts all that an earlier one has counted, if that one
has counted nothing twice. -/
theorem tally_le (hr : r.Sound lower account) (hr' : r'.Sound lower account) (ht : r.tally = some t)
    (ht' : r'.tally = some t') (hlater : Before r.seen r'.seen) (hkept : KeptBehind lower (histOf r.seen)) :
    t.count ≤ t'.count ∧ t.zat ≤ t'.zat := by
  obtain ⟨⟨n, hends⟩, hcount, hzat⟩ := hr.counts ht
  obtain ⟨⟨n', hends'⟩, hcount', hzat'⟩ := hr'.counts ht'
  -- what the earlier scan has read was there when the later one began
  have hsubset : counted lower (entriesRead (histOf r.seen)) ⊆ counted lower (entriesRead (histOf r'.seen)) := by
    intro receipt hreceipt
    obtain ⟨e, he, hmem⟩ := List.mem_flatMap.mp hreceipt
    obtain ⟨p, -, hhist⟩ := hends.mem_hist he
    have hfirst : e ∈ histOf r'.seen 0 :=
      (hlater _ (histOf_mem (hr.seen_ne_nil ht) p) _ (histOf_mem (hr'.seen_ne_nil ht') 0)).subset hhist
    exact List.mem_flatMap.mpr ⟨e, hends'.mem_entriesRead hr'.saw.growsAtEnds hfirst, hmem⟩
  have honce := (hends.nodup_counted_iff hr.saw.growsAtEnds hr.saw.nodup).mpr hkept
  obtain ⟨inner, hperm, hsub⟩ := List.subperm_of_subset honce hsubset
  rw [hcount, hcount', hzat, hzat', ← hperm.length_eq, ← (hperm.map _).sum_eq]
  exact ⟨hsub.length_le, (hsub.map _).sum_le_sum fun _ _ => Nat.zero_le _⟩

end DonationRead.Sound

/-! ## The invariant -/

variable (lower account) in
structure DonationInv (sender : String) (s : DonationDesk) : Prop where
  cells : s.cells.Inv
  distinct : s.history.Nodup
  sound : ∀ d ∈ s.cells.stored, d.value.Sound lower account
  past : ∀ d ∈ s.cells.stored, ∀ h ∈ d.value.seen, h <:+: s.history
  order : s.cells.stored.Pairwise fun d d' => Before d.value.seen d'.value.seen
  scanning : ∀ k ∈ s.cells.flights, GoesOn (s.scans k) s.history
  /-- The scan that may publish began after everything that was published. -/
  newer : s.cells.current.inflight = true → ∀ d ∈ s.cells.stored, Before d.value.seen (s.scans s.cells.number)
  newest : ∀ v, s.cells.current.held = some v → s.cells.stored.getLast? = some ⟨s.cells.number, v.1, v.2⟩
  answered : ∀ a ∈ s.answers, ∀ v, a.held = some v → ∃ d ∈ s.cells.stored, d.value = v.1
  sorted : s.answers.Pairwise fun a b => ∀ v w, a.held = some v → b.held = some w →
    v.1 = w.1 ∨ Before v.1.seen w.1.seen
  due : sender = "zallet" → ∀ a ∈ s.answers,
    a.scanning = true ∨ ∃ v, a.held = some v ∧ a.answeredAt - v.2 < donationCacheMs

namespace DonationInv

variable {sender : String} {s : DonationDesk}

theorem boot (clock : ℚ) : DonationInv lower account sender (.boot clock) :=
  ⟨.cold clock, List.nodup_nil, nofun, nofun, List.Pairwise.nil, nofun, nofun, nofun, nofun, List.Pairwise.nil,
    fun _ => nofun⟩

theorem tick (h : DonationInv lower account sender s) {ms : ℚ} (hms : 0 ≤ ms) :
    DonationInv lower account sender { s with cells := s.cells.tick ms } :=
  ⟨h.cells.tick hms, h.distinct, h.sound, h.past, h.order, h.scanning, h.newer, h.newest, h.answered, h.sorted,
    h.due⟩

theorem received (h : DonationInv lower account sender s) {front back : List WalletEntry}
    (hnodup : (front ++ s.history ++ back).Nodup) :
    DonationInv lower account sender { s with history := front ++ s.history ++ back } :=
  have hgrown : s.history <:+: front ++ s.history ++ back := ⟨front, back, rfl⟩
  ⟨h.cells, hnodup, h.sound, fun d hd old hold => (h.past d hd old hold).trans hgrown, h.order,
    fun k hk => (h.scanning k hk).mono hgrown, h.newer, h.newest, h.answered, h.sorted, h.due⟩

theorem reset (h : DonationInv lower account sender s) :
    DonationInv lower account sender { s with cells := s.cells.reset } := by
  refine ⟨h.cells.reset, h.distinct, h.sound, h.past, h.order, h.scanning, fun hflight => ?_, fun v hv => ?_,
    h.answered, h.sorted, h.due⟩
  · rw [Cells.reset_current] at hflight
    cases hflight
  · rw [Cells.reset_current] at hv
    cases hv

/-- A scan that ends, in its own epoch or in one that was left. -/
theorem publish (h : DonationInv lower account sender s) {k : Nat} (hk : k ∈ s.cells.flights) {r : DonationRead}
    (hr : r.Sound lower account) (hpast : ∀ old ∈ r.seen, old <:+: s.history)
    (hnewer : k = s.cells.number → ∀ d ∈ s.cells.stored, Before d.value.seen r.seen) :
    DonationInv lower account sender (s.publish k r) := by
  unfold DonationDesk.publish
  by_cases hcurrent : k = s.cells.number
  case pos =>
    rw [if_pos hcurrent]
    subst hcurrent
    refine ⟨h.cells.store hk r, h.distinct, fun d hd => ?_, fun d hd => ?_, ?_,
      fun j hj => h.scanning j (List.mem_of_mem_erase hj), fun hflight => ?_, fun v hv => ?_,
      fun a ha v hv => ?_, h.sorted, h.due⟩
    · rcases List.mem_append.mp hd with hold | hnew
      · exact h.sound d hold
      · obtain rfl := List.mem_singleton.mp hnew
        exact hr
    · rcases List.mem_append.mp hd with hold | hnew
      · exact h.past d hold
      · obtain rfl := List.mem_singleton.mp hnew
        exact hpast
    · refine List.pairwise_append.mpr ⟨h.order, List.pairwise_singleton _ _, fun d hd d' hd' => ?_⟩
      obtain rfl := List.mem_singleton.mp hd'
      exact hnewer rfl d hd
    · rw [Cells.store_current] at hflight
      cases hflight
    · rw [Cells.store_current] at hv
      obtain rfl := Option.some.inj hv
      exact List.getLast?_concat
    · obtain ⟨d, hd, heq⟩ := h.answered a ha v hv
      exact ⟨d, List.mem_append_left _ hd, heq⟩
  case neg =>
    rw [if_neg hcurrent]
    refine ⟨h.cells.fail hk, h.distinct, h.sound, h.past, h.order,
      fun j hj => h.scanning j (List.mem_of_mem_erase hj), fun hflight => ?_, fun v hv => ?_,
      h.answered, h.sorted, h.due⟩
    · rw [Cells.fail_current_of_ne hcurrent] at hflight
      exact h.newer hflight
    · rw [Cells.fail_current_of_ne hcurrent] at hv
      exact h.newest v hv

theorem failed (h : DonationInv lower account sender s) {k : Nat} (hk : k ∈ s.cells.flights) :
    DonationInv lower account sender (s.publish k ⟨s.scans k, none⟩) := by
  refine h.publish hk ⟨(h.scanning k hk).saw, fun _ hnone => by cases hnone⟩ (h.scanning k hk).past ?_
  rintro rfl
  exact h.newer (h.cells.inflight_of_mem hk)

/-- The call that is answered sees the history as it stands. -/
theorem listed (h : DonationInv lower account sender s) {k : Nat} (hk : k ∈ s.cells.flights) :
    DonationInv lower account sender (s.listed lower account k) := by
  have hgoes := h.scanning k hk
  have hbefore : k = s.cells.number → ∀ d ∈ s.cells.stored, Before d.value.seen (s.scans k ++ [s.history]) := by
    rintro rfl d hd old hold seen hseen
    rcases List.mem_append.mp hseen with hearly | hlast
    · exact h.newer (h.cells.inflight_of_mem hk) d hd old hold seen hearly
    · obtain rfl := List.mem_singleton.mp hlast
      exact h.past d hd old hold
  unfold DonationDesk.listed
  dsimp only
  cases hmore : asksOn (s.scans k ++ [s.history]) with
  | false =>
    rw [if_neg Bool.false_ne_true]
    exact h.publish hk (hgoes.ended h.distinct hmore) hgoes.past_snoc hbefore
  | true =>
    rw [if_pos rfl]
    refine ⟨h.cells, h.distinct, h.sound, h.past, h.order, fun j hj => ?_, fun hflight d hd => ?_, h.newest,
      h.answered, h.sorted, h.due⟩
    · by_cases hjk : j = k
      · subst hjk
        simp only [Function.update_self]
        exact hgoes.next h.distinct hmore
      · simp only [Function.update_of_ne hjk]
        exact h.scanning j hj
    · by_cases hcurrent : s.cells.number = k
      · simp only [hcurrent, Function.update_self]
        exact hbefore hcurrent.symm d hd
      · simp only [Function.update_of_ne hcurrent]
        exact h.newer hflight d hd

theorem refreshed (h : DonationInv lower account sender s) : DonationInv lower account sender s.refreshed := by
  unfold DonationDesk.refreshed
  split
  case isTrue => exact h
  case isFalse hstale =>
    have hidle : ¬ s.cells.current.inflight = true := fun hflight => hstale (.inr hflight)
    refine ⟨h.cells.start, h.distinct, ?_, ?_, ?_, fun k hk => ?_, fun _ d hd => ?_, fun v hv => ?_, ?_, h.sorted,
      h.due⟩
    · rw [Cells.start_stored]
      exact h.sound
    · rw [Cells.start_stored]
      exact h.past
    · rw [Cells.start_stored]
      exact h.order
    · dsimp only
      rcases Cells.mem_flights_start hk with hold | ⟨rfl, -⟩
      · have hother : k ≠ s.cells.number := by
          rintro rfl
          exact hidle (h.cells.inflight_of_mem hold)
        rw [Function.update_of_ne hother]
        exact h.scanning k hold
      · rw [Function.update_self]
        exact goesOn_nil _
    · rw [Cells.start_number]
      dsimp only
      rw [Function.update_self]
      exact fun _ _ _ hnone => absurd hnone List.not_mem_nil
    · rw [Cells.start_held] at hv
      rw [Cells.start_stored, Cells.start_number]
      exact h.newest v hv
    · rw [Cells.start_stored]
      exact h.answered

end DonationInv

/-- What a page finds expired is being refreshed when it is answered. -/
theorem refreshed_due (s : DonationDesk) : s.refreshed.cells.current.inflight = true ∨
    ∃ v, s.refreshed.cells.current.held = some v ∧ s.refreshed.cells.clock - v.2 < donationCacheMs := by
  unfold DonationDesk.refreshed
  split
  case isTrue hfresh =>
    rcases hfresh with hfresh | hflight
    · unfold isFreshDonation at hfresh
      cases hheld : s.cells.current.held with
      | none =>
        rw [hheld] at hfresh
        cases hfresh
      | some v =>
        rw [hheld] at hfresh
        exact .inr ⟨v, rfl, of_decide_eq_true hfresh⟩
    · exact .inl hflight
  case isFalse =>
    exact .inl (by rw [Cells.start_current])

namespace DonationInv

variable {sender : String} {s : DonationDesk}

/-- What the current cell holds was published last. -/
theorem before_held (h : DonationInv lower account sender s) {v : DonationRead × ℚ}
    (hv : s.cells.current.held = some v) {d : Stored DonationRead} (hd : d ∈ s.cells.stored) :
    d.value = v.1 ∨ Before d.value.seen v.1.seen := by
  obtain ⟨older, hstored⟩ := List.getLast?_eq_some_iff.mp (h.newest v hv)
  have horder := h.order
  rw [hstored] at hd horder
  rcases List.mem_append.mp hd with hold | hlast
  · exact .inr ((List.pairwise_append.mp horder).2.2 d hold _ (List.mem_singleton_self _))
  · obtain rfl := List.mem_singleton.mp hlast
    exact .inl rfl

/-- One more answer, which shows what the cell holds or nothing. -/
theorem answer (h : DonationInv lower account sender s) {a : DonationAnswer}
    (hheld : ∀ v, a.held = some v → s.cells.current.held = some v)
    (hdue : sender = "zallet" → a.scanning = true ∨
      ∃ v, a.held = some v ∧ a.answeredAt - v.2 < donationCacheMs) :
    DonationInv lower account sender { s with answers := s.answers ++ [a] } := by
  refine ⟨h.cells, h.distinct, h.sound, h.past, h.order, h.scanning, h.newer, h.newest, fun b hb v hv => ?_, ?_,
    fun hsender b hb => ?_⟩
  · rcases List.mem_append.mp hb with hold | hnew
    · exact h.answered b hold v hv
    · obtain rfl := List.mem_singleton.mp hnew
      exact ⟨_, List.mem_of_getLast? (h.newest v (hheld v hv)), rfl⟩
  · refine List.pairwise_append.mpr ⟨h.sorted, List.pairwise_singleton _ _, fun b hb b' hb' v w hv hw => ?_⟩
    obtain rfl := List.mem_singleton.mp hb'
    obtain ⟨d, hd, heq⟩ := h.answered b hb v hv
    rw [← heq]
    exact h.before_held (hheld w hw) hd
  · rcases List.mem_append.mp hb with hold | hnew
    · exact h.due hsender b hold
    · obtain rfl := List.mem_singleton.mp hnew
      exact hdue hsender

theorem visit (h : DonationInv lower account sender s) : DonationInv lower account sender (s.safeDonations sender) := by
  unfold DonationDesk.safeDonations
  split
  case isTrue => exact h.refreshed.answer (fun _ hv => hv) fun _ => refreshed_due s
  case isFalse hother => exact h.answer (fun _ hv => by cases hv) fun hsender => absurd hsender hother

theorem step (h : DonationInv lower account sender s) {e : DonationEvent} {s' : DonationDesk}
    (hstep : s.step lower account sender e = some s') : DonationInv lower account sender s' := by
  cases e with
  | tick ms =>
    obtain ⟨hms, hnext⟩ := Option.ite_none_right_eq_some.mp hstep
    obtain rfl := Option.some.inj hnext
    exact h.tick hms
  | received front back =>
    obtain ⟨hnodup, hnext⟩ := Option.ite_none_right_eq_some.mp hstep
    obtain rfl := Option.some.inj hnext
    exact h.received hnodup
  | visit =>
    obtain rfl := Option.some.inj hstep
    exact h.visit
  | listed k =>
    obtain ⟨⟨hk, -⟩, hnext⟩ := Option.ite_none_right_eq_some.mp hstep
    obtain rfl := Option.some.inj hnext
    exact h.listed hk
  | failed k =>
    obtain ⟨hk, hnext⟩ := Option.ite_none_right_eq_some.mp hstep
    obtain rfl := Option.some.inj hnext
    exact h.failed hk
  | reset =>
    obtain rfl := Option.some.inj hstep
    exact h.reset

theorem of_run {clock : ℚ} {es : List DonationEvent}
    (hrun : run (DonationDesk.step lower account sender) (.boot clock) es = some s) :
    DonationInv lower account sender s :=
  run_invariant (DonationInv lower account sender) (fun _ _ _ h hstep => h.step hstep) (.boot clock) hrun

end DonationInv

/-! ## Every run -/

/-- What a tally says of the wallet: it counts the receipts of the entries
its calls were answered with, all of them gifts the wallet has, and no entry
that was there at its first call is left out. -/
structure TellsOf (lower : LowerCase) (seen : List (List WalletEntry)) (history : List WalletEntry)
    (t : DonationTally) : Prop where
  calls : ∀ p, Asked donationPage (histOf seen) p ↔ p < seen.length
  count : t.count = (counted lower (entriesRead (histOf seen))).length
  zat : t.zat = ((counted lower (entriesRead (histOf seen))).map fun r => r.output.worth).sum
  gifts : ∀ r ∈ counted lower (entriesRead (histOf seen)),
    IsDonation lower r.entry.tx r.output ∧ r.entry ∈ history
  whole : ∀ e ∈ histOf seen 0, e ∈ entriesRead (histOf seen)

/-- **The counter.** A page that finds the counter expired, or none, leaves a
scan under way. A tally it shows is that of a whole scan. And of two tallies
that are shown the later one is not the smaller, unless the scan of the
earlier one has read a donation twice. -/
theorem donation_counter {sender : String} {clock : ℚ} {es : List DonationEvent} {s : DonationDesk}
    (hrun : run (DonationDesk.step lower account sender) (.boot clock) es = some s) :
    (∀ a ∈ s.answers,
      (sender = "zallet" → a.scanning = true ∨ ∃ v, a.held = some v ∧ a.answeredAt - v.2 < donationCacheMs) ∧
        ∀ v t, a.held = some v → v.1.tally = some t → TellsOf lower v.1.seen s.history t) ∧
      s.answers.Pairwise fun a b => ∀ v w t t', a.held = some v → b.held = some w → v.1.tally = some t →
        w.1.tally = some t' → KeptBehind lower (histOf v.1.seen) → t.count ≤ t'.count ∧ t.zat ≤ t'.zat := by
  have hinv : DonationInv lower account sender s := .of_run hrun
  refine ⟨fun a ha => ⟨fun hsender => hinv.due hsender a ha, fun v t hv ht => ?_⟩, hinv.sorted.imp_of_mem ?_⟩
  · obtain ⟨d, hd, heq⟩ := hinv.answered a ha v hv
    rw [← heq] at ht ⊢
    obtain ⟨⟨n, hends⟩, hcount, hzat⟩ := (hinv.sound d hd).counts ht
    refine ⟨((hinv.sound d hd).told t ht).2, hcount, hzat, fun r hr => ?_,
      fun e he => hends.mem_entriesRead (hinv.sound d hd).saw.growsAtEnds he⟩
    obtain ⟨e, he, hmem⟩ := List.mem_flatMap.mp hr
    obtain ⟨rfl, -, hdonation, -⟩ := mem_receipts.mp hmem
    obtain ⟨p, -, hhist⟩ := hends.mem_hist he
    exact ⟨hdonation, (hinv.past d hd _ (histOf_mem ((hinv.sound d hd).seen_ne_nil ht) p)).subset hhist⟩
  · intro a b ha hb hsorted v w t t' hv hw ht ht' hkept
    obtain ⟨d, hd, heq⟩ := hinv.answered a ha v hv
    obtain ⟨d', hd', heq'⟩ := hinv.answered b hb w hw
    rcases hsorted v w hv hw with hsame | hlater
    · rw [hsame, ht'] at ht
      obtain rfl := Option.some.inj ht
      exact ⟨le_rfl, le_rfl⟩
    · exact (heq ▸ hinv.sound d hd).tally_le (heq' ▸ hinv.sound d' hd') ht ht' hlater hkept

/-- A gift is counted and shown, a second one arrives, and the counter expires. -/
def giftVisits : List DonationEvent :=
  [.received [] [⟨7, giftTx⟩], .visit, .listed 0, .tick 60000, .visit, .received [] [⟨8, giftTx⟩], .tick 60000,
    .visit, .listed 0, .visit]

/-- The tally an answer shows. -/
def DonationAnswer.shown (a : DonationAnswer) : Option (Nat × Nat) :=
  a.held.bind fun v => v.1.tally.map fun t => (t.count, t.zat)

/-- Two tallies, the later one with both gifts. -/
theorem donation_counter_gift :
    ∃ s, run (DonationDesk.step foldOnly (js "uuid") "zallet") (.boot 0) giftVisits = some s ∧
      s.answers.map DonationAnswer.shown = [none, some (1, 1000000), some (1, 1000000), some (2, 2000000)] ∧
      (∀ a ∈ s.answers, (a.scanning = true ∨ ∃ v, a.held = some v ∧ a.answeredAt - v.2 < donationCacheMs) ∧
        ∀ v t, a.held = some v → v.1.tally = some t → TellsOf foldOnly v.1.seen s.history t) ∧
      s.answers.Pairwise fun a b => ∀ v w t t', a.held = some v → b.held = some w → v.1.tally = some t →
        w.1.tally = some t' → t.count ≤ t'.count ∧ t.zat ≤ t'.zat := by
  have heval : (run (DonationDesk.step foldOnly (js "uuid") "zallet") (.boot 0) giftVisits).map (fun s =>
      (s.answers.map DonationAnswer.shown, s.answers.all fun a => a.held.all fun v => v.1.seen.length == 1)) =
        some ([none, some (1, 1000000), some (1, 1000000), some (2, 2000000)], true) := by
    decide +kernel
  obtain ⟨s, hrun, heq⟩ := Option.map_eq_some_iff.mp heval
  obtain ⟨hshown, hone⟩ := Prod.mk.inj heq
  obtain ⟨htold, hsorted⟩ := donation_counter hrun
  refine ⟨s, hrun, hshown, fun a ha => ⟨(htold a ha).1 rfl, (htold a ha).2⟩, hsorted.imp_of_mem ?_⟩
  intro a b ha _ hlater v w t t' hv hw ht ht'
  -- every scan of this run is over with its first page
  have hseen : v.1.seen.length = 1 := by
    have hall := List.all_eq_true.mp hone a ha
    rw [hv] at hall
    exact eq_of_beq hall
  have hcalls := ((htold a ha).2 v t hv ht).calls
  refine hlater v w t t' hv hw ht ht' fun p hp q hq => ?_
  have hfirst : p < 1 := hseen ▸ (hcalls p).mp hp
  exact absurd (hq.trans_le (Nat.le_of_lt_succ hfirst)) (Nat.not_lt_zero q)

end ZcashFaucet.Zcash
