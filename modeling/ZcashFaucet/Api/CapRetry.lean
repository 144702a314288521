/-
ZcashFaucet.Api.CapRetry — when a refusal of the daily cap tells the
visitor to come back.

The cap counts a row up to and including the instant it expires
(`created_at >= cut`), where the cooldown has let it go by then
(`created_at > cut`). CAP_WINDOW_SQL answers with the earliest expiry
itself, so at the time it names every row is still counted, and the
request is refused once more (`cap_retry_refused_again`). Only the floor
of one second in `whyBlocked` carries the answer past an expiry, when
there is one less than a second away (`cap_retry_sufficient_iff`).
-/
import ZcashFaucet.Api.FaucetRoute
import ZcashFaucet.Db.WhyBlocked

namespace ZcashFaucet.Api

open Db

/-! ## The refusal -/

/-- `apiError` of a refused reservation. `nextAt` is the time value of
the `Date` the route prints, in milliseconds. -/
structure ReservationRefusal where
  error : ApiError
  scope : Option BlockScope
  retryAfterSeconds : Option ℚ
  nextAt : Option ℚ

/-- A subnet's retry is a fixed hour and names no clock time. -/
def Blocked.measured (b : Blocked) : Bool := b.kind == .cooldown || b.kind == .cap

def blockKindText : BlockKind → String
  | .cooldown => "cooldown"
  | .cap => "cap"
  | .subnet => "subnet"

def nextAt (now : ℚ) (b : Blocked) : Option ℚ :=
  if Blocked.measured b then b.retryAfterSeconds.map fun retry => (now + retry) * 1000 else none

/-- What `POST /api/faucet` answers when the reservation is refused. -/
def reservationRefusal (now : ℚ) (b : Blocked) : ReservationRefusal where
  error :=
    { status := if b.kind = .cap then 503 else 429
      message := b.reason
      code := if b.kind = .cap then "dailyCap" else "cooldown"
      kind := some (blockKindText b.kind) }
  scope := b.scope
  retryAfterSeconds := b.retryAfterSeconds
  nextAt := nextAt now b

/-! ## What the cap counts -/

/-- The cap counts the row at `now`. -/
def capCounts (cfg : LedgerConfig) (o : ReserveOpts) (now : ℚ) (r : ClaimRow) : Bool :=
  r.network == o.network && r.liveSince (now - 86400) (now - cfg.pendingLease)

/-- When a row leaves the window of the cap. -/
def capExpiry (cfg : LedgerConfig) (r : ClaimRow) : ℚ := r.expiry 86400 cfg.pendingLease

/-- The sum the cap compares, at `now`. -/
def capSpent (cfg : LedgerConfig) (o : ReserveOpts) (now : ℚ) (claims : List ClaimRow) : Nat :=
  ((claims.filter (capCounts cfg o now)).map ClaimRow.amountZat).sum

/-- A row is counted up to its expiry, and at it. -/
theorem liveSince_iff (r : ClaimRow) (now sentFor pendingFor : ℚ) :
    r.liveSince (now - sentFor) (now - pendingFor) = true ↔
      r.status ≠ .failed ∧ now ≤ r.expiry sentFor pendingFor := by
  cases hs : r.status with
  | pending => simp [ClaimRow.liveSince, ClaimRow.expiry, hs]
  | sent => simp [ClaimRow.liveSince, ClaimRow.expiry, hs]
  | failed => simp [ClaimRow.liveSince, hs]

section
variable {cfg : LedgerConfig} {o : ReserveOpts} {now later : ℚ} {r : ClaimRow}
  {claims : List ClaimRow}

theorem le_capExpiry (h : capCounts cfg o now r = true) : now ≤ capExpiry cfg r := by
  simp only [capCounts, Bool.and_eq_true, liveSince_iff] at h
  exact h.2.2

/-- A row that counts now counts at any other time up to its expiry. -/
theorem capCounts_until (h : capCounts cfg o now r = true) (hle : later ≤ capExpiry cfg r) :
    capCounts cfg o later r = true := by
  simp only [capCounts, Bool.and_eq_true, liveSince_iff] at h ⊢
  exact ⟨h.1, h.2.1, hle⟩

/-- Time only takes rows out of the sum. -/
theorem capCounts_earlier (hle : now ≤ later) (h : capCounts cfg o later r = true) :
    capCounts cfg o now r = true :=
  capCounts_until h (hle.trans (le_capExpiry h))

theorem capClear_at (now : ℚ) (claims : List ClaimRow) :
    capClear (reserveClaimParams cfg (o.at now)) claims =
      decide (capSpent cfg o now claims + o.amountZat ≤ o.dailyCapZat) := rfl

/-- A row that `p` counts and `q` does not is what the two sums differ by, at least. -/
theorem sum_filter_add_le {α : Type} {p q : α → Bool} (weight : α → Nat) {x : α}
    (hqp : ∀ a, q a = true → p a = true) (hp : p x = true) (hq : q x = false) :
    ∀ {l : List α}, x ∈ l →
      ((l.filter q).map weight).sum + weight x ≤ ((l.filter p).map weight).sum := by
  have hmono : ∀ l : List α, ((l.filter q).map weight).sum ≤ ((l.filter p).map weight).sum := by
    intro l
    induction l with
    | nil => simp
    | cons a rest ih =>
      cases hqa : q a with
      | true => simpa [hqa, hqp a hqa] using ih
      | false => cases hpa : p a <;> simp [hqa, hpa] <;> omega
  intro l hx
  induction l with
  | nil => cases hx
  | cons a rest ih =>
    rcases List.mem_cons.mp hx with rfl | hrest
    · have := hmono rest
      simp [hp, hq]
      omega
    · have := ih hrest
      cases hqa : q a with
      | true =>
        simp [hqa, hqp a hqa]
        omega
      | false => cases hpa : p a <;> simp [hqa, hpa] <;> omega

/-- Once a counted drip has left, the cap has room for one. -/
theorem capSpent_of_expired (hle : now ≤ later) (hr : r ∈ claims)
    (hcount : capCounts cfg o now r = true) (hgone : capExpiry cfg r < later) :
    capSpent cfg o later claims + r.amountZat ≤ capSpent cfg o now claims := by
  have hout : capCounts cfg o later r = false := by
    rw [← Bool.not_eq_true]
    exact fun h => absurd (le_capExpiry h) (not_le.mpr hgone)
  exact sum_filter_add_le (p := capCounts cfg o now) (q := capCounts cfg o later) ClaimRow.amountZat
    (fun _ => capCounts_earlier hle) hcount hout hr

/-- Until the first of them does, the sum is what it was. -/
theorem capSpent_of_all_counted (hle : now ≤ later)
    (hall : ∀ r ∈ claims, capCounts cfg o now r = true → later ≤ capExpiry cfg r) :
    capSpent cfg o later claims = capSpent cfg o now claims := by
  have hfilter : claims.filter (capCounts cfg o later) = claims.filter (capCounts cfg o now) := by
    refine List.filter_congr fun r hr => ?_
    rw [Bool.eq_iff_iff]
    exact ⟨capCounts_earlier hle, fun h => capCounts_until h (hall r hr h)⟩
  rw [capSpent, hfilter, capSpent]

end

/-! ## The other clauses stay clear -/

section
variable {cfg : LedgerConfig} {o : ReserveOpts} {later : ℚ} {claims : List ClaimRow}

theorem ipClear_later (hle : o.now ≤ later)
    (h : ipClear (reserveClaimParams cfg o) claims = true) :
    ipClear (reserveClaimParams cfg (o.at later)) claims = true := by
  change ipClear (reserveClaimParams cfg (o.at o.now)) claims = true at h
  rw [ipClear_at, Bool.or_eq_true, decide_eq_true_eq] at h ⊢
  refine h.imp_right fun h => lt_of_le_of_lt ?_ h
  exact List.countP_mono_left fun _ _ => holds_earlier hle

theorem subnetClear_later (hle : o.now ≤ later)
    (h : subnetClear (reserveClaimParams cfg o) claims = true) :
    subnetClear (reserveClaimParams cfg (o.at later)) claims = true := by
  simp only [subnetClear, Bool.or_eq_true, decide_eq_true_eq] at h ⊢
  refine h.imp_right fun h => lt_of_le_of_lt (List.countP_mono_left fun r _ hr => ?_) h
  rw [Bool.and_eq_true] at hr ⊢
  refine ⟨hr.1, ?_⟩
  have hlive : r.liveSince (later - 86400) (later - cfg.pendingLease) = true := hr.2
  change r.liveSince (o.now - 86400) (o.now - cfg.pendingLease) = true
  rw [liveSince_iff] at hlive ⊢
  exact ⟨hlive.1, hle.trans hlive.2⟩

end

/-! ## The answer and the time it names -/

/-- What an answer of kind 'cap' has read: the earliest expiry of the
rows the cap counts, and that the clauses of the other rules hold. -/
theorem whyBlocked_cap {cfg : LedgerConfig} {o : ReserveOpts} {claims : List ClaimRow}
    (h : (whyBlocked cfg o claims).kind = .cap) (hip : 1 ≤ o.ipDailyMax) :
    (whyBlocked cfg o claims).retryAfterSeconds =
        (((claims.filter (capCounts cfg o o.now)).map (capExpiry cfg)).min?).map
          (fun freesAt => max 1 (freesAt - o.now)) ∧
      addressClear (reserveClaimParams cfg o) claims = true ∧
      ipClear (reserveClaimParams cfg o) claims = true ∧
      subnetClear (reserveClaimParams cfg o) claims = true := by
  refine ⟨?_, ?_⟩
  · revert h
    simp only [whyBlocked]
    split
    · exact fun h => by cases h
    · split
      · exact fun h => by cases h
      · split
        · exact fun h => by cases h
        · exact fun _ => rfl
  · have hrule : (whyBlocked cfg o claims).rule = some .cap := by rw [Blocked.rule, h]
    rcases whyBlocked_cases cfg o claims with
      ⟨hrule', _⟩ | ⟨hrule', _⟩ | ⟨hrule', _⟩ | ⟨_, haddr, hconn, hsub⟩
    case inr.inr.inr => exact ⟨haddr, hconn hip, hsub⟩
    all_goals
      rw [hrule] at hrule'
      cases hrule'

/-- The cap lets the request through at `now + retryAfterSeconds`, and at
the clock time the page prints the claim succeeds. -/
def RetrySuffices (cfg : LedgerConfig) (o : ReserveOpts) (l : Ledger) (b : Blocked) : Prop :=
  (∀ retry, b.retryAfterSeconds = some retry →
      capClear (reserveClaimParams cfg (o.at (o.now + retry))) l.claims = true) ∧
    ∀ ms, (reservationRefusal o.now b).nextAt = some ms →
      ∃ claimId, (reserveClaim cfg (o.at (ms / 1000)) l).2 = .ok claimId

/-- A refusal that the cap alone is behind, where what it counts are
drips of the requested size and one drip less would let the request in. -/
structure CapRefusal (cfg : LedgerConfig) (o : ReserveOpts) (l : Ledger) (b : Blocked) : Prop where
  refused : (reserveClaim cfg o l).2 = .error b
  kind : b.kind = .cap
  sameAmount : ∀ r ∈ l.claims, capCounts cfg o o.now r = true → r.amountZat = o.amountZat
  exceeds : o.dailyCapZat < capSpent cfg o o.now l.claims + o.amountZat
  byOneDrip : capSpent cfg o o.now l.claims + o.amountZat ≤ o.dailyCapZat + o.amountZat

section
variable {cfg : LedgerConfig} {o : ReserveOpts} {l : Ledger} {b : Blocked}

/-- With the cap clear, nothing else stands in the way of the claim. -/
theorem CapRefusal.succeeds (h : CapRefusal cfg o l b) (hip : 1 ≤ o.ipDailyMax) {later : ℚ}
    (hle : o.now ≤ later)
    (hcap : capClear (reserveClaimParams cfg (o.at later)) l.claims = true) :
    ∃ claimId, (reserveClaim cfg (o.at later) l).2 = .ok claimId := by
  obtain ⟨rfl, -⟩ := reserveClaim_error h.refused
  obtain ⟨-, haddr, hconn, hsub⟩ := whyBlocked_cap h.kind hip
  have hallowed : reserveAllowed (reserveClaimParams cfg (o.at later)) l.claims = true :=
    reserveAllowed_iff.mpr
      ⟨addressClear_later hle haddr, ipClear_later hle hconn, subnetClear_later hle hsub, hcap⟩
  rcases reserveClaim_cases cfg (o.at later) l with ⟨_, heq⟩ | ⟨hrefused, _⟩
  · exact ⟨_, by rw [heq]⟩
  · rw [hallowed] at hrefused
    cases hrefused

/-- At an expiry itself nothing has left the sum, so a wait that ends
there ends in a refusal. -/
theorem cap_retry_refused_again (h : CapRefusal cfg o l b) {later : ℚ} (hle : o.now ≤ later)
    (hall : ∀ r ∈ l.claims, capCounts cfg o o.now r = true → later ≤ capExpiry cfg r) :
    capClear (reserveClaimParams cfg (o.at later)) l.claims = false := by
  rw [capClear_at, capSpent_of_all_counted hle hall, decide_eq_false_iff_not, not_le]
  exact h.exceeds

/-- Past the expiry of one row there is room. -/
theorem cap_retry_has_room (h : CapRefusal cfg o l b) {later : ℚ} (hle : o.now ≤ later)
    {r : ClaimRow} (hr : r ∈ l.claims) (hcount : capCounts cfg o o.now r = true)
    (hgone : capExpiry cfg r < later) :
    capClear (reserveClaimParams cfg (o.at later)) l.claims = true := by
  have hfreed := capSpent_of_expired hle hr hcount hgone
  have hroom := h.byOneDrip
  rw [h.sameAmount r hr hcount] at hfreed
  rw [capClear_at, decide_eq_true_eq]
  omega

/-- The wait that the answer names: till the first expiry, and a second at
least. Where nothing is counted it names none. -/
theorem CapRefusal.retry_cases (h : CapRefusal cfg o l b) (hip : 1 ≤ o.ipDailyMax) :
    (∀ r ∈ l.claims, capCounts cfg o o.now r = false) ∧ b.retryAfterSeconds = none ∨
      ∃ r ∈ l.claims, capCounts cfg o o.now r = true ∧
        (∀ r' ∈ l.claims, capCounts cfg o o.now r' = true → capExpiry cfg r ≤ capExpiry cfg r') ∧
        b.retryAfterSeconds = some (max 1 (capExpiry cfg r - o.now)) := by
  obtain ⟨rfl, -⟩ := reserveClaim_error h.refused
  obtain ⟨hretry, -⟩ := whyBlocked_cap h.kind hip
  cases hfirst : ((l.claims.filter (capCounts cfg o o.now)).map (capExpiry cfg)).min? with
  | none =>
    rw [hfirst, Option.map_none] at hretry
    rw [List.min?_eq_none_iff, List.map_eq_nil_iff, List.filter_eq_nil_iff] at hfirst
    exact Or.inl ⟨fun r hr => Bool.not_eq_true _ ▸ hfirst r hr, hretry⟩
  | some first =>
    rw [hfirst, Option.map_some] at hretry
    obtain ⟨hmem, hleast⟩ := List.min?_eq_some_iff.mp hfirst
    obtain ⟨r, hr, rfl⟩ := List.mem_map.mp hmem
    obtain ⟨hrow, hcount⟩ := List.mem_filter.mp hr
    refine Or.inr ⟨r, hrow, hcount, ?_, hretry⟩
    exact fun r' hr' hcount' => hleast _ (List.mem_map_of_mem (List.mem_filter.mpr ⟨hr', hcount'⟩))

/-- And the clock time that the page prints for it. -/
theorem CapRefusal.nextAt_eq (h : CapRefusal cfg o l b) :
    (reservationRefusal o.now b).nextAt = b.retryAfterSeconds.map fun retry => (o.now + retry) * 1000 := by
  simp [reservationRefusal, nextAt, Blocked.measured, h.kind]

/-- Room at the end of the wait is all it takes. -/
theorem CapRefusal.suffices_of_room (h : CapRefusal cfg o l b) (hip : 1 ≤ o.ipDailyMax) {wait : ℚ}
    (hretry : b.retryAfterSeconds = some wait) (hwait : 0 ≤ wait)
    (hroom : capClear (reserveClaimParams cfg (o.at (o.now + wait))) l.claims = true) :
    RetrySuffices cfg o l b := by
  constructor
  · intro retry hsome
    rw [hretry] at hsome
    cases hsome
    exact hroom
  · intro ms hsome
    rw [h.nextAt_eq, hretry] at hsome
    cases hsome
    rw [mul_div_cancel_right₀ _ (by norm_num)]
    exact h.succeeds hip (by linarith) hroom

end

/-- **When the time on the page is right.** It is when the cap counts no
row at all, so that no time is printed, or when a counted row leaves the
window within the second. -/
theorem cap_retry_sufficient_iff (cfg : LedgerConfig) (o : ReserveOpts) (l : Ledger) (b : Blocked)
    (hip : 1 ≤ o.ipDailyMax) (h : CapRefusal cfg o l b) :
    RetrySuffices cfg o l b ↔
      (∀ r ∈ l.claims, capCounts cfg o o.now r = false) ∨
        ∃ r ∈ l.claims, capCounts cfg o o.now r = true ∧ capExpiry cfg r < o.now + 1 := by
  rcases h.retry_cases hip with ⟨hempty, hretry⟩ | ⟨r, hrow, hcount, hearliest, hretry⟩
  · refine iff_of_true ⟨?_, ?_⟩ (Or.inl hempty)
    · intro retry hsome
      rw [hretry] at hsome
      cases hsome
    · intro ms hsome
      rw [h.nextAt_eq, hretry] at hsome
      cases hsome
  · have hpos : (0 : ℚ) ≤ max 1 (capExpiry cfg r - o.now) := le_max_of_le_left zero_le_one
    have hle : o.now ≤ o.now + max 1 (capExpiry cfg r - o.now) := by linarith
    constructor
    · intro hsuffices
      refine Or.inr ⟨r, hrow, hcount, ?_⟩
      by_contra hfar
      rw [not_lt] at hfar
      have hwait : max 1 (capExpiry cfg r - o.now) = capExpiry cfg r - o.now :=
        max_eq_right (by linarith)
      have hclear := hsuffices.1 _ hretry
      rw [cap_retry_refused_again h hle fun r' hr' hcount' => ?_] at hclear
      · cases hclear
      · rw [hwait, add_sub_cancel]
        exact hearliest r' hr' hcount'
    · rintro (hnone | ⟨r', hr', hcount', hsoon⟩)
      · rw [hnone r hrow] at hcount
        cases hcount
      · have hwait : max 1 (capExpiry cfg r - o.now) = 1 := by
          refine max_eq_left ?_
          linarith [hearliest r' hr' hcount']
        have hgone : capExpiry cfg r' < o.now + max 1 (capExpiry cfg r - o.now) := by
          rwa [hwait]
        exact h.suffices_of_room hip hretry hpos (cap_retry_has_room h hle hr' hcount' hgone)

/-- A full cap: three drips, an hour apart. -/
def threeDrips : Ledger where
  claims :=
    [ { id := 3, addressHash := "c", ipHash := "", amountZat := 100, txid := none,
        status := .sent, createdAt := 1800007200, subnetHash := some "", network := .taz },
      { id := 2, addressHash := "b", ipHash := "", amountZat := 100, txid := none,
        status := .sent, createdAt := 1800003600, subnetHash := some "", network := .taz },
      { id := 1, addressHash := "a", ipHash := "", amountZat := 100, txid := none,
        status := .sent, createdAt := 1800000000, subnetHash := some "", network := .taz } ]
  nextId := 4
  dripDays := []

/-- The fourth, an hour after the third. -/
def fourthDrip : ReserveOpts where
  address := "d"
  ipHash := none
  subnetHash := none
  amountZat := 100
  now := 1800010800
  cooldownSeconds := 86400
  dailyCapZat := 300
  subnetDailyMax := 20

theorem fourthDrip_refused : CapRefusal stockConfig fourthDrip threeDrips
    (whyBlocked stockConfig fourthDrip threeDrips.claims) where
  refused := by decide +kernel
  kind := by decide +kernel
  sameAmount := by decide +kernel
  exceeds := by decide +kernel
  byOneDrip := by decide +kernel

/-- The fourth is told 21 hours, and after 21 hours it is refused again. -/
theorem cap_retry_insufficient :
    CapRefusal stockConfig fourthDrip threeDrips
        (whyBlocked stockConfig fourthDrip threeDrips.claims) ∧
      (whyBlocked stockConfig fourthDrip threeDrips.claims).retryAfterSeconds = some 75600 ∧
      capClear (reserveClaimParams stockConfig (fourthDrip.at (fourthDrip.now + 75600)))
        threeDrips.claims = false ∧
      ¬ RetrySuffices stockConfig fourthDrip threeDrips
        (whyBlocked stockConfig fourthDrip threeDrips.claims) := by
  have hretry : (whyBlocked stockConfig fourthDrip threeDrips.claims).retryAfterSeconds =
      some 75600 := by decide +kernel
  have hcap : capClear (reserveClaimParams stockConfig (fourthDrip.at (fourthDrip.now + 75600)))
      threeDrips.claims = false := by decide +kernel
  refine ⟨fourthDrip_refused, hretry, hcap, fun hsuffices => ?_⟩
  have hclear := hsuffices.1 _ hretry
  rw [hcap] at hclear
  cases hclear

/-- In the very second in which the first drip leaves, the answer is one
second, and it is right. -/
theorem cap_retry_sufficient_iff_lastSecond :
    RetrySuffices stockConfig (fourthDrip.at 1800086400) threeDrips
      (whyBlocked stockConfig (fourthDrip.at 1800086400) threeDrips.claims) := by
  have hrefused : CapRefusal stockConfig (fourthDrip.at 1800086400) threeDrips
      (whyBlocked stockConfig (fourthDrip.at 1800086400) threeDrips.claims) :=
    ⟨by decide +kernel, by decide +kernel, by decide +kernel, by decide +kernel, by decide +kernel⟩
  refine (cap_retry_sufficient_iff stockConfig (fourthDrip.at 1800086400) threeDrips _ (by decide)
    hrefused).mpr (Or.inr ?_)
  decide +kernel

end ZcashFaucet.Api
