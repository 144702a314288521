/-
ZcashFaucet.Db.WhyBlocked — the explanation of a refusal agrees with the
statement that refused.

RESERVE_SQL refuses in one statement and `whyBlocked` explains it with
four queries of its own. Both are read here through `Rule`: the clause of
RESERVE_SQL a refusal can come from, and the rule an answer names.

  §1 Rules      — the clause and the name of each rule.
  §2 Expiry     — a row is live until its own expiry, so liveness only
                  ends.
  §3 Diagnosis  — one lemma per query, and `whyBlocked_rule`: the rule
                  that is named is one whose clause fails.
  §4 Retry      — `retryAfterSeconds` is the first second at which the
                  named rule lets the request through.
-/
import Mathlib.Data.List.Count
import Mathlib.Tactic.Linarith
import ZcashFaucet.Db.LedgerTheorems

namespace ZcashFaucet.Db

open Lib

/-! ## §1 Rules -/

/-- What a refusal can come from. -/
inductive Rule
  | address
  | connection
  | subnet
  | cap
  deriving DecidableEq, Repr

/-- The clause of RESERVE_SQL behind a rule. -/
def Rule.clear : Rule → ReserveParams → List ClaimRow → Bool
  | .address => addressClear
  | .connection => ipClear
  | .subnet => subnetClear
  | .cap => capClear

/-- The rule an answer names. -/
def Blocked.rule (b : Blocked) : Option Rule :=
  match b.kind, b.scope with
  | .cooldown, some .address => some .address
  | .cooldown, some .connection => some .connection
  | .cooldown, none => none
  | .subnet, _ => some .subnet
  | .cap, _ => some .cap

/-- The rule a `scope` stands for. -/
def BlockScope.rule : BlockScope → Rule
  | .address => .address
  | .connection => .connection

/-- The request is refused, its answer names the rule, and the clause of
the rule fails. -/
def RefusedBy (rule : Rule) (cfg : LedgerConfig) (o : ReserveOpts) (l : Ledger) : Prop :=
  rule.clear (reserveClaimParams cfg o) l.claims = false ∧
    ∃ b, (reserveClaim cfg o l).2 = .error b ∧ b.rule = some rule

/-- The same request, made at another time. -/
def ReserveOpts.at (o : ReserveOpts) (now : ℚ) : ReserveOpts := { o with now := now }

/-! ## §2 Expiry -/

/-- A row blocks until its own expiry. -/
theorem liveAfter_iff (r : ClaimRow) (now sentFor pendingFor : ℚ) :
    r.liveAfter (now - sentFor) (now - pendingFor) = true ↔
      r.status ≠ .failed ∧ now < r.expiry sentFor pendingFor := by
  cases hs : r.status with
  | pending => simp [ClaimRow.liveAfter, ClaimRow.expiry, hs, sub_lt_iff_lt_add]
  | sent => simp [ClaimRow.liveAfter, ClaimRow.expiry, hs, sub_lt_iff_lt_add]
  | failed => simp [ClaimRow.liveAfter, hs]

/-- The rows of the requested address. -/
def ofAddress (cfg : LedgerConfig) (o : ReserveOpts) (r : ClaimRow) : Bool :=
  r.addressHash == cfg.fingerprintAddress o.address && r.network == o.network

/-- The rows of the connection the request came from. -/
def ofConnection (o : ReserveOpts) (r : ClaimRow) : Bool :=
  r.ipHash == o.ipHash.getD "" && r.network == o.network

/-- One of the selected rows, and live at `now`. -/
def holds (cfg : LedgerConfig) (o : ReserveOpts) (sel : ClaimRow → Bool) (now : ℚ) (r : ClaimRow) :
    Bool :=
  sel r && r.liveAfter (now - o.cooldownSeconds) (now - cfg.pendingLease)

/-- When a row stops blocking. -/
def blocksUntil (cfg : LedgerConfig) (o : ReserveOpts) (r : ClaimRow) : ℚ :=
  r.expiry o.cooldownSeconds cfg.pendingLease

section
variable {cfg : LedgerConfig} {o : ReserveOpts} {sel : ClaimRow → Bool} {now later : ℚ}
  {r : ClaimRow} {claims : List ClaimRow}

theorem holds_lt (h : holds cfg o sel now r = true) : now < blocksUntil cfg o r := by
  simp only [holds, Bool.and_eq_true, liveAfter_iff] at h
  exact h.2.2

/-- A row that holds now holds at any other time before its expiry. -/
theorem holds_before (h : holds cfg o sel now r = true) (hlt : later < blocksUntil cfg o r) :
    holds cfg o sel later r = true := by
  simp only [holds, Bool.and_eq_true, liveAfter_iff] at h ⊢
  exact ⟨h.1, h.2.1, hlt⟩

/-- Time only ends a hold. -/
theorem holds_earlier (hle : now ≤ later) (h : holds cfg o sel later r = true) :
    holds cfg o sel now r = true :=
  holds_before h (lt_of_le_of_lt hle (holds_lt h))

theorem addressClear_at (now : ℚ) (claims : List ClaimRow) :
    addressClear (reserveClaimParams cfg (o.at now)) claims =
      !claims.any (holds cfg o (ofAddress cfg o) now) := rfl

theorem ipClear_at (now : ℚ) (claims : List ClaimRow) :
    ipClear (reserveClaimParams cfg (o.at now)) claims =
      (o.ipHash.getD "" == "" ||
        decide (claims.countP (holds cfg o (ofConnection o) now) < o.ipDailyMax)) := rfl

/-- The rows live later are counted among the rows live now. -/
theorem countP_holds_later (sel : ClaimRow → Bool) (claims : List ClaimRow) (hle : now ≤ later) :
    claims.countP (holds cfg o sel later) =
      (claims.filter (holds cfg o sel now)).countP (holds cfg o sel later) := by
  rw [List.countP_filter]
  refine List.countP_congr fun r _ => ?_
  rw [Bool.and_eq_true]
  exact ⟨fun h => ⟨h, holds_earlier hle h⟩, And.left⟩

end

/-! ## §3 Diagnosis -/

/-- `ORDER BY created_at DESC LIMIT 1` answers as soon as there is a row. -/
theorem newest_eq_none {rows : List ClaimRow} : newest rows = none ↔ rows = [] := by
  cases rows with
  | nil => simp [newest]
  | cons r rest =>
      have hsome : newest (r :: rest) ≠ none := by
        simp only [newest]
        cases newest rest with
        | none => exact Option.some_ne_none r
        | some m =>
            dsimp only
            split <;> exact Option.some_ne_none _
      simp [hsome]

/-- And the row it answers with is one of them. -/
theorem mem_of_newest : ∀ {rows : List ClaimRow} {r : ClaimRow}, newest rows = some r → r ∈ rows
  | r' :: rest, r, h => by
      simp only [newest] at h
      cases hrest : newest rest with
      | none =>
          rw [hrest] at h
          cases h
          exact List.mem_cons_self
      | some m =>
          rw [hrest] at h
          simp only at h
          split at h
          · cases h
            exact List.mem_cons_self
          · cases h
            exact List.mem_cons_of_mem _ (mem_of_newest hrest)

section
variable (cfg : LedgerConfig) (o : ReserveOpts) (claims : List ClaimRow)

/-- The query of `whyBlocked` for the address. -/
theorem liveBlockSql_eq :
    liveBlockSql (cfg.fingerprintAddress o.address) o.network (o.now - o.cooldownSeconds)
        (o.now - cfg.pendingLease) claims =
      newest (claims.filter (holds cfg o (ofAddress cfg o) o.now)) := rfl

/-- The query of `whyBlocked` for the connection. -/
theorem ipWindowSql_eq :
    ipWindowSql o.cooldownSeconds cfg.pendingLease (o.ipHash.getD "") o.network
        (o.now - o.cooldownSeconds) (o.now - cfg.pendingLease) claims =
      ((claims.filter (holds cfg o (ofConnection o) o.now)).length,
        ((claims.filter (holds cfg o (ofConnection o) o.now)).map (blocksUntil cfg o)).min?) := rfl

/-- Every answer of `whyBlocked`: the rule it names, what it has read of
the clauses up to that rule, and the wait it measured. -/
theorem whyBlocked_cases :
    ((whyBlocked cfg o claims).rule = some .address ∧
      addressClear (reserveClaimParams cfg o) claims = false ∧
      ∃ r ∈ claims, holds cfg o (ofAddress cfg o) o.now r = true ∧
        (whyBlocked cfg o claims).retryAfterSeconds =
          some (max 1 (blocksUntil cfg o r - o.now))) ∨
    ((whyBlocked cfg o claims).rule = some .connection ∧
      addressClear (reserveClaimParams cfg o) claims = true ∧
      ipClear (reserveClaimParams cfg o) claims = false ∧ 0 < o.ipDailyMax ∧
      (whyBlocked cfg o claims).retryAfterSeconds =
        some (max 1 ((((claims.filter (holds cfg o (ofConnection o) o.now)).map
          (blocksUntil cfg o)).min?).getD o.now - o.now))) ∨
    ((whyBlocked cfg o claims).rule = some .subnet ∧
      addressClear (reserveClaimParams cfg o) claims = true ∧
      (1 ≤ o.ipDailyMax → ipClear (reserveClaimParams cfg o) claims = true) ∧
      subnetClear (reserveClaimParams cfg o) claims = false) ∨
    ((whyBlocked cfg o claims).rule = some .cap ∧
      addressClear (reserveClaimParams cfg o) claims = true ∧
      (1 ≤ o.ipDailyMax → ipClear (reserveClaimParams cfg o) claims = true) ∧
      subnetClear (reserveClaimParams cfg o) claims = true) := by
  have haddress : addressClear (reserveClaimParams cfg o) claims =
      !claims.any (holds cfg o (ofAddress cfg o) o.now) := rfl
  have hconnection : ipClear (reserveClaimParams cfg o) claims = (o.ipHash.getD "" == "" ||
      decide (claims.countP (holds cfg o (ofConnection o) o.now) < o.ipDailyMax)) := rfl
  have hsubnet : subnetClear (reserveClaimParams cfg o) claims = (o.subnetHash.getD "" == "" ||
      decide (subnetCountSql (o.subnetHash.getD "") (o.now - 86400) (o.now - cfg.pendingLease) claims <
        o.subnetDailyMax)) := rfl
  simp only [whyBlocked, liveBlockSql_eq, ipWindowSql_eq]
  cases hrow : newest (claims.filter (holds cfg o (ofAddress cfg o) o.now)) with
  | some r =>
      obtain ⟨hmem, hholds⟩ := List.mem_filter.mp (mem_of_newest hrow)
      refine Or.inl ⟨rfl, ?_, r, hmem, hholds, ?_⟩
      · rw [haddress, Bool.not_eq_false', List.any_eq_true]
        exact ⟨r, hmem, hholds⟩
      · simp only [blocksUntil, ClaimRow.expiry]
        congr 2
        ring
  | none =>
      have hclear : addressClear (reserveClaimParams cfg o) claims = true := by
        rw [haddress, Bool.not_eq_true', List.any_eq_false]
        exact List.filter_eq_nil_iff.mp (newest_eq_none.mp hrow)
      simp only [← List.countP_eq_length_filter]
      refine Or.inr ?_
      split
      · rename_i h
        simp only [Bool.and_eq_true, bne_iff_ne, ne_eq, decide_eq_true_eq] at h
        obtain ⟨⟨hne, hpos⟩, hfull⟩ := h
        refine Or.inl ⟨rfl, hclear, ?_, hpos, rfl⟩
        simp [hconnection, hne, Nat.not_lt.mpr hfull]
      · rename_i hfree
        have hip : 1 ≤ o.ipDailyMax → ipClear (reserveClaimParams cfg o) claims = true := by
          intro hpos
          simp only [Bool.and_eq_true, bne_iff_ne, ne_eq, decide_eq_true_eq, not_and, not_le] at hfree
          rw [hconnection, Bool.or_eq_true, beq_iff_eq, decide_eq_true_eq]
          exact or_iff_not_imp_left.mpr fun hne => hfree ⟨hne, hpos⟩
        split
        · rename_i h
          simp only [Bool.and_eq_true, bne_iff_ne, ne_eq, decide_eq_true_eq] at h
          exact Or.inr (Or.inl ⟨rfl, hclear, hip, by simp [hsubnet, h.1, Nat.not_lt.mpr h.2]⟩)
        · rename_i h
          simp only [Bool.and_eq_true, bne_iff_ne, ne_eq, decide_eq_true_eq, not_and, not_le] at h
          refine Or.inr (Or.inr ⟨rfl, hclear, hip, ?_⟩)
          rw [hsubnet, Bool.or_eq_true, beq_iff_eq, decide_eq_true_eq]
          exact or_iff_not_imp_left.mpr h

/-- Only a cooldown has a scope. -/
theorem rule_of_scope {scope : BlockScope} (h : (whyBlocked cfg o claims).scope = some scope) :
    (whyBlocked cfg o claims).rule = some scope.rule := by
  have hkind : (whyBlocked cfg o claims).kind = .cooldown := by
    revert h
    simp only [whyBlocked]
    split
    · exact fun _ => rfl
    · split
      · exact fun _ => rfl
      · split <;> exact fun h => by cases h
  cases scope <;> simp [Blocked.rule, hkind, h, BlockScope.rule]

end

/-- A reservation that inserted nothing is answered by `whyBlocked`, and
some clause failed. -/
theorem reserveClaim_error {cfg : LedgerConfig} {o : ReserveOpts} {l : Ledger} {b : Blocked}
    (h : (reserveClaim cfg o l).2 = .error b) :
    b = whyBlocked cfg o l.claims ∧
      reserveAllowed (reserveClaimParams cfg o) l.claims = false := by
  rcases reserveClaim_cases cfg o l with ⟨_, heq⟩ | ⟨hrefused, heq⟩
  · rw [heq] at h
    cases h
  · rw [heq] at h
    cases h
    exact ⟨rfl, hrefused⟩

/-- **A refusal is diagnosed by a rule that really refused.** The answer
names a rule whose clause fails on the very ledger, and it names the cap
only if the other three clauses hold. -/
theorem whyBlocked_names_a_refusing_rule (cfg : LedgerConfig) (o : ReserveOpts) (l : Ledger)
    (b : Blocked) (hip : 1 ≤ o.ipDailyMax) (h : (reserveClaim cfg o l).2 = .error b) :
    ∃ rule, b.rule = some rule ∧ rule.clear (reserveClaimParams cfg o) l.claims = false ∧
      (rule = .cap → ∀ other : Rule, other ≠ .cap →
        other.clear (reserveClaimParams cfg o) l.claims = true) := by
  obtain ⟨rfl, hrefused⟩ := reserveClaim_error h
  rcases whyBlocked_cases cfg o l.claims with
    ⟨hrule, hclause, _⟩ | ⟨hrule, _, hclause, _⟩ | ⟨hrule, _, _, hclause⟩ | ⟨hrule, haddr, hconn, hsub⟩
  · exact ⟨.address, hrule, hclause, fun hcap => by cases hcap⟩
  · exact ⟨.connection, hrule, hclause, fun hcap => by cases hcap⟩
  · exact ⟨.subnet, hrule, hclause, fun hcap => by cases hcap⟩
  · refine ⟨.cap, hrule, ?_, fun _ other hother => ?_⟩
    · -- the three other clauses hold, so the failing one is the cap's
      simpa [reserveAllowed, haddr, hconn hip, hsub, Rule.clear] using hrefused
    · cases other with
      | address => exact haddr
      | connection => exact hconn hip
      | subnet => exact hsub
      | cap => exact absurd rfl hother

/-- A connection with two claims, one paid and one whose send is still
waiting, on an allowance of two. -/
def twoClaims : Ledger where
  claims :=
    [ { id := 2, addressHash := "b", ipHash := "ip", amountZat := 10000000, txid := none,
        status := .pending, createdAt := 1800000100, subnetHash := some "subnet", network := .taz },
      { id := 1, addressHash := "a", ipHash := "ip", amountZat := 10000000, txid := some (js "t1"),
        status := .sent, createdAt := 1800000000, subnetHash := some "subnet", network := .taz } ]
  nextId := 3
  dripDays := []

/-- The third claim of the connection. -/
def thirdClaim : ReserveOpts where
  address := "c"
  ipHash := some "ip"
  subnetHash := some "subnet"
  amountZat := 10000000
  now := 1800000300
  cooldownSeconds := 86400
  dailyCapZat := 10000000000
  subnetDailyMax := 40
  ipDailyMax := 2

theorem thirdClaim_refused :
    (reserveClaim stockConfig thirdClaim twoClaims).2 =
      .error (whyBlocked stockConfig thirdClaim twoClaims.claims) := by
  decide +kernel

theorem whyBlocked_names_a_refusing_rule_thirdClaim :
    ∃ rule, (whyBlocked stockConfig thirdClaim twoClaims.claims).rule = some rule ∧
      rule.clear (reserveClaimParams stockConfig thirdClaim) twoClaims.claims = false ∧
      (rule = .cap → ∀ other : Rule, other ≠ .cap →
        other.clear (reserveClaimParams stockConfig thirdClaim) twoClaims.claims = true) :=
  whyBlocked_names_a_refusing_rule stockConfig thirdClaim twoClaims _ (by decide) thirdClaim_refused

/-! ## §4 Retry -/

section
variable {cfg : LedgerConfig} {o : ReserveOpts} {l : Ledger}

theorem reserveClaim_at_refused {now : ℚ} (rule : Rule)
    (h : rule.clear (reserveClaimParams cfg (o.at now)) l.claims = false) :
    (reserveClaim cfg (o.at now) l).2 = .error (whyBlocked cfg (o.at now) l.claims) := by
  rcases reserveClaim_cases cfg (o.at now) l with ⟨hallowed, _⟩ | ⟨_, heq⟩
  · obtain ⟨haddr, hconn, hsub, hcap⟩ := reserveAllowed_iff.mp hallowed
    cases rule with
    | address => rw [Rule.clear, haddr] at h; cases h
    | connection => rw [Rule.clear, hconn] at h; cases h
    | subnet => rw [Rule.clear, hsub] at h; cases h
    | cap => rw [Rule.clear, hcap] at h; cases h
  · rw [heq]

/-- A failing address clause is what the answer names. -/
theorem refusedBy_address {now : ℚ}
    (h : addressClear (reserveClaimParams cfg (o.at now)) l.claims = false) :
    RefusedBy .address cfg (o.at now) l := by
  refine ⟨h, _, reserveClaim_at_refused .address h, ?_⟩
  rcases whyBlocked_cases cfg (o.at now) l.claims with
    ⟨hrule, _⟩ | ⟨_, haddr, _⟩ | ⟨_, haddr, _⟩ | ⟨_, haddr, _⟩
  · exact hrule
  all_goals
    rw [h] at haddr
    cases haddr

/-- A failing connection clause is, if the address clause holds. -/
theorem refusedBy_connection {now : ℚ} (hpos : 0 < o.ipDailyMax)
    (haddr : addressClear (reserveClaimParams cfg (o.at now)) l.claims = true)
    (h : ipClear (reserveClaimParams cfg (o.at now)) l.claims = false) :
    RefusedBy .connection cfg (o.at now) l := by
  refine ⟨h, _, reserveClaim_at_refused .connection h, ?_⟩
  rcases whyBlocked_cases cfg (o.at now) l.claims with
    ⟨_, haddr', _⟩ | ⟨hrule, _⟩ | ⟨_, _, hconn, _⟩ | ⟨_, _, hconn, _⟩
  · rw [haddr] at haddr'
    cases haddr'
  · exact hrule
  all_goals
    rw [hconn hpos] at h
    cases h

theorem eq_of_length_le_one {α : Type} {rows : List α} (h : rows.length ≤ 1) {a b : α}
    (ha : a ∈ rows) (hb : b ∈ rows) : a = b := by
  cases rows with
  | nil => cases ha
  | cons x rest =>
      have hrest : rest = [] := List.length_eq_zero_iff.mp (by simpa using h)
      subst hrest
      rw [List.mem_singleton.mp ha, List.mem_singleton.mp hb]

/-- A wait measured to an expiry, with its floor of one second, does not
reach past it at any earlier whole second. -/
theorem before_expiry {now expiry : ℚ} {t : ℕ} (hnow : now < expiry)
    (ht : (t : ℚ) < max 1 (expiry - now)) : now + t < expiry := by
  rcases lt_max_iff.mp ht with h | h
  · have hzero : t = 0 := by
      have : t < 1 := by exact_mod_cast h
      omega
    simpa [hzero] using hnow
  · linarith

/-- And at its end the expiry has passed. -/
theorem expiry_le (now expiry : ℚ) : expiry ≤ now + max 1 (expiry - now) := by
  have hle : expiry - now ≤ max 1 (expiry - now) := le_max_right _ _
  linarith

/-- The address rule: the one live row of the address decides. -/
theorem address_retry_exact {r : ClaimRow} (hmem : r ∈ l.claims)
    (hholds : holds cfg o (ofAddress cfg o) o.now r = true)
    (hone : l.claims.countP (holds cfg o (ofAddress cfg o) o.now) ≤ 1) :
    addressClear (reserveClaimParams cfg
        (o.at (o.now + max 1 (blocksUntil cfg o r - o.now)))) l.claims = true ∧
      ∀ t : ℕ, (t : ℚ) < max 1 (blocksUntil cfg o r - o.now) →
        addressClear (reserveClaimParams cfg (o.at (o.now + t))) l.claims = false := by
  simp only [addressClear_at, Bool.not_eq_true', List.any_eq_false, Bool.not_eq_false',
    List.any_eq_true]
  refine ⟨fun r' hr' hlater => ?_, fun t ht => ⟨r, hmem, ?_⟩⟩
  · have hpos : (0 : ℚ) ≤ max 1 (blocksUntil cfg o r - o.now) := le_max_of_le_left zero_le_one
    have hheld : holds cfg o (ofAddress cfg o) o.now r' = true := holds_earlier (by linarith) hlater
    have hsame : r' = r := by
      rw [List.countP_eq_length_filter] at hone
      exact eq_of_length_le_one hone (List.mem_filter.mpr ⟨hr', hheld⟩)
        (List.mem_filter.mpr ⟨hmem, hholds⟩)
    subst hsame
    exact absurd (holds_lt hlater) (not_lt.mpr (expiry_le _ _))
  · exact holds_before hholds (before_expiry (holds_lt hholds) ht)

/-- The connection rule: the earliest of the expiries decides, when the
live rows are exactly the allowance. -/
theorem connection_retry_exact {n : ℕ} (hpos : 0 < n)
    (hfull : l.claims.countP (holds cfg o (ofConnection o) o.now) = n) :
    ∃ first : ℚ, ((l.claims.filter (holds cfg o (ofConnection o) o.now)).map
        (blocksUntil cfg o)).min? = some first ∧
      l.claims.countP (holds cfg o (ofConnection o) (o.now + max 1 (first - o.now))) < n ∧
      ∀ t : ℕ, (t : ℚ) < max 1 (first - o.now) →
        n ≤ l.claims.countP (holds cfg o (ofConnection o) (o.now + t)) := by
  have hne : (l.claims.filter (holds cfg o (ofConnection o) o.now)).map (blocksUntil cfg o) ≠ [] := by
    rw [ne_eq, List.map_eq_nil_iff, ← List.length_eq_zero_iff, ← List.countP_eq_length_filter]
    omega
  obtain ⟨first, hfirst⟩ := Option.ne_none_iff_exists'.mp (mt List.min?_eq_none_iff.mp hne)
  obtain ⟨hmem, hleast⟩ := List.min?_eq_some_iff.mp hfirst
  obtain ⟨r, hr, rfl⟩ := List.mem_map.mp hmem
  obtain ⟨hrow, hholds⟩ := List.mem_filter.mp hr
  refine ⟨_, hfirst, ?_, fun t ht => ?_⟩
  · -- the row with the earliest expiry no longer counts
    have hwait : (0 : ℚ) ≤ max 1 (blocksUntil cfg o r - o.now) := le_max_of_le_left zero_le_one
    have hgone : holds cfg o (ofConnection o) (o.now + max 1 (blocksUntil cfg o r - o.now)) r = false := by
      rw [← Bool.not_eq_true]
      exact fun h => absurd (holds_lt h) (not_lt.mpr (expiry_le _ _))
    have hlater : o.now ≤ o.now + max 1 (blocksUntil cfg o r - o.now) := by linarith
    rw [countP_holds_later (ofConnection o) l.claims hlater, ← hfull,
      List.countP_eq_length_filter (p := holds cfg o (ofConnection o) o.now)]
    exact List.countP_lt_length_iff.mpr ⟨r, hr, hgone⟩
  · -- and before that every row still does
    rw [← hfull]
    refine List.countP_mono_left fun r' hr' h => holds_before h (before_expiry (holds_lt h) ?_)
    have hfirst_le : blocksUntil cfg o r ≤ blocksUntil cfg o r' :=
      hleast _ (List.mem_map_of_mem (List.mem_filter.mpr ⟨hr', h⟩))
    exact lt_of_lt_of_le ht (max_le_max le_rfl (by linarith))

/-- An address that is clear stays clear. -/
theorem addressClear_later {now later : ℚ} {claims : List ClaimRow} (hle : now ≤ later)
    (h : addressClear (reserveClaimParams cfg (o.at now)) claims = true) :
    addressClear (reserveClaimParams cfg (o.at later)) claims = true := by
  simp only [addressClear_at, Bool.not_eq_true', List.any_eq_false] at h ⊢
  exact fun r hr hlater => h r hr (holds_earlier hle hlater)

end

/-- **Measured retry times are exact.** With at most one live row for the
address and, for a connection, exactly its allowance, the named rule lets
the same request through at `now + retryAfterSeconds` and refuses it at
every earlier second. -/
theorem retryAfterSeconds_exact (cfg : LedgerConfig) (o : ReserveOpts) (l : Ledger) (b : Blocked)
    (scope : BlockScope) (h : (reserveClaim cfg o l).2 = .error b) (hscope : b.scope = some scope)
    (hone : l.claims.countP (holds cfg o (ofAddress cfg o) o.now) ≤ 1)
    (hfull : scope = .connection →
      l.claims.countP (holds cfg o (ofConnection o) o.now) = o.ipDailyMax) :
    ∃ retry, b.retryAfterSeconds = some retry ∧
      scope.rule.clear (reserveClaimParams cfg (o.at (o.now + retry))) l.claims = true ∧
      ∀ t : ℕ, (t : ℚ) < retry → RefusedBy scope.rule cfg (o.at (o.now + t)) l := by
  obtain ⟨rfl, _⟩ := reserveClaim_error h
  have hrule := rule_of_scope cfg o l.claims hscope
  cases scope with
  | address =>
      rcases whyBlocked_cases cfg o l.claims with
        ⟨_, _, r, hmem, hholds, hretry⟩ | ⟨hrule', _⟩ | ⟨hrule', _⟩ | ⟨hrule', _⟩
      · obtain ⟨hclear, hbefore⟩ := address_retry_exact hmem hholds hone
        exact ⟨_, hretry, hclear, fun t ht => refusedBy_address (hbefore t ht)⟩
      all_goals
        rw [hrule] at hrule'
        cases hrule'
  | connection =>
      rcases whyBlocked_cases cfg o l.claims with
        ⟨hrule', _⟩ | ⟨_, haddr, hconn, hpos, hretry⟩ | ⟨hrule', _⟩ | ⟨hrule', _⟩
      · rw [hrule] at hrule'
        cases hrule'
      · obtain ⟨first, hfirst, hfree, hbefore⟩ := connection_retry_exact hpos (hfull rfl)
        have hip : (o.ipHash.getD "" == "") = false := by
          change (o.ipHash.getD "" == "" || _) = false at hconn
          exact (Bool.or_eq_false_iff.mp hconn).1
        rw [hfirst, Option.getD_some] at hretry
        refine ⟨_, hretry, ?_, fun t ht => refusedBy_connection hpos ?_ ?_⟩
        · change ipClear _ _ = true
          rw [ipClear_at, decide_eq_true hfree, Bool.or_true]
        · exact addressClear_later (by simp) haddr
        · rw [ipClear_at, hip, Bool.false_or, decide_eq_false_iff_not, not_lt]
          exact hbefore t ht
      all_goals
        rw [hrule] at hrule'
        cases hrule'

theorem retryAfterSeconds_exact_thirdClaim :
    ∃ retry, (whyBlocked stockConfig thirdClaim twoClaims.claims).retryAfterSeconds = some retry ∧
      ipClear (reserveClaimParams stockConfig (thirdClaim.at (1800000300 + retry)))
        twoClaims.claims = true ∧
      ∀ t : ℕ, (t : ℚ) < retry →
        RefusedBy .connection stockConfig (thirdClaim.at (1800000300 + t)) twoClaims :=
  retryAfterSeconds_exact stockConfig thirdClaim twoClaims _ .connection thirdClaim_refused
    (by decide +kernel) (by decide +kernel) (fun _ => by decide +kernel)

end ZcashFaucet.Db
