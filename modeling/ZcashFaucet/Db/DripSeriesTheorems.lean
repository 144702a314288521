/-
ZcashFaucet.Db.DripSeriesTheorems — the drip series adds up to the totals.

In a window of four-digit years the texts are in the order of their days
(`textLe_isoDate_iff`), and a day with a sign before its year is in front of
them all, so a row is between two days of the window exactly when its text is
one of them (`isIn_iff`). A sum over the window of what the Map holds is then
the sum over the rows in it (`sum_sentOn`), because a row's day is its key.
-/
import Mathlib.Algebra.Order.BigOperators.Group.List
import ZcashFaucet.Db.DripSeries

namespace ZcashFaucet.Db.DripSeries

open Lib

/-! ## The window -/

section

variable {nowMs : ℚ}

/-- Where milliseconds are cut off, no day changes. -/
theorem utcDay_eq (hwhole : (∃ ms : Int, nowMs = ms) ∨ 0 ≤ nowMs) (hfirst : -62167219200000 ≤ nowMs)
    (hlast : nowMs < 253402300800000) : utcDay nowMs = some (isoDate (Db.utcDay nowMs)) := by
  have hclip : timeClip nowMs = some ⌊nowMs⌋ := by
    rw [timeClip, if_pos ⟨by linarith, by linarith⟩]
    split
    · rfl
    · rename_i hneg
      obtain ⟨ms, rfl⟩ := hwhole.resolve_right hneg
      simp
  have hday : ⌊nowMs⌋ / 86400000 = Db.utcDay nowMs := by
    rw [Db.utcDay, show (86400000 : ℚ) = ((86400000 : Nat) : ℚ) by norm_num, Int.floor_div_natCast]
    rfl
  have hplain : isPlainYear (yearOfDay (⌊nowMs⌋ / 86400000)) = true := by
    have hlo : (-62167219200000 : Int) ≤ ⌊nowMs⌋ := Int.le_floor.mpr (by exact_mod_cast hfirst)
    have hhi : ⌊nowMs⌋ < (253402300800000 : Int) := Int.floor_lt.mpr (by exact_mod_cast hlast)
    rw [isPlainYear_yearOfDay_iff]
    omega
  rw [utcDay, hclip, Option.map_some, toISOString_take hplain, hday]

theorem utcDay_sub (nowMs : ℚ) (back : Nat) :
    Db.utcDay (nowMs - back * 86400000) = Db.utcDay nowMs - back := by
  rw [Db.utcDay, Db.utcDay, show (nowMs - back * 86400000) / 86400000 = nowMs / 86400000 - (back : ℚ) by ring,
    Int.floor_sub_natCast]

/-- The days of a window, counted from the epoch. -/
def windowDays (nowMs : ℚ) (days : Nat) : List Int :=
  (List.range days).reverse.map fun back => Db.utcDay nowMs - (back : Nat)

theorem utcDayWindow_eq (h : PlainWindow nowMs) {days : Nat} (hdays : days ≤ 30) :
    utcDayWindow nowMs days = some ((windowDays nowMs days).map isoDate) := by
  have heach : ∀ back ∈ (List.range days).reverse,
      utcDay (nowMs - (back : Nat) * 86400000) = some (isoDate (Db.utcDay nowMs - (back : Nat))) := by
    intro back hback
    have hle : (back : ℚ) ≤ 29 := by
      have := List.mem_range.mp (List.mem_reverse.mp hback)
      exact_mod_cast (show back ≤ 29 by omega)
    have hpos : (0 : ℚ) ≤ back := by positivity
    have hfirst := h.first
    have hlast := h.last
    rw [← utcDay_sub]
    refine utcDay_eq ?_ (by linarith) (by linarith)
    rcases h.whole with ⟨ms, rfl⟩ | hlate
    · exact Or.inl ⟨ms - back * 86400000, by push_cast; ring⟩
    · exact Or.inr (by linarith)
  rw [utcDayWindow, windowDays, List.map_map]
  generalize (List.range days).reverse = backs at heach ⊢
  induction backs with
  | nil => rfl
  | cons back backs ih =>
    have hback := heach back List.mem_cons_self
    have hrest := ih fun b hb => heach b (List.mem_cons_of_mem back hb)
    simp only [List.mapM_cons, hback, hrest]
    rfl

/-- Every day of the window has a year of four digits. -/
theorem plainYear_of_window (h : PlainWindow nowMs) {n : Int} (hlo : Db.utcDay nowMs - 29 ≤ n)
    (hhi : n ≤ Db.utcDay nowMs) : isPlainYear (yearOfDay n) = true := by
  have hfirst := h.first
  have hlast := h.last
  have hlo' : (-719528 + 29 : Int) ≤ Db.utcDay nowMs := by
    rw [Db.utcDay, Int.le_floor]
    push_cast
    rw [le_div_iff₀ (by norm_num)]
    linarith
  have hhi' : Db.utcDay nowMs < (2932897 : Int) := by
    rw [Db.utcDay, Int.floor_lt]
    push_cast
    rw [div_lt_iff₀ (by norm_num)]
    linarith
  rw [isPlainYear_yearOfDay_iff]
  omega

theorem mem_windowDays {days : Nat} {n : Int} :
    n ∈ windowDays nowMs days ↔ Db.utcDay nowMs - days < n ∧ n ≤ Db.utcDay nowMs := by
  simp only [windowDays, List.mem_map, List.mem_reverse, List.mem_range]
  constructor
  · rintro ⟨back, hback, rfl⟩
    omega
  · rintro ⟨hlo, hhi⟩
    exact ⟨(Db.utcDay nowMs - n).toNat, by omega, by omega⟩

/-! ## Rows in the window -/

/-- Between the ends of a window are its own days. -/
theorem isIn_iff (h : PlainWindow nowMs) {r : DripDayRow} (hr : ∃ ms, utcDay ms = some r.day) {first : Int}
    (hlo : Db.utcDay nowMs - 29 ≤ first) (hhi : first ≤ Db.utcDay nowMs) :
    r.isIn (isoDate first) (isoDate (Db.utcDay nowMs)) = true ↔
      ∃ n, first ≤ n ∧ n ≤ Db.utcDay nowMs ∧ r.day = isoDate n := by
  have hfirst := plainYear_of_window h hlo hhi
  have hlast := plainYear_of_window h (hlo.trans hhi) (le_refl _)
  rw [DripDayRow.isIn, Bool.and_eq_true]
  constructor
  · rintro ⟨hafter, hbefore⟩
    obtain ⟨ms, hms⟩ := hr
    obtain ⟨t, -, ht⟩ := Option.map_eq_some_iff.mp hms
    cases hplain : isPlainYear (yearOfDay (t / 86400000)) with
    | false =>
      rw [← ht, not_textLe_of_signed hfirst hplain] at hafter
      cases hafter
    | true =>
      rw [toISOString_take hplain] at ht
      rw [← ht, textLe_isoDate_iff hfirst hplain] at hafter
      rw [← ht, textLe_isoDate_iff hplain hlast] at hbefore
      exact ⟨t / 86400000, hafter, hbefore, ht.symm⟩
  · rintro ⟨n, hafter, hbefore, hday⟩
    have hplain := plainYear_of_window h (hlo.trans hafter) hbefore
    rw [hday, textLe_isoDate_iff hfirst hplain, textLe_isoDate_iff hplain hlast]
    exact ⟨hafter, hbefore⟩

/-- A day of the window has one text. -/
theorem isoDate_injOn (h : PlainWindow nowMs) {n n' : Int} (hn : n ∈ windowDays nowMs 30)
    (hn' : n' ∈ windowDays nowMs 30) (heq : isoDate n = isoDate n') : n = n' := by
  rw [mem_windowDays] at hn hn'
  have hplain := plainYear_of_window h (by omega) hn.2
  have hplain' := plainYear_of_window h (by omega) hn'.2
  have hle := (textLe_isoDate_iff hplain hplain').mp (heq ▸ textLe_refl _)
  have hge := (textLe_isoDate_iff hplain' hplain).mp (heq ▸ textLe_refl _)
  omega

theorem nodup_windowDays (nowMs : ℚ) (days : Nat) : (windowDays nowMs days).Nodup := by
  refine (List.nodup_reverse.mpr List.nodup_range).map ?_
  intro a b hab
  simpa using hab

theorem nodup_window (h : PlainWindow nowMs) : ((windowDays nowMs 30).map isoDate).Nodup :=
  (nodup_windowDays nowMs 30).map_on fun _ hn _ hn' => isoDate_injOn h hn hn'

end

/-! ## Sums -/

section

variable {κ : Type} [DecidableEq κ]

theorem sum_map_ite_mem {window : List κ} (hwindow : window.Nodup) (day : κ) (sent : Nat) :
    (window.map fun w => if w = day then sent else 0).sum = if day ∈ window then sent else 0 := by
  induction window with
  | nil => rfl
  | cons w window ih =>
    rw [List.nodup_cons] at hwindow
    rw [List.map_cons, List.sum_cons, ih hwindow.2]
    by_cases hw : w = day
    · subst hw
      simp [hwindow.1]
    · simp [hw, Ne.symm hw]

/-- A window sums the entries whose key is in it. -/
theorem sum_lookup {window : List κ} (hwindow : window.Nodup) {p : κ → Bool} {entries : List (κ × Nat)}
    (hkeys : (entries.map Prod.fst).Nodup) (hp : ∀ e ∈ entries, p e.1 = true ↔ e.1 ∈ window) :
    (window.map fun day => (entries.lookup day).getD 0).sum =
      ((entries.filter fun e => p e.1).map Prod.snd).sum := by
  induction entries with
  | nil => simp
  | cons e entries ih =>
    rw [List.map_cons, List.nodup_cons] at hkeys
    have hsplit : ∀ day, ((e :: entries).lookup day).getD 0 =
        (if day = e.1 then e.2 else 0) + (entries.lookup day).getD 0 := by
      intro day
      rw [JsMap.lookup_cons]
      by_cases hday : day = e.1
      · subst hday
        simp [JsMap.lookup_eq_none_of_not_mem hkeys.1]
      · simp [hday]
    have hrest := ih hkeys.2 fun e' he' => hp e' (List.mem_cons_of_mem e he')
    simp only [hsplit, List.sum_map_add, sum_map_ite_mem hwindow, hrest]
    have he := hp e List.mem_cons_self
    by_cases hmem : e.1 ∈ window
    · simp [hmem, he.mpr hmem]
    · have hout : p e.1 = false := Bool.eq_false_iff.mpr fun h => hmem (he.mp h)
      simp [hmem, hout]

end

/-- The rows of one network have different days. -/
theorem nodup_dripByDay (table : DripDays) (network : FaucetNetwork) (first last : JsString) :
    ((dripByDaySql network first last table.rows).map Prod.fst).Nodup := by
  have hrows : ((rowsOf network table.rows).map DripDayRow.day).Nodup := by
    refine (List.nodup_map_iff_inj_on ?_).mpr ?_
    · exact (List.Nodup.of_map _ table.key).filter _
    · intro r hr r' hr' hday
      have hsame : (r.network, r.day) = (r'.network, r'.day) := by
        rw [of_decide_eq_true (List.mem_filter.mp hr).2, of_decide_eq_true (List.mem_filter.mp hr').2, hday]
      exact List.inj_on_of_nodup_map table.key (List.mem_of_mem_filter hr) (List.mem_of_mem_filter hr') hsame
  rw [dripByDaySql, List.map_map]
  exact (List.filter_sublist.map DripDayRow.day).nodup hrows

/-- The rows between two days of the window. -/
def rowsIn (first last : Int) (network : FaucetNetwork) (table : DripDays) : List DripDayRow :=
  (rowsOf network table.rows).filter (DripDayRow.isIn (isoDate first) (isoDate last))

section

variable {nowMs : ℚ} (network : FaucetNetwork) (table : DripDays)

/-- **The days up to today sum the rows up to today**, from any day of the
window on. -/
theorem sum_sentOn (h : PlainWindow nowMs) (days : Nat) (hdays : days < 30) :
    (((windowDays nowMs (days + 1)).map isoDate).map fun day =>
        ((JsMap.ofEntries (dripByDaySql network (isoDate (Db.utcDay nowMs - 29)) (isoDate (Db.utcDay nowMs))
          table.rows)).get? day).getD 0).sum =
      ((rowsIn (Db.utcDay nowMs - days) (Db.utcDay nowMs) network table).map DripDayRow.sent).sum := by
  have hnodup : ((windowDays nowMs (days + 1)).map isoDate).Nodup :=
    (nodup_windowDays nowMs (days + 1)).map_on fun n hn n' hn' =>
      isoDate_injOn h (mem_windowDays.mpr (by rw [mem_windowDays] at hn; omega))
        (mem_windowDays.mpr (by rw [mem_windowDays] at hn'; omega))
  have hkeys := nodup_dripByDay table network (isoDate (Db.utcDay nowMs - 29)) (isoDate (Db.utcDay nowMs))
  have hmem : ∀ e ∈ dripByDaySql network (isoDate (Db.utcDay nowMs - 29)) (isoDate (Db.utcDay nowMs)) table.rows,
      (textLe (isoDate (Db.utcDay nowMs - days)) e.1 && textLe e.1 (isoDate (Db.utcDay nowMs))) = true ↔
        e.1 ∈ (windowDays nowMs (days + 1)).map isoDate := by
    intro e he
    obtain ⟨r, hr, rfl⟩ := List.mem_map.mp he
    have hday := table.days r (List.mem_of_mem_filter (List.mem_of_mem_filter hr))
    refine (isIn_iff h hday (by omega) (by omega)).trans (Iff.trans ?_ List.mem_map.symm)
    constructor
    · rintro ⟨n, hlo, hhi, htext⟩
      exact ⟨n, mem_windowDays.mpr (by omega), htext.symm⟩
    · rintro ⟨n, hn, htext⟩
      rw [mem_windowDays] at hn
      exact ⟨n, by omega, hn.2, htext.symm⟩
  simp only [JsMap.get?_ofEntries hkeys]
  rw [sum_lookup
    (p := fun day => textLe (isoDate (Db.utcDay nowMs - days)) day && textLe day (isoDate (Db.utcDay nowMs)))
    hnodup hkeys hmem, dripByDaySql, List.filter_map, List.map_map, List.filter_filter, rowsIn]
  congr 2
  refine List.filter_congr fun r hr => ?_
  have hday := table.days r (List.mem_of_mem_filter hr)
  show (r.isIn (isoDate (Db.utcDay nowMs - days)) (isoDate (Db.utcDay nowMs)) && _) = _
  rw [Bool.eq_iff_iff, Bool.and_eq_true, isIn_iff h hday (le_refl _) (by omega),
    isIn_iff h hday (by omega) (by omega)]
  constructor
  · exact fun hboth => hboth.1
  · rintro ⟨n, hlo, hhi, htext⟩
    exact ⟨⟨n, hlo, hhi, htext⟩, n, by omega, hhi, htext⟩

/-- A later first day leaves fewer rows. -/
theorem sum_rowsIn_le (h : PlainWindow nowMs) {first : Int} (hlo : Db.utcDay nowMs - 29 ≤ first)
    (hhi : first ≤ Db.utcDay nowMs) :
    ((rowsIn first (Db.utcDay nowMs) network table).map DripDayRow.sent).sum ≤
      ((rowsIn (Db.utcDay nowMs - 29) (Db.utcDay nowMs) network table).map DripDayRow.sent).sum := by
  have hsub : rowsIn first (Db.utcDay nowMs) network table =
      (rowsIn (Db.utcDay nowMs - 29) (Db.utcDay nowMs) network table).filter
        (DripDayRow.isIn (isoDate first) (isoDate (Db.utcDay nowMs))) := by
    rw [rowsIn, rowsIn, List.filter_filter]
    refine List.filter_congr fun r hr => ?_
    have hday := table.days r (List.mem_of_mem_filter hr)
    rw [Bool.eq_iff_iff, Bool.and_eq_true, isIn_iff h hday hlo hhi, isIn_iff h hday (le_refl _) (by omega)]
    constructor
    · rintro ⟨n, hn, hn', htext⟩
      exact ⟨⟨n, hn, hn', htext⟩, n, hlo.trans hn, hn', htext⟩
    · exact fun hboth => hboth.1
  rw [hsub]
  exact (List.filter_sublist.map DripDayRow.sent).sum_le_sum fun _ _ => Nat.zero_le _

end

/-! ## The first day -/

theorem minText_mem {days : List JsString} {day : JsString} (h : minText days = some day) : day ∈ days := by
  cases days with
  | nil => cases h
  | cons first days =>
    obtain rfl := Option.some.inj h
    clear h
    induction days generalizing first with
    | nil => simp
    | cons next days ih =>
      rw [List.foldl_cons]
      have hmem := ih (if textLe first next then first else next)
      rcases List.mem_cons.mp hmem with heq | hrest
      · rw [heq]
        split <;> simp
      · simp [hrest]

theorem utcDay_ne_nil {ms : ℚ} {day : JsString} (h : utcDay ms = some day) : day ≠ [] := by
  obtain ⟨t, -, rfl⟩ := Option.map_eq_some_iff.mp h
  simp [toISOString]

/-- A first day is missing where there is no row. -/
theorem countingSince_eq_none_iff (table : DripDays) (network : FaucetNetwork) :
    orNull (minText ((rowsOf network table.rows).map DripDayRow.day)) = none ↔
      ∀ r ∈ table.rows, r.network ≠ network := by
  constructor
  · intro hnone r hr hnetwork
    cases hmin : minText ((rowsOf network table.rows).map DripDayRow.day) with
    | none =>
      have hmem : r ∈ rowsOf network table.rows := List.mem_filter.mpr ⟨hr, by simp [hnetwork]⟩
      cases hrows : rowsOf network table.rows with
      | nil => simp [hrows] at hmem
      | cons first rest => simp [hrows, minText] at hmin
    | some day =>
      obtain ⟨r', hr', rfl⟩ := List.mem_map.mp (minText_mem hmin)
      obtain ⟨ms, hms⟩ := table.days r' (List.mem_of_mem_filter hr')
      cases hday : r'.day with
      | nil => exact utcDay_ne_nil hms hday
      | cons c rest => simp [hmin, hday] at hnone
  · intro hnone
    have hempty : rowsOf network table.rows = [] :=
      List.filter_eq_nil_iff.mpr fun r hr => by simpa using hnone r hr
    rw [hempty]
    rfl

/-! ## The series -/

section

variable {nowMs : ℚ}

theorem isUtcDay_isoDate {n : Int} (h : isPlainYear (yearOfDay n) = true) : IsUtcDay n (isoDate n) := by
  obtain ⟨hdate, hday⟩ := dateOfDay_spec n
  have hyear : 0 ≤ (dateOfDay n).1 ∧ (dateOfDay n).1 ≤ 9999 := of_decide_eq_true h
  have hcast : (((dateOfDay n).1.toNat : Nat) : Int) = (dateOfDay n).1 := Int.toNat_of_nonneg hyear.1
  refine ⟨(dateOfDay n).1.toNat, (dateOfDay n).2.1, (dateOfDay n).2.2, hcast.symm ▸ hdate, ?_, ?_⟩
  · rw [hcast, hday]
  · exact isoText_of_plain h _ _

theorem windowDays_getElem? {days k : Nat} {n : Int} (h : (windowDays nowMs days)[k]? = some n) :
    n = Db.utcDay nowMs - (days - 1 : Nat) + k ∧ k < days := by
  have hlt : k < days := by simpa [windowDays] using (List.getElem?_eq_some_iff.mp h).1
  rw [windowDays, List.getElem?_map, List.getElem?_reverse (by simpa using hlt), List.length_range,
    List.getElem?_range (by omega), Option.map_some] at h
  have hn := Option.some.inj h
  exact ⟨by omega, hlt⟩

/-- The last week of the window. -/
theorem windowDays_drop (nowMs : ℚ) : (windowDays nowMs 30).drop 23 = windowDays nowMs 7 := by
  have hbacks : (List.range 30).reverse.drop 23 = (List.range 7).reverse := by decide
  rw [windowDays, ← List.map_drop, hbacks, windowDays]

/-- What `countDrips` answers in such a window. -/
theorem countDrips_eq (h : PlainWindow nowMs) (network : FaucetNetwork) (table : DripDays) :
    countDrips nowMs network table.rows = some
      { allTime := ((rowsOf network table.rows).map DripDayRow.sent).sum
        last7d := ((rowsIn (Db.utcDay nowMs - 6) (Db.utcDay nowMs) network table).map DripDayRow.sent).sum
        last30d := ((rowsIn (Db.utcDay nowMs - 29) (Db.utcDay nowMs) network table).map DripDayRow.sent).sum
        countingSince := orNull (minText ((rowsOf network table.rows).map DripDayRow.day))
        byDay := ((windowDays nowMs 30).map isoDate).map fun day =>
          ⟨day, ((JsMap.ofEntries (dripByDaySql network (isoDate (Db.utcDay nowMs - 29))
            (isoDate (Db.utcDay nowMs)) table.rows)).get? day).getD 0⟩ } := by
  have hfirst : ((windowDays nowMs 30).map isoDate).head? = some (isoDate (Db.utcDay nowMs - 29)) := rfl
  have hlast : ((windowDays nowMs 30).map isoDate).getLast? = some (isoDate (Db.utcDay nowMs)) := by
    have hzero : (windowDays nowMs 30).getLast? = some (Db.utcDay nowMs - (0 : Nat)) := rfl
    rw [List.getLast?_map, hzero, Nat.cast_zero, sub_zero]
    rfl
  have hweek : ((windowDays nowMs 7).map isoDate).head? = some (isoDate (Db.utcDay nowMs - 6)) := rfl
  rw [countDrips, utcDayWindow_eq h (le_refl _), utcDayWindow_eq h (by omega)]
  simp only [Option.bind_eq_bind, Option.bind_some, hfirst, hlast, hweek]
  rfl

/-- **The drip series agrees with its totals**, in the years of four
digits. -/
theorem countDrips_agrees (nowMs : ℚ) (network : FaucetNetwork) (table : DripDays) (h : PlainWindow nowMs) :
    ∃ c, countDrips nowMs network table.rows = some c ∧ SeriesAgrees nowMs network table.rows c := by
  refine ⟨_, countDrips_eq h network table, ?_, ?_, ?_, ?_, ?_, ?_, ?_, countingSince_eq_none_iff table network⟩
  · simp [windowDays]
  · rw [List.map_map]
    simpa [Function.comp_def] using nodup_window h
  · intro k entry hk
    simp only [List.map_map, List.getElem?_map, Option.map_eq_some_iff] at hk
    obtain ⟨n, hn, rfl⟩ := hk
    obtain ⟨hday, hlt⟩ := windowDays_getElem? hn
    have hplain := plainYear_of_window h (n := n) (by omega) (by omega)
    have hutc := isUtcDay_isoDate hplain
    rwa [hday, show ((30 - 1 : Nat) : Int) = 29 by rfl] at hutc ⊢
  · simpa [Function.comp_def] using sum_sentOn network table h 29 (by omega)
  · have hweek := sum_sentOn network table h 6 (by omega)
    dsimp only
    rw [← List.map_drop, ← List.map_drop, windowDays_drop]
    simpa [Function.comp_def] using hweek
  · exact sum_rowsIn_le network table h (by omega) (by omega)
  · exact (List.filter_sublist.map DripDayRow.sent).sum_le_sum fun _ _ => Nat.zero_le _

end

/-- A leap day on TAZ, another on cTAZ, and a row of the future. -/
def leapDays : DripDays where
  rows := [⟨.taz, js "2024-02-29", 3⟩, ⟨.ctaz, js "2024-02-29", 5⟩, ⟨.taz, js "2031-01-01", 7⟩]
  key := by decide +kernel
  days := by
    intro r hr
    simp only [List.mem_cons, List.not_mem_nil, or_false] at hr
    rcases hr with rfl | rfl | rfl
    · exact ⟨1709164800000, by decide +kernel⟩
    · exact ⟨1709164800000, by decide +kernel⟩
    · exact ⟨1924992000000, by decide +kernel⟩

theorem countDrips_agrees_leapDays :
    (countDrips 1709337600000 .taz leapDays.rows).map (fun c => (c.allTime, c.last7d, c.last30d)) = some (10, 3, 3) ∧
      ∃ c, countDrips 1709337600000 .taz leapDays.rows = some c ∧ SeriesAgrees 1709337600000 .taz leapDays.rows c :=
  ⟨by decide +kernel,
    countDrips_agrees 1709337600000 .taz leapDays
      ⟨by norm_num, by norm_num, Or.inl ⟨1709337600000, by norm_num⟩⟩⟩

/-- One drip on 15 February 10000. -/
def longYear : DripDays where
  rows := [⟨.taz, js "+010000-02", 1⟩]
  key := by decide +kernel
  days := by
    intro r hr
    rw [List.mem_singleton.mp hr]
    exact ⟨253406188800000, by decide +kernel⟩

def noDrips : DripDays where
  rows := []
  key := List.nodup_nil
  days := by simp

/-- The days of a month of the year 10000 have one text, so a drip on one
is counted on each, and so have the days of a December before the year 0.
Half a millisecond before the second day of the epoch there are two first
days. -/
theorem series_disagrees :
    (¬ ∃ c, countDrips 253406188800000 .taz longYear.rows = some c ∧
      SeriesAgrees 253406188800000 .taz longYear.rows c) ∧
    (¬ ∃ c, countDrips (-62167219200001) .taz noDrips.rows = some c ∧
      SeriesAgrees (-62167219200001) .taz noDrips.rows c) ∧
    ¬ ∃ c, countDrips (172799999 / 2) .taz noDrips.rows = some c ∧
      SeriesAgrees (172799999 / 2) .taz noDrips.rows c := by
  refine ⟨?_, ?_, ?_⟩
  · rintro ⟨c, hc, h⟩
    have hsums : (countDrips 253406188800000 .taz longYear.rows).map
        (fun c => ((c.byDay.map DripDay.sent).sum, c.last30d)) = some (15, 1) := by decide +kernel
    rw [hc, Option.map_some, h.sum30, Option.some.injEq, Prod.mk.injEq] at hsums
    omega
  · rintro ⟨c, hc, h⟩
    have hdays : (countDrips (-62167219200001) .taz noDrips.rows).map
        (fun c => decide (c.byDay.map DripDay.day).Nodup) = some false := by decide +kernel
    rw [hc, Option.map_some, decide_eq_true h.distinct] at hdays
    simp at hdays
  · rintro ⟨c, hc, h⟩
    have hdays : (countDrips (172799999 / 2) .taz noDrips.rows).map
        (fun c => decide (c.byDay.map DripDay.day).Nodup) = some false := by decide +kernel
    rw [hc, Option.map_some, decide_eq_true h.distinct] at hdays
    simp at hdays

end ZcashFaucet.Db.DripSeries
