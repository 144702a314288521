/-
ZcashFaucet.Pow.Escalation — what escalation depends on, and what it
remembers.

Along any run in which time does not go backwards the windows track the
attempts, so the difficulty is a function of three counts over them. What
stays in the two maps is another matter: past 5000 clients the map by
client is swept, the map by subnet never is. `escalation_memory_iff` says
when the latter holds nothing it should have forgotten.
-/
import ZcashFaucet.Lib.Decimal
import ZcashFaucet.Pow.Issue
import ZcashFaucet.Pow.Solvable

namespace ZcashFaucet.Pow

open Lib

/-! ## The attempts of a run -/

def attemptOfEvent : ℚ × PowEvent → Option PowAttempt
  | (t, .attempt ipHash subnetHash) => some ⟨ipHash, subnetHash, t⟩
  | (_, .issue _ _ _) => none

def attemptsOf (es : List (ℚ × PowEvent)) : List PowAttempt := es.filterMap attemptOfEvent

theorem attemptsOf_snoc (es : List (ℚ × PowEvent)) (e : ℚ × PowEvent) :
    attemptsOf (es ++ [e]) = attemptsOf es ++ (attemptOfEvent e).toList := by
  rw [attemptsOf, List.filterMap_append, attemptsOf]
  cases h : attemptOfEvent e <;> simp [h]

/-- Time does not go backwards. -/
def Chronological (es : List (ℚ × PowEvent)) : Prop := es.Pairwise fun e e' => e.1 ≤ e'.1

/-- `t` is not before any of the events. -/
def NotBefore (t : ℚ) (es : List (ℚ × PowEvent)) : Prop := ∀ e ∈ es, e.1 ≤ t

variable {cfg : DifficultyConfig} {es : List (ℚ × PowEvent)} {t : ℚ}

theorem chronological_snoc {e : ℚ × PowEvent} (h : Chronological (es ++ [e])) :
    Chronological es ∧ NotBefore e.1 es := by
  rw [Chronological, List.pairwise_append] at h
  exact ⟨h.1, fun e' he' => h.2.2 e' he' e (List.mem_singleton.mpr rfl)⟩

/-- One step keeps the windows true to the attempts. -/
theorem windowsTrack_step {p : PowProcess} {log : List PowAttempt} (e : ℚ × PowEvent)
    (h : WindowsTrack cfg e.1 p.windows log) :
    WindowsTrack cfg e.1 (powStep cfg p e).windows (log ++ (attemptOfEvent e).toList) := by
  obtain ⟨t, ev⟩ := e
  cases ev with
  | issue random ipHash subnetHash =>
      show WindowsTrack cfg t (difficultyFor cfg ipHash subnetHash t p.windows).2 (log ++ [])
      rw [List.append_nil]
      exact h.asked ipHash subnetHash
  | attempt ipHash subnetHash => exact h.recorded ipHash subnetHash

/-- Along a run the windows track every attempt there was. -/
theorem windowsTrack_powRun (hes : Chronological es) (ht : NotBefore t es) :
    WindowsTrack cfg t (powRun cfg es).windows (attemptsOf es) := by
  induction es using List.reverseRecOn generalizing t with
  | nil => exact .new t
  | append_singleton es e ih =>
      obtain ⟨hes, hlast⟩ := chronological_snoc hes
      have hstep := windowsTrack_step e (ih hes hlast)
      rw [powRun_snoc, attemptsOf_snoc]
      exact hstep.later (ht e (by simp))

/-! ## Keys -/

def InWindow (cfg : DifficultyConfig) (t : ℚ) (a : PowAttempt) : Prop := t - cfg.reqWindowMs ≤ a.madeAt

instance (t : ℚ) (a : PowAttempt) : Decidable (InWindow cfg t a) := inferInstanceAs (Decidable (_ ≤ _))

theorem inWindow_pos_iff {p : PowAttempt → Bool} {log : List PowAttempt} :
    0 < inWindow cfg t p log ↔ ∃ a ∈ log, p a = true ∧ InWindow cfg t a := by
  rw [inWindow, countSince, timesOf, List.countP_map, List.countP_pos_iff]
  constructor
  · rintro ⟨a, ha, hin⟩
    rw [List.mem_filter] at ha
    exact ⟨a, ha.1, ha.2, of_decide_eq_true hin⟩
  · rintro ⟨a, ha, hp, hin⟩
    exact ⟨a, List.mem_filter.mpr ⟨ha, hp⟩, decide_eq_true hin⟩

/-- A key of a map of windows. -/
def Tracked (m : JsMap JsString (List ℚ)) (k : JsString) : Prop := (m.get? k).isSome = true

theorem tracked_set {m : JsMap JsString (List ℚ)} {k k' : JsString} {v : List ℚ} :
    Tracked (m.set k v) k' ↔ k' = k ∨ Tracked m k' := by
  rw [Tracked, JsMap.get?_set]
  split
  case isTrue h => simp [h]
  case isFalse h => simp [h, Tracked]

theorem tracked_modify {m : JsMap JsString (List ℚ)} {k k' : JsString} {f : List ℚ → List ℚ} :
    Tracked (m.modify k f) k' ↔ Tracked m k' := by
  rw [Tracked, JsMap.get?_modify, Tracked]
  split
  case isTrue h => simp [h]
  case isFalse => rfl

/-- A key with something in its window is tracked. -/
theorem tracked_of_stamps {m : JsMap JsString (List ℚ)} {k : JsString} (h : stampsOf m k ≠ []) :
    Tracked m k := by
  rw [Tracked]
  cases hget : m.get? k with
  | none => exact absurd (by rw [stampsOf, hget]; rfl) h
  | some v => rfl

/-- The map by subnet has every subnet that ever made an attempt. -/
theorem tracked_perSubnet_iff (s : JsString) :
    Tracked (powRun cfg es).windows.perSubnet s ↔ ∃ a ∈ attemptsOf es, bySubnet s a = true := by
  induction es using List.reverseRecOn with
  | nil => simp [powRun, PowProcess.start, PowWindows.new, Tracked, JsMap.empty, JsMap.get?, attemptsOf]
  | append_singleton es e ih =>
      obtain ⟨t, ev⟩ := e
      rw [powRun_snoc, attemptsOf_snoc]
      cases ev with
      | issue random ipHash subnetHash =>
          rw [show (attemptOfEvent (t, .issue random ipHash subnetHash)).toList = [] from rfl,
            List.append_nil, ← ih]
          simp only [powStep, issueChallenge, difficultyFor]
          split
          · rfl
          · exact tracked_modify
      | attempt ipHash subnetHash =>
          simp only [powStep, recordRequest, attemptOfEvent, Option.toList_some, List.mem_append,
            List.mem_singleton, or_and_right, exists_or, exists_eq_left]
          rcases Option.eq_none_or_eq_some (orNull subnetHash) with hsub | ⟨subnet, hsub⟩
          · simp [hsub, bySubnet, ih]
          · simp only [hsub, tracked_set, ih, bySubnet, beq_iff_eq, Option.some.injEq]
            rw [or_comm, eq_comm (a := s)]

/-! ## The cleanup -/

/-- The cleanup of `recordRequest` runs: it finds more than 5000 clients. -/
def CleansUp (ipHash : JsString) (now : ℚ) (w : PowWindows) : Prop :=
  5000 < (w.perIp.set ipHash (stampsOf w.perIp ipHash ++ [now])).size

instance (ipHash : JsString) (now : ℚ) (w : PowWindows) : Decidable (CleansUp ipHash now w) :=
  inferInstanceAs (Decidable (_ < _))

/-- Every key of either map has an attempt in the window. -/
structure KeysLive (cfg : DifficultyConfig) (t : ℚ) (w : PowWindows) (log : List PowAttempt) : Prop where
  perIp : ∀ ip, Tracked w.perIp ip → ∃ a ∈ log, a.ipHash = ip ∧ InWindow cfg t a
  perSubnet : ∀ s, Tracked w.perSubnet s → ∃ a ∈ log, orNull a.subnetHash = some s ∧ InWindow cfg t a

/-- No subnet that ever made an attempt has been silent for a window. -/
def NoSubnetSilent (cfg : DifficultyConfig) (t : ℚ) (log : List PowAttempt) : Prop :=
  ∀ a ∈ log, ∀ s, orNull a.subnetHash = some s → ∃ b ∈ log, orNull b.subnetHash = some s ∧ InWindow cfg t b

/-- A sweep leaves the keys with something in their window. -/
theorem stamps_of_tracked_sweep {m : JsMap JsString (List ℚ)} {cut : ℚ} {k : JsString}
    (hsize : m.size > 5000) (h : Tracked (sweep cut m) k) : pruneBefore cut (stampsOf m k) ≠ [] := by
  rw [Tracked, sweep, if_pos hsize, JsMap.get?_filterMapValues] at h
  obtain ⟨v, hv⟩ := Option.isSome_iff_exists.mp h
  obtain ⟨v₀, hv₀, hif⟩ := Option.bind_eq_some_iff.mp hv
  split at hif
  case isTrue => cases hif
  case isFalse hne =>
    rw [stampsOf, hv₀]
    simpa using hne

/-- After a cleanup every client that is left made an attempt in the window. -/
theorem perIp_live_of_cleanup {w : PowWindows} {log : List PowAttempt} {ipHash : JsString}
    {subnetHash : Option JsString} (h : WindowsTrack cfg t w log) (hcleans : CleansUp ipHash t w)
    {ip : JsString} (hip : Tracked (recordRequest cfg ipHash subnetHash t w).perIp ip) :
    ∃ a ∈ log ++ [⟨ipHash, subnetHash, t⟩], a.ipHash = ip ∧ InWindow cfg t a := by
  have hset : Tracks t (t - cfg.reqWindowMs)
      (stampsOf (w.perIp.set ipHash (stampsOf w.perIp ipHash ++ [t])) ip)
      (timesOf (byIp ip) (log ++ [⟨ipHash, subnetHash, t⟩])) := h.perIp_set ipHash subnetHash ip
  have hleft := stamps_of_tracked_sweep hcleans hip
  have hcount := hset.length_prune
  have hpos : 0 < inWindow cfg t (byIp ip) (log ++ [⟨ipHash, subnetHash, t⟩]) := by
    rw [inWindow, ← hcount]
    exact List.length_pos_iff.mpr hleft
  obtain ⟨a, ha, hby, hin⟩ := inWindow_pos_iff.mp hpos
  exact ⟨a, ha, by simpa [byIp] using hby, hin⟩

/-- After a cleanup the keys are live exactly if no subnet is silent. -/
theorem keysLive_iff (hes : Chronological es) (ht : NotBefore t es) {ipHash : JsString}
    {subnetHash : Option JsString} (hcleans : CleansUp ipHash t (powRun cfg es).windows) :
    KeysLive cfg t (powRun cfg (es ++ [(t, .attempt ipHash subnetHash)])).windows
        (attemptsOf (es ++ [(t, .attempt ipHash subnetHash)])) ↔
      NoSubnetSilent cfg t (attemptsOf (es ++ [(t, .attempt ipHash subnetHash)])) := by
  have hkeys := @tracked_perSubnet_iff cfg (es ++ [(t, .attempt ipHash subnetHash)])
  constructor
  · intro hlive a ha s hs
    exact hlive.perSubnet s ((hkeys s).mpr ⟨a, ha, by simpa [bySubnet] using hs⟩)
  · intro hsilent
    refine ⟨?_, ?_⟩
    · intro ip hip
      rw [powRun_snoc] at hip
      rw [attemptsOf_snoc]
      exact perIp_live_of_cleanup (windowsTrack_powRun hes ht) hcleans hip
    · intro s hs
      obtain ⟨a, ha, hby⟩ := (hkeys s).mp hs
      exact hsilent a ha s (by simpa [bySubnet] using hby)

/-! ## What rotating addresses gains -/

theorem difficultyOf_mono_mine {mine mine' : Nat} (h : mine ≤ mine') (range all : Nat) :
    difficultyOf cfg mine range all ≤ difficultyOf cfg mine' range all := by
  have hrepeats : max mine range ≤ max mine' range := max_le_max h le_rfl
  have hbits : max mine range * cfg.escalateBits ≤ max mine' range * cfg.escalateBits :=
    Nat.mul_le_mul_right _ hrepeats
  unfold difficultyOf wantedBits
  omega

/-- **After any run the difficulty is a function of the attempts in the
window: by the client, by its subnet, by all. No address of a subnet gets
less than the subnet's attempts ask for. A cleanup leaves live keys only,
if and only if every subnet that ever made an attempt made one in the
window.** -/
theorem escalation_memory_iff (hes : Chronological es) (ht : NotBefore t es) (ipHash : JsString)
    (subnetHash : Option JsString) :
    ((difficultyFor cfg ipHash subnetHash t (powRun cfg es).windows).1 =
        difficultyOf cfg (inWindow cfg t (byIp ipHash) (attemptsOf es))
          (inWindow cfg t (byRange subnetHash) (attemptsOf es)) (inWindow cfg t byAny (attemptsOf es)) ∧
      difficultyOf cfg 0 (inWindow cfg t (byRange subnetHash) (attemptsOf es))
          (inWindow cfg t byAny (attemptsOf es)) ≤
        (difficultyFor cfg ipHash subnetHash t (powRun cfg es).windows).1) ∧
    (CleansUp ipHash t (powRun cfg es).windows →
      (KeysLive cfg t (powRun cfg (es ++ [(t, .attempt ipHash subnetHash)])).windows
          (attemptsOf (es ++ [(t, .attempt ipHash subnetHash)])) ↔
        NoSubnetSilent cfg t (attemptsOf (es ++ [(t, .attempt ipHash subnetHash)])))) := by
  have heq := (@windowsTrack_powRun cfg _ _ hes ht).difficultyFor_eq ipHash subnetHash
  refine ⟨⟨heq, ?_⟩, keysLive_iff hes ht⟩
  rw [heq]
  exact difficultyOf_mono_mine (Nat.zero_le _) _ _

/-! ## A subnet that is never forgotten -/

/-- A key is among the entries. -/
theorem length_le_size {m : JsMap JsString (List ℚ)} {ks : List JsString} (hnodup : ks.Nodup)
    (h : ∀ k ∈ ks, Tracked m k) : ks.length ≤ m.size := by
  have hsub : ks ⊆ m.entries.map Prod.fst := by
    intro k hk
    by_contra hnot
    have hnone : m.get? k = none := JsMap.lookup_eq_none_of_not_mem hnot
    have hsome := h k hk
    rw [Tracked, hnone] at hsome
    cases hsome
  simpa [JsMap.size] using (List.subperm_of_subset hnodup hsub).length_le

/-- A client with an attempt in the window is tracked. -/
theorem tracked_of_inWindow {w : PowWindows} {log : List PowAttempt} (h : WindowsTrack cfg t w log)
    {a : PowAttempt} (ha : a ∈ log) (hin : InWindow cfg t a) : Tracked w.perIp a.ipHash := by
  refine tracked_of_stamps fun hnil => ?_
  have hcount := (h.perIp a.ipHash).count (t - cfg.reqWindowMs) le_rfl
  have hpos : 0 < inWindow cfg t (byIp a.ipHash) log := inWindow_pos_iff.mpr ⟨a, ha, by simp [byIp], hin⟩
  rw [hnil, countSince_nil] at hcount
  rw [inWindow, ← hcount] at hpos
  exact absurd hpos (lt_irrefl 0)

/-- A run in which nothing is issued. -/
def runOf (log : List PowAttempt) : List (ℚ × PowEvent) :=
  log.map fun a => (a.madeAt, .attempt a.ipHash a.subnetHash)

theorem attemptsOf_runOf (log : List PowAttempt) : attemptsOf (runOf log) = log := by
  induction log with
  | nil => rfl
  | cons a log ih => exact congrArg (a :: ·) ih

/-- One attempt each of 5000 clients of which no subnet is known. -/
def crowd : List PowAttempt := (List.range 5000).map fun i => ⟨decimal i, none, 7200000⟩

/-- An attempt out of a subnet, two hours before the crowd. -/
def beforeCrowd : PowAttempt := ⟨js "first", some (js "range"), 0⟩

theorem mem_crowd {a : PowAttempt} (h : a ∈ crowd) : a.madeAt = 7200000 ∧ a.subnetHash = none := by
  obtain ⟨i, _, rfl⟩ := List.mem_map.mp h
  exact ⟨rfl, rfl⟩

theorem chronological_crowd : Chronological (runOf crowd) := by
  rw [Chronological, runOf, List.pairwise_map, crowd, List.pairwise_map]
  exact List.pairwise_of_forall fun _ _ => le_rfl

theorem notBefore_crowd : NotBefore 7200000 (runOf crowd) := by
  intro e he
  obtain ⟨a, ha, rfl⟩ := List.mem_map.mp he
  exact (mem_crowd ha).1.le

theorem chronological_busy : Chronological (runOf (beforeCrowd :: crowd)) := by
  refine List.pairwise_cons.mpr ⟨?_, chronological_crowd⟩
  intro e he
  obtain ⟨a, ha, rfl⟩ := List.mem_map.mp he
  show (0 : ℚ) ≤ a.madeAt
  rw [(mem_crowd ha).1]
  norm_num

theorem notBefore_busy : NotBefore 7200000 (runOf (beforeCrowd :: crowd)) := by
  intro e he
  rcases List.mem_cons.mp he with rfl | hrest
  · norm_num [beforeCrowd]
  · exact notBefore_crowd e hrest

/-- Whoever comes after the crowd is one more than 5000. -/
theorem cleansUp_crowd {log : List PowAttempt} (hes : Chronological (runOf log))
    (ht : NotBefore 7200000 (runOf log)) (hcrowd : crowd ⊆ log) :
    CleansUp (decimal 5000) 7200000 (powRun (stockPowAt 20) (runOf log)).windows := by
  have htrack := @windowsTrack_powRun (stockPowAt 20) _ _ hes ht
  rw [attemptsOf_runOf] at htrack
  have hkeys : ((List.range 5001).map decimal).Nodup :=
    List.nodup_range.map fun i j hij => by
      rw [← decimalValue_decimal i, hij, decimalValue_decimal]
  refine lt_of_lt_of_le (show 5000 < ((List.range 5001).map decimal).length by simp)
    (length_le_size hkeys ?_)
  intro k hk
  obtain ⟨i, hi, rfl⟩ := List.mem_map.mp hk
  rw [tracked_set]
  rcases Nat.lt_succ_iff_lt_or_eq.mp (List.mem_range.mp hi) with hlt | rfl
  · have hmem : (⟨decimal i, none, 7200000⟩ : PowAttempt) ∈ log :=
      hcrowd (List.mem_map.mpr ⟨i, List.mem_range.mpr hlt, rfl⟩)
    exact .inr (tracked_of_inWindow htrack hmem (by norm_num [InWindow, stockPowAt]))
  · exact .inl rfl

theorem cleansUp_busy :
    CleansUp (decimal 5000) 7200000 (powRun (stockPowAt 20) (runOf (beforeCrowd :: crowd))).windows :=
  cleansUp_crowd chronological_busy notBefore_busy fun _ ha => List.mem_cons_of_mem _ ha

/-- The crowd, and then one more client out of the subnet of two hours ago. -/
def subnetReturns : List (ℚ × PowEvent) :=
  runOf (beforeCrowd :: crowd) ++ [(7200000, .attempt (decimal 5000) (some (js "range")))]

theorem attemptsOf_subnetReturns :
    attemptsOf subnetReturns = beforeCrowd :: crowd ++ [⟨decimal 5000, some (js "range"), 7200000⟩] := by
  rw [subnetReturns, attemptsOf_snoc, attemptsOf_runOf]
  rfl

/-- The only attempt of the first client is out of the window. -/
theorem first_not_live {a : PowAttempt} (ha : a ∈ attemptsOf subnetReturns) (hip : a.ipHash = js "first") :
    ¬ InWindow (stockPowAt 20) 7200000 a := by
  have hname (i : Nat) : decimal i ≠ js "first" := fun heq => by
    have hdigits := all_isDecimalUnit_decimal i
    rw [heq] at hdigits
    exact absurd hdigits (by decide)
  rw [attemptsOf_subnetReturns, List.cons_append] at ha
  rcases List.mem_cons.mp ha with rfl | hlater
  · norm_num [InWindow, stockPowAt, beforeCrowd]
  · rcases List.mem_append.mp hlater with hcrowd | hnew
    · obtain ⟨i, -, rfl⟩ := List.mem_map.mp hcrowd
      exact absurd hip (hname i)
    · rw [List.mem_singleton.mp hnew] at hip
      exact absurd hip (hname 5000)

/-- The cleanup leaves live keys only: the subnet, which has come back, and
not its client of two hours ago. -/
theorem escalation_memory_iff_crowd :
    CleansUp (decimal 5000) 7200000 (powRun (stockPowAt 20) (runOf (beforeCrowd :: crowd))).windows ∧
      KeysLive (stockPowAt 20) 7200000 (powRun (stockPowAt 20) subnetReturns).windows (attemptsOf subnetReturns) ∧
      Tracked (powRun (stockPowAt 20) subnetReturns).windows.perSubnet (js "range") ∧
      beforeCrowd ∈ attemptsOf subnetReturns ∧
      ¬ Tracked (powRun (stockPowAt 20) subnetReturns).windows.perIp beforeCrowd.ipHash := by
  have hnew : (⟨decimal 5000, some (js "range"), 7200000⟩ : PowAttempt) ∈ attemptsOf subnetReturns := by
    rw [attemptsOf_subnetReturns]
    exact List.mem_append_right _ (List.mem_singleton_self _)
  have hold : beforeCrowd ∈ attemptsOf subnetReturns := by
    rw [attemptsOf_subnetReturns]
    exact List.mem_cons_self
  have hlive : KeysLive (stockPowAt 20) 7200000 (powRun (stockPowAt 20) subnetReturns).windows
      (attemptsOf subnetReturns) := by
    refine ((escalation_memory_iff chronological_busy notBefore_busy (decimal 5000) (some (js "range"))).2
      cleansUp_busy).mpr fun a ha s hs => ?_
    have hrange : s = js "range" := by
      rw [← subnetReturns, attemptsOf_subnetReturns, List.cons_append] at ha
      rcases List.mem_cons.mp ha with rfl | hlater
      · exact (Option.some.inj hs).symm
      · rcases List.mem_append.mp hlater with hcrowd | hnew
        · rw [(mem_crowd hcrowd).2] at hs
          cases hs
        · rw [List.mem_singleton.mp hnew] at hs
          exact (Option.some.inj hs).symm
    exact ⟨_, hnew, by rw [hrange]; rfl, by norm_num [InWindow, stockPowAt]⟩
  refine ⟨cleansUp_busy, hlive, (tracked_perSubnet_iff _).mpr ⟨_, hnew, by decide⟩, hold, fun hfirst => ?_⟩
  obtain ⟨a, ha, hip, hin⟩ := hlive.perIp _ hfirst
  exact first_not_live ha hip hin

/-- The subnet of an attempt of two hours ago is still a key after the
cleanup, with nothing in the window. -/
theorem silent_subnet_kept :
    (stockPowAt 20).numbers.Admitted ∧ Chronological (runOf (beforeCrowd :: crowd)) ∧
      NotBefore 7200000 (runOf (beforeCrowd :: crowd)) ∧
      CleansUp (decimal 5000) 7200000 (powRun (stockPowAt 20) (runOf (beforeCrowd :: crowd))).windows ∧
      ¬ KeysLive (stockPowAt 20) 7200000
        (powRun (stockPowAt 20)
          (runOf (beforeCrowd :: crowd) ++ [(7200000, .attempt (decimal 5000) none)])).windows
        (attemptsOf (runOf (beforeCrowd :: crowd) ++ [(7200000, .attempt (decimal 5000) none)])) := by
  refine ⟨readPowNumbers_admitted (show readPowNumbers (envAt 20) = _ by decide +kernel),
    chronological_busy, notBefore_busy, cleansUp_busy, ?_⟩
  rw [keysLive_iff chronological_busy notBefore_busy cleansUp_busy, attemptsOf_snoc, attemptsOf_runOf]
  intro hsilent
  obtain ⟨b, hb, hsub, hin⟩ := hsilent beforeCrowd (List.mem_append_left _ List.mem_cons_self)
    (js "range") rfl
  rcases List.mem_append.mp hb with hold | hnew
  · rcases List.mem_cons.mp hold with rfl | hcrowd
    · norm_num [InWindow, stockPowAt, beforeCrowd] at hin
    · rw [(mem_crowd hcrowd).2] at hsub
      cases hsub
  · rw [show b = ⟨decimal 5000, none, 7200000⟩ by simpa [attemptOfEvent] using hnew] at hsub
    cases hsub

end ZcashFaucet.Pow
