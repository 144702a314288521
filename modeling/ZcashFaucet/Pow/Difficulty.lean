/-
ZcashFaucet.Pow.Difficulty — how hard the next challenge is: the
in-memory windows of `pow.ts` and the ceiling of `powBudget.ts`.

The windows are three views of one history, the attempts that were ever
recorded. `WindowsTrack` says that the views are true to it, whatever was
pruned or swept on the way, and `difficultyFor_eq` that the difficulty is
a function of three counts over it.
-/
import ZcashFaucet.Lib.JsMap
import ZcashFaucet.Lib.SlidingWindow
import ZcashFaucet.Pow.Challenge

namespace ZcashFaucet.Pow

open Lib

/-! ## Configuration -/

/-- `config.pow`, where the bits are whole numbers, and REQ_WINDOW_MS. -/
structure DifficultyConfig where
  pow : PowConfig
  baseBits : Nat
  maxBits : Nat
  escalateBits : Nat
  ttlSeconds : ℚ
  reqWindowMs : ℚ
  base_eq : pow.baseBits = baseBits
  max_eq : pow.maxBits = maxBits

/-- SLOW_BROWSER_HASHES_PER_SEC. -/
def slowBrowserHashesPerSec : ℚ := 100000

/-- SOLVE_BUDGET_FRACTION. -/
def solveBudgetFraction : ℚ := 1 / 2

def ttlSecondsFor (bits baseBits : Nat) (baseTtlSeconds : ℚ) : ℚ :=
  if bits ≤ baseBits then baseTtlSeconds
  else (⌊baseTtlSeconds * ((bits : ℚ) / baseBits) + 1 / 2⌋ : ℤ)

def solveSecondsFor (bits : Nat) : ℚ := (2 : ℚ) ^ bits / slowBrowserHashesPerSec

/-- The loop of `solvableCeilingBits`, with `left` values of `bits` to go. -/
def ceilingFrom (baseBits : Nat) (baseTtlSeconds : ℚ) : (left bits best : Nat) → Nat
  | 0, _, best => best
  | left + 1, bits, best =>
      if solveSecondsFor bits > ttlSecondsFor bits baseBits baseTtlSeconds * solveBudgetFraction then best
      else ceilingFrom baseBits baseTtlSeconds left (bits + 1) bits

/-- `solvableCeilingBits`: `bits` goes from the base up to 40. -/
def solvableCeilingBits (baseBits : Nat) (baseTtlSeconds : ℚ) : Nat :=
  ceilingFrom baseBits baseTtlSeconds (41 - baseBits) baseBits baseBits

variable (cfg : DifficultyConfig)

/-- A threshold of ten minutes, scaled to the window. -/
def perHour (n : Nat) : Nat := max n ⌊(n * cfg.reqWindowMs) / 600000 + 1 / 2⌋.toNat

/-- The step the global rate puts on every challenge. -/
def pressure (all : Nat) : Nat :=
  if all ≥ perHour cfg 60 then 3
  else if all ≥ perHour cfg 25 then 2
  else if all ≥ perHour cfg 10 then 1
  else 0

/-- The lower of the two ceilings. -/
def ceilingBits : Nat := min cfg.maxBits (solvableCeilingBits cfg.baseBits cfg.ttlSeconds)

/-- What the counts ask for, before a ceiling. -/
def wantedBits (mine range all : Nat) : Nat :=
  cfg.baseBits + max mine range * cfg.escalateBits + pressure cfg all

/-- The difficulty the three counts give. -/
def difficultyOf (mine range all : Nat) : Nat := min (ceilingBits cfg) (wantedBits cfg mine range all)

/-! ## Windows -/

structure PowWindows where
  perIp : JsMap JsString (List ℚ)
  perSubnet : JsMap JsString (List ℚ)
  globalReqs : List ℚ

def PowWindows.new : PowWindows := ⟨.empty, .empty, []⟩

/-- What a `?? []` reads. -/
def stampsOf (m : JsMap JsString (List ℚ)) (k : JsString) : List ℚ := (m.get? k).getD []

/-- `difficultyFor`. It prunes in place what it reads. -/
def difficultyFor (ipHash : JsString) (subnetHash : Option JsString) (now : ℚ) (w : PowWindows) :
    Nat × PowWindows :=
  let cut := now - cfg.reqWindowMs
  let perIp := w.perIp.modify ipHash (pruneBefore cut)
  let globalReqs := pruneBefore cut w.globalReqs
  match orNull subnetHash with
  | none => (difficultyOf cfg (stampsOf perIp ipHash).length 0 globalReqs.length,
      ⟨perIp, w.perSubnet, globalReqs⟩)
  | some subnet =>
      let perSubnet := w.perSubnet.modify subnet (pruneBefore cut)
      (difficultyOf cfg (stampsOf perIp ipHash).length (stampsOf perSubnet subnet).length globalReqs.length,
        ⟨perIp, perSubnet, globalReqs⟩)

/-- The cleanup of `perIp` once it holds more than 5000 clients. -/
def sweep (cut : ℚ) (perIp : JsMap JsString (List ℚ)) : JsMap JsString (List ℚ) :=
  if perIp.size > 5000 then
    perIp.filterMapValues fun v => if (pruneBefore cut v).isEmpty then none else some (pruneBefore cut v)
  else perIp

def recordRequest (ipHash : JsString) (subnetHash : Option JsString) (now : ℚ) (w : PowWindows) :
    PowWindows :=
  let cut := now - cfg.reqWindowMs
  let perSubnet := match orNull subnetHash with
    | none => w.perSubnet
    | some subnet => w.perSubnet.set subnet (pruneBefore cut (stampsOf w.perSubnet subnet) ++ [now])
  let perIp := w.perIp.set ipHash (stampsOf w.perIp ipHash ++ [now])
  ⟨sweep cut perIp, perSubnet, w.globalReqs ++ [now]⟩

/-! ## The history behind the windows -/

/-- An attempt that was recorded. -/
structure PowAttempt where
  ipHash : JsString
  subnetHash : Option JsString
  madeAt : ℚ
  deriving DecidableEq

def timesOf (p : PowAttempt → Bool) (log : List PowAttempt) : List ℚ := (log.filter p).map PowAttempt.madeAt

def byIp (ipHash : JsString) (a : PowAttempt) : Bool := a.ipHash == ipHash

def bySubnet (subnet : JsString) (a : PowAttempt) : Bool := orNull a.subnetHash == some subnet

/-- A client without a subnet has none of the attempts of one. -/
def byRange (subnetHash : Option JsString) (a : PowAttempt) : Bool :=
  (orNull subnetHash).any fun subnet => bySubnet subnet a

def byAny (_ : PowAttempt) : Bool := true

/-- How many attempts of a kind are in the window at `now`. -/
def inWindow (now : ℚ) (p : PowAttempt → Bool) (log : List PowAttempt) : Nat :=
  countSince (now - cfg.reqWindowMs) (timesOf p log)

structure WindowsTrack (now : ℚ) (w : PowWindows) (log : List PowAttempt) : Prop where
  perIp : ∀ ip, Tracks now (now - cfg.reqWindowMs) (stampsOf w.perIp ip) (timesOf (byIp ip) log)
  perSubnet : ∀ s, Tracks now (now - cfg.reqWindowMs) (stampsOf w.perSubnet s) (timesOf (bySubnet s) log)
  globalReqs : Tracks now (now - cfg.reqWindowMs) w.globalReqs (timesOf byAny log)

variable {cfg}

@[simp] theorem timesOf_append (p : PowAttempt → Bool) (log log' : List PowAttempt) :
    timesOf p (log ++ log') = timesOf p log ++ timesOf p log' := by
  simp [timesOf]

theorem timesOf_singleton (p : PowAttempt → Bool) (a : PowAttempt) :
    timesOf p [a] = if p a then [a.madeAt] else [] := by
  by_cases h : p a <;> simp [timesOf, h]

theorem stampsOf_set (m : JsMap JsString (List ℚ)) (k : JsString) (v : List ℚ) (k' : JsString) :
    stampsOf (m.set k v) k' = if k' = k then v else stampsOf m k' := by
  rw [stampsOf, JsMap.get?_set]
  split <;> rfl

theorem stampsOf_modify (m : JsMap JsString (List ℚ)) (k : JsString) (cut : ℚ) (k' : JsString) :
    stampsOf (m.modify k (pruneBefore cut)) k' =
      if k' = k then pruneBefore cut (stampsOf m k) else stampsOf m k' := by
  rw [stampsOf, JsMap.get?_modify]
  by_cases hk : k' = k
  · subst hk
    unfold stampsOf
    cases m.get? k' <;> simp [pruneBefore]
  · simp [hk, stampsOf]

/-- A sweep leaves every window as it is, or pruned. -/
theorem stampsOf_sweep (cut : ℚ) (m : JsMap JsString (List ℚ)) (k : JsString) :
    stampsOf (sweep cut m) k = stampsOf m k ∨ stampsOf (sweep cut m) k = pruneBefore cut (stampsOf m k) := by
  unfold sweep
  split
  · refine .inr ?_
    unfold stampsOf
    rw [JsMap.get?_filterMapValues]
    cases m.get? k with
    | none => rfl
    | some v =>
        simp only [Option.bind_some, Option.getD_some]
        split
        case isTrue hempty => simpa using (List.isEmpty_iff.mp hempty).symm
        case isFalse => rfl
  · exact .inl rfl

namespace WindowsTrack

variable {now : ℚ} {w : PowWindows} {log : List PowAttempt}

theorem new (now : ℚ) : WindowsTrack cfg now .new [] :=
  ⟨fun _ => .nil _ _, fun _ => .nil _ _, .nil _ _⟩

theorem later (h : WindowsTrack cfg now w log) {now' : ℚ} (hnow : now ≤ now') :
    WindowsTrack cfg now' w log := by
  have hcut : now - cfg.reqWindowMs ≤ now' - cfg.reqWindowMs := sub_le_sub_right hnow _
  exact ⟨fun ip => (h.perIp ip).later hnow hcut, fun s => (h.perSubnet s).later hnow hcut,
    h.globalReqs.later hnow hcut⟩

/-- Asking for a difficulty prunes, and changes no count. -/
theorem asked (h : WindowsTrack cfg now w log) (ipHash : JsString) (subnetHash : Option JsString) :
    WindowsTrack cfg now (difficultyFor cfg ipHash subnetHash now w).2 log := by
  have hip : ∀ ip, Tracks now (now - cfg.reqWindowMs)
      (stampsOf (w.perIp.modify ipHash (pruneBefore (now - cfg.reqWindowMs))) ip)
      (timesOf (byIp ip) log) := by
    intro ip
    rw [stampsOf_modify]
    split
    case isTrue hk => exact hk ▸ (h.perIp ip).prune
    case isFalse => exact h.perIp ip
  unfold difficultyFor
  split
  case h_1 => exact ⟨hip, h.perSubnet, h.globalReqs.prune⟩
  case h_2 subnet _ =>
    refine ⟨hip, ?_, h.globalReqs.prune⟩
    intro s
    simp only [stampsOf_modify]
    split
    case isTrue hk => exact hk ▸ (h.perSubnet s).prune
    case isFalse => exact h.perSubnet s

/-- The window of a client, with the attempt that is being recorded. -/
theorem perIp_set (h : WindowsTrack cfg now w log) (ipHash : JsString) (subnetHash : Option JsString)
    (ip : JsString) :
    Tracks now (now - cfg.reqWindowMs)
      (stampsOf (w.perIp.set ipHash (stampsOf w.perIp ipHash ++ [now])) ip)
      (timesOf (byIp ip) (log ++ [⟨ipHash, subnetHash, now⟩])) := by
  rw [stampsOf_set, timesOf_append, timesOf_singleton]
  by_cases hk : ip = ipHash
  · subst hk
    simpa [byIp] using (h.perIp ip).push
  · have hother : ipHash ≠ ip := Ne.symm hk
    simpa [byIp, hk, hother] using h.perIp ip

/-- A recorded attempt is one more in the history. -/
theorem recorded (h : WindowsTrack cfg now w log) (ipHash : JsString) (subnetHash : Option JsString) :
    WindowsTrack cfg now (recordRequest cfg ipHash subnetHash now w) (log ++ [⟨ipHash, subnetHash, now⟩]) := by
  refine ⟨?_, ?_, ?_⟩
  · intro ip
    simp only [recordRequest]
    rcases stampsOf_sweep (now - cfg.reqWindowMs)
      (w.perIp.set ipHash (stampsOf w.perIp ipHash ++ [now])) ip with hsame | hpruned
    · rw [hsame]
      exact h.perIp_set ipHash subnetHash ip
    · rw [hpruned]
      exact (h.perIp_set ipHash subnetHash ip).prune
  · intro s
    rw [timesOf_append, timesOf_singleton]
    rcases Option.eq_none_or_eq_some (orNull subnetHash) with hsub | ⟨subnet, hsub⟩
    · simpa [recordRequest, bySubnet, hsub] using h.perSubnet s
    · by_cases hk : s = subnet
      · subst hk
        simpa [recordRequest, bySubnet, hsub, stampsOf_set] using (h.perSubnet s).prune.push
      · have hother : subnet ≠ s := Ne.symm hk
        simpa [recordRequest, bySubnet, hsub, stampsOf_set, hk, hother] using h.perSubnet s
  · rw [timesOf_append, timesOf_singleton]
    simpa [byAny, recordRequest] using h.globalReqs.push

/-- The difficulty is a function of three counts over the history. -/
theorem difficultyFor_eq (h : WindowsTrack cfg now w log) (ipHash : JsString)
    (subnetHash : Option JsString) :
    (difficultyFor cfg ipHash subnetHash now w).1 =
      difficultyOf cfg (inWindow cfg now (byIp ipHash) log) (inWindow cfg now (byRange subnetHash) log)
        (inWindow cfg now byAny log) := by
  have hmine : (stampsOf (w.perIp.modify ipHash (pruneBefore (now - cfg.reqWindowMs))) ipHash).length =
      inWindow cfg now (byIp ipHash) log := by
    rw [stampsOf_modify, if_pos rfl, (h.perIp ipHash).length_prune]
    rfl
  have hall : (pruneBefore (now - cfg.reqWindowMs) w.globalReqs).length = inWindow cfg now byAny log :=
    h.globalReqs.length_prune
  unfold difficultyFor
  split
  case h_1 hsub =>
    have hrange : inWindow cfg now (byRange subnetHash) log = 0 := by
      have hno : byRange subnetHash = fun _ => false := by
        funext a
        simp [byRange, hsub]
      rw [inWindow, hno]
      simp [timesOf]
    rw [hrange, ← hmine, ← hall]
  case h_2 subnet hsub =>
    have hrange : (stampsOf (w.perSubnet.modify subnet (pruneBefore (now - cfg.reqWindowMs))) subnet).length =
        inWindow cfg now (byRange subnetHash) log := by
      have heq : byRange subnetHash = bySubnet subnet := by
        funext a
        simp [byRange, hsub]
      rw [stampsOf_modify, if_pos rfl, (h.perSubnet subnet).length_prune, heq]
      rfl
    rw [← hrange, ← hmine, ← hall]

end WindowsTrack

end ZcashFaucet.Pow
