/-
ZcashFaucet.Crosslink.Cache — the node's state as the status page has it:
`crosslink/cache.ts`.

The node is read off the request path, one read at a time, and the page
serves what the last one left in the cell of `Lib.Cells`. A read is three
events: it begins, the answer on recency comes, the answer on the chain
comes. Between them the cell may be reset; the read then ends in the cell
it began in, and pages look at the new one.

A page that finds a cold cell with a read in flight waits, for that read
or for 1.5 s. Here it is resumed at any later instant, which is all a wait
can do and more.

`answers` is what pages were told. `replies` belongs to the history: the
answers a stored state was made of, and when its read began.
-/
import ZcashFaucet.Lib.Run
import ZcashFaucet.Lib.Cells
import ZcashFaucet.Crosslink.Node

namespace ZcashFaucet.Crosslink

open Lib Evidence

/-- MAX_CACHE_AGE_MS. -/
def maxCacheAgeMs : ℚ := 180000

/-- A state, with the answers it was made of and when its read began. -/
structure NodeRead where
  state : CtazNodeState
  startedAt : ℚ
  replies : NodeAnswers

/-- Where a read stands. -/
inductive ReadPhase
  | recency
  | info (recency : Json) (answeredAt : ℚ) (reading : CtazReading)

/-- What a page was told, by which clock it asked, and when. -/
structure PageAnswer where
  state : CtazNodeState
  cell : Nat
  askedAt : ℚ
  servedAt : ℚ
  deriving DecidableEq

structure CtazCache where
  cells : Cells NodeRead
  /-- When cell `k` became the current one. -/
  bornAt : Nat → ℚ
  /-- The interval of cell `k` is set. -/
  timer : Nat → Bool
  startedAt : Nat → ℚ
  phase : Nat → ReadPhase
  /-- The pages that wait, by the clock they came at. -/
  waiting : List ℚ
  answers : List PageAnswer

def CtazCache.boot (clock : ℚ) : CtazCache :=
  ⟨.cold clock, fun _ => clock, fun _ => false, fun _ => clock, fun _ => .recency, [], []⟩

/-! ## Serving -/

/-- The `at` of the current cell: 0 where nothing was ever read. -/
def CtazCache.readAt (s : CtazCache) : ℚ := (s.cells.current.held.map Prod.snd).getD 0

/-- `cachedCtazNodeState`, the cell as it is. -/
def cachedCtazNodeState (nowMs : ℚ) (s : CtazCache) : CtazNodeState :=
  if s.readAt = 0 then unknownNode .none
  else ((s.cells.current.fresh maxCacheAgeMs nowMs).map NodeRead.state).getD (unknownNode .none)

def CtazCache.answer (askedAt : ℚ) (s : CtazCache) : CtazCache :=
  { s with
    answers := s.answers ++ [⟨cachedCtazNodeState askedAt s, s.cells.number, askedAt, s.cells.clock⟩] }

/-! ## Steps -/

/-- `refresh`. A read of the current cell begins, if none is running. -/
def CtazCache.refresh (s : CtazCache) : CtazCache :=
  if s.cells.current.inflight then s
  else { s with
    cells := s.cells.start
    startedAt := Function.update s.startedAt s.cells.number s.cells.clock
    phase := Function.update s.phase s.cells.number .recency }

/-- `startCtazStateRefresher`. -/
def CtazCache.startRefresher (s : CtazCache) : CtazCache :=
  if s.timer s.cells.number then s
  else { s.refresh with timer := Function.update s.timer s.cells.number true }

/-- `cachedCtazNodeStateWarm`, up to its answer or its wait. -/
def CtazCache.page (s : CtazCache) : CtazCache :=
  let s' := s.startRefresher
  if s'.readAt = 0 ∧ s'.cells.current.inflight then { s' with waiting := s'.waiting ++ [s'.cells.clock] }
  else s'.answer s'.cells.clock

/-- `resetCtazStateCacheForTests`. -/
def CtazCache.reset (s : CtazCache) : CtazCache :=
  { s with
    cells := s.cells.reset
    bornAt := Function.update s.bornAt (s.cells.number + 1) s.cells.clock
    timer := Function.update s.timer (s.cells.number + 1) false }

inductive CacheEvent
  | tick (ms : ℚ)
  | boot
  | interval
  | recencyReply (k : Nat) (reply : Json)
  | infoReply (k : Nat) (reply : Json) (file : Option Json)
  | page
  | wake (askedAt : ℚ)
  | reset

variable (numText : ℚ → JsString)

/-- The answer on recency, in a read of cell `k`; it may end the read. -/
def CtazCache.onRecency (k : Nat) (reply : Json) (s : CtazCache) : CtazCache :=
  match readCtazRecency numText reply s.cells.clock with
  | some reading => { s with phase := Function.update s.phase k (.info reply s.cells.clock reading) }
  | none => { s with cells := s.cells.fail k }

/-- What the read of cell `k` leaves there. -/
def readOf (startedAt : ℚ) (recency : Json) (answeredAt : ℚ) (reading : CtazReading) (info : Json)
    (file : Option Json) : NodeRead :=
  ⟨nodeStateOf startedAt reading (readCtazInfo info) file, startedAt, ⟨recency, answeredAt, info, file⟩⟩

def CtazCache.step (s : CtazCache) : CacheEvent → Option CtazCache
  | .tick ms => if 0 ≤ ms then some { s with cells := s.cells.tick ms } else none
  | .boot => some s.startRefresher
  | .interval => if s.timer s.cells.number then some s.refresh else none
  | .recencyReply k reply =>
      match s.phase k with
      | .recency => if k ∈ s.cells.flights then some (s.onRecency numText k reply) else none
      | .info .. => none
  | .infoReply k reply file =>
      match s.phase k with
      | .recency => none
      | .info recency answeredAt reading =>
          if k ∈ s.cells.flights then
            some { s with
              cells := s.cells.store k (readOf (s.startedAt k) recency answeredAt reading reply file) }
          else none
  | .page => some s.page
  | .wake askedAt =>
      if askedAt ∈ s.waiting then
        some ({ s.startRefresher with waiting := s.waiting.erase askedAt }.answer askedAt)
      else none
  | .reset => some s.reset

/-! ## What a step does to what -/

theorem refresh_cells (s : CtazCache) : s.refresh.cells = s.cells.start := by
  unfold CtazCache.refresh
  split
  case isTrue hflight => rw [Cells.start_of_inflight hflight]
  case isFalse => rfl

@[simp] theorem refresh_answers (s : CtazCache) : s.refresh.answers = s.answers := by
  unfold CtazCache.refresh
  split <;> rfl

@[simp] theorem refresh_waiting (s : CtazCache) : s.refresh.waiting = s.waiting := by
  unfold CtazCache.refresh
  split <;> rfl

@[simp] theorem refresh_bornAt (s : CtazCache) : s.refresh.bornAt = s.bornAt := by
  unfold CtazCache.refresh
  split <;> rfl

/-- A read in flight after a refresh was in flight before, or it begins. -/
theorem flight_of_refresh {s : CtazCache} {k : Nat} (hk : k ∈ s.refresh.cells.flights) :
    (k ∈ s.cells.flights ∧ s.refresh.startedAt k = s.startedAt k ∧ s.refresh.phase k = s.phase k) ∨
      (k = s.cells.number ∧ s.refresh.startedAt k = s.cells.clock ∧ s.refresh.phase k = .recency) := by
  unfold CtazCache.refresh at hk ⊢
  split at hk
  case isTrue hflight =>
    rw [if_pos hflight]
    exact .inl ⟨hk, rfl, rfl⟩
  case isFalse hidle =>
    rw [if_neg hidle]
    by_cases hkn : k = s.cells.number
    · subst hkn
      exact .inr ⟨rfl, Function.update_self _ _ _, Function.update_self _ _ _⟩
    · rcases Cells.mem_flights_start hk with hold | ⟨hnew, -⟩
      · exact .inl ⟨hold, Function.update_of_ne hkn _ _, Function.update_of_ne hkn _ _⟩
      · exact absurd hnew hkn

/-- The refresher is the refresh or nothing, but for its timer. -/
theorem startRefresher_cases (s : CtazCache) :
    s.startRefresher = s ∨
      s.startRefresher = { s.refresh with timer := Function.update s.timer s.cells.number true } := by
  unfold CtazCache.startRefresher
  split
  · exact .inl rfl
  · exact .inr rfl

/-! ## The invariant -/

/-- A stored state is what the answers beside it come to, read from when
its cell was there and before it was stored. -/
structure Explained (s : CtazCache) (d : Stored NodeRead) : Prop where
  made : readCtazNodeState numText true d.value.startedAt d.value.replies = some d.value.state
  born : s.bornAt d.cell ≤ d.value.startedAt
  asked : d.value.startedAt ≤ d.value.replies.answeredAt
  stored : d.value.replies.answeredAt ≤ d.storedAt

/-- A page that was told to serve was told so by a state of its cell that
was not too old. -/
def PageAnswer.Backed (a : PageAnswer) (stored : List (Stored NodeRead)) : Prop :=
  a.askedAt ≤ a.servedAt ∧
    (a.state.servable = true →
      ∃ d ∈ stored, d.cell = a.cell ∧ d.value.state = a.state ∧ d.storedAt ≤ a.servedAt ∧
        a.askedAt - d.storedAt ≤ maxCacheAgeMs)

structure CacheInv (s : CtazCache) : Prop where
  cells : s.cells.Inv
  explained : ∀ d ∈ s.cells.stored, Explained numText s d
  /-- A read in flight began after its cell was there. -/
  reading : ∀ k ∈ s.cells.flights, s.bornAt k ≤ s.startedAt k ∧ s.startedAt k ≤ s.cells.clock
  /-- The answer that is in was read at its own clock. -/
  halfway : ∀ k ∈ s.cells.flights, ∀ recency answeredAt reading,
    s.phase k = .info recency answeredAt reading →
      readCtazRecency numText recency answeredAt = some reading ∧ s.startedAt k ≤ answeredAt ∧
        answeredAt ≤ s.cells.clock
  born : s.bornAt s.cells.number ≤ s.cells.clock
  came : ∀ t ∈ s.waiting, t ≤ s.cells.clock
  backed : ∀ a ∈ s.answers, a.Backed s.cells.stored

namespace CacheInv

variable {numText} {s : CtazCache}

theorem boot (clock : ℚ) : CacheInv numText (.boot clock) := by
  refine ⟨Cells.Inv.cold clock, fun d hd => ?_, fun k hk => ?_, fun k hk => ?_, le_rfl, fun t ht => ?_,
    fun a ha => ?_⟩
  · cases hd
  · cases hk
  · cases hk
  · cases ht
  · cases ha

theorem tick (h : CacheInv numText s) {ms : ℚ} (hms : 0 ≤ ms) :
    CacheInv numText { s with cells := s.cells.tick ms } := by
  have hle : s.cells.clock ≤ s.cells.clock + ms := le_add_of_nonneg_right hms
  refine ⟨h.cells.tick hms, fun d hd => ?_, fun k hk => ?_, fun k hk recency answeredAt reading hphase => ?_,
    h.born.trans hle, fun t ht => (h.came t ht).trans hle, h.backed⟩
  · obtain ⟨hmade, hborn, hasked, hstored⟩ := h.explained d hd
    exact ⟨hmade, hborn, hasked, hstored⟩
  · exact ⟨(h.reading k hk).1, (h.reading k hk).2.trans hle⟩
  · obtain ⟨hread, hasked, hclock⟩ := h.halfway k hk recency answeredAt reading hphase
    exact ⟨hread, hasked, hclock.trans hle⟩

theorem refresh (h : CacheInv numText s) : CacheInv numText s.refresh := by
  have hcells := refresh_cells s
  refine ⟨?_, ?_, ?_, ?_, ?_, ?_, ?_⟩
  · rw [hcells]
    exact h.cells.start
  · rw [hcells, Cells.start_stored]
    intro d hd
    obtain ⟨hmade, hborn, hasked, hstored⟩ := h.explained d hd
    exact ⟨hmade, by rwa [refresh_bornAt], hasked, hstored⟩
  · rw [hcells, Cells.start_clock, refresh_bornAt, ← hcells]
    intro k hk
    rcases flight_of_refresh hk with ⟨hold, hstarted, -⟩ | ⟨rfl, hstarted, -⟩
    · rw [hstarted]
      exact h.reading k hold
    · rw [hstarted]
      exact ⟨h.born, le_rfl⟩
  · intro k hk recency answeredAt reading hphase
    rw [hcells, Cells.start_clock]
    rcases flight_of_refresh hk with ⟨hold, hstarted, hsame⟩ | ⟨-, -, hnew⟩
    · rw [hstarted]
      exact h.halfway k hold recency answeredAt reading (hsame ▸ hphase)
    · rw [hnew] at hphase
      cases hphase
  · rw [hcells, Cells.start_clock, Cells.start_number, refresh_bornAt]
    exact h.born
  · rw [hcells, Cells.start_clock, refresh_waiting]
    exact h.came
  · rw [hcells, Cells.start_stored, refresh_answers]
    exact h.backed

theorem startRefresher (h : CacheInv numText s) : CacheInv numText s.startRefresher := by
  rcases startRefresher_cases s with heq | heq
  · rw [heq]
    exact h
  · rw [heq]
    obtain ⟨hcells, hexplained, hreading, hhalfway, hborn, hcame, hbacked⟩ := h.refresh
    refine ⟨hcells, fun d hd => ?_, hreading, hhalfway, hborn, hcame, hbacked⟩
    obtain ⟨hmade, hb, hasked, hstored⟩ := hexplained d hd
    exact ⟨hmade, hb, hasked, hstored⟩

/-- Whatever the cell says to a page, the history says why. -/
theorem backed_cached (h : CacheInv numText s) {askedAt : ℚ} (hasked : askedAt ≤ s.cells.clock) :
    (⟨cachedCtazNodeState askedAt s, s.cells.number, askedAt, s.cells.clock⟩ : PageAnswer).Backed
      s.cells.stored := by
  refine ⟨hasked, fun hserves => ?_⟩
  dsimp only at hserves ⊢
  unfold cachedCtazNodeState at hserves ⊢
  split at hserves
  case isTrue =>
    rw [unknownNode_refuses] at hserves
    cases hserves
  case isFalse hread =>
    rw [if_neg hread]
    cases hfresh : s.cells.current.fresh maxCacheAgeMs askedAt with
    | none =>
      rw [hfresh] at hserves
      exact absurd hserves (by simp [unknownNode_refuses])
    | some v =>
      obtain ⟨d, hd, hcell, rfl, hclock, hage⟩ := h.cells.fresh hfresh
      exact ⟨d, hd, hcell, rfl, hclock, hage⟩

theorem answer (h : CacheInv numText s) {askedAt : ℚ} (hasked : askedAt ≤ s.cells.clock) :
    CacheInv numText (s.answer askedAt) := by
  refine ⟨h.cells, fun d hd => ?_, h.reading, h.halfway, h.born, h.came, fun a ha => ?_⟩
  · obtain ⟨hmade, hb, hask, hstored⟩ := h.explained d hd
    exact ⟨hmade, hb, hask, hstored⟩
  · rcases List.mem_append.mp ha with hold | hnew
    · exact h.backed a hold
    · obtain rfl := List.mem_singleton.mp hnew
      exact h.backed_cached hasked

theorem wait (h : CacheInv numText s) : CacheInv numText { s with waiting := s.waiting ++ [s.cells.clock] } := by
  refine ⟨h.cells, fun d hd => ?_, h.reading, h.halfway, h.born, fun t ht => ?_, h.backed⟩
  · obtain ⟨hmade, hb, hask, hstored⟩ := h.explained d hd
    exact ⟨hmade, hb, hask, hstored⟩
  · rcases List.mem_append.mp ht with hold | hnew
    · exact h.came t hold
    · exact (List.mem_singleton.mp hnew).le

theorem page (h : CacheInv numText s) : CacheInv numText s.page := by
  unfold CtazCache.page
  dsimp only
  split
  · exact h.startRefresher.wait
  · exact h.startRefresher.answer le_rfl

/-- A page that stops waiting asks by the clock it came at. -/
theorem wake (h : CacheInv numText s) {askedAt : ℚ} (hwaits : askedAt ∈ s.waiting) :
    CacheInv numText ({ s.startRefresher with waiting := s.waiting.erase askedAt }.answer askedAt) := by
  obtain ⟨hcells, hexplained, hreading, hhalfway, hborn, hcame, hbacked⟩ := h.startRefresher
  have hwaiting : s.startRefresher.waiting = s.waiting := by
    rcases startRefresher_cases s with heq | heq
    · rw [heq]
    · rw [heq]
      exact refresh_waiting s
  rw [hwaiting] at hcame
  have hrest : CacheInv numText { s.startRefresher with waiting := s.waiting.erase askedAt } := by
    refine ⟨hcells, fun d hd => ?_, hreading, hhalfway, hborn,
      fun t ht => hcame t (List.mem_of_mem_erase ht), hbacked⟩
    obtain ⟨hmade, hb, hask, hstored⟩ := hexplained d hd
    exact ⟨hmade, hb, hask, hstored⟩
  exact hrest.answer (hcame askedAt hwaits)

theorem reset (h : CacheInv numText s) : CacheInv numText s.reset := by
  have hborn : ∀ k ≤ s.cells.number, s.reset.bornAt k = s.bornAt k := fun k hk =>
    Function.update_of_ne (Nat.lt_succ_of_le hk).ne _ _
  refine ⟨h.cells.reset, fun d hd => ?_, fun k hk => ?_, h.halfway, ?_, h.came, h.backed⟩
  · obtain ⟨hmade, hb, hask, hstored⟩ := h.explained d hd
    refine ⟨hmade, ?_, hask, hstored⟩
    rw [hborn d.cell (h.cells.history d hd).1]
    exact hb
  · rw [hborn k (h.cells.numbered k hk)]
    exact h.reading k hk
  · exact (Function.update_self _ _ _).le

/-- A read that ends without a state leaves everything but its flag. -/
theorem fail (h : CacheInv numText s) {k : Nat} (hk : k ∈ s.cells.flights) :
    CacheInv numText { s with cells := s.cells.fail k } := by
  refine ⟨h.cells.fail hk, fun d hd => ?_, fun j hj => h.reading j (List.mem_of_mem_erase hj),
    fun j hj => h.halfway j (List.mem_of_mem_erase hj), h.born, h.came, h.backed⟩
  obtain ⟨hmade, hb, hask, hstored⟩ := h.explained d hd
  exact ⟨hmade, hb, hask, hstored⟩

theorem onRecency (h : CacheInv numText s) {k : Nat} (hk : k ∈ s.cells.flights) (reply : Json) :
    CacheInv numText (s.onRecency numText k reply) := by
  unfold CtazCache.onRecency
  cases hread : readCtazRecency numText reply s.cells.clock with
  | none => exact h.fail hk
  | some reading =>
    refine ⟨h.cells, fun d hd => ?_, h.reading, fun j hj recency answeredAt reading' hphase => ?_, h.born,
      h.came, h.backed⟩
    · obtain ⟨hmade, hb, hask, hstored⟩ := h.explained d hd
      exact ⟨hmade, hb, hask, hstored⟩
    · by_cases hjk : j = k
      · subst hjk
        dsimp only at hphase
        rw [Function.update_self] at hphase
        obtain ⟨rfl, rfl, rfl⟩ := ReadPhase.info.inj hphase
        exact ⟨hread, (h.reading j hj).2, le_rfl⟩
      · dsimp only at hphase
        rw [Function.update_of_ne hjk] at hphase
        exact h.halfway j hj recency answeredAt reading' hphase

/-- The state that is stored is what the node answered. -/
theorem store (h : CacheInv numText s) {k : Nat} (hk : k ∈ s.cells.flights) {recency : Json}
    {answeredAt : ℚ} {reading : CtazReading} (hphase : s.phase k = .info recency answeredAt reading)
    (info : Json) (file : Option Json) :
    CacheInv numText
      { s with cells := s.cells.store k (readOf (s.startedAt k) recency answeredAt reading info file) } := by
  obtain ⟨hread, hasked, hclock⟩ := h.halfway k hk recency answeredAt reading hphase
  refine ⟨h.cells.store hk _, fun d hd => ?_, fun j hj => h.reading j (List.mem_of_mem_erase hj),
    fun j hj => h.halfway j (List.mem_of_mem_erase hj), h.born, h.came, fun a ha => ?_⟩
  · rcases List.mem_append.mp hd with hold | hnew
    · obtain ⟨hmade, hb, hask, hstored⟩ := h.explained d hold
      exact ⟨hmade, hb, hask, hstored⟩
    · obtain rfl := List.mem_singleton.mp hnew
      exact ⟨by simp [readCtazNodeState, readOf, hread], (h.reading k hk).1, hasked, hclock⟩
  · obtain ⟨hle, hserves⟩ := h.backed a ha
    refine ⟨hle, fun hservable => ?_⟩
    obtain ⟨d, hd, hrest⟩ := hserves hservable
    exact ⟨d, List.mem_append_left _ hd, hrest⟩

theorem step {s' : CtazCache} {e : CacheEvent} (h : CacheInv numText s) (hstep : s.step numText e = some s') :
    CacheInv numText s' := by
  cases e with
  | tick ms =>
    obtain ⟨hms, heq⟩ := Option.ite_none_right_eq_some.mp hstep
    obtain rfl := Option.some.inj heq
    exact h.tick hms
  | boot =>
    obtain rfl := Option.some.inj hstep
    exact h.startRefresher
  | interval =>
    obtain ⟨-, heq⟩ := Option.ite_none_right_eq_some.mp hstep
    obtain rfl := Option.some.inj heq
    exact h.refresh
  | recencyReply k reply =>
    simp only [CtazCache.step] at hstep
    split at hstep
    · obtain ⟨hk, heq⟩ := Option.ite_none_right_eq_some.mp hstep
      obtain rfl := Option.some.inj heq
      exact h.onRecency hk reply
    · cases hstep
  | infoReply k reply file =>
    simp only [CtazCache.step] at hstep
    split at hstep
    · cases hstep
    · obtain ⟨hk, heq⟩ := Option.ite_none_right_eq_some.mp hstep
      obtain rfl := Option.some.inj heq
      exact h.store hk ‹_› reply file
  | page =>
    obtain rfl := Option.some.inj hstep
    exact h.page
  | wake askedAt =>
    obtain ⟨hwaits, heq⟩ := Option.ite_none_right_eq_some.mp hstep
    obtain rfl := Option.some.inj heq
    exact h.wake hwaits
  | reset =>
    obtain rfl := Option.some.inj hstep
    exact h.reset

end CacheInv

/-! ## Every run -/

variable {numText}

private theorem cacheInv_run {clock : ℚ} {es : List CacheEvent} {s : CtazCache}
    (hrun : run (CtazCache.step numText) (.boot clock) es = some s) : CacheInv numText s :=
  run_invariant (CacheInv numText) (fun _ _ _ h hstep => h.step hstep) (.boot clock) hrun

/-- A page that is told the node can serve is told so on two replies of the
node, read for this cell and not before it was there, that say so together;
the state they made is no older than the cache allows. -/
theorem servable_page_backed {clock : ℚ} {es : List CacheEvent} {s : CtazCache}
    (hrun : run (CtazCache.step numText) (.boot clock) es = some s) {a : PageAnswer} (ha : a ∈ s.answers)
    (hserves : a.state.servable = true) :
    ∃ d ∈ s.cells.stored, d.cell = a.cell ∧ d.value.state = a.state ∧
      s.bornAt a.cell ≤ d.value.startedAt ∧ d.value.startedAt ≤ d.value.replies.answeredAt ∧
      d.value.replies.answeredAt ≤ d.storedAt ∧ d.storedAt ≤ a.servedAt ∧
      a.askedAt - d.storedAt ≤ maxCacheAgeMs ∧
      ∃ height, SaysCurrent d.value.replies.recency d.value.replies.answeredAt height ∧
        NearTip d.value.replies.info height := by
  have hinv := cacheInv_run hrun
  obtain ⟨-, hbacked⟩ := hinv.backed a ha
  obtain ⟨d, hd, hcell, hstate, hstored, hage⟩ := hbacked hserves
  have hwhy := hinv.explained d hd
  refine ⟨d, hd, hcell, hstate, hcell ▸ hwhy.born, hwhy.asked, hwhy.stored, hstored, hage, ?_⟩
  exact (servable_readCtazNodeState hwhy.made).mp (hstate ▸ hserves)

/-- A node at its tip is asked once. -/
def oneRead : List CacheEvent :=
  [.boot, .tick 20000, .recencyReply 0 recencyReplyNow, .tick 5000, .infoReply 0 infoReplyNow none, .tick 60000,
    .page]

def servedOnce : PageAnswer :=
  ⟨nodeNow, 0, 1700000085000, 1700000085000⟩

theorem servable_page_backed_oneRead :
    ∃ s, run (CtazCache.step fun _ => []) (.boot 1700000000000) oneRead = some s ∧
      ∃ d ∈ s.cells.stored, servedOnce.askedAt - d.storedAt ≤ maxCacheAgeMs := by
  have hlast : (run (CtazCache.step fun _ => []) (.boot 1700000000000) oneRead).bind
      (fun s => s.answers.head?) = some servedOnce := by decide +kernel
  obtain ⟨s, hrun, hhead⟩ := Option.bind_eq_some_iff.mp hlast
  obtain ⟨d, hd, -, -, -, -, -, -, hage, -⟩ :=
    servable_page_backed hrun (List.mem_of_mem_head? hhead) (by decide +kernel)
  exact ⟨s, hrun, d, hd, hage⟩

end ZcashFaucet.Crosslink
