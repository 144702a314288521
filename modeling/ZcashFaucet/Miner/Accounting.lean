/-
ZcashFaucet.Miner.Accounting — do the outcomes of the solved blocks add up
to the solved blocks?

A turn solves at most one block (`seekBlock_quiet`, `mineOnce`), and what
follows `g.solved()` records one outcome of it or none (`settled_eq`). It
records none on three exits, `LosesBlock`: the block does not serialize,
the proposal call fails, the submit call fails. So the books close after
every turn exactly if no turn takes one of them.

The counters saturate, so all this is about the first 2^64 blocks.
-/
import ZcashFaucet.Miner.Mining
import ZcashFaucet.Miner.LifetimeTheorems
import ZcashFaucet.Miner.WaitingTheorems

namespace ZcashFaucet.Miner

open Lib

/-! ## The books -/

/-- A count that is not known yet counts from zero. -/
def countOf (v : Option UInt64) : Nat := (v.getD 0).toNat

def solvedOf (c : Counts) : Nat := countOf c.solved

/-- Accepted, rejected and discarded. -/
def settledOf (c : Counts) : Nat := countOf c.accepted + countOf c.rejected + countOf c.discarded

def BooksClose (s : State) : Prop := solvedOf s.counts = settledOf s.counts

instance (s : State) : Decidable (BooksClose s) := inferInstanceAs (Decidable (_ = _))

def Recorded.solves : Recorded → Nat
  | .solved => 1
  | _ => 0

def Recorded.settles : Recorded → Nat
  | .submitted _ => 1
  | .rejected _ => 1
  | .discarded => 1
  | _ => 0

def solves (rs : List Recorded) : Nat := (rs.map Recorded.solves).sum

def settles (rs : List Recorded) : Nat := (rs.map Recorded.settles).sum

@[simp] theorem solves_nil : solves [] = 0 := rfl

@[simp] theorem settles_nil : settles [] = 0 := rfl

@[simp] theorem solves_cons (r : Recorded) (rs : List Recorded) :
    solves (r :: rs) = r.solves + solves rs := by simp [solves]

@[simp] theorem settles_cons (r : Recorded) (rs : List Recorded) :
    settles (r :: rs) = r.settles + settles rs := by simp [settles]

@[simp] theorem solves_append (rs rs' : List Recorded) :
    solves (rs ++ rs') = solves rs + solves rs' := by simp [solves]

@[simp] theorem settles_append (rs rs' : List Recorded) :
    settles (rs ++ rs') = settles rs + settles rs' := by simp [settles]

/-! ## What a record adds -/

theorem countOf_bump {v : Option UInt64} (h : countOf v + 1 < 2 ^ 64) :
    countOf (bump v) = countOf v + 1 := by
  simp only [countOf] at h
  simp only [countOf, bump, Option.getD_some, toNat_saturatingSucc, h, if_true]

theorem solvedOf_record {c : Counts} {r : Recorded} (h : solvedOf c + r.solves < 2 ^ 64) :
    solvedOf (c.record r) = solvedOf c + r.solves := by
  cases r with
  | solved => exact countOf_bump h
  | submitted accepted => cases accepted <;> rfl
  | _ => rfl

theorem settledOf_record {c : Counts} {r : Recorded} (h : settledOf c + r.settles < 2 ^ 64) :
    settledOf (c.record r) = settledOf c + r.settles := by
  simp only [settledOf] at h ⊢
  cases r with
  | submitted accepted =>
    simp only [Recorded.settles] at h ⊢
    cases accepted with
    | true => simp only [Counts.record, countOf_bump (v := c.accepted) (by omega)]; omega
    | false => simp only [Counts.record, countOf_bump (v := c.rejected) (by omega)]; omega
  | rejected reason =>
    simp only [Recorded.settles] at h ⊢
    simp only [Counts.record, countOf_bump (v := c.rejected) (by omega)]
    omega
  | discarded =>
    simp only [Recorded.settles] at h ⊢
    simp only [Counts.record, countOf_bump (v := c.discarded) (by omega)]
    omega
  | _ => rfl

/-- A history of records, whatever the clock says. -/
theorem tally_replay {es : History} : ∀ {s : State},
    solvedOf s.counts + solves (es.map Prod.snd) < 2 ^ 64 →
    settledOf s.counts + settles (es.map Prod.snd) < 2 ^ 64 →
    solvedOf (s.replay es).counts = solvedOf s.counts + solves (es.map Prod.snd) ∧
      settledOf (s.replay es).counts = settledOf s.counts + settles (es.map Prod.snd) := by
  induction es with
  | nil => exact fun _ _ => ⟨rfl, rfl⟩
  | cons e es ih =>
    intro s hsolved hsettled
    obtain ⟨now, r⟩ := e
    simp only [List.map_cons, solves_cons, settles_cons] at hsolved hsettled ⊢
    have hs : solvedOf (s.record now r).counts = solvedOf s.counts + r.solves := by
      rw [record_counts, solvedOf_record (by omega)]
    have ht : settledOf (s.record now r).counts = settledOf s.counts + r.settles := by
      rw [record_counts, settledOf_record (by omega)]
    obtain ⟨h1, h2⟩ := ih (s := s.record now r) (by omega) (by omega)
    have hcons : s.replay ((now, r) :: es) = (s.record now r).replay es := rfl
    rw [hcons, h1, h2, hs, ht]
    omega

/-! ## What a turn adds -/

/-- Neither solves nor settles anything. -/
def Quiet (rs : List Recorded) : Prop := solves rs = 0 ∧ settles rs = 0

theorem syncGuard_quiet (maxLag : UInt64) (g : GuardReplies) : Quiet (syncGuard maxLag g).1 := by
  unfold syncGuard
  split
  · exact ⟨rfl, rfl⟩
  · split
    · exact ⟨rfl, rfl⟩
    · split
      · exact ⟨rfl, rfl⟩
      · split
        · exact ⟨rfl, rfl⟩
        · split
          · exact ⟨rfl, rfl⟩
          · split <;> exact ⟨rfl, rfl⟩

/-- An end without a block is no outcome the main loop counts. -/
def Sought.Uncounted : Sought → Prop
  | .ended result => recordedOf result = []
  | .found _ _ => True

theorem seekWithin_quiet (crates : Crates) (t : Template) (a : Answers) :
    Quiet (seekWithin crates t a).1 ∧ (seekWithin crates t a).2.Uncounted := by
  unfold seekWithin
  split
  · exact ⟨⟨rfl, rfl⟩, rfl⟩
  · split
    · exact ⟨⟨rfl, rfl⟩, rfl⟩
    · split
      · exact ⟨⟨rfl, rfl⟩, rfl⟩
      · split
        · exact ⟨⟨rfl, rfl⟩, rfl⟩
        · exact ⟨⟨rfl, rfl⟩, trivial⟩

/-- Before a block is solved, and where none is, the books do not move. -/
theorem seekBlock_quiet (crates : Crates) (config : Config) (a : Answers) :
    Quiet (seekBlock crates config a).1 ∧ (seekBlock crates config a).2.Uncounted := by
  have hguard := syncGuard_quiet config.maxLag a.guard
  unfold seekBlock
  split
  · rename_i rs e heq
    rw [heq] at hguard
    exact ⟨hguard, rfl⟩
  · rename_i rs why heq
    rw [heq] at hguard
    exact ⟨hguard, rfl⟩
  · rename_i rs heq
    rw [heq] at hguard
    split
    · exact ⟨⟨by simp [hguard.1, Recorded.solves], by simp [hguard.2, Recorded.settles]⟩, rfl⟩
    · split
      · exact ⟨hguard, rfl⟩
      · rename_i t _
        obtain ⟨hwithin, hend⟩ := seekWithin_quiet crates t a
        exact ⟨⟨by simp [hguard.1, hwithin.1, Recorded.solves],
          by simp [hguard.2, hwithin.2, Recorded.settles]⟩, hend⟩

/-- The guard lets the block through. -/
def mayMine (maxLag : UInt64) (g : GuardReplies) : Bool :=
  match (syncGuard maxLag g).2 with
  | .ok none => true
  | _ => false

/-- A solved block has no outcome: it does not serialize, the proposal
call fails, or it would be submitted and the submit call fails. -/
def loses (crates : Crates) (config : Config) (t : Template) (solved : Header) (a : Answers) :
    Bool :=
  match serializeBlock crates.hex solved t, a.proposal, a.submit with
  | .error _, _, _ => true
  | .ok _, .error _, _ => true
  | .ok _, .ok said, .error _ => said.isNull && mayMine config.maxLag a.recheck
  | .ok _, .ok _, .ok _ => false

/-- A block is solved and lost. -/
def losesBlock (crates : Crates) (config : Config) (a : Answers) : Bool :=
  match (seekBlock crates config a).2 with
  | .ended _ => false
  | .found t solved => loses crates config t solved a

/-- What is recorded of a solved block, the main loop's part included. -/
def settled (crates : Crates) (config : Config) (t : Template) (solved : Header) (a : Answers) :
    List Recorded :=
  (settleBlock crates config t solved a).1 ++ recordedOf (settleBlock crates config t solved a).2

/-- The exits after the second guard. -/
theorem settled_of_null {crates : Crates} {maxLag : UInt64} {t : Template} {solved : Header}
    {a : Answers} {bytes : List UInt8} {said : Value}
    (hser : serializeBlock crates.hex solved t = .ok bytes) (hprop : a.proposal = .ok said)
    (hnull : said.isNull = true) :
    solves (settled crates ⟨.submit, maxLag⟩ t solved a) = 0 ∧
      settles (settled crates ⟨.submit, maxLag⟩ t solved a) =
        match a.submit with
        | .error _ => if mayMine maxLag a.recheck then 0 else 1
        | .ok _ => 1 := by
  obtain ⟨rs, verdict, hrecheck⟩ : ∃ rs verdict, syncGuard maxLag a.recheck = (rs, verdict) :=
    ⟨_, _, rfl⟩
  have hguard := syncGuard_quiet maxLag a.recheck
  rw [hrecheck] at hguard
  obtain ⟨hsolves, hsettles⟩ : solves rs = 0 ∧ settles rs = 0 := hguard
  rcases verdict with e | _ | why
  · cases a.submit <;> simp [settled, settleBlock, mayMine, hser, hprop, hnull, hrecheck, hsolves,
      hsettles, recordedOf, Recorded.solves, Recorded.settles]
  · cases hsubmit : a.submit with
    | error e => simp [settled, settleBlock, mayMine, hser, hprop, hnull, hrecheck, hsubmit,
        hsolves, hsettles, recordedOf, Recorded.solves, Recorded.settles]
    | ok submitted =>
      cases hdone : submitted.isNull <;>
        simp [settled, settleBlock, hser, hprop, hnull, hrecheck, hsubmit, hdone, hsolves,
          hsettles, recordedOf, Recorded.solves, Recorded.settles]
  · cases a.submit <;> simp [settled, settleBlock, mayMine, hser, hprop, hnull, hrecheck, hsolves,
      hsettles, recordedOf, Recorded.solves, Recorded.settles]

theorem settled_tally (crates : Crates) (maxLag : UInt64) (t : Template) (solved : Header)
    (a : Answers) :
    solves (settled crates ⟨.submit, maxLag⟩ t solved a) = 0 ∧
      settles (settled crates ⟨.submit, maxLag⟩ t solved a) =
        if loses crates ⟨.submit, maxLag⟩ t solved a then 0 else 1 := by
  cases hser : serializeBlock crates.hex solved t with
  | error e =>
    simp [settled, settleBlock, loses, hser, recordedOf]
  | ok bytes =>
    cases hprop : a.proposal with
    | error e =>
      simp [settled, settleBlock, loses, hser, hprop, recordedOf, Recorded.solves, Recorded.settles]
    | ok said =>
      cases hnull : said.isNull with
      | false =>
        cases hsubmit : a.submit <;>
          simp [settled, settleBlock, loses, hser, hprop, hnull, hsubmit, recordedOf,
            Recorded.solves, Recorded.settles]
      | true =>
        obtain ⟨hsolves, hsettles⟩ := settled_of_null hser hprop hnull
        refine ⟨hsolves, hsettles.trans ?_⟩
        cases hsubmit : a.submit <;> simp [loses, hser, hprop, hnull, hsubmit]

/-- The two kinds of turns. -/
theorem turn_of_ended {crates : Crates} {config : Config} {a : Answers} {rs : List Recorded}
    {result : Except String Outcome} (h : seekBlock crates config a = (rs, .ended result)) :
    turn crates config a = rs ++ recordedOf result ∧ losesBlock crates config a = false := by
  simp [turn, mineOnce, losesBlock, h]

theorem turn_of_found {crates : Crates} {config : Config} {a : Answers} {rs : List Recorded}
    {t : Template} {solved : Header} (h : seekBlock crates config a = (rs, .found t solved)) :
    turn crates config a = rs ++ .solved :: settled crates config t solved a ∧
      losesBlock crates config a = loses crates config t solved a := by
  simp [turn, mineOnce, losesBlock, settled, h]

/-- A turn solves at most one block, and settles it unless it loses it. -/
theorem turn_tally (crates : Crates) (maxLag : UInt64) (a : Answers) :
    solves (turn crates ⟨.submit, maxLag⟩ a) ≤ 1 ∧
      settles (turn crates ⟨.submit, maxLag⟩ a) +
          (if losesBlock crates ⟨.submit, maxLag⟩ a then 1 else 0) =
        solves (turn crates ⟨.submit, maxLag⟩ a) := by
  have hquiet := seekBlock_quiet crates ⟨.submit, maxLag⟩ a
  cases hsought : seekBlock crates ⟨.submit, maxLag⟩ a with
  | mk rs sought =>
    rw [hsought] at hquiet
    obtain ⟨⟨hsolves, hsettles⟩, hend⟩ := hquiet
    simp only at hsolves hsettles
    cases sought with
    | ended result =>
      have hnone : recordedOf result = [] := hend
      obtain ⟨hturn, hloses⟩ := turn_of_ended hsought
      simp [hturn, hloses, hnone, hsolves, hsettles]
    | found t solved =>
      obtain ⟨hturn, hloses⟩ := turn_of_found hsought
      obtain ⟨hnone, hone⟩ := settled_tally crates maxLag t solved a
      have hs : Recorded.solves .solved = 1 := rfl
      have ht : Recorded.settles .solved = 0 := rfl
      rw [hturn, hloses, solves_append, settles_append, solves_cons, settles_cons, hnone, hone,
        hsolves, hsettles, hs, ht]
      split <;> simp

/-! ## Turn after turn -/

/-- A turn and the clock it reads. -/
structure Turn where
  answers : Answers
  clock : Nat → UInt64

def Turn.history (crates : Crates) (config : Config) (turnOf : Turn) : History :=
  (turn crates config turnOf.answers).zipIdx.map fun r => (turnOf.clock r.2, r.1)

/-- The heartbeat after a sequence of turns. -/
def mining (crates : Crates) (config : Config) (s : State) (turns : List Turn) : State :=
  turns.foldl (fun s one => s.replay (one.history crates config)) s

@[simp] theorem mining_nil (crates : Crates) (config : Config) (s : State) :
    mining crates config s [] = s := rfl

theorem mining_cons (crates : Crates) (config : Config) (s : State) (one : Turn)
    (turns : List Turn) : mining crates config s (one :: turns) =
      mining crates config (s.replay (one.history crates config)) turns := rfl

/-- A turn from closed books leaves them closed unless it loses a block. -/
theorem replay_books (crates : Crates) (maxLag : UInt64) (one : Turn) {s : State}
    (hclose : BooksClose s) (hroom : solvedOf s.counts + 1 < 2 ^ 64) :
    solvedOf (s.replay (one.history crates ⟨.submit, maxLag⟩)).counts ≤ solvedOf s.counts + 1 ∧
      (BooksClose (s.replay (one.history crates ⟨.submit, maxLag⟩)) ↔
        losesBlock crates ⟨.submit, maxLag⟩ one.answers = false) := by
  have hmap : (one.history crates ⟨.submit, maxLag⟩).map Prod.snd =
      turn crates ⟨.submit, maxLag⟩ one.answers := by
    simp [Turn.history, Function.comp_def]
  obtain ⟨hone, hbalance⟩ := turn_tally crates maxLag one.answers
  have hbooks : solvedOf s.counts = settledOf s.counts := hclose
  obtain ⟨hsolved, hsettled⟩ := @tally_replay (one.history crates ⟨.submit, maxLag⟩) s
    (by rw [hmap]; omega) (by rw [hmap]; omega)
  rw [hmap] at hsolved hsettled
  rw [BooksClose, hsolved, hsettled]
  cases hloses : losesBlock crates ⟨.submit, maxLag⟩ one.answers with
  | true =>
    simp only [hloses, if_true] at hbalance
    simp
    omega
  | false =>
    simp only [hloses, Bool.false_eq_true, if_false] at hbalance
    simp
    omega

theorem forall_prefix_cons {α : Type} {P : List α → Prop} {a : α} {l : List α} :
    (∀ d, d <+: a :: l → P d) ↔ P [] ∧ ∀ d, d <+: l → P (a :: d) := by
  constructor
  · intro h
    exact ⟨h [] List.nil_prefix, fun d hd => h (a :: d) (List.cons_prefix_cons.mpr ⟨rfl, hd⟩)⟩
  · rintro ⟨hnil, hcons⟩ d hd
    rcases List.prefix_cons_iff.mp hd with rfl | ⟨rest, rfl, hrest⟩
    · exact hnil
    · exact hcons rest hrest

/-- The books are closed after every turn exactly if they are at the start
and no turn loses a block. -/
theorem books_close_iff (crates : Crates) (maxLag : UInt64) (s : State) (turns : List Turn)
    (hroom : solvedOf s.counts + turns.length < 2 ^ 64) :
    (∀ done, done <+: turns → BooksClose (mining crates ⟨.submit, maxLag⟩ s done)) ↔
      BooksClose s ∧ ∀ one ∈ turns, losesBlock crates ⟨.submit, maxLag⟩ one.answers = false := by
  induction turns generalizing s with
  | nil => simp [mining]
  | cons one turns ih =>
    rw [List.length_cons] at hroom
    simp only [forall_prefix_cons, mining_nil, mining_cons, List.forall_mem_cons]
    refine and_congr_right fun hclose => ?_
    obtain ⟨hle, hbooks⟩ := replay_books crates maxLag one hclose (by omega)
    rw [ih _ (by omega), hbooks]

/-! ## A node that stops answering -/

def sampleTemplate : Template where
  version := 4
  previousBlockHash := "00000000000000000000000000000000000000000000000000000000000000a1"
  defaultRoots :=
    { merkleRoot := "00000000000000000000000000000000000000000000000000000000000000a2"
      blockCommitmentsHash := "00000000000000000000000000000000000000000000000000000000000000a3" }
  transactions := ⟨[], by decide⟩
  coinbaseTxn := ⟨"aa01"⟩
  bits := "1f2f93c0"
  curTime := 1700000123
  height := 4204726

/-- `serde` on the one reply below, which is the template's. -/
def sampleCrates : Crates where
  hex := .plain
  fromValue _ := .ok sampleTemplate
  display _ := js "null"

def sampleReply : Value :=
  .object
    [(js "version", .number (.posInt 4)),
      (js "previousblockhash", .string (js sampleTemplate.previousBlockHash)),
      (js "defaultroots", .object
        [(js "merkleroot", .string (js sampleTemplate.defaultRoots.merkleRoot)),
          (js "blockcommitmentshash",
            .string (js sampleTemplate.defaultRoots.blockCommitmentsHash))]),
      (js "transactions", .array []),
      (js "coinbasetxn", .object [(js "data", .string (js "aa01"))]),
      (js "bits", .string (js "1f2f93c0")),
      (js "curtime", .number (.posInt 1700000123)),
      (js "height", .number (.posInt 4204726))]

/-- At the tip, with a peer. -/
def atTheTip : GuardReplies where
  info := .ok (.object [(js "blocks", .number (.posInt 4204725)),
    (js "estimatedheight", .number (.posInt 4204725))])
  peers := .ok (.array [.object []])

def acceptedTurn : Turn where
  answers :=
    { guard := atTheTip
      template := .ok sampleReply
      abandon := false
      found := some (Vector.replicate 32 7, ⟨List.replicate 1344 1, by rw [List.length_replicate]; decide⟩)
      proposal := .ok .null
      recheck := atTheTip
      submit := .ok .null }
  clock _ := 1700000130

/-- The proposal call times out. -/
def timedOutTurn : Turn where
  answers :=
    { acceptedTurn.answers with
      proposal := .error "getblocktemplate: timeout: global" }
  clock := acceptedTurn.clock

def freshState : State := .seeded .submit 1700000000 3 8 .unknown

theorem books_close_accepted :
    BooksClose (mining sampleCrates ⟨.submit, 100⟩ freshState [acceptedTurn, acceptedTurn]) := by
  have hkept : losesBlock sampleCrates ⟨.submit, 100⟩ acceptedTurn.answers = false := by
    decide +kernel
  exact (books_close_iff sampleCrates 100 freshState [acceptedTurn, acceptedTurn]
    (by decide)).mpr ⟨by decide, by simp [hkept]⟩ _ List.prefix_rfl

theorem timedOut_unsettled : BooksClose freshState ∧
    ¬ BooksClose (mining sampleCrates ⟨.submit, 100⟩ freshState [timedOutTurn]) := by
  decide +kernel

end ZcashFaucet.Miner
