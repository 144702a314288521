/-
ZcashFaucet.Db.UsedChallenges — the ledger's record of burned
proof-of-work challenges.

One table, keyed by the signature as the client sent it. A string bound
to a statement is stored as UTF-8, so the key is the string with its
unpaired surrogates replaced (`toWellFormed`), for either driver.

Every spend first deletes the rows of expired challenges and then
inserts its own row or ignores it. The two are separate statements here:
on SQLite they run back to back, on D1 they are two requests in flight.
-/
import ZcashFaucet.Lib.JsString
import Mathlib.Data.Rat.Floor

namespace ZcashFaucet.Db

open Lib

/-- A row of `used_challenges (sig TEXT PRIMARY KEY, exp INTEGER)`. -/
structure UsedChallenge where
  sig : JsString
  exp : ℚ
  deriving DecidableEq

/-- `PURGE_CHALLENGES_SQL`: DELETE … WHERE exp < ?. -/
def purgeChallenges (now : ℚ) (used : List UsedChallenge) : List UsedChallenge :=
  used.filter fun r => !decide (r.exp < now)

/-- `CHALLENGE_SPENT_SQL`: SELECT 1 … WHERE sig = ?. -/
def isSpent (sig : JsString) (used : List UsedChallenge) : Bool :=
  used.any fun r => r.sig == toWellFormed sig

/-- `SPEND_CHALLENGE_SQL`: INSERT OR IGNORE, with the number of changes. -/
def insertChallenge (sig : JsString) (exp : ℚ) (used : List UsedChallenge) :
    List UsedChallenge × Nat :=
  if isSpent sig used then (used, 0) else (⟨toWellFormed sig, exp⟩ :: used, 1)

/-- `spendChallenge` on the SQLite driver: purge, insert, and whether this
caller got it. -/
def spendChallenge (sig : JsString) (exp now : ℚ) (used : List UsedChallenge) :
    List UsedChallenge × Bool :=
  let res := insertChallenge sig exp (purgeChallenges now used)
  (res.1, res.2 == 1)

/-! ## What the statements do -/

theorem isSpent_eq_true {sig : JsString} {used : List UsedChallenge} :
    isSpent sig used = true ↔ ∃ r ∈ used, r.sig = toWellFormed sig := by
  simp [isSpent]

theorem mem_purgeChallenges {now : ℚ} {r : UsedChallenge} {used : List UsedChallenge} :
    r ∈ purgeChallenges now used ↔ r ∈ used ∧ now ≤ r.exp := by
  simp [purgeChallenges]

theorem mem_insertChallenge {sig : JsString} {exp : ℚ} {r : UsedChallenge}
    {used : List UsedChallenge} (h : r ∈ used) : r ∈ (insertChallenge sig exp used).1 := by
  unfold insertChallenge
  split
  · exact h
  · exact List.mem_cons_of_mem _ h

/-- An insert changes a row exactly if none was there, and then it is there. -/
theorem insertChallenge_changes {sig : JsString} {exp : ℚ} {used : List UsedChallenge} :
    (insertChallenge sig exp used).2 = 1 ↔ isSpent sig used = false := by
  unfold insertChallenge
  cases isSpent sig used <;> simp

theorem mem_of_insertChallenge {sig : JsString} {exp : ℚ} {used : List UsedChallenge}
    (h : (insertChallenge sig exp used).2 = 1) :
    (insertChallenge sig exp used).1 = ⟨toWellFormed sig, exp⟩ :: used := by
  rw [insertChallenge_changes] at h
  simp [insertChallenge, h]

theorem spendChallenge_won {sig : JsString} {exp now : ℚ} {used : List UsedChallenge} :
    (spendChallenge sig exp now used).2 = true ↔ isSpent sig (purgeChallenges now used) = false := by
  rw [spendChallenge, beq_iff_eq, insertChallenge_changes]

end ZcashFaucet.Db
