/-
ZcashFaucet.Pow.ChallengeTheorems — under how many keys one challenge can
be burned.

Two texts pass as the signature of one challenge if they decode to the
same 32 bytes, and are recorded under one key only if they are the same
text. `spend_key_iff` measures the gap: the letter case of the 64 digits,
and whatever follows them.
-/
import ZcashFaucet.Pow.Worker

namespace ZcashFaucet.Pow

open Lib Db

/-- The same spelling of a signature: its 64 digits in the same letter
case, and the same text after them, as it is stored. -/
def SameSpelling (sig sig' : JsString) : Prop :=
  hexCase 32 sig = hexCase 32 sig' ∧ toWellFormed (sig.drop 64) = toWellFormed (sig'.drop 64)

/-- Solutions of the same challenge: what is signed is the same. -/
def SameChallenge (s s' : Solution) : Prop :=
  s.seed = s'.seed ∧ s.difficulty = s'.difficulty ∧ s.exp = s'.exp

/-- A second spend, before the expiry, wins exactly if it is recorded
under another key. -/
theorem second_spend_loses_iff {s s' : Solution} {clockMs clockMs' : ℚ} {used : List UsedChallenge}
    (hfresh : ∀ r ∈ used, r.sig ≠ spendKey s ∧ r.sig ≠ spendKey s')
    (hlive : unixSeconds clockMs' ≤ s.exp) :
    (spendVerifiedSolution clockMs' s' (spendVerifiedSolution clockMs s used).1).2 = false ↔
      spendKey s = spendKey s' := by
  have hfirst : (spendVerifiedSolution clockMs s used).1 =
      ⟨spendKey s, s.exp⟩ :: purgeChallenges (unixSeconds clockMs) used := by
    refine mem_of_insertChallenge (insertChallenge_changes.mpr ?_)
    rw [Bool.eq_false_iff, ne_eq, isSpent_eq_true]
    rintro ⟨r, hr, hsig⟩
    exact (hfresh r (mem_purgeChallenges.mp hr).1).1 hsig
  rw [hfirst, ← Bool.not_eq_true, spendVerifiedSolution, spendChallenge_won, Bool.not_eq_false,
    isSpent_eq_true]
  constructor
  · rintro ⟨r, hr, hsig⟩
    rcases List.mem_cons.mp (mem_purgeChallenges.mp hr).1 with rfl | hr
    · exact hsig
    · exact absurd hsig (hfresh r (mem_purgeChallenges.mp hr).1).2
  · intro hkey
    exact ⟨_, mem_purgeChallenges.mpr ⟨List.mem_cons_self, hlive⟩, hkey⟩

/-- **Two accepted solutions of one challenge** are recorded under one key
exactly if their signatures are spelled alike, and only then does the
second of two spends before the expiry lose. -/
theorem spend_key_iff {cfg : PowConfig} {clockMs clockMs' : ℚ} {s s' : Solution} {ipHash : JsString}
    (h : verifySolution cfg clockMs s ipHash = .ok ())
    (h' : verifySolution cfg clockMs' s' ipHash = .ok ()) (hsame : SameChallenge s s') :
    (spendKey s = spendKey s' ↔ SameSpelling s.sig s'.sig) ∧
      ∀ (t t' : ℚ) (used : List UsedChallenge), unixSeconds t' ≤ s.exp →
        (∀ r ∈ used, r.sig ≠ spendKey s ∧ r.sig ≠ spendKey s') →
          ((spendVerifiedSolution t' s' (spendVerifiedSolution t s used).1).2 = false ↔
            SameSpelling s.sig s'.sig) := by
  obtain ⟨hseed, hdifficulty, hexp⟩ := hsame
  obtain ⟨-, hsig⟩ := verifySolution_ok h
  obtain ⟨-, hsig'⟩ := verifySolution_ok h'
  rw [← hseed, ← hdifficulty, ← hexp] at hsig'
  have hkey := toWellFormed_eq_iff hsig hsig'
  rw [(cfg.hmac _).property] at hkey
  exact ⟨hkey, fun t t' used hlive hfresh => (second_spend_loses_iff hfresh hlive).trans hkey⟩

/-! ## A challenge burned twice -/

/-- Eight bits, the least that may be configured. -/
def eightBits : PowConfig := { hashingPow with baseBits := 8, maxBits := 26 }

/-- A solution of one challenge, with the signature spelled as given. -/
def spelled (sig : JsString) : Solution :=
  ⟨js "5eed", 8, 1800000600, sig, js "279"⟩

/-- The signature of `5eed.8.1800000600.anon`. -/
def lowerSig : JsString := js "b98d33a3740611d7155c3768798a901e2f19dd90940a12d424c1881f139bdbe3"

/-- The first digit in upper case. -/
def mixedSig : JsString := js "B" ++ lowerSig.drop 1

/-- The two hashes of that challenge, computed once. -/
theorem eightBits_knows :
    eightBits.knows (js "5eed.8.1800000600.anon") lowerSig (js "5eed:279")
      (js "002c2e6142dcca16ae2081d88a09cb18c6f17bfca81a09f0cd602669a2775edb") = eightBits :=
  PowConfig.knows_eq (by decide +kernel) (by decide +kernel)

theorem verifySolution_lowerSig :
    verifySolution eightBits 1800000000000 (spelled lowerSig) (js "anon") = .ok () := by
  rw [← eightBits_knows]
  decide +kernel

theorem verifySolution_mixedSig :
    verifySolution eightBits 1800000001000 (spelled mixedSig) (js "anon") = .ok () := by
  rw [← eightBits_knows]
  decide +kernel

theorem spend_key_iff_mixed :
    (spendKey (spelled lowerSig) = spendKey (spelled mixedSig) ↔ SameSpelling lowerSig mixedSig) :=
  (spend_key_iff verifySolution_lowerSig verifySolution_mixedSig ⟨rfl, rfl, rfl⟩).1

/-- One issued challenge, two spellings of its signature, two spends. -/
theorem spelled_twice :
    verifySolution eightBits 1800000000000 (spelled lowerSig) (js "anon") = .ok () ∧
      verifySolution eightBits 1800000001000 (spelled mixedSig) (js "anon") = .ok () ∧
      (spelled lowerSig).sig = sign eightBits (js "5eed") 8 1800000600 (js "anon") ∧
      spendKey (spelled lowerSig) ≠ spendKey (spelled mixedSig) ∧
      (spendVerifiedSolution 1800000002000 (spelled mixedSig)
        (spendVerifiedSolution 1800000002000 (spelled lowerSig) []).1).2 = true := by
  refine ⟨verifySolution_lowerSig, verifySolution_mixedSig, ?_, by decide +kernel, by decide +kernel⟩
  rw [← eightBits_knows]
  decide +kernel

end ZcashFaucet.Pow
