/-
ZcashFaucet.Config — how `config.ts` reads a number out of the environment.

The faucet refuses to boot on a value it cannot parse. What `Number` makes
of a text is a parameter: `none` is everything that is not finite.
-/
import ZcashFaucet.Lib.JsString
import Mathlib.Data.Rat.Floor

namespace ZcashFaucet

open Lib

structure Env where
  /-- `process.env[name]`. -/
  raw : String → Option JsString
  /-- `Number(raw)` where it is finite. -/
  number : JsString → Option ℚ

/-- `num`, or the message of the error it throws. -/
def num (env : Env) (name : String) (fallback : ℚ) : Except JsString ℚ :=
  match env.raw name with
  | none => .ok fallback
  | some raw =>
      if raw.isEmpty then .ok fallback
      else
        match env.number raw with
        | some n => .ok n
        | none => .error (js ("Env " ++ name ++ " must be a number, got \"") ++ raw ++ js "\"")

/-- What an early return leaves out. -/
theorem bind_eq_ok {ε α β : Type} {x : Except ε α} {f : α → Except ε β} {b : β} :
    (x >>= f) = .ok b ↔ ∃ a, x = .ok a ∧ f a = .ok b := by
  cases x with
  | error e => simp [bind, Except.bind]
  | ok a => simp [bind, Except.bind]

end ZcashFaucet
