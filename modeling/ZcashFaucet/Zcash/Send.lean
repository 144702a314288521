/-
ZcashFaucet.Zcash.Send — what a sender answers, from `zcash/send.ts`.

A sender resolves with a `SendResult` or throws. The claim route tells
three kinds of error apart by their class, so `SendError` has one
constructor for each: a submitted send whose outcome is unknown, a
recipient the wallet refused, and every other error.
-/
import ZcashFaucet.Db.Sql

namespace ZcashFaucet.Zcash

open Lib

/-- What the txid column gets from a value that is not a text. -/
abbrev ColumnText := { s : JsString // s ≠ [] }

/-- The txid of a result. It is typed a string, but the zallet sender
passes on what the wallet reported, as long as it is truthy. -/
inductive Txid
  | text (s : JsString)
  /-- Another value, with what the column gets from it: nothing, where the
  driver does not bind it. -/
  | value (column : Option ColumnText)
  deriving DecidableEq, Repr

structure SendResult where
  txid : Option Txid
  explorerUrl : Option JsString
  amountZat : Option Int
  deriving DecidableEq, Repr

def Txid.column : Txid → Option JsString
  | .text s => some s
  | .value column => column.map Subtype.val

/-- The text a result brings for the txid column. -/
def SendResult.column (r : SendResult) : Option JsString := r.txid.bind Txid.column

@[simp] theorem SendResult.column_text (s : JsString) (url : Option JsString) (amount : Option Int) :
    (SendResult.mk (some (.text s)) url amount).column = some s := rfl

@[simp] theorem SendResult.column_none (url : Option JsString) (amount : Option Int) :
    (SendResult.mk none url amount).column = none := rfl

inductive SendError
  /-- SendOutcomeUnknownError -/
  | outcomeUnknown (opid cause : JsString)
  /-- RecipientRefusedError -/
  | recipientRefused (reason : JsString)
  /-- any other Error -/
  | plain (message : JsString)
  deriving DecidableEq, Repr

/-- `super(...)` of SendOutcomeUnknownError. -/
def outcomeUnknownMessage (opid cause : JsString) : JsString :=
  js "zallet send " ++ opid ++ js " outcome unknown: " ++ cause

/-- The TypeError of putting a value into a text that has none. -/
def notPrimitive : SendError := .plain (js "Cannot convert object to primitive value")

/-- How a send settled. -/
abbrev Settlement := Except SendError SendResult

instance : DecidableEq Settlement := fun a b =>
  match a, b with
  | .ok a, .ok b => decidable_of_iff (a = b) (by simp)
  | .error a, .error b => decidable_of_iff (a = b) (by simp)
  | .ok _, .error _ => isFalse (by simp)
  | .error _, .ok _ => isFalse (by simp)

/-- A send reported as a plain failure: nothing left the wallet. -/
def plainFailure : Settlement → Bool
  | .ok _ => false
  | .error (.outcomeUnknown _ _) => false
  | .error (.recipientRefused _) => true
  | .error (.plain _) => true

end ZcashFaucet.Zcash
