/-
ZcashFaucet.Zcash.ZalletRequest — what a shielded send asks the wallet
for: the body of `z_sendmany` in `zcash/zalletsend.ts`.

The body is put together as a text, so that the amount need not pass
through a double: `paramsJson` goes into it as it is, and so does the
literal of the amount into that. A reader of the grammar reads from it
the request it stands for (`sendmany_request_read`): the recipient is
whatever text it is, quotes and all, and the amount is the amount.
-/
import ZcashFaucet.Lib.JsonText
import ZcashFaucet.Zcash.Address
import ZcashFaucet.Zcash.ZecLiteral

namespace ZcashFaucet.Zcash

open Lib

/-! ## The source -/

/-- One policy for each kind of recipient, the weakest that can build the
transaction. -/
def privacyPolicy (kind : Option AddressKind) : JsString :=
  match kind with
  | some .transparent => js "AllowRevealedRecipients"
  | some .sapling => js "AllowRevealedAmounts"
  | _ => js "FullPrivacy"

/-- The `params` of `z_sendmany`. `minConf` is a whole Number below 10^21,
whose text is its digits. -/
def sendmanyParams (source toAddress : JsString) (amountZat : Int) (minConf : Nat) (kind : Option AddressKind) :
    JsString :=
  js "[" ++ quote source ++ js "," ++
    (js "[\x7b\"address\":" ++ quote toAddress ++ js ",\"amount\":" ++ zatToZecLiteral amountZat ++ js "\x7d],") ++
    (decimal minConf ++ js ",null," ++ quote (privacyPolicy kind) ++ js "]")

/-- The body of one call of `rpc`. The sender's calls have the id `faucet`,
the refiller's `refill`. -/
def rpcBody (id method paramsJson : JsString) : JsString :=
  js "\x7b\"jsonrpc\":\"2.0\",\"id\":\"" ++ id ++ js "\",\"method\":" ++ quote method ++
    (js ",\"params\":" ++ paramsJson ++ js "\x7d")

/-! ## The request -/

/-- The request a send stands for. -/
def sendmanyRequest (source toAddress : JsString) (amountZat minConf : Nat) (kind : Option AddressKind) : Json :=
  .obj [(js "jsonrpc", .str (js "2.0")), (js "id", .str (js "faucet")), (js "method", .str (js "z_sendmany")),
    (js "params", .arr [.str source,
      .arr [.obj [(js "address", .str toAddress), (js "amount", .num (.finite (amountZat / 10 ^ 8)))]],
      .num (.finite minConf), .null, .str (privacyPolicy kind)])]

/-- A number with no more than eight places, written as an amount is. -/
def zecText (q : ℚ) : JsString := zatToZecLiteral ⌊q * 10 ^ 8⌋

theorem zecText_amount (zat : Nat) : zecText (zat / 10 ^ 8) = zatToZecLiteral zat := by
  rw [zecText, div_mul_cancel₀ _ (pow_ne_zero 8 (by norm_num)), Int.floor_natCast]

/-- A whole number has no places. -/
theorem zecText_natCast (n : Nat) : zecText n = decimal n := by
  have hscale : (n : ℚ) * 10 ^ 8 = ((n * 10 ^ 8 : Nat) : ℚ) := by push_cast; rfl
  have hfraction : fixedFraction 8 0 = none := by decide +kernel
  rw [zecText, hscale, Int.floor_natCast, zatToZecLiteral_eq, fixedNumeral, Nat.mul_mod_left, hfraction,
    Nat.mul_div_cancel _ (by decide)]
  simp [Numeral.text, Whole.ofNat, fractionText, exponentText]

/-- Numbers of whole zatoshi are written exactly. -/
theorem exists_numeral_zecText (zat : Nat) :
    ∃ x : Numeral, x.text = zecText (zat / 10 ^ 8) ∧ x.value = zat / 10 ^ 8 :=
  ⟨fixedNumeral 8 zat, by rw [zecText_amount, zatToZecLiteral_eq], fixedNumeral_value (by decide) zat⟩

theorem sendmanyRequest_isExact (source toAddress : JsString) (amountZat minConf : Nat) (kind : Option AddressKind) :
    (sendmanyRequest source toAddress amountZat minConf kind).IsExact zecText := by
  have hconf : (minConf : ℚ) = ((minConf * 10 ^ 8 : Nat) : ℚ) / 10 ^ 8 := by
    have hpow : (10 : ℚ) ^ 8 ≠ 0 := by norm_num
    rw [eq_div_iff hpow]
    push_cast
    rfl
  have hminConf : ∃ x : Numeral, x.text = zecText minConf ∧ x.value = minConf := by
    rw [hconf]
    exact exists_numeral_zecText _
  simp only [sendmanyRequest, Json.IsExact, AllExact, FieldsExact, exists_numeral_zecText, hminConf, and_self]

/-- The body is what a `JSON.stringify` with exact numbers would write. -/
theorem rpcBody_sendmanyParams (source toAddress : JsString) (amountZat minConf : Nat) (kind : Option AddressKind) :
    rpcBody (js "faucet") (js "z_sendmany") (sendmanyParams source toAddress amountZat minConf kind) =
      (sendmanyRequest source toAddress amountZat minConf kind).stringify zecText := by
  simp only [rpcBody, sendmanyParams, sendmanyRequest, Json.stringify, stringifyFields, stringifyItems,
    zecText_amount, zecText_natCast, List.isEmpty_cons, List.isEmpty_nil, Bool.false_eq_true, if_true, if_false,
    List.append_assoc, List.append_nil]
  rfl

/-- **The wallet is asked for the amount.** -/
theorem sendmany_request_read (source toAddress : JsString) (amountZat minConf : Nat) (kind : Option AddressKind) :
    readJson (rpcBody (js "faucet") (js "z_sendmany") (sendmanyParams source toAddress amountZat minConf kind)) =
      some (sendmanyRequest source toAddress amountZat minConf kind) := by
  rw [rpcBody_sendmanyParams]
  exact readJson_stringify (sendmanyRequest_isExact source toAddress amountZat minConf kind)

end ZcashFaucet.Zcash
