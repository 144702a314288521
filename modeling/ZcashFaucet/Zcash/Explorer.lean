/-
ZcashFaucet.Zcash.Explorer — links to a block explorer.

A link is built after a send has paid, and building it can throw.
-/
import ZcashFaucet.Lib.Hex

namespace ZcashFaucet.Zcash

open Lib

/-- `s.replace(pattern, replacement)`: the first occurrence. -/
def replaceFirst (pattern replacement : JsString) : JsString → JsString
  | [] => if pattern.isEmpty then replacement else []
  | c :: s =>
      if pattern.isPrefixOf (c :: s) then replacement ++ (c :: s).drop pattern.length
      else c :: replaceFirst pattern replacement s

/-- `explorerTxUrl` of a txid that is there, with the configured template;
`none` for the URIError. -/
def explorerTxUrl (template txid : JsString) : Option JsString :=
  (encodeURIComponent txid).map fun id => replaceFirst (js "\x7btxid\x7d") id template

theorem explorerTxUrl_isSome (template txid : JsString) :
    (explorerTxUrl template txid).isSome = isWellFormed txid := by
  rw [explorerTxUrl, Option.isSome_map, encodeURIComponent_isSome]

end ZcashFaucet.Zcash
