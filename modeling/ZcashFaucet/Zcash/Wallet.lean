/-
ZcashFaucet.Zcash.Wallet — the keys that are handed out and the key that is
paid from: `zcash/keys.ts` and `zcash/wallet.ts`.

The two files write and read the same formats, each by itself. What the one
hands out the other takes: an account's secret, put where the faucet looks for
its seed, makes the faucet the owner of that account's address, as does the
key itself in hexadecimal; and the address is one that a visitor can claim to
(`account_is_wallet`).
-/
import ZcashFaucet.Lib.Hex
import ZcashFaucet.Lib.Sha256
import ZcashFaucet.Zcash.Address

namespace ZcashFaucet.Zcash

open Lib

/-! ## The packages -/

/-- `N`, the order of the curve. -/
def curveOrder : Nat := 0xfffffffffffffffffffffffffffffffebaaedce6af48a03bbfd25e8cd0364141

/-- A key is not 0 and below the order of the curve. -/
def isValidScalar (b : List UInt8) : Bool :=
  let x := b.foldl (fun x byte => x <<< 8 ||| byte.toNat) 0
  0 < x && x < curveOrder

/-- `getPublicKey`, compressed, and `ripemd160`. The first throws for some
bytes, but not for a key. -/
structure KeyPackages where
  getPublicKey : List UInt8 → Except JsString (List UInt8)
  ripemd160 : List UInt8 → List UInt8
  length_ripemd160 : ∀ bytes, (ripemd160 bytes).length = 20
  accepts : ∀ priv, priv.length = 32 → isValidScalar priv = true → ∃ pub, getPublicKey priv = .ok pub

/-- TESTNET_WIF. -/
def testnetWif : UInt8 := 0xEF

/-- `base58check.encode`. -/
def encodeCheck (d : Decoders) (payload : List UInt8) : JsString :=
  Base58.encode (payload ++ Base58.checksum d.sha256 payload)

variable (k : KeyPackages) (d : Decoders)

def hash160 (data : List UInt8) : List UInt8 := k.ripemd160 (d.sha256 data)

/-! ## The source: `keys.ts` -/

inductive AccountType
  | transparent
  | shielded

structure ThrowawayAccount where
  type : AccountType
  shielded : Bool
  address : JsString
  secret : JsString
  secretLabel : JsString
  mock : Bool
  warning : JsString

/-- 32 random bytes. -/
abbrev Draw := {bytes : List UInt8 // bytes.length = 32}

/-- The account of a key. -/
def accountOfKey (priv : List UInt8) : Except JsString ThrowawayAccount := do
  let pub ← k.getPublicKey priv
  let pkh := hash160 k d pub
  return {
    type := .transparent
    shielded := false
    address := encodeCheck d (p2pkhVersion ++ pkh)
    secret := encodeCheck d (testnetWif :: priv ++ [0x01])
    secretLabel := js "Private key (WIF)"
    mock := false
    warning := js ("Testnet throwaway only. Anyone with this key controls the funds. " ++
      "Not stored by the faucet. Copy it now.") }

/-- `generateTransparent`, which draws until it has a key. -/
def generateTransparent (draws : List Draw) : Option (Except JsString ThrowawayAccount) :=
  (draws.find? fun priv => isValidScalar priv.val).map fun priv => accountOfKey k d priv.val

/-! ## The source: `wallet.ts` -/

structure FaucetWallet where
  priv : List UInt8
  pubHex : JsString
  address : JsString
  scriptHex : JsString

/-- The key that a seed is, in hexadecimal or as a WIF. -/
def seedKey (seed : JsString) : Except JsString (List UInt8) :=
  if seed.length = 64 ∧ (seed.all fun c => (hexValue? c).isSome) = true then .ok (decodeHex seed)
  else
    match d.base58check seed with
    | none => .error (js "FAUCET_WALLET_SEED is neither a 64-hex key nor a valid WIF.")
    | some decoded =>
        if decoded.head? ≠ some testnetWif then
          .error (js "FAUCET_WALLET_SEED WIF is not a testnet key (expected 0xEF prefix).")
        else .ok ((decoded.drop 1).take 32)

def walletOfKey (priv : List UInt8) : Except JsString FaucetWallet := do
  let pub ← k.getPublicKey priv
  let pkh := hash160 k d pub
  return ⟨priv, encodeHex pub, encodeCheck d (p2pkhVersion ++ pkh), js "76a914" ++ encodeHex pkh ++ js "88ac"⟩

/-- `faucetWallet`, with the wallet of an earlier call. -/
def faucetWallet (cached : Option FaucetWallet) (walletSeed : JsString) :
    Option FaucetWallet × Except JsString FaucetWallet :=
  match cached with
  | some wallet => (some wallet, .ok wallet)
  | none =>
      let seed := trim walletSeed
      if !seed.truthy then (none, .error (js "FAUCET_WALLET_SEED is required for real sends."))
      else
        match seedKey d seed >>= walletOfKey k d with
        | .ok wallet => (some wallet, .ok wallet)
        | .error e => (none, .error e)

/-! ## The texts -/

variable {k d}

theorem encodeCheck_decodes (payload : List UInt8) : d.base58check (encodeCheck d payload) = some payload :=
  d.base58check_iff.mpr rfl

/-- There is no white space in a base58 text. -/
theorem encodeCheck_no_space (payload : List UInt8) : ∀ c ∈ encodeCheck d payload, isJsSpace c = false := by
  intro c hc
  obtain ⟨digit, hdigit, rfl⟩ := List.mem_map.mp hc
  have hall : ∀ digit < 58, isJsSpace (Base58.letter digit) = false := by decide +kernel
  exact hall digit (Base58.changeBase_lt (by decide) _ digit hdigit)

/-- The address of any key hash is 35 letters, the first two of them `tm`. -/
theorem address_front (hsha : ∀ bytes, (d.sha256 bytes).length = 32) {pkh : List UInt8} (hpkh : pkh.length = 20) :
    ∃ tail, tail.length = 33 ∧ encodeCheck d (p2pkhVersion ++ pkh) = js "tm" ++ tail := by
  have hrest : (pkh ++ Base58.checksum d.sha256 (p2pkhVersion ++ pkh)).length = 24 := by
    simp [Base58.checksum, hsha, hpkh]
  obtain ⟨tail, hlength, htext⟩ := @Base58.encode_front p2pkhVersion
    (pkh ++ Base58.checksum d.sha256 (p2pkhVersion ++ pkh)) 33 (by decide) (by decide)
    (by rw [hrest]; decide +kernel) (by rw [hrest]; decide +kernel)
  refine ⟨tail, hlength, ?_⟩
  rw [encodeCheck, List.append_assoc, htext, hrest]
  exact congrArg (· ++ tail) (by decide +kernel)

/-- The WIF of any key is 52 letters. -/
theorem length_wif (hsha : ∀ bytes, (d.sha256 bytes).length = 32) {priv : List UInt8} (hpriv : priv.length = 32) :
    (encodeCheck d (testnetWif :: priv ++ [0x01])).length = 52 := by
  have hrest : (priv ++ [0x01] ++ Base58.checksum d.sha256 (testnetWif :: priv ++ [0x01])).length = 37 := by
    simp [Base58.checksum, hsha, hpriv]
  obtain ⟨tail, hlength, htext⟩ := @Base58.encode_front [testnetWif]
    (priv ++ [0x01] ++ Base58.checksum d.sha256 (testnetWif :: priv ++ [0x01])) 51 (by decide) (by decide)
    (by rw [hrest]; decide +kernel) (by rw [hrest]; decide +kernel)
  have hbytes : testnetWif :: priv ++ [0x01] ++ Base58.checksum d.sha256 (testnetWif :: priv ++ [0x01]) =
      [testnetWif] ++ (priv ++ [0x01] ++ Base58.checksum d.sha256 (testnetWif :: priv ++ [0x01])) := by simp
  rw [encodeCheck, hbytes, htext, hrest, List.length_append, List.length_map, hlength]
  have hone : (Nat.digits 58 (beValue [testnetWif] * 256 ^ 37 / 58 ^ 51)).reverse.length = 1 := by decide +kernel
  rw [hone]

/-- The address of any key is one to claim to. -/
theorem validate_address (lower : LowerCase) (hsha : ∀ bytes, (d.sha256 bytes).length = 32) {pkh : List UInt8}
    (hpkh : pkh.length = 20) :
    validateTestnetAddress lower d (encodeCheck d (p2pkhVersion ++ pkh)) = .valid .transparent false := by
  obtain ⟨tail, hlength, htext⟩ := address_front hsha hpkh
  have htrim := trim_of_no_space (encodeCheck_no_space (d := d) (p2pkhVersion ++ pkh))
  have hascii : ∀ c ∈ encodeCheck d (p2pkhVersion ++ pkh), c < 0x80 := Base58.encode_lt _
  have hlower := lower.ascii _ hascii
  have hinfo : transparentInfo d (encodeCheck d (p2pkhVersion ++ pkh)) = .valid .transparent false := by
    have hversion : transparentVersion (encodeCheck d (p2pkhVersion ++ pkh)) = p2pkhVersion := by
      rw [transparentVersion, if_pos (by rw [htext]; exact List.isPrefixOf_iff_prefix.mpr (List.prefix_append _ _))]
    rw [transparentInfo, encodeCheck_decodes]
    dsimp only
    rw [hversion, if_neg (by simp [p2pkhVersion, hpkh])]
  unfold validateTestnetAddress
  dsimp only
  rw [htrim, hlower, hinfo, htext]
  have hlong : ¬ (js "tm" ++ tail).length > 512 := by
    rw [List.length_append, hlength]
    decide
  have hmainnet : startsWithAny mainnetFronts (js "tm" ++ tail) = false := rfl
  have hregtest : startsWithAny regtestFronts ((js "tm" ++ tail).map foldCase) = false := rfl
  have hunified : startsWithAny [unifiedForm.front] ((js "tm" ++ tail).map foldCase) = false := rfl
  have hsapling : startsWithAny [saplingForm.front] ((js "tm" ++ tail).map foldCase) = false := rfl
  have htransparent : startsWithAny transparentFronts (js "tm" ++ tail) = true := rfl
  have hsome : (!(js "tm" ++ tail).truthy) = false := rfl
  rw [hsome, if_neg hlong, hmainnet, hregtest, hunified, hsapling, htransparent]
  rfl

/-! ## What is read back -/

theorem hexValue?_encodeHex : ∀ bytes : List UInt8, ∀ c ∈ encodeHex bytes, (hexValue? c).isSome = true
  | b :: bytes, c, hc => by
      obtain ⟨hhigh, hlow⟩ := hexValue?_digits b
      rcases List.mem_cons.mp hc with rfl | hc
      · rw [hhigh]
        rfl
      · rcases List.mem_cons.mp hc with rfl | hc
        · rw [hlow]
          rfl
        · exact hexValue?_encodeHex bytes c hc

theorem isJsSpace_of_hexValue? {c : UInt16} (h : (hexValue? c).isSome = true) : isJsSpace c = false := by
  have hdigit : 0x30 ≤ c.toNat ∧ c.toNat ≤ 0x39 ∨ 0x61 ≤ c.toNat ∧ c.toNat ≤ 0x66 ∨
      0x41 ≤ c.toNat ∧ c.toNat ≤ 0x46 := by
    unfold hexValue? at h
    split_ifs at h <;> simp_all
  refine Bool.eq_false_iff.mpr fun hspace => ?_
  simp only [isJsSpace, Bool.or_eq_true, Bool.and_eq_true, decide_eq_true_eq, beq_iff_eq, UInt16.le_iff_toNat_le,
    ← UInt16.toNat_inj, UInt16.reduceToNat] at hspace
  omega

theorem length_encodeHex (bytes : List UInt8) : (encodeHex bytes).length = 2 * bytes.length := by
  induction bytes with
  | nil => rfl
  | cons b bytes ih =>
    rw [encodeHex, List.length_cons, List.length_cons, ih, List.length_cons]
    omega

theorem seedKey_hex {priv : List UInt8} (hpriv : priv.length = 32) : seedKey d (encodeHex priv) = .ok priv := by
  have hall : ((encodeHex priv).all fun c => (hexValue? c).isSome) = true :=
    List.all_eq_true.mpr (hexValue?_encodeHex priv)
  rw [seedKey, if_pos ⟨by rw [length_encodeHex, hpriv], hall⟩, decodeHex_encodeHex]

theorem seedKey_wif (hsha : ∀ bytes, (d.sha256 bytes).length = 32) {priv : List UInt8} (hpriv : priv.length = 32) :
    seedKey d (encodeCheck d (testnetWif :: priv ++ [0x01])) = .ok priv := by
  rw [seedKey, if_neg (by rw [length_wif hsha hpriv]; simp), encodeCheck_decodes]
  simp [← hpriv]

/-- A seed among white space is the wallet of its key. -/
theorem faucetWallet_of_key {seed front back priv : List _} {wallet : FaucetWallet} (hseed : seed ≠ [])
    (hspace : ∀ c ∈ seed, isJsSpace c = false) (hfront : IsBlank front) (hback : IsBlank back)
    (hkey : seedKey d seed = .ok priv) (hwallet : walletOfKey k d priv = .ok wallet) :
    faucetWallet k d none (front ++ seed ++ back) = (some wallet, .ok wallet) := by
  unfold faucetWallet
  dsimp only
  rw [trim_surround hfront hback, trim_of_no_space hspace, if_neg (by simp [JsString.truthy, hseed]), hkey]
  change (match walletOfKey k d priv with
    | .ok wallet => (some wallet, Except.ok wallet)
    | .error e => (none, .error e)) = _
  rw [hwallet]

theorem accountOfKey_eq {priv pub : List UInt8} (hpub : k.getPublicKey priv = .ok pub) :
    ∃ account, accountOfKey k d priv = .ok account ∧ account.address = encodeCheck d (p2pkhVersion ++ hash160 k d pub) ∧
      account.secret = encodeCheck d (testnetWif :: priv ++ [0x01]) := by
  rw [accountOfKey, hpub]
  exact ⟨_, rfl, rfl, rfl⟩

theorem walletOfKey_eq {priv pub : List UInt8} (hpub : k.getPublicKey priv = .ok pub) :
    ∃ wallet, walletOfKey k d priv = .ok wallet ∧ wallet.priv = priv ∧
      wallet.address = encodeCheck d (p2pkhVersion ++ hash160 k d pub) ∧
      wallet.scriptHex = js "76a914" ++ encodeHex (hash160 k d pub) ++ js "88ac" := by
  rw [walletOfKey, hpub]
  exact ⟨_, rfl, rfl, rfl, rfl⟩

/-- An account is the faucet's wallet: of the first draw that is a key there is
an account, whose address is valid; and its secret is a seed, as its key is in
hexadecimal, that makes the faucet spend from that address, by a script that
pays the hash in it. -/
theorem account_is_wallet (k : KeyPackages) (d : Decoders) (lower : LowerCase) {draws : List Draw} {priv : Draw}
    {front back : JsString} (hsha : ∀ bytes, (d.sha256 bytes).length = 32)
    (hdraw : draws.find? (fun priv => isValidScalar priv.val) = some priv)
    (hfront : IsBlank front) (hback : IsBlank back) :
    ∃ account wallet pkh, generateTransparent k d draws = some (.ok account) ∧
      validateTestnetAddress lower d account.address = .valid .transparent false ∧
      (∀ seed ∈ [account.secret, encodeHex priv.val],
        faucetWallet k d none (front ++ seed ++ back) = (some wallet, .ok wallet)) ∧
      wallet.priv = priv.val ∧ wallet.address = account.address ∧
      d.base58check wallet.address = some (p2pkhVersion ++ pkh) ∧
      wallet.scriptHex = js "76a914" ++ encodeHex pkh ++ js "88ac" := by
  have hvalid : isValidScalar priv.val = true := by simpa using List.find?_some hdraw
  obtain ⟨pub, hpub⟩ := k.accepts priv.val priv.property hvalid
  obtain ⟨account, haccount, haddress, hsecret⟩ := accountOfKey_eq (d := d) hpub
  obtain ⟨wallet, hwallet, hpriv, hown, hscript⟩ := walletOfKey_eq (d := d) hpub
  have hhexLength : (encodeHex priv.val).length = 64 := by rw [length_encodeHex, priv.property]
  have hwifLength := length_wif hsha priv.property
  have hhex : encodeHex priv.val ≠ [] := List.ne_nil_of_length_pos (by omega)
  have hwif : encodeCheck d (testnetWif :: priv.val ++ [0x01]) ≠ [] := List.ne_nil_of_length_pos (by omega)
  refine ⟨account, wallet, hash160 k d pub, ?_, ?_, fun seed hseed => ?_, hpriv, hown.trans haddress.symm, ?_, hscript⟩
  · rw [generateTransparent, hdraw, Option.map_some, haccount]
  · rw [haddress]
    exact validate_address lower hsha (k.length_ripemd160 _)
  · rw [hsecret] at hseed
    rcases List.mem_cons.mp hseed with rfl | hseed
    · exact faucetWallet_of_key hwif (encodeCheck_no_space _) hfront hback (seedKey_wif hsha priv.property) hwallet
    · obtain rfl := List.mem_singleton.mp hseed
      exact faucetWallet_of_key hhex (fun c hc => isJsSpace_of_hexValue? (hexValue?_encodeHex _ c hc)) hfront hback
        (seedKey_hex priv.property) hwallet
  · rw [hown]
    exact encodeCheck_decodes _

/-- The key 1, whose public key is the base point of the curve. -/
def keyOne : Draw := ⟨List.replicate 31 0 ++ [1], rfl⟩

/-- What the packages give for the key 1, for every key. -/
def keyOnePackages : KeyPackages where
  getPublicKey _ := .ok (decodeHex (js "0279be667ef9dcbbac55a06295ce870b07029bfcdb2dce28d959f2815b16f81798"))
  ripemd160 _ := decodeHex (js "751e76e8199196d454941c45d1b3a323f1433bd6")
  length_ripemd160 _ := by decide
  accepts _ _ _ := ⟨_, rfl⟩

/-- A draw that is no key is drawn again. -/
theorem account_is_wallet_keyOne : ∃ account wallet,
    generateTransparent keyOnePackages (.plain Sha256.sha256 Sha256.length_sha256) [⟨List.replicate 32 0, rfl⟩, keyOne] =
      some (.ok account) ∧
    (faucetWallet keyOnePackages (.plain Sha256.sha256 Sha256.length_sha256) none
      (js " " ++ account.secret ++ js "\n")).2 = .ok wallet ∧
    wallet.priv = keyOne.val ∧ wallet.address = account.address := by
  obtain ⟨account, wallet, pkh, haccount, -, hseeds, hpriv, haddress, -⟩ :=
    @account_is_wallet keyOnePackages (.plain Sha256.sha256 Sha256.length_sha256) foldOnly
      [⟨List.replicate 32 0, rfl⟩, keyOne] keyOne (js " ") (js "\n") Sha256.length_sha256 (by decide +kernel)
      (by decide) (by decide)
  exact ⟨account, wallet, haccount, by rw [hseeds account.secret List.mem_cons_self], hpriv, haddress⟩

end ZcashFaucet.Zcash
