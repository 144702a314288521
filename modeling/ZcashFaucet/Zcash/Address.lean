/-
ZcashFaucet.Zcash.Address — `validateTestnetAddress` of `address.ts` and
`canonicalAddress` and `fingerprintAddress` of `privacy.ts`: who a text
pays, to the validator and to the ledger.

What a text begins with says of which kind it is, and the decoders say what
it holds. The human-readable part of a bech32 text is what is before its
LAST `1`. The decoder gives it back and the validator does not look at it,
so that `utest1x1…` is a unified address too, of the part `utest1x`. The
ledger goes by the text and takes it for another address than `utest1…`
with the same bytes in it.

`identity_iff` says that nothing else is wrong: without such a part the
fingerprint is one for each kind and payload.
-/
import ZcashFaucet.Lib.Base58
import ZcashFaucet.Lib.Bech32
import ZcashFaucet.Lib.JsTrim

namespace ZcashFaucet.Zcash

open Lib

/-! ## The decoders -/

/-- The decoders of the package, as their specifications have them. -/
structure Decoders where
  sha256 : List UInt8 → List UInt8
  bech32 : Bech32.Variant → JsString → Nat → Option (JsString × List Word)
  fromWords : List Word → Option (List UInt8)
  base58check : JsString → Option (List UInt8)
  bech32_iff : ∀ {variant s limit hrp ws},
    bech32 variant s limit = some (hrp, ws) ↔ IsBech32 variant limit s hrp ws
  fromWords_iff : ∀ {ws bytes}, fromWords ws = some bytes ↔ ws = toWords bytes
  base58check_iff : ∀ {s payload}, base58check s = some payload ↔ IsBase58Check sha256 s payload

/-- Decoders there are, over any hash of 32 bytes. -/
def Decoders.plain (sha256 : List UInt8 → List UInt8)
    (hsha : ∀ bytes, (sha256 bytes).length = 32) : Decoders where
  sha256 := sha256
  bech32 := Bech32.decode
  fromWords := Lib.fromWords
  base58check := Base58.decodeCheck sha256
  bech32_iff := Bech32.decode_eq_some_iff
  fromWords_iff := fromWords_eq_some_iff
  base58check_iff := Base58.decodeCheck_eq_some_iff hsha

/-! ## The source: `address.ts` -/

inductive AddressKind
  | unified
  | sapling
  | transparent
  deriving DecidableEq, Repr

inductive AddressInfo
  | valid (kind : AddressKind) (shielded : Bool)
  | invalid (reason : String)
  deriving DecidableEq, Repr

def p2pkhVersion : List UInt8 := [0x1d, 0x25]

def p2shVersion : List UInt8 := [0x1c, 0xba]

def bech32Limit : Nat := 1023

def decodeBech32 (d : Decoders) (addr : JsString) (variant : Bech32.Variant) :
    Option (JsString × List UInt8) := do
  let (hrp, words) ← d.bech32 variant addr bech32Limit
  let bytes ← d.fromWords words
  return (hrp, bytes)

def startsWithAny (fronts : List JsString) (s : JsString) : Bool :=
  fronts.any fun front => front.isPrefixOf s

/-- What differs between the two shielded kinds. -/
structure Form where
  kind : AddressKind
  variant : Bech32.Variant
  /-- What the text begins with. -/
  front : JsString
  /-- Whether so many bytes are a payload. -/
  fits : Nat → Bool
  badChecksum : String
  wrongSize : String

def unifiedForm : Form where
  kind := .unified
  variant := .bech32m
  front := js "utest1"
  fits := (48 ≤ ·)
  badChecksum := "Malformed unified address (bad bech32m checksum). Re-copy it from your wallet."
  wrongSize := "Malformed unified address (payload too short)."

def saplingForm : Form where
  kind := .sapling
  variant := .bech32
  front := js "ztestsapling1"
  fits := (· == 43)
  badChecksum := "Malformed Sapling address (bad bech32 checksum). Re-copy it from your wallet."
  wrongSize := "Malformed Sapling address (wrong payload size)."

def shieldedInfo (d : Decoders) (form : Form) (addr : JsString) : AddressInfo :=
  match decodeBech32 d addr form.variant with
  | none => .invalid form.badChecksum
  | some (_, bytes) =>
      if !form.fits bytes.length then .invalid form.wrongSize else .valid form.kind true

def transparentVersion (addr : JsString) : List UInt8 :=
  if (js "tm").isPrefixOf addr then p2pkhVersion else p2shVersion

def transparentInfo (d : Decoders) (addr : JsString) : AddressInfo :=
  match d.base58check addr with
  | none =>
      .invalid "Malformed transparent address (bad base58check checksum). Retype or re-copy it."
  | some payload =>
      let version := transparentVersion addr
      if payload.length ≠ 22 ∨ payload[0]? ≠ version[0]? ∨ payload[1]? ≠ version[1]? then
        .invalid "Malformed transparent address (wrong version or payload size)."
      else .valid .transparent false

/-- `/^(u1|zs|t1|t3)/`. -/
def mainnetFronts : List JsString := [js "u1", js "zs", js "t1", js "t3"]

/-- `/^(uregtest1|zregtestsapling1)/i`. -/
def regtestFronts : List JsString := [js "uregtest1", js "zregtestsapling1"]

/-- `/^(tm|t2)/`. -/
def transparentFronts : List JsString := [js "tm", js "t2"]

def validateTestnetAddress (lower : LowerCase) (d : Decoders) (input : JsString) : AddressInfo :=
  let addr := trim input
  if !addr.truthy then .invalid "Address is empty."
  else if addr.length > 512 then .invalid "Address is too long."
  else if startsWithAny mainnetFronts addr then
    .invalid "That looks like a MAINNET address. This faucet only funds testnet."
  else if startsWithAny regtestFronts (addr.map foldCase) then
    .invalid ("That is a REGTEST address, from a private local chain. " ++
      "This faucet funds the public testnet.")
  else if startsWithAny [unifiedForm.front] (lower.apply addr) then shieldedInfo d unifiedForm addr
  else if startsWithAny [saplingForm.front] (lower.apply addr) then shieldedInfo d saplingForm addr
  else if startsWithAny transparentFronts addr then transparentInfo d addr
  else
    .invalid ("Unrecognized address. Use utest1… (unified), ztestsapling1… (Sapling), " ++
      "or tm…/t2… (transparent).")

/-! ## The source: `privacy.ts` -/

def bech32Hrps : List JsString :=
  [js "utest1", js "uregtest1", js "ztestsapling1", js "zregtestsapling1"]

def canonicalAddress (lower : LowerCase) (address : JsString) : JsString :=
  let t := trim address
  let low := lower.apply t
  if startsWithAny bech32Hrps low then low else t

/-- The salted digest, by tag, as if no two values had one. -/
structure KeyedHash (F : Type) where
  fingerprint : JsString → JsString → F
  injective : ∀ tag, Function.Injective (fingerprint tag)

def fingerprintAddress {F : Type} (lower : LowerCase) (hash : KeyedHash F) (address : JsString) : F :=
  hash.fingerprint (js "addr") (canonicalAddress lower address)

/-! ## Who is meant -/

/-- The text is an address of the test network with this payload. -/
inductive Receiver (d : Decoders) (s : JsString) : AddressKind → List UInt8 → Prop
  | unified {bytes : List UInt8} (h : IsBech32 .bech32m bech32Limit s (js "utest") (toWords bytes))
      (hlength : 48 ≤ bytes.length) : Receiver d s .unified bytes
  | sapling {bytes : List UInt8}
      (h : IsBech32 .bech32 bech32Limit s (js "ztestsapling") (toWords bytes))
      (hlength : bytes.length = 43) : Receiver d s .sapling bytes
  | transparent {payload : List UInt8} (h : IsBase58Check d.sha256 s payload)
      (hlength : payload.length = 22)
      (hversion : payload.take 2 = p2pkhVersion ∨ payload.take 2 = p2shVersion) :
      Receiver d s .transparent payload

/-- The payload of the text, under any human-readable part. -/
inductive Decodes (d : Decoders) (s : JsString) : AddressKind → List UInt8 → Prop
  | unified {hrp : JsString} {bytes : List UInt8}
      (h : IsBech32 .bech32m bech32Limit s hrp (toWords bytes)) : Decodes d s .unified bytes
  | sapling {hrp : JsString} {bytes : List UInt8}
      (h : IsBech32 .bech32 bech32Limit s hrp (toWords bytes)) : Decodes d s .sapling bytes
  | transparent {payload : List UInt8} (h : IsBase58Check d.sha256 s payload) :
      Decodes d s .transparent payload

/-- The one way to write a payload, in lower case where case makes no
difference. -/
def spelling (d : Decoders) : AddressKind → List UInt8 → JsString
  | .unified, bytes => Bech32.encode .bech32m (js "utest") (toWords bytes)
  | .sapling, bytes => Bech32.encode .bech32 (js "ztestsapling") (toWords bytes)
  | .transparent, payload => Base58.encode (payload ++ Base58.checksum d.sha256 payload)

def AcceptedAs (lower : LowerCase) (d : Decoders) (input : JsString) (kind : AddressKind) : Prop :=
  ∃ shielded, validateTestnetAddress lower d input = .valid kind shielded

/-- Both are accepted as of one kind and hold one payload. -/
def SameReceiver (lower : LowerCase) (d : Decoders) (s t : JsString) : Prop :=
  ∃ kind payload, (AcceptedAs lower d s kind ∧ Decodes d (trim s) kind payload) ∧
    AcceptedAs lower d t kind ∧ Decodes d (trim t) kind payload

/-- A shielded text has one `1` only. -/
def OneSeparator (input : JsString) : Prop :=
  startsWithAny transparentFronts (trim input) = true ∨ (trim input).count Bech32.one = 1

/-! ## The forms -/

def shieldedForms : List Form := [unifiedForm, saplingForm]

def Form.hrp (form : Form) : JsString := form.front.dropLast

theorem forall_shieldedForms {P : Form → Prop} (hunified : P unifiedForm)
    (hsapling : P saplingForm) : ∀ form ∈ shieldedForms, P form := by
  simp [shieldedForms, hunified, hsapling]

theorem front_eq : ∀ form ∈ shieldedForms, form.front = form.hrp ++ [Bech32.one] :=
  forall_shieldedForms (by decide) (by decide)

theorem one_not_mem_hrp : ∀ form ∈ shieldedForms, Bech32.one ∉ form.hrp :=
  forall_shieldedForms (by decide) (by decide)

theorem front_mem : ∀ form ∈ shieldedForms, form.front ∈ bech32Hrps :=
  forall_shieldedForms (by decide) (by decide)

/-- The two forms begin differently, and neither like a transparent text. -/
theorem form_unique : ∀ form ∈ shieldedForms, ∀ form' ∈ shieldedForms,
    form.front.head? = form'.front.head? → form = form' := by
  refine forall_shieldedForms (forall_shieldedForms ?_ ?_) (forall_shieldedForms ?_ ?_)
  · exact fun _ => rfl
  · exact fun h => absurd h (by decide)
  · exact fun h => absurd h (by decide)
  · exact fun _ => rfl

theorem Form.receiver {d : Decoders} {s : JsString} {bytes : List UInt8} :
    ∀ form ∈ shieldedForms, Receiver d s form.kind bytes ↔
      IsBech32 form.variant bech32Limit s form.hrp (toWords bytes) ∧
        form.fits bytes.length = true := by
  refine forall_shieldedForms ?_ ?_
  · constructor
    · rintro ⟨⟩
      exact ⟨‹_›, by simpa [unifiedForm]⟩
    · rintro ⟨h, hfits⟩
      exact .unified h (by simpa [unifiedForm] using hfits)
  · constructor
    · rintro ⟨⟩
      exact ⟨‹_›, by simpa [saplingForm]⟩
    · rintro ⟨h, hfits⟩
      exact .sapling h (by simpa [saplingForm] using hfits)

theorem Form.decodes {d : Decoders} {s : JsString} {bytes : List UInt8} :
    ∀ form ∈ shieldedForms, Decodes d s form.kind bytes ↔
      ∃ hrp, IsBech32 form.variant bech32Limit s hrp (toWords bytes) := by
  refine forall_shieldedForms ?_ ?_
  · constructor
    · rintro ⟨⟩
      exact ⟨_, ‹_›⟩
    · rintro ⟨hrp, h⟩
      exact .unified h
  · constructor
    · rintro ⟨⟩
      exact ⟨_, ‹_›⟩
    · rintro ⟨hrp, h⟩
      exact .sapling h

theorem spelling_form {d : Decoders} {bytes : List UInt8} : ∀ form ∈ shieldedForms,
    spelling d form.kind bytes = Bech32.encode form.variant form.hrp (toWords bytes) :=
  forall_shieldedForms rfl rfl

/-! ## What is accepted -/

theorem decodeBech32_eq_some_iff {d : Decoders} {addr hrp : JsString} {bytes : List UInt8}
    {variant : Bech32.Variant} : decodeBech32 d addr variant = some (hrp, bytes) ↔
      IsBech32 variant bech32Limit addr hrp (toWords bytes) := by
  rw [← d.bech32_iff]
  constructor
  · intro h
    obtain ⟨⟨hrp', words⟩, hwords, hrest⟩ := Option.bind_eq_some_iff.mp h
    obtain ⟨bytes', hbytes, hpair⟩ := Option.bind_eq_some_iff.mp hrest
    obtain ⟨rfl, rfl⟩ := Prod.mk.inj (Option.some.inj hpair)
    rw [hwords, d.fromWords_iff.mp hbytes]
  · intro h
    have hbytes : d.fromWords (toWords bytes) = some bytes := d.fromWords_iff.mpr rfl
    simp [decodeBech32, h, hbytes]

theorem startsWithAny_iff {fronts : List JsString} {s : JsString} :
    startsWithAny fronts s = true ↔ ∃ front ∈ fronts, front <+: s := by
  simp [startsWithAny, List.any_eq_true, List.isPrefixOf_iff_prefix]

/-- What an accepted text is, whatever its human-readable part. -/
inductive Admitted (d : Decoders) (s : JsString) : AddressKind → Prop
  | shielded {form : Form} (hform : form ∈ shieldedForms) (hfront : form.front <+: s.map foldCase)
      {hrp : JsString} {bytes : List UInt8}
      (h : IsBech32 form.variant bech32Limit s hrp (toWords bytes))
      (hfits : form.fits bytes.length = true) : Admitted d s form.kind
  | transparent {payload : List UInt8} (hfront : startsWithAny transparentFronts s = true)
      (h : Receiver d s .transparent payload) : Admitted d s .transparent

theorem admitted_of_shieldedInfo {lower : LowerCase} {d : Decoders} {addr : JsString} {form : Form}
    (hform : form ∈ shieldedForms) (hfront : startsWithAny [form.front] (lower.apply addr) = true)
    {kind : AddressKind} {shielded : Bool}
    (h : shieldedInfo d form addr = .valid kind shielded) : Admitted d addr kind := by
  unfold shieldedInfo at h
  split at h
  · cases h
  · rename_i hrp bytes hdecode
    split at h
    · cases h
    · rename_i hfits
      obtain ⟨rfl, -⟩ := AddressInfo.valid.inj h
      have hbech := decodeBech32_eq_some_iff.mp hdecode
      rw [lower.ascii addr hbech.ascii, startsWithAny_iff] at hfront
      simp only [List.mem_singleton, exists_eq_left] at hfront
      exact .shielded hform hfront hbech (by simpa using hfits)

/-- The two bytes that are compared are all of the version. -/
theorem take_version {addr : JsString} {payload : List UInt8} (hlength : payload.length = 22)
    (hfirst : payload[0]? = (transparentVersion addr)[0]?)
    (hsecond : payload[1]? = (transparentVersion addr)[1]?) :
    payload.take 2 = transparentVersion addr := by
  have htwo : (transparentVersion addr).length = 2 := by
    unfold transparentVersion
    split <;> rfl
  generalize transparentVersion addr = version at *
  match payload, hlength with
  | a :: b :: rest, _ =>
    match version, htwo with
    | [v, w], _ =>
      obtain rfl : a = v := by simpa using hfirst
      obtain rfl : b = w := by simpa using hsecond
      rfl

theorem admitted_of_transparentInfo {d : Decoders} {addr : JsString}
    (hfront : startsWithAny transparentFronts addr = true) {kind : AddressKind} {shielded : Bool}
    (h : transparentInfo d addr = .valid kind shielded) : Admitted d addr kind := by
  unfold transparentInfo at h
  split at h
  · cases h
  · rename_i payload hdecode
    dsimp only at h
    split at h
    · cases h
    · rename_i hpayload
      push Not at hpayload
      obtain ⟨hlength, hfirst, hsecond⟩ := hpayload
      obtain ⟨rfl, -⟩ := AddressInfo.valid.inj h
      have hversion := take_version hlength hfirst hsecond
      refine .transparent hfront (.transparent (d.base58check_iff.mp hdecode) hlength ?_)
      unfold transparentVersion at hversion
      split at hversion
      · exact .inl hversion
      · exact .inr hversion

theorem admitted_of_accepted {lower : LowerCase} {d : Decoders} {input : JsString}
    {kind : AddressKind} (h : AcceptedAs lower d input kind) : Admitted d (trim input) kind := by
  obtain ⟨shielded, h⟩ := h
  unfold validateTestnetAddress at h
  dsimp only at h
  split_ifs at h with hempty hlong hmainnet hregtest hunified hsapling htransparent
  · exact admitted_of_shieldedInfo (by simp [shieldedForms]) hunified h
  · exact admitted_of_shieldedInfo (by simp [shieldedForms]) hsapling h
  · exact admitted_of_transparentInfo htransparent h

/-! ## The form the ledger goes by -/

theorem head?_of_front {front s : JsString} {c : UInt16} (hne : front.head? = some c)
    (h : front <+: s) : s.head? = some c := by
  obtain ⟨rest, rfl⟩ := h
  cases front with
  | nil => cases hne
  | cons d front => simpa using hne

theorem canonicalAddress_of_shielded {lower : LowerCase} {input : JsString} {form : Form}
    (hform : form ∈ shieldedForms) (hfront : form.front <+: (trim input).map foldCase)
    (hascii : ∀ c ∈ trim input, c < 0x80) :
    canonicalAddress lower input = (trim input).map foldCase := by
  have hlower : startsWithAny bech32Hrps (lower.apply (trim input)) = true := by
    rw [lower.ascii _ hascii, startsWithAny_iff]
    exact ⟨form.front, front_mem form hform, hfront⟩
  simp only [canonicalAddress, hlower, if_true]
  exact lower.ascii _ hascii

theorem head?_of_transparent {s : JsString} (h : startsWithAny transparentFronts s = true) :
    s.head? = some 0x74 := by
  obtain ⟨front, hfront, hstarts⟩ := startsWithAny_iff.mp h
  simp only [transparentFronts, List.mem_cons, List.not_mem_nil, or_false] at hfront
  rcases hfront with rfl | rfl
  · exact head?_of_front (by decide) hstarts
  · exact head?_of_front (by decide) hstarts

theorem head?_of_bech32Hrps {s : JsString} (h : startsWithAny bech32Hrps s = true) :
    s.head? ≠ some 0x74 := by
  obtain ⟨front, hfront, hstarts⟩ := startsWithAny_iff.mp h
  have hheads : ∀ front ∈ bech32Hrps, front.head? = some 0x75 ∨ front.head? = some 0x7A := by decide
  rcases hheads front hfront with hc | hc
  · rw [head?_of_front hc hstarts]
    decide
  · rw [head?_of_front hc hstarts]
    decide

theorem head?_map_of_transparent {s : JsString} (h : startsWithAny transparentFronts s = true) :
    (s.map foldCase).head? = some 0x74 := by
  rw [List.head?_map, head?_of_transparent h]
  decide

theorem canonicalAddress_of_transparent {lower : LowerCase} {input : JsString}
    (hfront : startsWithAny transparentFronts (trim input) = true)
    (hascii : ∀ c ∈ trim input, c < 0x80) : canonicalAddress lower input = trim input := by
  have hlower : startsWithAny bech32Hrps (lower.apply (trim input)) = false := by
    by_contra hfolds
    rw [Bool.not_eq_false, lower.ascii _ hascii] at hfolds
    exact head?_of_bech32Hrps hfolds (head?_map_of_transparent hfront)
  simp only [canonicalAddress, hlower, Bool.false_eq_true, if_false]

/-- A shielded text does not begin like a transparent one. -/
theorem head?_of_shielded {form : Form} (hform : form ∈ shieldedForms) {s : JsString}
    (hfront : form.front <+: s) : s.head? ≠ some 0x74 :=
  head?_of_bech32Hrps (startsWithAny_iff.mpr ⟨form.front, front_mem form hform, hfront⟩)

theorem form_eq {form form' : Form} (hform : form ∈ shieldedForms) (hform' : form' ∈ shieldedForms)
    {s : JsString} (hfront : form.front <+: s) (hfront' : form'.front <+: s) : form = form' := by
  have hhead : ∀ form ∈ shieldedForms, ∃ c, form.front.head? = some c :=
    forall_shieldedForms ⟨0x75, by decide⟩ ⟨0x7A, by decide⟩
  obtain ⟨c, hc⟩ := hhead form hform
  obtain ⟨c', hc'⟩ := hhead form' hform'
  have hs := head?_of_front hc hfront
  rw [head?_of_front hc' hfront'] at hs
  exact form_unique form hform form' hform' (by rw [hc, hc', hs])

/-! ## One fingerprint for each receiver -/

theorem Receiver.ascii {d : Decoders} {s : JsString} {payload : List UInt8}
    (h : Receiver d s .transparent payload) : ∀ c ∈ s, c < 0x80 := by
  cases h with
  | transparent h => exact h ▸ Base58.encode_lt _

variable {lower : LowerCase} {d : Decoders} {s t : JsString} {k l : AddressKind}

theorem Admitted.oneSeparator_iff (h : Admitted d (trim s) k) :
    OneSeparator s ↔ ∃ payload, Receiver d (trim s) k payload := by
  cases h with
  | @shielded form hform hfront hrp bytes h hfits =>
    have hhrp := h.hrp_eq_iff (front_eq form hform ▸ hfront) (one_not_mem_hrp form hform)
    constructor
    · rintro (htransparent | hone)
      · exact absurd (head?_map_of_transparent htransparent) (head?_of_shielded hform hfront)
      · refine ⟨bytes, (Form.receiver form hform).mpr ⟨?_, hfits⟩⟩
        rw [hhrp.mpr hone] at h
        exact h
    · rintro ⟨payload, hreceiver⟩
      have hexact := ((Form.receiver form hform).mp hreceiver).1
      exact .inr ((hexact.hrp_eq_iff (front_eq form hform ▸ hfront)
        (one_not_mem_hrp form hform)).mp rfl)
  | transparent hfront h => exact iff_of_true (.inl hfront) ⟨_, h⟩

/-- What is one text to the ledger is one receiver. -/
theorem sameReceiver_of_canonicalAddress (hs : AcceptedAs lower d s k) (ht : AcceptedAs lower d t l)
    (h : canonicalAddress lower s = canonicalAddress lower t) : SameReceiver lower d s t := by
  have hsAdmitted := admitted_of_accepted hs
  have htAdmitted := admitted_of_accepted ht
  cases hsAdmitted with
  | @shielded form hform hfront hrp bytes hbech hfits =>
    rw [canonicalAddress_of_shielded hform hfront hbech.ascii] at h
    cases htAdmitted with
    | @shielded form' hform' hfront' hrp' bytes' hbech' hfits' =>
      rw [canonicalAddress_of_shielded hform' hfront' hbech'.ascii] at h
      obtain rfl := form_eq hform hform' hfront (h ▸ hfront')
      exact ⟨form.kind, bytes, ⟨hs, (Form.decodes form hform).mpr ⟨hrp, hbech⟩⟩, ht,
        (Form.decodes form hform).mpr ⟨hrp, hbech.congr hbech' h⟩⟩
    | transparent hfront' h' =>
      rw [canonicalAddress_of_transparent hfront' h'.ascii] at h
      have hhead := head?_of_transparent hfront'
      rw [← h] at hhead
      exact absurd hhead (head?_of_shielded hform hfront)
  | @transparent payload hfront hreceiver =>
    rw [canonicalAddress_of_transparent hfront hreceiver.ascii] at h
    cases htAdmitted with
    | @shielded form' hform' hfront' hrp' bytes' hbech' hfits' =>
      rw [canonicalAddress_of_shielded hform' hfront' hbech'.ascii] at h
      have hhead := head?_of_transparent hfront
      rw [h] at hhead
      exact absurd hhead (head?_of_shielded hform' hfront')
    | transparent hfront' h' =>
      rw [canonicalAddress_of_transparent hfront' h'.ascii] at h
      cases hreceiver with
      | transparent hcheck =>
        exact ⟨.transparent, payload, ⟨hs, .transparent hcheck⟩, ht, .transparent (h ▸ hcheck)⟩

/-- Without another `1` the ledger's text is the one way the payload is
written. -/
theorem canonicalAddress_eq_spelling (hs : AcceptedAs lower d s k) (hone : OneSeparator s)
    {payload : List UInt8} (h : Decodes d (trim s) k payload) :
    canonicalAddress lower s = spelling d k payload := by
  have hadmitted := admitted_of_accepted hs
  cases hadmitted with
  | @shielded form hform hfront hrp bytes hbech hfits =>
    obtain ⟨hrp', hbech'⟩ := (Form.decodes form hform).mp h
    have hcount : (trim s).count Bech32.one = 1 := hone.resolve_left fun htransparent =>
      head?_of_shielded hform hfront (head?_map_of_transparent htransparent)
    have hhrp : hrp' = form.hrp := (hbech'.hrp_eq_iff (front_eq form hform ▸ hfront)
      (one_not_mem_hrp form hform)).mpr hcount
    rw [canonicalAddress_of_shielded hform hfront hbech.ascii, hbech'.text, hhrp,
      spelling_form form hform]
  | transparent hfront hreceiver =>
    rw [canonicalAddress_of_transparent hfront hreceiver.ascii]
    cases h with
    | transparent h => exact h

theorem fingerprintAddress_eq_iff {F : Type} (hash : KeyedHash F) :
    fingerprintAddress lower hash s = fingerprintAddress lower hash t ↔
      canonicalAddress lower s = canonicalAddress lower t :=
  (hash.injective (js "addr")).eq_iff

theorem fingerprint_iff_sameReceiver {F : Type} (hash : KeyedHash F) (hs : AcceptedAs lower d s k)
    (ht : AcceptedAs lower d t l) (hsOne : OneSeparator s) (htOne : OneSeparator t) :
    fingerprintAddress lower hash s = fingerprintAddress lower hash t ↔
      SameReceiver lower d s t := by
  rw [fingerprintAddress_eq_iff]
  constructor
  · exact sameReceiver_of_canonicalAddress hs ht
  · rintro ⟨kind, payload, ⟨hs', hsPayload⟩, ht', htPayload⟩
    rw [canonicalAddress_eq_spelling hs' hsOne hsPayload,
      canonicalAddress_eq_spelling ht' htOne htPayload]

/-! ## The main result -/

def blankDigest : List UInt8 → List UInt8 := fun _ => List.replicate 32 0

def plainDecoders : Decoders := .plain blankDigest fun _ => List.length_replicate

def pairHash : KeyedHash (JsString × JsString) where
  fingerprint tag value := (tag, value)
  injective _ _ _ h := (Prod.mk.inj h).2

/-- Forty-eight zeros, as a unified address: 77 times the letter `q` and a
checksum. -/
def utestText : JsString := js "utest1" ++ List.replicate 77 0x71 ++ js "mqmgnz"

theorem utestText_valid :
    validateTestnetAddress foldOnly plainDecoders utestText = .valid .unified true := by
  decide +kernel

/-- In upper case, behind a blank. -/
def upperText : JsString := js " " ++ utestText.map raiseCase

/-- Two accepted texts are addresses of the network, with one fingerprint
exactly if they are one receiver, if and only if neither has another `1` in
what is before its data. -/
theorem identity_iff {F : Type} (lower : LowerCase) (d : Decoders) (hash : KeyedHash F)
    {s t : JsString} {k l : AddressKind} (hs : AcceptedAs lower d s k) (ht : AcceptedAs lower d t l) :
    ((∃ payload, Receiver d (trim s) k payload) ∧ (∃ payload, Receiver d (trim t) l payload) ∧
      (fingerprintAddress lower hash s = fingerprintAddress lower hash t ↔
        SameReceiver lower d s t)) ↔ OneSeparator s ∧ OneSeparator t := by
  rw [← (admitted_of_accepted hs).oneSeparator_iff, ← (admitted_of_accepted ht).oneSeparator_iff]
  constructor
  · rintro ⟨hsOne, htOne, -⟩
    exact ⟨hsOne, htOne⟩
  · rintro ⟨hsOne, htOne⟩
    exact ⟨hsOne, htOne, fingerprint_iff_sameReceiver hash hs ht hsOne htOne⟩

theorem identity_iff_upperCase :
    (∃ payload, Receiver plainDecoders (trim utestText) .unified payload) ∧
      (∃ payload, Receiver plainDecoders (trim upperText) .unified payload) ∧
      (fingerprintAddress foldOnly pairHash utestText =
        fingerprintAddress foldOnly pairHash upperText ↔
          SameReceiver foldOnly plainDecoders utestText upperText) :=
  (identity_iff foldOnly plainDecoders pairHash ⟨true, utestText_valid⟩
    ⟨true, by decide +kernel⟩).mpr ⟨.inr (by decide +kernel), .inr (by decide +kernel)⟩

/-- The same under `utest1x`. -/
def utest1xText : JsString := js "utest1x1" ++ List.replicate 77 0x71 ++ js "jarwqg"

/-- One receiver, two fingerprints. -/
theorem respelled_other_fingerprint :
    validateTestnetAddress foldOnly plainDecoders utestText = .valid .unified true ∧
      validateTestnetAddress foldOnly plainDecoders utest1xText = .valid .unified true ∧
      decodeBech32 plainDecoders utestText .bech32m = some (js "utest", List.replicate 48 0) ∧
      decodeBech32 plainDecoders utest1xText .bech32m = some (js "utest1x", List.replicate 48 0) ∧
      fingerprintAddress foldOnly pairHash utestText ≠
        fingerprintAddress foldOnly pairHash utest1xText :=
  ⟨utestText_valid, by decide +kernel, by decide +kernel, by decide +kernel, by decide +kernel⟩

end ZcashFaucet.Zcash
