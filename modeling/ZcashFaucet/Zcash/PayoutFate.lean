/-
ZcashFaucet.Zcash.PayoutFate — whether a payout can still be mined:
`getTxStatus` of `zcash/txstatus.ts` and `classifyPayout` of
`zcash/payoutDead.ts`.

The wallet says what it knows of a transaction, and the node says where the
tip is. The two are read one after the other of a chain that goes on growing,
and the verdict is about that chain (`classifyPayout_sound`). It is right where
the tip was read first. Where the wallet was asked first, a transaction that
has been mined in between is pronounced dead (`dead_of_stale_answer`).
-/
import ZcashFaucet.Lib.ExpiringChain
import ZcashFaucet.Lib.JsLower
import ZcashFaucet.Lib.Json

namespace ZcashFaucet.Zcash

open Lib

/-! ## The wallet -/

/-- `known` is `none` when the wallet cannot answer. The confirmations are
what the reply has there, whatever that is. -/
structure TxStatus where
  known : Option Bool
  confirmations : Option Json
  height : Option JsNumber
  expiryHeight : Option JsNumber

/-- UNKNOWN. -/
def unknownStatus : TxStatus := ⟨none, none, none, none⟩

/-- `/^[0-9a-f]{64}$/i`. -/
def isTxidText (txid : JsString) : Bool := txid.length == 64 && txid.all fun c => (hexValue? c).isSome

/-- A number, in the order of numbers. -/
def rank : JsNumber → WithBot (WithTop ℚ)
  | .finite q => ((q : WithTop ℚ) : WithBot (WithTop ℚ))
  | .infinite false => ((⊤ : WithTop ℚ) : WithBot (WithTop ℚ))
  | .infinite true => ⊥

/-- `typeof v === "number" && v >= 0 ? v : null`. -/
def nonNegative : Option Json → Option JsNumber
  | some (.num n) => if 0 ≤ rank n then some n else none
  | _ => none

/-- The status of a transaction that the wallet has. -/
def knownStatus (result : Json) : TxStatus :=
  ⟨some true, orElse (result.field (js "confirmations")) (some (.num (.finite 0))),
    nonNegative (result.field (js "height")), nonNegative (result.field (js "expiryheight"))⟩

/-- What a reply says: an error is a no if its code is that of not found. -/
def replyStatus (reply : Json) : TxStatus :=
  if truthy? (reply.field (js "error")) then
    if finiteNumber (field? (js "code") (reply.field (js "error"))) = some (-5) then ⟨some false, none, none, none⟩
    else unknownStatus
  else
    match reply.field (js "result") with
    | none => unknownStatus
    | some result => if result.truthy then knownStatus result else unknownStatus

/-- `getTxStatus`. The body is `none` where there is no reply with an OK
status or it is not JSON. -/
def getTxStatus (zallet : Bool) (txid : JsString) (body : Option Json) : TxStatus :=
  if zallet = false ∨ isTxidText txid = false then unknownStatus
  else
    match body with
    | none | some .null => unknownStatus
    | some reply => replyStatus reply

/-! ## The verdict -/

inductive PayoutFate
  | mined
  | dead
  | pending
  | cannotTell
  deriving DecidableEq

structure PayoutFacts where
  knownByWallet : Option Bool
  confirmations : Option JsNumber
  expiryHeight : Option JsNumber
  tip : Option JsNumber

structure PayoutVerdict where
  fate : PayoutFate
  reason : JsString

variable (numText : ℚ → JsString)

/-- `a - b` of a number and a smaller one. -/
def headroom : JsNumber → JsNumber → JsNumber
  | .finite a, .finite b => .finite (a - b)
  | .infinite negative, _ => .infinite negative
  | .finite _, .infinite negative => .infinite !negative

/-- The verdict of a transaction that is not in a block, by its expiry height
and the tip. -/
def judgeByExpiry (expiry tip : JsNumber) : PayoutVerdict :=
  if expiry = .finite 0 then
    ⟨.pending, js "expiry height 0 means this transaction never expires, so it cannot be dead"⟩
  else if rank expiry ≤ rank tip then
    ⟨.dead, js "our tip " ++ tip.text numText ++ js " has reached this transaction's expiry " ++
      expiry.text numText ++ js (" and it is not in a block, so it can never be mined. " ++
        "This is arithmetic on our own node, not an explorer's opinion")⟩
  else
    ⟨.pending, js "not mined yet, " ++ (headroom expiry tip).text numText ++
      js " block(s) of expiry headroom left (tip " ++ tip.text numText ++ js ")"⟩

def classifyPayout (f : PayoutFacts) : PayoutVerdict :=
  if 0 < rank (f.confirmations.getD (.finite 0)) then
    ⟨.mined, js "mined with " ++ (f.confirmations.getD (.finite 0)).text numText ++ js " confirmation(s)"⟩
  else
    match f.knownByWallet, f.tip, f.expiryHeight with
    | none, _, _ =>
        ⟨.cannotTell, js "the wallet could not answer, so nothing about this payout is established"⟩
    | some false, _, _ =>
        ⟨.cannotTell,
          js "our wallet has no record of this transaction, so its expiry is unknown and it cannot be judged here"⟩
    | some true, none, _ =>
        ⟨.cannotTell, js "our node's tip is unknown, so nothing can be compared against the expiry"⟩
    | some true, some _, none =>
        ⟨.cannotTell, js "the transaction reports no expiry height, so it cannot be judged dead"⟩
    | some true, some tip, some expiry => judgeByExpiry numText expiry tip

def shouldAlarm (v : PayoutVerdict) : Bool := v.fate == .dead

/-! ## The facts -/

/-- A number that its type promises. -/
def number? : Json → Option JsNumber
  | .num n => some n
  | _ => none

/-- The facts of a status and a tip. -/
def payoutFacts (s : TxStatus) (tip : Option JsNumber) : PayoutFacts :=
  ⟨s.known, s.confirmations.bind number?, s.expiryHeight, tip⟩

/-! ## What a verdict says of the chain -/

variable {Tx : Type} {expiry : Tx → Nat} {n w : Chain Tx} {t : Tx}

/-- What the wallet tells of `t` when it has seen the chain `w`. One that has
not been mined has no confirmations, or none that count. -/
structure WalletTells (expiry : Tx → Nat) (w : Chain Tx) (t : Tx) (result : Json) : Prop where
  mined : w.Mined t → ∃ k : ℕ, 0 < k ∧ result.field (js "confirmations") = some (.num (.finite k))
  unmined : ¬ w.Mined t → ∀ k, result.field (js "confirmations") = some (.num k) → rank k ≤ 0
  expires : ∀ k, result.field (js "expiryheight") = some (.num k) → k = .finite (expiry t)

theorem rank_finite_le_iff {a b : ℚ} : rank (.finite a) ≤ rank (.finite b) ↔ a ≤ b := by
  rw [rank, rank, WithBot.coe_le_coe, WithTop.coe_le_coe]

theorem nonNegative_eq_some {v : Option Json} {k : JsNumber} (h : nonNegative v = some k) : v = some (.num k) := by
  unfold nonNegative at h
  split at h
  · split at h
    · obtain rfl := Option.some.inj h
      rfl
    · cases h
  · cases h

/-- A status says that the transaction is known only if the wallet does. -/
theorem getTxStatus_cases (zallet : Bool) (txid : JsString) (body : Option Json) :
    ((getTxStatus zallet txid body).known ≠ some true ∧ (getTxStatus zallet txid body).confirmations = none) ∨
      ∃ reply result, body = some reply ∧ reply.field (js "result") = some result ∧
        getTxStatus zallet txid body = knownStatus result := by
  have hunknown : unknownStatus.known ≠ some true ∧ unknownStatus.confirmations = none := ⟨nofun, rfl⟩
  unfold getTxStatus
  split
  · exact .inl hunknown
  · split
    · exact .inl hunknown
    · exact .inl hunknown
    · rename_i reply hnull
      unfold replyStatus
      split
      · split
        · exact .inl ⟨nofun, rfl⟩
        · exact .inl hunknown
      · split
        · exact .inl hunknown
        · rename_i result hresult
          split
          · exact .inr ⟨reply, result, rfl, hresult, rfl⟩
          · exact .inl hunknown

/-- Without an answer that it is known there is no verdict. -/
theorem classifyPayout_of_not_known {s : TxStatus} {tip : Option JsNumber} (hunknown : s.known ≠ some true)
    (hnone : s.confirmations = none) : (classifyPayout numText (payoutFacts s tip)).fate = .cannotTell := by
  unfold classifyPayout payoutFacts
  rw [hnone, Option.bind_none, Option.getD_none, if_neg (by decide)]
  rcases hknown : s.known with _ | known
  · rfl
  · cases known with
    | false => rfl
    | true => exact absurd hknown hunknown

/-- It counts as mined if and only if it is. -/
theorem confirmed_iff {result : Json} (htells : WalletTells expiry w t result) :
    0 < rank (((knownStatus result).confirmations.bind number?).getD (.finite 0)) ↔ w.Mined t := by
  constructor
  · intro hpos
    by_contra hnot
    have hunmined := htells.unmined hnot
    refine absurd hpos (not_lt.mpr ?_)
    unfold knownStatus
    dsimp only
    rcases hfield : result.field (js "confirmations") with _ | v
    · exact le_refl _
    · cases v with
      | num k => exact hunmined k hfield
      | _ => exact le_refl _
  · intro hmined
    obtain ⟨k, hk, hfield⟩ := htells.mined hmined
    unfold knownStatus
    dsimp only
    rw [hfield]
    change rank (.finite 0) < rank (.finite k)
    exact not_le.mp fun hle => absurd (rank_finite_le_iff.mp hle) (not_le.mpr (Nat.cast_pos.mpr hk))

/-- What a verdict says of the chain, where the tip was that of `n` and the
wallet had seen `w`. -/
def SaysOfChain (expiry : Tx → Nat) (n w : Chain Tx) (t : Tx) : PayoutFate → Prop
  | .mined => w.Mined t
  | .dead => ¬ w.Mined t ∧ (∀ c : Chain Tx, c.Valid expiry → w <+: c → ¬ c.Mined t) ∧
      ∀ (c : Chain Tx) (h : Nat), c.Valid expiry → c.MinedAt t h → h ≤ expiry t ∧ ¬ c.take (h + 1) <+: w
  | .pending => ¬ w.Mined t ∧ n.CanMine expiry t
  | .cannotTell => True

theorem judgeByExpiry_says (hnot : ¬ w.Mined t) (hne : n ≠ []) (hvalid : w.Valid expiry) (hgrew : n <+: w) :
    SaysOfChain expiry n w t (judgeByExpiry numText (.finite (expiry t)) (.finite n.tip)).fate ∧
      (judgeByExpiry numText (.finite (expiry t)) (.finite n.tip)).fate ≠ .cannotTell := by
  have hlength : n.length ≤ w.length := hgrew.length_le
  have hpositive : 0 < n.length := List.length_pos_iff.mpr hne
  have hcan := Chain.canMine_iff (Chain.Valid.of_longer hvalid hgrew) (t := t)
  have hzero : JsNumber.finite (expiry t : ℚ) = .finite 0 ↔ expiry t = 0 := by
    rw [JsNumber.finite.injEq, Nat.cast_eq_zero]
  have hreached : rank (.finite (expiry t : ℚ)) ≤ rank (.finite (n.tip : ℚ)) ↔ expiry t ≤ n.tip := by
    rw [rank_finite_le_iff, Nat.cast_le]
  unfold judgeByExpiry
  split
  case isTrue hnever => exact ⟨⟨hnot, hcan.mpr (.inl (hzero.mp hnever))⟩, nofun⟩
  case isFalse hexpires =>
    rw [hzero] at hexpires
    split
    case isTrue hpast =>
      have htip : expiry t ≤ n.length - 1 := hreached.mp hpast
      have hexpired : ¬ Chain.InTime expiry t w.length := by
        rintro (hnever | hintime)
        · exact hexpires hnever
        · omega
      exact ⟨⟨hnot, fun c hc hgoes => Chain.not_mined_of_expired hnot hexpired hc hgoes,
        fun c h hc hmined => hmined.leaves hc hexpires hnot⟩, nofun⟩
    case isFalse hbefore =>
      have htip : ¬ expiry t ≤ n.length - 1 := mt hreached.mpr hbefore
      exact ⟨⟨hnot, hcan.mpr (.inr (by omega))⟩, nofun⟩

/-- Where the tip was read no later than the wallet was asked and both saw the
same chain grow, a verdict says of the chain what its name says. There is none
if and only if the wallet does not know the transaction or a number that is
needed is missing. -/
theorem classifyPayout_sound {zallet : Bool} {txid : JsString} {body : Option Json} {tip : Option JsNumber}
    (htells : ∀ reply result, body = some reply → reply.field (js "result") = some result →
      WalletTells expiry w t result)
    (htip : ∀ k, tip = some k → n ≠ [] ∧ k = .finite n.tip) (hvalid : w.Valid expiry) (hgrew : n <+: w) :
    SaysOfChain expiry n w t (classifyPayout numText (payoutFacts (getTxStatus zallet txid body) tip)).fate ∧
      ((classifyPayout numText (payoutFacts (getTxStatus zallet txid body) tip)).fate = .cannotTell ↔
        (getTxStatus zallet txid body).known ≠ some true ∨
          ¬ w.Mined t ∧ (tip = none ∨ (getTxStatus zallet txid body).expiryHeight = none)) := by
  rcases getTxStatus_cases zallet txid body with ⟨hunknown, hnone⟩ | ⟨reply, result, hbody, hresult, hstatus⟩
  · rw [classifyPayout_of_not_known numText hunknown hnone]
    exact ⟨trivial, fun _ => .inl hunknown, fun _ => rfl⟩
  · have htold := htells reply result hbody hresult
    have hconfirmed := confirmed_iff htold
    have hknown : (knownStatus result).known = some true := rfl
    rw [hstatus, hknown]
    unfold classifyPayout payoutFacts
    dsimp only
    by_cases hmined : w.Mined t
    case pos =>
      rw [if_pos (hconfirmed.mpr hmined)]
      exact ⟨hmined, nofun, fun h => absurd hmined (h.resolve_left fun hne => hne rfl).1⟩
    case neg =>
      rw [if_neg (mt hconfirmed.mp hmined), hknown]
      cases htipRead : tip with
      | none => exact ⟨trivial, fun _ => .inr ⟨hmined, .inl rfl⟩, fun _ => rfl⟩
      | some k =>
        cases hexpiry : (knownStatus result).expiryHeight with
        | none => exact ⟨trivial, fun _ => .inr ⟨hmined, .inr rfl⟩, fun _ => rfl⟩
        | some e =>
          obtain ⟨hne, rfl⟩ := htip k htipRead
          obtain rfl := htold.expires e (nonNegative_eq_some hexpiry)
          obtain ⟨hfate, htold⟩ := judgeByExpiry_says numText hmined hne hvalid hgrew
          refine ⟨hfate, fun h => absurd h htold, ?_⟩
          rintro (hne | ⟨-, hmissing | hmissing⟩)
          · exact absurd rfl hne
          · cases hmissing
          · cases hmissing

/-- A transaction that is still pending is pronounced dead when it is mined,
and the tip reaches its expiry height, after the wallet was asked. -/
theorem dead_of_stale_answer {s : TxStatus} (hvalid : w.Valid expiry) (hexpires : expiry t ≠ 0)
    (hpending : w.length ≤ expiry t) (hknown : s.known = some true) (hzero : s.confirmations = some (.num (.finite 0)))
    (hexpiry : s.expiryHeight = some (.finite (expiry t))) :
    ∃ n : Chain Tx, n.Valid expiry ∧ w <+: n ∧ n.Mined t ∧
      shouldAlarm (classifyPayout numText (payoutFacts s (some (.finite n.tip)))) = true := by
  have hmined : Chain.MinedAt (w ++ [[t]]) t w.length := Chain.minedAt_snoc_iff.mpr (.inr ⟨rfl, List.mem_singleton_self t⟩)
  have hgrown : w ++ [[t]] <+: w ++ [[t]] ++ List.replicate (expiry t - w.length) [] := List.prefix_append _ _
  have htip : Chain.tip (w ++ [[t]] ++ List.replicate (expiry t - w.length) []) = expiry t := by
    simp only [Chain.tip, List.length_append, List.length_singleton, List.length_replicate]
    omega
  refine ⟨_, (hvalid.mine (.inr hpending)).append_empty _, (List.prefix_append _ _).trans hgrown,
    ⟨w.length, hmined.of_prefix hgrown⟩, ?_⟩
  have hnever : ¬ JsNumber.finite (expiry t : ℚ) = .finite 0 := by
    rw [JsNumber.finite.injEq, Nat.cast_eq_zero]
    exact hexpires
  have hunmined : ¬ 0 < rank (((some (Json.num (.finite 0))).bind number?).getD (.finite 0)) := by decide
  unfold shouldAlarm classifyPayout payoutFacts
  dsimp only
  rw [hzero, hknown, hexpiry, htip, if_neg hunmined]
  dsimp only
  rw [judgeByExpiry, if_neg hnever, if_pos le_rfl]
  rfl

/-- An expired transaction is pronounced dead at its expiry height. -/
theorem classifyPayout_sound_expired : SaysOfChain (fun _ : Unit => 2) [[], [], []] [[], [], []] () .dead := by
  have hnone : ¬ Chain.Mined [[], [], []] () := by
    rintro ⟨h, block, hblock, hmem⟩
    have hempty : block ∈ List.replicate 3 ([] : List Unit) := List.mem_of_getElem? hblock
    rw [List.eq_of_mem_replicate hempty] at hmem
    cases hmem
  have hfate := (@classifyPayout_sound (fun _ => []) Unit (fun _ => 2) [[], [], []] [[], [], []] () true
    (List.replicate 64 0x61) (some (.obj [(js "result", .obj [(js "confirmations", .num (.finite 0)),
      (js "expiryheight", .num (.finite 2))])])) (some (.finite 2)) ?_ ?_ ?_ (List.prefix_refl _)).1
  · exact hfate
  · rintro reply result ⟨⟩ ⟨⟩
    refine ⟨fun hmined => absurd hmined hnone, ?_, ?_⟩
    · rintro - k ⟨⟩
      decide
    · rintro k ⟨⟩
      rfl
  · rintro k ⟨⟩
    exact ⟨nofun, rfl⟩
  · exact fun t h hmined => absurd ⟨h, hmined⟩ hnone

end ZcashFaucet.Zcash
