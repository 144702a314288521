/-
ZcashFaucet.Zcash.DirectTip — the direct leg of the tip oracle:
`fetchDirectTip` of `zcash/externalTip.ts`.

The endpoints that may vouch for the tip are asked in turn under one
deadline. Each is given an even share, rounded up, of what is left among
those still to be asked. Rounding up starves nobody: while there is a
millisecond for each, a share leaves a millisecond for each of the others
(`fairShare_le`), whatever the leg does with it.

Times are what `Date.now()` reads, in whole milliseconds.
-/
import ZcashFaucet.Zcash.TipEndpoint
import ZcashFaucet.Zcash.TipReferences
import Mathlib.Data.Rat.Floor
import Mathlib.Tactic.Linarith

namespace ZcashFaucet.Zcash

open Lib

/-- What `getLatest` comes to: a rejection, or a height that may be null. -/
inductive LegAnswer
  | failed
  | answered (height : Option ClaimedHeight)

/-- The height that is taken of an answer. -/
def LegAnswer.height : LegAnswer → Option ClaimedHeight
  | .answered (some height) => if 0 < height then some height else none
  | _ => none

/-- What a leg does with its share: a hang spends all of it and fails. -/
structure LegRun (share : Nat) where
  took : Nat
  within : took ≤ share
  answer : LegAnswer

structure TipLeg where
  endpoint : JsString
  ask : (share : Nat) → LegRun share

/-- A call of `getLatest`, with its answer. -/
structure AskedLeg where
  endpoint : JsString
  share : Nat
  answer : LegAnswer

/-- What `fetchDirectTip` has asked, when it settled and with what: a
height and the host that answered. -/
structure DirectTip where
  asked : List AskedLeg
  settledAt : Int
  tip : Option (ClaimedHeight × JsString)

/-- `Math.ceil(remaining / legs)`. -/
def fairShare (remaining : Int) (legs : Nat) : Nat := ⌈(remaining : ℚ) / legs⌉₊

variable (parse : JsString → Option UrlRecord)

/-- The loop over the legs. `targetFor` throws on what does not parse, and
then the next endpoint is tried. -/
def askLegs (endsAt : Int) : Int → List TipLeg → DirectTip
  | now, [] => ⟨[], now, none⟩
  | now, leg :: legs =>
      let remaining := endsAt - now
      if remaining ≤ 0 then ⟨[], now, none⟩
      else
        let share := fairShare remaining (legs.length + 1)
        let run := leg.ask share
        let asked : AskedLeg := ⟨leg.endpoint, share, run.answer⟩
        match run.answer.height, parse leg.endpoint with
        | some height, some url => ⟨[asked], now + run.took, some (height, (targetFor url).target)⟩
        | _, _ =>
            let rest := askLegs endsAt (now + run.took) legs
            { rest with asked := asked :: rest.asked }

/-- The endpoints that may vouch for the tip. -/
def independentLegs (endpoints : List TipLeg) : List TipLeg :=
  endpoints.filter fun leg => isIndependentTipEndpoint parse leg.endpoint

/-- `fetchDirectTip`. -/
def fetchDirectTip (fallbackTotalMs : Nat) (now : Int) (endpoints : List TipLeg) : DirectTip :=
  askLegs parse (now + fallbackTotalMs) now (independentLegs parse endpoints)

/-! ## An even share -/

theorem one_le_fairShare {remaining : Int} (h : 0 < remaining) {legs : Nat} (hlegs : 0 < legs) :
    1 ≤ fairShare remaining legs := by
  rw [fairShare, Nat.one_le_ceil_iff]
  exact div_pos (by exact_mod_cast h) (by exact_mod_cast hlegs)

/-- A share leaves a millisecond for each of the other legs. -/
theorem fairShare_le {remaining : Int} {others : Nat} (h : (others : Int) + 1 ≤ remaining) :
    (fairShare remaining (others + 1) : Int) ≤ remaining - others := by
  obtain ⟨spare, hspare⟩ := Int.eq_ofNat_of_zero_le (show 0 ≤ remaining - others by omega)
  rw [hspare]
  have hceil : fairShare remaining (others + 1) ≤ spare := by
    rw [fairShare, Nat.ceil_le]
    have hpos : (0 : ℚ) < ((others + 1 : Nat) : ℚ) := by exact_mod_cast Nat.succ_pos others
    rw [div_le_iff₀ hpos]
    -- the rest of the legs can wait: each of them is worth a millisecond of the spare time
    have hmul : remaining ≤ spare * ((others + 1 : Nat) : Int) := by
      have hspares : (1 : Int) ≤ spare := by omega
      have hrest : (others : Int) ≤ others * spare := le_mul_of_one_le_right (Int.natCast_nonneg _) hspares
      push_cast
      linarith
    exact_mod_cast hmul
  exact_mod_cast hceil

/-! ## A run of the loop -/

/-- The call is of this leg, with a share of its own. -/
def AskedAs (leg : TipLeg) (a : AskedLeg) : Prop :=
  a.endpoint = leg.endpoint ∧ 1 ≤ a.share ∧ a.answer = (leg.ask a.share).answer

/-- No leg goes unasked before one that answers, and what it answers is the
tip. -/
inductive AskedInOrder : List TipLeg → List AskedLeg → Option (ClaimedHeight × JsString) → Prop
  | none_left : AskedInOrder [] [] none
  | next {leg : TipLeg} {a : AskedLeg} {legs : List TipLeg} {asked : List AskedLeg}
      {tip : Option (ClaimedHeight × JsString)} (ask : AskedAs leg a) (unheard : a.answer.height = none)
      (rest : AskedInOrder legs asked tip) : AskedInOrder (leg :: legs) (a :: asked) tip
  | heard {leg : TipLeg} {a : AskedLeg} (legs : List TipLeg) {height : ClaimedHeight} {url : UrlRecord}
      (ask : AskedAs leg a) (answers : a.answer.height = some height) (parsed : parse leg.endpoint = some url) :
      AskedInOrder (leg :: legs) [a] (some (height, (targetFor url).target))

variable {parse}

theorem askLegs_spec {endsAt : Int} (legs : List TipLeg) :
    (∀ leg ∈ legs, (parse leg.endpoint).isSome = true) → ∀ {now : Int}, (legs.length : Int) ≤ endsAt - now →
      (askLegs parse endsAt now legs).settledAt ≤ endsAt ∧
        AskedInOrder parse legs (askLegs parse endsAt now legs).asked (askLegs parse endsAt now legs).tip := by
  induction legs with
  | nil =>
      intro _ now hroom
      exact ⟨by rw [askLegs]; simpa using hroom, .none_left⟩
  | cons leg legs ih =>
      intro hparse now hroom
      rw [List.length_cons] at hroom
      push_cast at hroom
      have hremains : ¬ endsAt - now ≤ 0 := by omega
      obtain ⟨url, hurl⟩ := Option.isSome_iff_exists.mp (hparse leg List.mem_cons_self)
      have hshare := fairShare_le hroom
      have hone : 1 ≤ fairShare (endsAt - now) (legs.length + 1) := one_le_fairShare (by omega) (Nat.succ_pos _)
      have htook := (leg.ask (fairShare (endsAt - now) (legs.length + 1))).within
      have hask : AskedAs leg ⟨leg.endpoint, fairShare (endsAt - now) (legs.length + 1),
        (leg.ask (fairShare (endsAt - now) (legs.length + 1))).answer⟩ := ⟨rfl, hone, rfl⟩
      rw [askLegs]
      simp only [if_neg hremains, hurl]
      cases hheight : (leg.ask (fairShare (endsAt - now) (legs.length + 1))).answer.height with
      | some height =>
          refine ⟨?_, .heard legs hask hheight hurl⟩
          show now + _ ≤ endsAt
          omega
      | none =>
          obtain ⟨hsettles, horder⟩ := ih (fun l hl => hparse l (List.mem_cons_of_mem _ hl))
            (show (legs.length : Int) ≤
              endsAt - (now + (leg.ask (fairShare (endsAt - now) (legs.length + 1))).took) by omega)
          exact ⟨hsettles, .next hask hheight horder⟩

/-! ## What was asked -/

/-- The legs asked, in their order, are the first of the list. -/
theorem AskedInOrder.endpoints {legs : List TipLeg} {asked : List AskedLeg} {tip : Option (ClaimedHeight × JsString)}
    (h : AskedInOrder parse legs asked tip) :
    asked.map AskedLeg.endpoint <+: legs.map TipLeg.endpoint := by
  induction h with
  | none_left => exact List.prefix_rfl
  | next ask _ _ ih =>
      rw [List.map_cons, List.map_cons, ask.1]
      exact (List.prefix_cons_inj _).mpr ih
  | heard legs ask _ _ =>
      rw [List.map_cons, List.map_cons, ask.1, List.map_nil]
      exact List.prefix_append [_] _

/-- Without a tip, every leg was asked and none answered a height. -/
theorem AskedInOrder.all_asked {legs : List TipLeg} {asked : List AskedLeg} (h : AskedInOrder parse legs asked none) :
    List.Forall₂ AskedAs legs asked ∧ ∀ a ∈ asked, a.answer.height = none := by
  generalize htip : (none : Option (ClaimedHeight × JsString)) = tip at h
  induction h with
  | none_left => exact ⟨.nil, fun a ha => by cases ha⟩
  | next ask unheard _ ih =>
      obtain ⟨hall, hunheard⟩ := ih htip
      refine ⟨.cons ask hall, fun a ha => ?_⟩
      rcases List.mem_cons.mp ha with rfl | hrest
      · exact unheard
      · exact hunheard a hrest
  | heard => cases htip

/-- A tip is what the first leg to answer a height has answered, and it was
the last to be asked. -/
theorem AskedInOrder.first_heard {legs : List TipLeg} {asked : List AskedLeg} {height : ClaimedHeight} {host : JsString}
    (h : AskedInOrder parse legs asked (some (height, host))) :
    ∃ before leg after earlier a url, legs = before ++ leg :: after ∧ asked = earlier ++ [a] ∧
      List.Forall₂ AskedAs before earlier ∧ (∀ b ∈ earlier, b.answer.height = none) ∧
      AskedAs leg a ∧ a.answer.height = some height ∧
      parse leg.endpoint = some url ∧ host = (targetFor url).target := by
  generalize htip : some (height, host) = tip at h
  induction h with
  | none_left => cases htip
  | @next leg a _ _ _ ask unheard _ ih =>
      obtain ⟨before, leg', after, earlier, a', url, rfl, rfl, hall, hunheard, hrest⟩ := ih htip
      refine ⟨leg :: before, leg', after, a :: earlier, a', url, rfl, rfl, .cons ask hall, fun b hb => ?_, hrest⟩
      rcases List.mem_cons.mp hb with rfl | hearlier
      · exact unheard
      · exact hunheard b hearlier
  | @heard leg a legs _ url ask answers parsed =>
      cases htip
      exact ⟨[], leg, legs, [], a, url, rfl, rfl, .nil, fun b hb => (by cases hb), ask, answers, parsed, rfl⟩

theorem parsed_of_independent {endpoint : JsString} (h : isIndependentTipEndpoint parse endpoint = true) :
    (parse endpoint).isSome = true := by
  unfold isIndependentTipEndpoint at h
  split at h
  case h_1 => cases h
  case h_2 url hurl => exact congrArg Option.isSome hurl

variable (parse)

/-- **The direct leg of the oracle.** With a millisecond for each of the
endpoints that may vouch, it settles within the budget and asks them in
order, each with a millisecond at least. Without a tip all of them were
asked, and none answered a height; a tip is the height of the first that
did, after all before it were asked. -/
theorem fetch_direct_tip (fallbackTotalMs : Nat) (now : Int) (endpoints : List TipLeg)
    (hbudget : (independentLegs parse endpoints).length ≤ fallbackTotalMs) :
    let direct := fetchDirectTip parse fallbackTotalMs now endpoints
    let legs := independentLegs parse endpoints
    direct.settledAt ≤ now + fallbackTotalMs ∧
    direct.asked.map AskedLeg.endpoint <+: legs.map TipLeg.endpoint ∧
    (direct.tip = none → List.Forall₂ AskedAs legs direct.asked ∧ ∀ a ∈ direct.asked, a.answer.height = none) ∧
    ∀ height host, direct.tip = some (height, host) →
      ∃ before leg after earlier a url, legs = before ++ leg :: after ∧ direct.asked = earlier ++ [a] ∧
        List.Forall₂ AskedAs before earlier ∧ (∀ b ∈ earlier, b.answer.height = none) ∧
        AskedAs leg a ∧ a.answer.height = some height ∧
        parse leg.endpoint = some url ∧ host = (targetFor url).target := by
  intro direct legs
  have hspec : direct.settledAt ≤ now + fallbackTotalMs ∧ AskedInOrder parse legs direct.asked direct.tip := by
    have hroom : (legs.length : Int) ≤ now + fallbackTotalMs - now := by
      rw [add_sub_cancel_left]
      exact_mod_cast hbudget
    refine askLegs_spec legs (fun leg hleg => ?_) hroom
    exact parsed_of_independent (List.mem_filter.mp hleg).2
  obtain ⟨hsettles, horder⟩ := hspec
  refine ⟨hsettles, horder.endpoints, fun hnone => ?_, fun height host htip => ?_⟩
  · rw [hnone] at horder
    exact horder.all_asked
  · rw [htip] at horder
    exact horder.first_heard

/-! ## A hang, a refusal and an answer -/

/-- `https://8.8.8.8`, parsed. -/
def publicUrl : UrlRecord where
  scheme := js "https"
  host := .ipv4 0x08080808
  port := none
  canonical _ _ h := by cases h
  verbatim h := absurd h (by decide)
  portKept h := absurd rfl h

def hangingLeg : TipLeg := ⟨js "https://8.8.8.8", fun share => ⟨share, le_rfl, .failed⟩⟩

def refusingLeg : TipLeg := ⟨js "https://8.8.8.8", fun share => ⟨0, Nat.zero_le share, .failed⟩⟩

def answeringLeg : TipLeg := ⟨js "https://8.8.8.8", fun share => ⟨0, Nat.zero_le share, .answered (some 3500000)⟩⟩

/-- Three milliseconds are enough for the third to be asked. -/
theorem fetch_direct_tip_third :
    let direct := fetchDirectTip (fun _ => some publicUrl) 3 0 [hangingLeg, refusingLeg, answeringLeg]
    direct.settledAt ≤ 3 ∧ direct.tip = some (3500000, js "8.8.8.8:443") := by
  have hbudget : (independentLegs (fun _ => some publicUrl) [hangingLeg, refusingLeg, answeringLeg]).length ≤ 3 :=
    List.length_filter_le _ _
  obtain ⟨hsettles, -⟩ := fetch_direct_tip (fun _ => some publicUrl) 3 0
    [hangingLeg, refusingLeg, answeringLeg] hbudget
  exact ⟨hsettles, by decide +kernel⟩

end ZcashFaucet.Zcash
