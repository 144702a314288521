/-
ZcashFaucet.Miner.HeartbeatText — the heartbeat as the text it is on the
disk: what `render` of `heartbeat.rs` prints, and what `readMinerHeartbeat`
of `miner/read.ts` and `resume` make of it.

The miner prints the file by hand, a field a line, with nothing quoted that
would need an escape (`renderText_eq`). The faucet and the next miner each
read it with a JSON reader of their own. `heartbeat_file_read` is the way
there and back: the faucet sees the state the miner was in (`seen`), the
next miner resumes its counts, and a file that was cut off before its last
brace is seen by neither of them as any state at all.

The faucet's numbers are doubles. A number up to 2 ^ 53 is one of them
(`State.Safe`); what a larger one is rounded to is not said here. The miner's
are integers where a numeral is spelled as one, and floats otherwise
(`Number.ofNumeral`).
-/
import ZcashFaucet.Lib.JsonLayout
import ZcashFaucet.Miner.LifetimeTheorems
import ZcashFaucet.Miner.WaitingTheorems

namespace ZcashFaucet.Miner

open Lib

/-! ## The text -/

def num : Option UInt64 → JsString
  | none => js "null"
  | some n => decimal n.toNat

def ts : Option UInt64 → JsString
  | none => js "null"
  | some t => js "\"" ++ rfc3339 t.toNat ++ js "\""

def quotedToken : Option JsString → JsString
  | none => js "null"
  | some v => js "\"" ++ v ++ js "\""

def textLine (key : String) (value : JsString) : JsString := js "  \"" ++ js key ++ js "\": " ++ value

def renderText (now : UInt64) (s : State) : JsString :=
  js "\x7b\n" ++ (js ",\n").intercalate
    [textLine "schema" (decimal schema),
      textLine "writtenAt" (js "\"" ++ rfc3339 now.toNat ++ js "\""),
      textLine "beatSeconds" (decimal s.beatSecs.val.toNat),
      textLine "staleAfterSeconds" (decimal (saturatingMul s.beatSecs.val 6)),
      textLine "templateSeconds" (decimal s.templateSecs.val.toNat),
      textLine "templateStaleAfterSeconds" (decimal (saturatingMul s.templateSecs.val 6)),
      textLine "mode" (js "\"" ++ s.mode.token ++ js "\""),
      textLine "startedAt" (js "\"" ++ rfc3339 s.startedAt.toNat ++ js "\""),
      textLine "lastTemplateAt" (ts s.lastTemplateAt),
      textLine "lastTemplateHeight" (num s.lastTemplateHeight),
      textLine "lastErrorStage" (quotedToken (s.lastErrorStage.map ErrorStage.token)),
      textLine "lastErrorAt" (ts s.lastErrorAt),
      textLine "consecutiveErrors" (decimal s.consecutiveErrors.toNat),
      textLine "solvedCount" (num s.solvedCount),
      textLine "lastSolvedAt" (ts s.lastSolvedAt),
      textLine "submittedAccepted" (num s.submittedAccepted),
      textLine "submittedRejected" (num s.submittedRejected),
      textLine "lastRejectReason" (quotedToken (s.lastRejectReason.map RejectReason.token)),
      textLine "lastSubmittedAt" (ts s.lastSubmittedAt),
      textLine "abandonedCount" (num s.abandonedCount),
      textLine "lastAbandonedAt" (ts s.lastAbandonedAt),
      textLine "discardedCount" (num s.discardedCount),
      textLine "lastDiscardedAt" (ts s.lastDiscardedAt),
      textLine "nodeLag" (num s.nodeLag),
      textLine "waitingSince" (ts s.waitingSince),
      textLine "waitingReason" (quotedToken (s.waitingReason.map WaitReason.token))] ++ js "\n\x7d\n"

/-! ## The readers -/

/-- A path that is not set is nothing to read; a file that cannot be read or
is not JSON is the same as none. -/
def readMinerHeartbeat (toDouble : ℚ → JsNumber) (path : JsString) (file : Option JsString) (nowMs : ℚ) :
    MinerReading :=
  if path = [] then unconfigured else readingFor dateParse (file.bind (parseJson toDouble)) nowMs

/-- Numerals from here on are rounded to an infinity. -/
def doubleLimit : ℚ := 2 ^ 1024 - 2 ^ 970

/-- A numeral with neither a point nor an exponent is an integer, where 64
bits hold it and it is not `-0`. Every other is a float, and an error where
it is past the doubles. -/
def Number.ofNumeral (x : Numeral) : Option Number :=
  let n := decimalValue x.whole.units
  if x.fraction.isNone ∧ x.exponent.isNone ∧ !x.negative ∧ n < 2 ^ 64 then some (.posInt (UInt64.ofNat n))
  else if x.fraction.isNone ∧ x.exponent.isNone ∧ x.negative ∧ 0 < n ∧ n ≤ 2 ^ 63 then some (.negInt (-n))
  else if |x.value| < doubleLimit then some (.float (.finite x.value))
  else none

mutual

/-- What `serde_json` makes of the tree, no more than `depth` levels deep:
half a surrogate pair is an error, and of the fields of one name the last
counts. -/
def Value.ofTree : JsonTree → Nat → Option Value
  | .null, _ => some .null
  | .bool b, _ => some (.bool b)
  | .num x, _ => (Number.ofNumeral x).map .number
  | .str s, _ => if isWellFormed s then some (.string s) else none
  | .arr items, depth => if depth = 0 then none else (ofTreeItems items (depth - 1)).map .array
  | .obj fields, depth => if depth = 0 then none else (ofTreeFields fields (depth - 1)).map .object

def ofTreeItems : List JsonTree → Nat → Option (List Value)
  | [], _ => some []
  | t :: items, depth => do
      let v ← Value.ofTree t depth
      let rest ← ofTreeItems items depth
      return v :: rest

def ofTreeFields : List (JsString × JsonTree) → Nat → Option (List (JsString × Value))
  | [], _ => some []
  | (key, t) :: fields, depth => do
      if !isWellFormed key then none
      let v ← Value.ofTree t depth
      let rest ← ofTreeFields fields depth
      return if fields.any fun f => f.1 == key then rest else (key, v) :: rest

end

/-- The levels `serde_json` goes down before it calls the recursion off. -/
def serdeDepth : Nat := 127

/-- What a text under the miner's name is to `resume`. -/
def bodyOf (text : JsString) : Body :=
  match (readTree text).bind fun t => Value.ofTree t serdeDepth with
  | some v => .json v
  | none => .notJson text

/-- A count that is spelled as a float is no count. -/
example : resume (some (bodyOf (js "\x7b\"schema\":1,\"solvedCount\":7.0,\"submittedAccepted\":7\x7d"))) =
    .counts ⟨none, some 7, none, none, none⟩ := by decide +kernel

/-! ## What the reader sees -/

/-- A stamp of a year past 9999 has no age, and no more has one ahead of the
reader's clock. -/
def ageOf (nowMs : ℚ) (t : UInt64) : Option ℚ :=
  if t.toNat < longYears ∧ 1000 * (t.toNat : ℚ) ≤ nowMs then some ((nowMs - 1000 * t.toNat) / 1000) else none

def Mode.read : Mode → MinerMode
  | .submit => .submit
  | .proposal => .proposal

def double (n : UInt64) : JsNumber := .finite n.toNat

def seenFacts (s : State) (beatAgo nowMs : ℚ) : MinerFacts where
  beatAgoSeconds := some beatAgo
  templateAgoSeconds := s.lastTemplateAt.bind (ageOf nowMs)
  lastTemplateHeight := s.lastTemplateHeight.map double
  mode := some s.mode.read
  lastErrorStage := s.lastErrorStage.map ErrorStage.token
  consecutiveErrors := some (double s.consecutiveErrors)
  solvedCount := s.solvedCount.map double
  submittedAccepted := s.submittedAccepted.map double
  submittedRejected := s.submittedRejected.map double
  solvedAgoSeconds := s.lastSolvedAt.bind (ageOf nowMs)
  nodeLag := s.nodeLag.map fun n => (n.toNat : ℚ)
  waitingAgoSeconds := s.waitingSince.bind (ageOf nowMs)
  waitingReason := s.waitingReason.map WaitReason.token
  operator :=
    { lastRejectReason := s.lastRejectReason.map RejectReason.token
      abandonedCount := s.abandonedCount.map double
      abandonedAgoSeconds := s.lastAbandonedAt.bind (ageOf nowMs) }

/-- The miner's state as it was at `now`, seen at `nowMs`. -/
def seen (now : UInt64) (s : State) (nowMs : ℚ) : MinerReading :=
  match ageOf nowMs now with
  | none => unverifiable
  | some beatAgo =>
      let facts := seenFacts s beatAgo nowMs
      ⟨facts, stateOf facts beatAgo (6 * s.beatSecs.val.toNat) (6 * s.templateSecs.val.toNat)⟩

/-- Every number in the file is a double. -/
structure State.Safe (s : State) : Prop where
  beat : 6 * s.beatSecs.val.toNat ≤ 2 ^ 53
  template : 6 * s.templateSecs.val.toNat ≤ 2 ^ 53
  errors : s.consecutiveErrors.toNat ≤ 2 ^ 53
  counts : ∀ v ∈ [s.lastTemplateHeight, s.solvedCount, s.submittedAccepted, s.submittedRejected, s.abandonedCount,
    s.discardedCount, s.nodeLag], ∀ n ∈ v, n.toNat ≤ 2 ^ 53

/-! ## The text is that of the object -/

theorem text_jsonNat (n : Nat) : (jsonNat n).natTree.text = decimal n := by
  simp [jsonNat, Json.natTree, JsonTree.text, natNumeral_text]

theorem text_jsonCount (v : Option UInt64) : (jsonCount v).natTree.text = num v := by
  cases v with
  | none => rfl
  | some n => exact text_jsonNat n.toNat

theorem text_plain {s : JsString} (h : s.all isPlainUnit = true) :
    (Json.str s).natTree.text = js "\"" ++ s ++ js "\"" := by
  rw [Json.natTree, JsonTree.text, quote, quoteUnits_of_plain h]

theorem isPlainUnit_of_decimal {c : UInt16} (h : isDecimalUnit c = true) : isPlainUnit c = true := by
  simp only [isDecimalUnit, Bool.and_eq_true, decide_eq_true_eq, UInt16.le_iff_toNat_le] at h
  simp only [isPlainUnit, Bool.and_eq_true, decide_eq_true_eq, bne_iff_ne, UInt16.le_iff_toNat_le,
    UInt16.lt_iff_toNat_lt, ne_eq, ← UInt16.toNat_inj]
  have hzero : (0x30 : UInt16).toNat = 0x30 := rfl
  have hnine : (0x39 : UInt16).toNat = 0x39 := rfl
  have hlow : (0x20 : UInt16).toNat = 0x20 := rfl
  have hascii : (0x80 : UInt16).toNat = 0x80 := rfl
  have hquote : (0x22 : UInt16).toNat = 0x22 := rfl
  have hback : (0x5C : UInt16).toNat = 0x5C := rfl
  omega

theorem all_plain_padded (width n : Nat) : (padded width n).all isPlainUnit = true :=
  List.all_eq_true.mpr fun c hc =>
    isPlainUnit_of_decimal (List.all_eq_true.mp (all_isDecimalUnit_padded width n) c hc)

theorem all_plain_rfc3339 (n : Nat) : (rfc3339 n).all isPlainUnit = true := by
  obtain ⟨y, m, d, htext, -⟩ := rfc3339_eq n
  rw [htext, dateText]
  simp only [List.all_append, List.all_cons, all_plain_padded, Bool.true_and]
  decide

theorem text_jsonStamp (v : Option UInt64) : (jsonStamp v).natTree.text = ts v := by
  cases v with
  | none => rfl
  | some t => exact text_plain (all_plain_rfc3339 t.toNat)

theorem text_jsonToken {v : Option JsString} (h : ∀ s ∈ v, s.all isPlainUnit = true) :
    (jsonToken v).natTree.text = quotedToken v := by
  cases v with
  | none => rfl
  | some s => exact text_plain (h s rfl)

theorem all_plain_mode (m : Mode) : m.token.all isPlainUnit = true := by
  cases m <;> decide

theorem all_plain_errorStage (v : Option ErrorStage) : ∀ s ∈ v.map ErrorStage.token, s.all isPlainUnit = true := by
  simp only [Option.mem_map]
  rintro _ ⟨stage, -, rfl⟩
  cases stage <;> decide

theorem all_plain_rejectReason (v : Option RejectReason) :
    ∀ s ∈ v.map RejectReason.token, s.all isPlainUnit = true := by
  simp only [Option.mem_map]
  rintro _ ⟨reason, -, rfl⟩
  cases reason <;> decide

theorem all_plain_waitReason (v : Option WaitReason) : ∀ s ∈ v.map WaitReason.token, s.all isPlainUnit = true := by
  simp only [Option.mem_map]
  rintro _ ⟨reason, -, rfl⟩
  cases reason <;> decide

section Line

variable {key : String} (hkey : (js key).all isPlainUnit = true)

include hkey

theorem textLine_eq {v : Json} {value : JsString} (hvalue : v.natTree.text = value) :
    textLine key value = lineOf (js key, v.natTree) := by
  rw [textLine, lineOf, quote, quoteUnits_of_plain hkey, hvalue]
  simp only [List.append_assoc]
  rfl

theorem textLine_decimal (n : Nat) : textLine key (decimal n) = lineOf (js key, (jsonNat n).natTree) :=
  textLine_eq hkey (text_jsonNat n)

theorem textLine_num (v : Option UInt64) : textLine key (num v) = lineOf (js key, (jsonCount v).natTree) :=
  textLine_eq hkey (text_jsonCount v)

theorem textLine_ts (v : Option UInt64) : textLine key (ts v) = lineOf (js key, (jsonStamp v).natTree) :=
  textLine_eq hkey (text_jsonStamp v)

theorem textLine_quoted {s : JsString} (h : s.all isPlainUnit = true) :
    textLine key (js "\"" ++ s ++ js "\"") = lineOf (js key, (Json.str s).natTree) :=
  textLine_eq hkey (text_plain h)

theorem textLine_token {v : Option JsString} (h : ∀ s ∈ v, s.all isPlainUnit = true) :
    textLine key (quotedToken v) = lineOf (js key, (jsonToken v).natTree) :=
  textLine_eq hkey (text_jsonToken h)

end Line

/-- The fields of the object. -/
def renderFields (now : UInt64) (s : State) : List (JsString × Json) :=
  match render now s with
  | .obj fields => fields
  | _ => []

theorem render_obj (now : UInt64) (s : State) : render now s = .obj (renderFields now s) := rfl

theorem renderText_eq (now : UInt64) (s : State) : renderText now s = layout (natFields (renderFields now s)) := by
  have hmode := all_plain_mode s.mode
  have hstage := all_plain_errorStage s.lastErrorStage
  have hreject := all_plain_rejectReason s.lastRejectReason
  have hwait := all_plain_waitReason s.waitingReason
  have hdate := all_plain_rfc3339
  rw [renderText]
  rw [textLine_token (by decide) hstage, textLine_token (by decide) hreject, textLine_token (by decide) hwait,
    textLine_quoted (by decide) hmode, textLine_quoted (by decide) (hdate now.toNat),
    textLine_quoted (by decide) (hdate s.startedAt.toNat)]
  simp (disch := decide) only [textLine_decimal, textLine_num, textLine_ts]
  rfl

/-! ## The object is read back -/

theorem readTree_renderText (now : UInt64) (s : State) :
    readTree (renderText now s) = some (.obj (natFields (renderFields now s))) := by
  rw [renderText_eq]
  exact readTree_layout (List.cons_ne_nil _ _)

theorem render_keysDistinct (now : UInt64) (s : State) : KeysDistinct (renderFields now s) := by
  simp only [KeysDistinct, renderFields, render, List.map_cons, List.map_nil]
  decide +kernel

section Doubles

variable {toDouble : ℚ → JsNumber} (hdouble : ∀ n : Nat, n ≤ 2 ^ 53 → toDouble n = .finite n)

include hdouble

theorem parsed_jsonNat {n : Nat} (h : n ≤ 2 ^ 53) : (jsonNat n).natTree.parsed toDouble = jsonNat n := by
  rw [jsonNat, Json.natTree, JsonTree.parsed, natNumeral_value, Rat.num_natCast, Int.toNat_natCast, hdouble n h]

theorem parsed_jsonCount {v : Option UInt64} (h : ∀ n ∈ v, n.toNat ≤ 2 ^ 53) :
    (jsonCount v).natTree.parsed toDouble = jsonCount v := by
  cases v with
  | none => rfl
  | some n => exact parsed_jsonNat hdouble (h n rfl)

theorem parsed_render {s : State} (hs : s.Safe) (now : UInt64) :
    (JsonTree.obj (natFields (renderFields now s))).parsed toDouble = render now s := by
  have hbeat := hs.beat
  have htemplate := hs.template
  have hsat {n : UInt64} (h : 6 * n.toNat ≤ 2 ^ 53) : saturatingMul n 6 ≤ 2 ^ 53 := by
    unfold saturatingMul
    omega
  have hcount {v : Option UInt64} (hv : v ∈ [s.lastTemplateHeight, s.solvedCount, s.submittedAccepted,
      s.submittedRejected, s.abandonedCount, s.discardedCount, s.nodeLag]) := parsed_jsonCount hdouble (hs.counts v hv)
  have hstamp (v : Option UInt64) : (jsonStamp v).natTree.parsed toDouble = jsonStamp v := by cases v <;> rfl
  have htoken (v : Option JsString) : (jsonToken v).natTree.parsed toDouble = jsonToken v := by cases v <;> rfl
  have hstr (text : JsString) : (Json.str text).natTree.parsed toDouble = .str text := rfl
  have hfields : ∀ f ∈ renderFields now s, f.2.natTree.parsed toDouble = f.2 := by
    simp only [renderFields, render, List.forall_mem_cons]
    simp [hstamp, htoken, hstr, hcount, parsed_jsonNat hdouble (show schema ≤ 2 ^ 53 by decide),
      parsed_jsonNat hdouble (show s.beatSecs.val.toNat ≤ 2 ^ 53 by omega), parsed_jsonNat hdouble (hsat hbeat),
      parsed_jsonNat hdouble (show s.templateSecs.val.toNat ≤ 2 ^ 53 by omega),
      parsed_jsonNat hdouble (hsat htemplate), parsed_jsonNat hdouble hs.errors]
  rw [JsonTree.parsed, parsedFields_natFields (render_keysDistinct now s) hfields, render_obj]

end Doubles

/-! ## The object is what the miner reads -/

/-- A value that the miner reads as it is. -/
def ReadsAs (v : Json) : Prop := ∀ depth, Value.ofTree v.natTree depth = some (.ofJson v)

theorem readsAs_jsonNat {n : Nat} (h : n < 2 ^ 64) : ReadsAs (jsonNat n) := by
  intro depth
  have hvalue : decimalValue (Whole.ofNat n).units = n := decimalValue_decimal n
  have hnum := Number.ofJson_nat (UInt64.ofNat n)
  rw [UInt64.toNat_ofNat_of_lt' h] at hnum
  have hread : Number.ofNumeral (natNumeral n) = some (.posInt (UInt64.ofNat n)) := by
    rw [Number.ofNumeral, natNumeral, hvalue]
    exact if_pos ⟨rfl, rfl, rfl, h⟩
  rw [jsonNat, Json.natTree, Value.ofTree, Value.ofJson, hnum, Rat.num_natCast, Int.toNat_natCast, hread]
  rfl

theorem readsAs_jsonCount (v : Option UInt64) : ReadsAs (jsonCount v) := by
  cases v with
  | none => exact fun _ => rfl
  | some n => exact readsAs_jsonNat n.toNat_lt

theorem readsAs_plain {s : JsString} (h : s.all isPlainUnit = true) : ReadsAs (.str s) := by
  intro depth
  rw [Json.natTree, Value.ofTree, if_pos (isWellFormed_of_plain h), Value.ofJson]

theorem readsAs_jsonStamp (v : Option UInt64) : ReadsAs (jsonStamp v) := by
  cases v with
  | none => exact fun _ => rfl
  | some t => exact readsAs_plain (all_plain_rfc3339 t.toNat)

theorem readsAs_jsonToken {v : Option JsString} (h : ∀ s ∈ v, s.all isPlainUnit = true) : ReadsAs (jsonToken v) := by
  cases v with
  | none => exact fun _ => rfl
  | some s => exact readsAs_plain (h s rfl)

theorem ofTreeFields_natFields {fields : List (JsString × Json)} (hkeys : KeysDistinct fields)
    (hplain : ∀ f ∈ fields, f.1.all isPlainUnit = true) (h : ∀ f ∈ fields, ReadsAs f.2) (depth : Nat) :
    ofTreeFields (natFields fields) depth = some (ofFields fields) := by
  induction fields with
  | nil => rw [natFields, ofTreeFields, ofFields]
  | cons f fields ih =>
    obtain ⟨hnew, hrest⟩ := hkeys.cons
    have htail := ih hrest (fun g hg => hplain g (List.mem_cons_of_mem f hg)) fun g hg =>
      h g (List.mem_cons_of_mem f hg)
    rw [natFields, ofTreeFields, isWellFormed_of_plain (hplain f List.mem_cons_self), h f List.mem_cons_self depth,
      htail, natFields_any, hnew, ofFields]
    rfl

theorem render_plainKeys (now : UInt64) (s : State) : ∀ f ∈ renderFields now s, f.1.all isPlainUnit = true := by
  have hall : ((renderFields now s).map Prod.fst).all (fun key => key.all isPlainUnit) = true := by
    simp only [renderFields, render, List.map_cons, List.map_nil]
    decide +kernel
  intro f hf
  exact List.all_eq_true.mp hall f.1 (List.mem_map_of_mem hf)

theorem ofTree_render (now : UInt64) (s : State) :
    Value.ofTree (.obj (natFields (renderFields now s))) serdeDepth = some (.ofJson (render now s)) := by
  have hsat (n : UInt64) : saturatingMul n 6 < 2 ^ 64 := by
    unfold saturatingMul
    omega
  have hfields : ∀ f ∈ renderFields now s, ReadsAs f.2 := by
    simp only [renderFields, render, List.forall_mem_cons]
    simp [readsAs_jsonCount, readsAs_jsonStamp, readsAs_jsonToken (all_plain_errorStage _),
      readsAs_jsonToken (all_plain_rejectReason _), readsAs_jsonToken (all_plain_waitReason _),
      readsAs_plain (all_plain_mode _), readsAs_plain (all_plain_rfc3339 _), readsAs_jsonNat (hsat _),
      readsAs_jsonNat (UInt64.toNat_lt _), readsAs_jsonNat (show schema < 2 ^ 64 by decide)]
  rw [Value.ofTree, if_neg (by decide), ofTreeFields_natFields (render_keysDistinct now s) (render_plainKeys now s)
    hfields, render_obj, Value.ofJson]
  rfl

theorem bodyOf_renderText (now : UInt64) (s : State) : bodyOf (renderText now s) = .json (.ofJson (render now s)) := by
  rw [bodyOf, readTree_renderText, Option.bind_some, ofTree_render]

/-! ## The object is what is seen -/

theorem ageSeconds_rfc3339_eq (nowMs : ℚ) (t : UInt64) :
    ageSeconds dateParse (some (.str (rfc3339 t.toNat))) nowMs = ageOf nowMs t := by
  unfold ageOf
  split
  case isTrue h => exact ageSeconds_stamp ⟨h.1, h.2⟩
  case isFalse h => exact ageSeconds_stamp_eq_none fun hread => h ⟨hread.year, hread.past⟩

theorem ageSeconds_stamp_bind (nowMs : ℚ) (v : Option UInt64) :
    ageSeconds dateParse (some (jsonStamp v)) nowMs = v.bind (ageOf nowMs) := by
  cases v with
  | none => rfl
  | some t => exact ageSeconds_rfc3339_eq nowMs t

theorem numberOf_jsonCount (v : Option UInt64) : numberOf (some (jsonCount v)) = v.map double := by
  cases v <;> rfl

theorem finiteOf_jsonCount (v : Option UInt64) : finiteOf (some (jsonCount v)) = v.map fun n => (n.toNat : ℚ) := by
  cases v with
  | none => rfl
  | some n => exact if_pos (Nat.cast_nonneg _)

theorem textOf_jsonToken (v : Option JsString) : textOf (some (jsonToken v)) = v := by
  cases v <;> rfl

theorem nonEmptyTextOf_jsonToken {v : Option JsString} (h : ∀ s ∈ v, s.truthy = true) :
    nonEmptyTextOf (some (jsonToken v)) = v := by
  rw [nonEmptyTextOf, textOf_jsonToken]
  cases v with
  | none => rfl
  | some s => exact if_pos (h s rfl)

theorem modeOf_token (m : Mode) : modeOf (some (.str m.token)) = some m.read := by
  cases m <;> decide

theorem truthy_rejectReason (v : Option RejectReason) : ∀ s ∈ v.map RejectReason.token, s.truthy = true := by
  simp only [Option.mem_map]
  rintro _ ⟨reason, -, rfl⟩
  cases reason <;> decide

theorem truthy_waitReason (v : Option WaitReason) : ∀ s ∈ v.map WaitReason.token, s.truthy = true := by
  simp only [Option.mem_map]
  rintro _ ⟨reason, -, rfl⟩
  cases reason <;> decide

theorem factsOf_render (now : UInt64) (s : State) (beatAgo nowMs : ℚ) :
    factsOf dateParse (render now s) beatAgo nowMs = seenFacts s beatAgo nowMs := by
  have hreject := nonEmptyTextOf_jsonToken (truthy_rejectReason s.lastRejectReason)
  have hwait := nonEmptyTextOf_jsonToken (truthy_waitReason s.waitingReason)
  have hstamp := ageSeconds_stamp_bind nowMs
  rw [seenFacts, ← hreject, ← hwait, ← modeOf_token, ← hstamp, ← hstamp, ← hstamp, ← hstamp, ← numberOf_jsonCount,
    ← numberOf_jsonCount, ← numberOf_jsonCount, ← numberOf_jsonCount, ← numberOf_jsonCount, ← finiteOf_jsonCount,
    ← textOf_jsonToken (s.lastErrorStage.map ErrorStage.token)]
  rfl

theorem readingFor_seen {s : State} (hs : s.Safe) (now : UInt64) (nowMs : ℚ) :
    readingFor dateParse (some (render now s)) nowMs = seen now s nowMs := by
  have hthreshold {n : UInt64} (h : 6 * n.toNat ≤ 2 ^ 53) : ((saturatingMul n 6 : Nat) : ℚ) = 6 * (n.toNat : ℚ) := by
    have heq : saturatingMul n 6 = 6 * n.toNat := by
      unfold saturatingMul
      omega
    rw [heq]
    push_cast
    rfl
  by_cases h : now.toNat < longYears ∧ 1000 * (now.toNat : ℚ) ≤ nowMs
  · have hage : ageOf nowMs now = some ((nowMs - 1000 * now.toNat) / 1000) := if_pos h
    rw [readingFor_render ⟨h.1, h.2⟩, factsOf_render, hthreshold hs.beat, hthreshold hs.template, seen, hage]
  · have hage : ageOf nowMs now = none := if_neg h
    have hwritten : ageSeconds dateParse ((render now s).field (js "writtenAt")) nowMs = none := by
      rw [render_writtenAt, ageSeconds_rfc3339_eq, hage]
    have hschema : numberOf ((render now s).field (js "schema")) = some (.finite 1) := by
      rw [render_schema]
      simp [numberOf, jsonNat, schema]
    rw [readingFor]
    rw [if_pos hschema, hwritten, seen, hage]
    split <;> simp_all

/-! ## There and back -/

theorem readTree_part {now : UInt64} {s : State} {part more : JsString} (h : part ++ more = renderText now s)
    (hcut : ¬ IsJsonBlank more) : readTree part = none := by
  cases part with
  | nil => rfl
  | cons c part =>
    have hwhole := readTree_renderText now s
    rw [← h] at hwhole
    have hbrace : c = 0x7B := by
      rw [renderText_eq, layout_append] at h
      exact (List.cons.inj h).1
    subst hbrace
    exact readTree_of_cut hwhole hcut

/-- **What the miner prints is what both readers see**, and what is cut off
before its last brace is nothing to either. The faucet sees the state of the
miner at `now`, with every stamp as an age on its own clock, and cannot
verify a file whose own stamp it cannot take; the next miner resumes the
counts of this one. -/
theorem heartbeat_file_read {toDouble : ℚ → JsNumber} (hdouble : ∀ n : Nat, n ≤ 2 ^ 53 → toDouble n = .finite n)
    {path : JsString} (hpath : path ≠ []) {s : State} (hs : s.Safe) (now : UInt64) (nowMs : ℚ) :
    readMinerHeartbeat toDouble path (some (renderText now s)) nowMs = seen now s nowMs ∧
      resume (some (bodyOf (renderText now s))) = .counts s.counts ∧
        ∀ part more, part ++ more = renderText now s → ¬ IsJsonBlank more →
          readMinerHeartbeat toDouble path (some part) nowMs = unverifiable ∧
            resume (some (bodyOf part)) = .unusable "is not JSON" := by
  refine ⟨?_, ?_, fun part more hpart hcut => ⟨?_, ?_⟩⟩
  · rw [readMinerHeartbeat, if_neg hpath, Option.bind_some, parseJson, readTree_renderText, Option.map_some,
      parsed_render hdouble hs, readingFor_seen hs]
  · rw [bodyOf_renderText]
    exact resume_render now s
  · rw [readMinerHeartbeat, if_neg hpath, Option.bind_some, parseJson, readTree_part hpart hcut]
    rfl
  · rw [bodyOf, readTree_part hpart hcut]
    rfl

theorem heartbeat_file_read_held :
    (readMinerHeartbeat .finite (js "/miner/heartbeat.json") (some (renderText 1785020540 heldMiner))
      1785020545250).state = .waiting ∧
      resume (some (bodyOf (renderText 1785020540 heldMiner))) = .counts ⟨none, none, none, none, some 1⟩ := by
  have hall : [heldMiner.lastTemplateHeight, heldMiner.solvedCount, heldMiner.submittedAccepted,
      heldMiner.submittedRejected, heldMiner.abandonedCount, heldMiner.discardedCount, heldMiner.nodeLag].all
        (fun v => v.all fun n => decide (n.toNat ≤ 2 ^ 53)) = true := by
    decide +kernel
  have hsafe : heldMiner.Safe := by
    refine ⟨by decide, by decide, by decide, fun v hv n hn => ?_⟩
    have hv' := List.all_eq_true.mp hall v hv
    rw [Option.mem_def.mp hn] at hv'
    exact of_decide_eq_true hv'
  obtain ⟨hseen, hresume, -⟩ := heartbeat_file_read (fun _ _ => rfl) (show js "/miner/heartbeat.json" ≠ [] by decide)
    hsafe 1785020540 1785020545250
  rw [hseen, hresume]
  exact ⟨by decide +kernel, by decide +kernel⟩

end ZcashFaucet.Miner
