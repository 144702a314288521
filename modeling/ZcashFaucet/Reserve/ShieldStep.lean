/-
ZcashFaucet.Reserve.ShieldStep — one shield step from its gates to its end:
`ZalletRefiller.step` with its `awaitOperation`, of
`reserve/zalletRefiller.ts`.

Behind the gates a step makes one call at a time and does nothing until it
is answered, so it is a state for each call that can be on the wire, and a
transition for each answer. The answers are whatever the wallet and the
wire come up with, each with what the clock reads when it is there.

`shield_step_accounts` is what a step's end can be relied on for. That it
moved funds means that the wallet said so of the job it was given in this
very step. Each step gives it at most one, behind both gates, and every
later call is about that one.
-/
import ZcashFaucet.Lib.JsonLayout
import ZcashFaucet.Reserve.ZalletRefiller
import ZcashFaucet.Zcash.ZalletRequest
import ZcashFaucet.Zcash.ZalletSend

namespace ZcashFaucet.Reserve

open Lib Zcash

structure RefillerConfig extends ShieldConfig where
  opTimeoutMs : ℚ
  numText : ℚ → JsString

/-! ## The calls -/

/-- SHIELD_UTXO_LIMIT. -/
def shieldUtxoLimit : Nat := 50

/-- The `params` of `z_shieldcoinbase`: no fee is named. -/
def shieldParams (z : ShieldConfig) : JsString :=
  js "[" ++ quote z.account ++ js "," ++ quote z.address ++ js ",null," ++ decimal shieldUtxoLimit ++ js "]"

/-- A call, with its `params`. The operation is named by whatever the
wallet named it. -/
inductive ShieldCall
  | shieldcoinbase (paramsJson : JsString)
  | operationStatus (opid : Json)
  | operationResult (opid : Json)

/-! ## The answers -/

/-- An answer, and the time when it is there. -/
structure Heard where
  answer : RpcOutcome
  heardAt : ℚ

/-- The text of a template string, or of the TypeError it throws. -/
def templateText (text : Option JsString) : JsString :=
  text.getD (js "Cannot convert object to primitive value")

/-- What the wallet says to `z_shieldcoinbase`: the job it took, or that it
found nothing to shield. -/
inductive JobReply
  | threw (message : JsString)
  | nothing (remainingUTXOs : Option Json)
  | took (remainingUTXOs : Option Json) (opid : Json)

inductive StatusReply
  | threw (message : JsString)
  | underWay (status : Option Json)
  | finished

inductive ResultReply
  | threw (message : JsString)
  | success

section

variable (numText : ℚ → JsString)

def jobReply (answer : RpcOutcome) : JobReply :=
  match rpc numText (js "z_shieldcoinbase") answer with
  | .error e => .threw e.message
  | .ok op =>
      let remainingUTXOs := field? (js "remainingUTXOs") op
      match field? (js "opid") op with
      | some opid => if opid.truthy then .took remainingUTXOs opid else .nothing remainingUTXOs
      | none => .nothing remainingUTXOs

def statusReply (answer : RpcOutcome) : StatusReply :=
  match rpcFirst numText (js "z_getoperationstatus") answer with
  | .error e => .threw e.message
  | .ok status => if isOver status then .finished else .underWay status

def failedText (done : Option Json) : JsString :=
  templateText do
    let why ← toText? numText (orElse (field? (js "message") (field? (js "error") done))
      (orElse (field? (js "status") done) (some (.str (js "unknown error")))))
    some (js "zallet shield failed: " ++ why)

def resultReply (answer : RpcOutcome) : ResultReply :=
  match rpcFirst numText (js "z_getoperationresult") answer with
  | .error e => .threw e.message
  | .ok done =>
      if truthy? done && isStr? (js "success") (field? (js "status") done) then .success
      else .threw (failedText numText done)

def timedOutText (opid : Json) (status : Option Json) : JsString :=
  templateText do
    let name ← toText? numText (some opid)
    let still ← toText? numText (orElse (field? (js "status") status) (some (.str (js "pending"))))
    some (js "zallet shield " ++ name ++ js " timed out (still " ++ still ++ js ").")

end

/-! ## The step -/

inductive StepEnd
  | threw (message : JsString)
  | declined (outcome : StepOutcome)
  | empty (remainingUTXOs : Option Json)
  | moved (remainingUTXOs : Option Json)

/-- Which call is on the wire, with what the step remembers. -/
inductive ShieldState
  | shielding
  | polling (remainingUTXOs : Option Json) (opid : Json) (deadline : ℚ)
  | collecting (remainingUTXOs : Option Json) (opid : Json)
  | ended (out : StepEnd)

section

variable (z : RefillerConfig)

/-- What the step does with an answer. -/
def ShieldState.next (e : Heard) : ShieldState → ShieldState
  | .shielding =>
      match jobReply z.numText e.answer with
      | .threw message => .ended (.threw message)
      | .nothing remainingUTXOs => .ended (.empty remainingUTXOs)
      | .took remainingUTXOs opid => .polling remainingUTXOs opid (e.heardAt + z.opTimeoutMs)
  | .polling remainingUTXOs opid deadline =>
      match statusReply z.numText e.answer with
      | .threw message => .ended (.threw message)
      | .finished => .collecting remainingUTXOs opid
      | .underWay status =>
          if deadline < e.heardAt then .ended (.threw (timedOutText z.numText opid status))
          else .polling remainingUTXOs opid deadline
  | .collecting remainingUTXOs _ =>
      match resultReply z.numText e.answer with
      | .threw message => .ended (.threw message)
      | .success => .ended (.moved remainingUTXOs)
  | .ended out => .ended out

/-- The step once its gates have looked. -/
def ShieldState.begin (gates : GateConfig) (tip : Option ClaimedHeight) (status : Option NodeStatus) : ShieldState :=
  match stepStart gates z.toShieldConfig tip status with
  | .throws message => .ended (.threw message)
  | .returns outcome => .ended (.declined outcome)
  | .calls => .shielding

def ShieldState.wire : ShieldState → Option ShieldCall
  | .shielding => some (.shieldcoinbase (shieldParams z.toShieldConfig))
  | .polling _ opid _ => some (.operationStatus opid)
  | .collecting _ opid => some (.operationResult opid)
  | .ended _ => none

def shieldRun (s : ShieldState) (es : List Heard) : ShieldState := es.foldl (fun s e => s.next z e) s

/-- The calls of a run, the one on the wire at its end included. -/
def callsMade : ShieldState → List Heard → List ShieldCall
  | s, [] => (s.wire z).toList
  | s, e :: es => (s.wire z).toList ++ callsMade (s.next z e) es

end

/-! ## One answer -/

section

variable {z : RefillerConfig} {e : Heard} {s : ShieldState} {remainingUTXOs : Option Json} {opid : Json} {deadline : ℚ}

def Heard.underWay (z : RefillerConfig) (e : Heard) : Prop := ∃ status, statusReply z.numText e.answer = .underWay status

/-- Everything an answer can do. -/
inductive Turn (z : RefillerConfig) (e : Heard) : ShieldState → ShieldState → Prop
  | notShielded {message : JsString} (reply : jobReply z.numText e.answer = .threw message) :
      Turn z e .shielding (.ended (.threw message))
  | nothing {remainingUTXOs : Option Json} (reply : jobReply z.numText e.answer = .nothing remainingUTXOs) :
      Turn z e .shielding (.ended (.empty remainingUTXOs))
  | took {remainingUTXOs : Option Json} {opid : Json} (reply : jobReply z.numText e.answer = .took remainingUTXOs opid) :
      Turn z e .shielding (.polling remainingUTXOs opid (e.heardAt + z.opTimeoutMs))
  | unread {remainingUTXOs : Option Json} {opid : Json} {deadline : ℚ} {message : JsString}
      (reply : statusReply z.numText e.answer = .threw message) :
      Turn z e (.polling remainingUTXOs opid deadline) (.ended (.threw message))
  | late {remainingUTXOs status : Option Json} {opid : Json} {deadline : ℚ}
      (reply : statusReply z.numText e.answer = .underWay status) (passed : deadline < e.heardAt) :
      Turn z e (.polling remainingUTXOs opid deadline) (.ended (.threw (timedOutText z.numText opid status)))
  | waits {remainingUTXOs : Option Json} {opid : Json} {deadline : ℚ} (reply : e.underWay z)
      (inTime : e.heardAt ≤ deadline) :
      Turn z e (.polling remainingUTXOs opid deadline) (.polling remainingUTXOs opid deadline)
  | finished {remainingUTXOs : Option Json} {opid : Json} {deadline : ℚ}
      (reply : statusReply z.numText e.answer = .finished) :
      Turn z e (.polling remainingUTXOs opid deadline) (.collecting remainingUTXOs opid)
  | failed {remainingUTXOs : Option Json} {opid : Json} {message : JsString}
      (reply : resultReply z.numText e.answer = .threw message) :
      Turn z e (.collecting remainingUTXOs opid) (.ended (.threw message))
  | success {remainingUTXOs : Option Json} {opid : Json} (reply : resultReply z.numText e.answer = .success) :
      Turn z e (.collecting remainingUTXOs opid) (.ended (.moved remainingUTXOs))
  | stays {out : StepEnd} : Turn z e (.ended out) (.ended out)

theorem turn_next (z : RefillerConfig) (e : Heard) (s : ShieldState) : Turn z e s (s.next z e) := by
  cases s with
  | shielding =>
    rw [ShieldState.next]
    cases hreply : jobReply z.numText e.answer with
    | threw message => exact .notShielded hreply
    | nothing remainingUTXOs => exact .nothing hreply
    | took remainingUTXOs opid => exact .took hreply
  | polling remainingUTXOs opid deadline =>
    rw [ShieldState.next]
    cases hreply : statusReply z.numText e.answer with
    | threw message => exact .unread hreply
    | finished => exact .finished hreply
    | underWay status =>
      dsimp only
      split
      · exact .late hreply ‹_›
      · exact .waits ⟨status, hreply⟩ (not_lt.mp ‹_›)
  | collecting remainingUTXOs opid =>
    rw [ShieldState.next]
    cases hreply : resultReply z.numText e.answer with
    | threw message => exact .failed hreply
    | success => exact .success hreply
  | ended out => exact .stays

theorem next_waits (h : e.underWay z) (hle : e.heardAt ≤ deadline) :
    (ShieldState.polling remainingUTXOs opid deadline).next z e = .polling remainingUTXOs opid deadline := by
  obtain ⟨status, hstatus⟩ := h
  rw [ShieldState.next, hstatus]
  exact if_neg (not_lt.mpr hle)

end

/-! ## The answers of a run -/

section

variable {z : RefillerConfig} {es : List Heard} {remainingUTXOs : Option Json} {opid : Json} {deadline : ℚ}

theorem shieldRun_snoc (z : RefillerConfig) (s : ShieldState) (es : List Heard) (e : Heard) :
    shieldRun z s (es ++ [e]) = (shieldRun z s es).next z e := by
  rw [shieldRun, List.foldl_append]
  rfl

/-- The last answer of a run, and what it did. -/
theorem turn_snoc {s' : ShieldState} {e : Heard} (h : shieldRun z .shielding (es ++ [e]) = s') :
    Turn z e (shieldRun z .shielding es) s' := by
  rw [← h, shieldRun_snoc]
  exact turn_next z e _

theorem shieldRun_ended (out : StepEnd) (es : List Heard) : shieldRun z (.ended out) es = .ended out := by
  induction es with
  | nil => rfl
  | cons e es ih => exact ih

theorem shieldRun_polls {polls : List Heard} (h : ∀ p ∈ polls, p.underWay z ∧ p.heardAt ≤ deadline) :
    shieldRun z (.polling remainingUTXOs opid deadline) polls = .polling remainingUTXOs opid deadline := by
  induction polls with
  | nil => rfl
  | cons p polls ih =>
    obtain ⟨hp, hle⟩ := h p List.mem_cons_self
    rw [shieldRun, List.foldl_cons, next_waits hp hle]
    exact ih fun q hq => h q (List.mem_cons_of_mem p hq)

theorem nil_of_shielding (h : shieldRun z .shielding es = .shielding) : es = [] := by
  induction es using List.reverseRecOn with
  | nil => rfl
  | append_singleton es e ih =>
    have hturn := turn_snoc h
    generalize shieldRun z .shielding es = s at hturn
    cases hturn

/-- While a job is polled, the wallet has taken it and every poll was in
time and found it under way. -/
theorem exists_of_polling (h : shieldRun z .shielding es = .polling remainingUTXOs opid deadline) :
    ∃ first polls, es = first :: polls ∧ jobReply z.numText first.answer = .took remainingUTXOs opid ∧
      deadline = first.heardAt + z.opTimeoutMs ∧ ∀ p ∈ polls, p.underWay z ∧ p.heardAt ≤ deadline := by
  induction es using List.reverseRecOn with
  | nil => cases h
  | append_singleton es e ih =>
    have hturn := turn_snoc h
    generalize hs : shieldRun z .shielding es = s at hturn
    cases hturn with
    | took reply =>
      obtain rfl := nil_of_shielding hs
      exact ⟨e, [], rfl, reply, rfl, nofun⟩
    | waits reply inTime =>
      obtain ⟨first, polls, rfl, htook, hdeadline, hpolls⟩ := ih hs
      refine ⟨first, polls ++ [e], rfl, htook, hdeadline, fun p hp => ?_⟩
      rcases List.mem_append.mp hp with hp | hp
      · exact hpolls p hp
      · obtain rfl := List.mem_singleton.mp hp
        exact ⟨reply, inTime⟩

theorem exists_of_collecting (h : shieldRun z .shielding es = .collecting remainingUTXOs opid) :
    ∃ before last deadline, es = before ++ [last] ∧
      shieldRun z .shielding before = .polling remainingUTXOs opid deadline ∧
        statusReply z.numText last.answer = .finished := by
  rcases List.eq_nil_or_concat es with rfl | ⟨before, last, rfl⟩
  · cases h
  · rw [List.concat_eq_append] at h ⊢
    have hturn := turn_snoc h
    generalize hs : shieldRun z .shielding before = s at hturn
    cases hturn with
    | finished reply => exact ⟨before, last, _, rfl, hs, reply⟩

theorem exists_of_moved (h : shieldRun z .shielding es = .ended (.moved remainingUTXOs)) :
    ∃ before last opid rest, es = before ++ last :: rest ∧
      shieldRun z .shielding before = .collecting remainingUTXOs opid ∧
        resultReply z.numText last.answer = .success := by
  induction es using List.reverseRecOn with
  | nil => cases h
  | append_singleton es e ih =>
    have hturn := turn_snoc h
    generalize hs : shieldRun z .shielding es = s at hturn
    cases hturn with
    | success reply => exact ⟨es, e, _, [], rfl, hs, reply⟩
    | stays =>
      obtain ⟨before, last, opid, rest, rfl, hcollecting, hreply⟩ := ih hs
      exact ⟨before, last, opid, rest ++ [e], by simp, hcollecting, hreply⟩

/-- The wallet took a job and named it, every poll found it under way in
time until one found it over, and then it was a success. -/
def ShieldedFor (z : RefillerConfig) (es : List Heard) (remainingUTXOs : Option Json) : Prop :=
  ∃ opid first polls last result rest, es = first :: (polls ++ last :: result :: rest) ∧
    jobReply z.numText first.answer = .took remainingUTXOs opid ∧
      (∀ p ∈ polls, p.underWay z ∧ p.heardAt ≤ first.heardAt + z.opTimeoutMs) ∧
        statusReply z.numText last.answer = .finished ∧ resultReply z.numText result.answer = .success

theorem moved_iff : shieldRun z .shielding es = .ended (.moved remainingUTXOs) ↔ ShieldedFor z es remainingUTXOs := by
  constructor
  · intro h
    obtain ⟨before, result, opid, rest, rfl, hcollecting, hsuccess⟩ := exists_of_moved h
    obtain ⟨before, last, deadline, rfl, hpolling, hover⟩ := exists_of_collecting hcollecting
    obtain ⟨first, polls, rfl, htook, rfl, hpolls⟩ := exists_of_polling hpolling
    exact ⟨opid, first, polls, last, result, rest, by simp, htook, hpolls, hover, hsuccess⟩
  · rintro ⟨opid, first, polls, last, result, rest, rfl, htook, hpolls, hover, hsuccess⟩
    have htaken : ShieldState.shielding.next z first =
        .polling remainingUTXOs opid (first.heardAt + z.opTimeoutMs) := by
      rw [ShieldState.next, htook]
    have hcollected : (ShieldState.polling remainingUTXOs opid (first.heardAt + z.opTimeoutMs)).next z last =
        .collecting remainingUTXOs opid := by
      rw [ShieldState.next, hover]
    have hmoved : (ShieldState.collecting remainingUTXOs opid).next z result = .ended (.moved remainingUTXOs) := by
      rw [ShieldState.next, hsuccess]
    have hwaited := @shieldRun_polls z remainingUTXOs opid _ _ hpolls
    rw [shieldRun] at hwaited
    rw [shieldRun, List.foldl_cons, List.foldl_append, htaken, hwaited, List.foldl_cons, hcollected, List.foldl_cons,
      hmoved]
    exact shieldRun_ended _ rest

theorem empty_iff : shieldRun z .shielding es = .ended (.empty remainingUTXOs) ↔
    ∃ first rest, es = first :: rest ∧ jobReply z.numText first.answer = .nothing remainingUTXOs := by
  constructor
  · intro h
    induction es using List.reverseRecOn with
    | nil => cases h
    | append_singleton es e ih =>
      have hturn := turn_snoc h
      generalize hs : shieldRun z .shielding es = s at hturn
      cases hturn with
      | nothing reply =>
        obtain rfl := nil_of_shielding hs
        exact ⟨e, [], rfl, reply⟩
      | stays =>
        obtain ⟨first, rest, rfl, hreply⟩ := ih hs
        exact ⟨first, rest ++ [e], rfl, hreply⟩
  · rintro ⟨first, rest, rfl, hreply⟩
    have hempty : ShieldState.shielding.next z first = .ended (.empty remainingUTXOs) := by
      rw [ShieldState.next, hreply]
    rw [shieldRun, List.foldl_cons, hempty]
    exact shieldRun_ended _ rest

end

/-! ## What is asked -/

/-- The job a call is about, if the wallet has named one. -/
def ShieldCall.job : ShieldCall → Option Json
  | .shieldcoinbase _ => none
  | .operationStatus opid => some opid
  | .operationResult opid => some opid

/-- The job of a step, once the wallet has named it. -/
def ShieldState.job : ShieldState → Option Json
  | .polling _ opid _ => some opid
  | .collecting _ opid => some opid
  | _ => none

section

variable {z : RefillerConfig}

theorem callsMade_ended (out : StepEnd) (es : List Heard) : callsMade z (.ended out) es = [] := by
  induction es with
  | nil => rfl
  | cons e es ih => exact ih

/-- Once there is a job, every call is about it. -/
theorem callsMade_job {opid : Json} {s : ShieldState} (es : List Heard) (hs : s.job = some opid) :
    ∀ c ∈ callsMade z s es, c.job = some opid := by
  have hwire {s : ShieldState} (hs : s.job = some opid) : ∀ c ∈ (s.wire z).toList, c.job = some opid := by
    intro c hc
    cases s with
    | shielding => cases hs
    | polling =>
      obtain rfl := List.mem_singleton.mp hc
      exact hs
    | collecting =>
      obtain rfl := List.mem_singleton.mp hc
      exact hs
    | ended => cases hs
  induction es generalizing s with
  | nil => exact hwire hs
  | cons e es ih =>
    intro c hc
    rcases List.mem_append.mp hc with hc | hc
    · exact hwire hs c hc
    · have hturn := turn_next z e s
      generalize s.next z e = s' at hturn hc
      cases hturn with
      | notShielded => cases hs
      | nothing => cases hs
      | took => cases hs
      | unread => simp [callsMade_ended] at hc
      | late => simp [callsMade_ended] at hc
      | waits => exact ih hs c hc
      | finished => exact ih (s := .collecting _ _) hs c hc
      | failed => simp [callsMade_ended] at hc
      | success => simp [callsMade_ended] at hc
      | stays => cases hs

/-- One call for a job, and after it only calls about the job that the
wallet named in its answer. -/
theorem callsMade_shielding (es : List Heard) :
    ∃ more, callsMade z .shielding es = .shieldcoinbase (shieldParams z.toShieldConfig) :: more ∧
      ∀ c ∈ more, ∃ first rest remainingUTXOs opid, es = first :: rest ∧
        jobReply z.numText first.answer = .took remainingUTXOs opid ∧ c.job = some opid := by
  cases es with
  | nil => exact ⟨[], rfl, nofun⟩
  | cons first rest =>
    refine ⟨callsMade z (ShieldState.shielding.next z first) rest, rfl, fun c hc => ?_⟩
    have hturn := turn_next z first .shielding
    generalize ShieldState.shielding.next z first = s at hturn hc
    cases hturn with
    | notShielded => simp [callsMade_ended] at hc
    | nothing => simp [callsMade_ended] at hc
    | took reply => exact ⟨first, rest, _, _, rfl, reply, callsMade_job rest rfl c hc⟩

/-- The request a step stands for. -/
def shieldRequest (z : ShieldConfig) : Json :=
  .obj [(js "jsonrpc", .str (js "2.0")), (js "id", .str (js "refill")), (js "method", .str (js "z_shieldcoinbase")),
    (js "params", .arr [.str z.account, .str z.address, .null, .num (.finite shieldUtxoLimit)])]

theorem readJson_shieldRequest (z : ShieldConfig) :
    readJson (rpcBody (js "refill") (js "z_shieldcoinbase") (shieldParams z)) = some (shieldRequest z) := by
  have hlimit := exists_numeral_natText shieldUtxoLimit
  have hexact : (shieldRequest z).IsExact natText := by
    simp only [shieldRequest, Json.IsExact, AllExact, FieldsExact, hlimit, and_self]
  have hbody : rpcBody (js "refill") (js "z_shieldcoinbase") (shieldParams z) =
      (shieldRequest z).stringify natText := by
    simp only [rpcBody, shieldParams, shieldRequest, Json.stringify, stringifyFields, stringifyItems,
      natText_natCast, List.isEmpty_cons, List.isEmpty_nil, Bool.false_eq_true, if_true, if_false,
      List.append_assoc, List.append_nil]
    rfl
  rw [hbody]
  exact readJson_stringify hexact

end

/-! ## What an end can be relied on for -/

/-- What is to be known of a step that began with `status` and `tip` and
has heard `es`. -/
structure StepAccounts (gates : GateConfig) (z : RefillerConfig) (tip : Option ClaimedHeight)
    (status : Option NodeStatus) (es : List Heard) : Prop where
  /-- No call without both gates; one call for a job; then only calls about
  that job. -/
  asks : callsMade z (.begin z gates tip status) es = [] ∨
    ∃ st more, status = some st ∧ mayBuildTransaction st.shield = true ∧
      mayBuildFromWallet (walletLagFreshness gates (some st.height) (some st.nodeHeight)) = true ∧
        callsMade z (.begin z gates tip status) es = .shieldcoinbase (shieldParams z.toShieldConfig) :: more ∧
          ∀ c ∈ more, ∃ first rest remainingUTXOs opid, es = first :: rest ∧
            jobReply z.numText first.answer = .took remainingUTXOs opid ∧ c.job = some opid
  /-- What that call is, to whoever parses its body. -/
  request : readJson (rpcBody (js "refill") (js "z_shieldcoinbase") (shieldParams z.toShieldConfig)) =
    some (shieldRequest z.toShieldConfig)
  moved : ∀ remainingUTXOs, shieldRun z (.begin z gates tip status) es = .ended (.moved remainingUTXOs) ↔
    stepStart gates z.toShieldConfig tip status = .calls ∧ ShieldedFor z es remainingUTXOs
  empty : ∀ remainingUTXOs, shieldRun z (.begin z gates tip status) es = .ended (.empty remainingUTXOs) ↔
    stepStart gates z.toShieldConfig tip status = .calls ∧
      ∃ first rest, es = first :: rest ∧ jobReply z.numText first.answer = .nothing remainingUTXOs
  /-- No answer that comes after the deadline finds the step still waiting. -/
  waits : ∀ remainingUTXOs opid deadline,
    shieldRun z (.begin z gates tip status) es = .polling remainingUTXOs opid deadline →
      ∀ p ∈ es.tail, p.heardAt ≤ deadline

/-- A step that stops at its gates asks nothing. -/
theorem stepAccounts_of_stopped {gates : GateConfig} {z : RefillerConfig} {tip : Option ClaimedHeight}
    {status : Option NodeStatus} {out : StepEnd} (es : List Heard)
    (hbegin : ShieldState.begin z gates tip status = .ended out)
    (hstart : stepStart gates z.toShieldConfig tip status ≠ .calls) (hmoved : ∀ r, out ≠ .moved r)
    (hempty : ∀ r, out ≠ .empty r) : StepAccounts gates z tip status es := by
  have hrun := @shieldRun_ended z out es
  have hcalls := @callsMade_ended z out es
  refine ⟨.inl (by rw [hbegin, hcalls]), readJson_shieldRequest _, fun r => ?_, fun r => ?_, fun r opid deadline h => ?_⟩
  · rw [hbegin, hrun]
    simp [hstart, hmoved r]
  · rw [hbegin, hrun]
    simp [hstart, hempty r]
  · rw [hbegin, hrun] at h
    cases h

/-- **A step's end is what the wallet said**, whatever the wallet and the
wire do and in every step. -/
theorem shield_step_accounts (gates : GateConfig) (z : RefillerConfig) (tip : Option ClaimedHeight)
    (status : Option NodeStatus) (es : List Heard) : StepAccounts gates z tip status es := by
  cases hstart : stepStart gates z.toShieldConfig tip status with
  | throws message =>
    have hbegin : ShieldState.begin z gates tip status = .ended (.threw message) := by
      rw [ShieldState.begin, hstart]
    exact stepAccounts_of_stopped es hbegin (hstart ▸ nofun) nofun nofun
  | returns outcome =>
    have hbegin : ShieldState.begin z gates tip status = .ended (.declined outcome) := by
      rw [ShieldState.begin, hstart]
    exact stepAccounts_of_stopped es hbegin (hstart ▸ nofun) nofun nofun
  | calls =>
    have hbegin : ShieldState.begin z gates tip status = .shielding := by
      rw [ShieldState.begin, hstart]
    obtain ⟨st, hst, hchain, hwallet⟩ := gates_of_calls hstart
    obtain ⟨more, hcalls, hmore⟩ := @callsMade_shielding z es
    refine ⟨.inr ⟨st, more, hst, hchain, hwallet, hbegin ▸ hcalls, hmore⟩, readJson_shieldRequest _,
      fun r => ?_, fun r => ?_, fun r opid deadline hpolling => ?_⟩
    · rw [hbegin, moved_iff]
      simp [hstart]
    · rw [hbegin, empty_iff]
      simp [hstart]
    · rw [hbegin] at hpolling
      obtain ⟨first, polls, rfl, -, -, hpolls⟩ := exists_of_polling hpolling
      exact fun p hp => (hpolls p hp).2

end ZcashFaucet.Reserve
