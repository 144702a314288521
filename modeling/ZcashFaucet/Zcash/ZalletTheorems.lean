/-
ZcashFaucet.Zcash.ZalletTheorems — what a zallet send's outcome says about
the wallet.

`Sound` is what the three classes of outcome are for: a txid is one the
wallet reported, and a plain or a refusing error means the wallet never
took the job or said that it failed. `zallet_sound_iff` says when a send
is sound. The classes are right at every step; what can spoil them is a
text. The opid, a final status and the txid come from the wallet as JSON
of any shape, and where one of them cannot be put into a text (or the
txid's text not into a URL), the error thrown is a plain one.
-/
import ZcashFaucet.Zcash.ZalletSend
import Mathlib.Tactic.Linarith

namespace ZcashFaucet.Zcash

open Lib Api

section

variable (cfg : ZalletConfig) (run : WalletRun cfg)

/-! ## What the wallet did -/

/-- A call that was refused, or failed before it could reach the method. -/
def RpcOutcome.neverRan : RpcOutcome → Prop
  | .foreign e => ∃ code ∈ notConnected, e.code = some code
  | .http status _ => status.hundreds = 4
  | .reply v => truthy? (v.field (js "error")) = true

/-- `z_sendmany` was never accepted. -/
def NeverAccepted : Prop :=
  cfg.address.truthy = false ∨ (∃ e, unlockIfNeeded cfg run = .error e) ∨ run.sendmany.neverRan

/-- `z_sendmany` was accepted with this opid. -/
def Accepted (opid : Option Json) : Prop :=
  cfg.address.truthy = true ∧ unlockIfNeeded cfg run = .ok () ∧
    rpc cfg.numText (js "z_sendmany") run.sendmany = .ok opid

/-- What the wallet reported about the operation, if it was asked and
could be read. -/
def report (opid : Option Json) : Option (Option Json) :=
  match polls cfg run opid with
  | some .finished => (rpcFirst cfg.numText (js "z_getoperationresult") run.result).toOption
  | _ => none

def isFailed (done : Option Json) : Bool :=
  isStr? (js "failed") (field? (js "status") done) || isStr? (js "cancelled") (field? (js "status") done)

def isSuccess (done : Option Json) : Bool :=
  truthy? done && isStr? (js "success") (field? (js "status") done)

def txidOf (done : Option Json) : Option Json := field? (js "txid") (field? (js "result") done)

/-- The wallet reported the operation failed or cancelled. -/
def ReportedFailed : Prop :=
  ∃ opid done, Accepted cfg run opid ∧ report cfg run opid = some done ∧ isFailed done = true

/-- The wallet reported the operation a success with this txid. -/
def ReportedSuccess (txid : Json) : Prop :=
  ∃ opid done, Accepted cfg run opid ∧ report cfg run opid = some done ∧ isSuccess done = true ∧
    txidOf done = some txid

/-- What the outcome of a send is taken to say. -/
structure Sound (out : Except SendError (Json × JsString)) : Prop where
  paid : ∀ txid url, out = .ok (txid, url) → ReportedSuccess cfg run txid
  released : plainFailure (ZalletSender.settlement cfg out) = true →
    NeverAccepted cfg run ∨ ReportedFailed cfg run
  /-- The route gives the claim up only when nothing can have been
  broadcast. -/
  finalised : ∀ deadlineFirst, LeavesRow ZalletSender.name
      (startedAnswer deadlineFirst (some (ZalletSender.settlement cfg out))) .failed →
    NeverAccepted cfg run ∨ ReportedFailed cfg run

/-! ## The condition -/

def hasText (v : Option Json) : Bool := (toText? cfg.numText v).isSome

/-- The texts that are made of a report, and of the opid after it. -/
def reportHasTexts (opid done : Option Json) : Bool :=
  if isFailed done then true
  else if isSuccess done then
    match txidOf done with
    | some txid => if txid.truthy then (txid.toText cfg.numText).any isWellFormed else hasText cfg opid
    | none => hasText cfg opid
  else hasText cfg (orElse (field? (js "status") done) (some (.str (js "missing")))) && hasText cfg opid

/-- Once the wallet has the job, every text can be made. -/
def HasTexts : Prop :=
  ∀ opid, Accepted cfg run opid →
    match report cfg run opid with
    | none => hasText cfg opid = true
    | some done => reportHasTexts cfg opid done = true

end

/-! ## The submission -/

section

variable {cfg : ZalletConfig} {run : WalletRun cfg} {opid : Option Json}

theorem isPrefixOf_append_append (pre a b : JsString) :
    (pre ++ a).isPrefixOf (pre ++ b) = a.isPrefixOf b := by
  rw [Bool.eq_iff_iff, List.isPrefixOf_iff_prefix, List.isPrefixOf_iff_prefix,
    List.prefix_append_right_inj]

theorem isPrefixOf_of_append {pre a s : JsString} (h : (pre ++ a).isPrefixOf s = true) :
    pre.isPrefixOf s = true := by
  rw [List.isPrefixOf_iff_prefix] at h ⊢
  exact (List.prefix_append pre a).trans h

/-- What is taken for definite is: a call refused, or never made. -/
theorem neverRan_of_definite {numText : ℚ → JsString} {o : RpcOutcome} {e : JsError}
    (h : rpc numText (js "z_sendmany") o = .error e) (hdef : sendmanyFailureIsDefinite e = true) :
    o.neverRan := by
  have hrefusal : js "zallet RPC z_sendmany: " = js "zallet RPC " ++ js "z_sendmany: " := by decide
  have hhttp : js "zallet RPC z_sendmany HTTP 4" = js "zallet RPC " ++ js "z_sendmany HTTP 4" := by
    decide
  cases o with
  | foreign f =>
    obtain rfl := Except.error.inj h
    have hforeign : (js "zallet RPC ").isPrefixOf f.message ≠ true := by
      rw [f.foreign]
      exact Bool.false_ne_true
    have h1 : isRpcRefusal f.message = false := by
      rw [Bool.eq_false_iff, isRpcRefusal, hrefusal]
      exact fun hp => hforeign (isPrefixOf_of_append hp)
    have h2 : isHttp4xx f.message = false := by
      rw [Bool.eq_false_iff]
      intro hp
      simp only [isHttp4xx, Bool.and_eq_true, hhttp] at hp
      exact hforeign (isPrefixOf_of_append hp.1)
    simp only [sendmanyFailureIsDefinite, h1, h2, Bool.false_or, Option.any_eq_true] at hdef
    obtain ⟨code, hcode, hin⟩ := hdef
    exact ⟨code, by simpa using hin, hcode⟩
  | http status statusText =>
    obtain rfl := Except.error.inj h
    obtain ⟨hundreds, tens, ones⟩ := status
    have hmessage : js "zallet RPC " ++ js "z_sendmany" ++ js " HTTP " =
        js "zallet RPC z_sendmany HTTP " := by decide
    have hsplit : js "zallet RPC z_sendmany HTTP 4" = js "zallet RPC z_sendmany HTTP " ++ [0x34] := by
      decide
    have hcolon : js "zallet RPC z_sendmany: " = js "zallet RPC z_sendmany" ++ js ": " := by decide
    have hspace : js "zallet RPC z_sendmany HTTP " = js "zallet RPC z_sendmany" ++ js " HTTP " := by
      decide
    simp only [sendmanyFailureIsDefinite, ourError, isRpcRefusal, isHttp4xx, hmessage,
      Option.any_none, Bool.or_false, Bool.or_eq_true, Bool.and_eq_true] at hdef
    rcases hdef with hp | ⟨hp, -⟩
    · rw [hcolon, hspace, List.append_assoc, List.append_assoc, List.append_assoc,
        isPrefixOf_append_append] at hp
      exact absurd hp (by simp [js, utf16Units, List.isPrefixOf])
    · rw [hsplit, List.append_assoc, List.append_assoc, isPrefixOf_append_append] at hp
      have hdigit : ∀ d : Fin 10, (0x34 : UInt16) = digitUnit d → d = 4 := by decide
      refine hdigit hundreds ?_
      simpa [HttpStatus.text, List.isPrefixOf] using hp
  | reply v =>
    simp only [rpc] at h
    split_ifs at h with hnull
    · obtain rfl := Except.error.inj h
      exact absurd hdef (by decide)
    · split at h
      · rename_i error herror
        split_ifs at h with htruthy
        simp [RpcOutcome.neverRan, truthy?, herror, htruthy]
      · cases h

theorem sendmanyError_plain {e : JsError} (h : plainFailure (.error (sendmanyError e)) = true) :
    sendmanyFailureIsDefinite e = true := by
  unfold sendmanyError at h
  split at h
  · assumption
  · cases h

/-! ## Polling -/

/-- An unknown outcome keeps its class exactly if the opid has a text. -/
theorem unknownOutcome_plain (cause : JsString) :
    plainFailure (.error (unknownOutcome cfg opid cause)) = !hasText cfg opid := by
  unfold unknownOutcome hasText
  cases toText? cfg.numText opid <;> rfl

/-- The text of a status that is not over. -/
theorem stillRunning_eq {status : Option Json} (h : isOver status = false) :
    ∃ cause, stillRunning cfg opid status = unknownOutcome cfg opid cause := by
  have htext : ∃ text,
      toText? cfg.numText (orElse (field? (js "status") status) (some (.str (js "pending")))) =
        some text := by
    cases hst : field? (js "status") status with
    | none => exact ⟨js "pending", by simp [orElse, toText?]⟩
    | some v =>
      have htruthy : truthy? status = true := by
        cases status with
        | none => cases hst
        | some w =>
          cases w with
          | obj fields => rfl
          | _ => cases hst
      simp only [isOver, htruthy, Bool.true_and, Bool.and_eq_false_iff, Bool.not_eq_false', hst,
        isStr?, Option.any_some] at h
      cases v with
      | str t => exact ⟨t, by simp [orElse, toText?]⟩
      | _ => simp [Json.isStr] at h
  obtain ⟨text, htext⟩ := htext
  exact ⟨_, by rw [stillRunning, htext]⟩

theorem pollStatus_error : ∀ {left k : Nat} {lastErr : Option JsError} {e : SendError},
    (pollStatus cfg run opid left k lastErr).1 = .error e →
      ∃ cause, e = unknownOutcome cfg opid cause
  | 0, k, lastErr, e, h => by
      simp only [pollStatus, Except.error.injEq] at h
      exact ⟨_, h.symm⟩
  | left + 1, k, lastErr, e, h => by
      rw [pollStatus] at h
      split at h
      · cases h
      · exact pollStatus_error h

/-- The loop gives up with an unknown outcome only. -/
theorem pollLoop_gaveUp : ∀ {fuel n k : Nat} {e : SendError},
    pollLoop cfg run opid fuel n k = some (.gaveUp e) → ∃ cause, e = unknownOutcome cfg opid cause
  | 0, n, k, e, h => by cases h
  | fuel + 1, n, k, e, h => by
      rw [pollLoop] at h
      split at h
      · rename_i e' k' hpoll
        obtain rfl := PollEnd.gaveUp.inj (Option.some.inj h)
        exact pollStatus_error (congrArg Prod.fst hpoll)
      · rename_i status k' hpoll
        split_ifs at h with hover hdeadline
        · cases h
        · obtain rfl := PollEnd.gaveUp.inj (Option.some.inj h)
          exact stillRunning_eq (Bool.not_eq_true _ ▸ hover)
        · exact pollLoop_gaveUp h

/-- The loop ends by the poll after which the deadline has passed. -/
theorem pollLoop_isSome : ∀ {fuel n k : Nat},
    run.startedAt + cfg.opTimeoutMs < run.clock (n + fuel) →
      (pollLoop cfg run opid (fuel + 1) n k).isSome = true
  | 0, n, k, h => by
      rw [pollLoop]
      split
      · rfl
      · split_ifs
        · rfl
        · rfl
        · exact absurd h (by assumption)
  | fuel + 1, n, k, h => by
      rw [pollLoop]
      split
      · rfl
      · split_ifs
        · rfl
        · rfl
        · exact pollLoop_isSome (by rwa [show n + 1 + fuel = n + (fuel + 1) by omega])

theorem polls_isSome : (polls cfg run opid).isSome = true :=
  pollLoop_isSome (by simpa using run.passes)

/-! ## The report -/

/-- The text of a txid can go into a URL exactly if it is well formed. -/
theorem zalletTxUrl_isSome (txid : Json) :
    (zalletTxUrl cfg txid).isSome = (txid.toText cfg.numText).any isWellFormed := by
  unfold zalletTxUrl
  cases txid.toText cfg.numText with
  | none => rfl
  | some text => simp [explorerTxUrl_isSome]

theorem sendResult_error {txid : Json} {e : SendError} (h : sendResult cfg txid = .error e) :
    plainFailure (.error e) = true ∧ (txid.toText cfg.numText).any isWellFormed = false := by
  unfold sendResult at h
  rw [← zalletTxUrl_isSome]
  split at h
  · cases h
  · rename_i hnone
    obtain rfl := Except.error.inj h
    exact ⟨rfl, by rw [hnone]; rfl⟩

theorem sendResult_ok {txid txid' : Json} {url : JsString} (h : sendResult cfg txid = .ok (txid', url)) :
    txid' = txid ∧ (txid.toText cfg.numText).any isWellFormed = true := by
  unfold sendResult at h
  rw [← zalletTxUrl_isSome]
  split at h
  · rename_i hsome
    exact ⟨(congrArg Prod.fst (Except.ok.inj h)).symm, by rw [hsome]; rfl⟩
  · cases h

/-- `readReport`, in the words of the report. -/
theorem readReport_eq (done : Option Json) :
    readReport cfg opid done =
      if isFailed done then
        match toText? cfg.numText (orElse (field? (js "message") (field? (js "error") done))
            (field? (js "status") done)) with
        | some text => .error (.plain (js "zallet send failed: " ++ text))
        | none => .error notPrimitive
      else if isSuccess done then
        match txidOf done with
        | some txid =>
            if txid.truthy then .ok txid
            else .error (unknownOutcome cfg opid (js "succeeded but returned no txid"))
        | none => .error (unknownOutcome cfg opid (js "succeeded but returned no txid"))
      else
        match toText? cfg.numText (orElse (field? (js "status") done) (some (.str (js "missing")))) with
        | some text => .error (unknownOutcome cfg opid (js "unexpected final status " ++ text))
        | none => .error notPrimitive :=
  rfl

/-- A report is turned into a txid only if it is a success with that txid. -/
theorem readReport_ok {done : Option Json} {txid : Json} (h : readReport cfg opid done = .ok txid) :
    isFailed done = false ∧ isSuccess done = true ∧ txidOf done = some txid ∧ txid.truthy = true := by
  rw [readReport_eq] at h
  split_ifs at h with hfailed hsuccess
  · split at h <;> cases h
  · split at h
    · rename_i txid' htxid
      split_ifs at h with htruthy
      obtain rfl := Except.ok.inj h
      exact ⟨Bool.not_eq_true _ ▸ hfailed, hsuccess, htxid, htruthy⟩
    · cases h
  · split at h <;> cases h

/-- A report that is not turned into a txid is a plain error exactly if it
is a failure, or a text was missing. -/
theorem readReport_error {done : Option Json} {e : SendError}
    (h : readReport cfg opid done = .error e) :
    plainFailure (.error e) = true ↔ isFailed done = true ∨ reportHasTexts cfg opid done = false := by
  rw [readReport_eq] at h
  unfold reportHasTexts
  by_cases hfailed : isFailed done = true
  · have hplain : plainFailure (.error e) = true := by
      rw [if_pos hfailed] at h
      split at h <;> (obtain rfl := Except.error.inj h; rfl)
    exact iff_of_true hplain (Or.inl hfailed)
  · rw [if_neg hfailed] at h ⊢
    by_cases hsuccess : isSuccess done = true
    · rw [if_pos hsuccess] at h ⊢
      split at h
      · rename_i txid htxid
        split_ifs at h with htruthy
        obtain rfl := Except.error.inj h
        simp [htruthy, hfailed, unknownOutcome_plain]
      · rename_i hnone
        obtain rfl := Except.error.inj h
        simp [hfailed, unknownOutcome_plain]
    · rw [if_neg hsuccess] at h ⊢
      unfold hasText
      split at h
      · rename_i text htext
        obtain rfl := Except.error.inj h
        simp [htext, hfailed, unknownOutcome_plain, hasText]
      · rename_i hnone
        obtain rfl := Except.error.inj h
        simp [hnone, notPrimitive, plainFailure]

/-! ## The send -/

theorem Accepted.unique {opid' : Option Json} (h : Accepted cfg run opid)
    (h' : Accepted cfg run opid') : opid' = opid :=
  Except.ok.inj (h'.2.2.symm.trans h.2.2)

theorem Accepted.ran (h : Accepted cfg run opid) : ¬ NeverAccepted cfg run := by
  obtain ⟨haddress, hunlock, hsend⟩ := h
  rintro (hno | ⟨e, he⟩ | hnever)
  · rw [haddress] at hno
    cases hno
  · rw [hunlock] at he
    cases he
  · cases hout : run.sendmany with
    | foreign e =>
      rw [hout] at hsend
      cases hsend
    | http status statusText =>
      rw [hout] at hsend
      cases hsend
    | reply v =>
      rw [hout] at hsend hnever
      simp only [RpcOutcome.neverRan, truthy?, Option.any_eq_true] at hnever
      obtain ⟨error, herror, htruthy⟩ := hnever
      simp only [rpc, herror, htruthy, if_true] at hsend
      split at hsend <;> cases hsend

theorem Accepted.reportedFailed_iff (h : Accepted cfg run opid) :
    ReportedFailed cfg run ↔ ∃ done, report cfg run opid = some done ∧ isFailed done = true := by
  constructor
  · rintro ⟨opid', done, hacc, hreport⟩
    obtain rfl := h.unique hacc
    exact ⟨done, hreport⟩
  · rintro ⟨done, hreport⟩
    exact ⟨opid, done, h, hreport⟩

theorem Accepted.hasTexts_iff (h : Accepted cfg run opid) :
    HasTexts cfg run ↔
      match report cfg run opid with
      | none => hasText cfg opid = true
      | some done => reportHasTexts cfg opid done = true := by
  constructor
  · intro htexts
    exact htexts opid h
  · intro htexts opid' hacc
    obtain rfl := h.unique hacc
    exact htexts

/-- The route gives a claim up on a plain failure only. -/
theorem plain_of_leaves_failed {deadlineFirst : Bool} {out : Settlement}
    (h : LeavesRow ZalletSender.name (startedAnswer deadlineFirst (some out)) .failed) :
    plainFailure out = true := by
  rw [leavesRow_iff, rowStatus_failed, finalizeArgs_status] at h
  cases deadlineFirst with
  | true => simp [startedAnswer] at h
  | false => simpa [startedAnswer] using h

theorem sound_error_iff {e : SendError} :
    Sound cfg run (.error e) ↔
      (plainFailure (.error e) = true → NeverAccepted cfg run ∨ ReportedFailed cfg run) := by
  constructor
  · exact fun h => h.released
  · intro h
    exact ⟨fun _ _ hok => by (cases hok), h, fun _ hleaves => h (plain_of_leaves_failed hleaves)⟩

theorem sound_ok_iff {txid : Json} {url : JsString} :
    Sound cfg run (.ok (txid, url)) ↔ ReportedSuccess cfg run txid := by
  constructor
  · exact fun h => h.paid txid url rfl
  · intro h
    refine ⟨fun txid' url' hok => ?_, fun hplain => by (cases hplain), fun d hleaves => ?_⟩
    · obtain ⟨rfl, rfl⟩ := Prod.mk.inj (Except.ok.inj hok)
      exact h
    · cases plain_of_leaves_failed hleaves

/-- Without a report, an error is the unknown outcome, if the opid has a
text. -/
theorem sound_iff_of_no_report (hacc : Accepted cfg run opid) (hreport : report cfg run opid = none)
    (cause : JsString) :
    Sound cfg run (.error (unknownOutcome cfg opid cause)) ↔ HasTexts cfg run := by
  rw [sound_error_iff, hacc.hasTexts_iff, hreport, unknownOutcome_plain, or_iff_right hacc.ran,
    hacc.reportedFailed_iff, hreport]
  cases hasText cfg opid <;> simp

theorem sound_iff_of_report (hacc : Accepted cfg run opid) {done : Option Json}
    (hreport : report cfg run opid = some done) :
    Sound cfg run (match readReport cfg opid done with
      | .error e => .error e
      | .ok txid => sendResult cfg txid) ↔ HasTexts cfg run := by
  rw [hacc.hasTexts_iff, hreport]
  have hfailed : ReportedFailed cfg run ↔ isFailed done = true := by
    rw [hacc.reportedFailed_iff, hreport]
    simp
  cases hread : readReport cfg opid done with
  | error e =>
    simp only [sound_error_iff, readReport_error hread, or_iff_right hacc.ran, hfailed]
    cases hf : isFailed done with
    | true => simp [reportHasTexts, hf]
    | false => cases reportHasTexts cfg opid done <;> simp
  | ok txid =>
    obtain ⟨hf, hs, htxid, htruthy⟩ := readReport_ok hread
    have htexts : reportHasTexts cfg opid done = (txid.toText cfg.numText).any isWellFormed := by
      simp [reportHasTexts, hf, hs, htxid, htruthy]
    simp only [htexts]
    cases hsend : sendResult cfg txid with
    | ok res =>
      obtain ⟨txid', url⟩ := res
      obtain ⟨rfl, htext⟩ := sendResult_ok hsend
      rw [sound_ok_iff]
      exact iff_of_true ⟨opid, done, hacc, hreport, hs, htxid⟩ htext
    | error e =>
      obtain ⟨hplain, htext⟩ := sendResult_error hsend
      rw [sound_error_iff, htext, or_iff_right hacc.ran, hfailed, hf]
      simp [hplain]

/-- **Every zallet send returns, and its outcome is sound** exactly if every
text could be made that the wallet's answers go into. -/
theorem zallet_sound_iff (cfg : ZalletConfig) (run : WalletRun cfg) :
    ∃ out, ZalletSender.send cfg run = some out ∧ (Sound cfg run out ↔ HasTexts cfg run) := by
  unfold ZalletSender.send
  cases haddress : cfg.address.truthy with
  | false =>
    refine ⟨_, rfl, iff_of_true (sound_error_iff.mpr fun _ => Or.inl (Or.inl haddress)) ?_⟩
    intro opid hacc
    exact absurd (Or.inl haddress) hacc.ran
  | true =>
    cases hunlock : unlockIfNeeded cfg run with
    | error e =>
      have hnever : NeverAccepted cfg run := Or.inr (Or.inl ⟨e, hunlock⟩)
      exact ⟨_, rfl, iff_of_true (sound_error_iff.mpr fun _ => Or.inl hnever)
        fun opid hacc => absurd hnever hacc.ran⟩
    | ok u =>
      cases hsend : rpc cfg.numText (js "z_sendmany") run.sendmany with
      | error e =>
        refine ⟨_, rfl, iff_of_true (sound_error_iff.mpr fun hplain => ?_) fun opid hacc => ?_⟩
        · exact Or.inl (Or.inr (Or.inr (neverRan_of_definite hsend (sendmanyError_plain hplain))))
        · rw [hacc.2.2] at hsend
          cases hsend
      | ok opid =>
        have hacc : Accepted cfg run opid := ⟨haddress, hunlock, hsend⟩
        have hends : (polls cfg run opid).isSome = true := polls_isSome
        obtain ⟨pollEnd, hpolls⟩ := Option.isSome_iff_exists.mp hends
        simp only [Bool.not_true, Bool.false_eq_true, if_false, awaitOperation, hpolls,
          Option.map_some]
        cases pollEnd with
        | gaveUp e =>
          obtain ⟨cause, rfl⟩ := pollLoop_gaveUp hpolls
          exact ⟨_, rfl, sound_iff_of_no_report hacc (by simp [report, hpolls]) cause⟩
        | finished =>
          unfold collect
          cases hread : rpcFirst cfg.numText (js "z_getoperationresult") run.result with
          | error e =>
            exact ⟨_, rfl, sound_iff_of_no_report hacc
              (by simp [report, hpolls, hread, Except.toOption]) _⟩
          | ok done =>
            exact ⟨_, rfl, sound_iff_of_report hacc
              (by simp [report, hpolls, hread, Except.toOption])⟩

end

/-! ## A paid claim given up -/

def stockZallet : ZalletConfig where
  address := js "utest1faucet"
  passphrase := []
  opTimeoutMs := 180000
  explorerTxUrl := js "https://testnet.cipherscan.app/tx/\x7btxid\x7d"
  numText := fun q => js (toString q)
  bindTxid := fun _ => none

def replyResult (v : Json) : RpcOutcome := .reply (.obj [(js "result", v)])

def successStatus : JsString × Json := (js "status", .str (js "success"))

/-- A wallet that takes the job, is done at the first poll and reports
success with this txid. -/
def paidRun (txid : JsString) : WalletRun stockZallet where
  unlock := .reply .null
  sendmany := replyResult (.str (js "opid-1"))
  status := fun _ => replyResult (.arr [.obj [successStatus]])
  result := replyResult (.arr [.obj [successStatus, (js "result", .obj [(js "txid", .str txid)])]])
  startedAt := 0
  clock := fun _ => 200000
  lastPoll := 0
  passes := by norm_num [stockZallet]

/-- A txid that is one surrogate without its partner. -/
def brokenTxid : JsString := [0xD800]

theorem zallet_releases_brokenTxid :
    ZalletSender.send stockZallet (paidRun brokenTxid) = some (.error (.plain (js "URI malformed"))) ∧
      ReportedSuccess stockZallet (paidRun brokenTxid) (.str brokenTxid) ∧
      LeavesRow ZalletSender.name (startedAnswer false (some (.error (.plain (js "URI malformed")))))
        .failed ∧
      ¬ Sound stockZallet (paidRun brokenTxid) (.error (.plain (js "URI malformed"))) := by
  have hacc : Accepted stockZallet (paidRun brokenTxid) (some (.str (js "opid-1"))) :=
    ⟨rfl, rfl, rfl⟩
  have hreport : report stockZallet (paidRun brokenTxid) (some (.str (js "opid-1"))) =
      some (some (.obj [successStatus, (js "result", .obj [(js "txid", .str brokenTxid)])])) := rfl
  refine ⟨rfl, ⟨_, _, hacc, hreport, rfl, rfl⟩, ?_, fun hsound => ?_⟩
  · rw [leavesRow_iff]
    rfl
  · rcases hsound.released rfl with hnever | hfailed
    · exact hacc.ran hnever
    · obtain ⟨done, hdone, hf⟩ := hacc.reportedFailed_iff.mp hfailed
      obtain rfl := Option.some.inj (hreport.symm.trans hdone)
      cases hf

end ZcashFaucet.Zcash
