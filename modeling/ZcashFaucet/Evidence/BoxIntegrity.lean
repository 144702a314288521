/-
ZcashFaucet.Evidence.BoxIntegrity — what the box reports it has, and what
its drift audit found: `boxIntegrityFile.ts` reads, `boxIntegrity.ts`
judges.

Two stamps are aged, the report's and the audit's, and both ages are
clamped at zero. A negative age is a stamp ahead of the reader's clock.
-/
import ZcashFaucet.Lib.Json

namespace ZcashFaucet.Evidence

open Lib

/-! ## What was parsed -/

/-- DriftAuditCounts. -/
structure DriftAuditCounts where
  rc : ℚ
  findings : ℚ
  unverified : ℚ
  deriving DecidableEq

structure DriftReport where
  auditedAt : ℚ
  repoSha : Option JsString
  config : DriftAuditCounts
  access : DriftAuditCounts
  deriving DecidableEq

/-- What the verdict does not look at, and passes on. -/
structure ReportContext where
  enabledUndeclared : Option ℚ
  watchdogRestarts : Option ℚ
  watchdogRestartsDelta : Option ℚ
  platform : Option JsString
  minerBinary : Option JsString
  minerUnit : Option JsString
  watchdogUnit : Option JsString
  alertBridge : Option JsString
  deriving DecidableEq

def noContext : ReportContext := ⟨none, none, none, none, none, none, none, none⟩

/-- An IntegrityReport. The outer `none` of `drift` is a report older than
the field, the inner one a box that published none. -/
structure IntegrityReport where
  expected : ℚ
  present : ℚ
  notEnabled : ℚ
  context : ReportContext
  reportedAt : Option ℚ
  readable : Bool
  drift : Option (Option DriftReport)
  deriving DecidableEq

/-- A text that is not empty. -/
def filledText : Option Json → Option JsString
  | some (.str s) => if s.truthy then some s else none
  | _ => none

/-- `/^[0-9a-f]{40}$/`. -/
def isRepoSha (s : JsString) : Bool :=
  s.length == 40 && s.all fun c => (0x30 ≤ c && c ≤ 0x39) || (0x61 ≤ c && c ≤ 0x66)

def readCounts (v : Option Json) : Option DriftAuditCounts := do
  let rc ← finiteNumber (field? (js "rc") v)
  let findings ← finiteNumber (field? (js "findings") v)
  let unverified ← finiteNumber (field? (js "unverified") v)
  return ⟨rc, findings, unverified⟩

/-- `readDrift`. -/
def readDrift (v : Option Json) : Option DriftReport := do
  let auditedAt ← finiteNumber (field? (js "at") v)
  let config ← readCounts (field? (js "config") v)
  let access ← readCounts (field? (js "access") v)
  let repoSha := match field? (js "repoSha") v with
    | some (.str s) => if isRepoSha s then some s else none
    | _ => none
  return ⟨auditedAt, repoSha, config, access⟩

def readContext (j : Json) : ReportContext where
  enabledUndeclared := finiteNumber (j.field (js "enabledUndeclared"))
  watchdogRestarts := finiteNumber (j.field (js "watchdogRestarts"))
  watchdogRestartsDelta := finiteNumber (j.field (js "watchdogRestartsDelta"))
  platform := filledText (j.field (js "platform"))
  minerBinary := filledText (j.field (js "minerBinary"))
  minerUnit := filledText (j.field (js "minerUnit"))
  watchdogUnit := filledText (j.field (js "watchdogUnit"))
  alertBridge := filledText (j.field (js "alertBridge"))

/-- The report of a box that could not determine the answer. -/
def unreadableReport : IntegrityReport := ⟨0, 0, 0, noContext, none, false, some none⟩

/-- `readBoxIntegrity`, on what the file parses to, if it does. -/
def readBoxIntegrity (parsed : Option Json) : Option IntegrityReport := do
  let j ← parsed
  match j.field (js "readable") with
  | some (.bool false) => return unreadableReport
  | _ =>
      let expected ← finiteNumber (j.field (js "expected"))
      let present ← finiteNumber (j.field (js "present"))
      let notEnabled ← finiteNumber (j.field (js "notEnabled"))
      let reportedAt ← finiteNumber (j.field (js "at"))
      let drift := (j.field (js "drift")).map fun v => readDrift (some v)
      return ⟨expected, present, notEnabled, readContext j, some reportedAt, true, drift⟩

/-! ## Verdicts -/

/-- STALE_AFTER_MS. -/
def staleAfterMs : ℚ := 30 * 60000

/-- DRIFT_STALE_AFTER_MS. -/
def driftStaleAfterMs : ℚ := 90 * 60000

/-- `Math.round`. -/
def mathRound (x : ℚ) : ℚ := (⌊x + 1 / 2⌋ : ℤ)

inductive DriftState
  | clean
  | drift
  | incomplete
  | stale
  | unknown
  deriving DecidableEq, Repr

structure DriftStatus where
  state : DriftState
  findings : Option ℚ
  unverified : Option ℚ
  ageSeconds : Option ℚ
  repoSha : Option JsString
  reason : JsString
  deriving DecidableEq

variable (numText : ℚ → JsString)

/-- The verdict on counts that are recent enough. The exit codes outrank
the counts. -/
def driftVerdict (d : DriftReport) : DriftState × JsString :=
  let findings := d.config.findings + d.access.findings
  let unverified := d.config.unverified + d.access.unverified
  if 3 ≤ d.config.rc ∨ 3 ≤ d.access.rc then
    (.incomplete, js "a drift audit could not run on the box, so its findings are unmeasured")
  else if d.config.rc = 1 ∨ d.access.rc = 1 ∨ 0 < findings then
    (.drift,
      (if 0 < findings then numText findings ++ js " finding(s)"
        else js "findings the audit reported but the wrapper did not count") ++
      js ": the box and the repo disagree; the box's own journal names them")
  else if 0 < unverified ∨ d.config.rc = 2 ∨ d.access.rc = 2 then
    (.incomplete, js "no drift in what could be checked, but " ++ numText unverified ++
      js " check(s) could not run")
  else (.clean, js "the box matches the repo in every check the audit made")

def classifyDrift (report : Option (Option DriftReport)) (now : ℚ) : DriftStatus :=
  match report with
  | none => ⟨.unknown, none, none, none, none,
      js "the box's report predates the drift field, so the audit's verdict is not carried"⟩
  | some none => ⟨.unknown, none, none, none, none, js "the box has not published a drift audit result"⟩
  | some (some d) =>
      let ageMs := max 0 (now - d.auditedAt)
      let age := mathRound (ageMs / 1000)
      let verdict :=
        if driftStaleAfterMs < ageMs then
          (.stale, js "the last drift audit is " ++ numText (mathRound (age / 60)) ++
            js " minutes old; it runs every 30, so it has stopped arriving")
        else driftVerdict numText d
      ⟨verdict.1, some (d.config.findings + d.access.findings),
        some (d.config.unverified + d.access.unverified), some age, d.repoSha, verdict.2⟩

inductive IntegrityState
  | complete
  | incomplete
  | unknown
  deriving DecidableEq, Repr

structure IntegrityStatus where
  state : IntegrityState
  expected : Option ℚ
  present : Option ℚ
  missing : Option ℚ
  notEnabled : Option ℚ
  context : ReportContext
  ageSeconds : Option ℚ
  drift : DriftStatus
  reason : JsString
  deriving DecidableEq

/-- `parts.join(", ")`. -/
def faultText (missing expected notEnabled : ℚ) : JsString :=
  let files := numText missing ++ js " of " ++ numText expected ++ js " required files missing or stale"
  let units := numText notEnabled ++ js " unit(s) installed but not enabled"
  if 0 < missing then if 0 < notEnabled then files ++ js ", " ++ units else files else units

/-- The verdict on a report that was read and has its stamp. -/
def judgeReport (r : IntegrityReport) (reportedAt now : ℚ) (drift : DriftStatus) : IntegrityStatus :=
  let ageMs := max 0 (now - reportedAt)
  let age := mathRound (ageMs / 1000)
  let missing := max 0 (r.expected - r.present)
  if staleAfterMs < ageMs then
    ⟨.unknown, none, none, none, none, noContext, some age, drift,
      js "the last box report is " ++ numText (mathRound (age / 60)) ++
        js " minutes old, so it no longer describes now"⟩
  else if 0 < missing ∨ 0 < r.notEnabled then
    ⟨.incomplete, some r.expected, some r.present, some missing, some r.notEnabled, r.context, some age,
      drift, faultText numText missing r.expected r.notEnabled⟩
  else
    ⟨.complete, some r.expected, some r.present, some 0, some 0, r.context, some age, drift,
      js "all " ++ numText r.expected ++ js " required files installed, current and enabled"⟩

def classifyIntegrity (r : Option IntegrityReport) (now : ℚ) : IntegrityStatus :=
  let drift := classifyDrift numText (r.bind IntegrityReport.drift) now
  let unknown : IntegrityStatus := ⟨.unknown, none, none, none, none, noContext, none, drift,
    js "the box has not reported what it has installed, so whether it matches the repo is unverified"⟩
  match r with
  | none => unknown
  | some r =>
      match r.readable, r.reportedAt with
      | true, some reportedAt => judgeReport numText r reportedAt now drift
      | _, _ => unknown

/-- What the gate outside the box fails on. -/
def isIntegrityFailing (s : IntegrityStatus) : Bool := s.state != .complete

end ZcashFaucet.Evidence
