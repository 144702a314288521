/-
ZcashFaucet.Api.OwnRefusals — what a refusal of the faucet's own costs the
visitor.

`claimUntilReserve` is the route from the first gate to the reservation.
Two refusals stand before the proof is looked at and four after it, and
the look is what is recorded for escalation. `serve` runs a server on
which one client's body is posted and refused, again and again, between
whatever everybody else does; `refusals_cost_nothing_iff` compares it with
the same run without those posts.

Time does not go backwards in a run.
-/
import ZcashFaucet.Api.PageAndClaim
import ZcashFaucet.Lib.Run
import ZcashFaucet.Pow.ChallengeTheorems
import ZcashFaucet.Pow.Difficulty

namespace ZcashFaucet.Api

open Lib Db Zcash ZcashFaucet.Pow

/-! ## The route up to the reservation -/

structure ClaimConfig where
  route : RouteConfig
  difficulty : DifficultyConfig
  /-- FAUCET_CHALLENGE is `pow`, not `none`. -/
  challenge : Bool

structure Client where
  ipHash : Option JsString
  subnetHash : Option JsString
  deriving DecidableEq

/-- `ipHash ?? "anon"`. -/
def Client.powIp (c : Client) : JsString := c.ipHash.getD (js "anon")

structure ClaimBody where
  network : FaucetNetwork
  pow : Option Solution
  deriving DecidableEq

structure Tables where
  ledger : Ledger
  used : List UsedChallenge
  deriving DecidableEq

structure ClaimServer where
  tables : Tables
  windows : PowWindows

/-- What the route answers before it reserves, if it does. -/
inductive ClaimAnswer
  | own (refusal : OwnRefusal)
  | error (e : ApiError)
  | reserves

def powRequired : ApiError := ⟨403, "Proof of work required.", "powRequired", none⟩

def powFailed (reason : String) : ApiError := ⟨403, reason, "powFailed", none⟩

def challengeSpent : ApiError := ⟨403, "Challenge already used.", "challengeSpent", none⟩

variable (cfg : ClaimConfig) (client : Client) (body : ClaimBody)

/-- The checks of `verifySolution` that stand before `recordRequest`. -/
def reachesRecord (clockMs : ℚ) (s : Solution) (ipHash : JsString) : Bool :=
  s.seed.truthy && !decide (s.exp < unixSeconds clockMs) &&
    !decide (s.difficulty < cfg.difficulty.pow.baseBits - 1 ∨ cfg.difficulty.pow.maxBits < s.difficulty) &&
    decide (decodeHex (sign cfg.difficulty.pow s.seed s.difficulty s.exp ipHash) = decodeHex s.sig)

/-- `verifySolution` with what it records. -/
def verifyAndRecord (clockMs : ℚ) (s : Solution) (w : PowWindows) : Except String Unit × PowWindows :=
  (verifySolution cfg.difficulty.pow clockMs s client.powIp,
    if reachesRecord cfg clockMs s client.powIp then
      recordRequest cfg.difficulty client.powIp client.subnetHash clockMs w
    else w)

/-- The gates after the proof, and the burn. -/
def gatesAndBurn (clockMs : ℚ) (r : GateReadings) (server : ClaimServer) : ClaimAnswer × ClaimServer :=
  match refusalAfterProof cfg.route body.network r with
  | some refusal => (.own refusal, server)
  | none =>
      match cfg.challenge, body.pow with
      | true, some s =>
          let burn := spendVerifiedSolution clockMs s server.tables.used
          let server := { server with tables := { server.tables with used := burn.1 } }
          if burn.2 then (.reserves, server) else (.error challengeSpent, server)
      | _, _ => (.reserves, server)

def claimUntilReserve (clockMs : ℚ) (r : GateReadings) (server : ClaimServer) : ClaimAnswer × ClaimServer :=
  match refusalBeforeProof cfg.route r with
  | some refusal => (.own refusal, server)
  | none =>
      if cfg.challenge then
        match body.pow with
        | none => (.error powRequired, server)
        | some s =>
            let (verdict, windows) := verifyAndRecord cfg client clockMs s server.windows
            let server := { server with windows := windows }
            match verdict with
            | .error reason => (.error (powFailed reason), server)
            | .ok () =>
                if isSpent s.sig server.tables.used then (.error challengeSpent, server)
                else gatesAndBurn cfg body clockMs r server
      else gatesAndBurn cfg body clockMs r server

/-- `silentRetryWaitSeconds` on a refusal of ours. -/
def silentRetryWaitSeconds (refusal : OwnRefusal) (attemptsSoFar : Nat) : Option ℚ :=
  if refusal.error.status ≠ 503 then none
  else if attemptsSoFar ≥ 2 then none
  else if refusal.error.kind.any fun k => !k.isEmpty then none
  else
    match refusal.retryAfterSeconds with
    | none => none
    | some wait => if wait ≤ 0 ∨ wait > 10 then none else some wait

/-! ## What a refusal leaves -/

variable {cfg client body} {clockMs : ℚ} {r : GateReadings} {server server' : ClaimServer}
  {refusal : OwnRefusal}

theorem reachesRecord_of_ok {s : Solution} {ipHash : JsString}
    (h : verifySolution cfg.difficulty.pow clockMs s ipHash = .ok ()) :
    reachesRecord cfg clockMs s ipHash = true := by
  unfold verifySolution at h
  split_ifs at h with hseed hexp hdiff hsig hwork
  simp only [Bool.not_eq_true, Bool.not_eq_false'] at hseed
  simp [reachesRecord, hseed, hexp, hdiff, not_not.mp hsig]

/-- A post counts for escalation: it got past the gates before the proof. -/
def counted (cfg : ClaimConfig) (r : GateReadings) : Bool :=
  cfg.challenge && (refusalBeforeProof cfg.route r).isNone

theorem gatesAndBurn_own (h : gatesAndBurn cfg body clockMs r server = (.own refusal, server')) :
    server' = server := by
  unfold gatesAndBurn at h
  split at h
  · cases h
    rfl
  · split at h
    · simp only at h
      split at h <;> cases h
    · cases h

/-- A refusal of ours leaves the tables, and records one attempt or none. -/
theorem claimUntilReserve_own
    (h : claimUntilReserve cfg client body clockMs r server = (.own refusal, server')) :
    server'.tables = server.tables ∧
      server'.windows = if counted cfg r
        then recordRequest cfg.difficulty client.powIp client.subnetHash clockMs server.windows
        else server.windows := by
  unfold claimUntilReserve at h
  split at h
  case h_1 hbefore =>
    cases h
    simp [counted, hbefore]
  case h_2 hbefore =>
    split at h
    case isTrue hchallenge =>
      have hcounted : counted cfg r = true := by simp [counted, hchallenge, hbefore]
      split at h
      · cases h
      case h_2 s _ =>
        simp only [verifyAndRecord] at h
        split at h
        · cases h
        case h_2 hok =>
          split at h
          · cases h
          · rw [gatesAndBurn_own h, hcounted]
            simp [reachesRecord_of_ok hok]
    case isFalse hchallenge =>
      rw [gatesAndBurn_own h]
      simp [counted, hchallenge]

/-- Before a body expires, the clock does not change its verdict. -/
theorem verifySolution_clock {pow : PowConfig} {s : Solution} {ipHash : JsString} {clockMs' : ℚ}
    (h : unixSeconds clockMs ≤ s.exp) (h' : unixSeconds clockMs' ≤ s.exp) :
    verifySolution pow clockMs s ipHash = verifySolution pow clockMs' s ipHash := by
  simp only [verifySolution, not_lt.mpr h, not_lt.mpr h']

/-! ## Runs -/

inductive ServerEvent
  /-- an attempt of anybody's is recorded -/
  | attempt (ipHash : JsString) (subnetHash : Option JsString)
  /-- a challenge is issued to anybody -/
  | issue (ipHash : JsString) (subnetHash : Option JsString)
  /-- whatever else the server writes to its tables -/
  | write (tables : Tables)
  /-- the body is posted, and a gate of ours refuses it -/
  | post (r : GateReadings)

def ServerEvent.isPost : ServerEvent → Bool
  | .post _ => true
  | _ => false

structure Served where
  now : ℚ
  server : ClaimServer

variable (cfg client body)

/-- What a server starts with, its tables and no attempts. -/
def Served.start (now : ℚ) (tables : Tables) : Served := ⟨now, tables, .new⟩

/-- What one event makes of the server at `t`. -/
def serveEvent (t : ℚ) (server : ClaimServer) : ServerEvent → Option ClaimServer
  | .attempt ipHash subnetHash =>
      some { server with windows := recordRequest cfg.difficulty ipHash subnetHash t server.windows }
  | .issue ipHash subnetHash =>
      some { server with windows := (difficultyFor cfg.difficulty ipHash subnetHash t server.windows).2 }
  | .write tables => some { server with tables := tables }
  | .post r =>
      match claimUntilReserve cfg client body t r server with
      | (.own _, server') => some server'
      | _ => none

def serve (s : Served) (e : ℚ × ServerEvent) : Option Served :=
  if e.1 < s.now then none
  else (serveEvent cfg client body e.1 s.server e.2).map fun server => ⟨e.1, server⟩

/-- The attempt an event leaves behind. -/
def attemptOf (e : ℚ × ServerEvent) : Option PowAttempt :=
  match e.2 with
  | .attempt ipHash subnetHash => some ⟨ipHash, subnetHash, e.1⟩
  | .issue _ _ => none
  | .write _ => none
  | .post r => if counted cfg r then some ⟨client.powIp, client.subnetHash, e.1⟩ else none

/-- The times of the posts that counted. -/
def countedPosts (es : List (ℚ × ServerEvent)) : List ℚ :=
  es.filterMap fun e =>
    match e.2 with
    | .post r => if counted cfg r then some e.1 else none
    | _ => none

def notPost (e : ℚ × ServerEvent) : Bool := !e.2.isPost

/-- Everybody else's attempts. -/
def otherAttempts (es : List (ℚ × ServerEvent)) : List PowAttempt :=
  (es.filter notPost).filterMap (attemptOf cfg client)

variable {cfg client body} {s s' q : Served} {es : List (ℚ × ServerEvent)} {e : ℚ × ServerEvent}

/-- The windows follow the history of attempts, and a run's clock goes on. -/
def Follows (cfg : ClaimConfig) (s : Served) (log : List PowAttempt) : Prop :=
  WindowsTrack cfg.difficulty s.now s.server.windows log

theorem serve_eq_some (h : serve cfg client body s e = some s') :
    s.now ≤ e.1 ∧ s'.now = e.1 ∧ serveEvent cfg client body e.1 s.server e.2 = some s'.server := by
  simp only [serve] at h
  split at h
  · cases h
  case isFalse htime =>
    obtain ⟨server, hserver, rfl⟩ := Option.map_eq_some_iff.mp h
    exact ⟨not_lt.mp htime, rfl, hserver⟩

/-- A post in a run was refused by us. -/
theorem serveEvent_post {t : ℚ} (h : serveEvent cfg client body t server (.post r) = some server') :
    server'.tables = server.tables ∧
      server'.windows = if counted cfg r
        then recordRequest cfg.difficulty client.powIp client.subnetHash t server.windows
        else server.windows := by
  simp only [serveEvent] at h
  split at h
  case h_1 refusal _ hown =>
    cases h
    exact claimUntilReserve_own hown
  case h_2 => cases h

theorem follows_step {log : List PowAttempt} (h : Follows cfg s log)
    (hstep : serve cfg client body s e = some s') :
    Follows cfg s' (log ++ (attemptOf cfg client e).toList) := by
  obtain ⟨t, ev⟩ := e
  obtain ⟨htime, hnow, hserver⟩ := serve_eq_some hstep
  have hlater : WindowsTrack cfg.difficulty t s.server.windows log := h.later htime
  show WindowsTrack cfg.difficulty s'.now s'.server.windows _
  rw [hnow]
  cases ev with
  | attempt ipHash subnetHash =>
      rw [← Option.some.inj hserver]
      exact hlater.recorded ipHash subnetHash
  | issue ipHash subnetHash =>
      rw [← Option.some.inj hserver]
      simpa [attemptOf] using hlater.asked ipHash subnetHash
  | write tables =>
      rw [← Option.some.inj hserver]
      simpa [attemptOf] using hlater
  | post r =>
      rw [(serveEvent_post hserver).2]
      cases hc : counted cfg r with
      | true => simpa [attemptOf, hc] using hlater.recorded client.powIp client.subnetHash
      | false => simpa [attemptOf, hc] using hlater

theorem follows_run {now : ℚ} {tables : Tables}
    (h : run (serve cfg client body) (.start now tables) es = some s) :
    Follows cfg s (es.filterMap (attemptOf cfg client)) := by
  have hstart : Follows cfg (.start now tables) [] := WindowsTrack.new now
  have hrun := run_history (attemptOf cfg client) (Follows cfg) (fun _ _ _ _ => follows_step) hstart h
  simpa using hrun

/-- The same tables, at an earlier clock. -/
def Shadow (s q : Served) : Prop := q.server.tables = s.server.tables ∧ q.now ≤ s.now

theorem shadow_keep (hkeep : notPost e = true) (h : Shadow s q)
    (hstep : serve cfg client body s e = some s') :
    ∃ q', serve cfg client body q e = some q' ∧ Shadow s' q' := by
  obtain ⟨t, ev⟩ := e
  obtain ⟨htime, hnow, hserver⟩ := serve_eq_some hstep
  have hq : ¬ t < q.now := not_lt.mpr (h.2.trans htime)
  simp only [serve, hq, if_false]
  cases ev with
  | attempt ipHash subnetHash =>
      refine ⟨_, rfl, ?_, le_of_eq hnow.symm⟩
      rw [← Option.some.inj hserver]
      exact h.1
  | issue ipHash subnetHash =>
      refine ⟨_, rfl, ?_, le_of_eq hnow.symm⟩
      rw [← Option.some.inj hserver]
      exact h.1
  | write tables =>
      refine ⟨_, rfl, ?_, le_of_eq hnow.symm⟩
      rw [← Option.some.inj hserver]
  | post r => simp [notPost, ServerEvent.isPost] at hkeep

theorem shadow_drop (hdrop : notPost e = false) (h : Shadow s q)
    (hstep : serve cfg client body s e = some s') : Shadow s' q := by
  obtain ⟨t, ev⟩ := e
  obtain ⟨htime, hnow, hserver⟩ := serve_eq_some hstep
  cases ev with
  | post r =>
      refine ⟨h.1.trans (serveEvent_post hserver).1.symm, ?_⟩
      rw [hnow]
      exact h.2.trans htime
  | _ => simp [notPost, ServerEvent.isPost] at hdrop

/-! ## Counts with and without the posts -/

/-- How many counted posts are in the window at `t`. -/
def postsInWindow (cfg : ClaimConfig) (t : ℚ) (es : List (ℚ × ServerEvent)) : Nat :=
  countSince (t - cfg.difficulty.reqWindowMs) (countedPosts cfg es)

/-- A kind of attempt that all of the client's posts belong to, or none. -/
theorem inWindow_posts {p : PowAttempt → Bool} {b : Bool}
    (hp : ∀ t, p ⟨client.powIp, client.subnetHash, t⟩ = b) (t : ℚ) (es : List (ℚ × ServerEvent)) :
    inWindow cfg.difficulty t p (es.filterMap (attemptOf cfg client)) =
      inWindow cfg.difficulty t p (otherAttempts cfg client es) +
        if b then postsInWindow cfg t es else 0 := by
  induction es with
  | nil => cases b <;> rfl
  | cons e es ih =>
      obtain ⟨u, ev⟩ := e
      have hcons (a : PowAttempt) (l : List PowAttempt) : inWindow cfg.difficulty t p (a :: l) =
          (if p a = true ∧ t - cfg.difficulty.reqWindowMs ≤ a.madeAt then 1 else 0) +
            inWindow cfg.difficulty t p l := by
        by_cases hpa : p a = true <;> simp [inWindow, timesOf, countSince, hpa, List.countP_cons, Nat.add_comm]
      simp only [otherAttempts, postsInWindow, countedPosts] at ih ⊢
      cases ev with
      | attempt ipHash subnetHash =>
          simp [notPost, ServerEvent.isPost, attemptOf, hcons, ih, Nat.add_assoc]
      | issue ipHash subnetHash =>
          simpa [notPost, ServerEvent.isPost, attemptOf, List.filterMap_cons] using ih
      | write tables => simpa [notPost, ServerEvent.isPost, attemptOf, List.filterMap_cons] using ih
      | post r =>
          cases hc : counted cfg r with
          | false => simpa [notPost, ServerEvent.isPost, attemptOf, hc] using ih
          | true =>
              cases b with
              | false => simpa [notPost, ServerEvent.isPost, attemptOf, hc, hcons, hp] using ih
              | true =>
                  simp [notPost, ServerEvent.isPost, attemptOf, hc, hcons, hp, ih, countSince,
                    List.countP_cons]
                  omega

/-! ## When the next challenge is the same -/

theorem pressure_mono (d : DifficultyConfig) {a b : Nat} (h : a ≤ b) : pressure d a ≤ pressure d b := by
  unfold pressure
  split_ifs <;> omega

/-- What `c` more attempts of one client add to what the counts ask for. -/
theorem wantedBits_add (d : DifficultyConfig) {mine range range' all c : Nat}
    (hrange : range' = range + c ∨ range = 0 ∧ range' = 0) :
    wantedBits d (mine + c) range' (all + c) =
      wantedBits d mine range all + (c * d.escalateBits + (pressure d (all + c) - pressure d all)) := by
  have hrepeats : max (mine + c) range' = max mine range + c := by omega
  have hpressure : pressure d all ≤ pressure d (all + c) := pressure_mono d (Nat.le_add_right _ _)
  rw [wantedBits, wantedBits, hrepeats, Nat.add_mul]
  omega

theorem min_add_eq_iff {ceiling wanted more : Nat} :
    min ceiling (wanted + more) = min ceiling wanted ↔ ceiling ≤ wanted ∨ more = 0 := by
  omega

/-- They leave the difficulty alone exactly when there are none, the
ceiling was reached without them, or escalation is off and they do not
raise the pressure. -/
theorem difficultyOf_add_eq_iff (d : DifficultyConfig) {mine range range' all c : Nat}
    (hrange : range' = range + c ∨ range = 0 ∧ range' = 0) :
    difficultyOf d (mine + c) range' (all + c) = difficultyOf d mine range all ↔
      c = 0 ∨ ceilingBits d ≤ wantedBits d mine range all ∨
        d.escalateBits = 0 ∧ pressure d (all + c) = pressure d all := by
  have hpressure : pressure d all ≤ pressure d (all + c) := pressure_mono d (Nat.le_add_right _ _)
  rw [difficultyOf, difficultyOf, wantedBits_add d hrange, min_add_eq_iff]
  constructor
  · rintro (hceiling | hmore)
    · exact .inr (.inl hceiling)
    · have hzero : c * d.escalateBits = 0 := by omega
      have hsame : pressure d (all + c) = pressure d all := by omega
      rcases Nat.mul_eq_zero.mp hzero with hc | he
      · exact .inl hc
      · exact .inr (.inr ⟨he, hsame⟩)
  · rintro (hc | hceiling | ⟨he, hsame⟩)
    · subst hc
      simp
    · exact .inl hceiling
    · right
      rw [he, hsame]
      simp

/-- The same tables, the same verdict on the body before it expires, and
the same difficulty at the client's next challenge. -/
def CostsNothing (cfg : ClaimConfig) (client : Client) (body : ClaimBody) (t : ℚ) (served quiet : Served) :
    Prop :=
  served.server.tables = quiet.server.tables ∧
    (∀ s, body.pow = some s → ∀ clockMs clockMs', unixSeconds clockMs ≤ s.exp →
      unixSeconds clockMs' ≤ s.exp →
      verifySolution cfg.difficulty.pow clockMs s client.powIp =
        verifySolution cfg.difficulty.pow clockMs' s client.powIp) ∧
    (difficultyFor cfg.difficulty client.powIp client.subnetHash t served.server.windows).1 =
      (difficultyFor cfg.difficulty client.powIp client.subnetHash t quiet.server.windows).1

/-- The bits everybody else's attempts ask of the client at `t`. -/
def quietBits (cfg : ClaimConfig) (client : Client) (t : ℚ) (es : List (ℚ × ServerEvent)) : Nat :=
  let log := otherAttempts cfg client es
  wantedBits cfg.difficulty (inWindow cfg.difficulty t (byIp client.powIp) log)
    (inWindow cfg.difficulty t (byRange client.subnetHash) log) (inWindow cfg.difficulty t byAny log)

def quietPressure (cfg : ClaimConfig) (client : Client) (t : ℚ) (es : List (ℚ × ServerEvent)) (posts : Nat) :
    Nat :=
  pressure cfg.difficulty (inWindow cfg.difficulty t byAny (otherAttempts cfg client es) + posts)

/-- No counted post is in the window any more, or the challenge is at its
ceiling without them, or escalation is off and the pressure stays. -/
def Harmless (cfg : ClaimConfig) (client : Client) (t : ℚ) (es : List (ℚ × ServerEvent)) : Prop :=
  postsInWindow cfg t es = 0 ∨ ceilingBits cfg.difficulty ≤ quietBits cfg client t es ∨
    cfg.difficulty.escalateBits = 0 ∧
      quietPressure cfg client t es (postsInWindow cfg t es) = quietPressure cfg client t es 0

theorem difficulty_eq_iff {served quiet : Served} {t : ℚ}
    (hserved : Follows cfg served (es.filterMap (attemptOf cfg client))) (ht : served.now ≤ t)
    (hquiet : Follows cfg quiet (otherAttempts cfg client es)) (hqt : quiet.now ≤ t) :
    (difficultyFor cfg.difficulty client.powIp client.subnetHash t served.server.windows).1 =
      (difficultyFor cfg.difficulty client.powIp client.subnetHash t quiet.server.windows).1 ↔
      Harmless cfg client t es := by
  have hmine := @inWindow_posts cfg client (byIp client.powIp) true (fun _ => by simp [byIp]) t es
  have hall := @inWindow_posts cfg client byAny true (fun _ => rfl) t es
  have hsubnet (u : ℚ) : byRange client.subnetHash ⟨client.powIp, client.subnetHash, u⟩ =
      (orNull client.subnetHash).isSome := by
    cases h : orNull client.subnetHash <;> simp [byRange, bySubnet, h]
  have hrange := @inWindow_posts cfg client _ _ hsubnet t es
  simp only [if_true] at hmine hall
  rw [(hserved.later ht).difficultyFor_eq, (hquiet.later hqt).difficultyFor_eq, hmine, hall]
  refine difficultyOf_add_eq_iff cfg.difficulty ?_
  rcases Option.eq_none_or_eq_some (orNull client.subnetHash) with hsub | ⟨subnet, hsub⟩
  · have hnone : byRange client.subnetHash = fun _ => false := by
      funext a
      simp [byRange, hsub]
    right
    simp [hnone, inWindow, timesOf]
  · left
    simpa [hsub] using hrange

/-- A run of refusals of ours costs the client nothing exactly when it is
harmless. -/
theorem refusals_cost_nothing_iff {now : ℚ} {tables : Tables} {served : Served}
    (h : run (serve cfg client body) (.start now tables) es = some served) {t : ℚ} (ht : served.now ≤ t) :
    ∃ quiet, run (serve cfg client body) (.start now tables) (es.filter notPost) = some quiet ∧
      (CostsNothing cfg client body t served quiet ↔ Harmless cfg client t es) := by
  have hstart : Shadow (.start now tables) (.start now tables) := ⟨rfl, le_rfl⟩
  obtain ⟨quiet, hquiet, hshadow⟩ := run_erase notPost Shadow (fun _ _ _ _ => shadow_keep)
    (fun _ _ _ _ => shadow_drop) hstart h
  refine ⟨quiet, hquiet, ?_⟩
  have hiff := difficulty_eq_iff (follows_run h) ht (follows_run hquiet) (hshadow.2.trans ht)
  constructor
  · intro hcosts
    exact hiff.mp hcosts.2.2
  · intro hharmless
    exact ⟨hshadow.1.symm, fun s _ _ _ hlive hlive' => verifySolution_clock hlive hlive', hiff.mpr hharmless⟩

/-! ## A node that does not answer -/

/-- 20 bits to begin with, two more for each attempt of the last hour. -/
def stockClaims : ClaimConfig where
  route := stockRoute
  difficulty :=
    { pow := { hashingPow with baseBits := 20, maxBits := 26 }
      baseBits := 20
      maxBits := 26
      escalateBits := 2
      ttlSeconds := 600
      reqWindowMs := 3600000
      base_eq := rfl
      max_eq := rfl }
  challenge := true

def visitor : Client := ⟨some (js "visitor"), some (js "range")⟩

/-- A solution of a challenge that the visitor was issued. -/
def solvedBody : ClaimBody :=
  ⟨.taz, some ⟨js "5eed", 20, 1800000600, js "067545c5ac3c84721308cba2c7128a1924efc4b9b126f0731e76ce5823e96c23",
    js "946854"⟩⟩

/-- The wallet answers its balance and not its heights. -/
def silentNode : GateReadings where
  draining := false
  sends := readSendHealth 900000 1800000000000 [] .taz
  balance := some 500000000
  node := none
  tip := some (4349928 : ℚ)
  ctazServes := false

/-- One claim and the two silent retries of the page. -/
def silentRetries : List (ℚ × ServerEvent) :=
  [(1800000000000, .post silentNode), (1800000006000, .post silentNode), (1800000012000, .post silentNode)]

/-- A process that is restarting, before the gates that look at the proof. -/
def restarting : GateReadings := { silentNode with draining := true }

theorem refusals_cost_nothing_iff_restarting :
    ∃ served quiet,
      run (serve stockClaims visitor solvedBody) (.start 0 ⟨.empty, []⟩) [(5000, .post restarting)] = some served ∧
      run (serve stockClaims visitor solvedBody) (.start 0 ⟨.empty, []⟩)
        ([(5000, .post restarting)].filter notPost) = some quiet ∧
      CostsNothing stockClaims visitor solvedBody 9000 served quiet := by
  have hnow : (run (serve stockClaims visitor solvedBody) (.start 0 ⟨.empty, []⟩)
      [(5000, .post restarting)]).map Served.now = some 5000 := by decide +kernel
  obtain ⟨served, hserved, hat⟩ := Option.map_eq_some_iff.mp hnow
  obtain ⟨quiet, hquiet, hiff⟩ := refusals_cost_nothing_iff hserved
    (show served.now ≤ 9000 by rw [hat]; norm_num)
  exact ⟨served, quiet, hserved, hquiet, hiff.mpr (.inl (by decide +kernel))⟩

/-- The page posts the body three times for one claim of the visitor, each
time our node does not answer, and the next challenge is five bits harder. -/
theorem silent_retries_escalate :
    ((freshnessGate stockRoute .taz silentNode).bind fun r => silentRetryWaitSeconds r 0) = some 5 ∧
    ((freshnessGate stockRoute .taz silentNode).bind fun r => silentRetryWaitSeconds r 1) = some 5 ∧
    ∃ served quiet,
      run (serve stockClaims visitor solvedBody) (.start 1800000000000 ⟨.empty, []⟩) silentRetries = some served ∧
      run (serve stockClaims visitor solvedBody) (.start 1800000000000 ⟨.empty, []⟩)
        (silentRetries.filter notPost) = some quiet ∧
      (difficultyFor stockClaims.difficulty visitor.powIp visitor.subnetHash 1800000060000
        served.server.windows).1 = 25 ∧
      (difficultyFor stockClaims.difficulty visitor.powIp visitor.subnetHash 1800000060000
        quiet.server.windows).1 = 20 ∧
      ¬ CostsNothing stockClaims visitor solvedBody 1800000060000 served quiet := by
  have hserved : (run (serve stockClaims visitor solvedBody) (.start 1800000000000 ⟨.empty, []⟩)
      silentRetries).map (fun s => (difficultyFor stockClaims.difficulty visitor.powIp visitor.subnetHash
        1800000060000 s.server.windows).1) = some 25 := by decide +kernel
  have hquiet : (run (serve stockClaims visitor solvedBody) (.start 1800000000000 ⟨.empty, []⟩)
      (silentRetries.filter notPost)).map (fun s => (difficultyFor stockClaims.difficulty visitor.powIp
        visitor.subnetHash 1800000060000 s.server.windows).1) = some 20 := by decide +kernel
  refine ⟨by decide +kernel, by decide +kernel, ?_⟩
  obtain ⟨served, hrun, hbits⟩ := Option.map_eq_some_iff.mp hserved
  obtain ⟨quiet, hrun', hbits'⟩ := Option.map_eq_some_iff.mp hquiet
  refine ⟨served, quiet, hrun, hrun', hbits, hbits', ?_⟩
  intro hcosts
  have hsame := hcosts.2.2
  rw [hbits, hbits'] at hsame
  cases hsame

end ZcashFaucet.Api
