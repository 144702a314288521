/-
ZcashFaucet.Miner.Calls — the calls a miner makes to its node, in order:
`sync_guard` and `mine_once` with the requests they send.

The node answers as it likes, knowing everything it was asked before: it is a
function of the calls so far. A turn is told by the node what `Answers` tells
it in `Miner.Mining`, and `mineCalls_spec` says that it does with that what
`mineOnce` does.

What is shown of the calls holds of any number of turns: nothing is submitted
but a block the node has just accepted as a proposal and whose chain was
looked at again after that. The watcher's reads of the tip are the search's,
and not in this list.
-/
import Mathlib.Data.List.Induction
import ZcashFaucet.Miner.Settings

namespace ZcashFaucet.Miner

open Lib

/-! ## Calls -/

/-- A request, by its method and parameters. A block goes as its hex. -/
inductive Call
  | getblockchaininfo
  | getpeerinfo
  | getblocktemplate
  | proposal (blockHex : List Char)
  | submitblock (blockHex : List Char)
  deriving DecidableEq

/-- The calls so far, each with its reply. -/
abbrev Calls := List (Call × Except String Value)

/-- The node's side: what it replies to a call, after the calls before. -/
abbrev Node := Calls → Call → Except String Value

/-- `rpc.call`. -/
def ask (node : Node) (c : Call) (calls : Calls) : Calls × Except String Value :=
  (calls ++ [(c, node calls c)], node calls c)

/-- What the search of a turn comes to. -/
structure Searched where
  abandon : Bool
  found : Option (Vector UInt8 32 × Vec UInt8)

/-- `sync_guard`. -/
def guardCalls (node : Node) (maxLag : UInt64) (calls : Calls) :
    Calls × List Recorded × Except String (Option String) :=
  match ask node .getblockchaininfo calls with
  | (calls, .error e) => (calls, [.error .getblockchaininfo], .error e)
  | (calls, .ok info) =>
    match verdict info maxLag with
    | .error e => (calls, [.error .syncstate], .error e)
    | .ok _ =>
      match ask node .getpeerinfo calls with
      | (calls, .error e) => (calls, [.error .getpeerinfo], .error e)
      | (calls, .ok peers) => (calls, syncGuard maxLag ⟨.ok info, .ok peers⟩)

variable (crates : Crates) (config : Config) (node : Node)

/-- The guard again, and the submit. -/
def submitCalls (t : Template) (blockHex : List Char) (calls : Calls) :
    Calls × List Recorded × Except String Outcome :=
  match guardCalls node config.maxLag calls with
  | (calls, rs, .error e) => (calls, rs ++ [.discarded], .error e)
  | (calls, rs, .ok (some why)) => (calls, rs ++ [.discarded], .ok (.waiting why))
  | (calls, rs, .ok none) =>
    match ask node (.submitblock blockHex) calls with
    | (calls, .error e) => (calls, rs ++ [.error .submitblock], .error e)
    | (calls, .ok submitted) =>
      if submitted.isNull then (calls, rs, .ok (.accepted t.height))
      else (calls, rs, .ok (.rejected t.height (crates.display submitted)))

/-- `mine_once` after `g.solved()`. -/
def settleCalls (t : Template) (solved : Header) (calls : Calls) : Calls × List Recorded × Except String Outcome :=
  match serializeBlock crates.hex solved t with
  | .error e => (calls, [], .error e)
  | .ok block =>
    match ask node (.proposal (hexChars block)) calls with
    | (calls, .error e) => (calls, [.error .proposal], .error e)
    | (calls, .ok said) =>
      if !said.isNull then
        (calls, [], .ok (.rejected t.height (js "proposal check said " ++ crates.display said)))
      else if config.mode = .proposal then (calls, [], .ok (.proposalValid t.height))
      else submitCalls crates config node t (hexChars block) calls

/-- `mine_once` with a template in hand. -/
def solveCalls (search : Template → Searched) (t : Template) (calls : Calls) :
    Calls × List Recorded × Except String Outcome :=
  match expandTarget crates.hex t.bits with
  | .error e => (calls, [], .error e)
  | .ok _ =>
    match Header.fromTemplate crates.hex t with
    | .error e => (calls, [], .error e)
    | .ok header =>
      if (search t).abandon then (calls, [.abandoned], .ok (.noSolution t.height))
      else
        match (search t).found with
        | none => (calls, [], .ok (.noSolution t.height))
        | some (nonce, solution) =>
          match settleCalls crates config node t { header with nonce := nonce, solution := solution } calls with
          | (calls, rs, result) => (calls, .solved :: rs, result)

/-- `mine_once`. -/
def mineCalls (search : Template → Searched) (calls : Calls) : Calls × List Recorded × Except String Outcome :=
  match guardCalls node config.maxLag calls with
  | (calls, rs, .error e) => (calls, rs, .error e)
  | (calls, rs, .ok (some why)) => (calls, rs, .ok (.waiting why))
  | (calls, rs, .ok none) =>
    match ask node .getblocktemplate calls with
    | (calls, .error e) => (calls, rs ++ [.error .getblocktemplate], .error e)
    | (calls, .ok raw) =>
      match crates.fromValue raw with
      | .error e => (calls, rs, .error s!"could not parse the template: {e}")
      | .ok t =>
        match solveCalls crates config node search t calls with
        | (calls, rs', result) => (calls, rs ++ .templateOk t.height.toUInt64 :: rs', result)

/-- The turns of the main loop, and how each ended. -/
def loopCalls (searches : List (Template → Searched)) : Calls × List (Except String Outcome) :=
  searches.foldl (fun done search =>
    let turn := mineCalls crates config node search done.1
    (turn.1, done.2 ++ [turn.2.2])) ([], [])

theorem loopCalls_snoc (searches : List (Template → Searched)) (search : Template → Searched) :
    loopCalls crates config node (searches ++ [search]) =
      ((mineCalls crates config node search (loopCalls crates config node searches).1).1,
        (loopCalls crates config node searches).2 ++
          [(mineCalls crates config node search (loopCalls crates config node searches).1).2.2]) := by
  rw [loopCalls, List.foldl_append]
  rfl

/-! ## The guard -/

/-- A node fit to build on: it is no more than that far behind its own
estimate, and it has a peer. -/
def Fit (maxLag : UInt64) (info peers : Value) : Prop :=
  ∃ blocks estimated, field info "blocks" = .ok blocks ∧ field info "estimatedheight" = .ok estimated ∧
    estimated.toNat ≤ blocks.toNat + maxLag.toNat ∧ ∃ peer more, peers = .array (peer :: more)

theorem isolated_false_iff {peers : Value} :
    isolated peers = .ok false ↔ ∃ peer more, peers = .array (peer :: more) := by
  cases peers with
  | array items => cases items <;> simp [isolated]
  | _ => simp [isolated]

theorem lag_le_iff {blocks estimated maxLag : UInt64} :
    (if blocks ≤ estimated then estimated - blocks else 0) ≤ maxLag ↔
      estimated.toNat ≤ blocks.toNat + maxLag.toNat := by
  rw [UInt64.le_iff_toNat_le]
  split
  case isTrue hle =>
    have hnat := UInt64.le_iff_toNat_le.mp hle
    rw [UInt64.toNat_sub_of_le _ _ hle]
    omega
  case isFalse hlt =>
    have hnat := UInt64.lt_iff_toNat_lt.mp (UInt64.not_le.mp hlt)
    rw [UInt64.toNat_zero]
    omega

theorem verdict_mine_iff {info : Value} {maxLag : UInt64} :
    (∃ lag, verdict info maxLag = .ok (.mine lag)) ↔
      ∃ blocks estimated, field info "blocks" = .ok blocks ∧ field info "estimatedheight" = .ok estimated ∧
        estimated.toNat ≤ blocks.toNat + maxLag.toNat := by
  unfold verdict
  cases hblocks : field info "blocks" with
  | error e =>
    refine ⟨fun h => ?_, fun h => ?_⟩
    · cases h.choose_spec
    · cases h.choose_spec.choose_spec.1
  | ok blocks =>
    cases hestimated : field info "estimatedheight" with
    | error e =>
      refine ⟨fun h => ?_, fun h => ?_⟩
      · cases h.choose_spec
      · cases h.choose_spec.choose_spec.2.1
    | ok estimated =>
      have hlag := @lag_le_iff blocks estimated maxLag
      dsimp only [bind, Except.bind, pure, Except.pure]
      by_cases hbehind : (if blocks ≤ estimated then estimated - blocks else 0) > maxLag
      · rw [if_pos hbehind]
        refine ⟨fun h => ?_, fun h => ?_⟩
        · cases h.choose_spec
        · obtain ⟨blocks', estimated', hb, he, hfit⟩ := h
          rw [← Except.ok.inj hb, ← Except.ok.inj he] at hfit
          exact absurd (hlag.mpr hfit) (UInt64.not_le.mpr hbehind)
      · rw [if_neg hbehind]
        exact ⟨fun _ => ⟨blocks, estimated, rfl, rfl, hlag.mp (UInt64.not_lt.mp hbehind)⟩, fun _ => ⟨_, rfl⟩⟩

/-- The guard lets the miner go on if and only if the node is fit. -/
theorem syncGuard_none_iff {maxLag : UInt64} {info peers : Value} :
    (syncGuard maxLag ⟨.ok info, .ok peers⟩).2 = .ok none ↔ Fit maxLag info peers := by
  have hfit : Fit maxLag info peers ↔
      (∃ lag, verdict info maxLag = .ok (.mine lag)) ∧ isolated peers = .ok false := by
    rw [verdict_mine_iff, isolated_false_iff]
    constructor
    · rintro ⟨blocks, estimated, hblocks, hestimated, hlag, hpeers⟩
      exact ⟨⟨blocks, estimated, hblocks, hestimated, hlag⟩, hpeers⟩
    · rintro ⟨⟨blocks, estimated, hblocks, hestimated, hlag⟩, hpeers⟩
      exact ⟨blocks, estimated, hblocks, hestimated, hlag, hpeers⟩
  rw [hfit]
  unfold syncGuard
  dsimp only
  cases verdict info maxLag with
  | error e => simp
  | ok judged =>
    cases isolated peers with
    | error e => simp
    | ok alone => cases judged <;> cases alone <;> simp

/-! ## What is in the calls -/

def NoSubmit (calls : Calls) : Prop := ∀ c ∈ calls, ∀ blockHex, c.1 ≠ .submitblock blockHex

/-- The calls of one guard, of a fit node. -/
def GuardPassed (maxLag : UInt64) (asked : Calls) : Prop :=
  ∃ info peers, asked = [(.getblockchaininfo, .ok info), (.getpeerinfo, .ok peers)] ∧ Fit maxLag info peers

variable {crates config node}

theorem guardCalls_spec (maxLag : UInt64) (calls : Calls) :
    ∃ asked, (guardCalls node maxLag calls).1 = calls ++ asked ∧ NoSubmit asked ∧
      (∃ g, (guardCalls node maxLag calls).2 = syncGuard maxLag g) ∧
      ((guardCalls node maxLag calls).2.2 = .ok none → GuardPassed maxLag asked) := by
  unfold guardCalls ask
  cases hinfo : node calls .getblockchaininfo with
  | error e =>
    refine ⟨_, rfl, by simp [NoSubmit], ⟨⟨.error e, .error e⟩, rfl⟩, nofun⟩
  | ok info =>
    dsimp only
    cases hverdict : verdict info maxLag with
    | error e =>
      exact ⟨_, rfl, by simp [NoSubmit], ⟨⟨.ok info, .error e⟩, by simp [syncGuard, hverdict]⟩, nofun⟩
    | ok judged =>
      dsimp only
      cases hpeers : node (calls ++ [(Call.getblockchaininfo, .ok info)]) .getpeerinfo with
      | error e =>
        refine ⟨[(.getblockchaininfo, .ok info), (.getpeerinfo, .error e)], by simp, by simp [NoSubmit],
          ⟨⟨.ok info, .error e⟩, by simp [syncGuard, hverdict]⟩, nofun⟩
      | ok peers =>
        refine ⟨[(.getblockchaininfo, .ok info), (.getpeerinfo, .ok peers)], by simp, by simp [NoSubmit],
          ⟨⟨.ok info, .ok peers⟩, rfl⟩, fun hnone => ?_⟩
        exact ⟨info, peers, rfl, syncGuard_none_iff.mp hnone⟩

/-- The calls of a turn that come before its block is submitted: a guard that
passes, a template, the template's block as a proposal that is accepted, and a
guard that passes again. -/
def SubmitsAfter (crates : Crates) (config : Config) (asked : Calls) (blockHex : List Char) : Prop :=
  config.mode = .submit ∧ ∃ first raw t nonce solution bytes again,
    asked = first ++ [(.getblocktemplate, .ok raw), (.proposal blockHex, .ok .null)] ++ again ∧
      GuardPassed config.maxLag first ∧ GuardPassed config.maxLag again ∧
      crates.fromValue raw = .ok t ∧ blockOf crates.hex t nonce solution = .ok bytes ∧ blockHex = hexChars bytes

theorem isNull_iff {said : Value} : said.isNull = true ↔ said = .null := by
  cases said <;> simp [Value.isNull]

theorem NoSubmit.append {calls calls' : Calls} (h : NoSubmit calls) (h' : NoSubmit calls') :
    NoSubmit (calls ++ calls') := fun c hc => (List.mem_append.mp hc).elim (h c) (h' c)

/-- What a block's submit does with the replies of the guard and of the
submit. -/
def submitted (crates : Crates) (config : Config) (t : Template) (recheck : GuardReplies) (submit : Except String Value) :
    List Recorded × Except String Outcome :=
  match syncGuard config.maxLag recheck with
  | (rs, .error e) => (rs ++ [.discarded], .error e)
  | (rs, .ok (some why)) => (rs ++ [.discarded], .ok (.waiting why))
  | (rs, .ok none) =>
    match submit with
    | .error e => (rs ++ [.error .submitblock], .error e)
    | .ok said =>
      if said.isNull then (rs, .ok (.accepted t.height)) else (rs, .ok (.rejected t.height (crates.display said)))

def isAccepted : Except String Outcome → Bool
  | .ok (.accepted _) => true
  | _ => false

theorem submitCalls_spec (t : Template) (blockHex : List Char) (calls : Calls) :
    ∃ asked, (submitCalls crates config node t blockHex calls).1 = calls ++ asked ∧
      (∃ recheck submit, (submitCalls crates config node t blockHex calls).2 =
        submitted crates config t recheck submit) ∧
      ((NoSubmit asked ∧ ¬ isAccepted (submitCalls crates config node t blockHex calls).2.2) ∨
        ∃ again reply, asked = again ++ [(.submitblock blockHex, reply)] ∧ GuardPassed config.maxLag again ∧
          NoSubmit again ∧ (isAccepted (submitCalls crates config node t blockHex calls).2.2 = true ↔ reply = .ok .null)) := by
  obtain ⟨asked, hcalls, hquiet, ⟨g, hg⟩, hpassed⟩ := @guardCalls_spec node config.maxLag calls
  unfold submitCalls submitted
  rcases hguard : guardCalls node config.maxLag calls with ⟨calls', rs, e | _ | why⟩
  · rw [hguard] at hcalls hg
    exact ⟨asked, hcalls, ⟨g, .error e, by rw [← hg]⟩, .inl ⟨hquiet, nofun⟩⟩
  · rw [hguard] at hcalls hg hpassed
    dsimp only at hcalls
    subst hcalls
    dsimp only [ask]
    generalize node (calls ++ asked) (.submitblock blockHex) = reply
    refine ⟨asked ++ [(.submitblock blockHex, reply)], ?_, ⟨g, reply, ?_⟩,
      .inr ⟨asked, reply, rfl, hpassed rfl, hquiet, ?_⟩⟩
    · cases reply with
      | error e => simp
      | ok said => cases hnull : said.isNull <;> simp [hnull]
    · rw [← hg]
      cases reply with
      | error e => rfl
      | ok said => cases hnull : said.isNull <;> simp [hnull]
    · cases reply with
      | error e => simp [isAccepted]
      | ok said =>
        rw [Except.ok.injEq, ← isNull_iff]
        cases hnull : said.isNull <;> simp [hnull, isAccepted]
  · rw [hguard] at hcalls hg
    exact ⟨asked, hcalls, ⟨g, .error "", by rw [← hg]⟩, .inl ⟨hquiet, nofun⟩⟩

/-- What settles a block: it asks about nothing but that block, submits it
only in submit mode, accepted as a proposal and after the guard, and does
with the replies what `settleBlock` does. -/
theorem settleCalls_spec (t : Template) (solved : Header) (calls : Calls) :
    ∃ asked, (settleCalls crates config node t solved calls).1 = calls ++ asked ∧
      (∃ proposal recheck submit, ∀ a : Answers, (settleCalls crates config node t solved calls).2 =
        settleBlock crates config t solved { a with proposal := proposal, recheck := recheck, submit := submit }) ∧
      ((NoSubmit asked ∧ ¬ isAccepted (settleCalls crates config node t solved calls).2.2) ∨
        ∃ bytes again reply,
          asked = (.proposal (hexChars bytes), .ok .null) :: again ++ [(.submitblock (hexChars bytes), reply)] ∧
            config.mode = .submit ∧ GuardPassed config.maxLag again ∧ NoSubmit again ∧
            serializeBlock crates.hex solved t = .ok bytes ∧
            (isAccepted (settleCalls crates config node t solved calls).2.2 = true ↔ reply = .ok .null)) := by
  unfold settleCalls settleBlock ask
  cases hserial : serializeBlock crates.hex solved t with
  | error e => exact ⟨[], by simp, ⟨.error e, ⟨.error e, .error e⟩, .error e, fun _ => rfl⟩,
      .inl ⟨by simp [NoSubmit], nofun⟩⟩
  | ok bytes =>
    dsimp only
    cases hproposal : node calls (.proposal (hexChars bytes)) with
    | error e =>
      exact ⟨_, rfl, ⟨.error e, ⟨.error e, .error e⟩, .error e, fun _ => rfl⟩, .inl ⟨by simp [NoSubmit], nofun⟩⟩
    | ok said =>
      dsimp only
      by_cases hnull : said.isNull = true
      case neg =>
        rw [if_pos (by simpa using hnull)]
        refine ⟨_, rfl, ⟨.ok said, ⟨.error "", .error ""⟩, .error "", fun a => ?_⟩, .inl ⟨by simp [NoSubmit], nofun⟩⟩
        dsimp only
        rw [if_pos (by simpa using hnull)]
      case pos =>
        obtain rfl := isNull_iff.mp hnull
        by_cases hmode : config.mode = .proposal
        case pos =>
          rw [if_neg (by simp [hnull]), if_pos hmode]
          refine ⟨_, rfl, ⟨.ok .null, ⟨.error "", .error ""⟩, .error "", fun a => ?_⟩, .inl ⟨by simp [NoSubmit], nofun⟩⟩
          dsimp only
          rw [if_neg (by simp [hnull]), if_pos hmode]
        case neg =>
          obtain ⟨asked, hcalls, ⟨recheck, submit, hsaid⟩, hshape⟩ :=
            @submitCalls_spec crates config node t (hexChars bytes)
              (calls ++ [(.proposal (hexChars bytes), .ok .null)])
          rw [if_neg (by simp [hnull]), if_neg hmode]
          refine ⟨(.proposal (hexChars bytes), .ok .null) :: asked, ?_, ⟨.ok .null, recheck, submit, fun a => ?_⟩, ?_⟩
          · rw [hcalls]
            simp
          · rw [hsaid, submitted]
            dsimp only
            exact ((if_neg (by simp [hnull])).trans (if_neg hmode)).symm
          · rcases hshape with ⟨hquiet, hnot⟩ | ⟨again, reply, rfl, hpassed, hquiet, haccepted⟩
            · refine .inl ⟨fun c hc => ?_, hnot⟩
              rcases List.mem_cons.mp hc with rfl | hmem
              · simp
              · exact hquiet c hmem
            · refine .inr ⟨bytes, again, reply, by simp, ?_, hpassed, hquiet, rfl, haccepted⟩
              cases hm : config.mode with
              | submit => rfl
              | proposal => exact absurd hm hmode

/-- `mineOnce` with a template in hand. -/
def solveBlock (crates : Crates) (config : Config) (t : Template) (a : Answers) :
    List Recorded × Except String Outcome :=
  match seekWithin crates t a with
  | (rs, .ended result) => (rs, result)
  | (rs, .found t solved) =>
    match settleBlock crates config t solved a with
    | (rs', result) => (rs ++ .solved :: rs', result)

theorem mineOnce_of_template {a : Answers} {rs : List Recorded} {raw : Value} {t : Template}
    (hguard : syncGuard config.maxLag a.guard = (rs, .ok none)) (hraw : a.template = .ok raw)
    (ht : crates.fromValue raw = .ok t) :
    mineOnce crates config a =
      (rs ++ .templateOk t.height.toUInt64 :: (solveBlock crates config t a).1, (solveBlock crates config t a).2) := by
  unfold mineOnce seekBlock solveBlock
  simp only [hguard, hraw, ht]
  rcases seekWithin crates t a with ⟨rs', result | ⟨t', solved⟩⟩
  · rfl
  · simp

theorem solveCalls_spec (search : Template → Searched) (t : Template) (calls : Calls) :
    ∃ asked, (solveCalls crates config node search t calls).1 = calls ++ asked ∧
      (∃ proposal recheck submit, ∀ a : Answers, (solveCalls crates config node search t calls).2 =
        solveBlock crates config t
          { a with
            abandon := (search t).abandon
            found := (search t).found
            proposal := proposal
            recheck := recheck
            submit := submit }) ∧
      ((NoSubmit asked ∧ ¬ isAccepted (solveCalls crates config node search t calls).2.2) ∨
        ∃ bytes nonce solution again reply,
          asked = (.proposal (hexChars bytes), .ok .null) :: again ++ [(.submitblock (hexChars bytes), reply)] ∧
            config.mode = .submit ∧ GuardPassed config.maxLag again ∧ NoSubmit again ∧
            blockOf crates.hex t nonce solution = .ok bytes ∧
            (isAccepted (solveCalls crates config node search t calls).2.2 = true ↔ reply = .ok .null)) := by
  unfold solveCalls solveBlock seekWithin blockOf
  cases htarget : expandTarget crates.hex t.bits with
  | error e =>
    exact ⟨[], by simp, ⟨.ok .null, ⟨.error "", .error ""⟩, .error "", fun _ => rfl⟩, .inl ⟨by simp [NoSubmit], nofun⟩⟩
  | ok target =>
    cases hheader : Header.fromTemplate crates.hex t with
    | error e =>
      exact ⟨[], by simp, ⟨.ok .null, ⟨.error "", .error ""⟩, .error "", fun _ => rfl⟩, .inl ⟨by simp [NoSubmit], nofun⟩⟩
    | ok header =>
      dsimp only
      cases habandon : (search t).abandon with
      | true =>
        exact ⟨[], by simp, ⟨.ok .null, ⟨.error "", .error ""⟩, .error "", fun _ => rfl⟩, .inl ⟨by simp [NoSubmit], nofun⟩⟩
      | false =>
        cases hfound : (search t).found with
        | none =>
          exact ⟨[], by simp, ⟨.ok .null, ⟨.error "", .error ""⟩, .error "", fun _ => rfl⟩,
            .inl ⟨by simp [NoSubmit], nofun⟩⟩
        | some won =>
          obtain ⟨nonce, solution⟩ := won
          obtain ⟨asked, hcalls, ⟨proposal, recheck, submit, hsettle⟩, hshape⟩ :=
            @settleCalls_spec crates config node t
              { header with nonce := nonce, solution := solution } calls
          refine ⟨asked, hcalls, ⟨proposal, recheck, submit, fun a => ?_⟩, hshape.imp id fun h => ?_⟩
          · have ha := hsettle { a with abandon := false, found := some (nonce, solution) }
            exact congrArg (fun r : List Recorded × Except String Outcome => (.solved :: r.1, r.2)) ha
          · obtain ⟨bytes, again, reply, hasked, hmode, hpassed, hquiet, hserial, haccepted⟩ := h
            exact ⟨bytes, nonce, solution, again, reply, hasked, hmode, hpassed, hquiet, hserial, haccepted⟩

/-- A turn as it is seen from the node: it is a turn of `mineOnce`, told what
the node replied; and either it submits nothing or its calls are the guard,
the template, the proposal, the guard and the submit, and its block counts as
accepted if and only if the node accepted it. -/
theorem mineCalls_spec (search : Template → Searched) (calls : Calls) :
    ∃ asked, (mineCalls crates config node search calls).1 = calls ++ asked ∧
      (∃ a, (mineCalls crates config node search calls).2 = mineOnce crates config a) ∧
      ((NoSubmit asked ∧ ¬ isAccepted (mineCalls crates config node search calls).2.2) ∨
        ∃ before blockHex reply, asked = before ++ [(.submitblock blockHex, reply)] ∧ NoSubmit before ∧
          SubmitsAfter crates config before blockHex ∧
          (isAccepted (mineCalls crates config node search calls).2.2 = true ↔ reply = .ok .null)) := by
  obtain ⟨first, hcalls, hquiet, ⟨g, hg⟩, hpassed⟩ := @guardCalls_spec node config.maxLag calls
  unfold mineCalls
  rcases hguard : guardCalls node config.maxLag calls with ⟨calls', rs, e | _ | why⟩
  · rw [hguard] at hcalls hg
    refine ⟨first, hcalls, ⟨⟨g, .error "", false, none, .error "", g, .error ""⟩, ?_⟩, .inl ⟨hquiet, nofun⟩⟩
    simp [mineOnce, seekBlock, ← hg]
  · rw [hguard] at hcalls hg hpassed
    dsimp only at hcalls hg
    subst hcalls
    dsimp only [ask]
    generalize hreply : node (calls ++ first) .getblocktemplate = reply
    cases reply with
    | error e =>
      refine ⟨first ++ [(.getblocktemplate, .error e)], by simp,
        ⟨⟨g, .error e, false, none, .error "", g, .error ""⟩, ?_⟩, .inl ⟨hquiet.append (by simp [NoSubmit]), nofun⟩⟩
      simp [mineOnce, seekBlock, ← hg]
    | ok raw =>
      dsimp only
      cases ht : crates.fromValue raw with
      | error e =>
        refine ⟨first ++ [(.getblocktemplate, .ok raw)], by simp,
          ⟨⟨g, .ok raw, false, none, .error "", g, .error ""⟩, ?_⟩, .inl ⟨hquiet.append (by simp [NoSubmit]), nofun⟩⟩
        simp [mineOnce, seekBlock, ← hg, ht]
      | ok t =>
        obtain ⟨asked, hasked, ⟨proposal, recheck, submit, hsolve⟩, hshape⟩ :=
          @solveCalls_spec crates config node search t
            (calls ++ first ++ [(.getblocktemplate, .ok raw)])
        dsimp only
        refine ⟨first ++ (.getblocktemplate, .ok raw) :: asked, ?_,
          ⟨⟨g, .ok raw, (search t).abandon, (search t).found, proposal, recheck, submit⟩, ?_⟩, ?_⟩
        · rw [hasked]
          simp
        · rw [mineOnce_of_template hg.symm rfl ht,
            ← hsolve ⟨g, .ok raw, (search t).abandon, (search t).found, proposal, recheck, submit⟩]
        · rcases hshape with ⟨hnone, hnot⟩ | h
          · refine .inl ⟨hquiet.append fun c hc => ?_, hnot⟩
            rcases List.mem_cons.mp hc with rfl | hmem
            · simp
            · exact hnone c hmem
          · obtain ⟨bytes, nonce, solution, again, reply, rfl, hmode, hagain, hagainQuiet, hblock, haccepted⟩ := h
            refine .inr ⟨first ++ [(.getblocktemplate, .ok raw), (.proposal (hexChars bytes), .ok .null)] ++ again,
              hexChars bytes, reply, by simp, ?_, ?_, haccepted⟩
            · exact (hquiet.append (by simp [NoSubmit])).append hagainQuiet
            · exact ⟨hmode, first, raw, t, nonce, solution, bytes, again, rfl, hpassed rfl, hagain, ht, hblock, rfl⟩
  · rw [hguard] at hcalls hg
    refine ⟨first, hcalls, ⟨⟨g, .error "", false, none, .error "", g, .error ""⟩, ?_⟩, .inl ⟨hquiet, nofun⟩⟩
    simp [mineOnce, seekBlock, ← hg]

/-! ## Every turn -/

/-- Nothing was submitted but what the calls right before it speak for. -/
def AllVetted (crates : Crates) (config : Config) (calls : Calls) : Prop :=
  ∀ before blockHex reply after, calls = before ++ (.submitblock blockHex, reply) :: after →
    ∃ earlier asked, before = earlier ++ asked ∧ SubmitsAfter crates config asked blockHex

theorem AllVetted.append {calls more : Calls} (h : AllVetted crates config calls) (hmore : NoSubmit more) :
    AllVetted crates config (calls ++ more) := by
  intro before blockHex reply after heq
  rcases List.append_eq_append_iff.mp heq with ⟨rest, hbefore, hrest⟩ | ⟨rest, hcalls, hrest⟩
  · exact absurd rfl (hmore _ (hrest ▸ List.mem_append_right _ List.mem_cons_self) blockHex)
  · cases rest with
    | nil =>
      have hmem : (.submitblock blockHex, reply) ∈ more := by
        rw [← List.nil_append more, ← hrest]
        exact List.mem_cons_self
      exact absurd rfl (hmore _ hmem blockHex)
    | cons c rest =>
      obtain ⟨rfl, -⟩ := List.cons.inj hrest
      exact h before blockHex reply rest hcalls

theorem AllVetted.snoc {calls asked : Calls} {blockHex : List Char} {reply : Except String Value}
    (h : AllVetted crates config (calls ++ asked)) (hasked : SubmitsAfter crates config asked blockHex) :
    AllVetted crates config (calls ++ asked ++ [(.submitblock blockHex, reply)]) := by
  intro before blockHex' reply' after heq
  rcases List.append_eq_append_iff.mp heq with ⟨rest, hbefore, hrest⟩ | ⟨rest, hcalls, hrest⟩
  · rcases List.singleton_eq_append_iff.mp hrest with ⟨rfl, hlast⟩ | ⟨rfl, hlast⟩
    · obtain ⟨hcall, -⟩ := List.cons.inj hlast
      obtain rfl := Call.submitblock.inj (congrArg Prod.fst hcall)
      exact ⟨calls, asked, by simpa using hbefore, hasked⟩
    · cases hlast
  · cases rest with
    | nil =>
      obtain ⟨hcall, -⟩ := List.cons.inj hrest
      obtain rfl := Call.submitblock.inj (congrArg Prod.fst hcall)
      exact ⟨calls, asked, by simpa using hcalls.symm, hasked⟩
    | cons c rest =>
      obtain ⟨rfl, -⟩ := List.cons.inj hrest
      exact h before blockHex' reply' rest hcalls

/-- The node took a block. -/
def tookBlock : Call × Except String Value → Bool
  | (.submitblock _, .ok .null) => true
  | _ => false

theorem tookBlock_of_noSubmit {calls : Calls} (h : NoSubmit calls) : calls.countP tookBlock = 0 := by
  refine List.countP_eq_zero.mpr fun c hc htook => ?_
  obtain ⟨call, reply⟩ := c
  cases call with
  | submitblock blockHex => exact h _ hc blockHex rfl
  | _ => cases htook

theorem tookBlock_submit_iff {blockHex : List Char} {reply : Except String Value} :
    tookBlock (.submitblock blockHex, reply) = true ↔ reply = .ok .null := by
  cases reply with
  | error e => simp [tookBlock]
  | ok said => cases said <;> simp [tookBlock]

/-- Whatever the node replies, to whichever searches: a block is submitted in
submit mode only, as the last of six calls of its turn that end in a proposal
the node accepted and a guard it passed, and it is the block of that turn's
template. The turns that end accepted are as many as the blocks the node
took. -/
theorem submits_vetted (crates : Crates) (settings : Settings) (node : Node)
    (searches : List (Template → Searched)) :
    AllVetted crates settings.config (loopCalls crates settings.config node searches).1 ∧
      (loopCalls crates settings.config node searches).2.countP isAccepted =
        (loopCalls crates settings.config node searches).1.countP tookBlock := by
  induction searches using List.reverseRecOn with
  | nil => exact ⟨fun before _ _ _ heq => absurd heq (by simp [loopCalls]), rfl⟩
  | append_singleton searches search ih =>
    obtain ⟨hvetted, hcounts⟩ := ih
    obtain ⟨asked, hcalls, -, hshape⟩ := @mineCalls_spec crates settings.config node
      search (loopCalls crates settings.config node searches).1
    rw [loopCalls_snoc, hcalls, List.countP_append, List.countP_append, hcounts, List.countP_singleton]
    rcases hshape with ⟨hquiet, hnot⟩ | ⟨before, blockHex, reply, rfl, hquiet, hsubmits, haccepted⟩
    · refine ⟨hvetted.append hquiet, ?_⟩
      rw [tookBlock_of_noSubmit hquiet, if_neg hnot]
    · refine ⟨?_, ?_⟩
      · rw [← List.append_assoc]
        exact (hvetted.append hquiet).snoc hsubmits
      · rw [List.countP_append, tookBlock_of_noSubmit hquiet, List.countP_singleton, Nat.zero_add]
        refine congrArg _ (if_congr ?_ rfl rfl)
        rw [haccepted, tookBlock_submit_iff]

end ZcashFaucet.Miner
