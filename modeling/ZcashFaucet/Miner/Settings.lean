/-
ZcashFaucet.Miner.Settings — the miner's configuration: `load_config`.

The environment is what `env::var` gives for a name. What the miner is started
with carries the bounds that are checked here: no environment starts it with
more threads than the service unit has memory for, or with a lag that would
let it mine on a node that was left behind.
-/
import ZcashFaucet.Lib.ParseUnsigned
import ZcashFaucet.Miner.Mining

namespace ZcashFaucet.Miner

open Lib

/-- MAX_THREADS. -/
def maxThreads : Nat := 4

/-- `sync::MAX_LAG_CEILING`. -/
def maxLagCeiling : UInt64 := 500

/-- `sync::DEFAULT_MAX_LAG`. -/
def defaultMaxLag : UInt64 := 100

structure Settings where
  rpcUrl : String
  cookiePath : String
  threads : { n : Nat // n ≠ 0 ∧ n ≤ maxThreads }
  mode : Mode
  pollSecs : UInt64
  templateSecs : UInt64
  maxLag : { n : UInt64 // n ≠ 0 ∧ n ≤ maxLagCeiling }

/-- What `mine_once` reads of it besides the search. -/
def Settings.config (s : Settings) : Config := ⟨s.mode, s.maxLag⟩

def Mode.settingText : Mode → String
  | .proposal => "proposal"
  | .submit => "submit"

variable (env : String → Option String)

def envOr (key default : String) : String := (env key).getD default

/-- `env_or(key, default).parse().map_err(|e| format!("{key}: {e}"))`. -/
def parseSetting (max : Nat) (key default : String) : Except String Nat :=
  match parseUnsigned max (envOr env key default).toList with
  | .ok n => .ok n
  | .error e => .error (key ++ ": " ++ e.text)

def loadMode : Except String Mode :=
  let text := envOr env "MINER_MODE" "proposal"
  if text = "proposal" then .ok .proposal
  else if text = "submit" then .ok .submit
  else .error s!"MINER_MODE must be proposal or submit, got '{text}'"

def checkThreads (n : Nat) : Except String { n : Nat // n ≠ 0 ∧ n ≤ maxThreads } :=
  if h : n ≠ 0 ∧ n ≤ maxThreads then .ok ⟨n, h⟩
  else
    .error s!"MINER_THREADS must be 1..={maxThreads}, got {n}. Each solver thread holds ~144 MB and the service unit caps MemoryMax=1G, so a higher count would be cgroup-killed in a restart loop instead of failing here. Raise both together if you really want more (CPUQuota=150% makes past 2 pointless anyway)."

def checkMaxLag (n : UInt64) : Except String { n : UInt64 // n ≠ 0 ∧ n ≤ maxLagCeiling } :=
  if h : n ≠ 0 ∧ n ≤ maxLagCeiling then .ok ⟨n, h⟩
  else
    .error s!"MINER_MAX_LAG must be 1..={maxLagCeiling}, got {n}. There is no off switch: a miner that works on a node that is behind extends a private fork with our own blocks, which is what happened on 2026-09-07."

/-- `usize::MAX` and `u64::MAX`. -/
def maxU64 : Nat := 2 ^ 64 - 1

def loadConfig : Except String Settings := do
  let mode ← loadMode env
  let threads ← parseSetting env maxU64 "MINER_THREADS" "1"
  let threads ← checkThreads threads
  let pollSecs ← parseSetting env maxU64 "MINER_POLL_SECS" "5"
  let templateSecs ← parseSetting env maxU64 "MINER_TEMPLATE_SECS" "60"
  let maxLag ← parseSetting env maxU64 "MINER_MAX_LAG" (toString defaultMaxLag)
  let maxLag ← checkMaxLag (UInt64.ofNat maxLag)
  return {
    rpcUrl := envOr env "MINER_RPC_URL" "http://127.0.0.1:18232"
    cookiePath := envOr env "MINER_COOKIE_PATH" "/var/run/auth/.cookie"
    threads := threads
    mode := mode
    pollSecs := UInt64.ofNat pollSecs
    templateSecs := UInt64.ofNat templateSecs
    maxLag := maxLag }

/-! ## Which environments start the miner -/

theorem bind_ok_iff {α β : Type} {x : Except String α} {f : α → Except String β} {b : β} :
    (x >>= f) = .ok b ↔ ∃ a, x = .ok a ∧ f a = .ok b := by
  cases x with
  | error e => exact ⟨nofun, fun h => nomatch h.choose_spec.1⟩
  | ok a =>
    refine ⟨fun h => ⟨a, rfl, h⟩, fun h => ?_⟩
    obtain ⟨a', ha, hf⟩ := h
    rw [Except.ok.inj ha]
    exact hf

theorem parseSetting_ok_iff {max n : Nat} (key default : String) :
    parseSetting env max key default = .ok n ↔ IsNumeral (envOr env key default).toList n ∧ n ≤ max := by
  rw [← parseUnsigned_ok_iff, parseSetting]
  cases parseUnsigned max (envOr env key default).toList <;> simp

theorem loadMode_ok_iff {mode : Mode} :
    loadMode env = .ok mode ↔ envOr env "MINER_MODE" "proposal" = mode.settingText := by
  unfold loadMode
  dsimp only
  split
  case isTrue hproposal =>
    rw [hproposal]
    cases mode <;> simp [Mode.settingText]
  case isFalse hproposal =>
    split
    case isTrue hsubmit =>
      rw [hsubmit]
      cases mode <;> simp [Mode.settingText]
    case isFalse hsubmit =>
      refine ⟨nofun, fun h => ?_⟩
      cases mode with
      | proposal => exact absurd h hproposal
      | submit => exact absurd h hsubmit

theorem checkThreads_ok_iff {n : Nat} {threads : { n : Nat // n ≠ 0 ∧ n ≤ maxThreads }} :
    checkThreads n = .ok threads ↔ n = threads := by
  unfold checkThreads
  split
  case isTrue h => exact ⟨fun heq => by cases heq; rfl, fun heq => by subst heq; rfl⟩
  case isFalse h => exact ⟨nofun, fun heq => absurd (heq ▸ threads.2) h⟩

theorem checkMaxLag_ok_iff {n : UInt64} {maxLag : { n : UInt64 // n ≠ 0 ∧ n ≤ maxLagCeiling }} :
    checkMaxLag n = .ok maxLag ↔ n = maxLag := by
  unfold checkMaxLag
  split
  case isTrue h => exact ⟨fun heq => by cases heq; rfl, fun heq => by subst heq; rfl⟩
  case isFalse h => exact ⟨nofun, fun heq => absurd (heq ▸ maxLag.2) h⟩

/-- A number in range, and the machine integer it becomes. -/
theorem numeral_ofNat_iff {text : List Char} {u : UInt64} :
    (∃ n, (IsNumeral text n ∧ n ≤ maxU64) ∧ UInt64.ofNat n = u) ↔ IsNumeral text u.toNat := by
  refine ⟨fun h => ?_, fun h => ⟨u.toNat, ⟨h, Nat.le_sub_one_of_lt u.toNat_lt⟩, UInt64.ofNat_toNat⟩⟩
  obtain ⟨n, ⟨hnumeral, hn⟩, rfl⟩ := h
  rwa [UInt64.toNat_ofNat_of_lt' (Nat.lt_of_le_sub_one (by decide) hn)]

/-- The environments the miner starts in, and what with: the mode is spelled
out, the four numbers are numerals of 64-bit integers, and the threads and
the lag are within their bounds, which are part of the settings. Every other
environment is refused. -/
theorem loadConfig_ok_iff (s : Settings) :
    loadConfig env = .ok s ↔
      envOr env "MINER_MODE" "proposal" = s.mode.settingText ∧
        IsNumeral (envOr env "MINER_THREADS" "1").toList s.threads ∧
        IsNumeral (envOr env "MINER_POLL_SECS" "5").toList s.pollSecs.toNat ∧
        IsNumeral (envOr env "MINER_TEMPLATE_SECS" "60").toList s.templateSecs.toNat ∧
        IsNumeral (envOr env "MINER_MAX_LAG" "100").toList s.maxLag.1.toNat ∧
        envOr env "MINER_RPC_URL" "http://127.0.0.1:18232" = s.rpcUrl ∧
        envOr env "MINER_COOKIE_PATH" "/var/run/auth/.cookie" = s.cookiePath := by
  have hdefault : toString defaultMaxLag = "100" := rfl
  have hthreads : IsNumeral (envOr env "MINER_THREADS" "1").toList s.threads ↔
      ∃ n, (IsNumeral (envOr env "MINER_THREADS" "1").toList n ∧ n ≤ maxU64) ∧ n = s.threads := by
    have hle : (s.threads : Nat) ≤ maxU64 := s.threads.2.2.trans (by decide)
    exact ⟨fun h => ⟨s.threads, ⟨h, hle⟩, rfl⟩, fun h => by obtain ⟨n, hn, rfl⟩ := h; exact hn.1⟩
  rw [hthreads, ← numeral_ofNat_iff, ← numeral_ofNat_iff, ← numeral_ofNat_iff, loadConfig, hdefault]
  simp only [bind_ok_iff, loadMode_ok_iff, parseSetting_ok_iff, checkThreads_ok_iff, checkMaxLag_ok_iff]
  refine ⟨?_, ?_⟩
  · rintro ⟨mode, hmode, n, hn, threads, hnthreads, poll, hpoll, template, htemplate, lag, hlag, maxLag, hmaxLag, heq⟩
    obtain rfl := Except.ok.inj heq
    exact ⟨hmode, ⟨n, hn, hnthreads⟩, ⟨poll, hpoll, rfl⟩, ⟨template, htemplate, rfl⟩, ⟨lag, hlag, hmaxLag⟩, rfl, rfl⟩
  · rintro ⟨hmode, ⟨n, hn, hnthreads⟩, ⟨poll, hpoll, hpollSecs⟩, ⟨template, htemplate, htemplateSecs⟩,
      ⟨lag, hlag, hmaxLag⟩, hurl, hcookie⟩
    refine ⟨s.mode, hmode, n, hn, s.threads, hnthreads, poll, hpoll, template, htemplate, lag, hlag, s.maxLag, hmaxLag,
      ?_⟩
    rw [hpollSecs, htemplateSecs, hurl, hcookie]
    rfl

end ZcashFaucet.Miner
