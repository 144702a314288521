/-
ZcashFaucet.Miner.LifetimeTheorems — do the lifetime counts survive a
restart?

What the miner writes it reads back (`resume_render`), and within one
process the counts only grow, so the file, the body in flight and the
state of the loop stand in that order at all times (`Ordered`). A rename
moves the body in flight to the file, a start moves the file to the
state, and neither step loses anything. `Survives` says what follows for
the files of a run.
-/
import ZcashFaucet.Miner.Lifetime
import ZcashFaucet.Lib.Run

namespace ZcashFaucet.Miner

open Lib

/-! ## Counts only grow -/

theorem count_refl (v : Option UInt64) : v ≤ v := by
  cases v with
  | none => exact Option.none_le
  | some n => exact Option.some_le_some.mpr (UInt64.le_refl n)

theorem count_trans {u v w : Option UInt64} (huv : u ≤ v) (hvw : v ≤ w) : u ≤ w := by
  cases u with
  | none => exact Option.none_le
  | some l =>
      cases v with
      | none => exact absurd huv Option.not_some_le_none
      | some m =>
          cases w with
          | none => exact absurd hvw Option.not_some_le_none
          | some n =>
              rw [Option.some_le_some] at huv hvw ⊢
              exact UInt64.le_trans huv hvw

theorem le_bump (v : Option UInt64) : v ≤ bump v := by
  cases v with
  | none => exact Option.none_le
  | some n =>
      have hsucc := toNat_saturatingSucc n
      rw [bump, Option.some_le_some, UInt64.le_iff_toNat_le, Option.getD_some, hsucc]
      split <;> omega

/-- Unknown is below every count. -/
structure Counts.Le (a b : Counts) : Prop where
  solved : a.solved ≤ b.solved
  accepted : a.accepted ≤ b.accepted
  rejected : a.rejected ≤ b.rejected
  abandoned : a.abandoned ≤ b.abandoned
  discarded : a.discarded ≤ b.discarded

instance : Preorder Counts where
  le := Counts.Le
  le_refl _ := ⟨count_refl _, count_refl _, count_refl _, count_refl _, count_refl _⟩
  le_trans _ _ _ hab hbc :=
    { solved := count_trans hab.solved hbc.solved
      accepted := count_trans hab.accepted hbc.accepted
      rejected := count_trans hab.rejected hbc.rejected
      abandoned := count_trans hab.abandoned hbc.abandoned
      discarded := count_trans hab.discarded hbc.discarded }

/-- Which count an event is about. -/
def Counts.record (c : Counts) : Recorded → Counts
  | .solved => { c with solved := bump c.solved }
  | .submitted true => { c with accepted := bump c.accepted }
  | .submitted false => { c with rejected := bump c.rejected }
  | .rejected _ => { c with rejected := bump c.rejected }
  | .abandoned => { c with abandoned := bump c.abandoned }
  | .discarded => { c with discarded := bump c.discarded }
  | _ => c

theorem record_counts (now : UInt64) (s : State) (r : Recorded) :
    (s.record now r).counts = s.counts.record r := by
  cases r with
  | submitted accepted => cases accepted <;> rfl
  | _ => rfl

theorem Counts.le_record (c : Counts) (r : Recorded) : c ≤ c.record r := by
  have hsame : Counts.Le c c := le_refl c
  cases r with
  | solved => exact { hsame with solved := le_bump _ }
  | submitted accepted =>
      cases accepted with
      | true => exact { hsame with accepted := le_bump _ }
      | false => exact { hsame with rejected := le_bump _ }
  | rejected reason => exact { hsame with rejected := le_bump _ }
  | abandoned => exact { hsame with abandoned := le_bump _ }
  | discarded => exact { hsame with discarded := le_bump _ }
  | templateOk height => exact hsame
  | error stage => exact hsame
  | nodeLag lag waiting => exact hsame

/-! ## What is written is read back -/

theorem Number.ofJson_nat (n : UInt64) : Number.ofJson (.finite (n.toNat : ℚ)) = .posInt n := by
  have hlt : ((n.toNat : ℚ).num) < 2 ^ 64 := by
    rw [Rat.num_natCast]
    exact_mod_cast n.toNat_lt
  rw [Number.ofJson, if_pos ⟨Rat.den_natCast _, by simp, hlt⟩]
  simp

theorem asU64_jsonCount (v : Option UInt64) : (Value.ofJson (jsonCount v)).asU64 = v := by
  cases v with
  | none => rfl
  | some n =>
      rw [jsonCount, jsonNat, Value.ofJson, Number.ofJson_nat]
      rfl

theorem resume_render (now : UInt64) (s : State) :
    resume (some (.json (.ofJson (render now s)))) = .counts s.counts := by
  have hschema : (((Value.ofJson (render now s)).get (js "schema")).bind Value.asU64) =
      some (UInt64.ofNat schema) := asU64_jsonCount (some 1)
  have hsolved : ((Value.ofJson (render now s)).get (js "solvedCount")).bind Value.asU64 =
      s.solvedCount := asU64_jsonCount _
  have haccepted : ((Value.ofJson (render now s)).get (js "submittedAccepted")).bind Value.asU64 =
      s.submittedAccepted := asU64_jsonCount _
  have hrejected : ((Value.ofJson (render now s)).get (js "submittedRejected")).bind Value.asU64 =
      s.submittedRejected := asU64_jsonCount _
  have habandoned : ((Value.ofJson (render now s)).get (js "abandonedCount")).bind Value.asU64 =
      s.abandonedCount := asU64_jsonCount _
  have hdiscarded : ((Value.ofJson (render now s)).get (js "discardedCount")).bind Value.asU64 =
      s.discardedCount := asU64_jsonCount _
  rw [resume, if_neg (not_not.mpr hschema)]
  simp only [hsolved, haccepted, hrejected, habandoned, hdiscarded, State.counts]

/-- The counts a start would take over from what stands there. -/
def countsOn (file : Option Body) : Option Counts :=
  match resume file with
  | .counts c => some c
  | _ => none

theorem countsOn_eq_some {file : Option Body} {c : Counts} :
    countsOn file = some c ↔ resume file = .counts c := by
  rw [countsOn]
  cases resume file <;> simp

theorem countsOn_render (now : UInt64) (s : State) :
    countsOn (some (.json (.ofJson (render now s)))) = some s.counts :=
  countsOn_eq_some.mpr (resume_render now s)

/-! ## What a step can do -/

/-- The steps of a box, event by event. -/
inductive Change : Box → BoxEvent → Box → Prop
  | replaced (disk : Disk) (file : Option Body) :
      Change ⟨disk, .down⟩ (.replaced file) ⟨{ disk with file := file }, .down⟩
  | start (disk : Disk) (mode : Mode) (now beatSecs templateSecs : UInt64) :
      Change ⟨disk, .down⟩ (.start mode now beatSecs templateSecs)
        ⟨disk, .starting (resume disk.file)
          (.seeded mode now beatSecs templateSecs (resume disk.file).seed)⟩
  | spawn (disk : Disk) (resumed : Resumed) (s : State) (renames : Bool) :
      Change ⟨disk, .starting resumed s⟩ (.spawn renames)
        ⟨if resumed.isUnusable then disk.keepUnreadable renames else disk, .up s .asleep⟩
  | record (disk : Disk) (s : State) (beat : Beat) (now : UInt64) (r : Recorded) :
      Change ⟨disk, .up s beat⟩ (.record now r) ⟨disk, .up (s.record now r) beat⟩
  | snapshot (disk : Disk) (s : State) (now : UInt64) :
      Change ⟨disk, .up s .asleep⟩ (.snapshot now) ⟨disk, .up s (.rendered (render now s))⟩
  | create (disk : Disk) (s : State) (body : Json) :
      Change ⟨disk, .up s (.rendered body)⟩ .create ⟨{ disk with tmp := .torn }, .up s (.writing body)⟩
  | sync (disk : Disk) (s : State) (body : Json) :
      Change ⟨disk, .up s (.writing body)⟩ .sync ⟨{ disk with tmp := .whole body }, .up s (.synced body)⟩
  | rename (disk : Disk) (s : State) (body : Json) :
      Change ⟨disk, .up s (.synced body)⟩ .rename ⟨disk.renameTmp, .up s .asleep⟩
  | giveUp (disk : Disk) (s : State) (beat : Beat) :
      Change ⟨disk, .up s beat⟩ .giveUp ⟨disk, .up s .asleep⟩
  | crash (disk : Disk) (process : Process) : Change ⟨disk, process⟩ .crash ⟨disk, .down⟩

theorem change_of_step {b b' : Box} {e : BoxEvent} (h : b.step e = some b') : Change b e b' := by
  obtain ⟨disk, process⟩ := b
  -- the process decides whether the event is enabled, and for a write the beat
  cases e with
  | replaced file =>
      cases process <;> cases h
      exact .replaced disk file
  | start mode now beatSecs templateSecs =>
      cases process <;> cases h
      exact .start disk mode now beatSecs templateSecs
  | spawn renames =>
      cases process <;> cases h
      exact .spawn disk _ _ renames
  | record now r =>
      cases process <;> cases h
      exact .record disk _ _ now r
  | snapshot now =>
      obtain _ | _ | ⟨s, beat⟩ := process <;> [cases h; cases h; cases beat <;> cases h]
      exact .snapshot disk s now
  | create =>
      obtain _ | _ | ⟨s, beat⟩ := process <;> [cases h; cases h; cases beat <;> cases h]
      exact .create disk s _
  | sync =>
      obtain _ | _ | ⟨s, beat⟩ := process <;> [cases h; cases h; cases beat <;> cases h]
      exact .sync disk s _
  | rename =>
      obtain _ | _ | ⟨s, beat⟩ := process <;> [cases h; cases h; cases beat <;> cases h]
      exact .rename disk s _
  | giveUp =>
      cases process <;> cases h
      exact .giveUp disk _ _
  | crash =>
      cases h
      exact .crash disk process

/-! ## The file, the body in flight, the state -/

def Beat.body : Beat → Option Json
  | .asleep => none
  | .rendered body => some body
  | .writing body => some body
  | .synced body => some body

/-- The body in flight is a file of its own, between the one on the disk
and the state, and a synced one is what the rename will move. -/
structure Ranked (disk : Disk) (s : State) (beat : Beat) : Prop where
  file_le : ∀ c, countsOn disk.file = some c → c ≤ s.counts
  body_le : ∀ body, beat.body = some body → ∃ f, countsOn (some (.json (.ofJson body))) = some f ∧
    f ≤ s.counts ∧ ∀ c, countsOn disk.file = some c → c ≤ f
  tmp_whole : ∀ body, beat = .synced body → disk.tmp = .whole body

def Ordered (b : Box) : Prop :=
  match b.process with
  | .down => True
  | .starting resumed s => resumed = resume b.disk.file ∧ s.counts = resumed.seed
  | .up s beat => Ranked b.disk s beat

theorem Ranked.asleep {disk : Disk} {s : State} (h : ∀ c, countsOn disk.file = some c → c ≤ s.counts) :
    Ranked disk s .asleep :=
  ⟨h, fun _ hbody => (nomatch hbody), fun _ hbeat => (nomatch hbeat)⟩

theorem keepUnreadable_file {disk : Disk} {renames : Bool} {c : Counts}
    (h : countsOn (disk.keepUnreadable renames).file = some c) : countsOn disk.file = some c := by
  unfold Disk.keepUnreadable at h
  split at h
  · exact h
  · split at h
    · exact nomatch h
    · exact h

theorem renameTmp_whole {disk : Disk} {body : Json} (h : disk.tmp = .whole body) :
    disk.renameTmp = { disk with file := some (.json (.ofJson body)), tmp := .absent } := by
  rw [Disk.renameTmp, h]

theorem ordered_step {b b' : Box} {e : BoxEvent} (hb : Ordered b) (h : Change b e b') : Ordered b' := by
  cases h with
  | replaced disk file => exact True.intro
  | start disk mode now beatSecs templateSecs => exact ⟨rfl, rfl⟩
  | spawn disk resumed s renames =>
      obtain ⟨hresumed, hseed⟩ : resumed = resume disk.file ∧ s.counts = resumed.seed := hb
      have hfile : ∀ c, countsOn disk.file = some c → c ≤ s.counts := by
        intro c hc
        rw [hseed, hresumed, countsOn_eq_some.mp hc]
        exact le_rfl
      refine Ranked.asleep ?_
      intro c hc
      split at hc
      · exact hfile c (keepUnreadable_file hc)
      · exact hfile c hc
  | record disk s beat now r =>
      have hranked : Ranked disk s beat := hb
      have hgrows : s.counts ≤ (s.record now r).counts := by
        rw [record_counts]
        exact s.counts.le_record r
      refine ⟨fun c hc => (hranked.file_le c hc).trans hgrows, ?_, hranked.tmp_whole⟩
      intro body hbody
      obtain ⟨f, hf, hstate, hfile⟩ := hranked.body_le body hbody
      exact ⟨f, hf, hstate.trans hgrows, hfile⟩
  | snapshot disk s now =>
      have hranked : Ranked disk s .asleep := hb
      refine ⟨hranked.file_le, ?_, fun _ hbeat => nomatch hbeat⟩
      rintro body ⟨⟩
      exact ⟨s.counts, countsOn_render now s, le_rfl, hranked.file_le⟩
  | create disk s body =>
      have hranked : Ranked disk s (.rendered body) := hb
      exact ⟨hranked.file_le, hranked.body_le, fun _ hbeat => nomatch hbeat⟩
  | sync disk s body =>
      have hranked : Ranked disk s (.writing body) := hb
      refine ⟨hranked.file_le, hranked.body_le, ?_⟩
      rintro body' ⟨⟩
      rfl
  | rename disk s body =>
      have hranked : Ranked disk s (.synced body) := hb
      obtain ⟨f, hf, hstate, _⟩ := hranked.body_le body rfl
      refine Ranked.asleep ?_
      intro c hc
      rw [renameTmp_whole (hranked.tmp_whole body rfl)] at hc
      exact Option.some.inj (hf.symm.trans hc) ▸ hstate
  | giveUp disk s beat =>
      have hranked : Ranked disk s beat := hb
      exact Ranked.asleep hranked.file_le
  | crash disk process => exact True.intro

/-! ## Files of a run -/

/-- Nothing is put in the file's place. -/
def BoxEvent.undisturbed : BoxEvent → Bool
  | .replaced _ => false
  | _ => true

/-- Nor does the beat get to a rename. -/
def BoxEvent.leavesFile : BoxEvent → Bool
  | .replaced _ => false
  | .rename => false
  | _ => true

/-- The rename of the file to the name it is kept under is refused. -/
def BoxEvent.refused : BoxEvent → Bool
  | .spawn false => true
  | _ => false

/-- A readable file is not moved out of the way. -/
theorem spawn_file {disk : Disk} {resumed : Resumed} {s : State} {renames : Bool} {c : Counts}
    (hb : Ordered ⟨disk, .starting resumed s⟩) (hc : countsOn disk.file = some c) :
    (if resumed.isUnusable then disk.keepUnreadable renames else disk) = disk := by
  have hresumed : resumed = .counts c := hb.1.trans (countsOn_eq_some.mp hc)
  rw [hresumed]
  rfl

theorem file_le_step {b b' : Box} {e : BoxEvent} {c : Counts} (hb : Ordered b) (h : Change b e b')
    (he : e.undisturbed = true) (hc : countsOn b.disk.file = some c) :
    ∃ c', countsOn b'.disk.file = some c' ∧ c ≤ c' := by
  cases h with
  | replaced disk file => exact nomatch he
  | spawn disk resumed s renames =>
      refine ⟨c, ?_, le_rfl⟩
      rw [spawn_file hb hc]
      exact hc
  | rename disk s body =>
      have hranked : Ranked disk s (.synced body) := hb
      obtain ⟨f, hf, _, hfile⟩ := hranked.body_le body rfl
      refine ⟨f, ?_, hfile c hc⟩
      rw [renameTmp_whole (hranked.tmp_whole body rfl)]
      exact hf
  | _ => exact ⟨c, hc, le_rfl⟩

theorem file_eq_step {b b' : Box} {e : BoxEvent} {c : Counts} (hb : Ordered b) (h : Change b e b')
    (he : e.leavesFile = true) (hc : countsOn b.disk.file = some c) : b'.disk.file = b.disk.file := by
  cases h with
  | replaced disk file => exact nomatch he
  | rename disk s body => exact nomatch he
  | spawn disk resumed s renames =>
      rw [spawn_file hb hc]
  | _ => rfl

/-- What every step keeps of an ordered box, a run keeps. -/
theorem ordered_run {P : Box → Prop} {Q : BoxEvent → Prop}
    (hstep : ∀ q e q', Q e → Ordered q → P q → Change q e q' → P q') {b b' : Box} {es : List BoxEvent}
    (hb : Ordered b) (hP : P b) (hes : ∀ e ∈ es, Q e) (h : run Box.step b es = some b') : P b' := by
  have hrun := run_invariant_of (fun q => Ordered q ∧ P q)
    (fun q e q' he hq hs => by
      have hchange := change_of_step hs
      exact ⟨ordered_step hq.1 hchange, hstep q e q' he hq.1 hq.2 hchange⟩)
    hes ⟨hb, hP⟩ h
  exact hrun.2

theorem file_le_run {b b' : Box} {es : List BoxEvent} {c : Counts} (hb : Ordered b)
    (hes : ∀ e ∈ es, e.undisturbed = true) (h : run Box.step b es = some b')
    (hc : countsOn b.disk.file = some c) : ∃ c', countsOn b'.disk.file = some c' ∧ c ≤ c' := by
  refine ordered_run (P := fun q => ∃ c', countsOn q.disk.file = some c' ∧ c ≤ c') ?_ hb
    ⟨c, hc, le_rfl⟩ hes h
  intro q e q' he hordered hq hchange
  obtain ⟨c', hc', hle⟩ := hq
  obtain ⟨c'', hc'', hle'⟩ := file_le_step hordered hchange he hc'
  exact ⟨c'', hc'', hle.trans hle'⟩

theorem file_eq_run {b b' : Box} {es : List BoxEvent} {c : Counts} (hb : Ordered b)
    (hes : ∀ e ∈ es, e.leavesFile = true) (h : run Box.step b es = some b')
    (hc : countsOn b.disk.file = some c) : b'.disk.file = b.disk.file := by
  refine ordered_run (P := fun q => q.disk.file = b.disk.file) ?_ hb rfl hes h
  intro q e q' he hordered hfile hchange
  have hq : countsOn q.disk.file = some c := by rw [hfile, hc]
  exact (file_eq_step hordered hchange he hq).trans hfile

/-! ## A process adds what it records -/

def BoxEvent.recorded : BoxEvent → Option Recorded
  | .record _ r => some r
  | _ => none

def BoxEvent.crashes : BoxEvent → Bool
  | .crash => true
  | _ => false

theorem state_step {b b' : Box} {e : BoxEvent} {s : State} (h : Change b e b')
    (he : e.crashes = false) (hs : b.state = some s) :
    ∃ s', b'.state = some s' ∧ s'.counts = e.recorded.toList.foldl Counts.record s.counts := by
  cases h with
  | replaced disk file => exact nomatch hs
  | start disk mode now beatSecs templateSecs => exact nomatch hs
  | record disk s₀ beat now r =>
      cases hs
      exact ⟨s.record now r, rfl, record_counts now s r⟩
  | crash disk process => exact nomatch he
  | _ => exact ⟨s, hs, rfl⟩

theorem state_run : ∀ {es : List BoxEvent} {b b' : Box} {s s' : State},
    (∀ e ∈ es, e.crashes = false) → run Box.step b es = some b' → b.state = some s →
      b'.state = some s' → s'.counts = (es.filterMap BoxEvent.recorded).foldl Counts.record s.counts
  | [], b, b', s, s', _, h, hs, hs' => by
      cases h
      rw [hs] at hs'
      cases hs'
      rfl
  | e :: es, b, b', s, s', hes, h, hs, hs' => by
      obtain ⟨m, hm, hrest⟩ := Option.bind_eq_some_iff.mp h
      obtain ⟨sm, hsm, hcounts⟩ := state_step (change_of_step hm) (hes e List.mem_cons_self) hs
      have htail := state_run (fun f hf => hes f (List.mem_cons_of_mem _ hf)) hrest hsm hs'
      rw [htail, hcounts]
      cases hrec : e.recorded with
      | none => rw [List.filterMap_cons_none hrec, Option.toList_none, List.foldl_nil]
      | some r => rw [List.filterMap_cons_some hrec, Option.toList_some, List.foldl_cons, List.foldl_nil,
          List.foldl_cons]

/-! ## Unknown is not zero -/

/-- No count reads as a history without the event. -/
structure Counts.NoZero (c : Counts) : Prop where
  solved : c.solved ≠ some 0
  accepted : c.accepted ≠ some 0
  rejected : c.rejected ≠ some 0
  abandoned : c.abandoned ≠ some 0
  discarded : c.discarded ≠ some 0

theorem noZero_unknown : Counts.unknown.NoZero := by
  constructor <;> exact nofun

theorem bump_ne_zero (v : Option UInt64) : bump v ≠ some 0 := by
  intro h
  exact saturatingSucc_ne_zero _ (Option.some.inj h)

theorem Counts.NoZero.record {c : Counts} (h : c.NoZero) (r : Recorded) : (c.record r).NoZero := by
  cases r with
  | solved => exact { h with solved := bump_ne_zero _ }
  | submitted accepted =>
      cases accepted with
      | true => exact { h with accepted := bump_ne_zero _ }
      | false => exact { h with rejected := bump_ne_zero _ }
  | rejected reason => exact { h with rejected := bump_ne_zero _ }
  | abandoned => exact { h with abandoned := bump_ne_zero _ }
  | discarded => exact { h with discarded := bump_ne_zero _ }
  | templateOk height => exact h
  | error stage => exact h
  | nodeLag lag waiting => exact h

/-- No zero stands in the file, and none is on its way there. -/
structure Unzeroed (b : Box) : Prop where
  file : ∀ c, countsOn b.disk.file = some c → c.NoZero
  state : ∀ s, b.state = some s → s.counts.NoZero
  body : ∀ s beat body, b.process = .up s beat → beat.body = some body →
    ∀ c, countsOn (some (.json (.ofJson body))) = some c → c.NoZero

theorem seed_noZero {file : Option Body} (h : ∀ c, countsOn file = some c → c.NoZero) :
    (resume file).seed.NoZero := by
  cases hresume : resume file with
  | counts c => exact h c (countsOn_eq_some.mpr hresume)
  | noFile => exact noZero_unknown
  | unusable why => exact noZero_unknown

theorem unzeroed_step {b b' : Box} {e : BoxEvent} (hb : Ordered b) (hz : Unzeroed b) (h : Change b e b')
    (he : e.undisturbed = true) : Unzeroed b' := by
  cases h with
  | replaced disk file => exact nomatch he
  | start disk mode now beatSecs templateSecs =>
      refine ⟨hz.file, ?_, fun _ _ _ hup => (nomatch hup)⟩
      rintro s ⟨⟩
      exact seed_noZero hz.file
  | spawn disk resumed s renames =>
      refine ⟨?_, hz.state, ?_⟩
      · intro c hc
        refine hz.file c ?_
        split at hc
        · exact keepUnreadable_file hc
        · exact hc
      · rintro _ _ body ⟨⟩ hbody
        exact nomatch hbody
  | record disk s beat now r =>
      refine ⟨hz.file, ?_, ?_⟩
      · rintro _ ⟨⟩
        rw [record_counts]
        exact (hz.state s rfl).record r
      · rintro _ _ body ⟨⟩ hbody
        exact hz.body s beat body rfl hbody
  | snapshot disk s now =>
      refine ⟨hz.file, hz.state, ?_⟩
      rintro _ _ body ⟨⟩ ⟨⟩ c hc
      rw [countsOn_render] at hc
      exact Option.some.inj hc ▸ hz.state s rfl
  | create disk s body =>
      refine ⟨hz.file, hz.state, ?_⟩
      rintro _ _ _ ⟨⟩ hbody
      exact hz.body s _ _ rfl hbody
  | sync disk s body =>
      refine ⟨hz.file, hz.state, ?_⟩
      rintro _ _ _ ⟨⟩ hbody
      exact hz.body s _ _ rfl hbody
  | rename disk s body =>
      have hranked : Ranked disk s (.synced body) := hb
      refine ⟨?_, hz.state, ?_⟩
      · rw [renameTmp_whole (hranked.tmp_whole body rfl)]
        exact hz.body s _ body rfl rfl
      · rintro _ _ _ ⟨⟩ hbody
        exact nomatch hbody
  | giveUp disk s beat =>
      refine ⟨hz.file, hz.state, ?_⟩
      rintro _ _ _ ⟨⟩ hbody
      exact nomatch hbody
  | crash disk process => exact ⟨hz.file, fun _ hs => (nomatch hs), fun _ _ _ hup => (nomatch hup)⟩

theorem unzeroed_run {b b' : Box} {es : List BoxEvent} (hb : Ordered b) (hz : Unzeroed b)
    (hes : ∀ e ∈ es, e.undisturbed = true) (h : run Box.step b es = some b') : Unzeroed b' :=
  ordered_run (fun _ _ _ he hordered hq hchange => unzeroed_step hordered hq hchange he) hb hz hes h

/-! ## The copy set aside -/

theorem kept_step {b b' : Box} {e : BoxEvent} {body : Body} (h : Change b e b')
    (hkept : b.disk.kept = some body) : b'.disk.kept = some body := by
  cases h with
  | spawn disk resumed s renames =>
      have hsame : disk.keepUnreadable renames = disk := by
        have hkept : disk.kept = some body := hkept
        simp [Disk.keepUnreadable, hkept]
      rw [hsame, ite_self]
      exact hkept
  | rename disk s json =>
      have htmp : disk.renameTmp.kept = disk.kept := by
        unfold Disk.renameTmp
        split <;> rfl
      exact htmp.trans hkept
  | _ => exact hkept

/-- A file that no start can use still stands in its place, with nothing
set aside and no beat to write over it, or it is the copy set aside. -/
def Preserved (body : Body) (b : Box) : Prop :=
  (b.disk.file = some body ∧ b.disk.kept = none ∧
      (b.process = .down ∨ ∃ resumed s, b.process = .starting resumed s ∧ resumed.isUnusable = true)) ∨
    b.disk.kept = some body

theorem preserved_step {b b' : Box} {e : BoxEvent} {body : Body}
    (hbody : (resume (some body)).isUnusable = true) (hp : Preserved body b) (h : Change b e b')
    (he : e.undisturbed = true) (hrefused : e.refused = false) : Preserved body b' := by
  obtain ⟨hfile, hkept, hprocess⟩ | hkept := hp
  · cases h with
    | replaced disk file => exact nomatch he
    | start disk mode now beatSecs templateSecs =>
        have hunusable : (resume disk.file).isUnusable = true := by
          have hfile : disk.file = some body := hfile
          rw [hfile, hbody]
        exact .inl ⟨hfile, hkept, .inr ⟨_, _, rfl, hunusable⟩⟩
    | spawn disk resumed s renames =>
        have hfile : disk.file = some body := hfile
        have hkept : disk.kept = none := hkept
        have hunusable : resumed.isUnusable = true := by
          obtain hdown | ⟨_, _, hstarting, hunusable⟩ := hprocess
          · exact nomatch hdown
          · cases hstarting
            exact hunusable
        cases renames with
        | false => exact nomatch hrefused
        | true => exact .inr (by simp [hunusable, Disk.keepUnreadable, hfile, hkept])
    | crash disk process => exact .inl ⟨hfile, hkept, .inl rfl⟩
    -- nothing else happens before the process is up
    | _ => exact absurd hprocess (by simp)
  · exact .inr (kept_step h hkept)

theorem preserved_run {b b' : Box} {es : List BoxEvent} {body : Body}
    (hbody : (resume (some body)).isUnusable = true) (hp : Preserved body b)
    (hes : ∀ e ∈ es, e.undisturbed = true ∧ e.refused = false) (h : run Box.step b es = some b') :
    Preserved body b' :=
  run_invariant_of (Preserved body)
    (fun _ _ _ he hq hstep => preserved_step hbody hq (change_of_step hstep) he.1 he.2) hes hp h

/-! ## Survival -/

/-- What the counts and the copy set aside go through from here on. -/
structure Survives (b : Box) : Prop where
  /-- Every file after a readable one is readable, and none of its counts is smaller. -/
  never_decrease : ∀ {es : List BoxEvent} {b' : Box} {c : Counts}, (∀ e ∈ es, e.undisturbed = true) →
    run Box.step b es = some b' → countsOn b.disk.file = some c →
      ∃ c', countsOn b'.disk.file = some c' ∧ c ≤ c'
  /-- A start over the last file written seeds exactly its counts. -/
  resumes : ∀ {es : List BoxEvent} {b' b'' : Box} {c : Counts} {mode : Mode}
    {now beatSecs templateSecs : UInt64}, (∀ e ∈ es, e.leavesFile = true) →
      run Box.step b es = some b' → countsOn b.disk.file = some c →
        b'.step (.start mode now beatSecs templateSecs) = some b'' →
          ∃ s, b''.state = some s ∧ s.counts = c
  /-- To these a process adds each thing it records once. -/
  adds : ∀ {es : List BoxEvent} {b' : Box} {s s' : State}, (∀ e ∈ es, e.crashes = false) →
    run Box.step b es = some b' → b.state = some s → b'.state = some s' →
      s'.counts = (es.filterMap BoxEvent.recorded).foldl Counts.record s.counts
  /-- A start over no file or an unusable one seeds unknown counts, and no file from
  there on shows a zero. -/
  unknown : ∀ {b₁ : Box} {mode : Mode} {now beatSecs templateSecs : UInt64},
    countsOn b.disk.file = none → b.step (.start mode now beatSecs templateSecs) = some b₁ →
      (∃ s, b₁.state = some s ∧ s.counts = .unknown) ∧
        ∀ {es : List BoxEvent} {b' : Box} {c : Counts}, (∀ e ∈ es, e.undisturbed = true) →
          run Box.step b₁ es = some b' → countsOn b'.disk.file = some c → c.NoZero
  /-- An unusable file that a start comes upon with nothing set aside is kept before
  the process can write. -/
  kept_once : ∀ {es : List BoxEvent} {b' : Box} {body : Body}, b.process = .down →
    b.disk.file = some body → (resume (some body)).isUnusable = true → b.disk.kept = none →
      (∀ e ∈ es, e.undisturbed = true ∧ e.refused = false) → run Box.step b es = some b' →
        b'.disk.kept = some body ∨ b'.disk.file = some body ∧ ∀ s beat, b'.process ≠ .up s beat
  /-- What is set aside stays as it is, whatever else is found later. -/
  kept_stays : ∀ {es : List BoxEvent} {b' : Box} {body : Body}, run Box.step b es = some b' →
    b.disk.kept = some body → b'.disk.kept = some body

theorem start_seeds {b b' : Box} {mode : Mode} {now beatSecs templateSecs : UInt64}
    (h : b.step (.start mode now beatSecs templateSecs) = some b') :
    ∃ s, b'.state = some s ∧ s.counts = (resume b.disk.file).seed := by
  cases change_of_step h with
  | start disk mode now beatSecs templateSecs => exact ⟨_, rfl, rfl⟩

theorem unzeroed_start {b b' : Box} {mode : Mode} {now beatSecs templateSecs : UInt64}
    (hnone : countsOn b.disk.file = none)
    (h : b.step (.start mode now beatSecs templateSecs) = some b') : Ordered b' ∧ Unzeroed b' := by
  cases change_of_step h with
  | start disk mode now beatSecs templateSecs =>
      have hfile : ∀ c, countsOn disk.file = some c → c.NoZero := by
        intro c hc
        rw [hnone] at hc
        exact nomatch hc
      refine ⟨⟨rfl, rfl⟩, hfile, ?_, fun _ _ _ hup => (nomatch hup)⟩
      rintro s ⟨⟩
      exact seed_noZero hfile

theorem survives_of_ordered {b : Box} (hb : Ordered b) : Survives b where
  never_decrease hes h hc := file_le_run hb hes h hc
  resumes hes h hc hstart := by
    obtain ⟨s, hs, hcounts⟩ := start_seeds hstart
    refine ⟨s, hs, ?_⟩
    rw [hcounts, file_eq_run hb hes h hc, countsOn_eq_some.mp hc]
    rfl
  adds hes h hs hs' := state_run hes h hs hs'
  unknown hnone hstart := by
    obtain ⟨hordered, hz⟩ := unzeroed_start hnone hstart
    refine ⟨?_, fun hes h hc => (unzeroed_run hordered hz hes h).file _ hc⟩
    obtain ⟨s, hs, hcounts⟩ := start_seeds hstart
    refine ⟨s, hs, hcounts.trans ?_⟩
    cases hresume : resume b.disk.file with
    | counts c => exact absurd hnone (by rw [countsOn_eq_some.mpr hresume]; exact nofun)
    | noFile => rfl
    | unusable why => rfl
  kept_once hdown hfile hbody hkept hes h := by
    obtain ⟨hfile', _, hprocess⟩ | hkept' := preserved_run hbody (.inl ⟨hfile, hkept, .inl hdown⟩) hes h
    · refine .inr ⟨hfile', ?_⟩
      intro s beat hup
      simp [hup] at hprocess
    · exact .inl hkept'
  kept_stays h hkept :=
    run_invariant (fun q => q.disk.kept = some _) (fun _ _ _ hq hstep => kept_step (change_of_step hstep) hq)
      hkept h

/-- Whatever is on the disk when the first process starts. -/
theorem lifetime_counts_survive {disk : Disk} {es : List BoxEvent} {b : Box}
    (h : run Box.step ⟨disk, .down⟩ es = some b) : Survives b := by
  have hdown : Ordered ⟨disk, .down⟩ := True.intro
  exact survives_of_ordered
    (run_invariant Ordered (fun _ _ _ hq hstep => ordered_step hq (change_of_step hstep)) hdown h)

/-- A process that is cut down after a win no file has. -/
def wonThenCut : List BoxEvent :=
  [.start .submit 1785020400 10 8, .spawn true, .record 1785020410 .solved,
    .record 1785020411 (.submitted true), .snapshot 1785020420, .create, .sync, .rename,
    .record 1785020425 .solved, .snapshot 1785020430, .create, .crash]

theorem lifetime_counts_survive_cut :
    ∃ b, run Box.step ⟨⟨some (.notJson (js "69")), none, .torn⟩, .down⟩ wonThenCut = some b ∧
      b.disk.kept = some (.notJson (js "69")) ∧
      countsOn b.disk.file = some ⟨some 1, some 1, none, none, none⟩ ∧ Survives b :=
  ⟨_, rfl, rfl, by decide +kernel,
    @lifetime_counts_survive ⟨some (.notJson (js "69")), none, .torn⟩ wonThenCut _ rfl⟩

end ZcashFaucet.Miner
