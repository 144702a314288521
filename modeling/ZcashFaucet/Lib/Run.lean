/-
ZcashFaucet.Lib.Run — runs of a partial step function.

A system is a type of states `σ`, a type of events `ε` and a step
`σ → ε → Option σ`, where `none` says that the event is not enabled in
that state. A run is a list of events, and `run` folds the step along
it. Everything a development proves about "every reachable state" goes
through the rules here: `run_invariant` (one preservation lemma per
step gives the invariant on every run) and `run_invariant_of` (the same
where only some events preserve it). `run_history` carries a history
along, and `run_erase` compares a run with what is left of it when some
of its events are taken out.

`guarded` restricts a step to the states an environment assumption
admits. An assumption about the environment is stated once, as a
predicate on states, instead of being threaded through every lemma.
-/
import Mathlib.Data.List.Induction

namespace ZcashFaucet.Lib

variable {σ ε : Type}

/-- Fold a partial step along a list of events. -/
def run (step : σ → ε → Option σ) : σ → List ε → Option σ
  | s, [] => some s
  | s, e :: es => (step s e).bind fun s' => run step s' es

@[simp] theorem run_nil (step : σ → ε → Option σ) (s : σ) : run step s [] = some s := rfl

@[simp] theorem run_cons (step : σ → ε → Option σ) (s : σ) (e : ε) (es : List ε) :
    run step s (e :: es) = (step s e).bind fun s' => run step s' es := rfl

theorem run_append (step : σ → ε → Option σ) :
    ∀ (es fs : List ε) (s : σ),
      run step s (es ++ fs) = (run step s es).bind fun s' => run step s' fs
  | [], fs, s => rfl
  | e :: es, fs, s => by
      simp only [List.cons_append, run_cons]
      cases step s e with
      | none => rfl
      | some s' => simpa using run_append step es fs s'

/-- **Invariant rule.** What every step preserves holds after every run. -/
theorem run_invariant {step : σ → ε → Option σ} (Inv : σ → Prop)
    (hstep : ∀ s e s', Inv s → step s e = some s' → Inv s') :
    ∀ {es : List ε} {s s' : σ}, Inv s → run step s es = some s' → Inv s'
  | [], s, s', hs, h => by
      simp only [run_nil, Option.some.injEq] at h
      exact h ▸ hs
  | e :: es, s, s', hs, h => by
      obtain ⟨m, hm, hrest⟩ := Option.bind_eq_some_iff.mp h
      exact run_invariant Inv hstep (hstep s e m hs hm) hrest

/-- The invariant rule where only the events of the run at hand need to
preserve the invariant. -/
theorem run_invariant_of {step : σ → ε → Option σ} (Inv : σ → Prop) {P : ε → Prop}
    (hstep : ∀ s e s', P e → Inv s → step s e = some s' → Inv s') :
    ∀ {es : List ε} {s s' : σ}, (∀ e ∈ es, P e) → Inv s → run step s es = some s' → Inv s'
  | [], s, s', _, hs, h => by
      simp only [run_nil, Option.some.injEq] at h
      exact h ▸ hs
  | e :: es, s, s', hes, hs, h => by
      obtain ⟨m, hm, hrest⟩ := Option.bind_eq_some_iff.mp h
      exact run_invariant_of Inv hstep (fun f hf => hes f (List.mem_cons_of_mem _ hf))
        (hstep s e m (hes e List.mem_cons_self) hs hm) hrest

/-- **History rule.** A relation between the state and a history, kept by
every step that adds what its event emits. -/
theorem run_history {η : Type} {step : σ → ε → Option σ} (emit : ε → Option η) (H : σ → List η → Prop)
    (hstep : ∀ s e s' l, H s l → step s e = some s' → H s' (l ++ (emit e).toList)) :
    ∀ {es : List ε} {s s' : σ} {l : List η}, H s l → run step s es = some s' →
      H s' (l ++ es.filterMap emit)
  | [], s, s', l, hs, h => by
      simp only [run_nil, Option.some.injEq] at h
      simpa [← h] using hs
  | e :: es, s, s', l, hs, h => by
      obtain ⟨m, hm, hrest⟩ := Option.bind_eq_some_iff.mp h
      have htail := run_history emit H hstep (hstep s e m l hs hm) hrest
      cases he : emit e with
      | none => simpa [he] using htail
      | some x => simpa [he] using htail

/-- **Erasure rule.** A run goes through without the events it does not
need: every kept event can be followed, every other leaves the relation. -/
theorem run_erase {step : σ → ε → Option σ} (keep : ε → Bool) (R : σ → σ → Prop)
    (hkeep : ∀ s e s' q, keep e = true → R s q → step s e = some s' → ∃ q', step q e = some q' ∧ R s' q')
    (hdrop : ∀ s e s' q, keep e = false → R s q → step s e = some s' → R s' q) :
    ∀ {es : List ε} {s s' q : σ}, R s q → run step s es = some s' →
      ∃ q', run step q (es.filter keep) = some q' ∧ R s' q'
  | [], s, s', q, hR, h => by
      simp only [run_nil, Option.some.injEq] at h
      exact ⟨q, rfl, h ▸ hR⟩
  | e :: es, s, s', q, hR, h => by
      obtain ⟨m, hm, hrest⟩ := Option.bind_eq_some_iff.mp h
      cases he : keep e with
      | true =>
          obtain ⟨q₁, hq₁, hR₁⟩ := hkeep s e m q he hR hm
          obtain ⟨q', hq', hR'⟩ := run_erase keep R hkeep hdrop hR₁ hrest
          exact ⟨q', by simp [he, hq₁, hq'], hR'⟩
      | false =>
          obtain ⟨q', hq', hR'⟩ := run_erase keep R hkeep hdrop (hdrop s e m q he hR hm) hrest
          exact ⟨q', by simp [he, hq'], hR'⟩

/-- A step whose result must satisfy an assumption about the environment. -/
def guarded (ok : σ → Bool) (step : σ → ε → Option σ) : σ → ε → Option σ :=
  fun s e => (step s e).filter ok

theorem guarded_eq_some {ok : σ → Bool} {step : σ → ε → Option σ} {s s' : σ} {e : ε} :
    guarded ok step s e = some s' ↔ step s e = some s' ∧ ok s' = true := by
  simp [guarded, Option.filter_eq_some_iff]

end ZcashFaucet.Lib
