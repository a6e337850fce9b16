import DeviceScript.Proofs.Bench.Congruence
/-!
# Handles of runs that have ended

Whoever started a run may still ask it for a stop or a continue when it has ended and other runs
have come after it.  Such a request is written down with the run that has ended, and nothing ever
looks at it there: two runners that differ in it alone (`Runner.Twins`) go on alike, since the run
that is followed is never the one that has ended (`Runner.congruence_twins`).  So the request changes
nothing that other runs do or that anyone hears, and it is answered as if nothing had been asked before
(`Bench.answer_of_handle`).
-/

namespace DeviceScript

namespace Runner

variable {r r' : Runner} {run other : Nat}

/-- **The runners are twins** but for the requests made of a run that has ended, and it waits for a
continue on neither. -/
structure Twins (run : Nat) (r r' : Runner) : Prop where
  ended : ∃ o, r.progress? run = some (.ended o)
  gate : (r.signals run).gate ≠ .waiting
  same : ∃ s : Signals, s.gate ≠ .waiting ∧ r' = r.setSignals run s

/-- The requests made of another run are the same. -/
theorem Twins.signals_eq (h : Twins run r r') (hne : run ≠ other) :
    r'.signals other = r.signals other := by
  obtain ⟨-, -, s, -, rfl⟩ := h
  rw [signals_setSignals, if_neg fun h => hne h.1]

/-- The same runs wait for a continue. -/
theorem Twins.waits_iff (h : Twins run r r') (other : Nat) :
    (r'.signals other).gate = .waiting ↔ (r.signals other).gate = .waiting := by
  by_cases hne : run = other
  · obtain ⟨⟨o, ho⟩, hg, s, hs, rfl⟩ := h
    subst hne
    rw [signals_setSignals, if_pos ⟨rfl, lt_of_progress? ho⟩]
    exact iff_of_false hs hg
  · rw [h.signals_eq hne]

/-- A request may be made of either run, as long as it makes the one that has ended wait for no
continue. -/
theorem Twins.request (h : Twins run r r') (f : Signals → Signals)
    (hf : run = other → ∀ s : Signals, s.gate ≠ .waiting → (f s).gate ≠ .waiting) :
    Twins run (r.setSignals other (f (r.signals other)))
      (r'.setSignals other (f (r'.signals other))) := by
  have hsame : run ≠ other → r'.signals other = r.signals other := h.signals_eq
  obtain ⟨⟨o, ho⟩, hg, s, hs, rfl⟩ := h
  have hlt := lt_of_progress? ho
  have hended : (r.setSignals other (f (r.signals other))).progress? run = some (.ended o) :=
    (progress?_setSignals _).trans ho
  by_cases hne : run = other
  · subst hne
    refine ⟨⟨o, hended⟩, ?_, f s, hf rfl s hs, ?_⟩
    · rw [signals_setSignals, if_pos ⟨rfl, hlt⟩]
      exact hf rfl _ hg
    · rw [signals_setSignals, if_pos ⟨rfl, hlt⟩, setSignals_setSignals, setSignals_setSignals]
  · refine ⟨⟨o, hended⟩, ?_, s, hs, ?_⟩
    · rw [signals_setSignals, if_neg fun he => hne he.1.symm]
      exact hg
    · rw [hsame hne, setSignals_comm _ _ hne]

/-- A run is started on both runners or on neither. -/
theorem Twins.start (h : Twins run r r') (anyDevice : Bool) (course : Course) :
    (∃ e, r.start? anyDevice course = .error e ∧ r'.start? anyDevice course = .error e) ∨
      ∃ r₁ r₁', r.start? anyDevice course = .ok r₁ ∧ r'.start? anyDevice course = .ok r₁' ∧
        Twins run r₁ r₁' := by
  obtain ⟨⟨o, ho⟩, hg, s, hs, rfl⟩ := h
  have hlt := lt_of_progress? ho
  have hstart := start?_setSignals s anyDevice course hlt
  cases hr : r.start? anyDevice course with
  | error e =>
    rw [hr] at hstart
    exact .inl ⟨e, rfl, hstart⟩
  | ok r₁ =>
    rw [hr] at hstart
    obtain ⟨-, -, -, hprog⟩ := start?_eq_ok hr
    refine .inr ⟨r₁, r₁.setSignals run s, rfl, hstart, ⟨o, ?_⟩, ?_, s, hs, rfl⟩
    · exact (hprog run).trans ((if_neg (Nat.ne_of_lt hlt)).trans ho)
    · rw [signals_start? hr]
      exact hg

/-- **Requests made of a run that has ended go unnoticed** by all other runs. -/
theorem congruence_twins (run : Nat) : Congruence (Twins run) (run ≠ ·) where
  active h := by
    obtain ⟨-, -, s, -, rfl⟩ := h
    rfl
  projector h := by
    obtain ⟨-, -, s, -, rfl⟩ := h
    rfl
  log h := by
    obtain ⟨-, -, s, -, rfl⟩ := h
    rfl
  progress h other := by
    obtain ⟨-, -, s, -, rfl⟩ := h
    exact progress?_setSignals s
  going h other s hs := by
    rintro rfl
    obtain ⟨o, ho⟩ := h.ended
    cases ho.symm.trans hs
  observe h moment n := by
    obtain ⟨he, hg, s, hs, rfl⟩ := h
    cases n <;> exact ⟨he, hg, s, hs, rfl⟩
  start := Twins.start
  stopRun h other := h.request Signals.requestStop fun _ _ hs => hs
  continueRun h other := by
    refine ⟨h.request (fun s => s.requestContinue.1) fun _ s hs => ?_, ?_⟩
    · exact ((Signals.takes_requestContinue s).of_ne_waiting hs).2
    · rw [continueRun, continueRun, Signals.requestContinue_snd, Signals.requestContinue_snd]
      exact decide_eq_decide.mpr (h.waits_iff other)
  stops h other hne := by rw [h.signals_eq hne]
  released h other hne := by rw [h.signals_eq hne]
  arm h other hne := h.request Signals.arm fun he => absurd he hne
  disarm h other hne := h.request Signals.disarm fun he => absurd he hne
  abandon h other hne := h.request Signals.abandon fun he => absurd he hne
  setStage h other hne x := by
    obtain ⟨⟨o, ho⟩, hg, s, hs, rfl⟩ := h
    refine ⟨⟨o, ?_⟩, ?_, s, hs, setStage_setSignals s x hne⟩
    · rw [progress?_setStage, if_neg fun he => hne he.symm]
      exact ho
    · rw [signals_setStage]
      exact hg
  setOutcome h other hne x := by
    obtain ⟨⟨o, ho⟩, hg, s, hs, rfl⟩ := h
    refine ⟨⟨o, ?_⟩, ?_, s, hs, setOutcome_setSignals s x hne⟩
    · rw [progress?_setOutcome, if_neg fun he => hne he.symm]
      exact ho
    · rw [signals_setOutcome]
      exact hg
  release h other := by
    obtain ⟨⟨o, ho⟩, hg, s, hs, rfl⟩ := h
    refine ⟨⟨o, ?_⟩, ?_, s, hs, release_setSignals s⟩
    · rw [progress?_release]
      exact ho
    · rw [signals_release]
      exact hg

end Runner

namespace Bench

variable {b : Bench} {run : Nat} {c : Control}

/-- The control is a request made of this run by its handle. -/
def IsOnHandle (run : Nat) (c : Control) : Prop :=
  c = .stopRun run ∨ c = .continueThe run

/-- A request made of a run that has ended leads to a bench whose runner is a twin. -/
theorem twins_turn {o : RunOutcome} (ho : b.runner.progress? run = some (.ended o))
    (hg : b.gate run ≠ .waiting) (hc : IsOnHandle run c) :
    OnRunners (Runner.Twins run) b (b.turn (.control c)) := by
  rcases hc with rfl | rfl
  · exact ⟨_, rfl, ⟨o, ho⟩, hg, (b.runner.signals run).requestStop, hg, rfl⟩
  · exact ⟨_, rfl, ⟨o, ho⟩, hg, _, ((Signals.takes_requestContinue _).of_ne_waiting hg).2, rfl⟩

end Bench

end DeviceScript
