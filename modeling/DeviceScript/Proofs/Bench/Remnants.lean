import DeviceScript.Proofs.Bench.Congruence
/-!
# Gates that are left behind

A run that breaks off at a pause leaves its gate behind: a pause that still lacks its continue and
that nobody waits at.  The next continue for that run clears the gate and is refused, as it would be
at a gate that is clear.  So nothing that happens on a bench depends on which gates were left
behind (`Bench.indistinguishable_disarm`).

To show it, a runner is swept: all gates that were left behind are cleared (`Runner.swept`).  All
operations lead from a swept runner to a swept runner but one: a run that breaks off may leave its
gate behind again.  So runners that are the same when they are swept (`Runner.Resembles`) stay so
(`Runner.congruence_resembles`).
-/

namespace DeviceScript

/-! ## 1. Sweeping -/

/-- The gate, clear if it was left behind. -/
def Gate.swept : Gate → Gate
  | abandoned => clear
  | g => g

/-- The requests made of a run without a gate that was left behind. -/
def Signals.swept (s : Signals) : Signals :=
  { s with gate := s.gate.swept }

/-- The run without a gate that was left behind. -/
def RunRecord.swept (r : RunRecord) : RunRecord :=
  { r with signals := r.signals.swept }

/-- The runner without the gates that runs left behind. -/
def Runner.swept (r : Runner) : Runner :=
  { r with runs := r.runs.map RunRecord.swept }

theorem Gate.swept_eq_waiting {g : Gate} : g.swept = .waiting ↔ g = .waiting := by
  cases g <;> decide

theorem Gate.swept_eq_released {g : Gate} : g.swept = .released ↔ g = .released := by
  cases g <;> decide

namespace Signals

variable {s : Signals}

/-- A stop is asked for alike. -/
theorem swept_requestStop : s.swept.requestStop.swept = s.requestStop.swept := by
  obtain ⟨stop, gate⟩ := s
  cases gate <;> rfl

theorem swept_requestContinue : s.swept.requestContinue.1.swept = s.requestContinue.1.swept := by
  obtain ⟨stop, gate⟩ := s
  cases gate <;> rfl

/-- A run that breaks off may leave its gate behind on either side. -/
theorem swept_abandon : s.swept.abandon.swept = s.abandon.swept := by
  obtain ⟨stop, gate⟩ := s
  cases gate <;> rfl

/-- A gate that was left behind is as good as clear. -/
theorem swept_disarm_of_abandoned (h : s.gate = .abandoned) : s.disarm.swept = s.swept := by
  rw [disarm, swept, swept, h]
  rfl

end Signals

/-! ## 2. The runner -/

namespace Runner

variable {r : Runner} {run : Nat}

theorem signals_swept : r.swept.signals run = (r.signals run).swept := by
  rw [signals, signals, swept, List.getElem?_map]
  cases r.runs[run]? <;> rfl

theorem progress?_swept : r.swept.progress? run = r.progress? run := by
  rw [progress?, progress?, swept, List.getElem?_map]
  cases r.runs[run]? <;> rfl

/-- What is written down for one run is swept with it. -/
theorem swept_modify {f g : RunRecord → RunRecord} (h : ∀ x, (f x).swept = g x.swept) :
    ({ r with runs := r.runs.modify run f } : Runner).swept =
      { r.swept with runs := r.swept.runs.modify run g } := by
  refine congrArg (fun runs => { r with runs }) (List.ext_getElem? fun i => ?_)
  simp only [swept, List.getElem?_map, List.getElem?_modify]
  cases r.runs[i]? with
  | none => rfl
  | some x =>
    by_cases hi : run = i
    · simp [hi, h]
    · simp [hi]

theorem swept_setSignals (s : Signals) :
    (r.setSignals run s).swept = r.swept.setSignals run s.swept :=
  swept_modify fun _ => rfl

theorem swept_setStage (s : Stage) : (r.setStage run s).swept = r.swept.setStage run s :=
  swept_modify fun _ => rfl

theorem swept_setOutcome (o : RunOutcome) :
    (r.setOutcome run o).swept = r.swept.setOutcome run o :=
  swept_modify fun _ => rfl

theorem swept_release : (r.release run).swept = r.swept.release run := by
  unfold release
  rw [show r.swept.active = r.active from rfl]
  split <;> rfl

theorem swept_observe (moment : Timestamp) (n : Notice) :
    (r.observe moment n).swept = r.swept.observe moment n := by
  cases n <;> rfl

theorem start?_swept (anyDevice : Bool) (course : Course) :
    r.swept.start? anyDevice course = (r.start? anyDevice course).map swept := by
  unfold start?
  rw [show r.swept.active = r.active from rfl]
  split
  · rfl
  · split
    · simp [swept, Except.map, RunRecord.swept, Signals.swept, Gate.swept]
    · rfl

/-- Clearing a gate that was left behind is a part of sweeping. -/
theorem swept_disarm_of_abandoned (h : (r.signals run).gate = .abandoned) :
    (r.setSignals run (r.signals run).disarm).swept = r.swept := by
  rw [swept_setSignals, Signals.swept_disarm_of_abandoned h, ← signals_swept, setSignals_self]

/-! ## 3. Runners that are the same when they are swept -/

/-- The runners are the same but for the gates that were left behind. -/
def Resembles (r r' : Runner) : Prop := r'.swept = r.swept

variable {r' : Runner} (h : Resembles r r')
include h

theorem Resembles.signals_eq (run : Nat) : (r'.signals run).swept = (r.signals run).swept := by
  rw [← signals_swept, h, signals_swept]

theorem Resembles.gate_eq (run : Nat) :
    (r'.signals run).gate.swept = (r.signals run).gate.swept :=
  congrArg Signals.gate (h.signals_eq run)

/-- A request may be made of a run if it does not depend on whether the gate was left behind. -/
theorem Resembles.request (run : Nat) (f : Signals → Signals)
    (hf : ∀ {s : Signals}, (f s.swept).swept = (f s).swept) :
    Resembles (r.setSignals run (f (r.signals run))) (r'.setSignals run (f (r'.signals run))) := by
  rw [Resembles, swept_setSignals, swept_setSignals, h, ← hf, h.signals_eq run, hf]

theorem Resembles.start (anyDevice : Bool) (course : Course) :
    (∃ e, r.start? anyDevice course = .error e ∧ r'.start? anyDevice course = .error e) ∨
      ∃ r₁ r₁', r.start? anyDevice course = .ok r₁ ∧ r'.start? anyDevice course = .ok r₁' ∧
        Resembles r₁ r₁' := by
  have hmap : (r'.start? anyDevice course).map swept = (r.start? anyDevice course).map swept := by
    rw [← start?_swept, h, start?_swept]
  cases hr : r.start? anyDevice course with
  | error e =>
    cases hr' : r'.start? anyDevice course with
    | error e' =>
      rw [hr, hr'] at hmap
      exact .inl ⟨e, rfl, hmap⟩
    | ok r₁' =>
      rw [hr, hr'] at hmap
      cases hmap
  | ok r₁ =>
    cases hr' : r'.start? anyDevice course with
    | error e' =>
      rw [hr, hr'] at hmap
      cases hmap
    | ok r₁' =>
      rw [hr, hr'] at hmap
      exact .inr ⟨r₁, r₁', rfl, rfl, Except.ok.inj hmap⟩

omit h in
/-- **Which gates were left behind makes no difference** to what runners do. -/
theorem congruence_resembles : Congruence Resembles fun _ => True where
  active h := congrArg (·.active) h
  projector h := congrArg (·.projector) h
  log h := congrArg (·.log) h
  progress h run := by rw [← progress?_swept, h, progress?_swept]
  going _ _ _ _ := trivial
  observe h moment n := by rw [Resembles, swept_observe, swept_observe, h]
  start := Resembles.start
  stopRun h run := h.request run Signals.requestStop Signals.swept_requestStop
  continueRun h run := by
    refine ⟨h.request run (fun s => s.requestContinue.1) Signals.swept_requestContinue, ?_⟩
    rw [continueRun, continueRun, Signals.requestContinue_snd, Signals.requestContinue_snd]
    refine decide_eq_decide.mpr ?_
    rw [← Gate.swept_eq_waiting, h.gate_eq run, Gate.swept_eq_waiting]
  stops h run _ := (congrArg Signals.stop (h.signals_eq run) :)
  released h run _ := by rw [← Gate.swept_eq_released, h.gate_eq run, Gate.swept_eq_released]
  arm h run _ := h.request run Signals.arm rfl
  disarm h run _ := h.request run Signals.disarm rfl
  abandon h run _ := h.request run Signals.abandon Signals.swept_abandon
  setStage h run _ s := by rw [Resembles, swept_setStage, swept_setStage, h]
  setOutcome h run _ o := by rw [Resembles, swept_setOutcome, swept_setOutcome, h]
  release h run := by rw [Resembles, swept_release, swept_release, h]

end Runner

namespace Bench

theorem Indistinguishable.refl (b : Bench) : b.Indistinguishable b :=
  OnRunners.indistinguishable Runner.congruence_resembles ⟨b.runner, rfl, rfl⟩

/-- **A gate that was left behind may be cleared**, and all goes on as if it were still there. -/
theorem indistinguishable_disarm {b : Bench} {run : Nat} (h : b.gate run = .abandoned) :
    b.Indistinguishable (b.setSignals run (b.runner.signals run).disarm) :=
  OnRunners.indistinguishable Runner.congruence_resembles
    ⟨_, rfl, Runner.swept_disarm_of_abandoned h⟩

end Bench

end DeviceScript
