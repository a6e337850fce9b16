import DeviceScript.Runner
/-!
# The records of a runner

What is kept of one run when the record of a run is written.  Requests made of a run change neither
how far any run has come nor what the runner shows, and a stop that was asked for stays asked for.
-/

namespace DeviceScript

/-- A continue does not take a stop back. -/
theorem Signals.stop_requestContinue (s : Signals) (h : s.stop = true) :
    s.requestContinue.1.stop = true := by
  unfold requestContinue
  split <;> exact h

namespace Runner

variable {r : Runner} {run other : Nat}

/-! ## 1. Requests -/

@[simp] theorem progress?_setSignals (s : Signals) :
    (r.setSignals run s).progress? other = r.progress? other := by
  unfold progress? setSignals
  rw [List.getElem?_modify]
  cases r.runs[other]? with
  | none => rfl
  | some x => by_cases h : run = other <;> simp [h]

/-- The requests made of a run are those written down last, if the run was started. -/
theorem signals_setSignals (s : Signals) :
    (r.setSignals run s).signals other =
      if run = other ∧ run < r.runs.length then s else r.signals other := by
  unfold signals setSignals
  rw [List.getElem?_modify]
  by_cases h : run = other
  · subst h
    by_cases hlt : run < r.runs.length
    · simp [hlt]
    · simp [hlt]
  · cases r.runs[other]? <;> simp [h]

/-- No request is made of a run that was not started. -/
theorem signals_of_length_le (h : r.runs.length ≤ run) : r.signals run = {} := by
  unfold signals
  rw [List.getElem?_eq_none h]
  rfl

/-- Requests that are written down again change nothing. -/
theorem setSignals_self : r.setSignals run (r.signals run) = r := by
  have hruns : r.runs.modify run ({ · with signals := r.signals run }) = r.runs := by
    refine List.ext_getElem? fun other => ?_
    rw [List.getElem?_modify]
    by_cases h : run = other
    · subst h
      unfold signals
      cases r.runs[run]? <;> simp
    · cases r.runs[other]? <;> simp [h]
  unfold setSignals
  rw [hruns]

/-- Of requests that are written down one after the other the last ones count. -/
theorem setSignals_setSignals (s s' : Signals) :
    (r.setSignals run s).setSignals run s' = r.setSignals run s' := by
  unfold setSignals
  rw [List.modify_modify_eq]
  rfl

/-- Requests made of two runs may be written down in either order. -/
theorem setSignals_comm (s s' : Signals) (hne : run ≠ other) :
    (r.setSignals run s).setSignals other s' = (r.setSignals other s').setSignals run s := by
  unfold setSignals
  rw [List.modify_modify_ne _ _ _ hne]

/-- A stop stays asked for whatever requests are written down that keep it. -/
theorem stop_setSignals {s : Signals} (hs : (r.signals run).stop = true → s.stop = true)
    (h : (r.signals other).stop = true) : ((r.setSignals run s).signals other).stop = true := by
  rw [signals_setSignals]
  split
  · rename_i he
    exact hs (he.1 ▸ h)
  · exact h

/-- A stop of a run that was started is asked for. -/
theorem stop_stopRun {x : Progress} (h : r.progress? run = some x) :
    ((r.stopRun run).signals run).stop = true := by
  obtain ⟨record, hr, -⟩ := Option.map_eq_some_iff.mp h
  unfold stopRun setSignals signals
  rw [List.getElem?_modify, hr]
  simp [Signals.requestStop]

/-! ## 2. Progress -/

/-- How far a run has come is apart from the requests made of it. -/
theorem signals_modify {f : RunRecord → RunRecord} (hf : ∀ x, (f x).signals = x.signals) :
    ({ r with runs := r.runs.modify run f } : Runner).signals other = r.signals other := by
  unfold signals
  rw [List.getElem?_modify]
  by_cases h : run = other <;> cases r.runs[other]? <;> simp [h, hf]

@[simp] theorem signals_setStage (s : Stage) :
    (r.setStage run s).signals other = r.signals other :=
  signals_modify fun _ => rfl

@[simp] theorem signals_setOutcome (o : RunOutcome) :
    (r.setOutcome run o).signals other = r.signals other :=
  signals_modify fun _ => rfl

@[simp] theorem signals_release : (r.release run).signals other = r.signals other := by
  unfold release
  split <;> rfl

theorem progress?_setStage (s : Stage) :
    (r.setStage run s).progress? other =
      if run = other then (r.progress? other).map fun _ => .going s else r.progress? other := by
  unfold progress? setStage
  rw [List.getElem?_modify]
  by_cases h : run = other <;> cases r.runs[other]? <;> simp [h]

/-- How far a run has come may be written down before or after requests made of another one. -/
theorem setStage_setSignals (s : Signals) (x : Stage) (hne : run ≠ other) :
    (r.setSignals run s).setStage other x = (r.setStage other x).setSignals run s := by
  unfold setSignals setStage
  rw [List.modify_modify_ne _ _ _ hne]

theorem setOutcome_setSignals (s : Signals) (o : RunOutcome) (hne : run ≠ other) :
    (r.setSignals run s).setOutcome other o = (r.setOutcome other o).setSignals run s := by
  unfold setSignals setOutcome
  rw [List.modify_modify_ne _ _ _ hne]

theorem release_setSignals (s : Signals) :
    (r.setSignals run s).release other = (r.release other).setSignals run s := by
  by_cases h : r.active = some other <;> simp only [release, setSignals, h, if_true, if_false]

theorem progress?_setOutcome (o : RunOutcome) :
    (r.setOutcome run o).progress? other =
      if run = other then (r.progress? other).map fun _ => .ended o else r.progress? other := by
  unfold progress? setOutcome
  rw [List.getElem?_modify]
  by_cases h : run = other <;> cases r.runs[other]? <;> simp [h]

@[simp] theorem progress?_release : (r.release run).progress? other = r.progress? other := by
  unfold release
  split <;> rfl

@[simp] theorem projector_release : (r.release run).projector = r.projector := by
  unfold release
  split <;> rfl

/-- Only a run that was started has come anywhere. -/
theorem lt_of_progress? {x : Progress} (h : r.progress? run = some x) : run < r.runs.length := by
  obtain ⟨_, hr, -⟩ := Option.map_eq_some_iff.mp h
  exact (List.getElem?_eq_some_iff.mp hr).1

/-- As many runs were started as have come anywhere. -/
theorem isSome_progress? : (r.progress? run).isSome = decide (run < r.runs.length) := by
  rw [progress?, Option.isSome_map]
  by_cases h : run < r.runs.length <;> simp [h]

theorem length_eq_of_isSome {r' : Runner}
    (h : ∀ run, (r'.progress? run).isSome = (r.progress? run).isSome) :
    r'.runs.length = r.runs.length := by
  have hiff : ∀ run, run < r'.runs.length ↔ run < r.runs.length := by
    intro run
    have hrun := h run
    rw [isSome_progress?, isSome_progress?] at hrun
    exact decide_eq_decide.mp hrun
  exact Nat.le_antisymm (Nat.le_of_not_lt fun hlt => Nat.lt_irrefl _ ((hiff _).mp hlt))
    (Nat.le_of_not_lt fun hlt => Nat.lt_irrefl _ ((hiff _).mpr hlt))

/-! ## 3. Starts and resets -/

/-- A start is accepted without an active run only, and adds a run that can go on. -/
theorem start?_eq_ok {r' : Runner} {anyDevice : Bool} {course : Course}
    (h : r.start? anyDevice course = .ok r') :
    r.active = none ∧ r'.active = some r.runs.length ∧ r'.projector = r.projector ∧
      ∀ other, r'.progress? other =
        if other = r.runs.length then some (.going (.ready course)) else r.progress? other := by
  unfold start? at h
  split at h
  · cases h
  · rename_i ha
    split at h
    · cases h
      refine ⟨by simpa using ha, rfl, rfl, ?_⟩
      intro other
      unfold progress?
      rcases Nat.lt_trichotomy other r.runs.length with hlt | rfl | hlt
      · rw [if_neg (by omega), List.getElem?_append_left hlt]
      · rw [if_pos rfl, List.getElem?_concat_length]
        rfl
      · rw [if_neg (by omega), List.getElem?_eq_none (by simp; omega),
          List.getElem?_eq_none (by omega)]
    · cases h

/-- No request is made of a run by its start. -/
theorem signals_start? {r' : Runner} {anyDevice : Bool} {course : Course}
    (h : r.start? anyDevice course = .ok r') : r'.signals other = r.signals other := by
  unfold start? at h
  split at h
  · cases h
  · split at h
    · cases h
      unfold signals
      rcases Nat.lt_trichotomy other r.runs.length with hlt | rfl | hlt
      · rw [List.getElem?_append_left hlt]
      · rw [List.getElem?_concat_length, List.getElem?_eq_none (Nat.le_refl _)]
        rfl
      · rw [List.getElem?_eq_none (by simp; omega), List.getElem?_eq_none (by omega)]
    · cases h

theorem log_start? {r' : Runner} {anyDevice : Bool} {course : Course}
    (h : r.start? anyDevice course = .ok r') : r'.log = r.log := by
  unfold start? at h
  split at h
  · cases h
  · split at h
    · cases h
      rfl
    · cases h

/-- Requests made of a run that is there already may be written down before or after a start. -/
theorem start?_setSignals (s : Signals) (anyDevice : Bool) (course : Course)
    (hlt : run < r.runs.length) :
    (r.setSignals run s).start? anyDevice course =
      (r.start? anyDevice course).map (·.setSignals run s) := by
  have happ : ∀ x : RunRecord, r.runs.modify run ({ · with signals := s }) ++ [x] =
      (r.runs ++ [x]).modify run ({ · with signals := s }) := by
    intro x
    refine List.ext_getElem? fun other => ?_
    rw [List.getElem?_modify]
    by_cases ho : other < r.runs.length
    · rw [List.getElem?_append_left (by simpa using ho), List.getElem?_append_left ho,
        List.getElem?_modify]
    · have hne : run ≠ other := by omega
      rw [List.getElem?_append_right (by simpa using ho), List.getElem?_append_right (by omega)]
      simp [hne]
  unfold start? setSignals
  simp only [List.length_modify, happ]
  split
  · rfl
  · split <;> rfl

/-- A reset is accepted without an active run only, and tells that no line is shown and that the
runner is idle. -/
theorem resetNotices?_eq_ok {ns : List Notice} (h : r.resetNotices? = .ok ns) :
    r.active = none ∧ ∀ n ∈ ns, n = .cursor none ∨ n = .state .idle := by
  unfold resetNotices? at h
  split at h
  · cases h
  · rename_i ha
    have hn : r.active = none := by
      cases hr : r.active with
      | none => rfl
      | some run => simp [hr] at ha
    split at h
    · cases h
      exact ⟨hn, by simp⟩
    · cases h
      exact ⟨hn, by simp⟩

/-- A runner that shows how a run ended tells both, and otherwise there is nothing to tell. -/
theorem eq_of_resetNotices? {ns : List Notice} (h : r.resetNotices? = .ok ns) :
    ns = if r.state.isTerminal then [.cursor none, .state .idle] else [] := by
  unfold resetNotices? at h
  split at h
  · cases h
  · split at h <;> cases h <;> simp only [*, if_true, if_false, Bool.false_eq_true]

/-- Without an active run, and where the state is not one of a run that goes on, a reset is
accepted. -/
theorem resetNotices?_of_free (ha : r.active = none)
    (hs : r.state.isActive = false) :
    r.resetNotices? = .ok (if r.state.isTerminal then [.cursor none, .state .idle] else []) := by
  unfold resetNotices?
  simp only [ha, hs, Option.isSome_none, Bool.or_self, Bool.false_eq_true, if_false]
  split <;> rfl

end Runner

end DeviceScript
