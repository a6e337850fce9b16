import DeviceScript.Bench.Reaction
import DeviceScript.Proofs.Bench.Coherence
import DeviceScript.Proofs.Bench.Remnants
/-!
# Controls that are refused

A runner refuses a start while a run is active or when no device is connected, a reset while a run
goes on, and a stop or a continue that nobody waits for.  A control that is refused changes nothing
(`Bench.refusals_change_nothing`): the active run, what is shown and logged, the requests made of the
runs and the journal are what they were, and whatever happens afterwards happens as if nothing had
been asked.

There is one exception.  A run that a listener broke off at a pause leaves its gate behind, a pause
that still lacks its continue (`Signals.isPausePending`).  A continue for that run is refused, and
clears the gate (`Bench.exists_refused_continue_clears`).  Nobody waits at such a gate, before or
afterwards, and between two turns its run has ended; nothing that happens depends on it
(`Bench.indistinguishable_of_isRefused`).

All of that is so at any moment, also in the middle of what is told (`Bench.control_of_isRefused`).
-/

namespace DeviceScript

/-- The answer says that the control was refused. -/
def Control.IsRefused : Control → Answer → Prop
  | start .., .notStarted _ => True
  | stop, .flag taken | continueRun, .flag taken | continueThe _, .flag taken => taken = false
  | reset, .notReset _ => True
  | _, _ => False

namespace Bench

variable {b b' : Bench} {run : Nat} {c : Control} {a : Answer}

/-! ## 1. What a refused control does -/

/-- A continue that is refused changes nothing but a gate that was left behind. -/
theorem Asks.control_of_isRefused {tell : Notice → Bench → Bench × Option Crash}
    (h : b.Asks run c) (hc : b.control tell c = (b', .ok a)) (hr : c.IsRefused a) :
    b' = b ∨ b.gate run = .abandoned ∧ b' = b.setSignals run (b.runner.signals run).disarm := by
  rw [control_of_isContinue h.1 h.2] at hc
  obtain ⟨rfl, ha⟩ := Prod.mk.inj hc
  obtain rfl := Except.ok.inj ha
  have hg : b.gate run ≠ .waiting := by
    have htaken : (b.runner.signals run).requestContinue.2 = false := by
      cases c with
      | continueRun | continueThe => exact hr
      | start | stop | stopRun | reset | setConnected => exact nomatch h.1
    rw [Signals.requestContinue_snd] at htaken
    exact of_decide_eq_false htaken
  rcases Signals.requestContinue_of_ne_waiting hg with he | ⟨hleft, he⟩
  · left
    rw [he, setSignals, Runner.setSignals_self]
    rfl
  · exact .inr ⟨hleft, by rw [he]⟩

/-- **A control that is refused changes nothing**, however notices are told and whatever goes on,
unless it is a continue for a run that left its gate behind.  It clears that gate then. -/
theorem control_of_isRefused {tell : Notice → Bench → Bench × Option Crash}
    (hc : b.control tell c = (b', .ok a)) (hr : c.IsRefused a) :
    b' = b ∨ ∃ run, b.Asks run c ∧ b.gate run = .abandoned ∧
      b' = b.setSignals run (b.runner.signals run).disarm := by
  cases c with
  | start script mode =>
    simp only [control] at hc
    split at hc
    · obtain rfl := Except.ok.inj (Prod.mk.inj hc).2
      cases hr
    · exact .inl (Prod.mk.inj hc).1.symm
  | stop =>
    cases hactive : b.runner.active with
    | none =>
      rw [control, Runner.stopActive, hactive] at hc
      exact .inl (Prod.mk.inj hc).1.symm
    | some run =>
      rw [control, Runner.stopActive, hactive] at hc
      obtain rfl := Except.ok.inj (Prod.mk.inj hc).2
      cases hr
  | continueRun =>
    cases hactive : b.runner.active with
    | none =>
      rw [control, Runner.continueActive, hactive] at hc
      exact .inl (Prod.mk.inj hc).1.symm
    | some run =>
      have hasks : b.Asks run .continueRun := ⟨rfl, fun _ => hactive⟩
      exact (hasks.control_of_isRefused hc hr).imp_right fun h => ⟨run, hasks, h⟩
  | continueThe run =>
    have hasks : b.Asks run (.continueThe run) := ⟨decide_eq_true rfl, Control.noConfusion⟩
    exact (hasks.control_of_isRefused hc hr).imp_right fun h => ⟨run, hasks, h⟩
  | reset =>
    simp only [control] at hc
    split at hc
    · exact .inl (Prod.mk.inj hc).1.symm
    · split at hc
      · cases (Prod.mk.inj hc).2
      · obtain rfl := Except.ok.inj (Prod.mk.inj hc).2
        cases hr
  | stopRun | setConnected => cases a <;> cases hr

/-- So nothing that happens afterwards depends on it. -/
theorem indistinguishable_of_isRefused {tell : Notice → Bench → Bench × Option Crash}
    (hc : b.control tell c = (b', .ok a)) (hr : c.IsRefused a) : b.Indistinguishable b' := by
  rcases control_of_isRefused hc hr with rfl | ⟨run, -, hg, rfl⟩
  · exact .refl _
  · exact indistinguishable_disarm hg

/-! ## 2. Between two turns -/

/-- Between two turns only a run that has ended has left its gate behind. -/
theorem GatesInOrder.ended_of_abandoned (h : b.GatesInOrder) (hg : b.gate run = .abandoned) :
    ∃ o, b.runner.progress? run = some (.ended o) := by
  cases hx : b.runner.progress? run with
  | none =>
    rw [gate_of_not_started hx] at hg
    cases hg
  | some x =>
    cases x with
    | ended o => exact ⟨o, rfl⟩
    | going s =>
      obtain ⟨p, ms, granted, hstand⟩ := h.going run s hx
      rcases hstand.gate_cases with ⟨-, hgate, -⟩ | ⟨-, ⟨hgate, -⟩ | ⟨hgate, -⟩⟩ <;>
        cases hgate.symm.trans hg

/-- **Refusals change nothing.**  On a bench on which anything may have happened, a start, a stop, a
continue or a reset is refused.  Then the bench looks as it did: the active run, what is shown and
logged and the journal are the same, so that nobody was told anything.  No stop was asked for, and the
requests made of a run that is going are what they were.  So are those made of all other runs, but for
the gate of a run that was asked for the continue: if that run has ended and left its gate behind, the
gate is clear then.  Whatever happens afterwards happens as if nothing had been asked.

When the same control is refused in the same way at any other moment, in the middle of what is told or
on a bench where anything else goes on, it changes nothing either, except that it clears a gate that
was left behind by the run that it asks; and nothing that goes on then depends on that. -/
theorem refusals_change_nothing (hreach : b.IsReachable) (ha : b.answer c = .ok a)
    (hr : c.IsRefused a) :
    b.LooksLike (b.turn (.control c)) ∧
      (∀ run, (b.turn (.control c)).isStopRequested run = b.isStopRequested run) ∧
      (∀ run s, b.runner.progress? run = some (.going s) →
        (b.turn (.control c)).runner.signals run = b.runner.signals run) ∧
      (∀ run, (b.turn (.control c)).runner.signals run = b.runner.signals run ∨
        b.Asks run c ∧ (∃ o, b.runner.progress? run = some (.ended o)) ∧
          b.gate run = .abandoned ∧ (b.turn (.control c)).gate run = .clear) ∧
      (∀ turns, (b.after turns).LooksLike ((b.turn (.control c)).after turns)) ∧
      ∀ (tell : Notice → Bench → Bench × Option Crash) (b₁ b₁' : Bench),
        b₁.control tell c = (b₁', .ok a) →
        (b₁' = b₁ ∨ ∃ run, b₁.Asks run c ∧ b₁.gate run = .abandoned ∧
          b₁' = b₁.setSignals run (b₁.runner.signals run).disarm) ∧ b₁.Indistinguishable b₁' := by
  have hc : b.control (fun n b => b.tell n) c = (b.turn (.control c), .ok a) :=
    Prod.ext rfl ha
  have hsame := indistinguishable_of_isRefused hc hr
  refine ⟨hsame.looksLike, hsame.looksLike.stops, ?_, ?_, fun turns => hsame.after.looksLike,
    fun tell b₁ b₁' h => ⟨control_of_isRefused h hr, indistinguishable_of_isRefused h hr⟩⟩
  · intro run s hs
    rcases control_of_isRefused hc hr with he | ⟨other, -, hg, he⟩
    · rw [he]
    · obtain ⟨o, ho⟩ := (gatesInOrder_of_isReachable hreach).ended_of_abandoned hg
      have hne : other ≠ run := by
        rintro rfl
        cases ho.symm.trans hs
      rw [he, setSignals, withRunner, Runner.signals_setSignals, if_neg fun h => hne h.1]
  · intro run
    rcases control_of_isRefused hc hr with he | ⟨other, hasks, hg, he⟩
    · exact .inl (by rw [he])
    · have hended := (gatesInOrder_of_isReachable hreach).ended_of_abandoned hg
      by_cases hne : other = run
      · subst hne
        obtain ⟨o, ho⟩ := hended
        refine .inr ⟨hasks, ⟨o, ho⟩, hg, ?_⟩
        rw [he, gate_setSignals (by rw [ho]; rfl)]
        rfl
      · left
        rw [he, setSignals, withRunner, Runner.signals_setSignals, if_neg fun h => hne h.1]

theorem refused_reset_at_pause :
    (watched.after comingToPause).IsReachable ∧
      (watched.after comingToPause).answer .reset = .ok (.notReset ⟨.paused⟩) ∧
      ((watched.after comingToPause).turn (.control .reset)).gate 0 = .waiting ∧
      (((watched.after comingToPause).turn (.control .reset)).after
        [.control .continueRun, .proceed 2000 0]).outcome? 0 = some .completed := by
  have hreach : (watched.after comingToPause).IsReachable :=
    (isReachable_create _ _ _ _ _ _).after comingToPause
  have ha : (watched.after comingToPause).answer .reset = .ok (.notReset ⟨.paused⟩) := by
    decide +kernel
  have hwaiting : (watched.after comingToPause).gate 0 = .waiting := by decide +kernel
  have hend : ((watched.after comingToPause).after
      [.control .continueRun, .proceed 2000 0]).outcome? 0 = some .completed := by
    decide +kernel
  obtain ⟨hnow, -, -, -, hthen, -⟩ := refusals_change_nothing hreach ha trivial
  refine ⟨hreach, ha, (hnow.waits 0).mpr hwaiting, ?_⟩
  rw [outcome?, (hthen _).progress]
  exact hend

/-- A bench before a listener that crashes when a run comes to a pause, and again when the runner
reports that the run broke off. -/
def crashingAtPause : Bench :=
  create 10 {} (Registry.empty.register "alpha" .network fun _ => .after 5 (.replied .ok)) .registry
    [Reaction.listener [⟨.state (some .paused), .crash ⟨some "first"⟩, 1⟩,
      ⟨.log (some .error), .crash ⟨some "second"⟩, 1⟩]] 2

/-- The run is lost, with the slot of the active run and with its gate. -/
def lostAtPause : Bench :=
  crashingAtPause.after [.control (.start ⟨none, ["wait 0", "wait 0"]⟩ .singleBlock), .proceed 1000 0]

/-- **A refused continue may clear a gate**: here both the runner and the handle of the run refuse it,
and the pause that still lacked its continue before does so no longer. -/
theorem exists_refused_continue_clears :
    lostAtPause.IsReachable ∧ lostAtPause.runner.active = some 0 ∧
      lostAtPause.outcome? 0 =
        some (.failed "run task failed: task N panicked with message \"second\"") ∧
      (lostAtPause.runner.signals 0).isPausePending = true ∧
      lostAtPause.answer .continueRun = .ok (.flag false) ∧
      ((lostAtPause.turn (.control .continueRun)).runner.signals 0).isPausePending = false ∧
      lostAtPause.answer (.continueThe 0) = .ok (.flag false) ∧
      ((lostAtPause.turn (.control (.continueThe 0))).runner.signals 0).isPausePending = false := by
  have hreach : lostAtPause.IsReachable := by
    unfold lostAtPause crashingAtPause
    exact (isReachable_create _ _ _ _ _ _).after _
  refine ⟨hreach, ?_⟩
  decide +kernel

end Bench

end DeviceScript
