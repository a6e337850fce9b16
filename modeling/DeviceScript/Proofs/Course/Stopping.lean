import DeviceScript.Proofs.Course.Shape
/-!
# How a course yields to a stop

A stop takes effect where a run asks for it: at the top of a line, at a rest and at a pause.
`Course.WindsDown` says of a course that, once a stop is asked for, nothing is left of it but its
end: it hands nothing over, comes to no line, and is neither paused nor running again, and its
outcome is stopped.  `Course.Yields` says that a course winds down from every place where it can be
suspended.  At a call it first tells the result of the call.

Every course of a plan yields (`Plan.course_yields`), whatever it was answered before, and a course
that is taken from its start winds down after its opening, unless its script has no lines
(`Plan.windsDown_lines`).  The proofs follow the definitions of a course, one lemma for each.
-/

namespace DeviceScript

/-- A notice that a run may still tell when it was stopped. -/
def Notice.IsParting : Notice → Prop
  | started _ => False
  | cursor line => line = none
  | state s => s ≠ .paused ∧ s ≠ .running
  | log _ => True

namespace Course

/-- When a stop is asked for, nothing is left of the course but its end. -/
def WindsDown : Course → Prop
  | ended r => r = .ok .stopped
  | tell n next => n.IsParting ∧ next.WindsDown
  | askStop next => (next true).WindsDown
  | rest _ next => (next .stopped).WindsDown
  | park next => (next .stopped).WindsDown
  | disarm next => next.WindsDown
  | askAny _ | askDevice .. | call .. | arm _ => False

/-- Wherever the course can be suspended, it winds down from there.  After a call it first tells the
result, which is that of a command of the script. -/
def Yields (p : Plan) : Course → Prop
  | ended _ => True
  | tell _ next => next.Yields p
  | askAny next => ∀ a, (next a).Yields p
  | askDevice _ next => ∀ a, (next a).Yields p
  | askStop next => ∀ a, (next a).Yields p
  | rest _ next => (next .stopped).WindsDown ∧ ∀ w, (next w).Yields p
  | call request limit next =>
    (∃ c line after, (line, .command c) ∈ p.script.instructions ∧
      request = ⟨c.device, c.payload⟩ ∧ limit = p.timing.limit ∧
      (∀ r, next r = .tell (.log (resultEntry c line limit r)) after) ∧ after.WindsDown) ∧
    ∀ r, (next r).Yields p
  | arm next => next.Yields p
  | park next => (next .stopped).WindsDown ∧ ∀ w, (next w).Yields p
  | disarm next => next.Yields p

/-- What is left of a course that yields, yields. -/
theorem Moves.yields {p : Plan} {c c' : Course} {m : Move} (hm : c.Moves m c')
    (h : c.Yields p) : c'.Yields p := by
  cases hm with
  | tell | arm | disarm => exact h
  | askAny a | askDevice a | askStop a => exact h a
  | rest w | park w => exact h.2 w
  | call r => exact h.2 r

end Course

open Course

variable {p : Plan} {last : Option Nat} {line : Nat}

/-! ## 1. State and cursor -/

namespace Tracker

variable {t : Tracker} {next : Tracker → Course}

theorem yields_moveTo {target : Option Nat} (h : ∀ t', t'.state = t.state → (next t').Yields p) :
    (t.moveTo target next).Yields p := by
  unfold moveTo
  split
  · exact h t rfl
  · exact h _ rfl

theorem windsDown_finish (t : Tracker) : (t.finish .stopped).WindsDown := by
  unfold finish moveTo
  split
  · rfl
  · exact ⟨rfl, rfl⟩

/-- A run that may end so winds down when it ends for a stop. -/
theorem windsDown_conclude (ht : t.MayEnd .stopped) : (t.conclude .stopped).WindsDown := by
  have hs : t.state.mayBecome .stopping = true := by
    obtain hs | ⟨hs, -⟩ := ht <;> rw [hs] <;> rfl
  rw [conclude, enter_eq hs, enter_eq rfl]
  exact ⟨⟨by decide, by decide⟩, ⟨by decide, by decide⟩, trivial, windsDown_finish _⟩

theorem yields_enter {s : RunState} (h : ∀ t', t'.state = s → (next t').Yields p) :
    (t.enter s next).Yields p := by
  unfold enter
  split
  · rename_i hs
    obtain ⟨-, rfl⟩ := RunState.become?_eq_ok_iff.mp hs
    exact h _ rfl
  · exact yields_moveTo fun _ _ => trivial

/-- The end of a run suspends nothing. -/
theorem yields_conclude (t : Tracker) (o : RunOutcome) : (t.conclude o).Yields p := by
  have hfinish : ∀ (t : Tracker) (o : RunOutcome), (t.finish o).Yields p :=
    fun _ _ => yields_moveTo fun _ _ => trivial
  cases o with
  | completed =>
    unfold conclude
    refine yields_enter fun t' _ => ?_
    exact hfinish t' .completed
  | stopped =>
    unfold conclude
    refine yields_enter fun _ _ => yields_enter fun t' _ => ?_
    exact hfinish t' .stopped
  | failed reason =>
    unfold conclude
    refine yields_enter fun t' _ => ?_
    exact hfinish t' (.failed reason)

end Tracker

/-! ## 2. One line -/

section Line

variable {nanos : Nat} {i : Instruction} {next : Step → Course}

theorem windsDown_restUnlessStopped (h : (next .stop).WindsDown) :
    (restUnlessStopped nanos next).WindsDown := by
  unfold restUnlessStopped
  split <;> exact h

theorem yields_restUnlessStopped (h : (next .stop).WindsDown) (hn : ∀ s, (next s).Yields p) :
    (restUnlessStopped nanos next).Yields p := by
  unfold restUnlessStopped
  split
  · exact fun a => hn _
  · exact ⟨h, fun w => hn _⟩

/-- A run that waits for a reply winds down after it has told the result. -/
theorem Plan.yields_send {c : DeviceCommand} (hi : (line, .command c) ∈ p.script.instructions)
    (h : (next .stop).WindsDown) (hn : ∀ s, (next s).Yields p) :
    (p.send line c next).Yields p := by
  rw [send, Yields, Yields]
  refine ⟨⟨c, line, _, hi, rfl, rfl, fun _ => rfl, windsDown_restUnlessStopped h⟩, fun _ => ?_⟩
  rw [Yields]
  exact yields_restUnlessStopped h hn

/-- A run that is suspended at an instruction winds down from there. -/
theorem Plan.yields_perform (hi : (line, i) ∈ p.script.instructions)
    (h : (next .stop).WindsDown) (hn : ∀ s, (next s).Yields p) :
    (p.perform line i next).Yields p := by
  cases i with
  | blank | comment => exact hn _
  | wait seconds =>
    simp only [perform]
    split
    · exact yields_restUnlessStopped h hn
    · exact hn _
  | command c =>
    intro connected
    cases connected with
    | false => exact hn _
    | true => exact yields_send hi h hn
  | unrecognized raw reason => exact hn _

end Line

/-- A run that waits at a pause winds down from there. -/
theorem Tracker.yields_pause {t : Tracker} {next : Tracker → Wake → Course}
    (hs : t.state = .running) (h : ∀ t', t'.MayEnd .stopped → (next t' .stopped).WindsDown)
    (hstop : ∀ t', (next t' .stopped).Yields p)
    (hdue : ∀ t', t'.state = .running → (next t' .due).Yields p) :
    (t.pause line next).Yields p := by
  intro stop
  cases stop with
  | true => exact hstop t
  | false =>
    simp only [Bool.false_eq_true, if_false]
    rw [Tracker.enter_eq (by rw [hs]; rfl)]
    refine ⟨h _ (.inr ⟨rfl, rfl⟩), ?_⟩
    intro w
    cases w with
    | stopped => exact hstop _
    | due => exact Tracker.yields_enter hdue

/-! ## 3. All lines -/

namespace Plan

/-- A run at the top of a line winds down. -/
theorem windsDown_lines {x : Nat × Instruction} {more : List (Nat × Instruction)} {t : Tracker}
    (hs : t.state = .running) : (p.lines last (x :: more) t).WindsDown :=
  Tracker.windsDown_conclude (.inl hs)

/-- By induction on the lines; the state at the top of each is running. -/
theorem yields_lines : ∀ {items : List (Nat × Instruction)} {t : Tracker},
    (∀ x ∈ items, x ∈ p.script.instructions) → t.state = .running →
      (p.lines last items t).Yields p
  | [], t, _, _ => t.yields_conclude .completed
  | (line, i) :: more, t, hmem, hs => by
    have hmore : ∀ t' : Tracker, t'.state = .running → (p.lines last more t').Yields p :=
      fun _ hs' => yields_lines (fun x hx => hmem x (List.mem_cons_of_mem _ hx)) hs'
    intro stop
    cases stop with
    | true => exact t.yields_conclude .stopped
    | false =>
      simp only [Bool.false_eq_true, if_false]
      split
      · exact hmore t hs
      · refine Tracker.yields_moveTo fun t' ht' => ?_
        have hs' : t'.state = .running := ht'.trans hs
        refine yields_perform (hmem _ List.mem_cons_self)
          (Tracker.windsDown_conclude (.inl hs')) ?_
        intro s
        cases s with
        | stop => exact t'.yields_conclude .stopped
        | fail reason => exact t'.yields_conclude (.failed reason)
        | goOn =>
          simp only
          split
          · exact Tracker.yields_pause hs' (fun _ ht => Tracker.windsDown_conclude ht)
              (fun t' => t'.yields_conclude .stopped) hmore
          · exact hmore t' hs'

/-- The notices with which a run opens. -/
def openingNotices (p : Plan) : List Notice :=
  [.started p.script.name, .state .running, .log p.openingEntry]

/-- A course opens when a device is connected, and then takes its lines. -/
theorem course_eq (p : Plan) :
    p.course = .askAny fun any =>
      if any then
        p.openingNotices.foldr .tell
          (p.lines p.script.lastExecutable p.script.instructions ⟨.running, none⟩)
      else .ended (.error .noDeviceConnected) := by
  rw [course, Tracker.enter_eq rfl]
  rfl

/-- **Every course yields to a stop.** -/
theorem course_yields (p : Plan) : p.course.Yields p := by
  intro any
  cases any with
  | false => trivial
  | true => exact yields_lines (fun _ hx => hx) rfl

end Plan

end DeviceScript
