import DeviceScript.Proofs.Course.Trace
import DeviceScript.Proofs.Script
/-!
# The shape of a run

What a whole run of a script looks like, whatever answers it gets.  The moves fall into pieces that
follow the definitions: a rest (`RestMoves`), what one instruction asks for (`Plan.PerformMoves`),
a pause (`PauseMoves`), one line with its pause (`Plan.LineMoves`), the lines one after the other
up to the end (`Plan.RunMoves`), and the last notices (`closingMoves`).

Each piece has one lemma, which cuts it off the front of a trace.  Together they give
`Plan.runMoves_of_trace`: **every run that gets past its first question is an opening followed by
`RunMoves`**.  What is shown about states, cursors, log entries and commands is read off that shape
by induction on it, and never looks at the course again.

The table of states never refuses a step, because the state at the top of the lines is always
running; this is what the hypotheses on `Tracker.state` carry along.
-/

namespace DeviceScript

open Course

variable {r : Except Refusal RunOutcome}

/-! ## 1. State and cursor -/

namespace Tracker

variable {t : Tracker} {next : Tracker → Course}

/-- A step that the table allows is told and taken. -/
theorem enter_eq {s : RunState} (h : t.state.mayBecome s = true) :
    t.enter s next = .tell (.state s) (next { t with state := s }) := by
  simp [enter, RunState.become?, h]

/-- A move to another line is told. -/
theorem moveTo_eq {line : Option Nat} (h : t.cursor ≠ line) :
    t.moveTo line next = .tell (.cursor line) (next { t with cursor := line }) := by
  simp [moveTo, h]

/-- A state from which a run with this outcome can end. -/
def MayEnd (t : Tracker) (o : RunOutcome) : Prop :=
  t.state = .running ∨ t.state = .paused ∧ o = .stopped

end Tracker

/-- The last notices of a run that leaves this cursor with this outcome. -/
def closingNotices (cursor : Option Nat) (o : RunOutcome) : List Notice :=
  (match o with
    | .completed => [.state .completed, .log Tracker.completedEntry]
    | .stopped => [.state .stopping, .state .stopped, .log Tracker.stoppedEntry]
    | .failed _ => [.state .failed]) ++
  if cursor = none then [] else [.cursor none]

/-- The last moves of a run that leaves this cursor with this outcome. -/
def closingMoves (cursor : Option Nat) (o : RunOutcome) : List Move :=
  (closingNotices cursor o).map .told

/-- A run that has nothing left but its last line tells that it leaves it, if there is one. -/
theorem trace_finish {t : Tracker} {o : RunOutcome} {ms : List Move}
    (h : Trace (t.finish o) ms (.ended r)) :
    ms = (if t.cursor = none then [] else [.cursor none]).map .told ∧ r = .ok o := by
  unfold Tracker.finish Tracker.moveTo at h
  split at h
  · obtain ⟨rfl, rfl⟩ := trace_ended h
    simp [*]
  · obtain ⟨ms', rfl, h1⟩ := trace_tell h
    obtain ⟨rfl, rfl⟩ := trace_ended h1
    simp [*]

/-- **The end of a run makes its last moves and nothing else.** -/
theorem trace_conclude {t : Tracker} {o : RunOutcome} {ms : List Move} (ht : t.MayEnd o)
    (h : Trace (t.conclude o) ms (.ended r)) : ms = closingMoves t.cursor o ∧ r = .ok o := by
  cases o with
  | completed =>
    obtain hs | ⟨-, ho⟩ := ht
    · rw [Tracker.conclude, Tracker.enter_eq (by rw [hs]; rfl)] at h
      obtain ⟨_, rfl, h1⟩ := trace_tell h
      obtain ⟨_, rfl, h2⟩ := trace_tell h1
      obtain ⟨rfl, rfl⟩ := trace_finish h2
      exact ⟨rfl, rfl⟩
    · cases ho
  | stopped =>
    have hs : t.state.mayBecome .stopping = true := by
      obtain hs | ⟨hs, -⟩ := ht <;> rw [hs] <;> rfl
    rw [Tracker.conclude, Tracker.enter_eq hs, Tracker.enter_eq rfl] at h
    obtain ⟨_, rfl, h1⟩ := trace_tell h
    obtain ⟨_, rfl, h2⟩ := trace_tell h1
    obtain ⟨_, rfl, h3⟩ := trace_tell h2
    obtain ⟨rfl, rfl⟩ := trace_finish h3
    exact ⟨rfl, rfl⟩
  | failed reason =>
    obtain hs | ⟨-, ho⟩ := ht
    · rw [Tracker.conclude, Tracker.enter_eq (by rw [hs]; rfl)] at h
      obtain ⟨_, rfl, h1⟩ := trace_tell h
      obtain ⟨rfl, rfl⟩ := trace_finish h1
      exact ⟨rfl, rfl⟩
    · cases ho

/-! ## 2. One line -/

/-- The moves of a rest, and how the run goes on after it. -/
inductive RestMoves (nanos : Nat) : List Move → Step → Prop
  | atOnce (h : nanos = 0) (stop : Bool) :
      RestMoves nanos [.foundStop stop] (if stop then .stop else .goOn)
  | later (h : nanos ≠ 0) (w : Wake) :
      RestMoves nanos [.rested nanos w] (if w = .stopped then .stop else .goOn)

theorem trace_restUnlessStopped {nanos : Nat} {next : Step → Course} {ms : List Move}
    (h : Trace (restUnlessStopped nanos next) ms (.ended r)) :
    ∃ ms₁ s ms₂, ms = ms₁ ++ ms₂ ∧ RestMoves nanos ms₁ s ∧ Trace (next s) ms₂ (.ended r) := by
  unfold restUnlessStopped at h
  split at h
  · rename_i hn
    obtain ⟨stop, ms', rfl, h1⟩ := trace_askStop h
    exact ⟨[_], _, ms', rfl, .atOnce hn stop, h1⟩
  · rename_i hn
    cases h with
    | cons hm h =>
      cases hm with
      | rest w => exact ⟨[_], _, _, rfl, .later hn w, by simpa using h⟩

/-- The moves of a run at an instruction, and how it goes on after them. -/
inductive Plan.PerformMoves (p : Plan) (line : Nat) : Instruction → List Move → Step → Prop
  | waited {seconds : Option Decimal.Double} {nanos : Nat} {ms : List Move} {s : Step}
      (hd : seconds.bind delayNanos? = some nanos) (hr : RestMoves nanos ms s) :
      PerformMoves p line (.wait seconds) ms s
  | malformed {seconds : Option Decimal.Double} (hd : seconds.bind delayNanos? = none) :
      PerformMoves p line (.wait seconds) [.told (.log (p.malformedEntry line))] .goOn
  | sent (c : DeviceCommand) (result : Option CallResult) {ms : List Move} {s : Step}
      (hr : RestMoves (p.timing.settle * 1000000) ms s) :
      PerformMoves p line (.command c)
        (.foundDevice c.device true :: .told (.log (sentEntry c line)) ::
          .called ⟨c.device, c.payload⟩ p.timing.limit result ::
          .told (.log (resultEntry c line p.timing.limit result)) :: ms) s
  | unconnected (c : DeviceCommand) :
      PerformMoves p line (.command c)
        [.foundDevice c.device false, .told (.log (unconnectedEntry c line))]
        (.fail (unconnectedReason c line))
  | skipped (raw : String) (reason : Misfit) :
      PerformMoves p line (.unrecognized raw reason)
        [.told (.log (skippedEntry raw reason line))] .goOn

theorem Plan.trace_perform {p : Plan} {line : Nat} {i : Instruction} {next : Step → Course}
    {ms : List Move} (hi : i.isExecutable = true)
    (h : Trace (p.perform line i next) ms (.ended r)) :
    ∃ ms₁ s ms₂, ms = ms₁ ++ ms₂ ∧ p.PerformMoves line i ms₁ s ∧
      Trace (next s) ms₂ (.ended r) := by
  cases i with
  | blank => cases hi
  | comment => cases hi
  | wait seconds =>
    simp only [perform] at h
    split at h
    · rename_i nanos hd
      obtain ⟨ms₁, s, ms₂, rfl, hr, h1⟩ := trace_restUnlessStopped h
      exact ⟨ms₁, s, ms₂, rfl, .waited hd hr, h1⟩
    · rename_i hd
      obtain ⟨ms', rfl, h1⟩ := trace_tell h
      exact ⟨[_], _, ms', rfl, .malformed hd, h1⟩
  | command c =>
    cases h with
    | cons hm h =>
      cases hm with
      | askDevice connected =>
        cases connected with
        | false =>
          obtain ⟨ms', rfl, h1⟩ := trace_tell h
          exact ⟨[_, _], _, ms', rfl, .unconnected c, h1⟩
        | true =>
          obtain ⟨ms', rfl, h1⟩ := trace_tell h
          cases h1 with
          | cons hm h2 =>
            cases hm with
            | call result =>
              obtain ⟨ms', rfl, h3⟩ := trace_tell h2
              obtain ⟨ms₁, s, ms₂, rfl, hr, h4⟩ := trace_restUnlessStopped h3
              exact ⟨_ :: _ :: _ :: _ :: ms₁, s, ms₂, rfl, .sent c result hr, h4⟩
  | unrecognized raw reason =>
    obtain ⟨ms', rfl, h1⟩ := trace_tell h
    exact ⟨[_], _, ms', rfl, .skipped raw reason, h1⟩

/-- The moves of a pause after a line, and what ends it.  A stop that came before keeps the run from
pausing at all. -/
inductive PauseMoves (line : Nat) : List Move → Wake → Prop
  | refused : PauseMoves line [.foundStop true] .stopped
  | stopped :
      PauseMoves line
        [.foundStop false, .armed, .told (.state .paused), .told (.log (pauseEntry line)),
          .parked .stopped, .disarmed] .stopped
  | continued :
      PauseMoves line
        [.foundStop false, .armed, .told (.state .paused), .told (.log (pauseEntry line)),
          .parked .due, .disarmed, .told (.state .running)] .due

/-- A pause leaves the cursor alone.  A continue leads back to the state from before, and a stop to
one from which the run can be stopped. -/
theorem trace_pause {t : Tracker} {line : Nat} {next : Tracker → Wake → Course} {ms : List Move}
    (hs : t.state = .running) (h : Trace (t.pause line next) ms (.ended r)) :
    ∃ ms₁ w ms₂ t', ms = ms₁ ++ ms₂ ∧ PauseMoves line ms₁ w ∧ t'.cursor = t.cursor ∧
      t'.MayEnd .stopped ∧ (w = .due → t' = t) ∧ Trace (next t' w) ms₂ (.ended r) := by
  obtain ⟨stop, ms', rfl, h1⟩ := trace_askStop h
  cases stop with
  | true => exact ⟨[_], _, ms', t, rfl, .refused, rfl, .inl hs, by simp, h1⟩
  | false =>
    simp only [Bool.false_eq_true, if_false] at h1
    rw [Tracker.enter_eq (by rw [hs]; rfl)] at h1
    cases h1 with
    | cons hm h2 =>
      cases hm
      obtain ⟨_, rfl, h3⟩ := trace_tell h2
      obtain ⟨_, rfl, h4⟩ := trace_tell h3
      cases h4 with
      | cons hm h5 =>
        cases hm with
        | park w =>
          cases h5 with
          | cons hm h6 =>
            cases hm
            cases w with
            | stopped =>
              exact ⟨_ :: _ :: _ :: _ :: _ :: _ :: [], _, _, { t with state := .paused }, rfl,
                .stopped, rfl, .inr ⟨rfl, rfl⟩, by simp, h6⟩
            | due =>
              simp only at h6
              rw [Tracker.enter_eq rfl] at h6
              obtain ⟨_, rfl, h7⟩ := trace_tell h6
              obtain ⟨state, cursor⟩ := t
              subst hs
              exact ⟨_ :: _ :: _ :: _ :: _ :: _ :: [_], _, _, _, rfl, .continued, rfl,
                .inl rfl, fun _ => rfl, h7⟩

/-- The outcome of a run that does not go on after a line. -/
def Step.outcome? : Step → Option RunOutcome
  | goOn => none
  | stop => some .stopped
  | fail reason => some (.failed reason)

/-- The moves of a run at a line, the pause after it included. -/
inductive Plan.LineMoves (p : Plan) (last : Option Nat) (line : Nat) (i : Instruction) :
    List Move → Step → Prop
  | plain {ms : List Move} {s : Step} (hp : p.PerformMoves line i ms s)
      (hs : s = .goOn → p.pausesAfter last line = false) : LineMoves p last line i ms s
  | paused {ms ms' : List Move} {w : Wake} (hp : p.PerformMoves line i ms .goOn)
      (hl : p.pausesAfter last line = true) (hw : PauseMoves line ms' w) :
      LineMoves p last line i (ms ++ ms') (if w = .stopped then .stop else .goOn)

/-! ## 3. All lines -/

/-- The moves of a run that takes these lines, the cursor being at `cur`, and its outcome. -/
inductive Plan.RunMoves (p : Plan) (last : Option Nat) :
    List (Nat × Instruction) → Option Nat → List Move → RunOutcome → Prop
  | completed {cur : Option Nat} : RunMoves p last [] cur (closingMoves cur .completed) .completed
  | stopped {x : Nat × Instruction} {more : List (Nat × Instruction)} {cur : Option Nat} :
      RunMoves p last (x :: more) cur (.foundStop true :: closingMoves cur .stopped) .stopped
  | passedOver {line : Nat} {i : Instruction} {more : List (Nat × Instruction)}
      {cur : Option Nat} {ms : List Move} {o : RunOutcome} (hi : i.isExecutable = false)
      (hr : RunMoves p last more cur ms o) :
      RunMoves p last ((line, i) :: more) cur (.foundStop false :: ms) o
  | taken {line : Nat} {i : Instruction} {more : List (Nat × Instruction)} {cur : Option Nat}
      {ms ms' : List Move} {o : RunOutcome} (hi : i.isExecutable = true)
      (hl : p.LineMoves last line i ms .goOn) (hr : RunMoves p last more (some line) ms' o) :
      RunMoves p last ((line, i) :: more) cur
        (.foundStop false :: .told (.cursor (some line)) :: (ms ++ ms')) o
  | broken {line : Nat} {i : Instruction} {more : List (Nat × Instruction)} {cur : Option Nat}
      {ms : List Move} {s : Step} {o : RunOutcome} (hi : i.isExecutable = true)
      (hl : p.LineMoves last line i ms s) (ho : s.outcome? = some o) :
      RunMoves p last ((line, i) :: more) cur
        (.foundStop false :: .told (.cursor (some line)) :: (ms ++ closingMoves (some line) o)) o

/-- The line and all lines after it are behind the cursor, in growing order. -/
def Ascending (cur : Option Nat) (items : List (Nat × Instruction)) : Prop :=
  (cur.toList ++ items.map (·.1)).Pairwise (· < ·)

/-- How a run goes on that has done what a line asks for: it pauses if it should, and takes the lines
that follow. -/
def Plan.behindLine (p : Plan) (last : Option Nat) (line : Nat) (more : List (Nat × Instruction))
    (t : Tracker) : Step → Course
  | .stop => t.conclude .stopped
  | .fail reason => t.conclude (.failed reason)
  | .goOn =>
    if p.pausesAfter last line then
      t.pause line fun t w =>
      match w with
      | .stopped => t.conclude .stopped
      | .due => p.lines last more t
    else p.lines last more t

/-- **A line makes its moves.**  The run goes on with the lines that follow, or makes its last moves. -/
theorem Plan.trace_line {p : Plan} {last : Option Nat} {line : Nat} {i : Instruction}
    {more : List (Nat × Instruction)} {t : Tracker} {ms : List Move} (hi : i.isExecutable = true)
    (hs : t.state = .running)
    (h : Trace (p.perform line i (p.behindLine last line more t)) ms (.ended r)) :
    ∃ ms₁ s ms₂, ms = ms₁ ++ ms₂ ∧ p.LineMoves last line i ms₁ s ∧
      (s = .goOn ∧ Trace (p.lines last more t) ms₂ (.ended r) ∨
        ∃ o, s.outcome? = some o ∧ ms₂ = closingMoves t.cursor o ∧ r = .ok o) := by
  obtain ⟨ms₁, s, ms₂, rfl, hp, h1⟩ := Plan.trace_perform hi h
  cases s with
  | stop =>
    obtain ⟨rfl, rfl⟩ := trace_conclude (t := t) (o := .stopped) (.inl hs) h1
    exact ⟨ms₁, _, _, rfl, .plain hp nofun, .inr ⟨_, rfl, rfl, rfl⟩⟩
  | fail reason =>
    obtain ⟨rfl, rfl⟩ := trace_conclude (t := t) (o := .failed reason) (.inl hs) h1
    exact ⟨ms₁, _, _, rfl, .plain hp nofun, .inr ⟨_, rfl, rfl, rfl⟩⟩
  | goOn =>
    cases hl : p.pausesAfter last line with
    | false =>
      simp only [behindLine, hl, Bool.false_eq_true, if_false] at h1
      exact ⟨ms₁, _, ms₂, rfl, .plain hp fun _ => hl, .inl ⟨rfl, h1⟩⟩
    | true =>
      simp only [behindLine, hl, if_true] at h1
      obtain ⟨ms₃, w, ms₄, v, rfl, hw, hvc, hv, hd, h2⟩ := trace_pause hs h1
      have hm := LineMoves.paused hp hl hw
      rw [← List.append_assoc]
      cases w with
      | stopped =>
        obtain ⟨rfl, rfl⟩ := trace_conclude hv h2
        exact ⟨_, _, _, rfl, hm, .inr ⟨_, rfl, by rw [hvc], rfl⟩⟩
      | due =>
        obtain rfl := hd rfl
        exact ⟨_, _, _, rfl, hm, .inl ⟨rfl, h2⟩⟩

/-- **The lines of a run have the shape `RunMoves`.**  By induction on the lines; the state at the
top of each is running. -/
theorem Plan.trace_lines {p : Plan} {last : Option Nat} :
    ∀ {items : List (Nat × Instruction)} {t : Tracker} {ms : List Move}, t.state = .running →
      Ascending t.cursor items → Trace (p.lines last items t) ms (.ended r) →
      ∃ o, r = .ok o ∧ p.RunMoves last items t.cursor ms o
  | [], t, ms, hs, _, h => by
    obtain ⟨rfl, rfl⟩ := trace_conclude (.inl hs) h
    exact ⟨_, rfl, .completed⟩
  | (line, i) :: more, t, ms, hs, ha, h => by
    obtain ⟨stop, ms', rfl, h1⟩ := trace_askStop h
    cases stop with
    | true =>
      rw [if_pos rfl] at h1
      obtain ⟨rfl, rfl⟩ := trace_conclude (.inl hs) h1
      exact ⟨_, rfl, .stopped⟩
    | false =>
      rw [if_neg Bool.false_ne_true] at h1
      cases hi : i.isExecutable with
      | false =>
        rw [hi, if_pos (by rfl)] at h1
        have ha' : Ascending t.cursor more :=
          List.Pairwise.sublist (by simp) ha
        obtain ⟨o, rfl, hr⟩ := trace_lines hs ha' h1
        exact ⟨o, rfl, .passedOver hi hr⟩
      | true =>
        have hne : t.cursor ≠ some line := by
          intro hc
          simp [Ascending, hc] at ha
        have ha' : Ascending (some line) more :=
          List.Pairwise.sublist (by simp) ha
        rw [hi, if_neg (by simp), Tracker.moveTo_eq hne] at h1
        obtain ⟨_, rfl, h2⟩ := trace_tell h1
        obtain ⟨ms₁, s, ms₂, rfl, hl, ⟨rfl, h3⟩ | ⟨o, ho, rfl, rfl⟩⟩ :=
          trace_line (t := { t with cursor := some line }) hi hs h2
        · obtain ⟨o, rfl, hr⟩ := trace_lines (t := { t with cursor := some line }) hs ha' h3
          exact ⟨o, rfl, .taken hi hl hr⟩
        · exact ⟨o, rfl, .broken hi hl ho⟩

namespace Plan

/-- The moves with which a run begins that gets past its first question. -/
def openingMoves (p : Plan) : List Move :=
  [.foundAny true, .told (.started p.script.name), .told (.state .running),
    .told (.log p.openingEntry)]

/-- **What a whole run looks like.**  Either no device is connected and nothing happens, or the run
opens and then takes its lines. -/
theorem runMoves_of_trace {p : Plan} {ms : List Move} (h : Trace p.course ms (.ended r)) :
    (ms = [.foundAny false] ∧ r = .error .noDeviceConnected) ∨
      ∃ o ms', r = .ok o ∧ ms = p.openingMoves ++ ms' ∧
        p.RunMoves p.script.lastExecutable p.script.instructions none ms' o := by
  cases h with
  | cons hm h1 =>
    cases hm with
    | askAny any =>
      cases any with
      | false =>
        obtain ⟨rfl, rfl⟩ := trace_ended h1
        exact .inl ⟨rfl, rfl⟩
      | true =>
        obtain ⟨_, rfl, h2⟩ := trace_tell h1
        rw [Tracker.enter_eq rfl] at h2
        obtain ⟨_, rfl, h3⟩ := trace_tell h2
        obtain ⟨ms', rfl, h4⟩ := trace_tell h3
        have ha : Ascending none p.script.instructions := p.script.pairwise_instructions
        obtain ⟨o, rfl, hr⟩ := trace_lines rfl ha h4
        exact .inr ⟨o, ms', rfl, rfl, hr⟩

end Plan

end DeviceScript
