import DeviceScript.Proofs.Bench.Tell
import DeviceScript.Proofs.Run.Projector
/-!
# The moves of a run on a bench

A bench follows a run along its course and supplies the answers.  Here that is taken apart into
single moves (`Bench.Makes`): what a bench has to be like for the run to make a move on it, and what
it is like then.  Following a run is making moves, one after the other, to a place where the run
comes to a halt (`Bench.Halts`), and the moves are a trace along its course
(`Bench.follow_makes`).  So all that holds of traces holds of the runs of a bench.

A move leaves alone what only other runs and requests change, and the projector of the runner hears
what the moves tell (`Bench.MakesAll.goes`).
-/

namespace DeviceScript.Bench

/-! ## 1. Single moves -/

/-- The run makes a move on the bench `b` by the horizon, and the bench is then `b'`. -/
inductive Makes (run horizon : Nat) : Bench → Move → Bench → Prop
  | told {b b' : Bench} {n : Notice} (h : b.tell n = (b', none)) :
      Makes run horizon b (.told n) b'
  | foundAny (b : Bench) : Makes run horizon b (.foundAny b.registry.hasAny) b
  | foundDevice (b : Bench) (name : String) :
      Makes run horizon b (.foundDevice name (b.registry.isConnected name)) b
  | foundStop (b : Bench) : Makes run horizon b (.foundStop (b.isStopRequested run)) b
  | rested {b b' : Bench} {nanos : Nat} {w : Wake}
      (h : b.restEnd? run horizon (b.now + wholeMillis nanos) = some (w, b')) :
      Makes run horizon b (.rested nanos w) b'
  | called {b b' : Bench} {request : Request} {limit due : Option Nat} {result : Option CallResult}
      (hr : (b.handling request).limited limit = (due, result))
      (h : (b.note (.sent request)).callEnd? horizon (due.map (b.now + ·)) = some b') :
      Makes run horizon b (.called request limit result) b'
  | armed (b : Bench) :
      Makes run horizon b .armed (b.setSignals run (b.runner.signals run).arm)
  | parked {b : Bench} {w : Wake} (h : b.pauseEnd? run = some w) :
      Makes run horizon b (.parked w) b
  | disarmed (b : Bench) :
      Makes run horizon b .disarmed (b.setSignals run (b.runner.signals run).disarm)

/-- Moves that the run makes one after the other. -/
inductive MakesAll (run horizon : Nat) : Bench → List Move → Bench → Prop
  | nil (b : Bench) : MakesAll run horizon b [] b
  | cons {b₁ b₂ b₃ : Bench} {m : Move} {ms : List Move} :
      Makes run horizon b₁ m b₂ → MakesAll run horizon b₂ ms b₃ →
        MakesAll run horizon b₁ (m :: ms) b₃

/-- The run comes to a halt at a place of its course on the bench `b`, which leads to the bench
`b'`: it ends, a listener breaks it off, or it would have to wait beyond the horizon. -/
inductive Halts (run horizon : Nat) (broken : Crash → Bench → Bench) : Course → Bench → Bench → Prop
  | ended (r : Except Refusal RunOutcome) (b : Bench) :
      Halts run horizon broken (.ended r) b (b.conclude run (Course.outcomeOf r))
  | broken {n : Notice} {next : Course} {b b' : Bench} {c : Crash} (h : b.tell n = (b', some c)) :
      Halts run horizon broken (.tell n next) b (broken c b')
  | resting {nanos : Nat} {next : Wake → Course} {b : Bench}
      (h : b.restEnd? run horizon (b.now + wholeMillis nanos) = none) :
      Halts run horizon broken (.rest nanos next) b
        (b.suspend run (.resting (b.now + wholeMillis nanos) next))
  | calling {request : Request} {limit due : Option Nat} {result : Option CallResult}
      {next : Option CallResult → Course} {b : Bench}
      (hr : (b.handling request).limited limit = (due, result))
      (h : (b.note (.sent request)).callEnd? horizon (due.map (b.now + ·)) = none) :
      Halts run horizon broken (.call request limit next) b
        ((b.note (.sent request)).suspend run (.calling (due.map (b.now + ·)) result next))
  | parked {next : Wake → Course} {b : Bench} (h : b.pauseEnd? run = none) :
      Halts run horizon broken (.park next) b (b.suspend run (.parked next))

variable {run horizon : Nat} {broken : Crash → Bench → Bench} {b b' b'' : Bench} {m : Move}
  {ms ms' : List Move}

/-- One move in front of those that lead to a halt. -/
theorem follow_makes_cons {c c' : Course} (hm : c.Moves m c') (hb : Makes run horizon b m b')
    (he : follow run horizon broken c b = follow run horizon broken c' b')
    (h : ∃ ms c₁ b₁, c'.Trace ms c₁ ∧ MakesAll run horizon b' ms b₁ ∧
      Halts run horizon broken c₁ b₁ (follow run horizon broken c' b')) :
    ∃ ms c₁ b₁, c.Trace ms c₁ ∧ MakesAll run horizon b ms b₁ ∧
      Halts run horizon broken c₁ b₁ (follow run horizon broken c b) := by
  obtain ⟨ms, c₁, b₁, ht, hms, hh⟩ := h
  rw [he]
  exact ⟨m :: ms, c₁, b₁, .cons hm ht, .cons hb hms, hh⟩

/-- **Following a run is making moves along its course.**  By induction on the course. -/
theorem follow_makes (run horizon : Nat) (broken : Crash → Bench → Bench) (c : Course)
    (b : Bench) :
    ∃ ms c₁ b₁, c.Trace ms c₁ ∧ MakesAll run horizon b ms b₁ ∧
      Halts run horizon broken c₁ b₁ (follow run horizon broken c b) := by
  induction c generalizing b with
  | ended r => exact ⟨[], _, b, .nil _, .nil b, .ended r b⟩
  | tell n next ih =>
    cases ht : b.tell n with
    | mk b' crash =>
      cases crash with
      | none => exact follow_makes_cons .tell (.told ht) (by simp only [follow, ht]) (ih b')
      | some c =>
        refine ⟨[], _, b, .nil _, .nil b, ?_⟩
        simp only [follow, ht]
        exact .broken ht
  | askAny next ih => exact follow_makes_cons (.askAny _) (.foundAny b) rfl (ih _ b)
  | askDevice name next ih =>
    exact follow_makes_cons (.askDevice _) (.foundDevice b name) rfl (ih _ b)
  | askStop next ih => exact follow_makes_cons (.askStop _) (.foundStop b) rfl (ih _ b)
  | rest nanos next ih =>
    cases hr : b.restEnd? run horizon (b.now + wholeMillis nanos) with
    | none =>
      refine ⟨[], _, b, .nil _, .nil b, ?_⟩
      simp only [follow, hr]
      exact .resting hr
    | some wb =>
      exact follow_makes_cons (.rest wb.1) (.rested hr) (by simp only [follow, hr])
        (ih wb.1 wb.2)
  | call request limit next ih =>
    cases hl : (b.handling request).limited limit with
    | mk due result =>
      cases hr : (b.note (.sent request)).callEnd? horizon (due.map (b.now + ·)) with
      | none =>
        refine ⟨[], _, b, .nil _, .nil b, ?_⟩
        simp only [follow, hl, hr]
        exact .calling hl hr
      | some b' =>
        exact follow_makes_cons (.call result) (.called hl hr) (by simp only [follow, hl, hr])
          (ih result b')
  | arm next ih => exact follow_makes_cons .arm (.armed b) rfl (ih _)
  | park next ih =>
    cases hp : b.pauseEnd? run with
    | none =>
      refine ⟨[], _, b, .nil _, .nil b, ?_⟩
      simp only [follow, hp]
      exact .parked hp
    | some w => exact follow_makes_cons (.park w) (.parked hp) (by simp only [follow, hp]) (ih w b)
  | disarm next ih => exact follow_makes_cons .disarm (.disarmed b) rfl (ih _)

/-! ## 2. What moves change -/

/-- **What the moves `ms` of an active run change.**  The run stays active, what is written down
about runs stays as it is, the projector hears what the moves tell, and a stop stays asked for. -/
structure Goes (b : Bench) (ms : List Move) (b' : Bench) : Prop where
  active : b'.runner.active = b.runner.active
  progress : ∀ other, b'.runner.progress? other = b.runner.progress? other
  projector : b'.runner.projector = b.runner.projector.hearAll (noticesOf ms)
  stop : ∀ other, b.isStopRequested other = true → b'.isStopRequested other = true
  steady : b.IsSteady → b'.IsSteady

theorem Goes.isBusy (h : b.Goes ms b') (hb : b.IsBusy) : b'.IsBusy := by
  rw [IsBusy, h.active]
  exact hb

/-- So the runner shows what the moves told. -/
theorem Goes.snapshot (h : b.Goes ms b') : b'.snapshot = b.snapshot.hearAll (noticesOf ms) :=
  (congrArg Projector.snapshot h.projector).trans (Projector.snapshot_hearAll _ _)

theorem Goes.trans (h : b.Goes ms b') (h' : b'.Goes ms' b'') : b.Goes (ms ++ ms') b'' where
  active := h'.active.trans h.active
  progress other := (h'.progress other).trans (h.progress other)
  projector := by rw [h'.projector, h.projector, noticesOf_append, Projector.hearAll_append]
  stop other := h'.stop other ∘ h.stop other
  steady := h'.steady ∘ h.steady

/-- Moves that tell nothing do not show. -/
theorem Goes.silent (h : b.Goes [] b') (hm : noticesOf ms = []) : b.Goes ms b' :=
  { h with projector := by rw [hm]; exact h.projector }

theorem Goes.refl (b : Bench) : b.Goes [] b where
  active := rfl
  progress _ := rfl
  projector := rfl
  stop _ := id
  steady := id

theorem Calm.goes {js : List (Nat × Happening)} (h : b.Calm js b') : b.Goes [] b' where
  active := h.active
  progress := h.progress
  projector := h.projector
  stop := h.stop
  steady := h.steady

/-- The clock may move. -/
theorem goes_clock (b : Bench) (moment : Nat) : b.Goes [] { b with now := moment } :=
  { Goes.refl b with }

/-- Something may be written into the journal. -/
theorem goes_note (b : Bench) (h : Happening) : b.Goes [] (b.note h) :=
  { Goes.refl b with }

/-- Requests of the run may be written down that keep its stop. -/
theorem goes_setSignals {s : Signals} (hs : (b.runner.signals run).stop = true → s.stop = true) :
    b.Goes [] (b.setSignals run s) :=
  (calm_setSignals hs).goes

/-- The runner shows what it hears. -/
theorem goes_observe (b : Bench) (n : Notice) : b.Goes [.told n] (b.observe n) where
  active := (observe_eq b n).1
  progress _ := by cases n <;> rfl
  projector := by cases n <;> rfl
  stop _ h := by cases n <;> exact h
  steady h := by
    rw [IsSteady, (observe_eq b n).2]
    exact h

/-- A rest ends at once for a stop, and otherwise when it is due. -/
theorem restEnd?_eq_some {due : Nat} {w : Wake} (h : b.restEnd? run horizon due = some (w, b')) :
    (b.isStopRequested run = true ∧ w = .stopped ∧ b' = b) ∨
      (b.isStopRequested run = false ∧ due ≤ horizon ∧ w = .due ∧
        b' = { b with now := max b.now due }) := by
  unfold restEnd? at h
  split at h
  · rename_i hs
    cases h
    exact .inl ⟨hs, rfl, rfl⟩
  · rename_i hs
    split at h
    · rename_i hd
      cases h
      exact .inr ⟨eq_false_of_ne_true hs, hd, rfl, rfl⟩
    · cases h

/-- The end of a rest changes nothing but the clock. -/
theorem eq_clock_of_restEnd? {due : Nat} {w : Wake}
    (h : b.restEnd? run horizon due = some (w, b')) : ∃ moment, b' = { b with now := moment } := by
  rcases restEnd?_eq_some h with ⟨-, -, he⟩ | ⟨-, -, -, he⟩
  · exact ⟨b.now, he⟩
  · exact ⟨_, he⟩

theorem goes_restEnd? {due : Nat} {w : Wake} (h : b.restEnd? run horizon due = some (w, b')) :
    b.Goes [] b' := by
  obtain ⟨moment, rfl⟩ := eq_clock_of_restEnd? h
  exact goes_clock b moment

/-- A call ends when it is due. -/
theorem callEnd?_eq_some {due : Option Nat} (h : b.callEnd? horizon due = some b') :
    ∃ d, due = some d ∧ d ≤ horizon ∧ b' = { b with now := max b.now d } := by
  unfold callEnd? at h
  split at h
  · rename_i d
    split at h
    · rename_i hd
      cases h
      exact ⟨d, rfl, hd, rfl⟩
    · cases h
  · cases h

/-- The end of a call changes nothing but the clock. -/
theorem eq_clock_of_callEnd? {due : Option Nat} (h : b.callEnd? horizon due = some b') :
    ∃ moment, b' = { b with now := moment } := by
  obtain ⟨d, -, -, he⟩ := callEnd?_eq_some h
  exact ⟨_, he⟩

theorem goes_callEnd? {due : Option Nat} (h : b.callEnd? horizon due = some b') : b.Goes [] b' := by
  obtain ⟨moment, rfl⟩ := eq_clock_of_callEnd? h
  exact goes_clock b moment

theorem Makes.goes (h : Makes run horizon b m b') (hb : b.IsBusy) : b.Goes [m] b' := by
  cases h with
  | @told _ n h =>
    obtain ⟨js, ht⟩ := tells hb n
    have hg := (goes_observe b n).trans ht.calm.goes
    rw [h] at hg
    exact hg
  | foundAny | foundDevice | foundStop => exact (Goes.refl _).silent rfl
  | rested h => exact (goes_restEnd? h).silent rfl
  | called _ h => exact ((goes_note b _).trans (goes_callEnd? h)).silent rfl
  | armed | disarmed => exact Goes.silent (goes_setSignals fun hs => hs) rfl
  | parked => exact (Goes.refl _).silent rfl

/-- **A run changes nothing but what its moves tell.**  By induction on its moves. -/
theorem MakesAll.goes (h : MakesAll run horizon b ms b') (hb : b.IsBusy) : b.Goes ms b' := by
  induction h with
  | nil b => exact .refl b
  | cons hm _ ih =>
    have h₁ := hm.goes hb
    exact h₁.trans (ih (h₁.isBusy hb))

end DeviceScript.Bench
