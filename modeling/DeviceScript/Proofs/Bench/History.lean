import DeviceScript.Proofs.Bench.Moves
/-!
# Histories of a bench

A bench has a history: operators do things to it, devices come and go, time passes, and runs are
followed a little further (`Turn`).  In what order these come is open, so what holds after every
history holds for every interleaving of them.

What all histories keep is that a bench is in order (`Bench.Orderly`): only the active run can still
be going, it stands on the course of its script after moves that the runner shows, and without an
active run no line is shown.  `Bench.orderly_of_isReachable` says so of every bench that came about
in this way; the cases are one lemma for a halt of a run and one for what an operator does.

What the moves and the halts of a run keep, its turns keep (`Bench.KeptByRun.proceed`), and what
nothing can change lasts over all histories (`Bench.Lasting.after`).
-/

namespace DeviceScript

/-- One thing that happens to a bench. -/
inductive Turn where
  /-- An operator does something. -/
  | control (control : Control)
  /-- The registry becomes this one. -/
  | devices (registry : Registry)
  /-- The clock shows this moment. -/
  | clock (moment : Nat)
  /-- A run is followed up to a horizon. -/
  | proceed (horizon run : Nat)

namespace Bench

/-- The bench after a turn. -/
def turn (b : Bench) : Turn → Bench
  | .control c => (b.control (fun n b => b.tell n) c).1
  | .devices r => { b with registry := r }
  | .clock moment => { b with now := moment }
  | .proceed horizon run => b.proceed horizon run

/-- The bench after some turns. -/
def after (b : Bench) (turns : List Turn) : Bench := turns.foldl turn b

/-- A bench that came about from one on which nothing had happened. -/
def IsReachable (b : Bench) : Prop :=
  ∃ logCapacity timing registry gateway members nesting turns,
    b = (create logCapacity timing registry gateway members nesting).after turns

theorem after_nil (b : Bench) : b.after [] = b :=
  rfl

theorem after_append (b : Bench) (turns₁ turns₂ : List Turn) :
    b.after (turns₁ ++ turns₂) = (b.after turns₁).after turns₂ :=
  List.foldl_append

theorem IsReachable.after {b : Bench} (h : b.IsReachable) (turns : List Turn) :
    (b.after turns).IsReachable := by
  obtain ⟨logCapacity, timing, registry, gateway, members, nesting, before, rfl⟩ := h
  exact ⟨logCapacity, timing, registry, gateway, members, nesting, before ++ turns,
    (after_append _ _ _).symm⟩

theorem isReachable_create (logCapacity : Nat) (timing : Timing) (registry : Registry)
    (gateway : Gateway) (members : List Member) (nesting : Nat) :
    (create logCapacity timing registry gateway members nesting).IsReachable :=
  ⟨logCapacity, timing, registry, gateway, members, nesting, [], rfl⟩

/-- Letting time pass is a history: every run is followed, and then the clock moves on. -/
theorem pass_eq_after (b : Bench) (ms : Nat) :
    b.pass ms = b.after ((List.range b.runner.runs.length).map (.proceed (b.now + ms)) ++
      [.clock (b.now + ms)]) := by
  rw [after_append]
  unfold Bench.after
  rw [List.foldl_map]
  rfl

/-- So is waiting for a run. -/
theorem exists_await_eq_after (b : Bench) (run limit : Nat) :
    ∃ turns, (b.await run limit).1 = b.after turns := by
  unfold await
  split
  · exact ⟨[], rfl⟩
  · simp only
    split
    · exact ⟨[.proceed (b.now + limit) run], rfl⟩
    · exact ⟨[.proceed (b.now + limit) run, .clock (b.now + limit)], rfl⟩

/-! ## 1. Order -/

end Bench

/-- Whether a run has not made any move yet. -/
def Stage.isReady : Stage → Bool
  | ready _ => true
  | _ => false

/-- The stage of a run of the plan that has made the moves `ms`; `handed` is the command last handed
to the gateway. -/
inductive Stage.On (p : Plan) (handed : Option Request) : List Move → Stage → Prop
  | ready : On p handed [] (.ready p.course)
  | resting {ms : List Move} {nanos due : Nat} {next : Wake → Course}
      (h : p.course.Trace ms (.rest nanos next)) : On p handed ms (.resting due next)
  | calling {ms : List Move} {request : Request} {limit due : Option Nat}
      {result : Option CallResult} {next : Option CallResult → Course}
      (h : p.course.Trace ms (.call request limit next)) (hr : handed = some request) :
      On p handed ms (.calling due result next)
  | parked {ms : List Move} {next : Wake → Course} (h : p.course.Trace ms (.park next)) :
      On p handed ms (.parked next)

/-- A run at this stage has come to this place of the course of its plan. -/
inductive Stage.StandsOn (p : Plan) : Course → Stage → Prop
  | ready : StandsOn p p.course (.ready p.course)
  | resting (nanos due : Nat) (next : Wake → Course) :
      StandsOn p (.rest nanos next) (.resting due next)
  | calling (request : Request) (limit due : Option Nat) (result : Option CallResult)
      (next : Option CallResult → Course) :
      StandsOn p (.call request limit next) (.calling due result next)
  | parked (next : Wake → Course) : StandsOn p (.park next) (.parked next)

theorem Stage.On.exists_standsOn {p : Plan} {handed : Option Request} {ms : List Move} {s : Stage}
    (h : s.On p handed ms) :
    ∃ c, p.course.Trace ms c ∧ s.StandsOn p c ∧ (s.isReady = true ↔ ms = []) := by
  have hne : ∀ {c : Course}, p.course.Trace ms c → c ≠ p.course → ms ≠ [] := by
    rintro c ht hc rfl
    cases ht
    exact hc rfl
  cases h with
  | ready => exact ⟨_, .nil _, .ready, iff_of_true rfl rfl⟩
  | resting ht => exact ⟨_, ht, .resting _ _ _, iff_of_false nofun (hne ht nofun)⟩
  | calling ht _ => exact ⟨_, ht, .calling _ _ _ _ _, iff_of_false nofun (hne ht nofun)⟩
  | parked ht => exact ⟨_, ht, .parked _, iff_of_false nofun (hne ht nofun)⟩

/-- A run at a stage stands on the course of its plan. -/
theorem Stage.On.exists_trace {p : Plan} {handed : Option Request} {ms : List Move} {s : Stage}
    (h : s.On p handed ms) : ∃ c, p.course.Trace ms c := by
  obtain ⟨c, ht, -⟩ := h.exists_standsOn
  exact ⟨c, ht⟩

namespace Bench

/-- A run is at this stage, and the runner shows what its moves told. -/
def Shows (b : Bench) (s : Stage) : Prop :=
  ∃ (p : Plan) (ms : List Move) (s₀ : Snapshot), s.On p b.requests.getLast? ms ∧
    s₀.cursor = none ∧ b.snapshot = s₀.hearAll (noticesOf ms)

/-- **A bench in order.** -/
structure Orderly (b : Bench) : Prop where
  going : ∀ run s, b.runner.progress? run = some (.going s) →
    b.runner.active = some run ∧ b.Shows s
  free : b.runner.active = none → b.snapshot.cursor = none

/-- The run is the active one, and no other run is going. -/
structure IsSole (b : Bench) (run : Nat) : Prop where
  active : b.runner.active = some run
  started : (b.runner.progress? run).isSome = true
  sole : ∀ other s, b.runner.progress? other = some (.going s) → other = run

variable {b b' : Bench} {run horizon : Nat} {ms : List Move}

theorem IsSole.isBusy (h : b.IsSole run) : b.IsBusy :=
  isBusy_of_active h.active

theorem IsSole.goes (h : b.IsSole run) (hg : b.Goes ms b') : b'.IsSole run where
  active := hg.active.trans h.active
  started := by
    rw [hg.progress]
    exact h.started
  sole other s hs := h.sole other s ((hg.progress other).symm.trans hs)

/-- A notice of the only run that is going comes to the audience as one piece, and the run is still
the only one then. -/
theorem IsSole.tells (h : b.IsSole run) (n : Notice) :
    ∃ js, Tells 0 n (b.observe n) js (b.tell n) ∧ b.Goes [.told n] (b.tell n).1 ∧
      (b.tell n).1.IsSole run := by
  obtain ⟨js, ht⟩ := Bench.tells h.isBusy n
  have hg := (goes_observe b n).trans ht.calm.goes
  exact ⟨js, ht, hg, h.goes hg⟩

/-- Listeners that never crash let the run tell to the end. -/
theorem IsSole.tell_ne_crash (h : b.IsSole run) (hs : b.IsSteady) (n : Notice) (c : Crash) :
    b.tell n ≠ (b', some c) := by
  obtain ⟨js, ht, -⟩ := h.tells n
  intro hn
  have hnone := ht.steady ((goes_observe b n).steady hs)
  rw [hn] at hnone
  cases hnone

theorem Orderly.isSole (h : b.Orderly) {s : Stage}
    (hs : b.runner.progress? run = some (.going s)) : b.IsSole run where
  active := (h.going run s hs).1
  started := by
    rw [hs]
    rfl
  sole other s' hs' := by
    have ha := (h.going run s hs).1
    rw [(h.going other s' hs').1] at ha
    exact Option.some.inj ha

/-! ## 2. Halts -/

/-- What is written down about the only run that is going. -/
theorem IsSole.map_progress? (h : b.IsSole run) (x : Progress) :
    ((b.runner.progress? run).map fun _ => x) = some x := by
  obtain ⟨y, hy⟩ := Option.isSome_iff_exists.mp h.started
  rw [hy]
  rfl

/-- When the only run that is going comes to `x`, no other run is going. -/
theorem IsSole.going_of_ite (h : b.IsSole run) {x : Progress} {other : Nat} {s : Stage}
    (hs : (if run = other then (b.runner.progress? other).map fun _ => x
      else b.runner.progress? other) = some (.going s)) : other = run ∧ x = .going s := by
  split at hs
  · rename_i he
    obtain ⟨_, -, hx⟩ := Option.map_eq_some_iff.mp hs
    exact ⟨he.symm, hx⟩
  · rename_i hne
    exact absurd (h.sole other s hs).symm hne

theorem progress?_conclude (o : RunOutcome) (other : Nat) :
    (b.conclude run o).runner.progress? other =
      if run = other then (b.runner.progress? other).map fun _ => .ended o
      else b.runner.progress? other :=
  Runner.progress?_release.trans (Runner.progress?_setOutcome o)

theorem projector_conclude (o : RunOutcome) :
    (b.conclude run o).runner.projector = b.runner.projector :=
  Runner.projector_release

theorem snapshot_conclude (o : RunOutcome) : (b.conclude run o).snapshot = b.snapshot :=
  congrArg Projector.snapshot (projector_conclude o)

theorem progress?_lose (c : Crash) (other : Nat) :
    (b.lose run c).runner.progress? other =
      if run = other then (b.runner.progress? other).map fun _ => .ended (.failed c.lostReason)
      else b.runner.progress? other :=
  Runner.progress?_setOutcome _

/-- After its end no run is going. -/
theorem IsSole.orderly_conclude (h : b.IsSole run) (hc : b.snapshot.cursor = none)
    (o : RunOutcome) : (b.conclude run o).Orderly where
  going other s hs := by
    rw [progress?_conclude] at hs
    cases (h.going_of_ite hs).2
  free _ := by
    rw [snapshot_conclude]
    exact hc

/-- After the loss of a run no run is going, and its slot stays taken. -/
theorem IsSole.orderly_lose (h : b.IsSole run) (c : Crash) : (b.lose run c).Orderly where
  going other s hs := by
    rw [progress?_lose] at hs
    cases (h.going_of_ite hs).2
  free hf := by
    change b.runner.active = none at hf
    rw [h.active] at hf
    cases hf

theorem progress?_suspend (s : Stage) (other : Nat) :
    (b.suspend run s).runner.progress? other =
      if run = other then (b.runner.progress? other).map fun _ => .going s
      else b.runner.progress? other :=
  Runner.progress?_setStage s

/-- A run that has to wait is at its new stage. -/
theorem IsSole.orderly_suspend (h : b.IsSole run) {s : Stage} (hs : b.Shows s) :
    (b.suspend run s).Orderly where
  going other s' hs' := by
    rw [progress?_suspend] at hs'
    obtain ⟨rfl, hx⟩ := h.going_of_ite hs'
    cases hx
    exact ⟨h.active, hs⟩
  free hf := by
    change b.runner.active = none at hf
    rw [h.active] at hf
    cases hf

theorem outcome?_of_going {s : Stage} (hs : b.runner.progress? run = some (.going s)) :
    b.outcome? run = none := by
  rw [outcome?, hs]
  rfl

theorem IsSole.progress?_suspend (h : b.IsSole run) (s : Stage) :
    (b.suspend run s).runner.progress? run = some (.going s) := by
  rw [Bench.progress?_suspend, if_pos rfl, h.map_progress?]

theorem IsSole.progress?_conclude (h : b.IsSole run) (o : RunOutcome) :
    (b.conclude run o).runner.progress? run = some (.ended o) := by
  rw [Bench.progress?_conclude, if_pos rfl, h.map_progress?]

/-- The end of the run gives its slot back. -/
theorem IsSole.active_conclude (h : b.IsSole run) (o : RunOutcome) :
    (b.conclude run o).runner.active = none := by
  have ha : (b.runner.setOutcome run o).active = some run := h.active
  rw [conclude, withRunner, Runner.release, if_pos ha]

theorem IsSole.progress?_lose (h : b.IsSole run) (c : Crash) :
    (b.lose run c).runner.progress? run = some (.ended (.failed c.lostReason)) := by
  rw [Bench.progress?_lose, if_pos rfl, h.map_progress?]

/-- A notice of a report is told, or a crash in the middle of it loses the run. -/
theorem IsSole.report {P : Bench → Prop} (h : b.IsSole run) {n : Notice} {next : Course}
    (hlose : ∀ b' c, b.Goes [.told n] b' → P (b'.lose run c))
    (hn : ∀ b', b.Goes [.told n] b' → P (follow run horizon (fun c b => b.lose run c) next b')) :
    P (follow run horizon (fun c b => b.lose run c) (.tell n next) b) := by
  obtain ⟨-, -, hg, -⟩ := h.tells n
  rw [follow]
  split
  · rename_i hc
    rw [hc] at hg
    exact hlose _ _ hg
  · rename_i hc
    rw [hc] at hg
    exact hn _ hg

/-- The notices with which a run is reported that was broken off. -/
def abortNotices (c : Crash) : List Notice :=
  [.log { kind := .error, message := c.abortReason }, .cursor none, .state .failed]

/-- **What becomes of a run that was broken off**: it is reported and ends, or it is lost. -/
theorem IsSole.abort_cases {P : Bench → Prop} (h : b.IsSole run) (c : Crash)
    (hlose : ∀ ms b' c', b.Goes ms b' → P (b'.lose run c'))
    (hend : ∀ b', b.Goes ((abortNotices c).map .told) b' →
      P (b'.conclude run (.failed c.abortReason))) :
    P (abort run horizon c b) := by
  have hg₀ : b.Goes [] (b.setSignals run (b.runner.signals run).abandon) :=
    goes_setSignals fun hs => hs
  refine (h.goes hg₀).report (fun b' c' hg => hlose _ b' c' (hg₀.trans hg)) fun b₁ hg₁ => ?_
  have hg₀₁ := hg₀.trans hg₁
  refine (h.goes hg₀₁).report (fun b' c' hg => hlose _ b' c' (hg₀₁.trans hg)) fun b₂ hg₂ => ?_
  have hg₀₂ := hg₀₁.trans hg₂
  refine (h.goes hg₀₂).report (fun b' c' hg => hlose _ b' c' (hg₀₂.trans hg)) fun b₃ hg₃ => ?_
  exact hend b₃ (hg₀₂.trans hg₃)

theorem IsSole.orderly_abort (h : b.IsSole run) (c : Crash) :
    (abort run horizon c b).Orderly := by
  refine h.abort_cases c (fun _ _ c' hg => (h.goes hg).orderly_lose c') fun b' hg => ?_
  refine (h.goes hg).orderly_conclude ?_ _
  rw [hg.snapshot]
  rfl

/-! ## 3. A run that is followed -/

/-- What the run waited for at a stage is over by the horizon.  It makes the move of which it
awaited the answer, or has made none yet, and the bench is then `b'`. -/
inductive Wakes (run horizon : Nat) (b : Bench) : Stage → List Move → Bench → Prop
  | ready (course : Course) : Wakes run horizon b (.ready course) [] b
  | rested {nanos due : Nat} {next : Wake → Course} {w : Wake} {b' : Bench}
      (h : b.restEnd? run horizon due = some (w, b')) :
      Wakes run horizon b (.resting due next) [.rested nanos w] b'
  | called {request : Request} {limit due : Option Nat} {result : Option CallResult}
      {next : Option CallResult → Course} {b' : Bench} (h : b.callEnd? horizon due = some b') :
      Wakes run horizon b (.calling due result next) [.called request limit result] b'
  | parked {next : Wake → Course} {w : Wake} (h : b.pauseEnd? run = some w) :
      Wakes run horizon b (.parked next) [.parked w] b

theorem Wakes.goes {s : Stage} (h : Wakes run horizon b s ms b') : b.Goes ms b' := by
  cases h with
  | ready => exact .refl b
  | rested hr => exact (goes_restEnd? hr).silent rfl
  | called hr => exact (goes_callEnd? hr).silent rfl
  | parked => exact (Goes.refl b).silent rfl

/-- A run that wakes changes nothing but the clock. -/
theorem Wakes.eq_clock {s : Stage} (h : Wakes run horizon b s ms b') :
    ∃ moment, b' = { b with now := moment } := by
  cases h with
  | ready | parked => exact ⟨b.now, rfl⟩
  | rested hr => exact eq_clock_of_restEnd? hr
  | called hr => exact eq_clock_of_callEnd? hr

/-- A run that wakes tells nothing. -/
theorem Wakes.noticesOf_eq {s : Stage} (h : Wakes run horizon b s ms b') : noticesOf ms = [] := by
  cases h <;> rfl

/-- **A run that is followed from a stage waits on, or wakes and goes along its course.** -/
theorem resume_wakes {s : Stage} {p : Plan} {c : Course} (b : Bench) (run horizon : Nat)
    (h : s.StandsOn p c) :
    (b.resume run horizon s = b ∧ s.isReady = false) ∨
      ∃ ms c' b', Wakes run horizon b s ms b' ∧ c.Trace ms c' ∧
        b.resume run horizon s = follow run horizon (abort run horizon) c' b' ∧
        (s.isReady = true → ms = [] ∧ c' = c ∧ b' = b) := by
  cases h with
  | ready => exact .inr ⟨[], _, b, .ready _, .nil _, rfl, fun _ => ⟨rfl, rfl, rfl⟩⟩
  | resting nanos due next =>
    cases hr : b.restEnd? run horizon due with
    | none => exact .inl ⟨by rw [resume, hr], rfl⟩
    | some wb =>
      refine .inr ⟨_, next wb.1, wb.2, .rested hr, .cons (.rest wb.1) (.nil _), ?_, nofun⟩
      rw [resume, hr]
  | calling request limit due result next =>
    cases hr : b.callEnd? horizon due with
    | none => exact .inl ⟨by rw [resume, hr], rfl⟩
    | some b' =>
      refine .inr ⟨_, next result, b', .called hr, .cons (.call result) (.nil _), ?_, nofun⟩
      rw [resume, hr]
  | parked next =>
    cases hr : b.pauseEnd? run with
    | none => exact .inl ⟨by rw [resume, hr], rfl⟩
    | some w =>
      refine .inr ⟨_, next w, b, .parked hr, .cons (.park w) (.nil _), ?_, nofun⟩
      rw [resume, hr]

theorem proceed_of_going {s : Stage} (horizon : Nat)
    (hs : b.runner.progress? run = some (.going s)) :
    b.proceed horizon run = b.resume run horizon s := by
  rw [proceed, hs]

theorem proceed_wakes (horizon : Nat) {s : Stage} {p : Plan} {handed : Option Request}
    (hs : b.runner.progress? run = some (.going s)) (hon : s.On p handed ms) :
    (b.proceed horizon run = b ∧ ms ≠ []) ∨
      ∃ ms' c b', Wakes run horizon b s ms' b' ∧ p.course.Trace (ms ++ ms') c ∧
        b.proceed horizon run = follow run horizon (abort run horizon) c b' ∧
        (ms = [] → ms' = [] ∧ c = p.course ∧ b' = b) := by
  obtain ⟨c₀, ht, hstands, hready⟩ := hon.exists_standsOn
  rw [proceed_of_going horizon hs]
  rcases resume_wakes b run horizon hstands with ⟨he, hr⟩ | ⟨ms', c, b', hw, ht', he, hfirst⟩
  · exact .inl ⟨he, fun hms => Bool.false_ne_true (hr.symm.trans (hready.mpr hms))⟩
  · refine .inr ⟨ms', c, b', hw, ht.append ht', he, fun hms => ?_⟩
    subst hms
    obtain ⟨rfl, rfl, rfl⟩ := hfirst (hready.mpr rfl)
    cases ht
    exact ⟨rfl, rfl, rfl⟩

/-- **What becomes of a run that is followed a little further.**  Either it still has to wait and
nothing happens, or it makes moves along its course to the next halt.  A run that was not followed
before begins with the question whether any device is connected. -/
theorem proceed_cases (horizon : Nat) {s : Stage} {p : Plan} {handed : Option Request}
    (hb : b.IsBusy) (hs : b.runner.progress? run = some (.going s)) (hon : s.On p handed ms) :
    (b.proceed horizon run = b ∧ ms ≠ []) ∨
      ∃ ms' c₁ b₁, p.course.Trace (ms ++ ms') c₁ ∧ b.Goes ms' b₁ ∧
        Halts run horizon (abort run horizon) c₁ b₁ (b.proceed horizon run) ∧
        (ms = [] → ∃ ms'', ms' = .foundAny b.registry.hasAny :: ms'') := by
  rcases proceed_wakes horizon hs hon with h | ⟨ms₁, c, b₀, hw, ht, he, hfirst⟩
  · exact .inl h
  · right
    obtain ⟨ms₂, c₁, b₁, ht₂, hms, hh⟩ := follow_makes run horizon (abort run horizon) c b₀
    rw [he]
    refine ⟨ms₁ ++ ms₂, c₁, b₁, ?_, hw.goes.trans (hms.goes (hw.goes.isBusy hb)), hh, fun hnil => ?_⟩
    · rw [← List.append_assoc]
      exact ht.append ht₂
    · obtain ⟨rfl, rfl, rfl⟩ := hfirst hnil
      cases ht₂ with
      | nil => cases hh
      | cons hm _ =>
        cases hm with
        | askAny a =>
          cases hms with
          | cons hb _ =>
            cases hb
            exact ⟨_, rfl⟩

theorem requests_note_sent (b : Bench) (r : Request) :
    (b.note (.sent r)).requests = b.requests ++ [r] :=
  List.filterMap_append

/-- A halt of the only run that is going leaves the bench in order. -/
theorem Halts.orderly {p : Plan} {s₀ : Snapshot} {c : Course}
    (h : Halts run horizon (abort run horizon) c b b') (hsole : b.IsSole run)
    (ht : p.course.Trace ms c) (hc : s₀.cursor = none)
    (hsnap : b.snapshot = s₀.hearAll (noticesOf ms)) : b'.Orderly := by
  cases h with
  | ended r =>
    refine hsole.orderly_conclude ?_ _
    rw [hsnap]
    exact cursor_of_ended_run ht hc
  | @broken n _ _ _ _ hn =>
    obtain ⟨-, -, -, hsole'⟩ := hsole.tells n
    rw [hn] at hsole'
    exact hsole'.orderly_abort _
  | resting => exact hsole.orderly_suspend ⟨p, ms, s₀, .resting ht, hc, hsnap⟩
  | @calling request _ _ _ _ _ _ =>
    refine (hsole.goes (goes_note b (.sent request))).orderly_suspend
      ⟨p, ms, s₀, .calling ht ?_, hc, hsnap⟩
    rw [requests_note_sent, List.getLast?_append]
    rfl
  | parked => exact hsole.orderly_suspend ⟨p, ms, s₀, .parked ht, hc, hsnap⟩

/-- A halt of a run leaves the others where they are. -/
theorem Halts.progress?_eq {c : Course} {other : Nat}
    (h : Halts run horizon (abort run horizon) c b b') (hsole : b.IsSole run) (hne : run ≠ other) :
    b'.runner.progress? other = b.runner.progress? other := by
  cases h with
  | ended r => rw [progress?_conclude, if_neg hne]
  | @broken n _ _ b₁ c hn =>
    obtain ⟨-, -, hg, -⟩ := hsole.tells n
    rw [hn] at hg
    have hkeep : (abort run horizon c b₁).runner.progress? other = b₁.runner.progress? other := by
      refine (hsole.goes hg).abort_cases (P := fun x => x.runner.progress? other = _) c
        (fun _ b₂ c' hg₂ => ?_) fun b₂ hg₂ => ?_
      · rw [progress?_lose, if_neg hne, hg₂.progress]
      · rw [progress?_conclude, if_neg hne, hg₂.progress]
    exact hkeep.trans (hg.progress other)
  | resting => rw [progress?_suspend, if_neg hne]
  | calling =>
    rw [progress?_suspend, if_neg hne]
    rfl
  | parked => rw [progress?_suspend, if_neg hne]

/-- A run that is not going is not followed. -/
theorem proceed_of_not_going (hs : ∀ s, b.runner.progress? run ≠ some (.going s)) :
    b.proceed horizon run = b := by
  unfold proceed
  split
  · rename_i s hg
    exact absurd hg (hs s)
  · rfl

/-- **What following a run does to a bench in order**: nothing, or the run, the only one that is
going, makes moves to its next halt. -/
theorem Orderly.proceed_cases (h : b.Orderly) (horizon run : Nat) :
    b.proceed horizon run = b ∨
      ∃ (p : Plan) (ms ms' : List Move) (s₀ : Snapshot) (c : Course) (b₁ : Bench),
        (∃ s, b.runner.progress? run = some (.going s)) ∧ b.Goes ms' b₁ ∧ b₁.IsSole run ∧
        p.course.Trace ms c ∧ s₀.cursor = none ∧ b₁.snapshot = s₀.hearAll (noticesOf ms) ∧
        Halts run horizon (abort run horizon) c b₁ (b.proceed horizon run) := by
  by_cases hg : ∃ s, b.runner.progress? run = some (.going s)
  · obtain ⟨s, hs⟩ := hg
    obtain ⟨p, ms, s₀, hon, hc, hsnap⟩ := (h.going run s hs).2
    have hsole := h.isSole hs
    rcases Bench.proceed_cases horizon hsole.isBusy hs hon with
      ⟨he, -⟩ | ⟨ms', c, b₁, ht, hg, hh, -⟩
    · exact .inl he
    · refine .inr ⟨p, ms ++ ms', ms', s₀, c, b₁, ⟨s, hs⟩, hg, hsole.goes hg, ht, hc, ?_, hh⟩
      rw [hg.snapshot, hsnap, noticesOf_append, Snapshot.hearAll_append]
  · exact .inl (proceed_of_not_going (not_exists.mp hg))

/-- Following a run on a bench in order does nothing, or the run, which is going, wakes and is followed
along some course. -/
theorem Orderly.proceed_follows (h : b.Orderly) (horizon run : Nat) :
    b.proceed horizon run = b ∨
      ∃ (s : Stage) (ms : List Move) (c : Course) (b₁ : Bench),
        b.runner.progress? run = some (.going s) ∧ Wakes run horizon b s ms b₁ ∧
        b.proceed horizon run = follow run horizon (abort run horizon) c b₁ := by
  by_cases hg : ∃ s, b.runner.progress? run = some (.going s)
  · obtain ⟨s, hs⟩ := hg
    obtain ⟨-, p, ms, -, hon, -⟩ := h.going run s hs
    rcases proceed_wakes horizon hs hon with ⟨he, -⟩ | ⟨ms', c, b₁, hw, -, he, -⟩
    · exact .inl he
    · exact .inr ⟨s, ms', c, b₁, hs, hw, he⟩
  · exact .inl (proceed_of_not_going (not_exists.mp hg))

/-- Following a run leaves the others where they are. -/
theorem Orderly.progress?_proceed {other : Nat} (h : b.Orderly) (horizon : Nat) (hne : run ≠ other) :
    (b.proceed horizon run).runner.progress? other = b.runner.progress? other := by
  rcases h.proceed_cases horizon run with he | ⟨p, ms, ms', s₀, c, b₁, -, hg, hsole, -, -, -, hh⟩
  · rw [he]
  · rw [hh.progress?_eq hsole hne, hg.progress]

/-- **Following a run keeps a bench in order.** -/
theorem Orderly.proceed (h : b.Orderly) (horizon run : Nat) : (b.proceed horizon run).Orderly := by
  rcases h.proceed_cases horizon run with
    he | ⟨p, ms, ms', s₀, c, b₁, -, -, hsole, ht, hc, hsnap, hh⟩
  · rw [he]
    exact h
  · exact hh.orderly hsole ht hc hsnap

/-! ## 4. What operators do -/

/-- A bench on which no run has made a move since its start, and that shows no line. -/
structure IsResting (b : Bench) : Prop where
  ready : ∀ run s, b.runner.progress? run = some (.going s) →
    b.runner.active = some run ∧ ∃ p : Plan, s = .ready p.course
  cursor : b.snapshot.cursor = none

theorem IsResting.orderly (h : b.IsResting) : b.Orderly where
  going run s hs := by
    obtain ⟨ha, p, rfl⟩ := h.ready run s hs
    exact ⟨ha, p, [], b.snapshot, .ready, h.cursor, rfl⟩
  free _ := h.cursor

/-- Without an active run a bench in order is at rest. -/
theorem Orderly.isResting (h : b.Orderly) (ha : b.runner.active = none) : b.IsResting where
  ready run s hs := by
    have hr := (h.going run s hs).1
    rw [ha] at hr
    cases hr
  cursor := h.free ha

theorem IsResting.goes (h : b.IsResting) (hg : b.Goes ms b')
    (hc : b'.snapshot.cursor = none) : b'.IsResting where
  ready run s hs := by
    rw [hg.active]
    exact h.ready run s ((hg.progress run).symm.trans hs)
  cursor := hc

/-- A run that is started rests. -/
theorem IsResting.start (h : b.IsResting) {p : Plan} {r : Runner}
    (hr : b.runner.start? b.registry.hasAny p.course = .ok r) : (b.withRunner r).IsResting := by
  obtain ⟨ha, ha', hp, hprog⟩ := Runner.start?_eq_ok hr
  constructor
  · intro run s hs
    change r.progress? run = _ at hs
    rw [hprog] at hs
    split at hs
    · rename_i hrun
      cases hs
      exact ⟨hrun ▸ ha', p, rfl⟩
    · have hr := (h.ready run s hs).1
      rw [ha] at hr
      cases hr
  · change r.projector.snapshot.cursor = none
    rw [hp]
    exact h.cursor

/-- A notice that shows no line. -/
def ShowsNoLine (n : Notice) : Prop := ∀ line, n = .cursor line → line = none

theorem showsNoLine_of_mem_resetNotices? {r : Runner} {ns : List Notice}
    (h : r.resetNotices? = .ok ns) : ∀ n ∈ ns, ShowsNoLine n := by
  intro n hn line hl
  rcases (Runner.resetNotices?_eq_ok h).2 n hn with rfl | rfl
  · exact (Notice.cursor.inj hl).symm
  · cases hl

/-- **A reset keeps a bench at rest**, whatever the listeners do in the middle of it. -/
theorem kept_isResting : Kept ShowsNoLine IsResting where
  observe {n b} hn h := by
    refine h.goes (goes_observe b n) ?_
    rw [(goes_observe b n).snapshot]
    cases n with
    | cursor line => exact hn line rfl
    | _ => exact h.cursor
  inform {m n b} h := by
    unfold inform
    split <;> exact ⟨h.ready, h.cursor⟩
  note h := ⟨h.ready, h.cursor⟩
  control {tell} ht c b h := by
    rcases control_cases b tell c with ⟨b', a, hc, hcalm⟩ | ⟨p, r, hr, hc⟩ | ⟨-, ns, hr, hc⟩
    · rw [hc]
      refine h.goes hcalm.goes ?_
      rw [hcalm.snapshot]
      exact h.cursor
    · rw [hc]
      exact h.start hr
    · rw [hc]
      exact keeps_tellAll ht (showsNoLine_of_mem_resetNotices? hr) h

/-- Listeners that never crash stay such. -/
theorem kept_isSteady : Kept (fun _ => True) IsSteady where
  observe {n b} _ h := (goes_observe b n).steady h
  inform {m n b} h := by
    unfold inform
    split
    · exact h
    · rename_i x hx
      intro y hy
      rcases List.mem_or_eq_of_mem_set hy with hy | rfl
      · exact h y hy
      · exact Member.isSteady_hear (h x (List.mem_of_getElem? hx)) _ _ _
  note h := h
  control {tell} ht c b h := by
    rcases control_cases b tell c with ⟨b', a, hc, hcalm⟩ | ⟨p, r, hr, hc⟩ | ⟨-, ns, hr, hc⟩
    · rw [hc]
      exact hcalm.steady h
    · rw [hc]
      exact h
    · rw [hc]
      exact keeps_tellAll ht (fun _ _ => trivial) h

/-- What hands nothing over leaves the commands that were handed over. -/
theorem requests_of_unsent {js : List (Nat × Happening)} (hj : b'.journal = b.journal ++ js)
    (hu : ∀ e ∈ js, ∀ r, e.2 ≠ .sent r) : b'.requests = b.requests := by
  unfold Bench.requests
  rw [hj, List.filterMap_append]
  refine (congrArg _ (List.filterMap_eq_nil_iff.mpr ?_)).trans (List.append_nil _)
  rintro ⟨t, x⟩ he
  cases x with
  | sent r => exact absurd rfl (hu _ he r)
  | _ => rfl

theorem Calm.requests {js : List (Nat × Happening)} (h : b.Calm js b') :
    b'.requests = b.requests :=
  requests_of_unsent h.journal h.unsent

theorem Orderly.calm {js : List (Nat × Happening)} (h : b.Orderly) (hc : b.Calm js b') :
    b'.Orderly where
  going run s hs := by
    obtain ⟨ha, p, ms, s₀, hon, h₀, hsnap⟩ := h.going run s ((hc.progress run).symm.trans hs)
    refine ⟨hc.active.trans ha, p, ms, s₀, ?_, h₀, hc.snapshot.trans hsnap⟩
    rw [hc.requests]
    exact hon
  free hf := by
    rw [hc.snapshot]
    exact h.free (hc.active.symm.trans hf)

/-- **What an operator does keeps a bench in order.** -/
theorem Orderly.control (h : b.Orderly) (c : Control) :
    (b.control (fun n b => b.tell n) c).1.Orderly := by
  cases ha : b.runner.active with
  | none => exact (kept_isResting.operate (h.isResting ha) c).orderly
  | some run =>
    obtain ⟨b', a, hc, hcalm⟩ := calm_control (isBusy_of_active ha) (fun n b => b.tell n) c
    rw [hc]
    exact h.calm hcalm

/-! ## 5. All histories -/

theorem Orderly.turn (h : b.Orderly) : ∀ t : Turn, (b.turn t).Orderly
  | .control c => h.control c
  | .devices _ => h.calm { Calm.refl b with }
  | .clock _ => ⟨h.going, h.free⟩
  | .proceed horizon run => h.proceed horizon run

theorem Orderly.after : ∀ {turns : List Turn} {b : Bench}, b.Orderly → (b.after turns).Orderly
  | [], _, h => h
  | t :: _, _, h => (h.turn t).after

/-- A bench on which nothing has happened is in order. -/
theorem orderly_create (logCapacity : Nat) (timing : Timing) (registry : Registry)
    (gateway : Gateway) (members : List Member) (nesting : Nat) :
    (create logCapacity timing registry gateway members nesting).Orderly where
  going _ _ hs := by cases hs
  free _ := rfl

/-- **Every bench that came about is in order.** -/
theorem orderly_of_isReachable (h : b.IsReachable) : b.Orderly := by
  obtain ⟨logCapacity, timing, registry, gateway, members, nesting, turns, rfl⟩ := h
  exact (orderly_create logCapacity timing registry gateway members nesting).after

/-! ## 6. Outcomes stand -/

theorem kept_ended {o : RunOutcome} : Kept (fun _ => True)
    (fun b => b.runner.progress? run = some (.ended o)) where
  observe {n b} _ h := ((goes_observe b n).progress run).trans h
  inform {m n b} h := by
    unfold inform
    split <;> exact h
  note h := h
  control {tell} ht c b h := by
    rcases control_cases b tell c with ⟨b', a, hc, hcalm⟩ | ⟨p, r, hr, hc⟩ | ⟨-, ns, hr, hc⟩
    · rw [hc]
      exact (hcalm.progress run).trans h
    · rw [hc]
      obtain ⟨-, -, -, hprog⟩ := Runner.start?_eq_ok hr
      have hlt := Runner.lt_of_progress? h
      exact (hprog run).trans ((if_neg (Nat.ne_of_lt hlt)).trans h)
    · rw [hc]
      exact keeps_tellAll ht (fun _ _ => trivial) h

theorem Orderly.ended_proceed {o : RunOutcome} (h : b.Orderly)
    (ho : b.runner.progress? run = some (.ended o)) (horizon other : Nat) :
    (b.proceed horizon other).runner.progress? run = some (.ended o) := by
  by_cases hne : other = run
  · subst hne
    rw [proceed_of_not_going fun s hs => by cases ho.symm.trans hs]
    exact ho
  · rw [h.progress?_proceed horizon hne]
    exact ho

/-- **The outcome of a run stands**, whatever happens later. -/
theorem Orderly.ended_after {o : RunOutcome} : ∀ {turns : List Turn} {b : Bench}, b.Orderly →
    b.runner.progress? run = some (.ended o) →
    (b.after turns).runner.progress? run = some (.ended o)
  | [], _, _, ho => ho
  | .control c :: _, _, h, ho => (h.control c).ended_after (kept_ended.operate ho c)
  | .devices r :: _, _, h, ho => (h.turn (.devices r)).ended_after ho
  | .clock t :: _, _, h, ho => (h.turn (.clock t)).ended_after ho
  | .proceed horizon other :: _, _, h, ho =>
    (h.proceed horizon other).ended_after (h.ended_proceed ho horizon other)

theorem Orderly.ended_turn {o : RunOutcome} (h : b.Orderly)
    (ho : b.runner.progress? run = some (.ended o)) (t : Turn) :
    (b.turn t).runner.progress? run = some (.ended o) :=
  @Orderly.ended_after run o [t] b h ho

/-! ## 7. Listeners stay steady -/

theorem Halts.isSteady {c : Course} {broken : Crash → Bench → Bench}
    (h : Halts run horizon broken c b b') (hsole : b.IsSole run) (hs : b.IsSteady) :
    b'.IsSteady := by
  cases h with
  | ended | resting | calling | parked => exact hs
  | broken hn => exact absurd hn (hsole.tell_ne_crash hs _ _)

theorem Orderly.isSteady_turn (h : b.Orderly) (hs : b.IsSteady) : ∀ t : Turn, (b.turn t).IsSteady
  | .control c => kept_isSteady.operate hs c
  | .devices _ => hs
  | .clock _ => hs
  | .proceed horizon run => by
    rcases h.proceed_cases horizon run with
      he | ⟨p, ms, ms', s₀, c, b₁, -, hg, hsole, -, -, -, hh⟩
    · rw [Bench.turn, he]
      exact hs
    · exact hh.isSteady hsole (hg.steady hs)

/-- **Listeners that never crash when they join never will.** -/
theorem Orderly.isSteady_after : ∀ {turns : List Turn} {b : Bench}, b.Orderly → b.IsSteady →
    (b.after turns).IsSteady
  | [], _, _, hs => hs
  | t :: _, _, h, hs => (h.turn t).isSteady_after (h.isSteady_turn hs t)

/-! ## 8. What a run keeps -/

/-- **The property `P` of benches is kept by a run**: by what it tells and hands over, by the time that
it takes, by what is written down about it, and by its end. -/
structure KeptByRun (run : Nat) (P : Bench → Prop) : Prop where
  tell : ∀ (n : Notice) {b : Bench}, P b → P (b.tell n).1
  sent : ∀ {r : Request} {b : Bench}, P b → P (b.note (.sent r))
  clock : ∀ {moment : Nat} {b : Bench}, P b → P { b with now := moment }
  signals : ∀ {s : Signals} {b : Bench}, P b → P (b.setSignals run s)
  suspend : ∀ {s : Stage} {b : Bench}, P b → P (b.suspend run s)
  conclude : ∀ {o : RunOutcome} {b : Bench}, P b → P (b.conclude run o)
  lose : ∀ {c : Crash} {b : Bench}, P b → P (b.lose run c)

namespace KeptByRun

variable {P : Bench → Prop} {m : Move} {broken : Crash → Bench → Bench}

theorem restEnd? (h : KeptByRun run P) {due : Nat} {w : Wake}
    (hr : b.restEnd? run horizon due = some (w, b')) (hb : P b) : P b' := by
  obtain ⟨moment, rfl⟩ := eq_clock_of_restEnd? hr
  exact h.clock hb

theorem callEnd? (h : KeptByRun run P) {due : Option Nat}
    (hr : b.callEnd? horizon due = some b') (hb : P b) : P b' := by
  obtain ⟨moment, rfl⟩ := eq_clock_of_callEnd? hr
  exact h.clock hb

theorem makes (h : KeptByRun run P) (hm : Makes run horizon b m b') (hb : P b) : P b' := by
  cases hm with
  | @told _ n ht =>
    have h₁ := h.tell n hb
    rw [ht] at h₁
    exact h₁
  | foundAny | foundDevice | foundStop | parked => exact hb
  | rested hr => exact h.restEnd? hr hb
  | called _ hr => exact h.callEnd? hr (h.sent hb)
  | armed | disarmed => exact h.signals hb

theorem makesAll (h : KeptByRun run P) (hms : MakesAll run horizon b ms b') (hb : P b) : P b' := by
  induction hms with
  | nil => exact hb
  | cons hm _ ih => exact ih (h.makes hm hb)

theorem halts (h : KeptByRun run P) (hbroken : ∀ c b, P b → P (broken c b)) {c : Course}
    (hh : Halts run horizon broken c b b') (hb : P b) : P b' := by
  cases hh with
  | ended => exact h.conclude hb
  | @broken n _ _ _ _ ht =>
    have h₁ := h.tell n hb
    rw [ht] at h₁
    exact hbroken _ _ h₁
  | resting | parked => exact h.suspend hb
  | calling => exact h.suspend (h.sent hb)

/-- A run that is followed keeps it, since it makes moves and comes to a halt. -/
theorem follow (h : KeptByRun run P) (hbroken : ∀ c b, P b → P (broken c b)) (c : Course)
    (hb : P b) : P (Bench.follow run horizon broken c b) := by
  obtain ⟨ms, c₁, b₁, -, hms, hh⟩ := follow_makes run horizon broken c b
  exact h.halts hbroken hh (h.makesAll hms hb)

theorem abort (h : KeptByRun run P) (c : Crash) (b : Bench) (hb : P b) :
    P (Bench.abort run horizon c b) :=
  h.follow (fun _ _ => h.lose) c.abortReport (h.signals hb)

theorem resume (h : KeptByRun run P) (hb : P b) (s : Stage) : P (b.resume run horizon s) := by
  cases s with
  | ready course => exact h.follow h.abort course hb
  | resting due next =>
    rw [Bench.resume]
    split
    · rename_i hr
      exact h.follow h.abort _ (h.restEnd? hr hb)
    · exact hb
  | calling due result next =>
    rw [Bench.resume]
    split
    · rename_i hr
      exact h.follow h.abort _ (h.callEnd? hr hb)
    · exact hb
  | parked next =>
    rw [Bench.resume]
    split
    · exact h.follow h.abort _ hb
    · exact hb

/-- **A turn of the run keeps it.** -/
theorem proceed (h : KeptByRun run P) (hb : P b) (horizon : Nat) : P (b.proceed horizon run) := by
  unfold Bench.proceed
  split
  · exact h.resume hb _
  · exact hb

end KeptByRun

/-! ## 9. What lasts -/

/-- **The property `P` of benches lasts.**  Nothing that is told can change it, nor what a run or an
operator does besides: these leave another runner behind, another moment, other devices, or a line in
the journal which does not say that anyone was told something. -/
structure Lasting (P : Bench → Prop) : Prop where
  observe : ∀ {n : Notice} {b : Bench}, P b → P (b.observe n)
  inform : ∀ {m : Nat} {n : Notice} {b : Bench}, P b → P (b.inform m n).1
  note : ∀ {h : Happening} {b : Bench}, (∀ m, heardIn m (b.now, h) = none) → P b → P (b.note h)
  runner : ∀ {r : Runner} {b : Bench}, P b → P (b.withRunner r)
  clock : ∀ {moment : Nat} {b : Bench}, P b → P { b with now := moment }
  devices : ∀ {registry : Registry} {b : Bench}, P b → P { b with registry := registry }

namespace Lasting

variable {P : Bench → Prop}

/-- A control does not change what the way of telling its notices does not change. -/
theorem control (h : Lasting P) {tell : Notice → Bench → Bench × Option Crash}
    (ht : ∀ n b, True → P b → P (tell n b).1) (c : Control) (b : Bench) (hb : P b) :
    P (b.control tell c).1 := by
  cases c with
  | start script mode =>
    rw [Bench.control]
    split
    · exact h.runner hb
    · exact hb
  | reset => exact keeps_reset ht (fun _ _ _ => trivial) hb
  | setConnected => exact h.devices hb
  | stop | continueRun | stopRun | continueThe => exact h.runner hb

theorem keptByActs (h : Lasting P) : KeptByActs (fun _ => True) P where
  observe _ := h.observe
  inform := h.inform
  crashed := h.note fun _ => rfl
  refused {_} ht {c _ b _} he hb := by
    have h₁ := h.control ht c b hb
    rwa [he] at h₁
  acted {_} ht {_ c _ b _} he hb := by
    have h₁ := h.control ht c b hb
    rw [he] at h₁
    exact h.note (fun _ => rfl) h₁

theorem tell (h : Lasting P) (n : Notice) (hb : P b) : P (b.tell n).1 :=
  h.keptByActs.tellWithin b.nesting n b trivial hb

/-- No run changes what lasts. -/
theorem keptByRun (h : Lasting P) (run : Nat) : KeptByRun run P where
  tell n _ := h.tell n
  sent := h.note fun _ => rfl
  clock := h.clock
  signals := h.runner
  suspend := h.runner
  conclude := h.runner
  lose := h.runner

/-- **What lasts holds after every turn.** -/
theorem turn (h : Lasting P) (hb : P b) : ∀ t : Turn, P (b.turn t)
  | .control c => h.control (fun n _ _ => h.tell n) c b hb
  | .devices _ => h.devices hb
  | .clock _ => h.clock hb
  | .proceed horizon run => (h.keptByRun run).proceed hb horizon

theorem after (h : Lasting P) : ∀ (turns : List Turn) {b : Bench}, P b → P (b.after turns)
  | [], _, hb => hb
  | t :: turns, _, hb => h.after turns (h.turn hb t)

end Lasting

/-- Nobody joins the audience, and nobody leaves it. -/
theorem lasting_size (k : Nat) : Lasting (·.members.length = k) where
  observe {n b} h := by
    rw [(observe_eq b n).2]
    exact h
  inform {m n b} h := by
    unfold inform
    split
    · exact h
    · exact List.length_set.trans h
  note _ h := h
  runner h := h
  clock h := h
  devices h := h

/-- Nothing changes where commands go. -/
theorem lasting_gateway (g : Gateway) : Lasting (·.gateway = g) where
  observe h := h
  inform {m n b} h := by
    unfold inform
    split <;> exact h
  note _ h := h
  runner h := h
  clock h := h
  devices h := h

/-- The journal only grows. -/
theorem lasting_journal (j : List (Nat × Happening)) : Lasting (j <+: ·.journal) where
  observe h := h
  inform {m n b} h := by
    unfold inform
    split
    · exact h
    · exact h.trans (List.prefix_append _ _)
  note _ h := h.trans (List.prefix_append _ _)
  runner h := h
  clock h := h
  devices h := h

theorem size_turn (b : Bench) (t : Turn) : (b.turn t).members.length = b.members.length :=
  (lasting_size _).turn rfl t

theorem journal_isPrefix_turn (b : Bench) (t : Turn) : b.journal <+: (b.turn t).journal :=
  (lasting_journal b.journal).turn List.prefix_rfl t

theorem size_after (turns : List Turn) (b : Bench) :
    (b.after turns).members.length = b.members.length :=
  (lasting_size _).after turns rfl

end Bench

end DeviceScript
