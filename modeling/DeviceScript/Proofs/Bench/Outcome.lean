import DeviceScript.Proofs.Bench.History
/-!
# What a runner shows of a run that ended

The outcome of a run goes to whoever started it, and the state in which it ended is what the runner
shows to everyone else.  This module settles when the two agree.

A run that got past its first question, whether any device is connected, tells the state in which it
ends, and leaves its line before (`hearAll_of_ended_run`).  A run that did not get past it tells
nothing at all: its outcome is a failure, and the runner shows what it showed before
(`Bench.isSettled_proceed`).  So outcome and state agree, unless all devices went away between the
start of a run and its first move; then they agree only if the run before had failed
(`Bench.snapshot_of_ended_run_iff`).  Until a later run is followed or a reset is done, nothing
changes what is shown (`Bench.IsSettled.after`).
-/

namespace DeviceScript

/-! ## 1. After the end of a run -/

/-- A turn that neither resets the runner nor follows a run that was started after this one. -/
def Turn.IsStill (run : Nat) : Turn → Prop
  | control c => c ≠ .reset
  | proceed _ other => other ≤ run
  | devices _ | clock _ => True

namespace Bench

/-- The run has ended with this outcome, no run before it is going, and this is shown. -/
structure IsSettled (b : Bench) (run : Nat) (o : RunOutcome) (shown : Snapshot) : Prop where
  outcome : b.runner.progress? run = some (.ended o)
  earlier : ∀ other, other ≤ run → ∀ s, b.runner.progress? other ≠ some (.going s)
  snapshot : b.snapshot = shown

variable {b b' : Bench} {run horizon : Nat} {o : RunOutcome} {shown : Snapshot}

theorem IsSettled.outcome?_eq (h : b.IsSettled run o shown) : b.outcome? run = some o := by
  rw [outcome?, h.outcome]
  rfl

theorem IsSettled.calm {js : List (Nat × Happening)} (h : b.IsSettled run o shown)
    (hc : b.Calm js b') : b'.IsSettled run o shown where
  outcome := (hc.progress run).trans h.outcome
  earlier other hle s hs := h.earlier other hle s ((hc.progress other).symm.trans hs)
  snapshot := hc.snapshot.trans h.snapshot

/-- A run that is started later is another one. -/
theorem IsSettled.start (h : b.IsSettled run o shown) {course : Course} {r : Runner}
    (hr : b.runner.start? b.registry.hasAny course = .ok r) :
    (b.withRunner r).IsSettled run o shown := by
  obtain ⟨-, -, hp, hprog⟩ := Runner.start?_eq_ok hr
  have hlt : run < b.runner.runs.length := Runner.lt_of_progress? h.outcome
  have hsame : ∀ other, other ≤ run → r.progress? other = b.runner.progress? other := by
    intro other hle
    rw [hprog, if_neg (by omega)]
  refine ⟨(hsame run (Nat.le_refl run)).trans h.outcome, ?_, ?_⟩
  · intro other hle s hs
    exact h.earlier other hle s ((hsame other hle).symm.trans hs)
  · exact (congrArg Projector.snapshot hp).trans h.snapshot

theorem IsSettled.turn (h : b.IsSettled run o shown) :
    ∀ {t : Turn}, t.IsStill run → (b.turn t).IsSettled run o shown
  | .control c, hc => by
    rcases control_cases b (fun n b => b.tell n) c with
      ⟨b', a, he, hcalm⟩ | ⟨p, r, hr, he⟩ | ⟨rfl, -⟩
    · rw [Bench.turn, he]
      exact h.calm hcalm
    · rw [Bench.turn, he]
      exact h.start hr
    · exact absurd rfl hc
  | .devices _, _ => ⟨h.outcome, h.earlier, h.snapshot⟩
  | .clock _, _ => ⟨h.outcome, h.earlier, h.snapshot⟩
  | .proceed _ other, hle => by
    rw [Bench.turn, proceed_of_not_going (h.earlier other hle)]
    exact h

/-- **What is shown stays**, as long as no later run is followed and no reset is done. -/
theorem IsSettled.after : ∀ {turns : List Turn} {b : Bench}, b.IsSettled run o shown →
    (∀ t ∈ turns, t.IsStill run) → (b.after turns).IsSettled run o shown
  | [], _, h, _ => h
  | t :: _, _, h, ht =>
    (h.turn (ht t List.mem_cons_self)).after fun t' ht' => ht t' (List.mem_cons_of_mem t ht')

/-! ## 2. The end of a run -/

end Bench

/-- A run that finds no device connected ends there. -/
theorem Course.eq_of_trace_foundAny_false {p : Plan} {ms : List Move} {c : Course}
    (h : p.course.Trace (.foundAny false :: ms) c) :
    ms = [] ∧ c = .ended (.error .noDeviceConnected) := by
  cases h with
  | cons hm ht =>
    cases hm
    cases ht with
    | nil => exact ⟨rfl, rfl⟩
    | cons hm _ => cases hm

/-- A run that has made moves and waits has found a device connected. -/
theorem Stage.On.isReady_iff {p : Plan} {handed : Option Request} {ms : List Move} {s : Stage}
    (h : s.On p handed ms) : (ms = [] ∧ s.isReady = true) ∨
      s.isReady = false ∧ ∃ ms', ms = .foundAny true :: ms' := by
  have key : ∀ {c : Course}, p.course.Trace ms c → c ≠ p.course →
      c ≠ .ended (.error .noDeviceConnected) → ∃ ms', ms = .foundAny true :: ms' := by
    intro c ht hc hc'
    cases ht with
    | nil => exact absurd rfl hc
    | cons hm ht' =>
      cases hm with
      | askAny a =>
        cases a with
        | true => exact ⟨_, rfl⟩
        | false =>
          exact absurd (Course.eq_of_trace_foundAny_false (.cons (.askAny false) ht')).2 hc'
  cases h with
  | ready => exact .inl ⟨rfl, rfl⟩
  | resting ht => exact .inr ⟨rfl, key ht nofun nofun⟩
  | calling ht _ => exact .inr ⟨rfl, key ht nofun nofun⟩
  | parked ht => exact .inr ⟨rfl, key ht nofun nofun⟩

namespace Bench

variable {b b' : Bench} {run horizon : Nat} {s : Stage} {o : RunOutcome}

theorem IsSole.isSettled_conclude (h : b.IsSole run) (o : RunOutcome) :
    (b.conclude run o).IsSettled run o b.snapshot where
  outcome := h.progress?_conclude o
  earlier other _ s hs := by
    rw [Bench.progress?_conclude] at hs
    cases (h.going_of_ite hs).2
  snapshot := snapshot_conclude o

/-- Listeners that never crash leave a run only one way to have an outcome after a halt. -/
theorem Halts.eq_ended {c : Course} {broken : Crash → Bench → Bench}
    (h : Halts run horizon broken c b b') (hsole : b.IsSole run) (hsteady : b.IsSteady)
    (ho : b'.outcome? run = some o) :
    ∃ r, c = .ended r ∧ o = Course.outcomeOf r ∧ b' = b.conclude run o := by
  cases h with
  | ended r =>
    rw [outcome?, hsole.progress?_conclude] at ho
    cases ho
    exact ⟨r, rfl, rfl, rfl⟩
  | broken hn => exact absurd hn (hsole.tell_ne_crash hsteady _ _)
  | resting =>
    rw [outcome?_of_going (hsole.progress?_suspend _)] at ho
    cases ho
  | @calling request _ _ _ _ _ _ =>
    have hsole' := hsole.goes (goes_note b (.sent request))
    rw [outcome?_of_going (hsole'.progress?_suspend _)] at ho
    cases ho
  | parked =>
    rw [outcome?_of_going (hsole.progress?_suspend _)] at ho
    cases ho

/-- **What a run leaves behind when it ends.**  If it had made no move and no device is connected,
its outcome is a failure and what is shown stays.  Otherwise no line is shown, and the state of its
outcome. -/
theorem isSettled_proceed (h : b.Orderly) (hsteady : b.IsSteady)
    (hs : b.runner.progress? run = some (.going s))
    (ho : (b.proceed horizon run).outcome? run = some o) :
    (s.isReady = true ∧ b.registry.hasAny = false ∧
        o = .failed Refusal.noDeviceConnected.message ∧
        (b.proceed horizon run).IsSettled run o b.snapshot) ∨
      ¬ (s.isReady = true ∧ b.registry.hasAny = false) ∧
        (b.proceed horizon run).IsSettled run o ⟨o.state, none⟩ := by
  have hsole := h.isSole hs
  obtain ⟨p, ms, s₀, hon, hc, hsnap⟩ := (h.going run s hs).2
  rcases proceed_cases horizon hsole.isBusy hs hon with
    ⟨he, -⟩ | ⟨ms', c₁, b₁, ht, hg, hh, hfirst⟩
  · rw [he, outcome?_of_going hs] at ho
    cases ho
  · obtain ⟨r, rfl, rfl, he⟩ := hh.eq_ended (hsole.goes hg) (hg.steady hsteady) ho
    have hset := (hsole.goes hg).isSettled_conclude (Course.outcomeOf r)
    have hsnap₁ : b₁.snapshot = s₀.hearAll (noticesOf (ms ++ ms')) := by
      rw [hg.snapshot, hsnap, noticesOf_append, Snapshot.hearAll_append]
    rw [he]
    rcases Plan.runMoves_of_trace ht with ⟨hms, rfl⟩ | ⟨o, ms'', rfl, hms, -⟩
    · -- No device was connected.
      left
      rcases hon.isReady_iff with ⟨rfl, hr⟩ | ⟨-, ms'', rfl⟩
      · obtain ⟨ms'', rfl⟩ := hfirst rfl
        obtain ⟨ha, -⟩ := List.cons.inj hms
        refine ⟨hr, Move.foundAny.inj ha, rfl, ?_⟩
        have hsame : b₁.snapshot = b.snapshot := by
          rw [hsnap₁, hms, hsnap]
          rfl
        rw [hsame] at hset
        exact hset
      · obtain ⟨ha, -⟩ := List.cons.inj hms
        cases ha
    · right
      refine ⟨?_, ?_⟩
      · rintro ⟨hr, hany⟩
        rcases hon.isReady_iff with ⟨rfl, -⟩ | ⟨hr', -⟩
        · obtain ⟨ms₃, rfl⟩ := hfirst rfl
          obtain ⟨ha, -⟩ := List.cons.inj hms
          rw [hany] at ha
          cases ha
        · rw [hr] at hr'
          cases hr'
      · rw [hsnap₁, hearAll_of_ended_run ht hc] at hset
        exact hset

/-- A run that has made no move shows no line. -/
theorem Orderly.cursor_of_isReady (h : b.Orderly) (hs : b.runner.progress? run = some (.going s))
    (hr : s.isReady = true) : b.snapshot.cursor = none := by
  obtain ⟨p, ms, s₀, hon, hc, hsnap⟩ := (h.going run s hs).2
  rcases hon.isReady_iff with ⟨rfl, -⟩ | ⟨hr', -⟩
  · rw [hsnap]
    exact hc
  · rw [hr] at hr'
    cases hr'

/-- **When the runner shows how a run ended.**  The listeners never crash; the run is followed to
its end, and then anything may happen except a reset and that a later run is followed.  The runner
shows the state of the outcome and no line, unless the run had made no move and no device was
connected any more.  Such a run fails and tells nothing, and then the runner shows a failure only if
it did so before. -/
theorem snapshot_of_ended_run_iff {later : List Turn} (hreach : b.IsReachable)
    (hsteady : b.IsSteady) (hs : b.runner.progress? run = some (.going s))
    (ho : (b.proceed horizon run).outcome? run = some o) (hlater : ∀ t ∈ later, t.IsStill run) :
    ((b.proceed horizon run).after later).outcome? run = some o ∧
      (((b.proceed horizon run).after later).snapshot = ⟨o.state, none⟩ ↔
        ¬ (s.isReady = true ∧ b.registry.hasAny = false) ∨ b.snapshot.state = .failed) ∧
      (s.isReady = true ∧ b.registry.hasAny = false →
        o = .failed Refusal.noDeviceConnected.message ∧
          ((b.proceed horizon run).after later).snapshot = b.snapshot) := by
  have hord := orderly_of_isReachable hreach
  rcases isSettled_proceed hord hsteady hs ho with ⟨hr, hany, rfl, hset⟩ | ⟨hne, hset⟩
  · have hlast := hset.after hlater
    refine ⟨hlast.outcome?_eq, ?_, fun _ => ⟨rfl, hlast.snapshot⟩⟩
    have hcur := hord.cursor_of_isReady hs hr
    rw [hlast.snapshot]
    constructor
    · intro hsnap
      right
      rw [hsnap]
      rfl
    · rintro (hne | hf)
      · exact absurd ⟨hr, hany⟩ hne
      · exact congrArg₂ Snapshot.mk hf hcur
  · have hlast := hset.after hlater
    exact ⟨hlast.outcome?_eq, ⟨fun _ => .inl hne, fun _ => hlast.snapshot⟩,
      fun h => absurd h hne⟩

/-- A bench with one device, on which a run of one command was started. -/
def homing : Bench :=
  (create 10 {} (Registry.empty.register "alpha" .network fun _ => .after 5 (.replied .ok))
    .registry [] 0).after [.control (.start ⟨none, ["alpha.home"]⟩ .continuous)]

theorem isReachable_homing (turns : List Turn) : (homing.after turns).IsReachable :=
  ((isReachable_create _ _ _ _ _ _).after _).after turns

theorem snapshot_of_homing :
    homing.IsReachable ∧ homing.IsSteady ∧
      (∃ s, homing.runner.progress? 0 = some (.going s)) ∧
      (homing.proceed 1000 0).outcome? 0 = some .completed ∧
      ((homing.proceed 1000 0).after [.control .stop]).snapshot = ⟨.completed, none⟩ := by
  have hreach : homing.IsReachable := isReachable_homing []
  have hsteady : homing.IsSteady := fun m hm => absurd hm List.not_mem_nil
  have hs : homing.runner.progress? 0 =
      some (.going (.ready (Plan.course ⟨⟨none, ["alpha.home"]⟩, .continuous, {}⟩))) := rfl
  have ho : (homing.proceed 1000 0).outcome? 0 = some .completed := by decide +kernel
  have hlater : ∀ t ∈ [Turn.control .stop], t.IsStill 0 := by
    intro t ht
    rw [List.mem_singleton.mp ht]
    exact nofun
  have hany : homing.registry.hasAny = true := by decide +kernel
  obtain ⟨-, hiff, -⟩ := snapshot_of_ended_run_iff hreach hsteady hs ho hlater
  refine ⟨hreach, hsteady, ⟨_, hs⟩, ho, hiff.mpr (.inl ?_)⟩
  rintro ⟨-, hnone⟩
  rw [hany] at hnone
  cases hnone

/-- **A run that fails without a trace.**  The only device goes away after the start of a run and
before its first move: the run fails, and the runner still shows that it is idle. -/
theorem exists_failed_run_shown_idle :
    ∃ b : Bench, b.IsReachable ∧ b.IsSteady ∧
      (∃ s, b.runner.progress? 0 = some (.going s)) ∧
      (b.proceed 1000 0).outcome? 0 = some (.failed "no device connected") ∧
      (b.proceed 1000 0).snapshot = ⟨.idle, none⟩ := by
  refine ⟨homing.after [.control (.setConnected "alpha" false)], isReachable_homing _,
    ?_, ?_, ?_, ?_⟩
  · exact fun m hm => absurd hm List.not_mem_nil
  · exact ⟨.ready (Plan.course ⟨⟨none, ["alpha.home"]⟩, .continuous, {}⟩), rfl⟩
  · decide +kernel
  · decide +kernel

end Bench

end DeviceScript
