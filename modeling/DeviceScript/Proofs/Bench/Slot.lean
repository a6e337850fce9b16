import DeviceScript.Bench.Reaction
import DeviceScript.Proofs.Bench.Continues
/-!
# The slot of the active run

A run has the slot of the active run from its start on, and gives it back when it ends.  A listener
that crashes breaks the run off; the run then ends as a failure and is reported to the audience, and
only after that it gives the slot back.  So there is one way for a run to end and keep its slot: a
listener crashes a second time, in the middle of the report.

The number of crashes that the journal notes while a run comes to its end tells the three cases
apart (`Bench.slot_of_ended_run`).  With none the run ends by itself, with one it is reported, and
with two it is lost: the runner stays taken for ever and refuses every start
(`Bench.exists_slot_never_free`).  What makes the counting work is that a crash breaks off all that
is being told, however deep acts are nested (`Bench.counts_tellWithin`).
-/

namespace DeviceScript

/-- Whether a listener crashed. -/
def Happening.isCrash : Happening → Bool
  | crashed .. => true
  | _ => false

/-- How often listeners crashed according to the journal `js`. -/
def crashesIn (js : List (Nat × Happening)) : Nat := js.countP fun e => e.2.isCrash

theorem crashesIn_append (js₁ js₂ : List (Nat × Happening)) :
    crashesIn (js₁ ++ js₂) = crashesIn js₁ + crashesIn js₂ :=
  List.countP_append

namespace Bench

/-- How often listeners have crashed. -/
def crashes (b : Bench) : Nat := crashesIn b.journal

variable {b b' b₁ : Bench} {run other horizon k : Nat} {ms : List Move} {m : Move} {o : RunOutcome}
  {s : Stage}

theorem crashes_note (b : Bench) (h : Happening) :
    (b.note h).crashes = b.crashes + if h.isCrash then 1 else 0 := by
  rw [crashes, note, crashesIn_append]
  cases hc : h.isCrash <;> simp [crashes, crashesIn, hc]

/-- What is noted other than a crash is none. -/
theorem crashes_note_of_neg {h : Happening} (hh : h.isCrash = false) :
    (b.note h).crashes = b.crashes := by
  rw [crashes_note, hh]
  rfl

/-! ## 1. Crashes in what is told -/

/-- The crash that broke it off is the only one that was noted, if there was one. -/
def Counts (b : Bench) (out : Bench × Option Crash) : Prop :=
  out.1.crashes = b.crashes + out.2.toList.length

/-- What goes on after something without a crash. -/
theorem Counts.of_eq {out : Bench × Option Crash} (h : b'.Counts out)
    (he : b'.crashes = b.crashes) : b.Counts out := by
  rw [Counts, ← he]
  exact h

theorem Counts.crashes_eq (h : b.Counts (b', none)) : b'.crashes = b.crashes :=
  h

section Tell

variable {tell : Notice → Bench → Bench × Option Crash}

theorem counts_tellAll (ht : ∀ n b, Counts b (tell n b)) :
    ∀ (ns : List Notice) (b : Bench), Counts b (tellAll tell ns b)
  | [], _ => rfl
  | n :: ns, b => by
    have h := ht n b
    rw [tellAll]
    split
    · rename_i hc
      rwa [hc] at h
    · rename_i hc
      rw [hc] at h
      exact (counts_tellAll ht ns _).of_eq h.crashes_eq

/-- The crash of a control is one of a reset that was broken off. -/
theorem counts_control (ht : ∀ n b, Counts b (tell n b)) (c : Control) (b : Bench) :
    match b.control tell c with
    | (b', .ok _) => b'.crashes = b.crashes
    | (b', .error _) => b'.crashes = b.crashes + 1 := by
  by_cases hreset : c = .reset
  · subst hreset
    rw [control]
    cases b.runner.resetNotices? with
    | error e => rfl
    | ok ns =>
      have h := counts_tellAll ht ns b
      simp only
      split
      · rename_i hc
        split at hc
        · cases hc
        · rename_i htold
          cases hc
          rw [htold] at h
          exact h
      · rename_i hc
        split at hc
        · rename_i htold
          cases hc
          rw [htold] at h
          exact h
        · cases hc
  · rcases control_cases b tell c with ⟨b', a, hc, hcalm⟩ | ⟨p, r, -, hc⟩ | ⟨hr, -⟩
    · rw [hc]
      change crashesIn b'.journal = b.crashes
      rw [hcalm.journal, List.append_nil]
      rfl
    · rw [hc]
      rfl
    · exact absurd hr hreset

theorem counts_perform (ht : ∀ n b, Counts b (tell n b)) (member : Nat) :
    ∀ (acts : List Act) (b : Bench), Counts b (perform tell member acts b)
  | [], _ => rfl
  | .crash c :: _, b => crashes_note b _
  | .control c :: more, b => by
    have h := counts_control ht c b
    rw [perform]
    split
    · rename_i hc
      rw [hc] at h
      exact h
    · rename_i hc
      rw [hc] at h
      exact (counts_perform ht member more _).of_eq ((crashes_note_of_neg rfl).trans h)

theorem crashes_inform (b : Bench) (member : Nat) (n : Notice) :
    (b.inform member n).1.crashes = b.crashes := by
  unfold inform
  split
  · rfl
  · exact crashes_note_of_neg rfl

theorem counts_tellFrom {act : Nat → List Act → Bench → Bench × Option Crash}
    (hact : ∀ m acts b, Counts b (act m acts b)) (n : Notice) :
    ∀ (left first : Nat) (b : Bench), Counts b (tellFrom act n left first b)
  | 0, _, _ => rfl
  | left + 1, first, b => by
    have h := (hact first (b.inform first n).2 _).of_eq (crashes_inform b first n)
    rw [tellFrom]
    simp only
    split
    · rename_i hc
      rwa [hc] at h
    · rename_i hc
      rw [hc] at h
      exact (counts_tellFrom hact n left (first + 1) _).of_eq h.crashes_eq

end Tell

theorem crashes_observe (b : Bench) (n : Notice) : (b.observe n).crashes = b.crashes := by
  cases n <;> rfl

/-- **A notice is broken off by one crash and no more.**  By induction on how deep acts may nest. -/
theorem counts_tellWithin : ∀ (nesting : Nat) (n : Notice) (b : Bench),
    Counts b (tellWithin nesting n b)
  | 0, n, b =>
    (@counts_tellFrom (fun _ _ b => (b, none)) (fun _ _ _ => rfl) n _ 0 _).of_eq
      (crashes_observe b n)
  | nesting + 1, n, b =>
    (counts_tellFrom (counts_perform (counts_tellWithin nesting)) n _ 0 _).of_eq
      (crashes_observe b n)

theorem counts_tell (b : Bench) (n : Notice) : Counts b (b.tell n) :=
  counts_tellWithin b.nesting n b

/-! ## 2. Crashes in the course of a run -/

/-- A run makes its moves without a crash. -/
theorem Makes.crashes_eq (h : Makes run horizon b m b') : b'.crashes = b.crashes := by
  cases h with
  | @told _ n ht =>
    have h := counts_tell b n
    rw [ht] at h
    exact h.crashes_eq
  | foundAny | foundDevice | foundStop | armed | disarmed | parked => rfl
  | rested hr =>
    obtain ⟨moment, rfl⟩ := eq_clock_of_restEnd? hr
    rfl
  | called _ hr =>
    obtain ⟨moment, rfl⟩ := eq_clock_of_callEnd? hr
    exact crashes_note_of_neg rfl

theorem MakesAll.crashes_eq (h : MakesAll run horizon b ms b') : b'.crashes = b.crashes := by
  induction h with
  | nil => rfl
  | cons hm _ ih => exact ih.trans hm.crashes_eq

theorem Wakes.crashes_eq (h : Wakes run horizon b s ms b') : b'.crashes = b.crashes := by
  obtain ⟨moment, rfl⟩ := h.eq_clock
  rfl

/-- **How a run ends that is being reported**, `k` crashes having been noted before: it gives its
slot back, or another crash loses it. -/
def Reported (run k : Nat) (reason : String) (b : Bench) : Prop :=
  b.crashes = k ∧ b.runner.active = none ∧
      b.runner.progress? run = some (.ended (.failed reason)) ∨
    b.crashes = k + 1 ∧ b.runner.active = some run ∧
      ∃ c : Crash, b.runner.progress? run = some (.ended (.failed c.lostReason))

/-- One more notice of the report. -/
theorem IsSole.reported_tell {n : Notice} {next : Course} {reason : String} (h : b.IsSole run)
    (hnext : ∀ b', b'.IsSole run → b'.crashes = b.crashes →
      Reported run b.crashes reason (follow run horizon (fun c b => b.lose run c) next b')) :
    Reported run b.crashes reason
      (follow run horizon (fun c b => b.lose run c) (.tell n next) b) := by
  obtain ⟨-, -, -, hsole⟩ := h.tells n
  have hcount := counts_tell b n
  rw [follow]
  split
  · rename_i c hc
    rw [hc] at hsole hcount
    exact .inr ⟨hcount, hsole.active, c, hsole.progress?_lose c⟩
  · rename_i hc
    rw [hc] at hsole hcount
    exact hnext _ hsole hcount.crashes_eq

/-- **A run that was broken off is reported.** -/
theorem IsSole.reported_abort (h : b.IsSole run) (horizon : Nat) (c : Crash) :
    Reported run b.crashes c.abortReason (abort run horizon c b) := by
  have h₀ : (b.setSignals run (b.runner.signals run).abandon).IsSole run :=
    h.goes (goes_setSignals fun hs => hs)
  refine h₀.reported_tell fun b₁ h₁ hk₁ => ?_
  rw [← hk₁]
  refine h₁.reported_tell fun b₂ h₂ hk₂ => ?_
  rw [← hk₂]
  refine h₂.reported_tell fun b₃ h₃ hk₃ => ?_
  rw [← hk₃]
  exact .inl ⟨rfl, h₃.active_conclude _, h₃.progress?_conclude _⟩

/-- **How a run comes to its end**, `k` crashes having been noted before. -/
inductive Departs (p : Plan) (run k : Nat) (b : Bench) : RunOutcome → Prop
  /-- It ends by itself. -/
  | ended {ms : List Move} {r : Except Refusal RunOutcome} (ht : p.course.Trace ms (.ended r))
      (hk : b.crashes = k) (ha : b.runner.active = none) : Departs p run k b (Course.outcomeOf r)
  /-- A listener breaks it off. -/
  | aborted (c : Crash) (hk : b.crashes = k + 1) (ha : b.runner.active = none) :
      Departs p run k b (.failed c.abortReason)
  /-- A listener breaks it off, and one breaks its report off. -/
  | lost (c : Crash) (hk : b.crashes = k + 2) (ha : b.runner.active = some run) :
      Departs p run k b (.failed c.lostReason)

/-- A halt at which a run ends. -/
theorem Halts.departs {p : Plan} {c : Course} (h : Halts run horizon (abort run horizon) c b b')
    (hsole : b.IsSole run) (ht : p.course.Trace ms c)
    (ho : b'.runner.progress? run = some (.ended o)) : Departs p run b.crashes b' o := by
  cases h with
  | ended r =>
    rw [hsole.progress?_conclude] at ho
    cases ho
    exact .ended ht rfl (hsole.active_conclude _)
  | @broken n _ _ b₁ c hn =>
    obtain ⟨-, -, -, hsole₁⟩ := hsole.tells n
    have hk := counts_tell b n
    rw [hn] at hsole₁ hk
    rcases hsole₁.reported_abort horizon c with ⟨hk', ha, hp⟩ | ⟨hk', ha, c', hp⟩
    · cases hp.symm.trans ho
      exact .aborted c (hk'.trans hk) ha
    · cases hp.symm.trans ho
      exact .lost c' (hk'.trans (congrArg (· + 1) hk)) ha
  | resting | parked => cases (hsole.progress?_suspend _).symm.trans ho
  | @calling request _ _ _ _ _ _ =>
    have hsole' := hsole.goes (goes_note b (.sent request))
    cases (hsole'.progress?_suspend _).symm.trans ho

/-- **A run that is followed to its end** ends in one of three ways. -/
theorem Orderly.departs_proceed (h : b.Orderly) (hs : b.runner.progress? run = some (.going s))
    (ho : (b.proceed horizon run).runner.progress? run = some (.ended o)) :
    ∃ p ms, s.On p b.requests.getLast? ms ∧ Departs p run b.crashes (b.proceed horizon run) o := by
  have hsole := h.isSole hs
  obtain ⟨p, ms, s₀, hon, -, -⟩ := (h.going run s hs).2
  refine ⟨p, ms, hon, ?_⟩
  rcases proceed_wakes horizon hs hon with ⟨he, -⟩ | ⟨ms₁, c, b₁, hw, ht, he, -⟩
  · rw [he, hs] at ho
    cases ho
  · obtain ⟨ms₂, c₂, b₂, ht₂, hms, hh⟩ := follow_makes run horizon (abort run horizon) c b₁
    have hsole₁ := hsole.goes hw.goes
    have hsole₂ := hsole₁.goes (hms.goes hsole₁.isBusy)
    rw [he] at ho ⊢
    have hk : b₂.crashes = b.crashes := hms.crashes_eq.trans hw.crashes_eq
    rw [← hk]
    exact hh.departs hsole₂ (ht.append ht₂) ho

/-! ## 3. After the end -/

/-- Where a run comes to a halt, it gives the slot back or nothing happens to the slot. -/
theorem Halts.active_cases {c : Course} (h : Halts run horizon (abort run horizon) c b b')
    (hsole : b.IsSole run) : b'.runner.active = none ∨ b'.runner.active = some run := by
  cases h with
  | ended r => exact .inl (hsole.active_conclude _)
  | @broken n _ _ b₁ c hn =>
    obtain ⟨-, -, -, hsole₁⟩ := hsole.tells n
    rw [hn] at hsole₁
    rcases hsole₁.reported_abort horizon c with ⟨-, ha, -⟩ | ⟨-, ha, -⟩
    · exact .inl ha
    · exact .inr ha
  | resting | calling | parked => exact .inr hsole.active

/-- What an operator does gives the slot to no run that has ended. -/
theorem kept_free : Kept (fun _ => True)
    (fun b => b.runner.progress? run = some (.ended o) ∧ b.runner.active ≠ some run) where
  observe {n b} hn h := by
    refine ⟨kept_ended.observe hn h.1, ?_⟩
    rw [(observe_eq b n).1]
    exact h.2
  inform {m n b} h := by
    refine ⟨kept_ended.inform h.1, ?_⟩
    unfold inform
    split <;> exact h.2
  note h := h
  control {tell} ht c b h := by
    rcases control_cases b tell c with ⟨b', a, hc, hcalm⟩ | ⟨p, r, hr, hc⟩ | ⟨-, ns, -, hc⟩
    · rw [hc]
      refine ⟨(hcalm.progress run).trans h.1, ?_⟩
      rw [hcalm.active]
      exact h.2
    · obtain ⟨-, ha, -, hprog⟩ := Runner.start?_eq_ok hr
      have hlt := Runner.lt_of_progress? h.1
      rw [hc]
      refine ⟨(hprog run).trans ((if_neg (Nat.ne_of_lt hlt)).trans h.1), fun h' => ?_⟩
      exact Nat.ne_of_lt hlt (Option.some.inj (h'.symm.trans ha))
    · rw [hc]
      exact keeps_tellAll ht (fun _ _ => trivial) h

theorem Orderly.free_turn (h : b.Orderly) (ho : b.runner.progress? run = some (.ended o))
    (ha : b.runner.active ≠ some run) : ∀ t : Turn, (b.turn t).runner.active ≠ some run
  | .control c => (kept_free.operate ⟨ho, ha⟩ c).2
  | .devices _ | .clock _ => ha
  | .proceed horizon other => by
    rcases h.proceed_cases horizon other with
      he | ⟨p, ms, ms', s₀, c, b₁, ⟨s, hs⟩, hg, hsole, -, -, -, hh⟩
    · rw [Bench.turn, he]
      exact ha
    · have hne : other ≠ run := by
        rintro rfl
        cases ho.symm.trans hs
      rw [Bench.turn]
      rcases hh.active_cases hsole with hx | hx <;> rw [hx]
      · exact (Option.some_ne_none run).symm
      · exact fun h' => hne (Option.some.inj h')

/-- **A run that has given its slot back never has it again.** -/
theorem Orderly.free_after : ∀ {turns : List Turn} {b : Bench}, b.Orderly →
    b.runner.progress? run = some (.ended o) → b.runner.active ≠ some run →
    (b.after turns).runner.active ≠ some run
  | [], _, _, _, ha => ha
  | t :: _, _, h, ho, ha =>
    (h.turn t).free_after (h.ended_turn ho t) (h.free_turn ho ha t)

theorem Orderly.taken_turn (h : b.Orderly) (ho : b.runner.progress? run = some (.ended o))
    (ha : b.runner.active = some run) : ∀ t : Turn, (b.turn t).runner.active = some run
  | .control c => by
    obtain ⟨b', a, hc, hcalm⟩ := calm_control (isBusy_of_active ha) (fun n b => b.tell n) c
    rw [Bench.turn, hc]
    exact hcalm.active.trans ha
  | .devices _ | .clock _ => ha
  | .proceed horizon other => by
    have hnone : ∀ s, b.runner.progress? other ≠ some (.going s) := by
      intro s hs
      have hr := (h.going other s hs).1
      rw [ha] at hr
      cases hr
      cases ho.symm.trans hs
    rw [Bench.turn, proceed_of_not_going hnone]
    exact ha

/-- **A run that has ended and keeps its slot keeps it for ever.** -/
theorem Orderly.taken_after : ∀ {turns : List Turn} {b : Bench}, b.Orderly →
    b.runner.progress? run = some (.ended o) → b.runner.active = some run →
    (b.after turns).runner.active = some run
  | [], _, _, _, ha => ha
  | t :: _, _, h, ho, ha =>
    (h.turn t).taken_after (h.ended_turn ho t) (h.taken_turn ho ha t)

/-- A run that has an outcome has ended. -/
theorem progress?_of_outcome? (ho : b.outcome? run = some o) :
    b.runner.progress? run = some (.ended o) := by
  obtain ⟨x, hx, hxo⟩ := Option.bind_eq_some_iff.mp ho
  cases x with
  | going => cases hxo
  | ended =>
    cases hxo
    exact hx

/-- How a start is answered. -/
theorem answer_start (b : Bench) (script : Script) (mode : RunMode) :
    b.answer (.start script mode) =
      .ok (if b.runner.active.isSome then .notStarted .runAlreadyActive
        else if b.registry.hasAny then .started else .notStarted .noDeviceConnected) := by
  simp only [answer, control, Runner.start?]
  split
  · rename_i hr
    split at hr <;> rename_i ha
    · cases hr
    · split at hr <;> rename_i hany
      · simp [ha, hany]
      · cases hr
  · rename_i hr
    split at hr <;> rename_i ha
    · cases hr
      simp [ha]
    · split at hr <;> rename_i hany
      · cases hr
      · cases hr
        simp [ha, hany]

/-! ## 4. The law of the slot -/

/-- **When a run that ends gives its slot back.**  A run is followed to its end, whatever the
listeners do; `js` is what is written into the journal meanwhile.  Listeners crash at most twice.
Without a crash the run ends by itself, and with one its outcome is a failure.  The slot is free
then exactly if there were fewer than two: the next start is refused only if no device is connected,
and no start is ever refused because of this run.  After the second crash the slot is never free
again, and every start is refused. -/
theorem slot_of_ended_run (hreach : b.IsReachable)
    (hs : b.runner.progress? run = some (.going s)) (hb' : b' = b.proceed horizon run)
    (ho : b'.outcome? run = some o) :
    ∃ js, b'.journal = b.journal ++ js ∧ crashesIn js ≤ 2 ∧
      (crashesIn js = 0 → ∃ (p : Plan) (ms : List Move) (r : Except Refusal RunOutcome),
        p.course.Trace ms (.ended r) ∧ o = Course.outcomeOf r) ∧
      (crashesIn js = 1 → ∃ c : Crash, o = .failed c.abortReason) ∧
      (crashesIn js = 2 → ∃ c : Crash, o = .failed c.lostReason) ∧
      (b'.runner.active = none ↔ crashesIn js < 2) ∧
      (crashesIn js < 2 →
        (∀ script mode, b'.answer (.start script mode) =
          .ok (if b'.registry.hasAny then .started else .notStarted .noDeviceConnected)) ∧
        ∀ later, (b'.after later).runner.active ≠ some run) ∧
      (crashesIn js = 2 → ∀ later, (b'.after later).runner.active = some run ∧
        ∀ script mode, (b'.after later).answer (.start script mode) =
          .ok (.notStarted .runAlreadyActive)) := by
  have hord := orderly_of_isReachable hreach
  have hord' : b'.Orderly := by
    rw [hb']
    exact hord.proceed horizon run
  have hend := progress?_of_outcome? ho
  obtain ⟨p, ms, granted, hstand⟩ := (gatesInOrder_of_isReachable hreach).going run s hs
  obtain ⟨js, hj⟩ : ∃ js, b'.journal = b.journal ++ js := by
    rcases hstand.proceed (hord.isSole hs) horizon with ⟨s', ms', js, hgoing, -⟩ | ⟨o', ms', js, hf⟩
    · rw [← hb'] at hgoing
      cases hgoing.going.symm.trans hend
    · rw [← hb'] at hf
      exact ⟨js, hf.journal⟩
  have hk : b'.crashes = b.crashes + crashesIn js := by
    rw [crashes, hj, crashesIn_append]
    rfl
  obtain ⟨q, ms', -, hdep⟩ := hord.departs_proceed hs (hb' ▸ hend)
  rw [← hb'] at hdep
  refine ⟨js, hj, ?_⟩
  have hfree : b'.runner.active = none →
      (∀ script mode, b'.answer (.start script mode) =
        .ok (if b'.registry.hasAny then .started else .notStarted .noDeviceConnected)) ∧
      ∀ later, (b'.after later).runner.active ≠ some run := by
    intro ha
    refine ⟨fun script mode => ?_, fun later => hord'.free_after hend ?_⟩
    · rw [answer_start, ha]
      rfl
    · rw [ha]
      exact nofun
  cases hdep with
  | @ended ms r ht hk' ha =>
    have h0 : crashesIn js = 0 := by omega
    simp only [h0, ha]
    exact ⟨by omega, fun _ => ⟨q, ms, r, ht, rfl⟩, nofun, nofun, by simp, fun _ => hfree ha, nofun⟩
  | aborted c hk' ha =>
    have h1 : crashesIn js = 1 := by omega
    simp only [h1, ha]
    exact ⟨by omega, nofun, fun _ => ⟨c, rfl⟩, nofun, by simp, fun _ => hfree ha, nofun⟩
  | lost c hk' ha =>
    have h2 : crashesIn js = 2 := by omega
    simp only [h2, ha]
    refine ⟨Nat.le_refl 2, nofun, nofun, fun _ => ⟨c, rfl⟩, by simp, fun h => absurd h (by omega),
      fun _ later => ?_⟩
    have htaken : (b'.after later).runner.active = some run := hord'.taken_after hend ha
    refine ⟨htaken, fun script mode => ?_⟩
    rw [answer_start, htaken]
    rfl

/-- A bench before a listener with these reactions, on which a run of one wait was started. -/
def faltering (rs : List Reaction) : Bench :=
  (create 10 {} (Registry.empty.register "alpha" .network fun _ => .after 5 (.replied .ok))
    .registry [Reaction.listener rs] (Reaction.nesting rs)).after
      [.control (.start ⟨none, ["wait 0"]⟩ .continuous)]

theorem isReachable_faltering (rs : List Reaction) : (faltering rs).IsReachable :=
  (isReachable_create _ _ _ _ _ _).after _

theorem progress?_faltering (rs : List Reaction) : (faltering rs).runner.progress? 0 =
    some (.going (.ready (Plan.course ⟨⟨none, ["wait 0"]⟩, .continuous, {}⟩))) :=
  rfl

/-- The listener crashes when the run has begun. -/
def fallsOnce : List Reaction :=
  [⟨.state (some .running), .crash ⟨some "first"⟩, 1⟩]

/-- The listener crashes when the run has begun, and once more when it hears of the first crash. -/
def fallsTwice : List Reaction :=
  fallsOnce ++ [⟨.log (some .error), .crash ⟨some "second"⟩, 1⟩]

theorem slot_of_faltering :
    (faltering fallsOnce).IsReachable ∧
      (∃ s, (faltering fallsOnce).runner.progress? 0 = some (.going s)) ∧
      ((faltering fallsOnce).proceed 1000 0).outcome? 0 = some (.failed "run aborted: first") ∧
      ((faltering fallsOnce).proceed 1000 0).runner.active = none ∧
      ((faltering fallsOnce).proceed 1000 0).answer (.start ⟨none, []⟩ .continuous) =
        .ok .started := by
  have hreach := isReachable_faltering fallsOnce
  have hs := progress?_faltering fallsOnce
  have ho : ((faltering fallsOnce).proceed 1000 0).outcome? 0 =
      some (.failed "run aborted: first") := by decide +kernel
  obtain ⟨js, hj, -, -, -, -, hfree, hstart, -⟩ := slot_of_ended_run hreach hs rfl ho
  have hjs : ((faltering fallsOnce).proceed 1000 0).journal.drop
      (faltering fallsOnce).journal.length = js := by
    rw [hj, List.drop_left]
  have hk : crashesIn js < 2 := by
    rw [← hjs]
    decide +kernel
  have hany : ((faltering fallsOnce).proceed 1000 0).registry.hasAny = true := by decide +kernel
  refine ⟨hreach, ⟨_, hs⟩, ho, hfree.mpr hk, ?_⟩
  rw [(hstart hk).1, hany]
  rfl

/-- **A run that keeps its slot for ever.**  The listener crashes when the run has begun, and again
when it hears of the failure: the run has ended, and no other run can be started. -/
theorem exists_slot_never_free :
    ∃ b : Bench, b.IsReachable ∧ (∃ s, b.runner.progress? 0 = some (.going s)) ∧
      (b.proceed 1000 0).outcome? 0 =
        some (.failed "run task failed: task N panicked with message \"second\"") ∧
      ∀ later, ((b.proceed 1000 0).after later).runner.active = some 0 ∧
        ∀ script mode, ((b.proceed 1000 0).after later).answer (.start script mode) =
          .ok (.notStarted .runAlreadyActive) := by
  have hreach := isReachable_faltering fallsTwice
  have ho : ((faltering fallsTwice).proceed 1000 0).outcome? 0 =
      some (.failed "run task failed: task N panicked with message \"second\"") := by
    decide +kernel
  have ha : ((faltering fallsTwice).proceed 1000 0).runner.active = some 0 := by decide +kernel
  refine ⟨_, hreach, ⟨_, progress?_faltering fallsTwice⟩, ho, fun later => ?_⟩
  have hord := (orderly_of_isReachable hreach).proceed 1000 0
  have htaken : (((faltering fallsTwice).proceed 1000 0).after later).runner.active = some 0 :=
    hord.taken_after (progress?_of_outcome? ho) ha
  refine ⟨htaken, fun script mode => ?_⟩
  rw [answer_start, htaken]
  rfl

end Bench

end DeviceScript
