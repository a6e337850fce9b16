import DeviceScript.Proofs.Bench.Gates
/-!
# Continues and the pauses that they end

A continue is accepted exactly when the run waits at a pause whose continue has not been accepted
yet, and otherwise it does nothing.  So each continue that is accepted leads from a pause back to
running, and only a stop can come before it does (`Bench.continues_of_run`).

What is counted are the continues that were accepted since the run was started, from operators
between two moves of the run and from listeners in the middle of what is told (`Bench.granted`), and
the resumptions that the audience heard of.  Between two turns a run stands at a stage with its
account in order (`Bench.Standing`); a turn keeps that or is the end of the run
(`Bench.Standing.proceed`), and what is left at the end is `Bench.Finishes`.
-/

namespace DeviceScript

open Phase

namespace Bench

/-! ## 1. Asking for a continue -/

/-- What an operator is answered. -/
def answer (b : Bench) (c : Control) : Except Crash Answer :=
  (b.control (fun n b => b.tell n) c).2

/-- The control is a continue for this run. -/
def Asks (b : Bench) (run : Nat) (c : Control) : Prop :=
  c.isContinue run = true ∧ (c = .continueRun → b.runner.active = some run)

/-- Whether a turn is a continue for this run, if that is the active one, and is accepted. -/
def grants (b : Bench) (run : Nat) : Turn → Bool
  | .control c =>
    match b.answer c with
    | .ok a => c.isGranted run a
    | .error _ => false
  | _ => false

/-- How many continues of this run, the active one, are accepted from operators in some turns. -/
def grantedOver (run : Nat) : Bench → List Turn → Nat
  | _, [] => 0
  | b, t :: turns => (if b.grants run t = true then 1 else 0) + grantedOver run (b.turn t) turns

/-- How many continues of this run, the active one, are accepted in some turns, from operators and
from listeners. -/
def granted (b : Bench) (run : Nat) (turns : List Turn) : Nat :=
  grantedOver run b turns + grantedIn run ((b.after turns).journal.drop b.journal.length)

variable {b b' b₁ : Bench} {run other horizon : Nat} {p : Plan} {s : Stage} {ms ms' : List Move}
  {granted late : Nat} {js js' : List (Nat × Happening)} {o : RunOutcome} {c : Control} {ph : Phase}

/-- A continue is answered by the gate of the run. -/
theorem Asks.answer_eq (h : b.Asks run c) :
    b.answer c = .ok (.flag (decide (b.gate run = .waiting))) := by
  rw [answer, control_of_isContinue h.1 h.2, Signals.requestContinue_snd]
  rfl

/-- A continue that is not accepted changes nothing but a gate that was left behind. -/
theorem Asks.turn_eq (h : b.Asks run c) (hg : b.gate run ≠ .waiting) :
    b.turn (.control c) = b ∨ b.gate run = .abandoned ∧
      b.turn (.control c) = b.setSignals run (b.runner.signals run).disarm := by
  rw [turn, control_of_isContinue h.1 h.2]
  rcases Signals.requestContinue_of_ne_waiting hg with he | ⟨ha, he⟩
  · left
    rw [he, setSignals, Runner.setSignals_self]
    rfl
  · exact .inr ⟨ha, by rw [he]⟩

/-! ## 2. A run at a stage -/

/-- **The run stands at a stage**, after the moves `ms` of its plan and with its account in order,
`granted` continues having been accepted. -/
structure Standing (b : Bench) (run : Nat) (p : Plan) (s : Stage) (ms : List Move) (granted : Nat) :
    Prop where
  going : b.runner.progress? run = some (.going s)
  on : s.On p b.requests.getLast? ms
  account : ∃ late, Account ms (b.gate run) granted late s.phase

/-- A run that has made no move and whose gate is clear has an account without entries. -/
theorem standing_ready (hs : b.runner.progress? run = some (.going (.ready p.course)))
    (hg : b.gate run = .clear) : b.Standing run p (.ready p.course) [] 0 where
  going := hs
  on := .ready
  account := ⟨0, hg ▸ account_nil⟩

/-- **Where the gate of a run stands that waits**, and what its account says. -/
theorem Standing.gate_cases (h : b.Standing run p s ms granted) :
    (b.isParked run = false ∧ b.gate run = .clear ∧ granted = resumptions (statesOf ms)) ∨
      b.isParked run = true ∧
        (b.gate run = .waiting ∧ granted = resumptions (statesOf ms) ∨
          b.gate run = .released ∧ granted = resumptions (statesOf ms) + 1) := by
  obtain ⟨late, ha⟩ := h.account
  have hb := ha.balances
  have hparked : b.isParked run = true ↔ s.phase = .paused := by
    rw [isParked, h.going]
    cases s <;> simp [Stage.phase]
  cases s with
  | ready | resting | calling =>
    refine .inl ⟨?_, hb⟩
    rw [isParked, h.going]
  | parked => exact .inr ⟨hparked.mpr rfl, hb⟩

/-- The gate waits exactly at a pause without a continue. -/
theorem Standing.gate_eq_waiting_iff (h : b.Standing run p s ms granted) :
    b.gate run = .waiting ↔ b.isParked run = true ∧ granted = resumptions (statesOf ms) := by
  rcases h.gate_cases with ⟨hp, hg, -⟩ | ⟨hp, ⟨hg, hn⟩ | ⟨hg, hn⟩⟩
  · simp [hp, hg]
  · simp [hp, hg, hn]
  · simp [hg, hn]

/-! ## 3. The end of a run -/

/-- **How a run ends** that had made the moves `ms`, `granted` continues having been accepted before,
`late` of them since it was last suspended.  It makes the moves `ms'`, and `js` is written into the
journal.  Each continue has led to a resumption, except for one at the most.  Either the run ends by
itself, and then that one was for the pause at which it was stopped.  Or a listener breaks the run
off, which the first member of the audience hears like all before; then a stop was requested, or
listeners asked for a continue in the middle of what was told. -/
structure Finishes (run : Nat) (p : Plan) (ms : List Move) (granted late : Nat) (b b' : Bench)
    (o : RunOutcome) (ms' : List Move) (js : List (Nat × Happening)) : Prop where
  outcome : b'.runner.progress? run = some (.ended o)
  gate : b'.gate run ≠ .waiting
  journal : b'.journal = b.journal ++ js
  account : granted + grantedIn run js = resumptions (statesOf (ms ++ ms')) ∨
    granted + grantedIn run js = resumptions (statesOf (ms ++ ms')) + 1
  cause :
    ((∃ r, p.course.Trace (ms ++ ms') (.ended r) ∧ o = Course.outcomeOf r) ∧
      (∀ m, m < b.members.length → heardBy m js = noticesOf ms') ∧
      (granted + grantedIn run js = resumptions (statesOf (ms ++ ms')) + 1 →
        o = .stopped ∧ b'.isStopRequested run = true ∧
          ∃ ss, statesOf (ms ++ ms') = ss ++ [.paused, .stopping, .stopped])) ∨
    (¬ b.IsSteady ∧ (∃ e ∈ js, ∃ m c, e.2 = .crashed m c) ∧
      (∃ c, p.course.Trace (ms ++ ms') c) ∧
      (∃ report, heardBy 0 js = noticesOf ms' ++ report ∧ ∀ n ∈ report, n.IsParting) ∧
      (granted + grantedIn run js = resumptions (statesOf (ms ++ ms')) + 1 →
        b'.isStopRequested run = true ∨ 0 < late + grantedIn run js))

/-- Moves that were made before. -/
theorem Finishes.of_records {ms₁ : List Move} {js₁ : List (Nat × Happening)}
    (h : Finishes run p (ms ++ ms') (granted + grantedIn run js) (late + grantedIn run js) b₁ b' o
      ms₁ js₁) (hr : b.Records ms' js b₁) (hg : b.Goes ms' b₁) :
    Finishes run p ms granted late b b' o (ms' ++ ms₁) (js ++ js₁) where
  outcome := h.outcome
  gate := h.gate
  journal := by rw [h.journal, hr.journal, List.append_assoc]
  account := by
    rw [grantedIn_append, ← Nat.add_assoc, ← List.append_assoc]
    exact h.account
  cause := by
    rw [grantedIn_append, ← Nat.add_assoc, ← Nat.add_assoc, ← List.append_assoc, noticesOf_append]
    rcases h.cause with ⟨hend, hheard, hlast⟩ | ⟨hs, ⟨e, he, hcrash⟩, ht, ⟨report, hheard, hp⟩, hlast⟩
    · refine .inl ⟨hend, fun m hm => ?_, hlast⟩
      rw [heardBy_append, hr.heard m hm, hheard m (by rw [hr.size]; exact hm)]
    · have hs' : ¬ b.IsSteady := fun hs' => hs (hg.steady hs')
      have hm : 0 < b.members.length := by
        refine Nat.pos_of_ne_zero fun hl => hs' ?_
        rw [IsSteady, List.length_eq_zero_iff.mp hl]
        exact fun m hm => absurd hm List.not_mem_nil
      refine .inr ⟨hs', ⟨e, List.mem_append_right _ he, hcrash⟩, ht, ⟨report, ?_, hp⟩, hlast⟩
      rw [heardBy_append, hr.heard 0 hm, hheard, List.append_assoc]

theorem isStopRequested_conclude (o : RunOutcome) :
    (b.conclude run o).isStopRequested other = b.isStopRequested other := by
  unfold isStopRequested
  rw [conclude, withRunner, Runner.signals_release, Runner.signals_setOutcome]

theorem isStopRequested_lose (crash : Crash) :
    (b.lose run crash).isStopRequested other = b.isStopRequested other := by
  unfold isStopRequested
  rw [lose, withRunner, Runner.signals_setOutcome]

/-- A stop of a run that is broken off stays asked for. -/
theorem IsSole.isStopRequested_abort (h : b.IsSole run) (hs : b.isStopRequested run = true)
    (horizon : Nat) (crash : Crash) : (abort run horizon crash b).isStopRequested run = true := by
  refine h.abort_cases (P := fun b => b.isStopRequested run = true) crash
    (fun _ b' c' hg => ?_) fun b' hg => ?_
  · rw [isStopRequested_lose]
    exact hg.stop run hs
  · rw [isStopRequested_conclude]
    exact hg.stop run hs

/-- A run that comes to the end of its course. -/
theorem IsSole.finishes_conclude {r : Except Refusal RunOutcome} (h : b.IsSole run)
    (ha : b.Accounts run ms granted late ph) (ht : p.course.Trace ms (.ended r)) :
    Finishes run p ms granted late b (b.conclude run (Course.outcomeOf r)) (Course.outcomeOf r)
      [] [] := by
  obtain ⟨ph', hph', hend⟩ := Plan.phase_of_ended ht
  obtain rfl : ph = ph' := Option.some.inj (ha.account.phase.symm.trans hph')
  have hb := ha.account.balances
  constructor
  case outcome => exact h.progress?_conclude _
  case journal => exact (List.append_nil _).symm
  case gate =>
    rw [gate_conclude]
    rcases hend with rfl | ⟨rfl, -⟩ <;> rw [hb.1] <;> exact nofun
  case account =>
    rw [List.append_nil]
    rcases hend with rfl | ⟨rfl, -⟩
    · exact .inl hb.2
    · exact hb.2
  case cause =>
    rw [List.append_nil, isStopRequested_conclude]
    refine .inl ⟨⟨r, ht, rfl⟩, fun _ _ => rfl, fun hn => ?_⟩
    rcases hend with rfl | ⟨rfl, ho, hss⟩
    · have hn' : granted = resumptions (statesOf ms) := hb.2
      have hk : granted + grantedIn run [] = granted := rfl
      omega
    · exact ⟨ho, ha.stop (.inr rfl), hss⟩

/-- A run that a listener breaks off. -/
theorem IsSole.finishes_abort {n : Notice} {crash : Crash} {next : Course} (h : b.IsSole run)
    (ha : b.Accounts run ms granted late ph) (ht : p.course.Trace ms (.tell n next))
    (hn : b.tell n = (b₁, some crash)) :
    ∃ o js, Finishes run p ms granted late b (abort run horizon crash b₁) o [.told n] js := by
  obtain ⟨-, -, hg, hsole⟩ := h.tells n
  obtain ⟨js₁, hheeds⟩ := heeds_tell h.active n
  rw [hn] at hg hsole hheeds
  obtain ⟨hsteady, m, -, ⟨moment, hcrash⟩, hheard⟩ := h.heardBy_crash hn hheeds.journal
  obtain ⟨hgate, js₂, hj₂, hk₂⟩ := hsole.hushes_abort horizon crash
  obtain ⟨o, ns, js₃, hcl, hparting⟩ := hsole.leaves_abort horizon crash
  obtain rfl : js₂ = js₃ := List.append_cancel_left (hj₂.symm.trans hcl.journal)
  -- The account after the notice that broke the run off.
  obtain ⟨ph₁, hph₁, hnext⟩ := Plan.exists_phase ht
  obtain rfl : ph = ph₁ := Option.some.inj (ha.account.phase.symm.trans hph₁)
  obtain ⟨ph', hph'⟩ := hnext [.told n] next (.cons .tell (.nil _))
  rw [afterAll?_singleton] at hph'
  have ha' := ha.account.move hph' hheeds.gate
  have hk : grantedIn run (js₁ ++ js₂) = grantedIn run js₁ := by
    rw [grantedIn_append, hk₂, Nat.add_zero]
  refine ⟨o, js₁ ++ js₂, ?_⟩
  constructor
  case outcome => exact hcl.outcome
  case gate => exact hgate
  case journal => rw [hj₂, hheeds.journal, List.append_assoc]
  case account =>
    rw [hk]
    exact ha'.balances.or
  case cause =>
    rw [hk]
    refine .inr ⟨hsteady, ⟨_, List.mem_append_left _ hcrash, m, crash, rfl⟩,
      ⟨next, ht.append (.cons .tell (.nil _))⟩, ⟨heardBy 0 js₂, ?_, ?_⟩, fun hlast => ?_⟩
    · rw [heardBy_append, hheard, if_pos (Nat.zero_le m)]
      rfl
    · exact fun n' hn' => hparting n' ((hcl.heard 0).subset hn')
    · rcases of_after?_told hph' with rfl | rfl | rfl
      · have hn' := ha'.balances.2
        omega
      · rcases ha'.balances with ⟨-, hn'⟩ | ⟨hg', -⟩
        · omega
        · exact .inr (ha'.late (.inr rfl) hg')
      · have hstop : b.isStopRequested run = true := by
          rcases eq_of_after? hph' (.inr rfl) with hm | hph
          · cases hm
          · exact ha.stop hph
        exact .inl (hsole.isStopRequested_abort (hg.stop run hstop) horizon crash)

/-! ## 4. A run that is followed -/

/-- A run that has to wait stands at its new stage. -/
theorem IsSole.standing_suspend (h : b.IsSole run) (ha : Account ms (b.gate run) granted late ph)
    (hon : s.On p b.requests.getLast? ms) : (b.suspend run s).Standing run p s ms granted where
  going := h.progress?_suspend s
  on := hon
  account := by
    obtain rfl : ph = s.phase := Option.some.inj (ha.phase.symm.trans hon.afterAll?_eq)
    rw [gate_suspend]
    exact ⟨late, ha⟩

/-- **A halt of a run** leaves it standing at a stage, or is its end. -/
theorem Halts.standing_or_finishes {c : Course}
    (h : Halts run horizon (abort run horizon) c b b') (hsole : b.IsSole run)
    (ha : b.Accounts run ms granted late ph) (ht : p.course.Trace ms c) :
    (∃ s js, b'.Standing run p s ms granted ∧ b.Records [] js b' ∧ grantedIn run js = 0) ∨
      ∃ o ms' js, Finishes run p ms granted late b b' o ms' js := by
  cases h with
  | ended r => exact .inr ⟨_, _, _, hsole.finishes_conclude ha ht⟩
  | broken hn =>
    obtain ⟨o, js, hf⟩ := hsole.finishes_abort ha ht hn
    exact .inr ⟨o, _, js, hf⟩
  | resting =>
    exact .inl ⟨_, [], hsole.standing_suspend ha.account (.resting ht), .silent rfl rfl rfl, rfl⟩
  | @calling request _ _ _ _ _ _ =>
    refine .inl ⟨_, [(b.now, .sent request)],
      (hsole.goes (goes_note b (.sent request))).standing_suspend ha.account (.calling ht ?_),
      ⟨rfl, rfl, fun _ _ => rfl⟩, rfl⟩
    rw [requests_note_sent, List.getLast?_append]
    rfl
  | parked =>
    exact .inl ⟨_, [], hsole.standing_suspend ha.account (.parked ht), .silent rfl rfl rfl, rfl⟩

/-- **A run that is followed** stands at its next stage then, or it has ended. -/
theorem Standing.proceed (h : b.Standing run p s ms granted) (hsole : b.IsSole run)
    (horizon : Nat) :
    (∃ s' ms' js, (b.proceed horizon run).Standing run p s' (ms ++ ms') (granted + grantedIn run js) ∧
        b.Records ms' js (b.proceed horizon run)) ∨
      ∃ o ms' js, Finishes run p ms granted 0 b (b.proceed horizon run) o ms' js := by
  rcases proceed_wakes horizon h.going h.on with ⟨he, -⟩ | ⟨ms₁, c, b₁, hw, ht, he, -⟩
  · rw [he]
    exact .inl ⟨s, [], [], by rw [List.append_nil]; exact h, .silent rfl rfl rfl⟩
  · obtain ⟨ms₂, c₂, b₂, ht₂, hms, hh⟩ := follow_makes run horizon (abort run horizon) c b₁
    rw [← he] at hh
    obtain ⟨late, ha⟩ := h.account
    -- The moves keep to the phases.
    obtain ⟨ph₁, hph₁, hnext⟩ := Plan.exists_phase ht
    obtain ⟨ph₂, hph₂⟩ := hnext ms₂ c₂ ht₂
    rw [afterAll?_append h.on.afterAll?_eq] at hph₁
    obtain ⟨hr₁, ha₁⟩ := hw.accounts ha hph₁
    have hsole₁ := hsole.goes hw.goes
    obtain ⟨js, hr₂, ha₂⟩ := hms.accounts hsole₁ ha₁ hph₂
    have hg₂ := hms.goes hsole₁.isBusy
    have hr : b.Records (ms₁ ++ ms₂) js b₂ := hr₁.trans hr₂
    have hg : b.Goes (ms₁ ++ ms₂) b₂ := hw.goes.trans hg₂
    have ht' := ht.append ht₂
    rw [List.append_assoc] at ha₂ ht'
    rcases hh.standing_or_finishes (hsole₁.goes hg₂) ha₂ ht' with
      ⟨s', js', hstand, hr', hk⟩ | ⟨o, ms₃, js', hf⟩
    · refine .inl ⟨s', ms₁ ++ ms₂, js ++ js', ?_, ?_⟩
      · rw [grantedIn_append, hk, Nat.add_zero]
        exact hstand
      · rw [← List.append_nil (ms₁ ++ ms₂)]
        exact hr.trans hr'
    · exact .inr ⟨o, _, _, hf.of_records hr hg⟩

/-! ## 5. Histories -/

/-- What an operator does is answered by the run and otherwise leaves it where it is. -/
theorem Standing.control (h : b.Standing run p s ms granted) (hsole : b.IsSole run) (c : Control) :
    (b.turn (.control c)).Standing run p s ms
        (granted + if b.grants run (.control c) = true then 1 else 0) ∧
      b.Records [] [] (b.turn (.control c)) := by
  obtain ⟨b', a, hc, hcalm⟩ := calm_control hsole.isBusy (fun n b => b.tell n) c
  have hheeds := heeds_acted (m := 0) hsole.active hc
  have hturn : b.turn (.control c) = b' := congrArg Prod.fst hc
  have hgrants : b.grants run (.control c) = c.isGranted run a := by
    simp only [grants, answer, hc]
  have htakes : (b.gate run).Takes (if c.isGranted run a = true then 1 else 0) (b'.gate run) := by
    have hk : grantedIn run [(b'.now, .acted 0 c a)] = if c.isGranted run a = true then 1 else 0 := by
      simp [grantedIn, Happening.isGrant, List.countP_cons]
    rw [← hk]
    exact hheeds.gate
  obtain ⟨late, ha⟩ := h.account
  rw [hturn, hgrants]
  refine ⟨⟨(hcalm.progress run).trans h.going, ?_, _, ha.takes htakes⟩, ?_⟩
  · rw [hcalm.requests]
    exact h.on
  · exact .silent hcalm.size (hcalm.journal.trans (List.append_nil _)) rfl

/-- **A turn keeps the account of a run that is going**, or is its end. -/
theorem Standing.turn (h : b.Standing run p s ms granted) (hord : b.Orderly) : ∀ t : Turn,
    (∃ s' ms' js, (b.turn t).Standing run p s' (ms ++ ms')
          (granted + (if b.grants run t = true then 1 else 0) + grantedIn run js) ∧
        b.Records ms' js (b.turn t)) ∨
      ∃ o, (b.turn t).runner.progress? run = some (.ended o) ∧ (b.turn t).gate run ≠ .waiting
  | .control c => by
    obtain ⟨hstand, hr⟩ := h.control (hord.isSole h.going) c
    refine .inl ⟨s, [], [], ?_, hr⟩
    rw [List.append_nil]
    exact hstand
  | .devices _ | .clock _ => by
    refine .inl ⟨s, [], [], ?_, .silent rfl rfl rfl⟩
    rw [List.append_nil]
    exact ⟨h.going, h.on, h.account⟩
  | .proceed horizon other => by
    have hsole := hord.isSole h.going
    by_cases hne : other = run
    · subst hne
      rcases h.proceed hsole horizon with hstand | ⟨o, ms', js, hf⟩
      · exact .inl hstand
      · exact .inr ⟨o, hf.outcome, hf.gate⟩
    · rw [Bench.turn, proceed_of_not_going fun s' hs' => hne (hsole.sole other s' hs')]
      refine .inl ⟨s, [], [], ?_, .silent rfl rfl rfl⟩
      rw [List.append_nil]
      exact h

/-- **A run that is still going has its account in order.**  By induction on the turns. -/
theorem Standing.after {s' : Stage} : ∀ {turns : List Turn} {b : Bench} {s : Stage}
    {ms : List Move} {granted : Nat}, b.Standing run p s ms granted → b.Orderly →
    (b.after turns).runner.progress? run = some (.going s') →
    ∃ ms' js, (b.after turns).Standing run p s' (ms ++ ms')
        (granted + grantedOver run b turns + grantedIn run js) ∧
      b.Records ms' js (b.after turns)
  | [], b, s, ms, _, h, _, hs' => by
    obtain rfl : s = s' := by
      cases h.going.symm.trans hs'
      rfl
    refine ⟨[], [], ?_, .silent rfl rfl rfl⟩
    rw [List.append_nil]
    exact h
  | t :: turns, b, s, ms, granted, h, hord, hs' => by
    rcases h.turn hord t with ⟨s₁, ms₁, js₁, h₁, hr₁⟩ | ⟨o, ho, -⟩
    · obtain ⟨ms₂, js₂, h₂, hr₂⟩ := h₁.after (hord.turn t) hs'
      refine ⟨ms₁ ++ ms₂, js₁ ++ js₂, ?_, hr₁.trans hr₂⟩
      have hn : granted + grantedOver run b (t :: turns) + grantedIn run (js₁ ++ js₂) =
          granted + (if b.grants run t = true then 1 else 0) + grantedIn run js₁ +
            grantedOver run (b.turn t) turns + grantedIn run js₂ := by
        rw [grantedOver, grantedIn_append]
        omega
      rw [hn, ← List.append_assoc]
      exact h₂
    · have hend : ((b.turn t).after turns).runner.progress? run = some (.ended o) :=
        (hord.turn t).ended_after ho
      cases hend.symm.trans hs'

/-! ## 6. All gates -/

/-- **The gates of all runs are in order.**  A run that is going has its account in order, and one
that has ended waits for no continue. -/
structure GatesInOrder (b : Bench) : Prop where
  going : ∀ run s, b.runner.progress? run = some (.going s) →
    ∃ p ms granted, b.Standing run p s ms granted
  ended : ∀ run o, b.runner.progress? run = some (.ended o) → b.gate run ≠ .waiting

/-- Every run has made no move and its gate is clear, or it has ended and waits for no continue. -/
def GatesAtRest (b : Bench) : Prop :=
  ∀ run x, b.runner.progress? run = some x →
    (∃ p : Plan, x = .going (.ready p.course)) ∧ b.gate run = .clear ∨
      (∃ o, x = .ended o) ∧ b.gate run ≠ .waiting

theorem GatesAtRest.inOrder (h : b.GatesAtRest) : b.GatesInOrder where
  going run s hs := by
    rcases h run _ hs with ⟨⟨p, hx⟩, hg⟩ | ⟨⟨o, hx⟩, -⟩
    · cases hx
      exact ⟨p, [], 0, standing_ready hs hg⟩
    · cases hx
  ended run o ho := by
    rcases h run _ ho with ⟨⟨p, hx⟩, -⟩ | ⟨-, hg⟩
    · cases hx
    · exact hg

/-- Without an active run all gates are at rest. -/
theorem GatesInOrder.atRest (h : b.GatesInOrder) (hord : b.Orderly) (ha : b.runner.active = none) :
    b.GatesAtRest := by
  intro run x hx
  cases x with
  | going s =>
    have hr := (hord.going run s hx).1
    rw [ha] at hr
    cases hr
  | ended o => exact .inr ⟨⟨o, rfl⟩, h.ended run o hx⟩

/-- What changes neither how far runs have come nor any gate, keeps the gates at rest. -/
theorem GatesAtRest.congr (h : b.GatesAtRest)
    (hp : ∀ run, b'.runner.progress? run = b.runner.progress? run)
    (hg : ∀ run, b'.gate run = b.gate run) : b'.GatesAtRest := by
  intro run x hx
  rw [hg]
  exact h run x ((hp run).symm.trans hx)

/-- **A reset keeps the gates at rest**, whatever the listeners do in the middle of it. -/
theorem kept_gatesAtRest : Kept (fun _ => True) GatesAtRest where
  observe {n b} _ h := h.congr (goes_observe b n).progress fun run => by cases n <;> rfl
  inform {m n b} h := by
    unfold inform
    split <;> exact h
  note h := h
  control {tell} ht c b h := by
    by_cases hc : c = .reset
    · subst hc
      exact keeps_reset ht (fun _ _ _ => trivial) h
    · intro run x hx
      obtain ⟨k, htakes, -⟩ := b.takes_control tell run hc
      -- A run that was there before.
      have old : b.runner.progress? run = some x →
          (∃ p : Plan, x = .going (.ready p.course)) ∧ (b.control tell c).1.gate run = .clear ∨
            (∃ o, x = .ended o) ∧ (b.control tell c).1.gate run ≠ .waiting := by
        intro hold
        rcases h run x hold with ⟨hp, hg⟩ | ⟨ho, hg⟩
        · rw [hg] at htakes
          exact .inl ⟨hp, htakes.of_clear.2⟩
        · exact .inr ⟨ho, (htakes.of_ne_waiting hg).2⟩
      rcases control_cases b tell c with ⟨b', a, he, hcalm⟩ | ⟨p, r, hr, he⟩ | ⟨hreset, -⟩
      · rw [he] at hx
        exact old ((hcalm.progress run).symm.trans hx)
      · obtain ⟨-, -, -, hprog⟩ := Runner.start?_eq_ok hr
        have hx' : r.progress? run = some x := by
          rw [he] at hx
          exact hx
        rw [hprog] at hx'
        split at hx'
        · rename_i hrun
          cases hx'
          have hg : b.gate run = .clear := by
            rw [gate, Runner.signals_of_length_le (Nat.le_of_eq hrun.symm)]
          rw [hg] at htakes
          exact .inl ⟨⟨p, rfl⟩, htakes.of_clear.2⟩
        · exact old hx'
      · exact absurd hreset hc

/-- What an operator does keeps all gates in order. -/
theorem GatesInOrder.control (h : b.GatesInOrder) (hord : b.Orderly) (c : Control) :
    (b.turn (.control c)).GatesInOrder := by
  cases ha : b.runner.active with
  | none => exact (kept_gatesAtRest.operate (h.atRest hord ha) c).inOrder
  | some run =>
    obtain ⟨b', a, he, hcalm⟩ := calm_control (isBusy_of_active ha) (fun n b => b.tell n) c
    have hturn : b.turn (.control c) = b' := congrArg Prod.fst he
    constructor
    · intro run s hs
      rw [hturn, hcalm.progress] at hs
      obtain ⟨p, ms, granted, hstand⟩ := h.going run s hs
      exact ⟨p, ms, _, (hstand.control (hord.isSole hs) c).1⟩
    · intro run o ho
      rw [hturn, hcalm.progress] at ho
      exact (kept_gate_ne_waiting run).operate (h.ended run o ho) c

/-- Following a run keeps all gates in order. -/
theorem GatesInOrder.proceed (h : b.GatesInOrder) (hord : b.Orderly) (horizon run : Nat) :
    (b.proceed horizon run).GatesInOrder := by
  by_cases hgoing : ∃ s, b.runner.progress? run = some (.going s)
  · obtain ⟨s, hs⟩ := hgoing
    obtain ⟨p, ms, granted, hstand⟩ := h.going run s hs
    have hsole := hord.isSole hs
    have hnext := hstand.turn hord (.proceed horizon run)
    constructor
    · intro other s' hs'
      by_cases hne : run = other
      · subst hne
        rcases hnext with ⟨s₁, ms', js, h₁, -⟩ | ⟨o, ho, -⟩
        · cases h₁.going.symm.trans hs'
          exact ⟨p, _, _, h₁⟩
        · cases ho.symm.trans hs'
      · rw [hord.progress?_proceed horizon hne] at hs'
        exact absurd (hsole.sole other s' hs').symm hne
    · intro other o ho
      by_cases hne : run = other
      · subst hne
        rcases hnext with ⟨s₁, ms', js, h₁, -⟩ | ⟨o', -, hg⟩
        · cases h₁.going.symm.trans ho
        · exact hg
      · rw [hord.progress?_proceed horizon hne] at ho
        exact (keptByRun_gate_ne_waiting hne).proceed (h.ended other o ho) horizon
  · rw [proceed_of_not_going (not_exists.mp hgoing)]
    exact h

/-- **Every turn keeps all gates in order.** -/
theorem GatesInOrder.turn (h : b.GatesInOrder) (hord : b.Orderly) : ∀ t : Turn,
    (b.turn t).GatesInOrder
  | .control c => h.control hord c
  | .devices _ | .clock _ => ⟨fun run s hs => by
      obtain ⟨p, ms, granted, hstand⟩ := h.going run s hs
      exact ⟨p, ms, granted, hstand.going, hstand.on, hstand.account⟩, h.ended⟩
  | .proceed horizon run => h.proceed hord horizon run

theorem GatesInOrder.after : ∀ {turns : List Turn} {b : Bench}, b.GatesInOrder → b.Orderly →
    (b.after turns).GatesInOrder
  | [], _, h, _ => h
  | t :: _, _, h, hord => (h.turn hord t).after (hord.turn t)

/-- **The gates of every bench that came about are in order.** -/
theorem gatesInOrder_of_isReachable (h : b.IsReachable) : b.GatesInOrder := by
  obtain ⟨logCapacity, timing, registry, gateway, members, nesting, turns, rfl⟩ := h
  have hrest : (create logCapacity timing registry gateway members nesting).GatesAtRest := by
    intro run x hx
    cases hx
  exact hrest.inOrder.after (orderly_create logCapacity timing registry gateway members nesting)

/-- The gate of a run that has made no move is clear. -/
theorem gate_of_ready (h : b.IsReachable)
    (hs : b.runner.progress? run = some (.going (.ready p.course))) : b.gate run = .clear := by
  obtain ⟨q, ms, granted, hstand⟩ := (gatesInOrder_of_isReachable h).going run _ hs
  rcases hstand.gate_cases with ⟨-, hg, -⟩ | ⟨hp, -⟩
  · exact hg
  · rw [isParked, hs] at hp
    cases hp

/-! ## 7. The law of the continue -/

/-- **A run that has ended accepts no continue.**  One that comes all the same changes nothing, or
takes away the gate that was left behind when the run was broken off at a pause. -/
theorem answer_of_ended (h : b.IsReachable) (ho : b.runner.progress? run = some (.ended o))
    (hc : b.Asks run c) :
    b.answer c = .ok (.flag false) ∧ (b.turn (.control c) = b ∨ b.gate run = .abandoned ∧
      b.turn (.control c) = b.setSignals run (b.runner.signals run).disarm) := by
  have hg := (gatesInOrder_of_isReachable h).ended run o ho
  refine ⟨?_, hc.turn_eq hg⟩
  rw [hc.answer_eq, decide_eq_false hg]

/-- **Each continue that is accepted ends one pause.**  A run of the plan `p` was started and has
made no move on the bench `b₀`; then anything may happen, in any order, and on the bench `b` the run
is still going, after moves that every member of the audience heard.

A continue for it is accepted exactly when it waits at a pause and all that were accepted so far have
led from a pause back to running; otherwise nothing happens.  As many were accepted as have led to a
resumption, and one more exactly if the run waits at a pause whose continue was accepted.  When the
run is followed to its end, that is how it ends (`Finishes`), and after that no continue for it is
accepted any more. -/
theorem continues_of_run {b₀ : Bench} {turns : List Turn} (hreach : b₀.IsReachable)
    (hstart : b₀.runner.progress? run = some (.going (.ready p.course)))
    (hb : b = b₀.after turns) (hs : b.runner.progress? run = some (.going s)) :
    ∃ ms, s.On p b.requests.getLast? ms ∧
      (∀ m, m < b.members.length → heardBy m (b.journal.drop b₀.journal.length) = noticesOf ms) ∧
      (∀ c, b.Asks run c →
        b.answer c = .ok (.flag (decide (b.isParked run = true ∧
          b₀.granted run turns = resumptions (statesOf ms)))) ∧
        (b.answer c = .ok (.flag false) → b.turn (.control c) = b)) ∧
      (b₀.granted run turns = resumptions (statesOf ms) ∨
        b.isParked run = true ∧ b₀.granted run turns = resumptions (statesOf ms) + 1) ∧
      ∀ horizon o, (b.proceed horizon run).outcome? run = some o →
        (∃ ms' js, Finishes run p ms (b₀.granted run turns) 0 b (b.proceed horizon run) o ms' js) ∧
        ∀ later b' c, b' = (b.proceed horizon run).after later → b'.Asks run c →
          b'.answer c = .ok (.flag false) ∧ (b'.turn (.control c) = b' ∨ b'.gate run = .abandoned ∧
            b'.turn (.control c) = b'.setSignals run (b'.runner.signals run).disarm) := by
  subst hb
  have hord₀ := orderly_of_isReachable hreach
  obtain ⟨ms, js, hstand, hr⟩ := (standing_ready hstart (gate_of_ready hreach hstart)).after hord₀ hs
  have hjs : (b₀.after turns).journal.drop b₀.journal.length = js := by
    rw [hr.journal, List.drop_left]
  have hn : 0 + grantedOver run b₀ turns + grantedIn run js = b₀.granted run turns := by
    rw [Bench.granted, hjs, Nat.zero_add]
  rw [List.nil_append, hn] at hstand
  have hgate := hstand.gate_cases
  refine ⟨ms, hstand.on, fun m hm => ?_, fun c hc => ⟨?_, fun hno => ?_⟩, ?_, fun horizon o ho => ?_⟩
  · rw [hjs]
    exact hr.heard m (by rw [← hr.size]; exact hm)
  · rw [hc.answer_eq, decide_eq_decide.mpr hstand.gate_eq_waiting_iff]
  · rw [hc.answer_eq] at hno
    have hne : (b₀.after turns).gate run ≠ .waiting := by
      intro hw
      rw [decide_eq_true hw] at hno
      cases hno
    rcases hc.turn_eq hne with he | ⟨ha, -⟩
    · exact he
    · rw [ha] at hgate
      rcases hgate with ⟨-, hg, -⟩ | ⟨-, ⟨hg, -⟩ | ⟨hg, -⟩⟩ <;> cases hg
  · rcases hgate with ⟨-, -, hn⟩ | ⟨hp, ⟨-, hn⟩ | ⟨-, hn⟩⟩
    · exact .inl hn
    · exact .inl hn
    · exact .inr ⟨hp, hn⟩
  · rcases hstand.proceed (hord₀.after.isSole hs) horizon with
      ⟨s', ms', js', hgoing, -⟩ | ⟨o', ms', js', hf⟩
    · rw [outcome?_of_going hgoing.going] at ho
      cases ho
    · have hout : o' = o := by
        rw [outcome?, hf.outcome] at ho
        exact Option.some.inj ho
      subst hout
      refine ⟨⟨ms', js', hf⟩, ?_⟩
      rintro later b' c rfl hc
      have hreach' : ((b₀.after turns).proceed horizon run).IsReachable :=
        (hreach.after turns).after [.proceed horizon run]
      have hend : (((b₀.after turns).proceed horizon run).after later).runner.progress? run =
          some (.ended o') := (orderly_of_isReachable hreach').ended_after hf.outcome
      exact answer_of_ended (hreach'.after later) hend hc

/-- Two commands, one at a time. -/
def twoLinesPlan : Plan :=
  ⟨⟨none, ["alpha.home", "alpha.park"]⟩, .singleBlock, {}⟩

/-- A run of `twoLinesPlan` that was started before a listener that does nothing. -/
def starting : Bench :=
  watched.after [.control (.start twoLinesPlan.script twoLinesPlan.mode)]

/-- The run comes to its pause and gets two continues. -/
def twoContinues : List Turn :=
  [.proceed 1000 0, .control .continueRun, .control (.continueThe 0)]

theorem continues_of_starting :
    starting.IsReachable ∧ (starting.after twoContinues).isParked 0 = true ∧
      starting.granted 0 twoContinues = 1 ∧
      (starting.after twoContinues).answer .continueRun = .ok (.flag false) ∧
      ((starting.after twoContinues).proceed 1000 0).outcome? 0 = some .completed ∧
      ∃ ms r, twoLinesPlan.course.Trace ms (.ended r) ∧ resumptions (statesOf ms) = 1 := by
  have hreach : starting.IsReachable := by
    unfold starting watched
    exact (isReachable_create _ _ _ _ _ _).after _
  have hsteady : (starting.after twoContinues).IsSteady := by
    unfold starting watched
    rw [← after_append]
    refine (orderly_create _ _ _ _ _ _).isSteady_after fun m hm => ?_
    rw [List.mem_singleton.mp hm]
    exact fun _ _ _ => List.not_mem_nil
  have hparked : (starting.after twoContinues).isParked 0 = true := by decide +kernel
  have hgranted : starting.granted 0 twoContinues = 1 := by decide +kernel
  have hactive : (starting.after twoContinues).runner.active = some 0 := by decide +kernel
  have hout : ((starting.after twoContinues).proceed 1000 0).outcome? 0 = some .completed := by
    decide +kernel
  obtain ⟨next, hs⟩ := exists_of_isParked hparked
  have hstart : starting.runner.progress? 0 = some (.going (.ready twoLinesPlan.course)) := rfl
  obtain ⟨ms, -, hheard, hask, -, hend⟩ := continues_of_run hreach hstart rfl hs
  have hnone : resumptions (statesOf ms) = 0 := by
    rw [statesOf, ← hheard 0 (by decide +kernel)]
    decide +kernel
  obtain ⟨hanswer, -⟩ := hask .continueRun ⟨rfl, fun _ => hactive⟩
  rw [hgranted, hnone, decide_eq_false fun h => absurd h.2 Nat.one_ne_zero] at hanswer
  obtain ⟨⟨ms', js, hf⟩, -⟩ := hend 1000 .completed hout
  have hjs : ((starting.after twoContinues).proceed 1000 0).journal.drop
      (starting.after twoContinues).journal.length = js := by
    rw [hf.journal, List.drop_left]
  have hk : grantedIn 0 js = 0 := by
    rw [← hjs]
    decide +kernel
  have haccount := hf.account
  rw [hgranted, hk] at haccount
  rcases hf.cause with ⟨⟨r, ht, -⟩, -, hlast⟩ | ⟨hns, -⟩
  · rw [hgranted, hk] at hlast
    rcases haccount with hn | hn
    · exact ⟨hreach, hparked, hgranted, hanswer, hout, _, r, ht, hn.symm⟩
    · cases (hlast hn).1
  · exact absurd hsteady hns

end Bench

end DeviceScript
