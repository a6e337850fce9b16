import DeviceScript.Proofs.Bench.Stopping
import DeviceScript.Proofs.Course.Phases
/-!
# The gates of the runs on a bench

Continues come from operators and from listeners, and they come in the middle of what runs do.  Here
it is settled what each thing that happens on a bench does to the gate of a run.  A control leaves
every gate alone or is a continue for it (`Bench.takes_control`), so while an active run tells a
notice its gate takes just the continues that the journal says were accepted (`Bench.heeds_tell`).
A move of the run works its gate (`Bench.Makes.works`), and the end of a run leaves no gate waiting
(`Bench.IsSole.hushes_abort`), nor does anything else that happens afterwards.
-/

namespace DeviceScript

/-! ## 1. Stages, and continues that are accepted -/

open Phase

/-- The phase of a run that waits at this stage. -/
def Stage.phase : Stage → Phase
  | parked _ => .paused
  | _ => .away

theorem Stage.On.afterAll?_eq {p : Plan} {handed : Option Request} {ms : List Move} {s : Stage}
    (h : s.On p handed ms) : away.afterAll? ms = some s.phase := by
  cases h with
  | ready => rfl
  | resting ht => exact Plan.phase_of_rest ht
  | calling ht _ => exact Plan.phase_of_call ht
  | parked ht => exact Plan.phase_of_park ht

/-- Whether a control is a continue for this run, if that is the active one. -/
def Control.isContinue (run : Nat) : Control → Bool
  | continueRun => true
  | continueThe other => other = run
  | _ => false

/-- Whether the answer says that a continue for this run, if that is the active one, was accepted. -/
def Control.isGranted (run : Nat) (c : Control) (a : Answer) : Bool :=
  c.isContinue run && a = .flag true

/-- Whether a listener asked this run, if that is the active one, for a continue and it was
accepted. -/
def Happening.isGrant (run : Nat) : Happening → Bool
  | acted _ c a => c.isGranted run a
  | _ => false

/-- How many continues of this run, the active one, were accepted from listeners according to the
journal `js`. -/
def grantedIn (run : Nat) (js : List (Nat × Happening)) : Nat :=
  js.countP fun e => e.2.isGrant run

@[simp] theorem grantedIn_append (run : Nat) (js₁ js₂ : List (Nat × Happening)) :
    grantedIn run (js₁ ++ js₂) = grantedIn run js₁ + grantedIn run js₂ :=
  List.countP_append

namespace Bench

/-- The gate of a run. -/
def gate (b : Bench) (run : Nat) : Gate := (b.runner.signals run).gate

variable {b b' b'' : Bench} {run other horizon : Nat} {js js' : List (Nat × Happening)}

/-! ## 2. Controls -/

/-- Requests that keep the gate of a run keep all gates. -/
theorem gate_setSignals_of_eq {s : Signals} (hs : s.gate = b.gate run) :
    (b.setSignals run s).gate other = b.gate other := by
  unfold gate
  rw [setSignals, withRunner, Runner.signals_setSignals]
  split
  · rename_i h
    rw [← h.1]
    exact hs
  · rfl

/-- Requests made of another run keep the gate of this one. -/
theorem gate_setSignals_of_ne {s : Signals} (hne : run ≠ other) :
    (b.setSignals run s).gate other = b.gate other := by
  unfold gate
  rw [setSignals, withRunner, Runner.signals_setSignals, if_neg fun h => hne h.1]

/-- The gate of a run that was started is the one written down last. -/
theorem gate_setSignals {s : Signals} (h : (b.runner.progress? run).isSome = true) :
    (b.setSignals run s).gate run = s.gate := by
  obtain ⟨x, hx⟩ := Option.isSome_iff_exists.mp h
  unfold gate
  rw [setSignals, withRunner, Runner.signals_setSignals, if_pos ⟨rfl, Runner.lt_of_progress? hx⟩]

/-- The gate of a run that was not started is clear. -/
theorem gate_of_not_started (h : b.runner.progress? run = none) : b.gate run = .clear := by
  have hlen := @Runner.isSome_progress? b.runner run
  rw [h] at hlen
  rw [gate, Runner.signals_of_length_le (Nat.le_of_not_lt (of_decide_eq_false hlen.symm))]

/-- A continue is answered by the run that it is for. -/
theorem control_of_isContinue {tell : Notice → Bench → Bench × Option Crash} {c : Control}
    (hc : c.isContinue run = true) (ha : c = .continueRun → b.runner.active = some run) :
    b.control tell c = (b.setSignals run (b.runner.signals run).requestContinue.1,
      .ok (.flag (b.runner.signals run).requestContinue.2)) := by
  cases c with
  | continueRun =>
    rw [control, Runner.continueActive, ha rfl]
    rfl
  | continueThe other =>
    obtain rfl : other = run := of_decide_eq_true hc
    rfl
  | start | stop | stopRun | reset | setConnected => cases hc

/-- A continue for a run is taken by its gate. -/
theorem takes_requestContinue (b : Bench) (run : Nat) :
    (b.gate run).Takes (if (b.runner.signals run).requestContinue.2 = true then 1 else 0)
      ((b.setSignals run (b.runner.signals run).requestContinue.1).gate run) := by
  have h := Signals.takes_requestContinue (b.runner.signals run)
  have hgate : (b.setSignals run (b.runner.signals run).requestContinue.1).gate run =
      (b.runner.signals run).requestContinue.1.gate := by
    unfold gate
    rw [setSignals, withRunner, Runner.signals_setSignals]
    split
    · rfl
    · rename_i hlt
      rw [Runner.signals_of_length_le (Nat.le_of_not_lt fun h => hlt ⟨rfl, h⟩)]
      rfl
  rw [hgate]
  exact h

/-- The gate of the run takes some continues while a control is carried out: just the accepted one,
if the run is the active one. -/
def TakesIn (b : Bench) (run : Nat) (c : Control) (out : Bench × Except Crash Answer) : Prop :=
  ∃ k, (b.gate run).Takes k (out.1.gate run) ∧
    (b.runner.active = some run → ∀ a, out.2 = .ok a → k = if c.isGranted run a then 1 else 0)

/-- A control that is no continue for the run may leave its gate alone. -/
theorem takesIn_of_gate_eq {c : Control} {out : Bench × Except Crash Answer}
    (hg : out.1.gate run = b.gate run)
    (hc : b.runner.active = some run → c.isContinue run = false) : b.TakesIn run c out := by
  refine ⟨0, hg ▸ .none _, fun ha a _ => ?_⟩
  rw [Control.isGranted, hc ha]
  rfl

/-- A continue for the run is accepted if its gate takes it. -/
theorem takesIn_of_isContinue {tell : Notice → Bench → Bench × Option Crash} {c : Control}
    (hc : c.isContinue run = true) (ha : c = .continueRun → b.runner.active = some run) :
    b.TakesIn run c (b.control tell c) := by
  rw [control_of_isContinue hc ha]
  refine ⟨_, b.takes_requestContinue run, fun _ a h => ?_⟩
  cases h
  rw [Control.isGranted, hc]
  simp

/-- **A control leaves a gate alone, or is a continue for it.**  A reset may do anything, by what
listeners do in the middle of it. -/
theorem takes_control (b : Bench) (tell : Notice → Bench → Bench × Option Crash) (run : Nat)
    {c : Control} (hc : c ≠ .reset) : b.TakesIn run c (b.control tell c) := by
  cases c with
  | start script mode =>
    refine takesIn_of_gate_eq ?_ fun _ => rfl
    cases hr : b.runner.start? b.registry.hasAny (Plan.course ⟨script, mode, b.timing⟩) with
    | ok r =>
      simp only [control, hr]
      exact congrArg Signals.gate (Runner.signals_start? hr)
    | error e => simp only [control, hr]
  | stop =>
    refine takesIn_of_gate_eq ?_ fun _ => rfl
    cases ha : b.runner.active with
    | none =>
      simp only [control, Runner.stopActive, ha]
      rfl
    | some active =>
      simp only [control, Runner.stopActive, ha]
      exact gate_setSignals_of_eq rfl
  | continueRun =>
    by_cases ha : b.runner.active = some run
    · exact takesIn_of_isContinue rfl fun _ => ha
    · refine takesIn_of_gate_eq ?_ fun h => absurd h ha
      cases hx : b.runner.active with
      | none =>
        simp only [control, Runner.continueActive, hx]
        rfl
      | some active =>
        have hne : active ≠ run := fun h => ha (hx.trans (congrArg some h))
        simp only [control, Runner.continueActive, hx]
        exact gate_setSignals_of_ne hne
  | stopRun other => exact takesIn_of_gate_eq (gate_setSignals_of_eq rfl) fun _ => rfl
  | continueThe other =>
    by_cases he : other = run
    · refine takesIn_of_isContinue (decide_eq_true he) fun h => ?_
      cases h
    · exact takesIn_of_gate_eq (gate_setSignals_of_ne he) fun _ => decide_eq_false he
  | reset => exact absurd rfl hc
  | setConnected name connected => exact takesIn_of_gate_eq rfl fun _ => rfl

/-! ## 3. Notices -/

/-- **What listeners do to the gate of the active run.**  It takes the continues that the journal
says were accepted. -/
structure Heeds (run : Nat) (b : Bench) (js : List (Nat × Happening)) (b' : Bench) : Prop where
  active : b'.runner.active = b.runner.active
  journal : b'.journal = b.journal ++ js
  gate : (b.gate run).Takes (grantedIn run js) (b'.gate run)

theorem Heeds.trans (h : Heeds run b js b') (h' : Heeds run b' js' b'') :
    Heeds run b (js ++ js') b'' where
  active := h'.active.trans h.active
  journal := by rw [h'.journal, h.journal, List.append_assoc]
  gate := by
    rw [grantedIn_append]
    exact h.gate.trans h'.gate

theorem Heeds.refl (run : Nat) (b : Bench) : Heeds run b [] b where
  active := rfl
  journal := (List.append_nil _).symm
  gate := .none _

/-- A line may be written into the journal that is on no continue. -/
theorem heeds_note {h : Happening} (hh : h.isGrant run = false) :
    Heeds run b [(b.now, h)] (b.note h) where
  active := rfl
  journal := rfl
  gate := by
    have hk : grantedIn run [(b.now, h)] = 0 := by simp [grantedIn, hh]
    rw [hk]
    exact .none _

/-- What a listener does is written down with its answer. -/
theorem heeds_acted {tell : Notice → Bench → Bench × Option Crash} {m : Nat} {c : Control}
    {a : Answer} (ha : b.runner.active = some run) (hc : b.control tell c = (b', .ok a)) :
    Heeds run b [(b'.now, .acted m c a)] (b'.note (.acted m c a)) := by
  obtain ⟨b₁, a₁, hc₁, hcalm⟩ := calm_control (isBusy_of_active ha) tell c
  rw [hc] at hc₁
  cases hc₁
  refine ⟨hcalm.active, ?_, ?_⟩
  · rw [note, hcalm.journal, List.append_nil]
  · have hk : grantedIn run [(b'.now, .acted m c a)] = if c.isGranted run a = true then 1 else 0 := by
      simp [grantedIn, Happening.isGrant, List.countP_cons]
    rw [hk]
    by_cases hr : c = .reset
    · subst hr
      have hne : b.runner.active ≠ none := by simp [ha]
      cases hn : b.runner.resetNotices? with
      | error e =>
        simp only [control, hn] at hc
        cases hc
        exact .none _
      | ok ns => exact absurd (Runner.resetNotices?_eq_ok hn).1 hne
    · obtain ⟨k, ht, hk⟩ := b.takes_control tell run hr
      rw [hc] at ht hk
      rw [← hk ha a rfl]
      exact ht

theorem keptByActs_heeds (ha : b.runner.active = some run) :
    KeptByActs (fun _ => True) (fun b' => ∃ js, Heeds run b js b') where
  observe {n b'} _ h := by
    obtain ⟨js, h⟩ := h
    refine ⟨js, (observe_eq b' n).1.trans h.active, h.journal, ?_⟩
    cases n <;> exact h.gate
  inform {m n b'} h := by
    obtain ⟨js, h⟩ := h
    unfold inform
    split
    · exact ⟨js, h⟩
    · exact ⟨_, h.trans ⟨rfl, rfl, .none _⟩⟩
  crashed h := by
    obtain ⟨js, h⟩ := h
    exact ⟨_, h.trans (heeds_note rfl)⟩
  refused {_} _ {c _ b₁ _} hc h := by
    obtain ⟨js, h⟩ := h
    obtain ⟨_, _, hc', -⟩ := calm_control (isBusy_of_active (h.active.trans ha)) _ c
    rw [hc] at hc'
    cases hc'
  acted {_} _ {_ _ _ _ _} hc h := by
    obtain ⟨js, h⟩ := h
    exact ⟨_, h.trans (heeds_acted (h.active.trans ha) hc)⟩

/-- **While a notice of the active run is told, its gate takes just the continues that the journal
says were accepted.** -/
theorem heeds_tell (ha : b.runner.active = some run) (n : Notice) :
    ∃ js, Heeds run b js (b.tell n).1 :=
  (keptByActs_heeds ha).tellWithin b.nesting n b trivial ⟨[], .refl run b⟩

/-! ## 4. Moves -/

/-- **The audience hears what the moves tell**, every member all of it, and the journal says so. -/
structure Records (b : Bench) (ms : List Move) (js : List (Nat × Happening)) (b' : Bench) :
    Prop where
  size : b'.members.length = b.members.length
  journal : b'.journal = b.journal ++ js
  heard : ∀ m, m < b.members.length → heardBy m js = noticesOf ms

variable {ms ms' : List Move} {m : Move}

/-- Moves that tell nothing go without a line in the journal. -/
theorem Records.silent (hsize : b'.members.length = b.members.length)
    (hj : b'.journal = b.journal) (hm : noticesOf ms = []) : b.Records ms [] b' where
  size := hsize
  journal := hj.trans (List.append_nil _).symm
  heard _ _ := hm.symm

theorem Records.trans (h : b.Records ms js b') (h' : b'.Records ms' js' b'') :
    b.Records (ms ++ ms') (js ++ js') b'' where
  size := h'.size.trans h.size
  journal := by rw [h'.journal, h.journal, List.append_assoc]
  heard m hm := by
    rw [heardBy_append, noticesOf_append, h.heard m hm, h'.heard m (by rw [h.size]; exact hm)]

/-- A notice that is told to the end is heard by all. -/
theorem IsSole.records_tell (h : b.IsSole run) {n : Notice} (ht : b.tell n = (b', none)) :
    ∃ js, b.Records [.told n] js b' ∧ (b.gate run).Takes (grantedIn run js) (b'.gate run) := by
  obtain ⟨js, htells, -⟩ := h.tells n
  obtain ⟨js', hheeds⟩ := heeds_tell h.active n
  rw [ht] at htells hheeds
  have hsize : (b.observe n).members.length = b.members.length := by
    rw [(observe_eq b n).2]
  have hjs : js = js' :=
    List.append_cancel_left (htells.calm.journal.symm.trans hheeds.journal)
  subst hjs
  refine ⟨js, ⟨htells.calm.size.trans hsize, hheeds.journal, fun m hm => ?_⟩, hheeds.gate⟩
  exact htells.all rfl m (Nat.zero_le m) (hsize ▸ hm)

/-- A pause is ended by a stop, and otherwise by the continue that its gate has taken. -/
theorem pauseEnd?_eq_some {w : Wake} (h : b.pauseEnd? run = some w) :
    (b.isStopRequested run = true ∧ w = .stopped) ∨
      (b.isStopRequested run = false ∧ b.gate run = .released ∧ w = .due) := by
  unfold pauseEnd? at h
  simp only at h
  split at h
  · rename_i hs
    cases h
    exact .inl ⟨hs, rfl⟩
  · rename_i hs
    split at h
    · rename_i hg
      cases h
      exact .inr ⟨eq_false_of_ne_true hs, hg, rfl⟩
    · cases h

/-- **A move of the active run works its gate.** -/
theorem Makes.works (h : Makes run horizon b m b') (hsole : b.IsSole run) :
    ∃ js, b.Records [m] js b' ∧ m.Works (b.gate run) (grantedIn run js) (b'.gate run) := by
  cases h with
  | told ht => exact hsole.records_tell ht
  | foundAny | foundDevice | foundStop => exact ⟨[], .silent rfl rfl rfl, rfl, rfl⟩
  | rested hr =>
    obtain ⟨moment, rfl⟩ := eq_clock_of_restEnd? hr
    exact ⟨[], .silent rfl rfl rfl, rfl, rfl⟩
  | called hl hr =>
    obtain ⟨moment, rfl⟩ := eq_clock_of_callEnd? hr
    exact ⟨_, ⟨rfl, rfl, fun _ _ => rfl⟩, rfl, rfl⟩
  | armed | disarmed => exact ⟨[], .silent rfl rfl rfl, rfl, gate_setSignals hsole.started⟩
  | parked hp =>
    refine ⟨[], .silent rfl rfl rfl, ?_⟩
    rcases pauseEnd?_eq_some hp with ⟨-, rfl⟩ | ⟨-, hg, rfl⟩
    · exact ⟨rfl, rfl⟩
    · exact ⟨hg, rfl, rfl⟩

/-- **The account of a run on a bench.**  A pause that was ended by a stop had been asked for one. -/
structure Accounts (b : Bench) (run : Nat) (ms : List Move) (granted late : Nat) (ph : Phase) :
    Prop where
  account : Account ms (b.gate run) granted late ph
  stop : ph = .leaving ∨ ph = .closing → b.isStopRequested run = true

/-- A move that a run makes keeps its account. -/
theorem Makes.accounts {granted late : Nat} {ph ph' : Phase} (h : Makes run horizon b m b')
    (hsole : b.IsSole run) (ha : b.Accounts run ms granted late ph) (hph : ph.after? m = some ph') :
    ∃ js, b.Records [m] js b' ∧
      b'.Accounts run (ms ++ [m]) (granted + grantedIn run js) (late + grantedIn run js) ph' := by
  obtain ⟨js, hr, hw⟩ := h.works hsole
  refine ⟨js, hr, ha.account.move hph hw, fun hph' => ?_⟩
  refine (h.goes hsole.isBusy).stop run ?_
  rcases Phase.eq_of_after? hph hph' with rfl | hph
  · cases h with
    | parked hp =>
      rcases pauseEnd?_eq_some hp with ⟨hs, -⟩ | ⟨-, -, hw⟩
      · exact hs
      · cases hw
  · exact ha.stop hph

/-- **Moves that a run makes keep its account.**  By induction on the moves. -/
theorem MakesAll.accounts (h : MakesAll run horizon b ms' b') :
    ∀ {ms : List Move} {granted late : Nat} {ph ph' : Phase}, b.IsSole run →
      b.Accounts run ms granted late ph → ph.afterAll? ms' = some ph' →
      ∃ js, b.Records ms' js b' ∧
        b'.Accounts run (ms ++ ms') (granted + grantedIn run js) (late + grantedIn run js) ph' := by
  induction h with
  | nil b =>
    intro ms granted late ph ph' _ ha hph
    cases hph
    exact ⟨[], .silent rfl rfl rfl, by rw [List.append_nil]; exact ha⟩
  | @cons b₁ b₂ b₃ m ms' hm _ ih =>
    intro ms granted late ph ph' hsole ha hph
    obtain ⟨ph₁, hph₁, hph₂⟩ := Option.bind_eq_some_iff.mp hph
    obtain ⟨js₁, hr₁, ha₁⟩ := hm.accounts hsole ha hph₁
    obtain ⟨js₂, hr₂, ha₂⟩ := ih (hsole.goes (hm.goes hsole.isBusy)) ha₁ hph₂
    refine ⟨js₁ ++ js₂, hr₁.trans hr₂, ?_⟩
    rw [grantedIn_append, ← Nat.add_assoc, ← Nat.add_assoc, List.append_cons]
    exact ha₂

/-- **A run that wakes keeps its account**, and what was accepted before it woke is not late. -/
theorem Wakes.accounts {granted late : Nat} {s : Stage} {ph : Phase}
    (h : Wakes run horizon b s ms' b') (ha : Account ms (b.gate run) granted late s.phase)
    (hph : s.phase.afterAll? ms' = some ph) :
    b.Records ms' [] b' ∧ b'.Accounts run (ms ++ ms') granted 0 ph := by
  cases h with
  | ready =>
    cases hph
    rw [List.append_nil]
    exact ⟨.silent rfl rfl rfl, ha.restart nofun nofun, by rintro (h | h) <;> cases h⟩
  | @rested nanos _ _ w _ hr =>
    cases hph
    obtain ⟨moment, rfl⟩ := eq_clock_of_restEnd? hr
    have hw : (Move.rested nanos w).Works (b.gate run) 0 (b.gate run) := ⟨rfl, rfl⟩
    exact ⟨.silent rfl rfl rfl, (ha.move rfl hw).restart nofun nofun,
      by rintro (h | h) <;> cases h⟩
  | @called request limit _ result _ _ hr =>
    cases hph
    obtain ⟨moment, rfl⟩ := eq_clock_of_callEnd? hr
    have hw : (Move.called request limit result).Works (b.gate run) 0 (b.gate run) := ⟨rfl, rfl⟩
    exact ⟨.silent rfl rfl rfl, (ha.move rfl hw).restart nofun nofun,
      by rintro (h | h) <;> cases h⟩
  | parked hp =>
    refine ⟨.silent rfl rfl rfl, ?_⟩
    rcases pauseEnd?_eq_some hp with ⟨hs, rfl⟩ | ⟨-, hg, rfl⟩
    · cases hph
      have hw : (Move.parked .stopped).Works (b.gate run) 0 (b.gate run) := ⟨rfl, rfl⟩
      exact ⟨(ha.move rfl hw).restart nofun nofun, fun _ => hs⟩
    · cases hph
      have hw : (Move.parked .due).Works (b.gate run) 0 (b.gate run) := ⟨hg, rfl, rfl⟩
      exact ⟨(ha.move rfl hw).restart nofun nofun, by rintro (h | h) <;> cases h⟩

/-! ## 5. Runs that are broken off -/

theorem gate_conclude (o : RunOutcome) : (b.conclude run o).gate other = b.gate other := by
  unfold gate
  rw [conclude, withRunner, Runner.signals_release, Runner.signals_setOutcome]

theorem gate_lose (c : Crash) : (b.lose run c).gate other = b.gate other := by
  unfold gate
  rw [lose, withRunner, Runner.signals_setOutcome]

theorem gate_suspend (s : Stage) : (b.suspend run s).gate other = b.gate other := by
  unfold gate
  rw [suspend, withRunner, Runner.signals_setStage]

/-- From the bench `b` on no continue of the run is accepted, and on the bench `b'` none is waited
for. -/
def Hushes (run : Nat) (b b' : Bench) : Prop :=
  b'.gate run ≠ .waiting ∧ ∃ js, b'.journal = b.journal ++ js ∧ grantedIn run js = 0

/-- While a run is reported that was broken off, it takes no continue. -/
theorem IsSole.hushes_report {n : Notice} {next : Course} (h : b.IsSole run)
    (hg : b.gate run ≠ .waiting)
    (hnext : ∀ b', b'.IsSole run → b'.gate run ≠ .waiting →
      Hushes run b' (follow run horizon (fun c b => b.lose run c) next b')) :
    Hushes run b (follow run horizon (fun c b => b.lose run c) (.tell n next) b) := by
  obtain ⟨-, -, -, hsole⟩ := h.tells n
  obtain ⟨js, hheeds⟩ := heeds_tell h.active n
  obtain ⟨hk, hg'⟩ := hheeds.gate.of_ne_waiting hg
  rw [follow]
  split
  · rename_i b₁ c hc
    rw [hc] at hheeds hg'
    refine ⟨?_, js, hheeds.journal, hk⟩
    rw [gate_lose]
    exact hg'
  · rename_i b₁ hc
    rw [hc] at hheeds hg' hsole
    obtain ⟨hlast, js', hj, hk'⟩ := hnext b₁ hsole hg'
    refine ⟨hlast, js ++ js', ?_, by rw [grantedIn_append, hk, hk']⟩
    rw [hj, hheeds.journal, List.append_assoc]

/-- **A run that was broken off takes no continue any more.** -/
theorem IsSole.hushes_abort (h : b.IsSole run) (horizon : Nat) (c : Crash) :
    Hushes run b (abort run horizon c b) := by
  have h₀ : (b.setSignals run (b.runner.signals run).abandon).IsSole run :=
    h.goes (goes_setSignals fun hs => hs)
  have hg₀ : (b.setSignals run (b.runner.signals run).abandon).gate run ≠ .waiting := by
    rw [gate_setSignals h.started]
    exact Signals.gate_abandon_ne_waiting _
  refine h₀.hushes_report hg₀ fun b₁ h₁ hg₁ => ?_
  refine h₁.hushes_report hg₁ fun b₂ h₂ hg₂ => ?_
  refine h₂.hushes_report hg₂ fun b₃ h₃ hg₃ => ?_
  refine ⟨?_, [], (List.append_nil _).symm, rfl⟩
  rw [follow, gate_conclude]
  exact hg₃

/-- **A notice that breaks the run off is heard up to the member that crashes.** -/
theorem IsSole.heardBy_crash (h : b.IsSole run) {n : Notice} {c : Crash}
    (ht : b.tell n = (b', some c)) (hj : b'.journal = b.journal ++ js) :
    ¬ b.IsSteady ∧ ∃ m, m < b.members.length ∧ (∃ moment, (moment, .crashed m c) ∈ js) ∧
      ∀ k, heardBy k js = if k ≤ m then [n] else [] := by
  obtain ⟨js', htells, -⟩ := h.tells n
  rw [ht] at htells
  have hjs : js' = js := List.append_cancel_left (htells.calm.journal.symm.trans hj)
  subst hjs
  obtain ⟨m, -, hm, hcrash, hheard⟩ := htells.crash c rfl
  rw [(observe_eq b n).2] at hm
  refine ⟨fun hs => ?_, m, hm, hcrash, fun k => ?_⟩
  · cases htells.steady ((goes_observe b n).steady hs)
  · rw [hheard]
    simp only [Nat.zero_le, true_and]

/-! ## 6. Other runs -/

/-- What the continues that are taken leave true of a gate stays true while something is told. -/
theorem kept_gate (run : Nat) {P : Gate → Prop} (hP : ∀ {k g g'}, Gate.Takes g k g' → P g → P g') :
    Kept (fun _ => True) (fun b => P (b.gate run)) where
  observe {n b} _ h := by cases n <;> exact h
  inform {m n b} h := by
    unfold inform
    split <;> exact h
  note h := h
  control {tell} ht c b h := by
    by_cases hc : c = .reset
    · subst hc
      exact keeps_reset ht (fun _ _ _ => trivial) h
    · obtain ⟨k, hk, -⟩ := b.takes_control tell run hc
      exact hP hk h

/-- **What is told makes no gate wait.** -/
theorem kept_gate_ne_waiting (run : Nat) : Kept (fun _ => True) (·.gate run ≠ .waiting) :=
  kept_gate run fun hk h => (hk.of_ne_waiting h).2

/-- A run makes no gate of another run wait. -/
theorem keptByRun_gate_ne_waiting (hne : run ≠ other) :
    KeptByRun run (·.gate other ≠ .waiting) where
  tell _ _ h := (kept_gate_ne_waiting other).tell trivial h
  sent h := h
  clock h := h
  signals h := by
    rw [gate_setSignals_of_ne hne]
    exact h
  suspend h := by
    rw [gate_suspend]
    exact h
  conclude h := by
    rw [gate_conclude]
    exact h
  lose h := by
    rw [gate_lose]
    exact h

theorem Wakes.gate_eq {s : Stage} (h : Wakes run horizon b s ms b') (other : Nat) :
    b'.gate other = b.gate other := by
  obtain ⟨moment, rfl⟩ := h.eq_clock
  rfl

end Bench

end DeviceScript
