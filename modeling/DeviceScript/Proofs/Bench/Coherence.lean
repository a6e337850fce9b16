import DeviceScript.Proofs.Bench.Display
import DeviceScript.Proofs.Bench.Exclusion
/-!
# What a runner shows and what its runs do

Four things change at different moments: which run is active, what the runner shows, where the gates
of the runs stand, and the stage of the run that is going.  Between two turns they fit together when
no listener ever crashes (`Bench.coherent_of_history`).

Most of that was settled where each of them was described.  What the stages have to do with the
snapshot is said by a run on display, and what they have to do with a gate by a run that stands at a
stage.  What is new here is that no gate is left behind (`Bench.KeepsGates`), so that one that waits
is the gate of a run at a pause, and that a reset that is accepted comes to its end
(`Bench.Rests.reset`).  The notices of a reset are told while no run is active, so listeners may
start a run or reset the runner once more in the middle of them.
-/

namespace DeviceScript

open Snapshot

namespace Bench

variable {b b' b₁ : Bench} {run other horizon : Nat} {p : Plan} {s : Stage} {ms : List Move}
  {m : Move} {n : Notice}

/-! ## 1. No gate is left behind -/

/-- No gate was left behind. -/
def KeepsGates (b : Bench) : Prop := ∀ run, b.gate run ≠ .abandoned

theorem KeepsGates.congr (h : b.KeepsGates) (hg : ∀ run, b'.gate run = b.gate run) :
    b'.KeepsGates := by
  intro run
  rw [hg]
  exact h run

theorem KeepsGates.makes (h : b.KeepsGates) (hsole : b.IsSole run)
    (hm : Makes run horizon b m b') : b'.KeepsGates := by
  cases hm with
  | @told _ n ht =>
    intro other
    have hkept := (kept_gate other Gate.Takes.ne_abandoned).tell (n := n) trivial (h other)
    rwa [ht] at hkept
  | foundAny | foundDevice | foundStop | parked => exact h
  | rested hr =>
    obtain ⟨moment, rfl⟩ := eq_clock_of_restEnd? hr
    exact h
  | called _ hr =>
    obtain ⟨moment, rfl⟩ := eq_clock_of_callEnd? hr
    exact h
  | armed | disarmed =>
    intro other
    by_cases hne : run = other
    · subst hne
      rw [gate_setSignals hsole.started]
      exact nofun
    · rw [gate_setSignals_of_ne hne]
      exact h other

/-- By induction on the moves. -/
theorem KeepsGates.makesAll (hms : MakesAll run horizon b ms b') :
    b.KeepsGates → b.IsSole run → b'.KeepsGates := by
  induction hms with
  | nil => exact fun h _ => h
  | cons hm _ ih => exact fun h hsole => ih (h.makes hsole hm) (hsole.goes (hm.goes hsole.isBusy))

/-- A run leaves its gate behind only when a listener breaks it off. -/
theorem Halts.keepsGates {c : Course} {broken : Crash → Bench → Bench}
    (hh : Halts run horizon broken c b b') (h : b.KeepsGates) (hsole : b.IsSole run)
    (hsteady : b.IsSteady) : b'.KeepsGates := by
  cases hh with
  | ended => exact h.congr fun _ => gate_conclude _
  | broken hn => exact absurd hn (hsole.tell_ne_crash hsteady _ _)
  | resting | calling | parked => exact h.congr fun _ => gate_suspend _

/-- **Every turn keeps the gates.** -/
theorem KeepsGates.turn (h : b.KeepsGates) (hord : b.Orderly) (hsteady : b.IsSteady) :
    ∀ t : Turn, (b.turn t).KeepsGates
  | .control c => fun run => (kept_gate run Gate.Takes.ne_abandoned).operate (h run) c
  | .devices _ | .clock _ => h
  | .proceed horizon run => by
    rw [Bench.turn]
    rcases hord.proceed_follows horizon run with he | ⟨s, ms, c, b₁, hs, hw, he⟩
    · rw [he]
      exact h
    · obtain ⟨ms', c', b₂, -, hms, hh⟩ := follow_makes run horizon (abort run horizon) c b₁
      have hsole := (hord.isSole hs).goes hw.goes
      have hg := hms.goes hsole.isBusy
      rw [he]
      exact hh.keepsGates (makesAll hms (h.congr hw.gate_eq) hsole) (hsole.goes hg)
        (hg.steady (hw.goes.steady hsteady))

theorem KeepsGates.after : ∀ {turns : List Turn} {b : Bench}, b.KeepsGates → b.Orderly →
    b.IsSteady → (b.after turns).KeepsGates
  | [], _, h, _, _ => h
  | t :: _, _, h, hord, hsteady =>
    (h.turn hord hsteady t).after (hord.turn t) (hord.isSteady_turn hsteady t)

/-! ## 2. Listeners that never crash -/

/-- This way of telling is broken off by no listener that never crashes. -/
def Spares (tell : Notice → Bench → Bench × Option Crash) : Prop :=
  ∀ n b, b.IsSteady → (tell n b).1.IsSteady ∧ (tell n b).2 = none

section Spares

variable {tell : Notice → Bench → Bench × Option Crash} (ht : Spares tell)
include ht

/-- The same as it is asked for by what is kept. -/
theorem Spares.steady (n : Notice) (b : Bench) (_ : True) (hs : b.IsSteady) :
    (tell n b).1.IsSteady :=
  (ht n b hs).1

theorem Spares.tellAll_cons (hs : b.IsSteady) (n : Notice) (ns : List Notice) :
    Bench.tellAll tell (n :: ns) b = Bench.tellAll tell ns (tell n b).1 := by
  have h := (ht n b hs).2
  rw [Bench.tellAll]
  split
  · rename_i hc
    rw [hc] at h
    cases h
  · rename_i hc
    rw [hc]

theorem Spares.tellAll : ∀ (ns : List Notice) {b : Bench}, b.IsSteady →
    (Bench.tellAll tell ns b).2 = none
  | [], _, _ => rfl
  | n :: ns, b, hs => by
    rw [ht.tellAll_cons hs]
    exact tellAll ns (ht n b hs).1

/-- A reset that is accepted is done. -/
theorem Spares.reset {ns : List Notice} (hs : b.IsSteady) (hr : b.runner.resetNotices? = .ok ns) :
    b.control tell .reset = ((Bench.tellAll tell ns b).1, .ok .done) := by
  have htold := ht.tellAll ns hs
  simp only [control, hr]
  split
  · rename_i hc
    rw [hc] at htold
    cases htold
  · rename_i hc
    rw [hc]

theorem Spares.control (hs : b.IsSteady) (c : Control) (crash : Crash) :
    b.control tell c ≠ (b', .error crash) := by
  intro he
  rcases control_cases b tell c with ⟨b₁, a, hc, -⟩ | ⟨p, r, -, hc⟩ | ⟨rfl, ns, hr, -⟩
  · cases he.symm.trans hc
  · cases he.symm.trans hc
  · cases he.symm.trans (ht.reset hs hr)

theorem Spares.perform (member : Nat) : ∀ {acts : List Act} {b : Bench}, b.IsSteady →
    (∀ c, .crash c ∉ acts) → (Bench.perform tell member acts b).2 = none
  | [], _, _, _ => rfl
  | .crash c :: _, _, _, hacts => absurd List.mem_cons_self (hacts c)
  | .control c :: acts, b, hs, hacts => by
    have hs₁ := kept_isSteady.control ht.steady c b hs
    rw [Bench.perform]
    split
    · rename_i hc
      exact absurd hc (ht.control hs c _)
    · rename_i hc
      rw [hc] at hs₁
      exact perform member (kept_isSteady.note hs₁) fun c' hc' =>
        hacts c' (List.mem_cons_of_mem _ hc')

end Spares

theorem snd_tellFrom {act : Nat → List Act → Bench → Bench × Option Crash} {n : Notice}
    (hact : ∀ m acts (b : Bench), b.IsSteady → (∀ c, .crash c ∉ acts) →
      (act m acts b).1.IsSteady ∧ (act m acts b).2 = none) :
    ∀ (left first : Nat) {b : Bench}, b.IsSteady → (tellFrom act n left first b).2 = none
  | 0, _, _, _ => rfl
  | left + 1, first, b, hs => by
    obtain ⟨hs₁, h₁⟩ := hact first _ _ (kept_isSteady.inform (m := first) (n := n) hs)
      (crash_notMem_inform hs first n)
    rw [tellFrom]
    simp only
    split
    · rename_i hc
      rw [hc] at h₁
      cases h₁
    · rename_i hc
      rw [hc] at hs₁
      exact snd_tellFrom hact left (first + 1) hs₁

/-- **Listeners that never crash break nothing off**, with a run or without.  By induction on how
deep acts may nest. -/
theorem spares_tellWithin : ∀ nesting : Nat, Spares (tellWithin nesting)
  | 0 => fun n b hs => by
    refine ⟨kept_isSteady.keptByActs.tellWithin 0 n b trivial hs, ?_⟩
    exact snd_tellFrom (fun _ _ _ hs _ => ⟨hs, rfl⟩) _ _ ((goes_observe b n).steady hs)
  | nesting + 1 => fun n b hs => by
    have ht := spares_tellWithin nesting
    refine ⟨kept_isSteady.keptByActs.tellWithin (nesting + 1) n b trivial hs, ?_⟩
    refine snd_tellFrom (fun m acts b' hs' hacts => ⟨?_, ht.perform m hs' hacts⟩) _ _
      ((goes_observe b n).steady hs)
    exact kept_isSteady.keptByActs.perform ht.steady m hs'

theorem spares_tell : Spares fun n b => b.tell n :=
  fun n b => spares_tellWithin b.nesting n b

/-! ## 3. Resets -/

/-- The notice is one of a reset. -/
def IsOfReset (n : Notice) : Prop := n = .cursor none ∨ n = .state .idle

theorem isOfReset_of_mem_resetNotices? {r : Runner} {ns : List Notice}
    (h : r.resetNotices? = .ok ns) : ∀ n ∈ ns, IsOfReset n :=
  (Runner.resetNotices?_eq_ok h).2

/-- No control but a reset can write into the log. -/
theorem log_control (b : Bench) (tell : Notice → Bench → Bench × Option Crash) {c : Control}
    (hc : c ≠ .reset) : (b.control tell c).1.runner.log = b.runner.log := by
  cases c with
  | start script mode =>
    rw [control]
    cases hr : b.runner.start? b.registry.hasAny (Plan.course ⟨script, mode, b.timing⟩) with
    | ok r => exact Runner.log_start? hr
    | error e => rfl
  | stop =>
    cases ha : b.runner.active <;> simp only [control, Runner.stopActive, ha] <;> rfl
  | continueRun =>
    cases ha : b.runner.active <;> simp only [control, Runner.continueActive, ha] <;> rfl
  | stopRun | continueThe | setConnected => rfl
  | reset => exact absurd rfl hc

theorem kept_log (l : Log.Buffer) : Kept IsOfReset (·.runner.log = l) where
  observe {n b} hn h := by
    rcases hn with rfl | rfl <;> exact h
  inform {m n b} h := by
    unfold inform
    split <;> exact h
  note h := h
  control {tell} ht c b h := by
    by_cases hc : c = .reset
    · subst hc
      exact keeps_reset ht isOfReset_of_mem_resetNotices? h
    · rw [log_control b tell hc]
      exact h

theorem kept_idle : Kept IsOfReset (·.snapshot = ⟨.idle, none⟩) where
  observe {n b} hn h := by
    rw [snapshot_observe, h]
    rcases hn with rfl | rfl <;> rfl
  inform {m n b} h := by
    unfold inform
    split <;> exact h
  note h := h
  control {tell} ht c b h := by
    rcases control_cases b tell c with ⟨b', a, hc, hcalm⟩ | ⟨p, r, hr, hc⟩ | ⟨-, ns, hr, hc⟩
    · rw [hc]
      exact hcalm.snapshot.trans h
    · obtain ⟨-, -, hproj, -⟩ := Runner.start?_eq_ok hr
      rw [hc]
      exact (congrArg Projector.snapshot hproj).trans h
    · rw [hc]
      exact keeps_tellAll ht (isOfReset_of_mem_resetNotices? hr) h

/-- Once a runner that shows no line has told that it is idle, that is what it shows. -/
theorem snapshot_tell_idle (hc : b.snapshot.cursor = none) :
    (b.tell (.state .idle)).1.snapshot = ⟨.idle, none⟩ := by
  refine kept_idle.keptByActs.tellWithin_of_observe _ _ _ ?_
  rw [snapshot_observe, ← hc]
  rfl

/-- **A reset without an active run is done.**  The runner is idle then and shows no line, whatever
the listeners did in the middle of it, and its log is what it was. -/
theorem Rests.reset (h : b.Rests) (hord : b.Orderly) (hsteady : b.IsSteady) :
    b.answer .reset = .ok .done ∧ (b.turn (.control .reset)).snapshot = ⟨.idle, none⟩ ∧
      (b.turn (.control .reset)).runner.log = b.runner.log := by
  have hr := Runner.resetNotices?_of_free h.free h.snapshot.1
  refine ⟨?_, ?_, (kept_log b.runner.log).operate rfl .reset⟩
  · rw [answer, spares_tell.reset hsteady hr]
  · rw [turn, spares_tell.reset hsteady hr]
    cases hterminal : b.runner.state.isTerminal with
    | true =>
      -- A listener may have started a run by now, but that has made no move.
      have hnext : (b.tell (.cursor none)).1.IsResting :=
        kept_isResting.tell (fun _ h => (Notice.cursor.inj h).symm) (hord.isResting h.free)
      simp only [if_true]
      rw [spares_tell.tellAll_cons hsteady, spares_tell.tellAll_cons (spares_tell _ b hsteady).1]
      exact snapshot_tell_idle hnext.cursor
    | false =>
      obtain ⟨hstate, hcursor⟩ := h.snapshot
      have hidle : b.snapshot.state = .idle :=
        (RunState.eq_idle_or_isTerminal hstate).resolve_right
          (Bool.eq_false_iff.mp hterminal)
      change b.snapshot = ⟨.idle, none⟩
      rw [← hidle, ← hcursor]

/-- A reset is refused while a run is active, and then nothing happens. -/
theorem reset_of_isBusy (h : b.IsBusy) :
    b.answer .reset = .ok (.notReset ⟨b.snapshot.state⟩) ∧ b.turn (.control .reset) = b := by
  have hr : b.runner.resetNotices? = .error ⟨b.runner.state⟩ := by
    unfold Runner.resetNotices?
    rw [h, Bool.true_or, if_pos rfl]
  constructor
  · rw [answer, control, hr]
    rfl
  · rw [turn, control, hr]

/-! ## 4. What fits together -/

/-- **Every run is started with some plan.**  By induction on the turns. -/
theorem exists_starts : ∀ {turns : List Turn} {b₀ : Bench} {x : Progress}, b₀.Orderly →
    b₀.runner.progress? run = none → (b₀.after turns).runner.progress? run = some x →
    ∃ p, b₀.Starts turns run p
  | [], _, _, _, hnone, hx => by cases hnone.symm.trans hx
  | t :: turns, b₀, x, hord, hnone, hx => by
    cases hnext : (b₀.turn t).runner.progress? run with
    | none =>
      obtain ⟨p, earlier, later, he, hp⟩ := exists_starts (hord.turn t) hnext hx
      exact ⟨p, t :: earlier, later, congrArg (t :: ·) he, hp⟩
    | some y =>
      obtain ⟨p, rfl⟩ := unmoved_turn hord hnone t y hnext
      exact ⟨p, [t], turns, rfl, hnext⟩

/-- **What is shown of a run that is suspended**: the line that it is at, and that it is paused
exactly if it is at a pause, which the last line that does something is not followed by. -/
theorem Displays.suspended (h : b.Displays run p s ms) (hs : s.isReady = false) :
    b.snapshot.IsAtLine p (if b.isParked run = true then .paused else .running) ∧
      (b.isParked run = true → p.mode = .singleBlock ∧
        b.snapshot.cursor ≠ p.script.lastExecutable) := by
  unfold isParked
  rw [h.going]
  cases h.on with
  | ready => cases hs
  | resting ht | calling ht _ => exact ⟨(h.exhibits.presents ht).1, nofun⟩
  | parked ht =>
    obtain ⟨⟨hline, hpause⟩, -⟩ := h.exhibits.presents ht
    exact ⟨hline, fun _ => hpause⟩

/-- A gate that lacks its continue is the one of a run at a pause. -/
theorem GatesInOrder.isParked_of_pending (h : b.GatesInOrder) (hkeeps : b.KeepsGates)
    (hp : (b.runner.signals run).isPausePending = true) : b.isParked run = true := by
  have hg : b.gate run = .waiting :=
    (Signals.isPausePending_iff.mp hp).resolve_right (hkeeps run)
  cases hx : b.runner.progress? run with
  | none =>
    rw [gate_of_not_started hx] at hg
    cases hg
  | some x =>
    cases x with
    | going s =>
      obtain ⟨p, ms, granted, hstand⟩ := h.going run s hx
      exact (hstand.gate_eq_waiting_iff.mp hg).1
    | ended o => exact absurd hg (h.ended run o hx)

/-- **What fits together after any history.**  On a bench on which nothing has happened, with
listeners that never crash, anything may happen in any order; it is `b` then.

The active run is the one that has been started and has not ended.  Where the runner shows the state
of a run that goes on, a run is active.  Without an active run it is idle or shows how the last one
ended, and it shows no line.  A run that is suspended, its first move made, is shown at a line that
it does something at.  It is paused exactly if it is at a pause; it is run line by line then, and
the line is not the last one that does something.  Where a pause lacks its continue the state is
paused.

So a reset is done exactly without an active run, and otherwise nothing happens.  When it is done
the runner is idle and shows no line, and the log is what it was. -/
theorem coherent_of_history {b₀ b : Bench} {logCapacity : Nat} {timing : Timing}
    {registry : Registry} {gateway : Gateway} {members : List Member} {nesting : Nat}
    {turns : List Turn} (hb₀ : b₀ = create logCapacity timing registry gateway members nesting)
    (hsteady : b₀.IsSteady) (hb : b = b₀.after turns) :
    (∀ run, b.runner.active = some run ↔ ∃ s, b.runner.progress? run = some (.going s)) ∧
    (b.snapshot.state.isActive = true → b.IsBusy) ∧
    (¬ b.IsBusy → (b.snapshot.state = .idle ∨ b.snapshot.state.isTerminal = true) ∧
      b.snapshot.cursor = none) ∧
    (∀ run s, b.runner.progress? run = some (.going s) → s.isReady = false →
      (∃ p, b₀.Starts turns run p) ∧ ∀ p, b₀.Starts turns run p →
        b.snapshot.IsAtLine p (if b.isParked run = true then .paused else .running) ∧
        (b.isParked run = true → p.mode = .singleBlock ∧
          b.snapshot.cursor ≠ p.script.lastExecutable)) ∧
    (∀ run, (b.runner.signals run).isPausePending = true → b.snapshot.state = .paused) ∧
    (b.answer .reset = .ok .done ↔ ¬ b.IsBusy) ∧
    (b.IsBusy → b.turn (.control .reset) = b) ∧
    (¬ b.IsBusy → (b.turn (.control .reset)).snapshot = ⟨.idle, none⟩ ∧
      (b.turn (.control .reset)).runner.log = b.runner.log) := by
  have hreach₀ : b₀.IsReachable := hb₀ ▸ isReachable_create _ _ _ _ _ _
  have hord₀ := orderly_of_isReachable hreach₀
  have htidy₀ : b₀.Tidy := hb₀ ▸ tidy_create _ _ _ _ _ _
  have hkeeps₀ : b₀.KeepsGates := by
    rw [hb₀]
    exact fun _ => nofun
  have hord : b.Orderly := hb ▸ hord₀.after
  have hsteady' : b.IsSteady := hb ▸ hord₀.isSteady_after hsteady
  have htidy : b.Tidy := hb ▸ htidy₀.after hord₀ hsteady
  have hkeeps : b.KeepsGates := hb ▸ hkeeps₀.after hord₀ hsteady
  have hgates : b.GatesInOrder := gatesInOrder_of_isReachable (hb ▸ hreach₀.after turns)
  have hrests : ¬ b.IsBusy → b.Rests := fun h => htidy.free (Option.not_isSome_iff_eq_none.mp h)
  refine ⟨fun run => ⟨htidy.busy run, ?_⟩,
    fun hactive => ?_, fun hfree => ?_, fun run s hs hready => ⟨?_, fun p hp => ?_⟩,
    fun run hpending => ?_, ⟨fun hdone hbusy => ?_, fun hfree => ?_⟩,
    fun hbusy => (reset_of_isBusy hbusy).2, fun hfree => ?_⟩
  · rintro ⟨s, hs⟩
    exact (hord.going run s hs).1
  · by_contra hfree
    rw [(hrests hfree).snapshot.1] at hactive
    cases hactive
  · obtain ⟨hstate, hcursor⟩ := (hrests hfree).snapshot
    exact ⟨RunState.eq_idle_or_isTerminal hstate, hcursor⟩
  · have hnone : b₀.runner.progress? run = none := by
      rw [hb₀]
      rfl
    rw [hb] at hs
    exact exists_starts hord₀ hnone hs
  · obtain ⟨earlier, later, rfl, hstart⟩ := hp
    rw [hb, after_append] at hs
    obtain ⟨ms, hd⟩ := ((htidy₀.after hord₀ hsteady).displays_ready hstart).after hord₀.after
      (hord₀.isSteady_after hsteady) hs
    rw [← after_append, ← hb] at hd
    exact hd.suspended hready
  · have hparked := hgates.isParked_of_pending hkeeps hpending
    obtain ⟨next, hs⟩ := exists_of_isParked hparked
    obtain ⟨p, ms, hd⟩ := htidy.going run _ hs
    rw [(hd.suspended rfl).1.1, if_pos hparked]
  · rw [(reset_of_isBusy hbusy).1] at hdone
    cases hdone
  · exact ((hrests hfree).reset hord hsteady').1
  · exact ((hrests hfree).reset hord hsteady').2

/-- A run of `twoLinesPlan` comes to its pause. -/
def comingToPause : List Turn :=
  [.control (.start twoLinesPlan.script twoLinesPlan.mode), .proceed 1000 0]

/-- It is stopped there. -/
def stoppedAtPause : List Turn :=
  comingToPause ++ [.control .stop, .proceed 1000 0]

theorem coherent_of_twoLines :
    watched.IsSteady ∧ ((watched.after comingToPause).runner.signals 0).isPausePending = true ∧
      (∃ line i, (watched.after comingToPause).snapshot = ⟨.paused, some line⟩ ∧
        (line, i) ∈ twoLinesPlan.script.executables ∧
        some line ≠ twoLinesPlan.script.lastExecutable) ∧
      (watched.after stoppedAtPause).snapshot = ⟨.stopped, none⟩ ∧
      (watched.after stoppedAtPause).answer .reset = .ok .done ∧
      ((watched.after stoppedAtPause).turn (.control .reset)).snapshot = ⟨.idle, none⟩ := by
  have hparked : (watched.after comingToPause).isParked 0 = true := by decide +kernel
  have hpending : ((watched.after comingToPause).runner.signals 0).isPausePending = true := by
    decide +kernel
  have hshown : (watched.after stoppedAtPause).snapshot = ⟨.stopped, none⟩ := by decide +kernel
  have hfree : ¬ (watched.after stoppedAtPause).IsBusy := by
    unfold IsBusy
    decide +kernel
  obtain ⟨next, hs⟩ := exists_of_isParked hparked
  have hstart : watched.Starts comingToPause 0 twoLinesPlan :=
    ⟨[.control (.start twoLinesPlan.script twoLinesPlan.mode)], [.proceed 1000 0], rfl, rfl⟩
  obtain ⟨-, -, -, hsuspended, hpaused, -⟩ := coherent_of_history (Eq.refl watched)
    isSteady_watched (Eq.refl (watched.after comingToPause))
  obtain ⟨⟨-, line, i, hcursor, hi⟩, hpause⟩ := (hsuspended 0 _ hs rfl).2 twoLinesPlan hstart
  obtain ⟨-, -, -, -, -, hreset, -, hidle⟩ := coherent_of_history (Eq.refl watched)
    isSteady_watched (Eq.refl (watched.after stoppedAtPause))
  refine ⟨isSteady_watched, hpending, ⟨line, i, ?_, hi, ?_⟩, hshown, hreset.mpr hfree,
    (hidle hfree).1⟩
  · rw [← hpaused 0 hpending, ← hcursor]
  · rw [← hcursor]
    exact (hpause hparked).2

end Bench

end DeviceScript
