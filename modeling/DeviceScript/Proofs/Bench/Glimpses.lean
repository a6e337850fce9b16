import DeviceScript.Proofs.Bench.Coherence
import DeviceScript.Proofs.Log.Buffer
/-!
# What members find when they are told something

The runner hears a notice before its audience does.  So a member that looks at the runner while it
is told something finds what the notice says: the line, the state, or the event as the newest one of
the log.  This holds for every line of the journal after every history (`Bench.isFaithful_after`),
although listeners act before those behind them are told.

There are two reasons for it.  While a run is active no act of a listener changes what the runner
shows (`Bench.IsHeld`).  Without an active run only a reset is told, and all that listeners can do
meanwhile is to reset the runner once more or to start a run; neither brings a line back, nor another
state once the state is idle (`Bench.IsStill`).
-/

namespace DeviceScript

/-- What the runner shows says what the notice says, which was made known at this moment.  That a
run starts is not shown. -/
def Glimpse.Says (g : Glimpse) (moment : Nat) : Notice → Prop
  | .started _ => True
  | .cursor line => g.snapshot.cursor = line
  | .state s => g.snapshot.state = s
  | .log e => g.newest = some (e.stamped (.ofMillis moment))

/-- Who is told something according to this line of the journal is shown it. -/
def IsUpToDate : Nat × Happening → Prop
  | (moment, .told _ n shown) => shown.Says moment n
  | _ => True

namespace Bench

/-- Whoever was told something was shown it. -/
def IsFaithful (b : Bench) : Prop := ∀ e ∈ b.journal, IsUpToDate e

variable {b b' : Bench} {n : Notice} {h : Happening} {run horizon : Nat} {c : Course} {m : Move}
  {ms : List Move}

/-! ## 1. One line of the journal -/

/-- The runner shows what it hears. -/
theorem says_observe (b : Bench) (n : Notice) : (b.observe n).runner.glimpse.Says b.now n := by
  cases n with
  | started name => trivial
  | cursor line => exact congrArg Snapshot.cursor (snapshot_observe b (.cursor line))
  | state s => exact congrArg Snapshot.state (snapshot_observe b (.state s))
  | log e => exact Log.Buffer.getLast?_push _ _

theorem IsFaithful.note (hb : b.IsFaithful) (hh : IsUpToDate (b.now, h)) :
    (b.note h).IsFaithful := by
  intro e he
  rcases List.mem_append.mp he with he | he
  · exact hb e he
  · rw [List.mem_singleton.mp he]
    exact hh

/-- A member may be told what the runner shows. -/
theorem IsFaithful.inform (hb : b.IsFaithful) (hn : b.runner.glimpse.Says b.now n) (member : Nat) :
    (b.inform member n).1.IsFaithful := by
  unfold Bench.inform
  split
  · exact hb
  · exact note hb hn

theorem inform_eq (b : Bench) (member : Nat) (n : Notice) :
    (b.inform member n).1.now = b.now ∧ (b.inform member n).1.runner = b.runner := by
  unfold inform
  split <;> exact ⟨rfl, rfl⟩

/-! ## 2. With an active run -/

/-- A run is active, the clock shows this and the runner that, and the journal is faithful. -/
structure IsHeld (moment : Nat) (shown : Glimpse) (b : Bench) : Prop where
  busy : b.IsBusy
  now : b.now = moment
  glimpse : b.runner.glimpse = shown
  faithful : b.IsFaithful

section Held

variable {moment : Nat} {shown : Glimpse}

/-- No control writes into the log while a run is active. -/
theorem log_control_of_isBusy (hb : b.IsBusy) (tell : Notice → Bench → Bench × Option Crash)
    (c : Control) : (b.control tell c).1.runner.log = b.runner.log := by
  by_cases hc : c = .reset
  · subst hc
    rw [control]
    cases hr : b.runner.resetNotices? with
    | error e => rfl
    | ok ns =>
      have hnone := (Runner.resetNotices?_eq_ok hr).1
      rw [IsBusy, hnone] at hb
      cases hb
  · exact log_control b tell hc

theorem IsHeld.control (hb : b.IsHeld moment shown)
    (tell : Notice → Bench → Bench × Option Crash) (c : Control) :
    (b.control tell c).1.IsHeld moment shown := by
  have hlog := log_control_of_isBusy hb.busy tell c
  obtain ⟨b', a, hc, hcalm⟩ := calm_control hb.busy tell c
  rw [hc] at hlog ⊢
  refine ⟨hcalm.isBusy hb.busy, hcalm.now.trans hb.now, ?_, ?_⟩
  · rw [← hb.glimpse, Runner.glimpse, Runner.glimpse, hlog]
    exact congrArg (Glimpse.mk · _) hcalm.snapshot
  · intro e he
    rw [hcalm.journal, List.append_nil] at he
    exact hb.faithful e he

theorem IsHeld.note (hb : b.IsHeld moment shown) (hh : IsUpToDate (b.now, h)) :
    (b.note h).IsHeld moment shown :=
  ⟨hb.busy, hb.now, hb.glimpse, hb.faithful.note hh⟩

/-- **Listeners cannot change what an active run shows.** -/
theorem IsHeld.perform {tell : Notice → Bench → Bench × Option Crash}
    (hb : b.IsHeld moment shown) (member : Nat) (acts : List Act) :
    (Bench.perform tell member acts b).1.IsHeld moment shown := by
  refine keeps_perform (fun _ _ h => h.note trivial) (fun {c _ b _} hc h => ?_)
    (fun {c _ b _} hc h => ?_) hb
  · have h₁ := h.control tell c
    rwa [hc] at h₁
  · have h₁ := h.control tell c
    rw [hc] at h₁
    exact h₁.note trivial

theorem IsHeld.inform (hb : b.IsHeld moment shown) (hn : shown.Says moment n) (member : Nat) :
    (b.inform member n).1.IsHeld moment shown := by
  obtain ⟨hnow, hrunner⟩ := inform_eq b member n
  have hsays : b.runner.glimpse.Says b.now n := by
    rw [hb.glimpse, hb.now]
    exact hn
  refine ⟨?_, hnow.trans hb.now, ?_, hb.faithful.inform hsays member⟩
  · rw [IsBusy, hrunner]
    exact hb.busy
  · rw [hrunner]
    exact hb.glimpse

end Held

/-- **A notice of an active run** is told to members that are shown it. -/
theorem IsFaithful.tell (hb : b.IsFaithful) (hbusy : b.IsBusy) (n : Notice) :
    (b.tell n).1.IsFaithful := by
  have hsays := says_observe b n
  have hheld : (b.observe n).IsHeld b.now (b.observe n).runner.glimpse := by
    refine ⟨?_, rfl, rfl, hb⟩
    rw [IsBusy, (observe_eq b n).1]
    exact hbusy
  have hinform : ∀ m (b' : Bench), b'.IsHeld b.now (b.observe n).runner.glimpse →
      (b'.inform m n).1.IsHeld b.now (b.observe n).runner.glimpse :=
    fun m b' h => h.inform hsays m
  unfold Bench.tell
  cases b.nesting with
  | zero => exact (keeps_tellFrom hinform (fun _ _ _ h => h) hheld).faithful
  | succ k => exact (keeps_tellFrom hinform (fun m acts _ h => h.perform m acts) hheld).faithful

/-! ## 3. Without an active run -/

/-- The runner shows no line, and no state but idle if so it is asked, and the journal is
faithful. -/
structure IsStill (idle : Prop) (b : Bench) : Prop where
  cursor : b.snapshot.cursor = none
  state : idle → b.snapshot.state = .idle
  faithful : b.IsFaithful

section Still

variable {idle : Prop} {tell : Notice → Bench → Bench × Option Crash}

theorem IsStill.note (hb : b.IsStill idle) (hh : IsUpToDate (b.now, h)) : (b.note h).IsStill idle :=
  ⟨hb.cursor, hb.state, hb.faithful.note hh⟩

theorem IsStill.inform (hb : b.IsStill idle) (hn : b.runner.glimpse.Says b.now n) (member : Nat) :
    (b.inform member n).1.IsStill idle := by
  obtain ⟨-, hrunner⟩ := inform_eq b member n
  have hsnapshot : (b.inform member n).1.snapshot = b.snapshot := by
    rw [snapshot, hrunner]
    rfl
  refine ⟨?_, ?_, hb.faithful.inform hn member⟩ <;> rw [hsnapshot]
  · exact hb.cursor
  · exact hb.state

theorem IsStill.of_eq (hb : b.IsStill idle) (hs : b'.snapshot = b.snapshot)
    (hj : b'.journal = b.journal) : b'.IsStill idle := by
  refine ⟨hs ▸ hb.cursor, hs ▸ hb.state, fun e he => ?_⟩
  rw [hj] at he
  exact hb.faithful e he

/-- A control leaves the bench still if the notices of a reset do. -/
theorem IsStill.control (ht : ∀ n b, IsOfReset n → IsStill idle b → IsStill idle (tell n b).1)
    (c : Control) (hb : b.IsStill idle) : (b.control tell c).1.IsStill idle := by
  rcases control_cases b tell c with ⟨b', a, hc, hcalm⟩ | ⟨p, r, hr, hc⟩ | ⟨-, ns, hr, hc⟩
  · rw [hc]
    exact hb.of_eq hcalm.snapshot (hcalm.journal.trans (List.append_nil _))
  · obtain ⟨-, -, hprojector, -⟩ := Runner.start?_eq_ok hr
    rw [hc]
    exact hb.of_eq (congrArg Projector.snapshot hprojector) rfl
  · rw [hc]
    exact keeps_tellAll ht (isOfReset_of_mem_resetNotices? hr) hb

theorem IsStill.perform (ht : ∀ n b, IsOfReset n → IsStill idle b → IsStill idle (tell n b).1)
    (member : Nat) (acts : List Act) (hb : b.IsStill idle) :
    (Bench.perform tell member acts b).1.IsStill idle := by
  refine keeps_perform (fun _ _ h => h.note trivial) (fun {c _ b _} hc h => ?_)
    (fun {c _ b _} hc h => ?_) hb
  · have h₁ := IsStill.control ht c h
    rwa [hc] at h₁
  · have h₁ := IsStill.control ht c h
    rw [hc] at h₁
    exact h₁.note trivial

/-- **A notice of a reset** is told to members that are shown it, and after it the bench is as still
as it was.  What the listeners' acts keep is as much as the runner shows when the notice is told:
from when that it is idle is told, it stays idle. -/
theorem IsStill.tellFrom {act : Nat → List Act → Bench → Bench × Option Crash}
    (hact : ∀ (idle : Prop) m acts b, IsStill idle b → IsStill idle (act m acts b).1)
    (hn : IsOfReset n) (hb : b.IsStill idle) (left first : Nat) :
    (Bench.tellFrom act n left first (b.observe n)).1.IsStill idle := by
  rcases hn with rfl | rfl
  · have h₁ : (b.observe (.cursor none)).IsStill idle := by
      refine ⟨says_observe b (.cursor none), ?_, hb.faithful⟩
      rw [snapshot_observe]
      exact hb.state
    refine keeps_tellFrom (fun m b' h => h.inform ?_ m) (hact idle) h₁
    exact h.cursor
  · have h₁ : (b.observe (.state .idle)).IsStill True := by
      refine ⟨?_, fun _ => says_observe b (.state .idle), hb.faithful⟩
      rw [snapshot_observe]
      exact hb.cursor
    have h₂ : (Bench.tellFrom act (.state .idle) left first (b.observe (.state .idle))).1.IsStill
        True := by
      refine keeps_tellFrom (fun m b' h => h.inform ?_ m) (hact True) h₁
      exact h.state trivial
    exact ⟨h₂.cursor, fun _ => h₂.state trivial, h₂.faithful⟩

/-- By induction on how deep acts may nest. -/
theorem IsStill.tellWithin : ∀ (nesting : Nat) {idle : Prop} (n : Notice) (b : Bench),
    IsOfReset n → IsStill idle b → IsStill idle (Bench.tellWithin nesting n b).1
  | 0, _, _, _, hn, hb => hb.tellFrom (fun _ _ _ _ h => h) hn _ _
  | nesting + 1, _, _, _, hn, hb =>
    hb.tellFrom (fun _ m acts _ h => h.perform (IsStill.tellWithin nesting) m acts) hn _ _

end Still

/-! ## 4. A run that is followed -/

theorem isBusy_tell (hbusy : b.IsBusy) (n : Notice) : (b.tell n).1.IsBusy := by
  obtain ⟨js, ht⟩ := tells hbusy n
  rw [IsBusy, ht.calm.active, (observe_eq b n).1]
  exact hbusy

theorem IsFaithful.makes (hb : b.IsFaithful) (hbusy : b.IsBusy) (hm : Makes run horizon b m b') :
    b'.IsFaithful := by
  cases hm with
  | @told _ n ht =>
    have h := hb.tell hbusy n
    rwa [ht] at h
  | foundAny | foundDevice | foundStop | armed | parked | disarmed => exact hb
  | rested hr =>
    obtain ⟨moment, rfl⟩ := eq_clock_of_restEnd? hr
    exact hb
  | called _ hr =>
    obtain ⟨moment, rfl⟩ := eq_clock_of_callEnd? hr
    exact hb.note trivial

/-- By induction on the moves. -/
theorem IsFaithful.makesAll (hms : MakesAll run horizon b ms b') :
    b.IsFaithful → b.IsBusy → b'.IsFaithful := by
  induction hms with
  | nil => exact fun hb _ => hb
  | cons hm _ ih => exact fun hb hbusy => ih (hb.makes hbusy hm) ((hm.goes hbusy).isBusy hbusy)

/-- Following a run is faithful if what is done about a crash is. -/
theorem IsFaithful.follow {broken : Crash → Bench → Bench}
    (hbroken : ∀ c b, b.IsFaithful → b.IsBusy → (broken c b).IsFaithful) (c : Course)
    (hb : b.IsFaithful) (hbusy : b.IsBusy) : (Bench.follow run horizon broken c b).IsFaithful := by
  obtain ⟨ms, c₁, b₁, -, hms, hh⟩ := follow_makes run horizon broken c b
  have hb₁ := makesAll hms hb hbusy
  have hbusy₁ := (hms.goes hbusy).isBusy hbusy
  generalize Bench.follow run horizon broken c b = b' at hh ⊢
  cases hh with
  | ended | resting | parked => exact hb₁
  | calling => exact hb₁.note trivial
  | @broken n _ _ b₂ crash ht =>
    have h₂ := hb₁.tell hbusy₁ n
    have hbusy₂ := isBusy_tell hbusy₁ n
    rw [ht] at h₂ hbusy₂
    exact hbroken crash b₂ h₂ hbusy₂

theorem IsFaithful.abort (crash : Crash) (b : Bench) (hb : b.IsFaithful) (hbusy : b.IsBusy) :
    (Bench.abort run horizon crash b).IsFaithful := by
  have hlose : ∀ c (b' : Bench), b'.IsFaithful → b'.IsBusy → (b'.lose run c).IsFaithful :=
    fun _ _ h _ => h
  have hb₀ : (b.setSignals run (b.runner.signals run).abandon).IsFaithful := hb
  exact hb₀.follow hlose crash.abortReport hbusy

theorem IsFaithful.proceed (hb : b.IsFaithful) (hord : b.Orderly) (horizon run : Nat) :
    (b.proceed horizon run).IsFaithful := by
  rcases hord.proceed_follows horizon run with he | ⟨s, ms, c, b₁, hs, hw, he⟩
  · rw [he]
    exact hb
  · have hbusy := hw.goes.isBusy (hord.isSole hs).isBusy
    have hb₁ : b₁.IsFaithful := by
      intro e he
      rw [hw.records.journal, List.append_nil] at he
      exact hb e he
    rw [he]
    exact hb₁.follow IsFaithful.abort c hbusy

/-! ## 5. All histories -/

theorem IsFaithful.turn (hb : b.IsFaithful) (hord : b.Orderly) : ∀ t : Turn, (b.turn t).IsFaithful
  | .control c => by
    cases ha : b.runner.active with
    | none =>
      have hstill : b.IsStill False := ⟨hord.free ha, False.elim, hb⟩
      exact (hstill.control (fun n b => IsStill.tellWithin b.nesting n b) c).faithful
    | some run =>
      have hheld : b.IsHeld b.now b.runner.glimpse := ⟨isBusy_of_active ha, rfl, rfl, hb⟩
      exact (hheld.control _ c).faithful
  | .devices _ | .clock _ => hb
  | .proceed horizon run => hb.proceed hord horizon run

/-- **Whoever is told something is shown it**, in the course of whatever happens. -/
theorem isFaithful_after : ∀ (turns : List Turn) {b : Bench}, b.IsFaithful → b.Orderly →
    (b.after turns).IsFaithful
  | [], _, hb, _ => hb
  | t :: turns, _, hb, hord => isFaithful_after turns (hb.turn hord t) (hord.turn t)

end Bench

end DeviceScript
