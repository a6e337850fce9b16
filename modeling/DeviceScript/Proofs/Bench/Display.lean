import DeviceScript.Proofs.Bench.Continues
import DeviceScript.Proofs.Bench.Outcome
import DeviceScript.Proofs.Course.Display
/-!
# What a runner shows

The projector of a runner makes every snapshot known that differs from the one before
(`Bench.published`).  Here it is settled what they look like over any number of runs and resets, when
no listener ever crashes.

A run that goes on is on display (`Bench.Displays`): the projector has heard what its moves told,
and before them it was at rest.  Between two runs the runner is at rest, and a reset keeps it there
whatever listeners do in the middle of it (`Bench.Idles`).  Every turn keeps both (`Bench.Tidy.turn`).
-/

namespace DeviceScript

open Snapshot

/-! ## 1. Snapshots that are made known -/

namespace Projector

/-- **What is made known** while some notices are heard is what they show. -/
theorem published_hearAll (ns : List Notice) : ∀ p : Projector,
    (p.hearAll ns).published = p.published ++ p.snapshot.showings ns := by
  induction ns with
  | nil => exact fun p => (List.append_nil _).symm
  | cons n ns ih =>
    intro p
    refine (ih (p.hear n)).trans ?_
    rw [published_hear, snapshot_hear, showings, List.append_assoc]

/-- The last snapshot that was made known is shown. -/
theorem getLast?_published (p : Projector) : ({} :: p.published).getLast? = some p.snapshot := by
  rw [List.getLast?_cons]
  rfl

/-- **A projector at rest**: what it has made known is in order and has come to rest. -/
def IsAtRest (p : Projector) : Prop := ComesToRest p.published

/-- So it shows nothing of a run. -/
theorem IsAtRest.snapshot {p : Projector} (h : p.IsAtRest) : p.snapshot.IsAtRest :=
  h.2 _ p.getLast?_published

/-- **It stays at rest** when it hears a notice that leaves it there. -/
theorem IsAtRest.hear {p : Projector} {n : Notice} (h : p.IsAtRest)
    (hn : (p.snapshot.hear n).IsAtRest) : (p.hear n).IsAtRest := by
  unfold IsAtRest
  rw [published_hear]
  split
  · rw [List.append_nil]
    exact h
  · exact h.concat hn

end Projector

namespace Bench

/-- The snapshots that the runner has made known. -/
def published (b : Bench) : List Snapshot := b.runner.projector.published

variable {b b' b₁ : Bench} {run other horizon : Nat} {p : Plan} {s : Stage} {ms ms' : List Move}
  {m : Move} {n : Notice} {o : RunOutcome}

theorem snapshot_observe (b : Bench) (n : Notice) : (b.observe n).snapshot = b.snapshot.hear n :=
  (goes_observe b n).snapshot

/-! ## 2. A run on display -/

/-- The moves `ms` of the active run are shown: the projector has heard what they told, and it was at
rest before. -/
def Exhibits (b : Bench) (ms : List Move) : Prop :=
  ∃ before : Projector, before.IsAtRest ∧ b.runner.projector = before.hearAll (noticesOf ms)

theorem Exhibits.congr (h : b.Exhibits ms) (hp : b'.runner.projector = b.runner.projector) :
    b'.Exhibits ms := by
  rw [Exhibits, hp]
  exact h

/-- **Moves of a run stay on display.** -/
theorem Exhibits.goes (h : b.Exhibits ms) (hg : b.Goes ms' b') : b'.Exhibits (ms ++ ms') := by
  obtain ⟨before, hrest, he⟩ := h
  refine ⟨before, hrest, ?_⟩
  rw [hg.projector, he, noticesOf_append, Projector.hearAll_append]

section Course

variable {c : Course} (h : b.Exhibits ms) (ht : p.course.Trace ms c)
include h ht

/-- What is left of the course of a run on display presents itself. -/
theorem Exhibits.presents : c.Presents p b.snapshot := by
  obtain ⟨before, hrest, he⟩ := h
  have hsnap : b.snapshot = before.snapshot.hearAll (noticesOf ms) := by
    rw [snapshot, he, Projector.snapshot_hearAll]
  rw [hsnap]
  exact ht.presents (p.presents_course hrest.snapshot)

/-- What was made known of it is in order. -/
theorem Exhibits.inOrder : InOrder b.published := by
  obtain ⟨before, hrest, he⟩ := h
  rw [published, he, Projector.published_hearAll]
  exact hrest.inOrder_append hrest.snapshot
    (ht.chain_showings (p.presents_course hrest.snapshot))

end Course

/-- A run that has come to its end leaves the runner at rest. -/
theorem Exhibits.atRest {r : Except Refusal RunOutcome} (h : b.Exhibits ms)
    (ht : p.course.Trace ms (.ended r)) : b.runner.projector.IsAtRest := by
  have hend : b.snapshot.IsAtRest := h.presents ht
  obtain ⟨before, hrest, he⟩ := h
  rw [snapshot, he, Projector.snapshot_hearAll] at hend
  rw [he, Projector.IsAtRest, Projector.published_hearAll]
  exact hrest.append hrest.snapshot (ht.chain_showings (p.presents_course hrest.snapshot)) hend

/-- **A run on display**: it stands at a stage, after moves `ms` of its plan, which are shown. -/
structure Displays (b : Bench) (run : Nat) (p : Plan) (s : Stage) (ms : List Move) : Prop where
  going : b.runner.progress? run = some (.going s)
  on : s.On p b.requests.getLast? ms
  exhibits : b.Exhibits ms

/-- The runner rests: no run is active, and what it has made known has come to rest. -/
structure Rests (b : Bench) : Prop where
  free : b.runner.active = none
  projector : b.runner.projector.IsAtRest

theorem Rests.snapshot (h : b.Rests) : b.snapshot.IsAtRest := h.projector.snapshot

/-- **A halt of a run on display** leaves it on display, or the runner at rest. -/
theorem Halts.displays_or_rests {c : Course} (h : Halts run horizon (abort run horizon) c b b')
    (hsole : b.IsSole run) (hsteady : b.IsSteady) (hexhibits : b.Exhibits ms)
    (ht : p.course.Trace ms c) :
    (∃ s, b'.Displays run p s ms) ∨
      (∃ o, b'.runner.progress? run = some (.ended o)) ∧ b'.Rests := by
  cases h with
  | ended r =>
    have hrest : (b.conclude run (Course.outcomeOf r)).runner.projector.IsAtRest := by
      rw [projector_conclude]
      exact hexhibits.atRest ht
    exact .inr ⟨⟨_, hsole.progress?_conclude _⟩, hsole.active_conclude _, hrest⟩
  | broken hn => exact absurd hn (hsole.tell_ne_crash hsteady _ _)
  | resting =>
    exact .inl ⟨_, hsole.progress?_suspend _, .resting ht, hexhibits.congr rfl⟩
  | @calling request _ _ _ _ _ _ =>
    refine .inl ⟨_, (hsole.goes (goes_note b (.sent request))).progress?_suspend _,
      .calling ht ?_, hexhibits.congr rfl⟩
    change (b.note (.sent request)).requests.getLast? = _
    rw [requests_note_sent, List.getLast?_append]
    rfl
  | parked => exact .inl ⟨_, hsole.progress?_suspend _, .parked ht, hexhibits.congr rfl⟩

/-- **A run on display that is followed** is on display at its next stage, or the runner rests. -/
theorem Displays.proceed (h : b.Displays run p s ms) (hsole : b.IsSole run) (hsteady : b.IsSteady)
    (horizon : Nat) :
    (∃ s' ms', (b.proceed horizon run).Displays run p s' ms') ∨
      (∃ o, (b.proceed horizon run).runner.progress? run = some (.ended o)) ∧
        (b.proceed horizon run).Rests := by
  rcases proceed_wakes horizon h.going h.on with ⟨he, -⟩ | ⟨ms₁, c, b₁, hw, ht, he, -⟩
  · rw [he]
    exact .inl ⟨s, ms, h⟩
  · obtain ⟨ms₂, c₂, b₂, ht₂, hms, hh⟩ := follow_makes run horizon (abort run horizon) c b₁
    have hsole₁ := hsole.goes hw.goes
    have hg₂ := hms.goes hsole₁.isBusy
    have hexhibits := (h.exhibits.goes hw.goes).goes hg₂
    rw [he]
    rcases hh.displays_or_rests (hsole₁.goes hg₂) (hg₂.steady (hw.goes.steady hsteady)) hexhibits
      (ht.append ht₂) with ⟨s', h'⟩ | hrests
    · exact .inl ⟨s', _, h'⟩
    · exact .inr hrests

/-- What an operator does leaves a run on display where it is. -/
theorem Displays.control (h : b.Displays run p s ms) (hsole : b.IsSole run) (c : Control) :
    (b.turn (.control c)).Displays run p s ms := by
  obtain ⟨b', a, hc, hcalm⟩ := calm_control hsole.isBusy (fun n b => b.tell n) c
  have hturn : b.turn (.control c) = b' := congrArg Prod.fst hc
  rw [hturn]
  refine ⟨(hcalm.progress run).trans h.going, ?_, h.exhibits.congr hcalm.projector⟩
  rw [hcalm.requests]
  exact h.on

/-- **A turn leaves a run on display, or is its end.** -/
theorem Displays.turn (h : b.Displays run p s ms) (hord : b.Orderly) (hsteady : b.IsSteady) :
    ∀ t : Turn, (∃ s' ms', (b.turn t).Displays run p s' ms') ∨
      (∃ o, (b.turn t).runner.progress? run = some (.ended o)) ∧ (b.turn t).Rests
  | .control c => .inl ⟨s, ms, h.control (hord.isSole h.going) c⟩
  | .devices _ | .clock _ => .inl ⟨s, ms, h.going, h.on, h.exhibits.congr rfl⟩
  | .proceed horizon other => by
    have hsole := hord.isSole h.going
    by_cases hne : other = run
    · subst hne
      exact h.proceed hsole hsteady horizon
    · rw [Bench.turn, proceed_of_not_going fun s' hs' => hne (hsole.sole other s' hs')]
      exact .inl ⟨s, ms, h⟩

/-- **A run that is still going is on display.**  By induction on the turns. -/
theorem Displays.after {s' : Stage} : ∀ {turns : List Turn} {b : Bench} {s : Stage}
    {ms : List Move}, b.Displays run p s ms → b.Orderly → b.IsSteady →
    (b.after turns).runner.progress? run = some (.going s') →
    ∃ ms', (b.after turns).Displays run p s' ms'
  | [], b, s, ms, h, _, _, hs' => by
    obtain rfl : s = s' := by
      cases h.going.symm.trans hs'
      rfl
    exact ⟨ms, h⟩
  | t :: turns, b, s, ms, h, hord, hsteady, hs' => by
    rcases h.turn hord hsteady t with ⟨s₁, ms₁, h₁⟩ | ⟨⟨o, ho⟩, -⟩
    · exact h₁.after (hord.turn t) (hord.isSteady_turn hsteady t) hs'
    · have hend : ((b.turn t).after turns).runner.progress? run = some (.ended o) :=
        (hord.turn t).ended_after ho
      cases hend.symm.trans hs'

/-! ## 3. Between two runs -/

/-- What a runner at rest shows when it hears the notice is at rest again. -/
def KeepsRest (n : Notice) : Prop :=
  ∀ s : Snapshot, s.IsAtRest → (s.hear n).IsAtRest

theorem keepsRest_of_mem_resetNotices? {r : Runner} {ns : List Notice}
    (h : r.resetNotices? = .ok ns) : ∀ n ∈ ns, KeepsRest n := by
  intro n hn s hs
  rcases (Runner.resetNotices?_eq_ok h).2 n hn with rfl | rfl
  · exact ⟨hs.1, rfl⟩
  · exact ⟨rfl, hs.2⟩

/-- **The runner idles**: no run has made a move since its start, and the projector is at rest. -/
structure Idles (b : Bench) : Prop where
  ready : ∀ run s, b.runner.progress? run = some (.going s) →
    b.runner.active = some run ∧ ∃ p : Plan, s = .ready p.course
  busy : ∀ run, b.runner.active = some run → ∃ s, b.runner.progress? run = some (.going s)
  projector : b.runner.projector.IsAtRest

theorem Idles.snapshot (h : b.Idles) : b.snapshot.IsAtRest := h.projector.snapshot

/-- A runner that rests idles. -/
theorem Rests.idles (h : b.Rests) (hord : b.Orderly) : b.Idles where
  ready run s hs := by
    have ha := (hord.going run s hs).1
    rw [h.free] at ha
    cases ha
  busy run ha := by
    rw [h.free] at ha
    cases ha
  projector := h.projector

theorem Idles.congr (h : b.Idles) (ha : b'.runner.active = b.runner.active)
    (hp : ∀ run, b'.runner.progress? run = b.runner.progress? run)
    (hrest : b'.runner.projector.IsAtRest) : b'.Idles where
  ready run s hs' := by
    rw [ha]
    exact h.ready run s ((hp run).symm.trans hs')
  busy run ha' := by
    obtain ⟨s, hs'⟩ := h.busy run (ha.symm.trans ha')
    exact ⟨s, (hp run).trans hs'⟩
  projector := hrest

/-- A run that is started makes no move yet. -/
theorem Idles.start (h : b.Idles) {p : Plan} {r : Runner}
    (hr : b.runner.start? b.registry.hasAny p.course = .ok r) : (b.withRunner r).Idles := by
  obtain ⟨ha, ha', hproj, hprog⟩ := Runner.start?_eq_ok hr
  refine ⟨fun run s hs => ?_, fun run hrun => ?_, ?_⟩
  · have hs' : r.progress? run = some (.going s) := hs
    rw [hprog] at hs'
    split at hs'
    · rename_i hlast
      cases hs'
      exact ⟨hlast ▸ ha', p, rfl⟩
    · have hactive := (h.ready run s hs').1
      rw [ha] at hactive
      cases hactive
  · obtain rfl : b.runner.runs.length = run := Option.some.inj (ha'.symm.trans hrun)
    exact ⟨_, (hprog _).trans (if_pos rfl)⟩
  · change r.projector.IsAtRest
    rw [hproj]
    exact h.projector

theorem Idles.control {tell : Notice → Bench → Bench × Option Crash}
    (ht : ∀ n b, KeepsRest n → b.Idles → (tell n b).1.Idles) (h : b.Idles) (c : Control) :
    (b.control tell c).1.Idles := by
  rcases control_cases b tell c with ⟨b', a, hc, hcalm⟩ | ⟨p, r, hr, hc⟩ | ⟨-, ns, hr, hc⟩
  · rw [hc]
    refine h.congr hcalm.active hcalm.progress ?_
    rw [hcalm.projector]
    exact h.projector
  · rw [hc]
    exact h.start hr
  · rw [hc]
    exact keeps_tellAll ht (keepsRest_of_mem_resetNotices? hr) h

/-- **A reset keeps the runner idle**, whatever the listeners do in the middle of it. -/
theorem keptByActs_idles : KeptByActs KeepsRest Idles where
  observe {n b} hn h := by
    have hg := goes_observe b n
    refine h.congr hg.active hg.progress ?_
    rw [hg.projector]
    exact h.projector.hear (hn _ h.snapshot)
  inform {m n b} h := by
    unfold Bench.inform
    split
    · exact h
    · exact h.congr rfl (fun _ => rfl) h.projector
  crashed h := h.congr rfl (fun _ => rfl) h.projector
  refused {tell} ht {c crash b b'} hc h := by
    have h' := h.control ht c
    rwa [hc] at h'
  acted {tell} ht {m c a b b'} hc h := by
    have h' := h.control ht c
    rw [hc] at h'
    exact h'.congr rfl (fun _ => rfl) h'.projector

/-! ## 4. All histories -/

/-- **A bench whose runner shows what it should**: the active run is on display, and without one the
runner rests. -/
structure Tidy (b : Bench) : Prop where
  going : ∀ run s, b.runner.progress? run = some (.going s) → ∃ p ms, b.Displays run p s ms
  busy : ∀ run, b.runner.active = some run → ∃ s, b.runner.progress? run = some (.going s)
  free : b.runner.active = none → b.Rests

/-- A run that has made no move is on display when the runner idles. -/
theorem Idles.displays (h : b.Idles)
    (hs : b.runner.progress? run = some (.going (.ready p.course))) :
    b.Displays run p (.ready p.course) [] where
  going := hs
  on := .ready
  exhibits := ⟨b.runner.projector, h.projector, rfl⟩

theorem Idles.tidy (h : b.Idles) : b.Tidy where
  going run s hs := by
    obtain ⟨-, p, rfl⟩ := h.ready run s hs
    exact ⟨p, [], h.displays hs⟩
  busy := h.busy
  free ha := ⟨ha, h.projector⟩

/-- A run that has made no move is on display, whatever plan its course is one of. -/
theorem Tidy.displays_ready (h : b.Tidy)
    (hs : b.runner.progress? run = some (.going (.ready p.course))) :
    b.Displays run p (.ready p.course) [] := by
  obtain ⟨q, ms, hd⟩ := h.going run _ hs
  rcases hd.on.isReady_iff with ⟨rfl, -⟩ | ⟨hr, -⟩
  · exact ⟨hs, .ready, hd.exhibits⟩
  · cases hr

/-- **Every turn keeps the runner showing what it should.** -/
theorem Tidy.turn (h : b.Tidy) (hord : b.Orderly) (hsteady : b.IsSteady) (t : Turn) :
    (b.turn t).Tidy := by
  cases ha : b.runner.active with
  | some run =>
    obtain ⟨s, hs⟩ := h.busy run ha
    obtain ⟨p, ms, hd⟩ := h.going run s hs
    have hord' := hord.turn t
    rcases hd.turn hord hsteady t with ⟨s', ms', hd'⟩ | ⟨⟨o, ho⟩, hrests⟩
    · have hsole := hord'.isSole hd'.going
      refine ⟨fun other x hx => ?_, fun other hother => ?_, fun hnone => ?_⟩
      · obtain rfl : other = run := hsole.sole other x hx
        cases hd'.going.symm.trans hx
        exact ⟨p, ms', hd'⟩
      · obtain rfl : run = other := Option.some.inj (hsole.active.symm.trans hother)
        exact ⟨s', hd'.going⟩
      · cases hsole.active.symm.trans hnone
    · exact (hrests.idles hord').tidy
  | none =>
    have hidles := (h.free ha).idles hord
    have hnone : ∀ run s, b.runner.progress? run ≠ some (.going s) := by
      intro run s hs
      cases ha.symm.trans (hord.going run s hs).1
    cases t with
    | control c =>
      have htell : ∀ n (b : Bench), KeepsRest n → b.Idles → (b.tell n).1.Idles :=
        fun n b => keptByActs_idles.tellWithin b.nesting n b
      exact (hidles.control htell c).tidy
    | devices | clock => exact Idles.tidy ⟨hidles.ready, hidles.busy, hidles.projector⟩
    | proceed horizon run =>
      rw [Bench.turn, proceed_of_not_going (hnone run)]
      exact h

theorem Tidy.after : ∀ {turns : List Turn} {b : Bench}, b.Tidy → b.Orderly → b.IsSteady →
    (b.after turns).Tidy
  | [], _, h, _, _ => h
  | t :: _, _, h, hord, hsteady =>
    (h.turn hord hsteady t).after (hord.turn t) (hord.isSteady_turn hsteady t)

theorem tidy_create (logCapacity : Nat) (timing : Timing) (registry : Registry)
    (gateway : Gateway) (members : List Member) (nesting : Nat) :
    (create logCapacity timing registry gateway members nesting).Tidy where
  going _ _ hs := by cases hs
  busy _ ha := by cases ha
  free _ := ⟨rfl, comesToRest_nil⟩

/-! ## 5. The law of the snapshots -/

/-- Between two turns nothing stale is shown. -/
theorem Displays.not_isStale (h : b.Displays run p s ms) : ¬ b.snapshot.IsStale := by
  cases h.on with
  | ready =>
    obtain ⟨before, hrest, he⟩ := h.exhibits
    rw [snapshot, he]
    exact hrest.snapshot.not_isStale
  | resting ht | calling ht _ =>
    refine not_isStale_of_isActive ?_
    rw [(h.exhibits.presents ht).1.1]
    rfl
  | parked ht =>
    refine not_isStale_of_isActive ?_
    rw [(h.exhibits.presents ht).1.1.1]
    rfl

/-- **What is made known over any history.**  On a bench on which nothing has happened, with
listeners that never crash, anything may happen in any order; it is `b` then.

The snapshots that the runner has made known are in order, each after the one before it: one with a
line in a state in which no run goes on is made known exactly when a run ends that is at a line, and
then the next one has no line.  Between two turns the runner never shows such a snapshot, nor is one
the last that was made known. -/
theorem published_of_history {b₀ b : Bench} {logCapacity : Nat} {timing : Timing}
    {registry : Registry} {gateway : Gateway} {members : List Member} {nesting : Nat}
    {turns : List Turn} (hb₀ : b₀ = create logCapacity timing registry gateway members nesting)
    (hsteady : b₀.IsSteady) (hb : b = b₀.after turns) :
    InOrder b.published ∧ ¬ b.snapshot.IsStale ∧
      ∀ x, b.published.getLast? = some x → ¬ x.IsStale := by
  have hord₀ : b₀.Orderly := hb₀ ▸ orderly_create _ _ _ _ _ _
  have htidy₀ : b₀.Tidy := hb₀ ▸ tidy_create _ _ _ _ _ _
  have htidy : b.Tidy := hb ▸ htidy₀.after hord₀ hsteady
  have hlast : ∀ x, b.published.getLast? = some x → b.snapshot = x := by
    intro x hx
    have hshown := b.runner.projector.getLast?_published
    rw [List.getLast?_cons] at hshown
    exact (Option.some.inj hshown).symm.trans (congrArg (·.getD {}) hx)
  suffices h : InOrder b.published ∧ ¬ b.snapshot.IsStale from
    ⟨h.1, h.2, fun x hx => hlast x hx ▸ h.2⟩
  cases ha : b.runner.active with
  | none =>
    have hrests := htidy.free ha
    exact ⟨hrests.projector.1, hrests.snapshot.not_isStale⟩
  | some run =>
    obtain ⟨s, hs⟩ := htidy.busy run ha
    obtain ⟨p, ms, hd⟩ := htidy.going run s hs
    obtain ⟨c, ht⟩ := hd.on.exists_trace
    exact ⟨hd.exhibits.inOrder ht, hd.not_isStale⟩

/-- A run of one line that has come to its end before a listener that does nothing. -/
def waited : List Turn :=
  [.control (.start ⟨none, ["wait 0"]⟩ .continuous), .proceed 1000 0]

theorem isSteady_watched : watched.IsSteady := by
  intro m hm
  rw [List.mem_singleton.mp hm]
  exact fun _ _ _ => List.not_mem_nil

theorem published_of_waited :
    watched.IsSteady ∧
      (watched.after waited).published =
        [⟨.running, none⟩, ⟨.running, some 0⟩, ⟨.completed, some 0⟩, ⟨.completed, none⟩] ∧
      InOrder (watched.after waited).published := by
  have hpub : (watched.after waited).published =
      [⟨.running, none⟩, ⟨.running, some 0⟩, ⟨.completed, some 0⟩, ⟨.completed, none⟩] := by
    decide +kernel
  obtain ⟨horder, -⟩ := published_of_history (Eq.refl watched) isSteady_watched
    (Eq.refl (watched.after waited))
  exact ⟨isSteady_watched, hpub, horder⟩

/-- **A line in a state in which no run goes on.**  A run that has come to its end is shown to be
completed while it is still shown to be at its line. -/
theorem exists_stale_published :
    ∃ b : Bench, b.IsReachable ∧ b.IsSteady ∧ ⟨.completed, some 0⟩ ∈ b.published := by
  have hord : watched.Orderly := orderly_create _ _ _ _ _ _
  have hreach : watched.IsReachable := isReachable_create _ _ _ _ _ _
  refine ⟨watched.after waited, hreach.after waited, hord.isSteady_after isSteady_watched, ?_⟩
  decide +kernel

end Bench

end DeviceScript
