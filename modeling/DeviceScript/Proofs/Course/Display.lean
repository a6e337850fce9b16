import DeviceScript.Proofs.Course.States
/-!
# What a run shows

A runner shows a state and a line, and every notice of a run that alters the one or the other makes a
new snapshot known.  `Course.Presents` says of what is left of a course that all of these are in order,
and it also says what is shown wherever the run can be suspended: at a rest or a call that the run
is running, at a pause that it is paused, and in both cases a line that the run does something at.
In the end the run shows no line, and no state in which a run goes on.

There is one thing that a reader of the snapshots has to know (`Snapshot.Precedes`).  A run that
ends tells its last state first and leaves its line afterwards.  In between, and only there, a state
in which no run goes on is shown together with a line.

Every course of a plan presents itself in this way (`Plan.presents_course`), whatever it is
answered.  The proofs follow the definitions of a course, one lemma for each.
-/

namespace DeviceScript

/-! ## 1. Snapshots -/

/-- Whether a notice is about what is shown. -/
def Notice.isShown : Notice → Bool
  | state _ | cursor _ => true
  | started _ | log _ => false

theorem RunState.isTerminal_of_isActive {s : RunState} (h : s.isActive = true) :
    s.isTerminal = false := by
  cases s <;> first | rfl | cases h

theorem RunState.isActive_of_isTerminal {s : RunState} (h : s.isTerminal = true) :
    s.isActive = false := by
  cases s <;> first | rfl | cases h

theorem RunState.eq_idle_or_isTerminal {s : RunState} (h : s.isActive = false) :
    s = .idle ∨ s.isTerminal = true := by
  cases s <;> first | exact .inl rfl | exact .inr rfl | cases h

namespace Snapshot

variable {s s' : Snapshot} {state : RunState} {cursor : Option Nat}

/-- No run goes on, and no line is shown. -/
def IsAtRest (s : Snapshot) : Prop :=
  s.state.isActive = false ∧ s.cursor = none

/-- No run goes on, but a line is shown. -/
def IsStale (s : Snapshot) : Prop :=
  s.state.isActive = false ∧ s.cursor ≠ none

/-- **How one snapshot may follow another.**  It is stale exactly if a run has ended that was at a
line; it shows that line then, and the snapshot after it shows none. -/
structure Precedes (s s' : Snapshot) : Prop where
  stale_iff : s'.IsStale ↔ s.state.isActive = true ∧ s.cursor ≠ none ∧ s'.state.isTerminal = true
  line : s'.IsStale → s'.cursor = s.cursor
  left : s.IsStale → s' = ⟨s.state, none⟩

theorem IsAtRest.not_isStale (h : s.IsAtRest) : ¬ s.IsStale :=
  fun hs => hs.2 h.2

/-- Whatever a run shows while it goes on is not stale. -/
theorem not_isStale_of_isActive (h : s.state.isActive = true) : ¬ s.IsStale := by
  intro hs
  rw [hs.1] at h
  cases h

/-- After a snapshot that is not stale any other one of a run that goes on may come. -/
theorem precedes_of_isActive (hs : ¬ s.IsStale) (h : s'.state.isActive = true) : s.Precedes s' where
  stale_iff := by
    refine iff_of_false (not_isStale_of_isActive h) fun h' => ?_
    rw [RunState.isTerminal_of_isActive h] at h'
    cases h'.2.2
  line h' := absurd h' (not_isStale_of_isActive h)
  left h' := absurd h' hs

/-- A run ends at the line that it is at. -/
theorem precedes_end (h : s.state.isActive = true) (ht : state.isTerminal = true) :
    s.Precedes ⟨state, s.cursor⟩ where
  stale_iff := ⟨fun h' => ⟨h, h'.2, ht⟩, fun h' => ⟨RunState.isActive_of_isTerminal ht, h'.2.1⟩⟩
  line _ := rfl
  left h' := absurd h' (not_isStale_of_isActive h)

/-- A run that has ended leaves its line. -/
theorem precedes_leave (h : state.isActive = false) : Precedes ⟨state, cursor⟩ ⟨state, none⟩ where
  stale_iff := by
    refine iff_of_false (fun h' => h'.2 rfl) fun h' => ?_
    rw [h] at h'
    cases h'.1
  line h' := absurd rfl h'.2
  left _ := rfl

/-- At rest all that matters of a snapshot is that it is not stale. -/
theorem IsAtRest.precedes_iff (h : s.IsAtRest) : s.Precedes s' ↔ ¬ s'.IsStale := by
  have hne : ¬ (s.state.isActive = true ∧ s.cursor ≠ none ∧ s'.state.isTerminal = true) :=
    fun h' => h'.2.1 h.2
  exact ⟨fun hp hs => hne (hp.stale_iff.mp hs), fun hs =>
    ⟨iff_of_false hs hne, fun h' => absurd h' hs, fun h' => absurd h' h.not_isStale⟩⟩

/-- What is shown one after the other while these notices are told. -/
def showings : Snapshot → List Notice → List Snapshot
  | _, [] => []
  | s, n :: ns => (if s.hear n = s then [] else [s.hear n]) ++ showings (s.hear n) ns

/-- A notice about something else leaves what was shown before. -/
theorem hear_of_not_isShown {n : Notice} (h : n.isShown = false) : s.hear n = s := by
  cases n with
  | state | cursor => cases h
  | started | log => rfl

/-- A notice that alters nothing is passed over. -/
theorem showings_cons_of_hear_eq {n : Notice} (h : s.hear n = s) (ns : List Notice) :
    s.showings (n :: ns) = s.showings ns := by
  rw [showings, if_pos h, List.nil_append, h]

theorem showings_cons_of_hear_ne {n : Notice} (h : s.hear n ≠ s) (ns : List Notice) :
    s.showings (n :: ns) = s.hear n :: (s.hear n).showings ns := by
  rw [showings, if_neg h, List.singleton_append]

/-- The snapshot shown last. -/
theorem getLast?_showings : ∀ (ns : List Notice) (s : Snapshot),
    (s :: s.showings ns).getLast? = some (s.hearAll ns)
  | [], _ => rfl
  | n :: ns, s => by
    have h := getLast?_showings ns (s.hear n)
    have hall : s.hearAll (n :: ns) = (s.hear n).hearAll ns := rfl
    by_cases hn : s.hear n = s
    · rw [hn] at h hall
      rw [showings_cons_of_hear_eq hn, h, hall]
    · rw [showings_cons_of_hear_ne hn, List.getLast?_cons_cons, h, hall]

/-- The snapshots `l` follow each other in order, and the first of them one that is idle. -/
def InOrder (l : List Snapshot) : Prop :=
  List.IsChain Precedes ({} :: l)

/-- Moreover the last of them is at rest. -/
def ComesToRest (l : List Snapshot) : Prop :=
  InOrder l ∧ ∀ x, ({} :: l).getLast? = some x → x.IsAtRest

theorem comesToRest_nil : ComesToRest [] := by
  refine ⟨.singleton _, fun x hx => ?_⟩
  cases hx
  exact ⟨rfl, rfl⟩

/-- **What a run shows comes after what was shown before it.** -/
theorem ComesToRest.inOrder_append {l : List Snapshot} {ns : List Notice} (h : ComesToRest l)
    (hs : s.IsAtRest) (hc : List.IsChain Precedes (s :: s.showings ns)) :
    InOrder (l ++ s.showings ns) := by
  obtain ⟨hfirst, hrest⟩ := List.isChain_cons.mp hc
  rw [InOrder, ← List.cons_append]
  refine List.IsChain.append h.1 hrest fun x hx y hy => ?_
  exact (h.2 x hx).precedes_iff.mpr (hs.precedes_iff.mp (hfirst y hy))

theorem ComesToRest.append {l : List Snapshot} {ns : List Notice} (h : ComesToRest l)
    (hs : s.IsAtRest) (hc : List.IsChain Precedes (s :: s.showings ns))
    (hlast : (s.hearAll ns).IsAtRest) : ComesToRest (l ++ s.showings ns) := by
  refine ⟨h.inOrder_append hs hc, fun x hx => ?_⟩
  have hend := getLast?_showings ns s
  rw [← List.cons_append] at hx
  cases hl : s.showings ns with
  | nil =>
    rw [hl, List.append_nil] at hx
    exact h.2 x hx
  | cons y more =>
    rw [hl, List.getLast?_append_of_ne_nil _ (List.cons_ne_nil _ _)] at hx
    rw [hl, List.getLast?_cons_cons, hx] at hend
    cases hend
    exact hlast

/-- A snapshot at rest may be shown after one at rest. -/
theorem ComesToRest.concat {l : List Snapshot} (h : ComesToRest l) (hs : s.IsAtRest) :
    ComesToRest (l ++ [s]) := by
  rw [ComesToRest, InOrder, ← List.cons_append]
  refine ⟨List.IsChain.append h.1 (.singleton s) fun x hx y hy => ?_, fun x hx => ?_⟩
  · obtain rfl : s = y := Option.some.inj hy
    exact (h.2 x hx).precedes_iff.mpr hs.not_isStale
  · rw [List.getLast?_concat] at hx
    cases hx
    exact hs

/-- The snapshot shows this state, and a line at which a run of the plan does something. -/
def IsAtLine (p : Plan) (state : RunState) (s : Snapshot) : Prop :=
  s.state = state ∧ ∃ line i, s.cursor = some line ∧ (line, i) ∈ p.script.executables

end Snapshot

/-! ## 2. Courses -/

namespace Course

open Snapshot

/-- **A course presents itself.**  From the snapshot `s` on all that it makes known is in order, and
wherever it can be suspended it shows a line, and that it is paused exactly at a pause. -/
def Presents (p : Plan) : Course → Snapshot → Prop
  | ended _, s => s.IsAtRest
  | tell n next, s => (n.isShown = true → s.Precedes (s.hear n)) ∧ next.Presents p (s.hear n)
  | askAny next, s => ∀ a, (next a).Presents p s
  | askDevice _ next, s => ∀ a, (next a).Presents p s
  | askStop next, s => ∀ a, (next a).Presents p s
  | rest _ next, s => s.IsAtLine p .running ∧ ∀ w, (next w).Presents p s
  | call _ _ next, s => s.IsAtLine p .running ∧ ∀ r, (next r).Presents p s
  | arm next, s => next.Presents p s
  | park next, s =>
    (s.IsAtLine p .paused ∧ p.mode = .singleBlock ∧ s.cursor ≠ p.script.lastExecutable) ∧
      ∀ w, (next w).Presents p s
  | disarm next, s => next.Presents p s

variable {p : Plan} {c c' : Course} {m : Move} {ms : List Move} {s : Snapshot}

theorem presents_tell {n : Notice} {next : Course} : (tell n next).Presents p s ↔
    (n.isShown = true → s.Precedes (s.hear n)) ∧ next.Presents p (s.hear n) :=
  Iff.rfl

/-- A notice about something else presents nothing. -/
theorem presents_quiet {n : Notice} {next : Course} (hn : n.isShown = false)
    (h : next.Presents p s) : (tell n next).Presents p s := by
  rw [presents_tell, hear_of_not_isShown hn]
  refine ⟨fun hshown => ?_, h⟩
  cases hn.symm.trans hshown

theorem presents_call {request : Request} {limit : Option Nat} {next : Option CallResult → Course} :
    (call request limit next).Presents p s ↔
      s.IsAtLine p .running ∧ ∀ r, (next r).Presents p s :=
  Iff.rfl

/-- What is left of a course after a move presents itself. -/
theorem Moves.presents (hm : c.Moves m c') (h : c.Presents p s) :
    c'.Presents p (s.hearAll (noticesOf [m])) := by
  cases hm with
  | tell => exact h.2
  | arm | disarm => exact h
  | askAny a | askDevice a | askStop a => exact h a
  | rest w | park w => exact h.2 w
  | call r => exact h.2 r

theorem Trace.presents (ht : c.Trace ms c') : ∀ {s : Snapshot}, c.Presents p s →
    c'.Presents p (s.hearAll (noticesOf ms)) := by
  induction ht with
  | nil => exact fun h => h
  | @cons _ _ _ m ms hm _ ih =>
    intro s h
    have h' := ih (hm.presents h)
    rwa [← Snapshot.hearAll_append, ← noticesOf_append] at h'

/-- **Snapshots of a course that presents itself follow each other in order.**  By induction on the
moves. -/
theorem Trace.chain_showings (ht : c.Trace ms c') : ∀ {s : Snapshot}, c.Presents p s →
    List.IsChain Precedes (s :: s.showings (noticesOf ms)) := by
  induction ht with
  | nil => exact fun _ => .singleton _
  | @cons _ _ _ m ms hm _ ih =>
    intro s h
    have h' := ih (hm.presents h)
    cases hm with
    | @tell n next =>
      have h₁ : List.IsChain Precedes (s.hear n :: (s.hear n).showings (noticesOf ms)) := h'
      rw [noticesOf_told]
      by_cases hs : s.hear n = s
      · rw [hs] at h₁
        rw [showings_cons_of_hear_eq hs]
        exact h₁
      · have hn : n.isShown = true := by
          cases hn : n.isShown with
          | true => rfl
          | false => exact absurd (hear_of_not_isShown hn) hs
        rw [showings_cons_of_hear_ne hs]
        exact .cons_cons (h.1 hn) h₁
    | _ => exact h'

end Course

open Course Snapshot

variable {p : Plan} {line : Nat}

/-! ## 3. State and line -/

namespace Tracker

variable {t : Tracker} {next : Tracker → Course}

/-- What a run shows that keeps this account. -/
def shown (t : Tracker) : Snapshot := ⟨t.state, t.cursor⟩

theorem presents_moveTo {target : Option Nat} (hp : t.shown.Precedes ⟨t.state, target⟩)
    (hn : (next { t with cursor := target }).Presents p ⟨t.state, target⟩) :
    (t.moveTo target next).Presents p t.shown := by
  unfold moveTo
  split
  · rename_i ht
    subst ht
    exact hn
  · exact ⟨fun _ => hp, hn⟩

theorem presents_enter {state : RunState} (hs : t.state.mayBecome state = true)
    (hp : t.shown.Precedes ⟨state, t.cursor⟩)
    (hn : (next { t with state }).Presents p ⟨state, t.cursor⟩) :
    (t.enter state next).Presents p t.shown := by
  rw [enter_eq hs]
  exact ⟨fun _ => hp, hn⟩

/-- A run that has told its last state leaves its line. -/
theorem presents_finish (hs : t.state.isActive = false) (o : RunOutcome) :
    (t.finish o).Presents p t.shown :=
  presents_moveTo (precedes_leave hs) ⟨hs, rfl⟩

theorem presents_conclude {o : RunOutcome} (ht : t.MayEnd o) :
    (t.conclude o).Presents p t.shown := by
  have hactive : t.shown.state.isActive = true := by
    obtain hs | ⟨hs, -⟩ := ht <;> rw [shown, hs] <;> rfl
  cases o with
  | completed =>
    obtain hs | ⟨-, ho⟩ := ht
    · have hmay : t.state.mayBecome .completed = true := by rw [hs]; rfl
      rw [conclude]
      refine presents_enter hmay (precedes_end hactive rfl) ?_
      exact presents_quiet rfl (presents_finish rfl .completed)
    · cases ho
  | stopped =>
    have hmay : t.state.mayBecome .stopping = true := by
      obtain hs | ⟨hs, -⟩ := ht <;> rw [hs] <;> rfl
    rw [conclude]
    refine presents_enter hmay (precedes_of_isActive (not_isStale_of_isActive hactive) rfl) ?_
    refine presents_enter rfl (precedes_end rfl rfl) ?_
    exact presents_quiet rfl (presents_finish rfl .stopped)
  | failed reason =>
    obtain hs | ⟨-, ho⟩ := ht
    · have hmay : t.state.mayBecome .failed = true := by rw [hs]; rfl
      rw [conclude]
      refine presents_enter hmay (precedes_end hactive rfl) ?_
      exact presents_finish rfl (.failed reason)
    · cases ho

end Tracker

/-! ## 4. One line -/

section Line

variable {s : Snapshot} {i : Instruction} {next : Step → Course}

theorem presents_restUnlessStopped {nanos : Nat} (hs : s.IsAtLine p .running)
    (hn : ∀ x, (next x).Presents p s) : (restUnlessStopped nanos next).Presents p s := by
  unfold restUnlessStopped
  split
  · exact fun _ => hn _
  · exact ⟨hs, fun _ => hn _⟩

theorem Plan.presents_send {c : DeviceCommand} (hs : s.IsAtLine p .running)
    (hn : ∀ x, (next x).Presents p s) : (p.send line c next).Presents p s := by
  refine presents_quiet rfl (presents_call.mpr ⟨hs, fun _ => presents_quiet rfl ?_⟩)
  exact presents_restUnlessStopped hs hn

/-- What a run does at an instruction shows nothing new. -/
theorem Plan.presents_perform (hs : s.IsAtLine p .running) (hn : ∀ x, (next x).Presents p s) :
    (p.perform line i next).Presents p s := by
  cases i with
  | blank | comment => exact hn _
  | wait seconds =>
    simp only [perform]
    split
    · exact presents_restUnlessStopped hs hn
    · exact presents_quiet rfl (hn _)
  | command c =>
    intro connected
    cases connected with
    | false => exact presents_quiet rfl (hn _)
    | true => exact presents_send hs hn
  | unrecognized raw reason => exact presents_quiet rfl (hn _)

end Line

/-- A run that pauses shows it, and that it is running again when it goes on. -/
theorem Tracker.presents_pause {t : Tracker} {next : Tracker → Wake → Course}
    (hs : t.state = .running) (hl : t.shown.IsAtLine p .running) (hm : p.mode = .singleBlock)
    (hlast : t.cursor ≠ p.script.lastExecutable)
    (hstop : ∀ t' : Tracker, t'.MayEnd .stopped → (next t' .stopped).Presents p t'.shown)
    (hdue : (next t .due).Presents p t.shown) : (t.pause line next).Presents p t.shown := by
  obtain ⟨state, cursor⟩ := t
  obtain rfl : state = .running := hs
  intro stop
  cases stop with
  | true => exact hstop _ (.inl rfl)
  | false =>
    simp only [Bool.false_eq_true, if_false]
    refine Tracker.presents_enter (t := ⟨.running, cursor⟩) rfl
      (precedes_of_isActive (not_isStale_of_isActive rfl) rfl)
      (presents_quiet rfl ⟨⟨⟨rfl, hl.2⟩, hm, hlast⟩, ?_⟩)
    intro w
    cases w with
    | stopped => exact hstop ⟨.paused, cursor⟩ (.inr ⟨rfl, rfl⟩)
    | due =>
      exact Tracker.presents_enter (t := ⟨.paused, cursor⟩) rfl
        (precedes_of_isActive (not_isStale_of_isActive rfl) rfl) hdue

/-! ## 5. All lines -/

namespace Plan

theorem pausesAfter_eq_true_iff {last : Option Nat} :
    p.pausesAfter last line = true ↔ p.mode = .singleBlock ∧ last ≠ some line := by
  simp [pausesAfter]

/-- By induction on the lines; the state at the top of each is running. -/
theorem presents_lines : ∀ {items : List (Nat × Instruction)} {t : Tracker},
    (∀ x ∈ items, x ∈ p.script.instructions) → t.state = .running →
      (p.lines p.script.lastExecutable items t).Presents p t.shown
  | [], t, _, hs => Tracker.presents_conclude (.inl hs)
  | (line, i) :: more, t, hmem, hs => by
    have hmore : ∀ t' : Tracker, t'.state = .running →
        (p.lines p.script.lastExecutable more t').Presents p t'.shown :=
      fun _ hs' => presents_lines (fun x hx => hmem x (List.mem_cons_of_mem _ hx)) hs'
    have hend : ∀ {t' : Tracker} {o : RunOutcome}, t'.MayEnd o →
        (t'.conclude o).Presents p t'.shown := Tracker.presents_conclude
    intro stop
    cases stop with
    | true => exact (hend (.inl hs) : (t.conclude .stopped).Presents p t.shown)
    | false =>
      simp only [Bool.false_eq_true, if_false]
      split
      · exact hmore t hs
      · rename_i hi
        have hactive : t.shown.state.isActive = true := by
          rw [Tracker.shown, hs]
          rfl
        refine Tracker.presents_moveTo
          (precedes_of_isActive (not_isStale_of_isActive hactive) hactive) ?_
        obtain ⟨u, hu⟩ : ∃ u : Tracker, u = { t with cursor := some line } := ⟨_, rfl⟩
        have hus : u.state = .running := hu ▸ hs
        have huc : u.cursor = some line := hu ▸ rfl
        have hshown : (⟨t.state, some line⟩ : Snapshot) = u.shown := hu ▸ rfl
        rw [← hu, hshown]
        have hl : u.shown.IsAtLine p .running := by
          refine ⟨hus, line, i, huc, List.mem_filter.mpr ⟨hmem _ List.mem_cons_self, ?_⟩⟩
          simpa using hi
        refine presents_perform hl fun x => ?_
        cases x with
        | stop => exact hend (.inl hus)
        | fail reason => exact hend (.inl hus)
        | goOn =>
          simp only
          split
          · rename_i hpause
            obtain ⟨hm, hlast⟩ := pausesAfter_eq_true_iff.mp hpause
            exact Tracker.presents_pause hus hl hm (fun h => hlast (h.symm.trans huc))
              (fun _ ht => hend ht) (hmore u hus)
          · exact hmore u hus

/-- **Every course presents itself**, from a snapshot at rest on. -/
theorem presents_course (p : Plan) {s : Snapshot} (hs : s.IsAtRest) : p.course.Presents p s := by
  intro any
  cases any with
  | false => exact hs
  | true =>
    obtain ⟨state, cursor⟩ := s
    obtain rfl : cursor = none := hs.2
    have hlines : (p.lines p.script.lastExecutable p.script.instructions ⟨.running, none⟩).Presents
        p ⟨.running, none⟩ := presents_lines (fun _ hx => hx) rfl
    simp only [if_true]
    rw [Tracker.enter_eq rfl]
    refine presents_quiet rfl ⟨fun _ => precedes_of_isActive hs.not_isStale rfl, ?_⟩
    exact presents_quiet rfl hlines

end Plan

end DeviceScript
