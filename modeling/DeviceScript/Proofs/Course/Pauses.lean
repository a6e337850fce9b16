import DeviceScript.Proofs.Course.States
/-!
# The pauses of a run

A run that goes line by line pauses after each line that it does anything at, except the last one.
So the lines of its pauses, as the log names them and as the cursor shows them, are the first
executable lines of the script, in order and each once (`pauses_of_run`).  A run that completes has
paused after all of them but the last.  A run that fails has paused after each line before the one
at which it fails.  A run that goes on by itself never pauses.

Whether a run pauses after a line is found out by comparing the line with the last executable one of
the script.  What carries the induction is that, as long as an executable line is left, the last of
those that are left is the last one of the script.
-/

namespace DeviceScript

variable {p : Plan} {last : Option Nat} {line : Nat} {i : Instruction} {cur : Option Nat}
  {items : List (Nat × Instruction)} {ms : List Move} {s : Step} {o : RunOutcome}

/-! ## 1. Pauses that are logged and pauses that are shown -/

/-- The lines that the log entries on pauses name. -/
def pauseLinesOf (ms : List Move) : List (Option Nat) :=
  ((entriesOf ms).filter (·.kind = .pause)).map (·.line)

theorem pauseLinesOf_append (ms₁ ms₂ : List Move) :
    pauseLinesOf (ms₁ ++ ms₂) = pauseLinesOf ms₁ ++ pauseLinesOf ms₂ := by
  simp [pauseLinesOf]

/-- The cursor that is shown after a notice that changes what is shown, if a pause is shown then. -/
def Snapshot.pausedCursor? (s : Snapshot) (n : Notice) : Option (Option Nat) :=
  if (n.state?.isSome || n.cursor?.isSome) && (s.hear n).state = .paused then
    some (s.hear n).cursor
  else none

/-- The cursors that are shown while a pause is shown. -/
def pausedCursors : Snapshot → List Notice → List (Option Nat)
  | _, [] => []
  | s, n :: ns => (s.pausedCursor? n).toList ++ pausedCursors (s.hear n) ns

theorem pausedCursors_append : ∀ (s : Snapshot) (ns₁ ns₂ : List Notice),
    pausedCursors s (ns₁ ++ ns₂) = pausedCursors s ns₁ ++ pausedCursors (s.hearAll ns₁) ns₂
  | _, [], _ => rfl
  | s, n :: ns₁, ns₂ => by
    rw [List.cons_append, pausedCursors, pausedCursors, pausedCursors_append, List.append_assoc]
    rfl

/-- Log entries show nothing. -/
theorem hearAll_logs (s : Snapshot) (es : List Log.Entry) : s.hearAll (es.map .log) = s := by
  induction es with
  | nil => rfl
  | cons e es ih => exact ih

theorem pausedCursors_logs (s : Snapshot) (es : List Log.Entry) :
    pausedCursors s (es.map .log) = [] := by
  induction es with
  | nil => rfl
  | cons e es ih => exact ih

/-! ## 2. One line -/

/-- The result of a command is no pause. -/
theorem kind_resultEntry_ne_pause (c : DeviceCommand) (line : Nat) (limit : Option Nat)
    (result : Option CallResult) : (resultEntry c line limit result).kind ≠ .pause := by
  unfold resultEntry
  split <;> exact nofun

/-- A line without its pause neither logs one nor shows one. -/
theorem Plan.PerformMoves.pauses_eq_nil (h : p.PerformMoves line i ms s) (sn : Snapshot) :
    pauseLinesOf ms = [] ∧ pausedCursors sn (noticesOf ms) = [] ∧
      sn.hearAll (noticesOf ms) = sn := by
  obtain ⟨es, hes, -⟩ := h.noticesOf_eq
  refine ⟨?_, by rw [hes, pausedCursors_logs], by rw [hes, hearAll_logs]⟩
  have hrest : ∀ {nanos : Nat} {ms : List Move} {s : Step}, RestMoves nanos ms s →
      pauseLinesOf ms = [] := by
    intro nanos ms s hr
    cases hr <;> rfl
  cases h with
  | waited _ hr => exact hrest hr
  | sent c result hr =>
    have hkind := kind_resultEntry_ne_pause c line p.timing.limit result
    rename_i ms'
    change pauseLinesOf ([.told (.log (resultEntry c line p.timing.limit result))] ++ ms') = []
    rw [pauseLinesOf_append, hrest hr, List.append_nil]
    simp [pauseLinesOf, entriesOf, Notice.entry?, noticesOf, Move.notice?, hkind]
  | malformed | unconnected | skipped => rfl

/-- **The pause of a line** is logged and shown once, at that line.  Without one nothing changes
what is shown, and the run goes on only if it is not to pause there. -/
theorem Plan.LineMoves.pauses_cases (h : p.LineMoves last line i ms s) {sn : Snapshot}
    (hs : sn.state = .running) (hc : sn.cursor = some line) :
    (pauseLinesOf ms = [] ∧ pausedCursors sn (noticesOf ms) = [] ∧
        (sn.hearAll (noticesOf ms)).state = .running ∧
        (s = .goOn → p.pausesAfter last line = false)) ∨
      (pauseLinesOf ms = [some line] ∧ pausedCursors sn (noticesOf ms) = [some line] ∧
        p.pausesAfter last line = true ∧
        (s = .goOn → (sn.hearAll (noticesOf ms)).state = .running) ∧ ∀ reason, s ≠ .fail reason) := by
  cases h with
  | plain hp hgo =>
    obtain ⟨h1, h2, h3⟩ := hp.pauses_eq_nil sn
    exact .inl ⟨h1, h2, by rw [h3, hs], hgo⟩
  | paused hp hl hw =>
    obtain ⟨h1, h2, h3⟩ := hp.pauses_eq_nil sn
    rw [pauseLinesOf_append, noticesOf_append, pausedCursors_append, Snapshot.hearAll_append, h1, h2,
      h3]
    cases hw with
    | refused => exact .inl ⟨rfl, rfl, hs, nofun⟩
    | stopped =>
      refine .inr ⟨rfl, ?_, hl, nofun, nofun⟩
      rw [← hc]
      rfl
    | continued =>
      refine .inr ⟨rfl, ?_, hl, fun _ => rfl, nofun⟩
      rw [← hc]
      rfl

/-! ## 3. All lines -/

/-- The lines among these that a run does anything at. -/
def executablesOf (items : List (Nat × Instruction)) : List (Nat × Instruction) :=
  items.filter (·.2.isExecutable)

theorem executablesOf_cons_of_pos {x : Nat × Instruction} (hx : x.2.isExecutable = true) :
    executablesOf (x :: items) = x :: executablesOf items :=
  List.filter_cons_of_pos hx

theorem executablesOf_cons_of_neg {x : Nat × Instruction} (hx : x.2.isExecutable = false) :
    executablesOf (x :: items) = executablesOf items :=
  List.filter_cons_of_neg (by simp [hx])

/-- The last line among these that a run does anything at is `last`, if there is one. -/
def EndsAt (last : Option Nat) (items : List (Nat × Instruction)) : Prop :=
  executablesOf items ≠ [] → last = (executablesOf items).getLast?.map (·.1)

theorem EndsAt.tail {x : Nat × Instruction} (h : EndsAt last (x :: items)) : EndsAt last items := by
  intro hne
  have hlast : ∀ y, (y :: executablesOf items).getLast? = (executablesOf items).getLast? :=
    fun y => List.getLast?_cons_of_ne_nil hne
  cases hx : x.2.isExecutable with
  | true =>
    rw [EndsAt, executablesOf_cons_of_pos hx, hlast] at h
    exact h (List.cons_ne_nil _ _)
  | false =>
    rw [EndsAt, executablesOf_cons_of_neg hx] at h
    exact h hne

/-- **A run that goes line by line pauses where more is to be done.** -/
theorem Plan.pausesAfter_iff (hm : p.mode = .singleBlock) (hi : i.isExecutable = true)
    (ha : (((line, i) :: items).map (·.1)).Pairwise (· < ·)) (hl : EndsAt last ((line, i) :: items)) :
    p.pausesAfter last line = true ↔ executablesOf items ≠ [] := by
  rw [EndsAt, executablesOf_cons_of_pos (by exact hi)] at hl
  have hlast := hl (List.cons_ne_nil _ _)
  have hpause : p.pausesAfter last line = true ↔ last ≠ some line := by
    simp [pausesAfter, hm]
  rw [hpause, hlast]
  cases hx : (executablesOf items).getLast? with
  | none =>
    rw [List.getLast?_eq_none_iff.mp hx]
    simp
  | some x =>
    have hmem : x ∈ executablesOf items := List.mem_of_getLast? hx
    have hlt : line < x.1 := (List.pairwise_cons.mp ha).1 x.1
      (List.mem_map.mpr ⟨x, List.mem_of_mem_filter hmem, rfl⟩)
    have hne : executablesOf items ≠ [] := List.ne_nil_of_mem hmem
    rw [List.getLast?_cons_of_ne_nil hne, hx]
    simpa [hne] using Nat.ne_of_gt hlt

/-- The first `m` executable lines. -/
def firstLines (items : List (Nat × Instruction)) (m : Nat) : List (Option Nat) :=
  ((executablesOf items).take m).map (some ·.1)

/-- One more executable line in front. -/
theorem firstLines_cons_of_pos {x : Nat × Instruction} (hx : x.2.isExecutable = true) (n : Nat) :
    firstLines (x :: items) (n + 1) = some x.1 :: firstLines items n := by
  rw [firstLines, executablesOf_cons_of_pos hx, List.take_succ_cons, List.map_cons, firstLines]

theorem firstLines_cons_of_neg {x : Nat × Instruction} (hx : x.2.isExecutable = false) (n : Nat) :
    firstLines (x :: items) n = firstLines items n := by
  rw [firstLines, executablesOf_cons_of_neg hx, firstLines]

/-- A run that takes these lines with this outcome pauses after the first `m` executable ones. -/
structure PausesAfterFirst (items : List (Nat × Instruction)) (o : RunOutcome) (m : Nat) : Prop where
  le : m ≤ (executablesOf items).length - 1
  completed : o = .completed → m = (executablesOf items).length - 1
  failed : ∀ reason, o = .failed reason → ∃ line c,
    (executablesOf items)[m]? = some (line, .command c) ∧ reason = unconnectedReason c line

/-- A run that breaks off at a line with a failure failed there. -/
theorem Step.eq_fail {reason : String} (ho : s.outcome? = some (.failed reason)) :
    s = .fail reason := by
  cases s <;> cases ho
  rfl

/-- A run that breaks off at a line has not come to the end of its script. -/
theorem Step.outcome?_ne_completed (s : Step) : s.outcome? ≠ some .completed := by
  cases s <;> exact nofun

/-- A run that is stopped may have paused after no line. -/
theorem pausesAfterFirst_stopped (items : List (Nat × Instruction)) :
    PausesAfterFirst items .stopped 0 :=
  ⟨Nat.zero_le _, nofun, nofun⟩

/-- One more executable line in front, after which there is a pause since more is to be done. -/
theorem PausesAfterFirst.cons {x : Nat × Instruction} {m : Nat} (hx : x.2.isExecutable = true)
    (h : PausesAfterFirst items o m) (hne : executablesOf items ≠ []) :
    PausesAfterFirst (x :: items) o (m + 1) := by
  have hpos : 0 < (executablesOf items).length := List.length_pos_of_ne_nil hne
  have hle := h.le
  have hex : executablesOf (x :: items) = _ := executablesOf_cons_of_pos hx
  refine ⟨?_, fun ho => ?_, fun reason ho => ?_⟩
  · rw [hex, List.length_cons]
    omega
  · have hc := h.completed ho
    rw [hex, List.length_cons]
    omega
  · obtain ⟨line, c, hf, hr⟩ := h.failed reason ho
    exact ⟨line, c, by rwa [hex, List.getElem?_cons_succ], hr⟩

/-- A last executable line in front, after which there is no pause. -/
theorem PausesAfterFirst.cons_last {x : Nat × Instruction} {m : Nat} (hx : x.2.isExecutable = true)
    (h : PausesAfterFirst items o m) (hnil : executablesOf items = []) :
    m = 0 ∧ PausesAfterFirst (x :: items) o 0 := by
  have hle := h.le
  have hex : executablesOf (x :: items) = _ := executablesOf_cons_of_pos hx
  rw [hnil] at hex hle
  refine ⟨Nat.le_zero.mp hle, Nat.zero_le _, fun _ => by rw [hex]; rfl, fun reason ho => ?_⟩
  obtain ⟨line, c, hf, -⟩ := h.failed reason ho
  rw [hnil] at hf
  cases hf

/-- A line at which nothing is done makes no difference. -/
theorem PausesAfterFirst.passOver {x : Nat × Instruction} {m : Nat} (hx : x.2.isExecutable = false)
    (h : PausesAfterFirst items o m) : PausesAfterFirst (x :: items) o m where
  le := by
    rw [executablesOf_cons_of_neg hx]
    exact h.le
  completed := by
    rw [executablesOf_cons_of_neg hx]
    exact h.completed
  failed := by
    rw [executablesOf_cons_of_neg hx]
    exact h.failed

/-- A run that breaks off at its first executable line may have paused after none. -/
theorem PausesAfterFirst.of_broken (hi : i.isExecutable = true) (hl : p.LineMoves last line i ms s)
    (ho : s.outcome? = some o) : PausesAfterFirst ((line, i) :: items) o 0 where
  le := Nat.zero_le _
  completed := by
    rintro rfl
    exact absurd ho s.outcome?_ne_completed
  failed := by
    rintro reason rfl
    obtain ⟨c, rfl, hr⟩ := hl.reason_eq (Step.eq_fail ho)
    exact ⟨line, c, by rw [executablesOf_cons_of_pos hi]; rfl, hr⟩

/-- A run that breaks off in the pause after its first executable line. -/
theorem PausesAfterFirst.of_broken_paused {x : Nat × Instruction} (hx : x.2.isExecutable = true)
    (hne : executablesOf items ≠ []) (ho : s.outcome? = some o) (hs : ∀ reason, s ≠ .fail reason) :
    PausesAfterFirst (x :: items) o 1 where
  le := by
    rw [executablesOf_cons_of_pos hx, List.length_cons]
    exact List.length_pos_of_ne_nil hne
  completed := by
    rintro rfl
    exact absurd ho s.outcome?_ne_completed
  failed := by
    rintro reason rfl
    exact absurd (Step.eq_fail ho) (hs reason)

/-- The end of a run neither logs a pause nor shows one. -/
theorem pauses_closingMoves (sn : Snapshot) (cur : Option Nat) (o : RunOutcome) :
    pauseLinesOf (closingMoves cur o) = [] ∧
      pausedCursors sn (noticesOf (closingMoves cur o)) = [] := by
  rw [closingMoves, noticesOf_map_told]
  cases o <;> cases cur <;> exact ⟨rfl, rfl⟩

/-- What a line logs and shows, and then the rest, once the run has moved to the line. -/
theorem pauses_line {sn : Snapshot} (hs : sn.state = .running) (line : Nat) (ms ms' : List Move) :
    pauseLinesOf (.foundStop false :: .told (.cursor (some line)) :: (ms ++ ms')) =
        pauseLinesOf ms ++ pauseLinesOf ms' ∧
      pausedCursors sn
          (noticesOf (.foundStop false :: .told (.cursor (some line)) :: (ms ++ ms'))) =
        pausedCursors (sn.hear (.cursor (some line))) (noticesOf ms) ++
          pausedCursors ((sn.hear (.cursor (some line))).hearAll (noticesOf ms))
            (noticesOf ms') := by
  refine ⟨pauseLinesOf_append ms ms', ?_⟩
  rw [← pausedCursors_append, ← noticesOf_append]
  have hnone : sn.pausedCursor? (.cursor (some line)) = none := by
    simp [Snapshot.pausedCursor?, Snapshot.hear, hs]
  change (sn.pausedCursor? (.cursor (some line))).toList ++ _ = _
  rw [hnone]
  rfl

/-- **The pauses from the top of the lines.**  The log and the cursor name the same lines, the first
executable ones.  By induction on the lines that the run takes. -/
theorem Plan.RunMoves.pauses_eq (h : p.RunMoves last items cur ms o) (hm : p.mode = .singleBlock)
    (ha : (items.map (·.1)).Pairwise (· < ·)) (hl : EndsAt last items) {sn : Snapshot}
    (hs : sn.state = .running) :
    ∃ m, PausesAfterFirst items o m ∧ pauseLinesOf ms = firstLines items m ∧
      pausedCursors sn (noticesOf ms) = firstLines items m := by
  induction h generalizing sn with
  | @completed cur =>
    obtain ⟨h1, h2⟩ := pauses_closingMoves sn cur .completed
    exact ⟨0, ⟨Nat.le_refl 0, fun _ => rfl, nofun⟩, h1, h2⟩
  | @stopped x more cur =>
    obtain ⟨h1, h2⟩ := pauses_closingMoves sn cur .stopped
    exact ⟨0, pausesAfterFirst_stopped _, h1, h2⟩
  | @passedOver line i more cur ms o hi _ ih =>
    obtain ⟨m, hmo, h1, h2⟩ := ih (List.pairwise_cons.mp ha).2 hl.tail hs
    refine ⟨m, hmo.passOver hi, ?_, ?_⟩
    · rw [firstLines_cons_of_neg hi]; exact h1
    · rw [firstLines_cons_of_neg hi]; exact h2
  | @taken line i more cur ms ms' o hi hl' _ ih =>
    have hiff := Plan.pausesAfter_iff hm hi ha hl
    have hstate : (sn.hear (.cursor (some line))).state = .running := hs
    obtain ⟨hlog, hshown⟩ := pauses_line hs line ms ms'
    rw [hlog, hshown]
    rcases hl'.pauses_cases hstate rfl with ⟨h1, h2, h3, hgo⟩ | ⟨h1, h2, hpause, h3, -⟩
    · obtain ⟨m, hmo, h4, h5⟩ := ih (List.pairwise_cons.mp ha).2 hl.tail h3
      have hnil : executablesOf more = [] := by
        by_contra hne
        exact Bool.false_ne_true ((hgo rfl).symm.trans (hiff.mpr hne))
      obtain ⟨rfl, hmo'⟩ := hmo.cons_last (x := (line, i)) hi hnil
      exact ⟨0, hmo', by rw [h1, h4]; rfl, by rw [h2, h5]; rfl⟩
    · obtain ⟨m, hmo, h4, h5⟩ := ih (List.pairwise_cons.mp ha).2 hl.tail (h3 rfl)
      refine ⟨m + 1, hmo.cons hi (hiff.mp hpause), ?_, ?_⟩
      · rw [h1, h4, firstLines_cons_of_pos hi]
        rfl
      · rw [h2, h5, firstLines_cons_of_pos hi]
        rfl
  | @broken line i more cur ms s o hi hl' ho =>
    have hstate : (sn.hear (.cursor (some line))).state = .running := hs
    obtain ⟨hlog, hshown⟩ := pauses_line hs line ms (closingMoves (some line) o)
    obtain ⟨h3, h4⟩ := pauses_closingMoves
      ((sn.hear (.cursor (some line))).hearAll (noticesOf ms)) (some line) o
    rw [hlog, hshown, h3, h4, List.append_nil, List.append_nil]
    rcases hl'.pauses_cases hstate rfl with ⟨h1, h2, -, -⟩ | ⟨h1, h2, hpause, -, hfail⟩
    · exact ⟨0, .of_broken hi hl' ho, h1, h2⟩
    · have hne := (Plan.pausesAfter_iff hm hi ha hl).mp hpause
      refine ⟨1, .of_broken_paused hi hne ho hfail, ?_, ?_⟩
      · rw [h1, firstLines_cons_of_pos hi]
        rfl
      · rw [h2, firstLines_cons_of_pos hi]
        rfl

/-! ## 4. No pauses -/

/-- Whether the move belongs to a pause. -/
def Move.isOfPause : Move → Bool
  | armed | parked _ | disarmed => true
  | told (.state s) => s = .paused
  | told (.log e) => e.kind = .pause
  | _ => false

theorem Plan.PerformMoves.isOfPause_eq (h : p.PerformMoves line i ms s) :
    ∀ m ∈ ms, m.isOfPause = false := by
  have hrest : ∀ {nanos : Nat} {ms : List Move} {s : Step}, RestMoves nanos ms s →
      ∀ m ∈ ms, m.isOfPause = false := by
    intro nanos ms s hr m hm
    cases hr <;> obtain rfl := List.mem_singleton.mp hm <;> rfl
  cases h with
  | waited _ hr => exact hrest hr
  | sent c result hr =>
    have hkind := kind_resultEntry_ne_pause c line p.timing.limit result
    simp only [List.forall_mem_cons]
    exact ⟨rfl, rfl, rfl, by simpa [Move.isOfPause] using hkind, hrest hr⟩
  | malformed | skipped | unconnected =>
    simp [Move.isOfPause, malformedEntry, skippedEntry, unconnectedEntry]

theorem isOfPause_closingMoves (cur : Option Nat) (o : RunOutcome) :
    ∀ m ∈ closingMoves cur o, m.isOfPause = false := by
  cases o <;> cases cur <;>
    simp [closingMoves, closingNotices, Move.isOfPause, Tracker.completedEntry,
      Tracker.stoppedEntry]

/-- **A run that goes on by itself never pauses.** -/
theorem Plan.RunMoves.isOfPause_eq (h : p.RunMoves last items cur ms o)
    (hm : p.mode = .continuous) : ∀ m ∈ ms, m.isOfPause = false := by
  have hline : ∀ {line : Nat} {i : Instruction} {ms : List Move} {s : Step},
      p.LineMoves last line i ms s → ∀ m ∈ ms, m.isOfPause = false := by
    intro line i ms s hl
    cases hl with
    | plain hp _ => exact hp.isOfPause_eq
    | paused _ hp _ => simp [pausesAfter, hm] at hp
  induction h with
  | completed => exact isOfPause_closingMoves _ _
  | stopped => exact List.forall_mem_cons.mpr ⟨rfl, isOfPause_closingMoves _ _⟩
  | passedOver _ _ ih => exact List.forall_mem_cons.mpr ⟨rfl, ih⟩
  | taken _ hl _ ih =>
    simp only [List.forall_mem_cons, List.forall_mem_append]
    exact ⟨rfl, rfl, hline hl, ih⟩
  | broken _ hl _ =>
    simp only [List.forall_mem_cons, List.forall_mem_append]
    exact ⟨rfl, rfl, hline hl, isOfPause_closingMoves _ _⟩

/-! ## 5. The pauses of a run -/

/-- What is shown does not matter to the opening of a run, which shows a running one. -/
theorem Plan.pauses_openingMoves (p : Plan) (sn : Snapshot) :
    pauseLinesOf p.openingMoves = [] ∧ pausedCursors sn (noticesOf p.openingMoves) = [] ∧
      (sn.hearAll (noticesOf p.openingMoves)).state = .running := by
  refine ⟨?_, rfl, rfl⟩
  simp [pauseLinesOf, entriesOf, noticesOf, openingMoves, Move.notice?, Notice.entry?, openingEntry]

/-- The pauses of a whole run that goes line by line, whatever is shown when it begins. -/
theorem Plan.pauses_of_ended {o : RunOutcome} (h : Course.Trace p.course ms (.ended (.ok o)))
    (hm : p.mode = .singleBlock) :
    ∃ m, PausesAfterFirst p.script.instructions o m ∧
      pauseLinesOf ms = firstLines p.script.instructions m ∧
      ∀ sn, pausedCursors sn (noticesOf ms) = firstLines p.script.instructions m := by
  rcases Plan.runMoves_of_trace h with ⟨-, hr⟩ | ⟨o', ms', ho, rfl, hr⟩
  · cases hr
  · obtain rfl : o = o' := Except.ok.inj ho
    have key := fun sn => hr.pauses_eq hm p.script.pairwise_instructions (fun _ => rfl)
      (p.pauses_openingMoves sn).2.2
    obtain ⟨m, hmo, hlog, -⟩ := key {}
    refine ⟨m, hmo, ?_, fun sn => ?_⟩
    · rw [pauseLinesOf_append, (p.pauses_openingMoves {}).1, hlog]
      rfl
    · obtain ⟨m', -, hlog', hshown⟩ := key sn
      rw [noticesOf_append, pausedCursors_append, (p.pauses_openingMoves sn).2.1, hshown, ← hlog',
        hlog]
      rfl

/-- What comes first of the first lines is the first lines again, perhaps fewer. -/
theorem firstLines_of_append {l₁ l₂ : List (Option Nat)} {m : Nat}
    (h : l₁ ++ l₂ = firstLines items m) : ∃ n ≤ m, l₁ = firstLines items n := by
  refine ⟨min l₁.length m, Nat.min_le_right _ _, ?_⟩
  have htake := congrArg (List.take l₁.length) h
  rw [List.take_left, firstLines, ← List.map_take, List.take_take] at htake
  exact htake

/-- The first executable lines of a script grow, so that none comes twice. -/
theorem nodup_firstLines (s : Script) (m : Nat) : (firstLines s.instructions m).Nodup := by
  have hgrow : (s.instructions.map (some ·.1)).Nodup := by
    have h := s.pairwise_instructions
    rw [List.pairwise_map] at h
    refine List.pairwise_map.mpr (h.imp fun hlt he => ?_)
    exact Nat.ne_of_lt hlt (Option.some.inj he)
  exact hgrow.sublist (((List.take_sublist _ _).trans List.filter_sublist).map _)

/-- The pauses of any whole run that goes line by line; one that is refused has none. -/
theorem Plan.exists_firstLines_of_ended {r : Except Refusal RunOutcome}
    (h : Course.Trace p.course ms (.ended r)) (hm : p.mode = .singleBlock) :
    ∃ m ≤ p.script.executableCount - 1, pauseLinesOf ms = firstLines p.script.instructions m ∧
      ∀ sn, pausedCursors sn (noticesOf ms) = firstLines p.script.instructions m := by
  cases r with
  | error e =>
    rcases Plan.runMoves_of_trace h with ⟨rfl, -⟩ | ⟨_, _, hr, -⟩
    · exact ⟨0, Nat.zero_le _, rfl, fun _ => rfl⟩
    · cases hr
  | ok o =>
    obtain ⟨m, hmo, hlog, hshown⟩ := Plan.pauses_of_ended h hm
    exact ⟨m, hmo.le, hlog, hshown⟩

/-- **Where a run pauses.**  For every script and timing and whatever the answers are: a run that
goes on by itself never pauses.  At every moment of a run that goes line by line, the lines of the
pauses in its log are the first executable lines of the script, each once, and at most all of them
but the last; so are the lines at which it was shown paused.  When it has ended with an outcome, the
log and the cursor name the same `m` lines.  They are all but the last if it completed.  If it
failed, the line at which it did is the executable line after those. -/
theorem pauses_of_run {p : Plan} {ms : List Move} {c : Course}
    (h : Course.Trace p.course ms c) :
    (p.mode = .continuous → ∀ m ∈ ms, m.isOfPause = false) ∧
      (p.mode = .singleBlock →
        ((∃ m ≤ p.script.executableCount - 1,
            pauseLinesOf ms = (p.script.executables.take m).map (some ·.1)) ∧
          ∀ sn, ∃ m ≤ p.script.executableCount - 1,
            pausedCursors sn (noticesOf ms) = (p.script.executables.take m).map (some ·.1)) ∧
        (pauseLinesOf ms).Nodup ∧ (∀ sn, (pausedCursors sn (noticesOf ms)).Nodup) ∧
        ∀ o, c = .ended (.ok o) → ∃ m ≤ p.script.executableCount - 1,
          pauseLinesOf ms = (p.script.executables.take m).map (some ·.1) ∧
          (∀ sn, pausedCursors sn (noticesOf ms) =
            (p.script.executables.take m).map (some ·.1)) ∧
          (o = .completed → m = p.script.executableCount - 1) ∧
          ∀ reason, o = .failed reason → ∃ line command,
            p.script.executables[m]? = some (line, .command command) ∧
              reason = unconnectedReason command line) := by
  obtain ⟨ms', r, h'⟩ := c.exists_trace
  have hwhole := h.append h'
  refine ⟨fun hm m hmem => ?_, fun hm => ?_⟩
  · rcases Plan.runMoves_of_trace hwhole with ⟨heq, -⟩ | ⟨o, ms₁, -, heq, hr⟩
    · obtain rfl := List.mem_singleton.mp (heq ▸ List.mem_append_left ms' hmem)
      rfl
    · rcases List.mem_append.mp (heq ▸ List.mem_append_left ms' hmem) with hopen | hrest
      · have hall : ∀ m ∈ p.openingMoves, m.isOfPause = false := by
          simp [Plan.openingMoves, Move.isOfPause, Plan.openingEntry]
        exact hall m hopen
      · exact hr.isOfPause_eq hm m hrest
  · have hfirst : (∃ m ≤ p.script.executableCount - 1,
          pauseLinesOf ms = firstLines p.script.instructions m) ∧
        ∀ sn, ∃ m ≤ p.script.executableCount - 1,
          pausedCursors sn (noticesOf ms) = firstLines p.script.instructions m := by
      obtain ⟨m, hle, hlog, hshown⟩ := Plan.exists_firstLines_of_ended hwhole hm
      rw [pauseLinesOf_append] at hlog
      refine ⟨?_, fun sn => ?_⟩
      · obtain ⟨n, hn, hlines⟩ := firstLines_of_append hlog
        exact ⟨n, hn.trans hle, hlines⟩
      · have hsn := hshown sn
        rw [noticesOf_append, pausedCursors_append] at hsn
        obtain ⟨n, hn, hlines⟩ := firstLines_of_append hsn
        exact ⟨n, hn.trans hle, hlines⟩
    refine ⟨hfirst, ?_, fun sn => ?_, ?_⟩
    · obtain ⟨⟨m, -, hlines⟩, -⟩ := hfirst
      rw [hlines]
      exact nodup_firstLines _ m
    · obtain ⟨m, -, hlines⟩ := hfirst.2 sn
      rw [hlines]
      exact nodup_firstLines _ m
    · rintro o rfl
      obtain ⟨m, hmo, hlog, hshown⟩ := Plan.pauses_of_ended h hm
      exact ⟨m, hmo.le, hlog, hshown, hmo.completed, hmo.failed⟩

/-- The moves of a run of `haltedPlan` at one of its commands, which gets no reply. -/
def unansweredMoves (device : String) (line : Nat) : List Move :=
  [.foundStop false, .told (.cursor (some line)), .foundDevice device true,
    .told (.log (sentEntry ⟨device, "home", ""⟩ line)), .called ⟨device, "home"⟩ (some 10000) none,
    .told (.log (resultEntry ⟨device, "home", ""⟩ line (some 10000) none)), .foundStop false]

/-- A run of `haltedPlan` that is continued after its pause and completes. -/
def continuedMoves : List Move :=
  haltedPlan.openingMoves ++ unansweredMoves "alpha" 0 ++
    [.foundStop false, .armed, .told (.state .paused), .told (.log (pauseEntry 0)), .parked .due,
      .disarmed, .told (.state .running), .foundStop false] ++
    unansweredMoves "bravo" 2 ++ closingMoves (some 2) .completed

theorem pauses_of_continued_run :
    Course.Trace haltedPlan.course continuedMoves (.ended (.ok .completed)) ∧
      haltedPlan.script.executableCount = 2 ∧ pauseLinesOf continuedMoves = [some 0] ∧
      pausedCursors {} (noticesOf continuedMoves) = [some 0] := by
  have h : Course.Trace haltedPlan.course continuedMoves (.ended (.ok .completed)) :=
    Course.trace_of_resultAfter? (by decide)
  obtain ⟨-, -, -, hended⟩ := (pauses_of_run h).2 rfl
  obtain ⟨m, -, hlog, hshown, hcompleted, -⟩ := hended .completed rfl
  obtain rfl : m = 1 := hcompleted rfl
  exact ⟨h, by decide, hlog, hshown {}⟩

end DeviceScript
