import DeviceScript.Proofs.Bench.Handles
import DeviceScript.Proofs.Bench.Hearing
import DeviceScript.Proofs.Bench.Outcome
import DeviceScript.Proofs.Bench.Slot
/-!
# One run at a time

A run is between its start and its end while it is going, and no other run is going then and none is
started.  So the runs come one after the other, and so does what they tell.  This is said about the
journal with a label on each of its lines, the run that was followed when it was written
(`Bench.chronicle`): the lines of a run are one piece, with the lines of the runs before it in front
of that and the lines of the runs after it behind, and what is heard in the piece is told along the
course of one script.  Between two pieces there is what resets tell.

The induction is on the turns.  What carries it is that the run that is going is the one started
last (`Bench.Newest`), so that a line of another run can only come from a later one.

`Bench.runs_take_turns` puts this together with what a request can do that is made of a run by its
handle after it has ended, which is nothing.
-/

namespace DeviceScript

/-- The run that is followed in a turn. -/
def Turn.run? : Turn → Option Nat
  | proceed _ run => some run
  | _ => none

namespace Bench

variable {b b' : Bench} {run other horizon : Nat} {p : Plan} {c c' : Course} {s : Stage}
  {ms : List Move} {js : List (Nat × Happening)} {o : RunOutcome}

/-! ## 1. The run that was started last -/

/-- No run was started after one that is going. -/
def Newest (b : Bench) : Prop :=
  ∀ run s, b.runner.progress? run = some (.going s) →
    ∀ other x, b.runner.progress? other = some x → other ≤ run

theorem Newest.congr (h : b.Newest)
    (hp : ∀ run, b'.runner.progress? run = b.runner.progress? run) : b'.Newest := by
  intro run s hs other x hx
  exact h run s ((hp run).symm.trans hs) other x ((hp other).symm.trans hx)

/-- A run that is started is the last one. -/
theorem IsResting.newest_start (h : b.IsResting) {course : Course} {r : Runner}
    (hr : b.runner.start? b.registry.hasAny course = .ok r) : (b.withRunner r).Newest := by
  obtain ⟨ha, -, -, hprog⟩ := Runner.start?_eq_ok hr
  intro run s hs other x hx
  have hs' : r.progress? run = some (.going s) := hs
  have hx' : r.progress? other = some x := hx
  rw [hprog] at hs' hx'
  split at hs'
  · rename_i hrun
    rw [hrun]
    split at hx'
    · rename_i hother
      exact Nat.le_of_eq hother
    · exact Nat.le_of_lt (Runner.lt_of_progress? hx')
  · have hactive := (h.ready run s hs').1
    rw [ha] at hactive
    cases hactive

theorem kept_newest : Kept ShowsNoLine (fun b => b.IsResting ∧ b.Newest) where
  observe {n b} hn h := ⟨kept_isResting.observe hn h.1, h.2.congr (goes_observe b n).progress⟩
  inform {m n b} h := by
    refine ⟨kept_isResting.inform h.1, h.2.congr fun _ => ?_⟩
    unfold inform
    split <;> rfl
  note h := ⟨kept_isResting.note h.1, h.2⟩
  control {tell} ht c b h := by
    rcases control_cases b tell c with ⟨b', a, hc, hcalm⟩ | ⟨p, r, hr, hc⟩ | ⟨-, ns, hr, hc⟩
    · rw [hc]
      refine ⟨h.1.goes hcalm.goes ?_, h.2.congr hcalm.progress⟩
      rw [hcalm.snapshot]
      exact h.1.cursor
    · rw [hc]
      exact ⟨h.1.start hr, h.1.newest_start hr⟩
    · rw [hc]
      exact keeps_tellAll ht (showsNoLine_of_mem_resetNotices? hr) h

theorem Newest.control (h : b.Newest) (hord : b.Orderly) (c : Control) :
    (b.turn (.control c)).Newest := by
  cases ha : b.runner.active with
  | none => exact (kept_newest.operate ⟨hord.isResting ha, h⟩ c).2
  | some run =>
    obtain ⟨b', a, hc, hcalm⟩ := calm_control (isBusy_of_active ha) (fun n b => b.tell n) c
    rw [turn, hc]
    exact h.congr hcalm.progress

theorem Newest.proceed (h : b.Newest) (hord : b.Orderly) (horizon run : Nat) :
    (b.proceed horizon run).Newest := by
  by_cases hg : ∃ s, b.runner.progress? run = some (.going s)
  · obtain ⟨s, hs⟩ := hg
    -- The other runs are where they were, and none of them is going.
    have hsame : ∀ other, run ≠ other →
        (b.proceed horizon run).runner.progress? other = b.runner.progress? other :=
      fun other hne => hord.progress?_proceed horizon hne
    intro going s' hs' other x hx
    have hrun : going = run := by
      by_contra hne
      rw [hsame going fun he => hne he.symm] at hs'
      exact hne ((hord.isSole hs).sole going s' hs')
    rw [hrun]
    by_cases hother : run = other
    · exact Nat.le_of_eq hother.symm
    · rw [hsame other hother] at hx
      exact h run s hs other x hx
  · rw [proceed_of_not_going (not_exists.mp hg)]
    exact h

theorem Newest.turn (h : b.Newest) (hord : b.Orderly) : ∀ t : Turn, (b.turn t).Newest
  | .control c => h.control hord c
  | .devices _ | .clock _ => h
  | .proceed horizon run => h.proceed hord horizon run

theorem Newest.after : ∀ {turns : List Turn} {b : Bench}, b.Newest → b.Orderly →
    (b.after turns).Newest
  | [], _, h, _ => h
  | t :: _, _, h, hord => (h.turn hord t).after (hord.turn t)

/-- **The run that is going is the one that was started last.** -/
theorem newest_of_isReachable (h : b.IsReachable) : b.Newest := by
  obtain ⟨logCapacity, timing, registry, gateway, members, nesting, turns, rfl⟩ := h
  have hnone : (create logCapacity timing registry gateway members nesting).Newest :=
    fun _ _ hs => by cases hs
  exact hnone.after (orderly_create logCapacity timing registry gateway members nesting)

/-! ## 2. No run is started while one is going -/

/-- A run that is followed is still there. -/
theorem isSome_progress?_proceed (hreach : b.IsReachable)
    (hs : b.runner.progress? run = some (.going s)) (horizon : Nat) :
    ((b.proceed horizon run).runner.progress? run).isSome = true := by
  obtain ⟨p, ms, granted, hstand⟩ := (gatesInOrder_of_isReachable hreach).going run s hs
  rcases hstand.proceed ((orderly_of_isReachable hreach).isSole hs) horizon with
    ⟨s', ms', js, h, -⟩ | ⟨o, ms', js, h⟩
  · rw [h.going]
    rfl
  · rw [h.outcome]
    rfl

/-- **While a run is going no run is started.** -/
theorem length_runs_turn (hreach : b.IsReachable)
    (hs : b.runner.progress? run = some (.going s)) (t : Turn) :
    (b.turn t).runner.runs.length = b.runner.runs.length := by
  have hord := orderly_of_isReachable hreach
  have hsole := hord.isSole hs
  refine Runner.length_eq_of_isSome fun other => ?_
  cases t with
  | control c =>
    obtain ⟨b', a, hc, hcalm⟩ := calm_control hsole.isBusy (fun n b => b.tell n) c
    rw [turn, hc, hcalm.progress]
  | devices | clock => rfl
  | proceed horizon followed =>
    rw [turn]
    by_cases hg : ∃ s, b.runner.progress? followed = some (.going s)
    · obtain ⟨s', hs'⟩ := hg
      by_cases hne : followed = other
      · rw [← hne, isSome_progress?_proceed hreach hs' horizon, hs']
        rfl
      · rw [hord.progress?_proceed horizon hne]
    · rw [proceed_of_not_going (not_exists.mp hg)]

/-- A run that was not started, or has made no move, stays such whatever is told. -/
theorem kept_unmoved (run : Nat) : Kept (fun _ => True)
    (fun b => ∀ x, b.runner.progress? run = some x → ∃ p : Plan, x = .going (.ready p.course)) where
  observe {n b} _ h x hx := h x (((goes_observe b n).progress run).symm.trans hx)
  inform {m n b} h := by
    unfold inform
    split <;> exact h
  note h := h
  control {tell} ht c b h := by
    rcases control_cases b tell c with ⟨b', a, hc, hcalm⟩ | ⟨p, r, hr, hc⟩ | ⟨-, ns, -, hc⟩
    · rw [hc]
      exact fun x hx => h x ((hcalm.progress run).symm.trans hx)
    · rw [hc]
      obtain ⟨-, -, -, hprog⟩ := Runner.start?_eq_ok hr
      intro x hx
      have hx' : r.progress? run = some x := hx
      rw [hprog] at hx'
      split at hx'
      · cases hx'
        exact ⟨p, rfl⟩
      · exact h x hx'
    · rw [hc]
      exact keeps_tellAll ht (fun _ _ => trivial) h

/-- **A run that is started in a turn makes no move in it.** -/
theorem unmoved_turn (hord : b.Orderly) (hnone : b.runner.progress? run = none) (t : Turn) :
    ∀ x, (b.turn t).runner.progress? run = some x → ∃ p : Plan, x = .going (.ready p.course) := by
  have unmoved : ∀ x, b.runner.progress? run = some x →
      ∃ p : Plan, x = .going (.ready p.course) := by
    intro x hx
    cases hnone.symm.trans hx
  cases t with
  | control c => exact (kept_unmoved run).operate unmoved c
  | devices | clock => exact unmoved
  | proceed horizon followed =>
    by_cases hne : followed = run
    · subst hne
      rw [turn, proceed_of_not_going fun s hs => by cases hnone.symm.trans hs]
      exact unmoved
    · rw [turn, hord.progress?_proceed horizon hne]
      exact unmoved

/-! ## 3. The journal with its labels -/

/-- What a turn writes into the journal. -/
def wrote (b : Bench) (t : Turn) : List (Nat × Happening) :=
  (b.turn t).journal.drop b.journal.length

/-- What is written into the journal in some turns, with the run that was followed then. -/
def chronicle : Bench → List Turn → List (Option Nat × (Nat × Happening))
  | _, [] => []
  | b, t :: turns => (b.wrote t).map (t.run?, ·) ++ chronicle (b.turn t) turns

theorem wrote_of_journal {t : Turn} (h : (b.turn t).journal = b.journal ++ js) :
    b.wrote t = js := by
  rw [wrote, h, List.drop_left]

/-- **The chronicle is the journal**, apart from its labels. -/
theorem journal_after : ∀ (turns : List Turn) (b : Bench),
    (b.after turns).journal = b.journal ++ (b.chronicle turns).map (·.2)
  | [], b => (List.append_nil b.journal).symm
  | t :: turns, b => by
    obtain ⟨js, hj⟩ := b.journal_isPrefix_turn t
    have hrest := journal_after turns (b.turn t)
    rw [chronicle, List.map_append, wrote_of_journal hj.symm, ← List.append_assoc]
    have hmap : (js.map (t.run?, ·)).map (·.2) = js := by
      rw [List.map_map]
      exact List.map_id js
    rw [hmap, hj]
    exact hrest

/-- A line of a run is written while it is going. -/
theorem going_of_mem_wrote {t : Turn} {e : Nat × Happening} (he : e ∈ b.wrote t)
    (hrun : t.run? = some run) : ∃ s, b.runner.progress? run = some (.going s) := by
  cases t with
  | control | devices | clock => cases hrun
  | proceed horizon followed =>
    cases hrun
    by_contra hg
    have hj : (b.turn (.proceed horizon run)).journal = b.journal ++ [] := by
      rw [turn, proceed_of_not_going (not_exists.mp hg), List.append_nil]
    rw [wrote_of_journal hj] at he
    cases he

/-! ## 4. One piece for each run -/

/-- What is written after the end of a run is about later runs, or about none. -/
theorem lt_of_mem_chronicle : ∀ {turns : List Turn} {b : Bench}, b.Orderly → b.Newest →
    b.runner.progress? run = some (.ended o) →
    ∀ e ∈ b.chronicle turns, ∀ other, e.1 = some other → run < other
  | [], _, _, _, _, e, he, _, _ => absurd he List.not_mem_nil
  | t :: _, b, hord, hnew, ho, e, he, other, hlabel => by
    rcases List.mem_append.mp he with he | he
    · obtain ⟨line, hline, rfl⟩ := List.mem_map.mp he
      obtain ⟨s, hs⟩ := going_of_mem_wrote hline hlabel
      refine Nat.lt_of_le_of_ne (hnew other s hs run _ ho) ?_
      rintro rfl
      cases ho.symm.trans hs
    · exact lt_of_mem_chronicle (hord.turn t) (hnew.turn hord t) (hord.ended_turn ho t) e he other
        hlabel

/-- **What the journal `js` says of a run that makes the moves `ms`.**  Every member hears what they
tell.  Or a listener breaks the run off, and then the first member hears that the run takes its
leave. -/
def Recounts (b : Bench) (ms : List Move) (js : List (Nat × Happening)) : Prop :=
  (∀ m, m < b.members.length → heardBy m js = noticesOf ms) ∨
    ¬ b.IsSteady ∧ ∃ report, heardBy 0 js = noticesOf ms ++ report ∧ ∀ n ∈ report, n.IsParting

theorem BreaksOff.recounts (h : b.BreaksOff ms js) : b.Recounts ms js := by
  obtain ⟨hs, ms₀, n, m, c, -, hm, -, hheard⟩ := h
  obtain ⟨report, hpre, hk⟩ := hheard 0 (Nat.zero_lt_of_lt hm)
  rw [if_pos (Nat.zero_le m)] at hk
  refine .inr ⟨hs, report, hk, fun n hn => ?_⟩
  have hmem := hpre.subset hn
  simp only [abortNotices, List.mem_cons, List.not_mem_nil, or_false] at hmem
  rcases hmem with rfl | rfl | rfl
  · trivial
  · rfl
  · exact ⟨nofun, nofun⟩

theorem StandsAt.isAt (h : b.StandsAt run p c s) : b.IsAt run p c :=
  .going h.going h.stands

/-- What is heard of a run that has ended is settled. -/
theorem Relates.after (h : b.Relates run p c js b') (hord : b'.Orderly)
    (ho : b'.runner.progress? run = some (.ended o)) (turns : List Turn) :
    b.Relates run p c js (b'.after turns) := by
  obtain ⟨ms, c', ht, ⟨hall, hat⟩ | ⟨hbreaks, reason, hfailed⟩⟩ := h
  · refine ⟨ms, c', ht, .inl ⟨hall, ?_⟩⟩
    cases hat with
    | going hs _ => cases ho.symm.trans hs
    | ended r hr => exact .ended r (hord.ended_after hr)
  · exact ⟨ms, c', ht, .inr ⟨hbreaks, reason, hord.ended_after hfailed⟩⟩

/-- The chronicle begins with the lines of the run, which goes along its course from the place `c`;
only lines of later runs come behind. -/
def Heads (b : Bench) (run : Nat) (p : Plan) (c : Course) (turns : List Turn) : Prop :=
  ∃ piece behind, b.chronicle turns = piece.map (some run, ·) ++ behind ∧
    (∀ e ∈ behind, ∀ other, e.1 = some other → run < other) ∧
    b.Relates run p c piece (b.after turns)

/-- A turn that writes lines of the run only, while it makes the moves `ms`. -/
theorem Records.heads {t : Turn} {turns : List Turn} (hr : b.Records ms js (b.turn t))
    (hjs : js = [] ∨ t.run? = some run) (ht : c.Trace ms c') (hord : b.Orderly)
    (h : (b.turn t).Heads run p c' turns) : b.Heads run p c (t :: turns) := by
  obtain ⟨piece, behind, hc, hbehind, hrelates⟩ := h
  have hlabel : js.map (t.run?, ·) = js.map (some run, ·) := by
    rcases hjs with rfl | hrun
    · rfl
    · rw [hrun]
  refine ⟨js ++ piece, behind, ?_, hbehind,
    HearsAll.relates hr.heard ht hr.size (hord.isSteady_turn · t) hrelates⟩
  rw [chronicle, wrote_of_journal hr.journal, hlabel, hc, List.map_append, List.append_assoc]

/-- **The lines of a run that is going come first**, and then those of later runs.  By induction on
the turns. -/
theorem StandsAt.heads : ∀ {turns : List Turn} {b : Bench} {c : Course} {s : Stage},
    b.StandsAt run p c s → b.Orderly → b.Newest → b.Heads run p c turns
  | [], b, c, s, h, _, _ =>
    ⟨[], [], rfl, fun _ he => absurd he List.not_mem_nil, [], c, .nil c,
      .inl ⟨fun _ _ => rfl, h.isAt⟩⟩
  | t :: turns, b, c, s, h, hord, hnew => by
    have hsole := hord.isSole h.going
    -- A turn in which nothing is written and the run stays where it is.
    have quiet : (b.turn t).StandsAt run p c s → b.Records [] [] (b.turn t) →
        b.Heads run p c (t :: turns) := fun h' hr =>
      hr.heads (.inl rfl) (.nil c) hord (h'.heads (hord.turn t) (hnew.turn hord t))
    cases t with
    | control ctl =>
      obtain ⟨b', a, hc, hcalm⟩ := calm_control hsole.isBusy (fun n b => b.tell n) ctl
      have hb' : b.turn (.control ctl) = b' := congrArg Prod.fst hc
      have hj : b'.journal = b.journal := hcalm.journal.trans (List.append_nil _)
      refine quiet ⟨?_, h.stands⟩ (.silent ?_ ?_ rfl) <;> rw [hb']
      · exact (hcalm.progress run).trans h.going
      · exact hcalm.size
      · exact hj
    | devices | clock => exact quiet ⟨h.going, h.stands⟩ (.silent rfl rfl rfl)
    | proceed horizon followed =>
      by_cases hne : run = followed
      · subst hne
        have hord' := hord.proceed horizon run
        have hnew' := hnew.proceed hord horizon run
        rcases h.proceed hord horizon with ⟨s', c', ms, js, h', ht, hr⟩ | ⟨js, hexp⟩
        · exact Records.heads (t := .proceed horizon run) hr (.inr rfl) ht hord
            (h'.heads hord' hnew')
        · obtain ⟨o, ho⟩ := hexp.ended
          have hj : (b.turn (.proceed horizon run)).journal = b.journal ++ js := hexp.journal
          refine ⟨js, (b.proceed horizon run).chronicle turns, ?_,
            lt_of_mem_chronicle hord' hnew' ho, hexp.relates.after hord' ho turns⟩
          rw [chronicle, wrote_of_journal hj]
          rfl
      · have he : b.turn (.proceed horizon followed) = b := by
          rw [Bench.turn, proceed_of_not_going fun s' hs' => hne (hsole.sole followed s' hs').symm]
        rw [he] at quiet
        exact quiet h (.silent rfl rfl rfl)

/-- The lines `piece` are those of the run among `l`, in one piece.  Those before it are about
earlier runs or about none, and those behind it about later runs or about none. -/
def IsPieceOf (run : Nat) (piece : List (Nat × Happening))
    (l : List (Option Nat × (Nat × Happening))) : Prop :=
  ∃ before behind, l = before ++ piece.map (some run, ·) ++ behind ∧
    (∀ e ∈ before, ∀ other, e.1 = some other → other < run) ∧
    ∀ e ∈ behind, ∀ other, e.1 = some other → run < other

/-- What is written before the start of the run is about earlier ones. -/
theorem IsPieceOf.cons {piece : List (Nat × Happening)} {t : Turn} {turns : List Turn}
    (hnone : b.runner.progress? run = none) (h : IsPieceOf run piece ((b.turn t).chronicle turns)) :
    IsPieceOf run piece (b.chronicle (t :: turns)) := by
  obtain ⟨before, behind, hc, hbefore, hbehind⟩ := h
  refine ⟨(b.wrote t).map (t.run?, ·) ++ before, behind, ?_, ?_, hbehind⟩
  · rw [chronicle, hc]
    simp only [List.append_assoc]
  · intro e he other hlabel
    rcases List.mem_append.mp he with he | he
    · obtain ⟨line, hline, rfl⟩ := List.mem_map.mp he
      obtain ⟨s, hs⟩ := going_of_mem_wrote hline hlabel
      refine Nat.lt_of_lt_of_le (Runner.lt_of_progress? hs) (Nat.le_of_not_lt fun hlt => ?_)
      have hsome : (b.runner.progress? run).isSome = true :=
        Runner.isSome_progress?.trans (decide_eq_true hlt)
      rw [hnone] at hsome
      cases hsome
    · exact hbefore e he other hlabel

/-- The lines of the run are one piece of the chronicle, and are told along the course of this plan
from its beginning. -/
def Speaks (b : Bench) (run : Nat) (p : Plan) (turns : List Turn) : Prop :=
  ∃ piece, IsPieceOf run piece (b.chronicle turns) ∧ b.Relates run p p.course piece (b.after turns)

theorem Heads.speaks {turns : List Turn} (h : b.Heads run p p.course turns) :
    b.Speaks run p turns := by
  obtain ⟨piece, behind, hc, hbehind, hrelates⟩ := h
  exact ⟨piece, ⟨[], behind, hc, fun _ he => absurd he List.not_mem_nil, hbehind⟩, hrelates⟩

theorem Speaks.cons {t : Turn} {turns : List Turn} (hord : b.Orderly)
    (hnone : b.runner.progress? run = none) (h : (b.turn t).Speaks run p turns) :
    b.Speaks run p (t :: turns) := by
  obtain ⟨piece, hpiece, hrelates⟩ := h
  have hnil : b.HearsAll [] [] := fun _ _ => rfl
  exact ⟨piece, hpiece.cons hnone,
    hnil.relates (.nil _) (size_turn b t) (hord.isSteady_turn · t) hrelates⟩

/-- In the course of the turns the run is started with this plan. -/
def Starts (b₀ : Bench) (turns : List Turn) (run : Nat) (p : Plan) : Prop :=
  ∃ earlier later, turns = earlier ++ later ∧
    (b₀.after earlier).runner.progress? run = some (.going (.ready p.course))

/-- A start that is accepted starts one run more. -/
theorem progress?_of_started {script : Script} {mode : RunMode}
    (h : b.answer (.start script mode) = .ok .started) :
    (b.turn (.control (.start script mode))).runner.progress? b.runner.runs.length =
      some (.going (.ready (Plan.course ⟨script, mode, b.timing⟩))) := by
  rw [turn, control]
  rw [answer, control] at h
  split
  · rename_i r hr
    obtain ⟨-, -, -, hprog⟩ := Runner.start?_eq_ok hr
    exact (hprog _).trans (if_pos rfl)
  · rename_i e he
    rw [he] at h
    cases h

/-- A run that is started in the course of these turns, but not before. -/
theorem Starts.tail {t : Turn} {turns : List Turn} (h : b.Starts (t :: turns) run p)
    (hnone : b.runner.progress? run = none) : (b.turn t).Starts turns run p := by
  obtain ⟨earlier, later, he, hp⟩ := h
  cases earlier with
  | nil => cases hnone.symm.trans hp
  | cons t' earlier =>
    obtain ⟨rfl, rfl⟩ := List.cons.inj he
    exact ⟨earlier, later, rfl, hp⟩

/-- A run stays on the course with which it was started. -/
theorem StandsAt.course_eq {p' : Plan} {turns : List Turn} (h : b.StandsAt run p c s)
    (hord : b.Orderly) (hnew : b.Newest) (hp : b.Starts turns run p') : p'.course = p.course := by
  obtain ⟨earlier, -, -, hs⟩ := hp
  have hheads : b.Heads run p c earlier := h.heads hord hnew
  obtain ⟨-, -, -, -, ms, c', -, ⟨-, hat⟩ | ⟨-, reason, hfailed⟩⟩ := hheads
  · cases hat with
    | going hs' hstands =>
      cases hs.symm.trans hs'
      generalize p'.course = course at hstands
      cases hstands
      rfl
    | ended r hr => cases hs.symm.trans hr
  · cases hs.symm.trans hfailed

/-- **The lines of a run are one piece of the chronicle**, told from the beginning of the course with
which it was started; of a run that was not started there are none.  By induction on the turns up to
the start of the run. -/
theorem exists_speaks (run : Nat) : ∀ (turns : List Turn) {b : Bench}, b.IsReachable →
    b.runner.progress? run = none →
    (IsPieceOf run [] (b.chronicle turns) ∧ ∀ p, ¬ b.Starts turns run p) ∨
      ∃ p, b.Starts turns run p ∧ b.Speaks run p turns ∧
        ∀ p', b.Starts turns run p' → p'.course = p.course
  | [], b, _, hnone => by
    refine .inl ⟨⟨[], [], rfl, ?_, ?_⟩, ?_⟩
    · exact fun _ he => absurd he List.not_mem_nil
    · exact fun _ he => absurd he List.not_mem_nil
    rintro p ⟨earlier, later, he, hs⟩
    obtain ⟨rfl, -⟩ := List.append_eq_nil_iff.mp he.symm
    cases hnone.symm.trans hs
  | t :: turns, b, hreach, hnone => by
    have hord := orderly_of_isReachable hreach
    have hreach' := hreach.after [t]
    cases hrun : (b.turn t).runner.progress? run with
    | none =>
      rcases exists_speaks run turns hreach' hrun with
        ⟨hpiece, hnot⟩ | ⟨p, ⟨earlier, later, he, hs⟩, hspeaks, hp⟩
      · exact .inl ⟨hpiece.cons hnone, fun p hp => hnot p (hp.tail hnone)⟩
      · exact .inr ⟨p, ⟨t :: earlier, later, congrArg (t :: ·) he, hs⟩, hspeaks.cons hord hnone,
          fun p' hp' => hp p' (hp'.tail hnone)⟩
    | some x =>
      obtain ⟨p, rfl⟩ := unmoved_turn hord hnone t x hrun
      have hord' := hord.turn t
      have hnew' := newest_of_isReachable hreach'
      have hstands : (b.turn t).StandsAt run p p.course (.ready p.course) := ⟨hrun, .ready⟩
      exact .inr ⟨p, ⟨[t], turns, rfl, hrun⟩, (hstands.heads hord' hnew').speaks.cons hord hnone,
        fun p' hp' => hstands.course_eq hord' hnew' (hp'.tail hnone)⟩

/-- Plans with the same course may be exchanged. -/
theorem Relates.congr {p' : Plan} (h : b.Relates run p p.course js b') (hc : p'.course = p.course) :
    b.Relates run p' p'.course js b' := by
  obtain ⟨ms, c, ht, hcases⟩ := h
  refine ⟨ms, c, hc ▸ ht, hcases.imp_left fun ⟨hall, hat⟩ => ⟨hall, ?_⟩⟩
  cases hat with
  | ended r hr => exact .ended r hr
  | going hs hstands =>
    refine .going hs ?_
    cases hstands with
    | ready =>
      rw [← hc]
      exact .ready
    | resting => exact .resting _ _ _
    | calling => exact .calling _ _ _ _ _
    | parked => exact .parked _

/-- **What a run says that was started with some plan** is told along the course of that plan. -/
theorem Starts.speaks {turns : List Turn} (h : b.Starts turns run p) (hreach : b.IsReachable)
    (hnone : b.runner.progress? run = none) : b.Speaks run p turns := by
  rcases exists_speaks run turns hreach hnone with ⟨-, hnot⟩ | ⟨p', -, ⟨piece, hpiece, hrelates⟩, hp'⟩
  · exact absurd h (hnot p)
  · exact ⟨piece, hpiece, hrelates.congr (hp' p h)⟩

/-! ## 5. The law of exclusion -/

/-- **A request made of a run that has ended** is without effect. -/
theorem answer_of_handle {c : Control} (hreach : b.IsReachable)
    (ho : b.runner.progress? run = some (.ended o)) (hc : IsOnHandle run c) :
    (c = .continueThe run → b.answer c = .ok (.flag false)) ∧
      ∀ later, (∃ x, (b.turn (.control c)).after later = (b.after later).setSignals run x) ∧
        ∀ c', ((b.turn (.control c)).after later).answer c' = (b.after later).answer c' := by
  refine ⟨?_, fun later => ?_⟩
  · rintro rfl
    have hasks : b.Asks run (.continueThe run) := ⟨decide_eq_true rfl, nofun⟩
    exact (answer_of_ended hreach ho hasks).1
  · have hg := (gatesInOrder_of_isReachable hreach).ended run o ho
    have htwins : OnRunners (Runner.Twins run) (b.after later) ((b.turn (.control c)).after later) :=
      (twins_turn ho hg hc).after (Runner.congruence_twins run)
    refine ⟨?_, htwins.answer_eq (Runner.congruence_twins run)⟩
    obtain ⟨r, hr, -, -, x, -, rfl⟩ := htwins
    exact ⟨x, hr⟩

/-- **Runs take turns.**  On a bench on which nothing has happened anything may happen, in any
order, whatever the listeners do meanwhile; it is `b` then.

At most one run is going, and while it is, no other is started.  The journal is the chronicle of
these turns, and in it the lines of each run are one piece, told from the beginning of the course of
one script.

A stop or a continue that is asked for by the handle of a run that has ended changes nothing, at
once or later, but what is written down about requests made of that very run.  So what every other
run does, its outcome, what it hands over and its pauses are as they would have been, what members
hear, and what the runner shows and answers.  The continue is answered with no. -/
theorem runs_take_turns {b₀ b : Bench} {logCapacity : Nat} {timing : Timing} {registry : Registry}
    {gateway : Gateway} {members : List Member} {nesting : Nat} {turns : List Turn}
    (hb₀ : b₀ = create logCapacity timing registry gateway members nesting)
    (hb : b = b₀.after turns) :
    (∀ run s, b.runner.progress? run = some (.going s) →
      (∀ other s', b.runner.progress? other = some (.going s') → other = run) ∧
      (∀ script mode, b.answer (.start script mode) = .ok (.notStarted .runAlreadyActive)) ∧
      ∀ t, (b.turn t).runner.runs.length = b.runner.runs.length) ∧
    b.journal = (b₀.chronicle turns).map (·.2) ∧
    (∀ run, ∃ (piece : List (Nat × Happening)) (p : Plan) (ms : List Move) (c : Course),
      IsPieceOf run piece (b₀.chronicle turns) ∧ p.course.Trace ms c ∧ b₀.Recounts ms piece) ∧
    ∀ run o c, b.outcome? run = some o → IsOnHandle run c →
      (c = .continueThe run → b.answer c = .ok (.flag false)) ∧
      ∀ later, (∃ x, (b.turn (.control c)).after later = (b.after later).setSignals run x) ∧
        ∀ c', ((b.turn (.control c)).after later).answer c' = (b.after later).answer c' := by
  have hreach₀ : b₀.IsReachable := hb₀ ▸ isReachable_create _ _ _ _ _ _
  have hreach : b.IsReachable := hb ▸ hreach₀.after turns
  have hord := orderly_of_isReachable hreach
  refine ⟨fun run s hs =>
      ⟨(hord.isSole hs).sole, fun script mode => ?_, length_runs_turn hreach hs⟩,
    ?_, fun run => ?_, fun run o c ho hc => answer_of_handle hreach (progress?_of_outcome? ho) hc⟩
  · rw [answer_start, (hord.isSole hs).active]
    rfl
  · rw [hb, journal_after turns, hb₀]
    rfl
  · have hnone : b₀.runner.progress? run = none := by
      rw [hb₀]
      rfl
    rcases exists_speaks run turns hreach₀ hnone with
      ⟨hpiece, -⟩ | ⟨p, -, ⟨piece, hpiece, ms, c, ht, ⟨hall, -⟩ | ⟨hbreaks, -⟩⟩, -⟩
    · exact ⟨[], ⟨⟨none, []⟩, .continuous, {}⟩, [], _, hpiece, .nil _, .inl fun _ _ => rfl⟩
    · exact ⟨piece, p, ms, c, hpiece, ht, .inl hall⟩
    · exact ⟨piece, p, ms, c, hpiece, ht, hbreaks.recounts⟩

/-- Two runs: the first one has come to its end, and the second one waits at a pause. -/
def inTurn : List Turn :=
  [.control (.start ⟨none, ["alpha.home"]⟩ .continuous), .proceed 1000 0,
    .control (.start twoLinesPlan.script twoLinesPlan.mode), .proceed 2000 1]

/-- A continue for the second run, which is then followed to its end. -/
def toTheEnd : List Turn :=
  [.control .continueRun, .proceed 3000 1]

theorem turns_of_second_run :
    (watched.after inTurn).outcome? 0 = some .completed ∧
      (watched.after inTurn).isParked 1 = true ∧
      (watched.after inTurn).answer (.continueThe 0) = .ok (.flag false) ∧
      (watched.after inTurn).answer (.start ⟨none, []⟩ .continuous) =
        .ok (.notStarted .runAlreadyActive) ∧
      ∀ c, IsOnHandle 0 c →
        (((watched.after inTurn).turn (.control c)).after toTheEnd).outcome? 1 =
          some .completed := by
  have ho : (watched.after inTurn).outcome? 0 = some .completed := by decide +kernel
  have hparked : (watched.after inTurn).isParked 1 = true := by decide +kernel
  have hend : ((watched.after inTurn).after toTheEnd).outcome? 1 = some .completed := by
    decide +kernel
  obtain ⟨next, hs⟩ := exists_of_isParked hparked
  obtain ⟨hgoing, -, -, hhandle⟩ :=
    runs_take_turns (Eq.refl watched) (Eq.refl (watched.after inTurn))
  refine ⟨ho, hparked, (hhandle 0 _ (.continueThe 0) ho (.inr rfl)).1 rfl, (hgoing 1 _ hs).2.1 _ _,
    fun c hc => ?_⟩
  obtain ⟨⟨x, hx⟩, -⟩ := (hhandle 0 _ c ho hc).2 toTheEnd
  rw [hx, outcome?, setSignals, withRunner, Runner.progress?_setSignals]
  exact hend

end Bench

end DeviceScript
