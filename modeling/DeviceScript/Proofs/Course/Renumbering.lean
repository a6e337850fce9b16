import DeviceScript.Proofs.Course.Clock
import DeviceScript.Proofs.Course.Modes
import Mathlib.Data.List.Nodup
/-!
# Blank lines and comments

A run does nothing at a blank line or a comment, so it does not matter where they stand.  Take two
scripts with the same executable lines in the same order, and let each run in the same scene.  Then
the runs do the same at the same moments: they hand over the same commands, pass through the same
states, pause as often and end alike.  What they show and log differs in the numbers of lines, which
are those of the same executable lines in the one script and in the other, and in the texts that name
them (`same_run_without_padding`).

This is a simulation of two courses (`Course.Alike`).  It passes over the question for a stop on
either side alone, since that is all that a run does at a blank line, and takes every other step on
both sides; so it is enough to relate the courses line by line (`alike_lines`), and what follows for
their runs is proved once (`Course.Alike.agree`).  The last executable line, after which a run does
not pause, is the same line in both scripts, because the numbers of executable lines are turned into
each other one by one.
-/

namespace DeviceScript

open Course

variable {f : Nat → Nat}

/-! ## 1. Courses that are alike -/

/-- Notices that are the same but for the numbers of lines, which `f` turns into one another, and for
the texts of log entries. -/
inductive Notice.Alike (f : Nat → Nat) : Notice → Notice → Prop
  | started (name : Option String) : Alike f (.started name) (.started name)
  | state (s : RunState) : Alike f (.state s) (.state s)
  | cursor (line : Option Nat) : Alike f (.cursor line) (.cursor (line.map f))
  | log {e e' : Log.Entry} (hkind : e'.kind = e.kind) (hdevice : e'.device = e.device)
      (hline : e'.line = e.line.map f) : Alike f (.log e) (.log e')

namespace Course

/-- How a run has come out, leaving aside why it failed, if it has ended. -/
def verdict? : Course → Option (Except Refusal RunState)
  | ended r => some (r.map RunOutcome.state)
  | _ => none

/-- The request whose reply the run waits for. -/
def pending? : Course → Option Request
  | call request _ _ => some request
  | _ => none

/-- Courses along which a run that nobody stops does the same, but for the numbers of lines and for
texts.  A question for a stop may stand on one side only. -/
inductive Alike (f : Nat → Nat) : Course → Course → Prop
  | ended {r r' : Except Refusal RunOutcome}
      (h : r'.map RunOutcome.state = r.map RunOutcome.state) : Alike f (.ended r) (.ended r')
  | tell {n n' : Notice} {c c' : Course} (hn : Notice.Alike f n n') (h : Alike f c c') :
      Alike f (.tell n c) (.tell n' c')
  | askAny {next next' : Bool → Course} (h : ∀ a, Alike f (next a) (next' a)) :
      Alike f (.askAny next) (.askAny next')
  | askDevice {name : String} {next next' : Bool → Course} (h : ∀ a, Alike f (next a) (next' a)) :
      Alike f (.askDevice name next) (.askDevice name next')
  | passLeft {next : Bool → Course} {c' : Course} (h : Alike f (next false) c') :
      Alike f (.askStop next) c'
  | passRight {c : Course} {next' : Bool → Course} (h : Alike f c (next' false)) :
      Alike f c (.askStop next')
  | rest {nanos : Nat} {next next' : Wake → Course} (h : Alike f (next .due) (next' .due)) :
      Alike f (.rest nanos next) (.rest nanos next')
  | call {request : Request} {limit : Option Nat} {next next' : Option CallResult → Course}
      (h : ∀ r, Alike f (next r) (next' r)) :
      Alike f (.call request limit next) (.call request limit next')
  | arm {c c' : Course} (h : Alike f c c') : Alike f (.arm c) (.arm c')
  | park {next next' : Wake → Course} (h : Alike f (next .due) (next' .due)) :
      Alike f (.park next) (.park next')
  | disarm {c c' : Course} (h : Alike f c c') : Alike f (.disarm c) (.disarm c')

end Course

/-- Runs that begin at the same moment and do the same, but for the numbers of lines and for texts;
`d` and `d'` are what is left of their courses. -/
structure Agreement (f : Nat → Nat) (now : Nat) (qs qs' : List Passage) (d d' : Course) : Prop where
  encounters : encountersOf qs' = encountersOf qs
  finish : finishOf now qs' = finishOf now qs
  notices : List.Forall₂ (Notice.Alike f) (noticesOf (movesOf qs)) (noticesOf (movesOf qs'))
  verdict : d'.verdict? = d.verdict?
  pending : d'.pending? = d.pending?

namespace Scene

variable {s : Scene} {past : List Passage} {now : Nat} {qs qs' : List Passage} {q : Passage}
  {c c₁ c' c₁' d d' : Course}

/-- Whole runs of two courses agree that begin at the same moment and of which the scene has seen the
same. -/
def Agree (s : Scene) (f : Nat → Nat) (c c' : Course) : Prop :=
  ∀ {past now qs qs' d d'}, s.WholeRun past now c qs d → s.WholeRun past now c' qs' d' →
    Agreement f now qs qs' d d'

/-- A whole run makes a move that the scene does not see. -/
theorem WholeRun.step_unseen (h : s.WholeRun past now c qs d) (hm : Moves c q.move c₁)
    (hq : q.start = now) (hg : s.Gives past q) (hseen : encountersOf [q] = []) :
    ∃ qs', qs = q :: qs' ∧ s.WholeRun past q.finish c₁ qs' d := by
  obtain ⟨qs', rfl, h'⟩ := h.step hm hq hg
  rw [hseen, List.append_nil] at h'
  exact ⟨qs', rfl, h'⟩

/-- Runs agree that make the same move, in which they tell nothing, and agree from there on. -/
theorem Agree.of_step (h : s.Agree f c₁ c₁') (hm : Moves c q.move c₁) (hm' : Moves c' q.move c₁')
    (hq : q.start = now) (hg : s.Gives past q) (hn : q.move.notice? = none)
    (hrun : s.WholeRun past now c qs d) (hrun' : s.WholeRun past now c' qs' d') :
    Agreement f now qs qs' d d' := by
  obtain ⟨qs, rfl, hrest⟩ := hrun.step hm hq hg
  obtain ⟨qs', rfl, hrest'⟩ := hrun'.step hm' hq hg
  have ha := h hrest hrest'
  have hnone : ∀ qs, noticesOf (movesOf (q :: qs)) = noticesOf (movesOf qs) :=
    fun _ => List.filterMap_cons_none hn
  refine ⟨?_, ha.finish, by rw [hnone, hnone]; exact ha.notices, ha.verdict, ha.pending⟩
  calc encountersOf (q :: qs') = encountersOf [q] ++ encountersOf qs' :=
        encountersOf_append [q] qs'
    _ = encountersOf [q] ++ encountersOf qs := by rw [ha.encounters]
    _ = encountersOf (q :: qs) := (encountersOf_append [q] qs).symm

/-- Runs agree of courses that are stuck alike. -/
theorem agree_of_isStuck (hs : s.IsStuck past now c) (hs' : s.IsStuck past now c')
    (hv : c'.verdict? = c.verdict?) (hp : c'.pending? = c.pending?)
    (hrun : s.WholeRun past now c qs d) (hrun' : s.WholeRun past now c' qs' d') :
    Agreement f now qs qs' d d' := by
  obtain ⟨rfl, rfl⟩ := hrun.eq_nil hs
  obtain ⟨rfl, rfl⟩ := hrun'.eq_nil hs'
  exact ⟨rfl, rfl, .nil, hv, hp⟩

end Scene

/-- **Courses that are alike have runs that agree.**  By induction on how the courses are alike: each
step is the next move of both runs, or a question for a stop, which takes no time and is not seen, in
one of them. -/
theorem Course.Alike.agree {s : Scene} {c c' : Course} (h : Course.Alike f c c') :
    s.Agree f c c' := by
  induction h with
  | ended hr =>
    exact Scene.agree_of_isStuck Scene.isStuck_ended Scene.isStuck_ended (congrArg some hr) rfl
  | @tell n n' _ _ hn _ ih =>
    intro past now qs qs' d d' hrun hrun'
    obtain ⟨qs, rfl, hrest⟩ := hrun.step_unseen (q := ⟨.told n, now, now⟩) .tell rfl rfl rfl
    obtain ⟨qs', rfl, hrest'⟩ := hrun'.step_unseen (q := ⟨.told n', now, now⟩) .tell rfl rfl rfl
    have ha := ih hrest hrest'
    exact ⟨ha.encounters, ha.finish, .cons hn ha.notices, ha.verdict, ha.pending⟩
  | passLeft _ ih =>
    intro past now qs qs' d d' hrun hrun'
    obtain ⟨qs, rfl, hrest⟩ :=
      hrun.step_unseen (q := ⟨.foundStop false, now, now⟩) (.askStop false) rfl ⟨rfl, rfl⟩ rfl
    have ha := ih hrest hrun'
    exact ⟨ha.encounters, ha.finish, ha.notices, ha.verdict, ha.pending⟩
  | passRight _ ih =>
    intro past now qs qs' d d' hrun hrun'
    obtain ⟨qs', rfl, hrest'⟩ :=
      hrun'.step_unseen (q := ⟨.foundStop false, now, now⟩) (.askStop false) rfl ⟨rfl, rfl⟩ rfl
    have ha := ih hrun hrest'
    exact ⟨ha.encounters, ha.finish, ha.notices, ha.verdict, ha.pending⟩
  | askAny _ ih =>
    intro past now qs qs' d d'
    exact Scene.Agree.of_step (ih _) (q := ⟨.foundAny (s.hasAny past now), now, now⟩)
      (.askAny _) (.askAny _) rfl ⟨rfl, rfl⟩ rfl
  | @askDevice name _ _ _ ih =>
    intro past now qs qs' d d'
    exact Scene.Agree.of_step (ih _)
      (q := ⟨.foundDevice name (s.isConnected past now name), now, now⟩)
      (.askDevice _) (.askDevice _) rfl ⟨rfl, rfl⟩ rfl
  | @rest nanos _ _ _ ih =>
    intro past now qs qs' d d'
    exact Scene.Agree.of_step ih (q := ⟨.rested nanos .due, now, now + nanos⟩)
      (.rest _) (.rest _) rfl ⟨rfl, rfl⟩ rfl
  | @call request limit _ _ _ ih =>
    intro past now qs qs' d d'
    cases hl : (s.handle past now request).limited limit with
    | mk t result =>
      cases t with
      | none =>
        exact Scene.agree_of_isStuck (Scene.isStuck_call (by rw [hl]))
          (Scene.isStuck_call (by rw [hl])) rfl rfl
      | some ms =>
        exact Scene.Agree.of_step (ih _)
          (q := ⟨.called request limit result, now, now + ms * 1000000⟩)
          (.call _) (.call _) rfl ⟨ms, hl, rfl⟩ rfl
  | arm _ ih =>
    intro past now qs qs' d d'
    exact Scene.Agree.of_step ih (q := ⟨.armed, now, now⟩) .arm .arm rfl rfl rfl
  | park _ ih =>
    intro past now qs qs' d d'
    cases hp : s.patience past now with
    | none => exact Scene.agree_of_isStuck (Scene.isStuck_park hp) (Scene.isStuck_park hp) rfl rfl
    | some nanos =>
      exact Scene.Agree.of_step ih (q := ⟨.parked .due, now, now + nanos⟩)
        (.park _) (.park _) rfl ⟨rfl, nanos, hp, rfl⟩ rfl
  | disarm _ ih =>
    intro past now qs qs' d d'
    exact Scene.Agree.of_step ih (q := ⟨.disarmed, now, now⟩) .disarm .disarm rfl rfl rfl

/-! ## 2. What alike notices say -/

/-- What a log entry says apart from its text. -/
def Log.Entry.outline (e : Log.Entry) : Log.Kind × Option String × Option Nat :=
  (e.kind, e.device, e.line)

section Notices

variable {n n' : Notice} {ns ns' : List Notice} {ms ms' : List Move}

/-- What alike notices say one by one, alike lists of them say one after the other. -/
theorem filterMap_of_alike {α : Type} {g : Notice → Option α} {h : α → α}
    (hg : ∀ {n n'}, Notice.Alike f n n' → g n' = (g n).map h)
    (hns : List.Forall₂ (Notice.Alike f) ns ns') :
    ns'.filterMap g = (ns.filterMap g).map h := by
  induction hns with
  | nil => rfl
  | @cons n n' _ _ hn _ ih =>
    rw [List.filterMap_cons, List.filterMap_cons, hg hn, ih]
    cases g n <;> rfl

theorem statesOf_of_alike
    (h : List.Forall₂ (Notice.Alike f) (noticesOf ms) (noticesOf ms')) :
    statesOf ms' = statesOf ms := by
  have hstate : ∀ {n n'}, Notice.Alike f n n' → n'.state? = n.state?.map id := by
    intro n n' hn
    cases hn <;> rfl
  rw [statesOf, filterMap_of_alike hstate h, List.map_id]
  rfl

theorem cursorsOf_of_alike
    (h : List.Forall₂ (Notice.Alike f) (noticesOf ms) (noticesOf ms')) :
    cursorsOf ms' = (cursorsOf ms).map (Option.map f) := by
  refine filterMap_of_alike (fun hn => ?_) h
  cases hn <;> rfl

theorem outlines_of_alike
    (h : List.Forall₂ (Notice.Alike f) (noticesOf ms) (noticesOf ms')) :
    (entriesOf ms').map Log.Entry.outline =
      ((entriesOf ms).map Log.Entry.outline).map fun (kind, device, line) =>
        (kind, device, line.map f) := by
  rw [entriesOf, entriesOf, List.map_filterMap, List.map_filterMap]
  refine filterMap_of_alike (fun hn => ?_) h
  cases hn with
  | log hkind hdevice hline => simp [Notice.entry?, Log.Entry.outline, hkind, hdevice, hline]
  | _ => rfl

theorem pauseLinesOf_of_alike
    (h : List.Forall₂ (Notice.Alike f) (noticesOf ms) (noticesOf ms')) :
    pauseLinesOf ms' = (pauseLinesOf ms).map (Option.map f) := by
  have hlines : ∀ ms, pauseLinesOf ms =
      (((entriesOf ms).map Log.Entry.outline).filter (·.1 = .pause)).map (·.2.2) := by
    intro ms
    rw [pauseLinesOf, List.filter_map, List.map_map]
    rfl
  rw [hlines, hlines, outlines_of_alike h, List.filter_map, List.map_map, List.map_map]
  rfl

end Notices

/-- The requests that a run hands over are among what the scene sees. -/
theorem requestsOf_encountersOf (qs : List Passage) :
    requestsOf (movesOf (encountersOf qs)) = requestsOf (movesOf qs) := by
  rw [requestsOf, requestsOf, movesOf, movesOf, List.filterMap_map, List.filterMap_map,
    encountersOf, List.filterMap_filter]
  refine List.filterMap_congr fun q _ => ?_
  cases q with
  | mk m start finish => cases m <;> rfl

/-! ## 3. Alike courses -/

/-- The tracker with another number for its line. -/
def Tracker.renumber (f : Nat → Nat) (t : Tracker) : Tracker :=
  { t with cursor := t.cursor.map f }

namespace Course.Alike

variable {t : Tracker} {next next' : Tracker → Course} {o o' : RunOutcome}

/-- Moves to a line on both sides, if it is another line on both sides. -/
theorem moveTo (line : Option Nat) (hline : t.cursor.map f = line.map f → t.cursor = line)
    (h : Alike f (next { t with cursor := line })
      (next' (Tracker.renumber f { t with cursor := line }))) :
    Alike f (t.moveTo line next) ((t.renumber f).moveTo (line.map f) next') := by
  by_cases hc : t.cursor = line
  · subst hc
    rw [Tracker.moveTo, Tracker.moveTo, if_pos rfl, if_pos (by rfl)]
    exact h
  · rw [Tracker.moveTo_eq hc, Tracker.moveTo_eq (t := t.renumber f) (mt hline hc)]
    exact .tell (.cursor line) h

/-- The end of runs that come out alike. -/
theorem finish (ho : o'.state = o.state) : Alike f (t.finish o) ((t.renumber f).finish o') :=
  moveTo none Option.map_eq_none_iff.mp (.ended (congrArg Except.ok ho))

/-- The same state entered on both sides. -/
theorem enter {s : RunState}
    (h : Alike f (next { t with state := s }) (next' (Tracker.renumber f { t with state := s }))) :
    Alike f (t.enter s next) ((t.renumber f).enter s next') := by
  have hstate : (t.renumber f).state = t.state := rfl
  rw [Tracker.enter, Tracker.enter, hstate]
  cases hb : t.state.become? s with
  | ok s' =>
    obtain ⟨-, rfl⟩ := RunState.become?_eq_ok_iff.mp hb
    exact .tell (.state _) h
  | error e =>
    exact .tell (.log rfl rfl rfl) <| .tell (.state _) <|
      moveTo (t := { t with state := .failed }) none Option.map_eq_none_iff.mp
        (.ended rfl)

/-- The last steps of runs that come out alike. -/
theorem conclude (ho : o'.state = o.state) : Alike f (t.conclude o) ((t.renumber f).conclude o') := by
  cases o with
  | completed =>
    cases o' with
    | completed =>
      rw [Tracker.conclude, Tracker.conclude]
      refine enter ?_
      exact .tell (.log rfl rfl rfl) (finish rfl)
    | stopped | failed => cases ho
  | stopped =>
    cases o' with
    | stopped =>
      rw [Tracker.conclude, Tracker.conclude]
      refine enter ?_
      refine enter ?_
      exact .tell (.log rfl rfl rfl) (finish rfl)
    | completed | failed => cases ho
  | failed =>
    cases o' with
    | failed =>
      rw [Tracker.conclude, Tracker.conclude]
      refine enter ?_
      exact finish rfl
    | completed | stopped => cases ho

/-- A rest, from which nobody wakes the run. -/
theorem rest_unless_stopped {nanos : Nat} {next next' : Step → Course}
    (h : Alike f (next .goOn) (next' .goOn)) :
    Alike f (restUnlessStopped nanos next) (restUnlessStopped nanos next') := by
  unfold restUnlessStopped
  split
  · exact .passLeft (.passRight h)
  · exact .rest h

/-- A pause, which is continued or lasts for ever. -/
theorem pause {line : Nat} {next next' : Tracker → Wake → Course}
    (h : Alike f (next { t with state := .running } .due)
      (next' (Tracker.renumber f { t with state := .running }) .due)) :
    Alike f (t.pause line next) ((t.renumber f).pause (f line) next') := by
  refine .passLeft (.passRight (.arm ?_))
  refine enter ?_
  refine .tell (.log rfl rfl rfl) (.park (.disarm ?_))
  exact enter h

/-- What a line asks for.  The text of a failure names the line. -/
theorem perform {p p' : Plan} (ht : p'.timing = p.timing) {line : Nat} {i : Instruction}
    {next next' : Step → Course} (hgo : Alike f (next .goOn) (next' .goOn))
    (hfail : ∀ reason reason', Alike f (next (.fail reason)) (next' (.fail reason'))) :
    Alike f (p.perform line i next) (p'.perform (f line) i next') := by
  cases i with
  | blank | comment => exact hgo
  | wait seconds =>
    simp only [Plan.perform]
    split
    · exact rest_unless_stopped hgo
    · exact .tell (.log rfl rfl rfl) hgo
  | command c =>
    refine .askDevice fun connected => ?_
    cases connected with
    | false => exact .tell (.log rfl rfl rfl) (hfail _ _)
    | true =>
      have hresult : ∀ r, Notice.Alike f (.log (resultEntry c line p.timing.limit r))
          (.log (resultEntry c (f line) p.timing.limit r)) := by
        intro r
        unfold resultEntry
        split <;> exact .log rfl rfl rfl
      simp only [if_true, Plan.send, ht]
      exact .tell (.log rfl rfl rfl) (.call fun r => .tell (hresult r) (rest_unless_stopped hgo))
  | unrecognized raw reason => exact .tell (.log rfl rfl rfl) hgo

end Course.Alike

/-- A function that is one-to-one on some lines tells a cursor at one of them from the others. -/
theorem map_eq_some_iff_of_inj {lines : List Nat}
    (hf : ∀ a ∈ lines, ∀ b ∈ lines, f a = f b → a = b) {cursor : Option Nat} {line : Nat}
    (hc : ∀ k ∈ cursor, k ∈ lines) (hl : line ∈ lines) :
    cursor.map f = some (f line) ↔ cursor = some line := by
  cases cursor with
  | none => simp
  | some k =>
    rw [Option.map_some, Option.some.injEq, Option.some.injEq]
    exact ⟨hf k (hc k rfl) line hl, congrArg f⟩

/-- Lines without an executable one in front of the first executable line, or of the end, may be
passed over on the right. -/
theorem Course.Alike.pass_lines {p' : Plan} {last' : Option Nat} {c : Course} {t' : Tracker}
    {xs : List (Nat × Instruction)}
    (h : ∀ items, executablesOf items = xs → (∀ x ∈ items.head?, x.2.isExecutable = true) →
      Course.Alike f c (p'.lines last' items t')) :
    ∀ items, executablesOf items = xs → Course.Alike f c (p'.lines last' items t')
  | [], hx => h [] hx (by simp)
  | (line, i) :: items, hx => by
    cases hi : i.isExecutable with
    | true => exact h _ hx (by simp [hi])
    | false =>
      rw [executablesOf_cons_of_neg hi] at hx
      refine .passRight ?_
      simpa [hi] using pass_lines h items hx

/-- **The lines of two scripts with the same executable ones.**  By induction on the lines on the
left; a line without an instruction is passed over on its side alone. -/
theorem alike_lines {p p' : Plan} (hm : p'.mode = p.mode) (ht : p'.timing = p.timing)
    {lines : List Nat} (hf : ∀ a ∈ lines, ∀ b ∈ lines, f a = f b → a = b) {last : Option Nat}
    (hlast : ∀ k ∈ last, k ∈ lines) :
    ∀ {items items' : List (Nat × Instruction)} {t : Tracker},
      (∀ x ∈ executablesOf items, x.1 ∈ lines) → (∀ k ∈ t.cursor, k ∈ lines) →
      executablesOf items' = (executablesOf items).map (Prod.map f id) →
      Course.Alike f (p.lines last items t) (p'.lines (last.map f) items' (t.renumber f))
  | [], items', t, _, _, hx => by
    refine Course.Alike.pass_lines (fun items' hx hhead => ?_) items' hx
    cases items' with
    | nil => exact Course.Alike.conclude rfl
    | cons x _ =>
      rw [executablesOf_cons_of_pos (hhead x rfl)] at hx
      cases hx
  | (line, i) :: more, items', t, hl, hc, hx => by
    cases hi : i.isExecutable with
    | false =>
      rw [executablesOf_cons_of_neg hi] at hl hx
      refine .passLeft ?_
      simpa [hi] using alike_lines hm ht hf hlast hl hc hx
    | true =>
      rw [executablesOf_cons_of_pos hi] at hl hx
      obtain ⟨hline, hl⟩ := List.forall_mem_cons.mp hl
      refine Course.Alike.pass_lines (fun items' hx hhead => ?_) items' hx
      cases items' with
      | nil => cases hx
      | cons x' more' =>
        rw [executablesOf_cons_of_pos (hhead x' rfl), List.map_cons] at hx
        obtain ⟨rfl, hmore⟩ := List.cons.inj hx
        have hpause : p'.pausesAfter (last.map f) (f line) = p.pausesAfter last line := by
          have hiff := map_eq_some_iff_of_inj hf hlast hline
          simp only [Plan.pausesAfter, hm, ne_eq, hiff]
        have hgo : ∀ u : Tracker, u.cursor = some line →
            Course.Alike f (p.lines last more u) (p'.lines (last.map f) more' (u.renumber f)) :=
          fun u hu => alike_lines hm ht hf hlast hl (by simpa [hu] using hline) hmore
        refine .passLeft (.passRight ?_)
        simp only [Bool.false_eq_true, if_false, hi, id, Bool.not_true]
        refine Course.Alike.moveTo (some line) (map_eq_some_iff_of_inj hf hc hline).mp ?_
        refine Course.Alike.perform ht ?_ fun _ _ => Course.Alike.conclude rfl
        dsimp only
        rw [hpause]
        split
        · exact Course.Alike.pause (hgo _ rfl)
        · exact hgo _ rfl

/-! ## 4. Scripts with the same executable lines -/

namespace Script

/-- The texts of the executable lines, from top to bottom. -/
def executableLines (s : Script) : List String :=
  s.lines.filter fun l => (Instruction.classify l).isExecutable

/-- The instructions of the executable lines are those of their texts. -/
theorem map_snd_executables (s : Script) :
    s.executables.map (·.2) = s.executableLines.map Instruction.classify := by
  have key : ∀ (ls : List String) (k : Nat),
      ((instructionsFrom k ls).filter (·.2.isExecutable)).map (·.2) =
        (ls.filter fun l => (Instruction.classify l).isExecutable).map Instruction.classify := by
    intro ls
    induction ls with
    | nil => exact fun _ => rfl
    | cons l ls ih =>
      intro k
      rw [instructionsFrom, List.filter_cons, List.filter_cons]
      split
      · exact congrArg (Instruction.classify l :: ·) (ih (k + 1))
      · exact ih (k + 1)
  exact key s.lines 0

theorem length_executableIndices (s : Script) :
    s.executableIndices.length = s.executableLines.length := by
  have h := congrArg List.length s.map_snd_executables
  rw [List.length_map, List.length_map] at h
  rw [← h, ← map_executables, List.length_map]

theorem nodup_executableIndices (s : Script) : s.executableIndices.Nodup :=
  s.pairwise_executableIndices.imp Nat.ne_of_lt

variable {s s' : Script}

/-- A function that turns the executable lines of one script into those of another one. -/
theorem exists_renumbering (h : s'.executableLines = s.executableLines) :
    ∃ f : Nat → Nat, s'.executableIndices = s.executableIndices.map f := by
  have hlen : s'.executableIndices.length = s.executableIndices.length := by
    rw [length_executableIndices, length_executableIndices, h]
  refine ⟨fun k => s'.executableIndices.getD (s.executableIndices.idxOf k) 0,
    List.ext_getElem (by rw [List.length_map, hlen]) fun n hn hn' => ?_⟩
  have hns : n < s.executableIndices.length := hlen ▸ hn
  rw [List.getElem_map, s.nodup_executableIndices.idxOf_getElem n hns]
  simp [hn]

/-- With the numbers of the executable lines, the executable instructions are turned into one
another. -/
theorem executables_eq_map (h : s'.executableLines = s.executableLines)
    (hf : s'.executableIndices = s.executableIndices.map f) :
    s'.executables = s.executables.map (Prod.map f id) := by
  have hfst : s'.executables.map (·.1) = (s.executables.map (Prod.map f id)).map (·.1) := by
    rw [map_executables, hf, ← map_executables, List.map_map, List.map_map]
    rfl
  have hsnd : s'.executables.map (·.2) = (s.executables.map (Prod.map f id)).map (·.2) := by
    rw [map_snd_executables, h, ← map_snd_executables, List.map_map]
    rfl
  rw [List.zip_of_prod hfst hsnd]
  exact (List.zip_of_prod rfl rfl).symm

end Script

/-- **Two scripts with the same executable lines have courses that are alike.** -/
theorem alike_course {p : Plan} {script : Script} (hname : script.name = p.script.name)
    (hlines : script.executableLines = p.script.executableLines)
    (hf : script.executableIndices = p.script.executableIndices.map f) :
    Course.Alike f p.course ({ p with script } : Plan).course := by
  have hexec := Script.executables_eq_map hlines hf
  have hinj : ∀ a ∈ p.script.executableIndices, ∀ b ∈ p.script.executableIndices,
      f a = f b → a = b := by
    have hnodup := hf ▸ script.nodup_executableIndices
    exact fun a ha b hb => List.inj_on_of_nodup_map hnodup ha hb
  have hmem : ∀ x ∈ p.script.executables, x.1 ∈ p.script.executableIndices := fun x hx =>
    p.script.map_executables ▸ List.mem_map_of_mem hx
  have hlast : script.lastExecutable = p.script.lastExecutable.map f := by
    rw [Script.lastExecutable, hexec, List.getLast?_map, Option.map_map, Script.lastExecutable,
      Option.map_map]
    rfl
  refine .askAny fun any => ?_
  cases any with
  | false => exact .ended rfl
  | true =>
    simp only [if_true, hname, hlast]
    refine .tell (.started _) ?_
    refine Course.Alike.enter (t := {}) ?_
    refine .tell (.log rfl rfl rfl) ?_
    refine alike_lines ?_ ?_ hinj (fun k hk => ?_) hmem (by simp) hexec
    · rfl
    · rfl
    · obtain ⟨x, hx, rfl⟩ := Option.map_eq_some_iff.mp hk
      exact hmem x (List.mem_of_getLast? hx)

/-! ## 5. Whole runs -/

/-- **Blank lines and comments do not matter.**  Take two scripts of the same name with the same
executable lines in the same order.  There is a function that turns the numbers of the executable
lines of the one into those of the other.  In every scene, in every mode and at every pace and from
every moment on, both have a whole run, and any two whole runs agree: they meet with the same at the
same moments, hand over the same requests, one to which no reply comes included, pass through the
same states, pause after the same lines, come out alike and take the same time; and the cursors and
the kinds, devices and lines of the log entries are the same, but for the numbers of the lines. -/
theorem same_run_without_padding (p : Plan) (script : Script) (hname : script.name = p.script.name)
    (hlines : script.executableLines = p.script.executableLines) :
    ∃ f : Nat → Nat, script.executableIndices = p.script.executableIndices.map f ∧
      ∀ (s : Scene) (start : Nat),
        (∃ qs c, s.WholeRun [] start p.course qs c) ∧
        (∃ qs c, s.WholeRun [] start ({ p with script } : Plan).course qs c) ∧
        ∀ qs c qs' c', s.WholeRun [] start p.course qs c →
          s.WholeRun [] start ({ p with script } : Plan).course qs' c' →
          encountersOf qs' = encountersOf qs ∧
          requestsOf (movesOf qs') ++ c'.pending?.toList =
            requestsOf (movesOf qs) ++ c.pending?.toList ∧
          statesOf (movesOf qs') = statesOf (movesOf qs) ∧
          pauseLinesOf (movesOf qs') = (pauseLinesOf (movesOf qs)).map (Option.map f) ∧
          c'.verdict? = c.verdict? ∧
          finishOf start qs' = finishOf start qs ∧
          cursorsOf (movesOf qs') = (cursorsOf (movesOf qs)).map (Option.map f) ∧
          (entriesOf (movesOf qs')).map (fun e => (e.kind, e.device, e.line)) =
            (entriesOf (movesOf qs)).map fun e => (e.kind, e.device, e.line.map f) := by
  obtain ⟨f, hf⟩ := Script.exists_renumbering hlines
  refine ⟨f, hf, fun s start => ⟨s.exists_wholeRun _ [] start, s.exists_wholeRun _ [] start, ?_⟩⟩
  intro qs c qs' c' h h'
  have ha : Agreement f start qs qs' c c' := (alike_course hname hlines hf).agree h h'
  refine ⟨ha.encounters, ?_, statesOf_of_alike ha.notices, pauseLinesOf_of_alike ha.notices,
    ha.verdict, ha.finish, cursorsOf_of_alike ha.notices, ?_⟩
  · rw [← requestsOf_encountersOf, ha.encounters, ha.pending, requestsOf_encountersOf]
  · have houtlines := outlines_of_alike ha.notices
    rw [List.map_map] at houtlines
    exact houtlines

/-- The script of `haltedPlan` with other blank lines and comments. -/
def paddedScript : Script :=
  ⟨none, ["# first", "alpha.home", "", "  ", "bravo.home", "# done"]⟩

/-- A scene in which nobody answers and a pause is continued after half a second. -/
def patientScene : Scene where
  hasAny _ _ := true
  isConnected _ _ _ := true
  handle _ _ _ := .never
  patience _ _ := some 500000000

/-- The run of `haltedPlan` that is continued, in `patientScene`, by a clock that shows zero when it
begins. -/
def continuedPassages : List Passage :=
  passagesFrom
    (fun
      | .called .. => 10000000000
      | .parked _ => 500000000
      | _ => 0)
    0 continuedMoves

theorem same_run_of_paddedScript :
    paddedScript.name = haltedPlan.script.name ∧
      paddedScript.executableLines = haltedPlan.script.executableLines ∧
      patientScene.WholeRun [] 0 haltedPlan.course continuedPassages (.ended (.ok .completed)) ∧
      ∃ qs c, patientScene.WholeRun [] 0 ({ haltedPlan with script := paddedScript } : Plan).course
          qs c ∧
        cursorsOf (movesOf qs) = [some 1, some 4, none] ∧ pauseLinesOf (movesOf qs) = [some 1] ∧
        finishOf 0 qs = 20500000000 := by
  have hlines : paddedScript.executableLines = haltedPlan.script.executableLines := by decide
  have h : patientScene.WholeRun [] 0 haltedPlan.course continuedPassages
      (.ended (.ok .completed)) :=
    ⟨trace_of_resultAfter? (by decide +kernel), by decide +kernel, Scene.isStuck_ended⟩
  obtain ⟨f, hf, hruns⟩ := same_run_without_padding haltedPlan paddedScript rfl hlines
  obtain ⟨-, ⟨qs, c, h'⟩, hsame⟩ := hruns patientScene 0
  obtain ⟨-, -, -, hpauses, -, htime, hcursors, -⟩ := hsame _ _ _ _ h h'
  have hindices : [1, 4] = [f 0, f 2] := hf
  obtain ⟨h0, h2⟩ : 1 = f 0 ∧ 4 = f 2 := by simpa using hindices
  have hcursors : cursorsOf (movesOf qs) = [some (f 0), some (f 2), none] := hcursors
  have hpauses : pauseLinesOf (movesOf qs) = [some (f 0)] := hpauses
  rw [← h0] at hpauses
  rw [← h0, ← h2] at hcursors
  exact ⟨rfl, hlines, h, qs, c, h', hcursors, hpauses, htime.trans (by decide +kernel)⟩

end DeviceScript
