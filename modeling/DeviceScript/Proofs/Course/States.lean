import DeviceScript.Proofs.Course.Shape
import Mathlib.Data.List.Chain
/-!
# The states of a run

A run makes its states known as it enters them.  Whatever the script, the timing and the answers
are, the states of a run that ended, read after an idle one, are a path of the table of states.
They begin with running, exactly one of them is terminal, and that one is the last and belongs to
the outcome (`states_of_ended_run`).  The line is left in the end, and the step that the table would
refuse never comes, so that no run ever reports an internal error.

Nothing but a pause makes a state known between the first and the last
(`Plan.LineMoves.noticesOf_eq`): a pause that is continued leads to paused and back to running, and
one that is stopped leaves the run paused, from where it may still be stopped.
-/

namespace DeviceScript

variable {p : Plan} {last : Option Nat} {line : Nat} {i : Instruction} {cur : Option Nat}
  {items : List (Nat × Instruction)} {ms : List Move} {s : Step} {o : RunOutcome}

/-! ## 1. What each piece tells -/

/-- A rest tells nothing. -/
theorem RestMoves.noticesOf_eq {nanos : Nat} (h : RestMoves nanos ms s) : noticesOf ms = [] := by
  cases h <;> rfl

/-- A rest never makes a run fail. -/
theorem RestMoves.ne_fail {nanos : Nat} (h : RestMoves nanos ms s) (reason : String) :
    s ≠ .fail reason := by
  cases h with
  | atOnce _ stop => cases stop <;> exact Step.noConfusion
  | later _ w => cases w <;> exact Step.noConfusion

/-- A log entry that a run can make once it has opened, with the line that it is about. -/
inductive Plan.IsEntry (p : Plan) : Option Nat → Log.Entry → Prop
  | malformed (line : Nat) : IsEntry p (some line) (p.malformedEntry line)
  | sent (c : DeviceCommand) (line : Nat) : IsEntry p (some line) (sentEntry c line)
  | result (c : DeviceCommand) (line : Nat) (result : Option CallResult) :
      IsEntry p (some line) (resultEntry c line p.timing.limit result)
  | unconnected (c : DeviceCommand) (line : Nat) : IsEntry p (some line) (unconnectedEntry c line)
  | skipped (raw : String) (reason : Misfit) (line : Nat) :
      IsEntry p (some line) (skippedEntry raw reason line)
  | pause (line : Nat) : IsEntry p (some line) (pauseEntry line)
  | completed : IsEntry p none Tracker.completedEntry
  | stopped : IsEntry p none Tracker.stoppedEntry

/-- An entry names the line that it is about. -/
theorem Plan.IsEntry.line_eq {l : Option Nat} {e : Log.Entry} (h : p.IsEntry l e) : e.line = l := by
  cases h with
  | result c line result =>
    unfold resultEntry
    split <;> rfl
  | _ => rfl

namespace Plan

/-- What a run does at an instruction, it tells in log entries only. -/
theorem PerformMoves.noticesOf_eq (h : p.PerformMoves line i ms s) :
    ∃ es : List Log.Entry, noticesOf ms = es.map .log ∧ ∀ e ∈ es, p.IsEntry (some line) e := by
  cases h with
  | waited _ hr => exact ⟨[], hr.noticesOf_eq, by simp⟩
  | malformed => exact ⟨[p.malformedEntry line], rfl, by simp [IsEntry.malformed]⟩
  | sent c result hr =>
    refine ⟨[sentEntry c line, resultEntry c line p.timing.limit result], ?_, ?_⟩
    · exact congrArg (fun ns => [_, _] ++ ns) hr.noticesOf_eq
    · simp [IsEntry.sent, IsEntry.result]
  | unconnected c => exact ⟨[unconnectedEntry c line], rfl, by simp [IsEntry.unconnected]⟩
  | skipped raw reason =>
    exact ⟨[skippedEntry raw reason line], rfl, by simp [IsEntry.skipped]⟩

/-- **What a run tells at a line**: log entries, and then the states of a pause, if there is one. -/
theorem LineMoves.noticesOf_eq (h : p.LineMoves last line i ms s) :
    ∃ es : List Log.Entry, (∀ e ∈ es, p.IsEntry (some line) e) ∧
      (noticesOf ms = es.map .log ∨
        noticesOf ms = es.map .log ++ [.state .paused, .log (pauseEntry line)] ∧ s = .stop ∨
        noticesOf ms = es.map .log ++
          [.state .paused, .log (pauseEntry line), .state .running] ∧ s = .goOn) := by
  cases h with
  | plain hp _ =>
    obtain ⟨es, he, hes⟩ := hp.noticesOf_eq
    exact ⟨es, hes, .inl he⟩
  | paused hp _ hw =>
    obtain ⟨es, he, hes⟩ := hp.noticesOf_eq
    refine ⟨es, hes, ?_⟩
    rw [noticesOf_append, he]
    cases hw with
    | refused => exact .inl (List.append_nil _)
    | stopped => exact .inr (.inl ⟨rfl, rfl⟩)
    | continued => exact .inr (.inr ⟨rfl, rfl⟩)

/-- The states that a run makes known at a line. -/
theorem LineMoves.statesOf_eq (h : p.LineMoves last line i ms s) :
    statesOf ms = [] ∨ statesOf ms = [.paused] ∧ s = .stop ∨
      statesOf ms = [.paused, .running] ∧ s = .goOn := by
  obtain ⟨es, -, h1 | ⟨h1, hs⟩ | ⟨h1, hs⟩⟩ := h.noticesOf_eq
  · left
    rw [statesOf, h1, filterMap_state?_logs]
  · right; left
    rw [statesOf, h1, List.filterMap_append, filterMap_state?_logs]
    exact ⟨rfl, hs⟩
  · right; right
    rw [statesOf, h1, List.filterMap_append, filterMap_state?_logs]
    exact ⟨rfl, hs⟩

/-- A run stays at a line until it goes on to another one. -/
theorem LineMoves.cursorsOf_eq (h : p.LineMoves last line i ms s) : cursorsOf ms = [] := by
  obtain ⟨es, -, h1 | ⟨h1, -⟩ | ⟨h1, -⟩⟩ := h.noticesOf_eq
  · rw [cursorsOf, h1, filterMap_cursor?_logs]
  · rw [cursorsOf, h1, List.filterMap_append, filterMap_cursor?_logs]
    rfl
  · rw [cursorsOf, h1, List.filterMap_append, filterMap_cursor?_logs]
    rfl

/-- The log entries of a line are about that line. -/
theorem LineMoves.isEntry (h : p.LineMoves last line i ms s) :
    ∀ e ∈ entriesOf ms, p.IsEntry (some line) e := by
  obtain ⟨es, hes, h1⟩ := h.noticesOf_eq
  intro e he
  have hmem : e ∈ es ∨ e = pauseEntry line := by
    rcases h1 with h1 | ⟨h1, -⟩ | ⟨h1, -⟩
    · rw [entriesOf, h1, filterMap_entry?_logs] at he
      exact .inl he
    · rw [entriesOf, h1, List.filterMap_append, filterMap_entry?_logs, List.mem_append] at he
      exact he.imp_right List.mem_singleton.mp
    · rw [entriesOf, h1, List.filterMap_append, filterMap_entry?_logs, List.mem_append] at he
      exact he.imp_right List.mem_singleton.mp
  rcases hmem with hmem | rfl
  · exact hes e hmem
  · exact .pause line

/-- Only a command for a device that is not connected makes a run fail. -/
theorem PerformMoves.reason_eq {reason : String} (h : p.PerformMoves line i ms (.fail reason)) :
    ∃ c, i = .command c ∧ reason = unconnectedReason c line := by
  cases h with
  | waited _ hr => exact absurd rfl (hr.ne_fail reason)
  | sent c _ hr => exact absurd rfl (hr.ne_fail reason)
  | unconnected c => exact ⟨c, rfl, rfl⟩

theorem LineMoves.reason_eq {reason : String} (h : p.LineMoves last line i ms s)
    (hs : s = .fail reason) : ∃ c, i = .command c ∧ reason = unconnectedReason c line := by
  cases h with
  | plain hp _ =>
    subst hs
    exact hp.reason_eq
  | @paused _ _ w _ _ _ => cases w <;> cases hs

end Plan

/-! ## 2. The way to the end -/

/-- The states `ss` lead from the state `s` to the end with this outcome: each is one that the table
allows after the one before, and the only terminal one among them is the last. -/
structure LeadsTo (s : RunState) (ss : List RunState) (o : RunOutcome) : Prop where
  path : List.IsChain (fun s t => s.become? t = .ok t) (s :: ss)
  once : ss.filter RunState.isTerminal = [o.state]
  last : ss.getLast? = some o.state

/-- One more state on the way to the end. -/
theorem LeadsTo.cons {s s' : RunState} {ss : List RunState} {o : RunOutcome}
    (hs : s.mayBecome s' = true) (ht : s'.isTerminal = false) (h : LeadsTo s' ss o) :
    LeadsTo s (s' :: ss) o where
  path := List.isChain_cons_cons.mpr ⟨RunState.become?_eq_ok_iff.mpr ⟨hs, rfl⟩, h.path⟩
  once := by rw [List.filter_cons_of_neg (by simp [ht]), h.once]
  last := by
    have hne : ss ≠ [] := by
      rintro rfl
      exact absurd h.last (by simp)
    rw [List.getLast?_cons_of_ne_nil hne, h.last]

/-- A step to the end. -/
theorem LeadsTo.single {s : RunState} (o : RunOutcome) (hs : s.mayBecome o.state = true) :
    LeadsTo s [o.state] o where
  path := List.isChain_cons_cons.mpr
    ⟨RunState.become?_eq_ok_iff.mpr ⟨hs, rfl⟩, List.isChain_singleton _⟩
  once := by rw [List.filter_cons_of_pos o.state_isTerminal, List.filter_nil]
  last := rfl

/-- The states of a run that ends with this outcome, from the moment when that is settled. -/
def RunOutcome.closingStates : RunOutcome → List RunState
  | completed => [.completed]
  | stopped => [.stopping, .stopped]
  | failed _ => [.failed]

theorem statesOf_closingMoves (cur : Option Nat) (o : RunOutcome) :
    statesOf (closingMoves cur o) = o.closingStates := by
  rw [statesOf, closingMoves, noticesOf_map_told]
  cases o <;> cases cur <;> rfl

/-- A run that may end so leads to its end by its closing moves. -/
theorem leadsTo_closingMoves {t : Tracker} (ht : t.MayEnd o) (cur : Option Nat) :
    LeadsTo t.state (statesOf (closingMoves cur o)) o := by
  rw [statesOf_closingMoves]
  rcases ht with hs | ⟨hs, rfl⟩
  · rw [hs]
    cases o with
    | completed => exact .single .completed rfl
    | stopped => exact .cons rfl rfl (.single .stopped rfl)
    | failed reason => exact .single (.failed reason) rfl
  · rw [hs]
    exact .cons rfl rfl (.single .stopped rfl)

namespace Plan

/-- **From the top of its lines a run leads to its end.**  By induction on the lines that it takes:
a pause that is continued comes back to running, and one that is stopped is the last. -/
theorem RunMoves.leadsTo (h : p.RunMoves last items cur ms o) :
    LeadsTo .running (statesOf ms) o := by
  induction h with
  | @completed cur => exact leadsTo_closingMoves (t := ⟨.running, cur⟩) (.inl rfl) cur
  | @stopped _ _ cur => exact leadsTo_closingMoves (t := ⟨.running, cur⟩) (.inl rfl) cur
  | passedOver _ _ ih => exact ih
  | @taken _ _ _ _ ms ms' o _ hl _ ih =>
    change LeadsTo .running (statesOf (ms ++ ms')) o
    rw [statesOf_append]
    rcases hl.statesOf_eq with h1 | ⟨-, h1⟩ | ⟨h1, -⟩
    · rw [h1]
      exact ih
    · cases h1
    · rw [h1]
      exact .cons rfl rfl (.cons rfl rfl ih)
  | @broken line _ _ _ ms s o _ hl ho =>
    change LeadsTo .running (statesOf (ms ++ closingMoves (some line) o)) o
    rw [statesOf_append]
    rcases hl.statesOf_eq with h1 | ⟨h1, rfl⟩ | ⟨-, rfl⟩
    · rw [h1]
      exact leadsTo_closingMoves (t := ⟨.running, some line⟩) (.inl rfl) _
    · obtain rfl : RunOutcome.stopped = o := Option.some.inj ho
      rw [h1]
      exact .cons rfl rfl (leadsTo_closingMoves (t := ⟨.paused, some line⟩) (.inr ⟨rfl, rfl⟩) _)
    · cases ho

/-- The end of a run comes to no line. -/
theorem some_notMem_cursorsOf_closingMoves (line : Nat) (cur : Option Nat) (o : RunOutcome) :
    some line ∉ cursorsOf (closingMoves cur o) := by
  intro hc
  rw [cursorsOf, closingMoves, noticesOf_map_told] at hc
  cases o <;> cases cur <;> simp [closingNotices, Notice.cursor?] at hc

/-- In the end no line is the cursor's. -/
theorem RunMoves.leaves (h : p.RunMoves last items cur ms o) :
    (cur :: cursorsOf ms).getLast? = some none := by
  have hclose : ∀ (cur : Option Nat) (o : RunOutcome),
      (cur :: cursorsOf (closingMoves cur o)).getLast? = some none := by
    intro cur o
    rw [cursorsOf, closingMoves, noticesOf_map_told]
    cases o <;> cases cur <;> rfl
  induction h with
  | completed => exact hclose _ _
  | stopped => exact hclose _ _
  | passedOver _ _ ih => exact ih
  | @taken line _ _ cur ms ms' o _ hl _ ih =>
    change (cur :: some line :: cursorsOf (ms ++ ms')).getLast? = some none
    rw [cursorsOf_append, hl.cursorsOf_eq]
    exact ih
  | @broken line _ _ cur ms _ o _ hl _ =>
    change (cur :: some line :: cursorsOf (ms ++ closingMoves (some line) o)).getLast? = some none
    rw [cursorsOf_append, hl.cursorsOf_eq]
    exact hclose (some line) o

/-- The last log entries are about no line. -/
theorem isEntry_closingMoves (cur : Option Nat) (o : RunOutcome) :
    ∀ e ∈ entriesOf (closingMoves cur o), p.IsEntry none e := by
  intro e he
  rw [entriesOf, closingMoves, noticesOf_map_told] at he
  cases o with
  | completed =>
    obtain rfl : e = Tracker.completedEntry := by cases cur <;> exact List.mem_singleton.mp he
    exact .completed
  | stopped =>
    obtain rfl : e = Tracker.stoppedEntry := by cases cur <;> exact List.mem_singleton.mp he
    exact .stopped
  | failed reason => cases cur <;> cases he

/-- Every log entry of the lines is one of the known sorts. -/
theorem RunMoves.isEntry (h : p.RunMoves last items cur ms o) :
    ∀ e ∈ entriesOf ms, ∃ l, p.IsEntry l e := by
  induction h with
  | completed => exact fun e he => ⟨none, isEntry_closingMoves _ _ e he⟩
  | stopped => exact fun e he => ⟨none, isEntry_closingMoves _ _ e he⟩
  | passedOver _ _ ih => exact ih
  | @taken line _ _ _ ms ms' _ _ hl _ ih =>
    intro e he
    change e ∈ entriesOf (ms ++ ms') at he
    rw [entriesOf_append, List.mem_append] at he
    exact he.elim (fun he => ⟨some line, hl.isEntry e he⟩) (ih e)
  | @broken line _ _ _ ms _ o _ hl _ =>
    intro e he
    change e ∈ entriesOf (ms ++ closingMoves (some line) o) at he
    rw [entriesOf_append, List.mem_append] at he
    exact he.elim (fun he => ⟨some line, hl.isEntry e he⟩)
      (fun he => ⟨none, isEntry_closingMoves _ _ e he⟩)

/-- A run fails only at a command for a device that is not connected. -/
theorem RunMoves.reason_eq {reason : String} (h : p.RunMoves last items cur ms o)
    (ho : o = .failed reason) :
    ∃ c line, (line, .command c) ∈ items ∧ reason = unconnectedReason c line := by
  induction h with
  | completed => cases ho
  | stopped => cases ho
  | passedOver _ _ ih =>
    obtain ⟨c, line, hc, hr⟩ := ih ho
    exact ⟨c, line, List.mem_cons_of_mem _ hc, hr⟩
  | taken _ _ _ ih =>
    obtain ⟨c, line, hc, hr⟩ := ih ho
    exact ⟨c, line, List.mem_cons_of_mem _ hc, hr⟩
  | @broken line i _ _ ms s o _ hl hs =>
    subst ho
    obtain rfl : s = .fail reason := by
      cases s with
      | goOn => cases hs
      | stop => cases hs
      | fail _ => cases hs; rfl
    obtain ⟨c, rfl, hr⟩ := hl.reason_eq rfl
    exact ⟨c, line, List.mem_cons_self, hr⟩

/-- An internal error looks like no log entry that a run makes: the entries on errors that it makes
name a device. -/
theorem IsEntry.ne_faultEntry {l : Option Nat} {e : Log.Entry} (h : p.IsEntry l e)
    (x : InvalidTransition) : e ≠ Tracker.faultEntry x := by
  intro he
  have hk := congrArg Log.Entry.kind he
  have hd := congrArg Log.Entry.device he
  cases h with
  | result c line result =>
    unfold resultEntry at hd
    split at hd <;> cases hd
  | unconnected => cases hd
  | malformed | sent | skipped | pause | completed | stopped => cases hk

end Plan

/-! ## 3. The script that a run names -/

/-- Nothing is told, or first that a run of the script with this name starts, and then of no start any
more. -/
def OpensWith (name : Option String) (ns : List Notice) : Prop :=
  ns = [] ∨ ∃ ns', ns = .started name :: ns' ∧ ∀ other, .started other ∉ ns'

/-- The same of what is told first. -/
theorem OpensWith.of_append {name : Option String} {ns ns' : List Notice}
    (h : OpensWith name (ns ++ ns')) : OpensWith name ns := by
  cases ns with
  | nil => exact .inl rfl
  | cons n ns =>
    rcases h with h | ⟨more, h, hmore⟩
    · cases h
    · obtain ⟨rfl, rfl⟩ := List.cons.inj h
      exact .inr ⟨ns, rfl, fun other hmem => hmore other (List.mem_append_left _ hmem)⟩

/-- What is told later must not be of a start. -/
theorem OpensWith.append {name : Option String} {ns ns' : List Notice} (h : OpensWith name ns)
    (hne : ns ≠ []) (hns' : ∀ other, .started other ∉ ns') : OpensWith name (ns ++ ns') := by
  obtain ⟨more, rfl, hmore⟩ := h.resolve_left hne
  refine .inr ⟨more ++ ns', rfl, fun other hmem => ?_⟩
  rcases List.mem_append.mp hmem with hmem | hmem
  · exact hmore other hmem
  · exact hns' other hmem

namespace Plan

theorem LineMoves.started_notMem (h : p.LineMoves last line i ms s) (name : Option String) :
    .started name ∉ noticesOf ms := by
  obtain ⟨es, -, h1 | ⟨h1, -⟩ | ⟨h1, -⟩⟩ := h.noticesOf_eq <;> rw [h1] <;> simp

theorem started_notMem_closingMoves (cur : Option Nat) (o : RunOutcome) (name : Option String) :
    .started name ∉ noticesOf (closingMoves cur o) := by
  rw [closingMoves, noticesOf_map_told]
  cases cur <;> cases o <;> simp [closingNotices]

/-- Among its lines a run tells of no start. -/
theorem RunMoves.started_notMem (h : p.RunMoves last items cur ms o) (name : Option String) :
    .started name ∉ noticesOf ms := by
  induction h with
  | completed => exact started_notMem_closingMoves _ _ name
  | stopped => exact started_notMem_closingMoves _ _ name
  | passedOver _ _ ih => exact ih
  | @taken line _ _ _ ms ms' _ _ hl _ ih =>
    intro hmem
    change .started name ∈ .cursor (some line) :: noticesOf (ms ++ ms') at hmem
    rw [noticesOf_append, List.mem_cons, List.mem_append] at hmem
    rcases hmem with hmem | hmem | hmem
    · cases hmem
    · exact hl.started_notMem name hmem
    · exact ih hmem
  | @broken line _ _ _ ms _ o _ hl _ =>
    intro hmem
    change .started name ∈ .cursor (some line) :: noticesOf (ms ++ closingMoves (some line) o) at hmem
    rw [noticesOf_append, List.mem_cons, List.mem_append] at hmem
    rcases hmem with hmem | hmem | hmem
    · cases hmem
    · exact hl.started_notMem name hmem
    · exact started_notMem_closingMoves _ _ name hmem

/-- **A run names its script first**, and only once. -/
theorem opensWith_of_trace {p : Plan} {ms : List Move} {c : Course}
    (h : Course.Trace p.course ms c) : OpensWith p.script.name (noticesOf ms) := by
  obtain ⟨ms', r, h'⟩ := c.exists_trace
  have hall : OpensWith p.script.name (noticesOf (ms ++ ms')) := by
    rcases runMoves_of_trace (h.append h') with ⟨he, -⟩ | ⟨o, more, -, he, hr⟩
    · rw [he]
      exact .inl rfl
    · rw [he, noticesOf_append]
      refine .append (.inr ⟨_, rfl, ?_⟩) (List.cons_ne_nil _ _) hr.started_notMem
      intro other hmem
      simp [Move.notice?] at hmem
  rw [noticesOf_append] at hall
  exact hall.of_append

end Plan

/-! ## 4. What a snapshot shows -/

namespace Snapshot

/-- The snapshot after a notice. -/
def hear (s : Snapshot) : Notice → Snapshot
  | .state state => { s with state }
  | .cursor cursor => { s with cursor }
  | _ => s

/-- The snapshot after some notices. -/
def hearAll (s : Snapshot) (ns : List Notice) : Snapshot := ns.foldl hear s

theorem hearAll_append (s : Snapshot) (ns₁ ns₂ : List Notice) :
    s.hearAll (ns₁ ++ ns₂) = (s.hearAll ns₁).hearAll ns₂ :=
  List.foldl_append

/-- The state is the one last made known. -/
theorem state_hearAll : ∀ (ns : List Notice) (s : Snapshot),
    (s.state :: ns.filterMap Notice.state?).getLast? = some (s.hearAll ns).state
  | [], _ => rfl
  | .state state :: ns, s =>
    List.getLast?_cons_cons.trans (state_hearAll ns (s.hear (.state state)))
  | .cursor cursor :: ns, s => state_hearAll ns (s.hear (.cursor cursor))
  | .started _ :: ns, s | .log _ :: ns, s => state_hearAll ns s

/-- The cursor is the one last made known. -/
theorem cursor_hearAll : ∀ (ns : List Notice) (s : Snapshot),
    (s.cursor :: ns.filterMap Notice.cursor?).getLast? = some (s.hearAll ns).cursor
  | [], _ => rfl
  | .cursor cursor :: ns, s =>
    List.getLast?_cons_cons.trans (cursor_hearAll ns (s.hear (.cursor cursor)))
  | .state state :: ns, s => cursor_hearAll ns (s.hear (.state state))
  | .started _ :: ns, s | .log _ :: ns, s => cursor_hearAll ns s

end Snapshot

/-! ## 5. Whole runs -/

/-- **What a run leaves behind.**  Whoever was at no line when it began, and heard all that it told,
is at no line in the end and in the state of the outcome. -/
theorem hearAll_of_ended_run {p : Plan} {ms : List Move} {o : RunOutcome} {s : Snapshot}
    (h : Course.Trace p.course ms (.ended (.ok o))) (hs : s.cursor = none) :
    s.hearAll (noticesOf ms) = ⟨o.state, none⟩ := by
  rcases Plan.runMoves_of_trace h with ⟨-, ho⟩ | ⟨o', ms', ho, rfl, hr⟩
  · cases ho
  · cases ho
    have hst := Snapshot.state_hearAll (noticesOf (p.openingMoves ++ ms')) s
    have hcu := Snapshot.cursor_hearAll (noticesOf (p.openingMoves ++ ms')) s
    have h1 : (s.state :: statesOf (p.openingMoves ++ ms')).getLast? = some o.state := by
      have hl : LeadsTo .idle (statesOf (p.openingMoves ++ ms')) o := .cons rfl rfl hr.leadsTo
      rw [List.getLast?_cons, hl.last]
      rfl
    have h2 : (s.cursor :: cursorsOf (p.openingMoves ++ ms')).getLast? = some none := by
      rw [hs]
      exact hr.leaves
    generalize s.hearAll _ = s' at *
    obtain ⟨state, cursor⟩ := s'
    cases (Option.some.inj (hst.symm.trans h1) : state = _)
    cases (Option.some.inj (hcu.symm.trans h2) : cursor = _)
    rfl

/-- A run that did not take place leaves nothing behind, and so no run that ended leaves a line. -/
theorem cursor_of_ended_run {p : Plan} {ms : List Move} {r : Except Refusal RunOutcome}
    {s : Snapshot} (h : Course.Trace p.course ms (.ended r)) (hs : s.cursor = none) :
    (s.hearAll (noticesOf ms)).cursor = none := by
  rcases Plan.runMoves_of_trace h with ⟨rfl, -⟩ | ⟨o, _, rfl, -, -⟩
  · exact hs
  · rw [hearAll_of_ended_run h hs]

/-- **The states of a run that ended.**  Whatever the script, the mode, the timing and the answers
are: a run that found a device connected and has ended has an outcome, and its states, read after an
idle one, follow the table.  They begin with running, one of them is terminal, and it is the last
and the outcome's.  The last cursor, if any was made known, is none.  No internal error is logged,
and a failure is never one of the table but that of a command whose device was not connected. -/
theorem states_of_ended_run {p : Plan} {ms : List Move} {r : Except Refusal RunOutcome}
    (h : Course.Trace p.course ms (.ended r)) (hany : .foundAny true ∈ ms) :
    ∃ o, r = .ok o ∧
      List.IsChain (fun s t => s.become? t = .ok t) (.idle :: statesOf ms) ∧
      (statesOf ms).head? = some .running ∧
      (statesOf ms).filter RunState.isTerminal = [o.state] ∧
      (statesOf ms).getLast? = some o.state ∧
      (∀ c, (cursorsOf ms).getLast? = some c → c = none) ∧
      (∀ x, .told (.log (Tracker.faultEntry x)) ∉ ms) ∧
      ∀ reason, o = .failed reason → ∃ c line,
        (line, .command c) ∈ p.script.instructions ∧ reason = unconnectedReason c line := by
  rcases Plan.runMoves_of_trace h with ⟨rfl, -⟩ | ⟨o, ms', rfl, rfl, hr⟩
  · cases List.mem_singleton.mp hany
  · have hs : LeadsTo .idle (statesOf (p.openingMoves ++ ms')) o := .cons rfl rfl hr.leadsTo
    have hc : cursorsOf (p.openingMoves ++ ms') = cursorsOf ms' := rfl
    refine ⟨o, rfl, hs.path, rfl, hs.once, hs.last, ?_, ?_, fun _ => hr.reason_eq⟩
    · intro c hlast
      have hl := hr.leaves
      rw [hc] at hlast
      rw [List.getLast?_cons, hlast] at hl
      exact Option.some.inj hl
    · intro x hx
      have hmem : Tracker.faultEntry x ∈ entriesOf (p.openingMoves ++ ms') := by
        refine List.mem_filterMap.mpr ⟨.log (Tracker.faultEntry x), ?_, rfl⟩
        exact List.mem_filterMap.mpr ⟨_, hx, rfl⟩
      rcases List.mem_cons.mp hmem with he | he
      · cases congrArg Log.Entry.kind he
      · obtain ⟨l, hl⟩ := hr.isEntry _ he
        exact hl.ne_faultEntry x rfl

/-- Two commands, one at a time and without a rest. -/
def haltedPlan : Plan :=
  ⟨⟨none, ["alpha.home", "# next", "bravo.home"]⟩, .singleBlock, { settle := 0 }⟩

/-- A run of `haltedPlan` that gets no reply and is stopped at its pause. -/
def haltedMoves : List Move :=
  haltedPlan.openingMoves ++
    [.foundStop false, .told (.cursor (some 0)), .foundDevice "alpha" true,
      .told (.log (sentEntry ⟨"alpha", "home", ""⟩ 0)), .called ⟨"alpha", "home"⟩ (some 10000) none,
      .told (.log (resultEntry ⟨"alpha", "home", ""⟩ 0 (some 10000) none)), .foundStop false,
      .foundStop false, .armed, .told (.state .paused), .told (.log (pauseEntry 0)),
      .parked .stopped, .disarmed] ++
    closingMoves (some 0) .stopped

theorem states_of_halted_run :
    Course.Trace haltedPlan.course haltedMoves (.ended (.ok .stopped)) ∧
      .foundAny true ∈ haltedMoves ∧ (statesOf haltedMoves).getLast? = some .stopped := by
  have h : Course.Trace haltedPlan.course haltedMoves (.ended (.ok .stopped)) :=
    Course.trace_of_resultAfter? (by decide)
  have hany : .foundAny true ∈ haltedMoves := List.mem_cons_self
  obtain ⟨o, ho, -, -, -, hlast, -⟩ := states_of_ended_run h hany
  cases ho
  exact ⟨h, hany, hlast⟩

end DeviceScript
