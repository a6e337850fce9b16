import DeviceScript.Proofs.Course.Pauses
import DeviceScript.Proofs.Course.Served
/-!
# The two modes of a run

A script does the same in both modes.  Let the devices be fixed and let a gateway answer by the
calls made so far (`Site`).  Then a run that goes line by line, whose pauses are all continued, and
a run that goes on by itself hand over the same commands, move over the same lines, end in the same
way and log the same, but for the pauses and the mode that the first log entry names
(`same_run_in_both_modes`).

A call to which no answer comes keeps a run that sets it no limit waiting for ever, so a run need
not end.  A whole run is therefore one that ends or hands over such a call (`Site.WholeRun`).

What counts of a run is its trail (`Site.trail`), which is computed along the course.  A pause
leaves none.  The trail of a piece of a course depends on what follows only by the trail of that, so
no relation between the courses of the two modes has to be set up: their trails are equal, line by
line (`Site.trail_lines`).
-/

namespace DeviceScript

/-! ## 1. Fixed surroundings -/

/-- Surroundings of a run that do not change.  What happens to a call depends on the calls made so
far, that call being the last. -/
structure Site where
  hasAny : Bool
  isConnected : String → Bool
  handle : List Request → Handling

/-- The request that the move hands to the gateway. -/
def Move.request? : Move → Option Request
  | called request _ _ => some request
  | _ => none

/-- The calls made so far after the move. -/
def Move.calls (earlier : List Request) : Move → List Request
  | called request _ _ => earlier ++ [request]
  | _ => earlier

/-- The requests that the moves hand to the gateway and that come to an end. -/
def requestsOf (ms : List Move) : List Request := ms.filterMap Move.request?

/-- The log entries that the moves make known, except those on pauses. -/
def plainEntriesOf (ms : List Move) : List Log.Entry := (entriesOf ms).filter (·.kind ≠ .pause)

namespace Site

/-- The answer is the one that the site gives after these calls. -/
def Gives (s : Site) (earlier : List Request) : Move → Prop
  | .foundAny a => a = s.hasAny
  | .foundDevice name a => a = s.isConnected name
  | .called request limit result =>
    ∃ ms, (s.handle (earlier ++ [request])).limited limit = (some ms, result)
  | _ => True

/-- All answers are the site's, no stop is asked for, and every pause is continued. -/
def Serves (s : Site) : List Request → List Move → Prop
  | _, [] => True
  | earlier, m :: ms =>
    s.Gives earlier m ∧ m.IsUndisturbed ∧ s.Serves (m.calls earlier) ms

instance (s : Site) (earlier : List Request) : DecidablePred (s.Gives earlier)
  | .foundAny a => inferInstanceAs (Decidable (a = s.hasAny))
  | .foundDevice name a => inferInstanceAs (Decidable (a = s.isConnected name))
  | .called request limit result =>
    decidable_of_iff (((s.handle (earlier ++ [request])).limited limit).1.isSome ∧
        ((s.handle (earlier ++ [request])).limited limit).2 = result) <| by
      simp [Gives, Prod.ext_iff, Option.isSome_iff_exists]
  | .told _ | .foundStop _ | .rested .. | .armed | .parked _ | .disarmed => .isTrue trivial

instance decidableServes (s : Site) : ∀ earlier ms, Decidable (s.Serves earlier ms)
  | _, [] => .isTrue trivial
  | earlier, m :: ms =>
    have := decidableServes s (m.calls earlier) ms
    inferInstanceAs (Decidable (s.Gives earlier m ∧ m.IsUndisturbed ∧ s.Serves (m.calls earlier) ms))

/-- A run that is served to its end, or up to a call that never ends; the requests that it hands
over, and its result if it has one. -/
inductive WholeRun (s : Site) (c : Course) :
    List Move → List Request → Option (Except Refusal RunOutcome) → Prop
  | ended {ms : List Move} {r : Except Refusal RunOutcome} (h : c.Trace ms (.ended r))
      (hs : s.Serves [] ms) : WholeRun s c ms (requestsOf ms) (some r)
  | hanging {ms : List Move} {request : Request} {limit : Option Nat}
      {next : Option CallResult → Course} (h : c.Trace ms (.call request limit next))
      (hs : s.Serves [] ms)
      (hn : ((s.handle (requestsOf ms ++ [request])).limited limit).1 = none) :
      WholeRun s c ms (requestsOf ms ++ [request]) none

end Site

/-! ## 2. Trails -/

/-- What counts of a run, whatever its mode. -/
structure Trail where
  requests : List Request := []
  cursors : List (Option Nat) := []
  entries : List Log.Entry := []
  result : Option (Except Refusal RunOutcome) := none

namespace Trail

/-- The trail with a notice in front. -/
def telling (t : Trail) (n : Notice) : Trail :=
  { t with
    cursors := n.cursor?.toList ++ t.cursors
    entries := n.entry?.toList.filter (·.kind ≠ .pause) ++ t.entries }

/-- The trail with a request in front. -/
def handing (t : Trail) (request : Request) : Trail :=
  { t with requests := request :: t.requests }

/-- The trail with moves in front. -/
def behind (t : Trail) (ms : List Move) : Trail where
  requests := requestsOf ms ++ t.requests
  cursors := cursorsOf ms ++ t.cursors
  entries := plainEntriesOf ms ++ t.entries
  result := t.result

theorem behind_told (t : Trail) (n : Notice) (ms : List Move) :
    t.behind (.told n :: ms) = (t.behind ms).telling n := by
  cases n with
  | log e =>
    have h : plainEntriesOf (.told (.log e) :: ms) =
        [e].filter (·.kind ≠ .pause) ++ plainEntriesOf ms :=
      List.filter_append [e] (entriesOf ms)
    simp only [behind, telling, h, List.append_assoc]
    rfl
  | _ => rfl

/-- A state leaves no trail. -/
theorem telling_state (t : Trail) (state : RunState) : t.telling (.state state) = t := rfl

/-- A pause leaves no trail in the log. -/
theorem telling_pause (t : Trail) (line : Nat) : t.telling (.log (pauseEntry line)) = t := rfl

end Trail

namespace Site

variable {s : Site} {earlier : List Request}

/-- The trail of a run that the site serves and that nobody stops. -/
@[simp] def trail (s : Site) : List Request → Course → Trail
  | _, .ended r => { result := some r }
  | earlier, .tell n next => (s.trail earlier next).telling n
  | earlier, .askAny next => s.trail earlier (next s.hasAny)
  | earlier, .askDevice name next => s.trail earlier (next (s.isConnected name))
  | earlier, .askStop next => s.trail earlier (next false)
  | earlier, .rest _ next => s.trail earlier (next .due)
  | earlier, .call request limit next =>
    match (s.handle (earlier ++ [request])).limited limit with
    | (some _, result) => (s.trail (earlier ++ [request]) (next result)).handing request
    | (none, _) => { requests := [request] }
  | earlier, .arm next => s.trail earlier next
  | earlier, .park next => s.trail earlier (next .due)
  | earlier, .disarm next => s.trail earlier next

/-- **The moves of a run are the beginning of its trail.** -/
theorem trail_of_trace {c c' : Course} {ms : List Move} (h : c.Trace ms c')
    (hs : s.Serves earlier ms) :
    s.trail earlier c = (s.trail (earlier ++ requestsOf ms) c').behind ms := by
  induction h generalizing earlier with
  | nil c =>
    rw [requestsOf, List.filterMap_nil, List.append_nil]
    rfl
  | @cons _ c₂ _ _ _ hm _ ih =>
    obtain ⟨hgives, hcalm, hrest⟩ := hs
    cases hm with
    | tell =>
      have hnext : s.trail earlier c₂ = _ := ih hrest
      rw [trail, hnext, Trail.behind_told]
      rfl
    | askAny a =>
      obtain rfl : a = s.hasAny := hgives
      exact ih hrest
    | askDevice a =>
      obtain rfl : a = s.isConnected _ := hgives
      exact ih hrest
    | askStop a =>
      obtain rfl : a = false := hcalm
      exact ih hrest
    | rest w =>
      obtain rfl : w = .due := hcalm
      exact ih hrest
    | @call request _ next result =>
      obtain ⟨t, ht⟩ := hgives
      have hnext : s.trail (earlier ++ [request]) (next result) = _ := ih hrest
      simp only [trail, ht]
      rw [hnext]
      change (Trail.behind (s.trail (earlier ++ [request] ++ _) _) _).handing request = _
      rw [List.append_assoc]
      rfl
    | arm | disarm => exact ih hrest
    | park w =>
      obtain rfl : w = .due := hcalm
      exact ih hrest

/-- **The trail of a whole run is what it hands over, makes known and comes to.** -/
theorem WholeRun.trail_eq {c : Course} {ms : List Move} {requests : List Request}
    {result : Option (Except Refusal RunOutcome)} (h : s.WholeRun c ms requests result) :
    s.trail [] c = ⟨requests, cursorsOf ms, plainEntriesOf ms, result⟩ := by
  cases h with
  | ended h hs =>
    rw [trail_of_trace h hs]
    simp [trail, Trail.behind]
  | @hanging request limit next h hs hn =>
    rw [trail_of_trace h hs]
    cases hl : (s.handle (requestsOf ms ++ [request])).limited limit with
    | mk t r =>
      rw [hl] at hn
      obtain rfl : t = none := hn
      simp [trail, hl, Trail.behind]

/-- A site can serve any course, to its end or up to a call that never ends. -/
theorem exists_serves (s : Site) (c : Course) (earlier : List Request) :
    ∃ ms c', c.Trace ms c' ∧ s.Serves earlier ms ∧
      ((∃ r, c' = .ended r) ∨ ∃ request limit next, c' = .call request limit next ∧
        ((s.handle (earlier ++ requestsOf ms ++ [request])).limited limit).1 = none) := by
  induction c generalizing earlier with
  | ended r => exact ⟨[], _, .nil _, trivial, .inl ⟨r, rfl⟩⟩
  | tell _ _ ih =>
    obtain ⟨ms, c', h, hs, hend⟩ := ih earlier
    exact ⟨_ :: ms, c', .cons .tell h, ⟨trivial, trivial, hs⟩, hend⟩
  | askAny _ ih =>
    obtain ⟨ms, c', h, hs, hend⟩ := ih s.hasAny earlier
    exact ⟨_ :: ms, c', .cons (.askAny _) h, ⟨rfl, trivial, hs⟩, hend⟩
  | askDevice name _ ih =>
    obtain ⟨ms, c', h, hs, hend⟩ := ih (s.isConnected name) earlier
    exact ⟨_ :: ms, c', .cons (.askDevice _) h, ⟨rfl, trivial, hs⟩, hend⟩
  | askStop _ ih =>
    obtain ⟨ms, c', h, hs, hend⟩ := ih false earlier
    exact ⟨_ :: ms, c', .cons (.askStop _) h, ⟨trivial, rfl, hs⟩, hend⟩
  | rest _ _ ih =>
    obtain ⟨ms, c', h, hs, hend⟩ := ih .due earlier
    exact ⟨_ :: ms, c', .cons (.rest _) h, ⟨trivial, rfl, hs⟩, hend⟩
  | call request limit next ih =>
    cases hl : (s.handle (earlier ++ [request])).limited limit with
    | mk t result =>
      cases t with
      | none =>
        refine ⟨[], _, .nil _, trivial, .inr ⟨request, limit, next, rfl, ?_⟩⟩
        rw [requestsOf, List.filterMap_nil, List.append_nil, hl]
      | some t =>
        obtain ⟨ms, c', h, hs, hend⟩ := ih result (earlier ++ [request])
        rw [List.append_assoc] at hend
        exact ⟨_ :: ms, c', .cons (.call _) h, ⟨⟨t, hl⟩, trivial, hs⟩, hend⟩
  | arm _ ih =>
    obtain ⟨ms, c', h, hs, hend⟩ := ih earlier
    exact ⟨_ :: ms, c', .cons .arm h, ⟨trivial, trivial, hs⟩, hend⟩
  | park _ ih =>
    obtain ⟨ms, c', h, hs, hend⟩ := ih .due earlier
    exact ⟨_ :: ms, c', .cons (.park _) h, ⟨trivial, rfl, hs⟩, hend⟩
  | disarm _ ih =>
    obtain ⟨ms, c', h, hs, hend⟩ := ih earlier
    exact ⟨_ :: ms, c', .cons .disarm h, ⟨trivial, trivial, hs⟩, hend⟩

/-- **Every course has a whole run.** -/
theorem exists_wholeRun (s : Site) (c : Course) :
    ∃ ms requests result, s.WholeRun c ms requests result := by
  obtain ⟨ms, c', h, hs, ⟨r, rfl⟩ | ⟨request, limit, next, rfl, hn⟩⟩ := s.exists_serves c []
  · exact ⟨ms, _, _, .ended h hs⟩
  · exact ⟨ms, _, _, .hanging h hs hn⟩

/-! ## 3. The trail of a line -/

section Pieces

variable {t : Tracker} {next : Tracker → Course}

theorem trail_enter {state : RunState} (h : t.state.mayBecome state = true) :
    s.trail earlier (t.enter state next) = s.trail earlier (next { t with state }) := by
  rw [Tracker.enter_eq h, trail, Trail.telling_state]

/-- What follows a move to a line may be replaced by what leaves the same trail. -/
theorem trail_moveTo {line : Option Nat} {next' : Tracker → Course}
    (h : ∀ t', t'.state = t.state → s.trail earlier (next t') = s.trail earlier (next' t')) :
    s.trail earlier (t.moveTo line next) = s.trail earlier (t.moveTo line next') := by
  unfold Tracker.moveTo
  split
  · exact h t rfl
  · rw [trail, trail, h { t with cursor := line } rfl]

/-- A rest leaves no trail. -/
theorem trail_restUnlessStopped (nanos : Nat) (next : Step → Course) :
    s.trail earlier (restUnlessStopped nanos next) = s.trail earlier (next .goOn) := by
  unfold restUnlessStopped
  split <;> rfl

/-- **A pause leaves no trail**: it leads back to where it began. -/
theorem trail_pause {line : Nat} {next : Tracker → Wake → Course} (ht : t.state = .running) :
    s.trail earlier (t.pause line next) = s.trail earlier (next t .due) := by
  obtain ⟨state, cursor⟩ := t
  obtain rfl : state = .running := ht
  simp only [Tracker.pause, trail, Bool.false_eq_true, if_false]
  rw [trail_enter rfl]
  simp only [trail]
  rw [Trail.telling_pause, trail_enter rfl]

/-- So it does not matter whether there is one. -/
theorem trail_ite_pause {c : Prop} [Decidable c] {line : Nat} {next : Tracker → Wake → Course}
    {rest : Course} (ht : t.state = .running) (hnext : next t .due = rest) :
    s.trail earlier (if c then t.pause line next else rest) = s.trail earlier rest := by
  split
  · rw [trail_pause ht, hnext]
  · rfl

end Pieces

end Site

namespace Plan

/-- The same script at the same pace, but in this mode. -/
def inMode (p : Plan) (mode : RunMode) : Plan := { p with mode }

/-- What a line asks for is the same in all modes. -/
theorem perform_inMode (p : Plan) (mode : RunMode) (line : Nat) (i : Instruction)
    (next : Step → Course) : (p.inMode mode).perform line i next = p.perform line i next := by
  cases i <;> rfl

end Plan

namespace Site

variable {s : Site} {earlier : List Request} {p : Plan} {line : Nat}

/-- What follows a command may be replaced by what leaves the same trail. -/
theorem trail_send {c : DeviceCommand} {next next' : Step → Course}
    (h : ∀ earlier step, s.trail earlier (next step) = s.trail earlier (next' step)) :
    s.trail earlier (p.send line c next) = s.trail earlier (p.send line c next') := by
  unfold Plan.send
  rw [trail, trail]
  congr 1
  rw [trail, trail]
  split
  · rw [trail, trail, trail_restUnlessStopped, trail_restUnlessStopped, h]
  · rfl

/-- What follows a line may be replaced by what leaves the same trail. -/
theorem trail_perform {i : Instruction} {next next' : Step → Course}
    (h : ∀ earlier step, s.trail earlier (next step) = s.trail earlier (next' step)) :
    s.trail earlier (p.perform line i next) = s.trail earlier (p.perform line i next') := by
  cases i with
  | blank | comment => exact h earlier .goOn
  | wait seconds =>
    simp only [Plan.perform]
    split
    · rw [trail_restUnlessStopped, trail_restUnlessStopped, h]
    · rw [trail, trail, h]
  | command c =>
    simp only [Plan.perform, trail]
    split
    · exact trail_send h
    · rw [trail, trail, h]
  | unrecognized raw reason =>
    simp only [Plan.perform]
    rw [trail, trail, h]

/-- **The lines leave the same trail in both modes.**  By induction on the lines; the state at the
top of each is running, and a pause after it comes back there. -/
theorem trail_lines (mode : RunMode) (last : Option Nat) {items : List (Nat × Instruction)}
    {t : Tracker} {earlier : List Request} (ht : t.state = .running) :
    s.trail earlier ((p.inMode mode).lines last items t) =
      s.trail earlier (p.lines last items t) := by
  induction items generalizing t earlier with
  | nil => rfl
  | cons x rest ih =>
    obtain ⟨line, i⟩ := x
    simp only [Plan.lines, trail, Bool.false_eq_true, if_false]
    split
    · exact ih ht
    · refine trail_moveTo fun t' ht' => ?_
      rw [Plan.perform_inMode]
      refine trail_perform fun earlier step => ?_
      cases step with
      | goOn =>
        have hstate : t'.state = .running := ht'.trans ht
        dsimp only
        rw [trail_ite_pause hstate rfl, trail_ite_pause hstate rfl]
        exact ih hstate
      | stop | fail => rfl

/-- The trail of a run begins with its first log entry, unless no device is connected. -/
theorem trail_course (s : Site) (p : Plan) :
    s.trail [] p.course =
      if s.hasAny then
        (s.trail [] (p.lines p.script.lastExecutable p.script.instructions
          { state := .running })).telling (.log p.openingEntry)
      else { result := some (.error .noDeviceConnected) } := by
  simp only [Plan.course, trail]
  split
  · rw [trail, trail_enter rfl]
    rfl
  · rfl

end Site

/-! ## 4. Both modes -/

/-- The first log entries of the runs of a script differ by the mode that they name, and by nothing
else. -/
theorem Plan.exists_openingEntry_eq (p : Plan) :
    ∃ head, ∀ mode, (p.inMode mode).openingEntry =
      { kind := .info, message := head ++ mode.label ++ " mode)" } :=
  ⟨"Running " ++ p.script.name.getD "script" ++ " (" ++ toString p.script.executableCount ++
    " executable lines, ", fun _ => rfl⟩

/-- **A script does the same in both modes.**  For every script and timing and at every site: each
mode has a whole run, in which nobody asks for a stop and every pause is continued.  Any two whole
runs, in the same mode or in different ones, hand over the same requests, make the same cursors
known and have the same result.  Once the pauses are left out, their log entries are the same from
the second on, and the first ones differ at most by the mode that they name. -/
theorem same_run_in_both_modes (s : Site) (p : Plan) :
    (∀ mode, ∃ ms requests result, s.WholeRun (p.inMode mode).course ms requests result) ∧
      ∀ mode₁ mode₂ ms₁ ms₂ requests₁ requests₂ result₁ result₂,
        s.WholeRun (p.inMode mode₁).course ms₁ requests₁ result₁ →
        s.WholeRun (p.inMode mode₂).course ms₂ requests₂ result₂ →
        requests₁ = requests₂ ∧ cursorsOf ms₁ = cursorsOf ms₂ ∧ result₁ = result₂ ∧
          (s.hasAny = false ∧ plainEntriesOf ms₁ = [] ∧ plainEntriesOf ms₂ = [] ∨
            ∃ head es,
              plainEntriesOf ms₁ =
                { kind := .info, message := head ++ mode₁.label ++ " mode)" } :: es ∧
              plainEntriesOf ms₂ =
                { kind := .info, message := head ++ mode₂.label ++ " mode)" } :: es) := by
  refine ⟨fun mode => s.exists_wholeRun _, ?_⟩
  intro mode₁ mode₂ ms₁ ms₂ requests₁ requests₂ result₁ result₂ h₁ h₂
  have htrail : ∀ mode ms requests result,
      s.WholeRun (p.inMode mode).course ms requests result →
      (⟨requests, cursorsOf ms, plainEntriesOf ms, result⟩ : Trail) =
        if s.hasAny then
          (s.trail [] (p.lines p.script.lastExecutable p.script.instructions
            { state := .running })).telling (.log (p.inMode mode).openingEntry)
        else { result := some (.error .noDeviceConnected) } := by
    intro mode ms requests result h
    rw [← h.trail_eq, s.trail_course, Site.trail_lines mode _ rfl]
    rfl
  obtain ⟨head, hhead⟩ := p.exists_openingEntry_eq
  have e₁ := htrail mode₁ ms₁ requests₁ result₁ h₁
  have e₂ := htrail mode₂ ms₂ requests₂ result₂ h₂
  cases hany : s.hasAny with
  | false =>
    simp only [hany, Bool.false_eq_true, if_false, Trail.mk.injEq] at e₁ e₂
    obtain ⟨rfl, hc₁, he₁, rfl⟩ := e₁
    obtain ⟨rfl, hc₂, he₂, rfl⟩ := e₂
    exact ⟨rfl, hc₁.trans hc₂.symm, rfl, .inl ⟨rfl, he₁, he₂⟩⟩
  | true =>
    simp only [hany, if_true, Trail.telling, Trail.mk.injEq, hhead] at e₁ e₂
    obtain ⟨rfl, hc₁, he₁, rfl⟩ := e₁
    obtain ⟨rfl, hc₂, he₂, rfl⟩ := e₂
    exact ⟨rfl, hc₁.trans hc₂.symm, rfl, .inr ⟨head, _, he₁, he₂⟩⟩

/-- A site at which two devices are connected and no call ever ends. -/
def silentSite : Site where
  hasAny := true
  isConnected name := name = "alpha" || name = "bravo"
  handle _ := .never

/-- A run of the script of `haltedPlan` that goes on by itself. -/
def unpausedMoves : List Move :=
  (haltedPlan.inMode .continuous).openingMoves ++ unansweredMoves "alpha" 0 ++
    [.foundStop false] ++ unansweredMoves "bravo" 2 ++ closingMoves (some 2) .completed

theorem same_run_of_haltedPlan :
    silentSite.WholeRun (haltedPlan.inMode .singleBlock).course continuedMoves
        (requestsOf continuedMoves) (some (.ok .completed)) ∧
      silentSite.WholeRun (haltedPlan.inMode .continuous).course unpausedMoves
        (requestsOf unpausedMoves) (some (.ok .completed)) ∧
      requestsOf continuedMoves = requestsOf unpausedMoves ∧
      cursorsOf continuedMoves = cursorsOf unpausedMoves := by
  have h₁ : silentSite.WholeRun (haltedPlan.inMode .singleBlock).course continuedMoves
      (requestsOf continuedMoves) (some (.ok .completed)) :=
    .ended (Course.trace_of_resultAfter? (by decide)) (by decide)
  have h₂ : silentSite.WholeRun (haltedPlan.inMode .continuous).course unpausedMoves
      (requestsOf unpausedMoves) (some (.ok .completed)) :=
    .ended (Course.trace_of_resultAfter? (by decide)) (by decide)
  obtain ⟨hrequests, hcursors, -⟩ :=
    (same_run_in_both_modes silentSite haltedPlan).2 _ _ _ _ _ _ _ _ h₁ h₂
  exact ⟨h₁, h₂, hrequests, hcursors⟩

end DeviceScript
