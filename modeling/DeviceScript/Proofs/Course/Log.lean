import DeviceScript.Proofs.Course.Pauses
/-!
# The log of a run

The log of a run that ended with an outcome has a fixed form (`entries_of_ended_run`): one entry that
opens it, then one block for each line that the run came to, in the order of the script, and then the
entry that belongs to the outcome.  A block is a function of the instruction of its line and of what
the run met with there (`Plan.blockAt`): whether the device was connected, what came of the call, and
whether the run paused.  So no command is logged as sent without its result right behind it, however
the call ended and whoever asked for a stop in the meantime.

What a run met with at a line is read off its moves, which are cut where it comes to a line
(`visitsOf`).  The cut falls behind what the run does between two lines, and what it does there has no
part in any block (`Plan.RunMoves.isOfLine_takeWhile`); the rest is an induction on the lines that the
run takes.

The entries have names, such as `sentEntry`, and the form of the log says in which order they come.
What an operator reads in them, their kinds, messages, devices and lines, is spelled out besides.
-/

namespace DeviceScript

variable {p : Plan} {last : Option Nat} {line : Nat} {i : Instruction} {cur : Option Nat}
  {items : List (Nat × Instruction)} {ms ms' : List Move} {s : Step} {o : RunOutcome}

/-! ## 1. Visits -/

/-- Whether a run comes to a line with this move. -/
def Move.isArrival : Move → Bool
  | told (.cursor (some _)) => true
  | _ => false

/-- The lines that a run comes to, each with the moves up to where it comes to the next one. -/
def visitsOf : List Move → List (Nat × List Move)
  | [] => []
  | .told (.cursor (some line)) :: ms => (line, ms.takeWhile (!·.isArrival)) :: visitsOf ms
  | _ :: ms => visitsOf ms

/-- The devices that were asked for, and whether they were connected. -/
def foundIn (ms : List Move) : List (String × Bool) :=
  ms.filterMap fun
    | .foundDevice name a => some (name, a)
    | _ => none

/-- The calls that were made, and what came of them; nothing when the time was up. -/
def callsIn (ms : List Move) : List (Request × Option CallResult) :=
  ms.filterMap fun
    | .called request _ result => some (request, result)
    | _ => none

theorem callsIn_append (ms ms' : List Move) : callsIn (ms ++ ms') = callsIn ms ++ callsIn ms' :=
  List.filterMap_append

/-- Whether the move is one that a block of the log depends on. -/
def Move.isOfLine : Move → Bool
  | foundDevice .. | called .. | told (.state .paused) => true
  | _ => false

theorem visitsOf_append (h : ∀ m ∈ ms, m.isArrival = false) :
    visitsOf (ms ++ ms') = visitsOf ms' := by
  induction ms with
  | nil => rfl
  | cons m ms ih =>
    obtain ⟨hm, hms⟩ := List.forall_mem_cons.mp h
    rw [List.cons_append, visitsOf]
    · exact ih hms
    · rintro l rfl
      cases hm

theorem takeWhile_append (h : ∀ m ∈ ms, m.isArrival = false) :
    (ms ++ ms').takeWhile (!·.isArrival) = ms ++ ms'.takeWhile (!·.isArrival) := by
  refine List.takeWhile_append_of_pos fun m hm => ?_
  rw [h m hm]
  rfl

section Quiet

variable {ms' : List Move} (h : ∀ m ∈ ms', m.isOfLine = false)

include h

theorem foundIn_append_of_quiet (ms : List Move) : foundIn (ms ++ ms') = foundIn ms := by
  have hnil : foundIn ms' = [] := List.filterMap_eq_nil_iff.mpr fun m hm => by
    have hq := h m hm
    cases m <;> first | rfl | cases hq
  rw [foundIn, List.filterMap_append]
  exact (congrArg (foundIn ms ++ ·) hnil).trans (List.append_nil _)

theorem callsIn_append_of_quiet (ms : List Move) : callsIn (ms ++ ms') = callsIn ms := by
  have hnil : callsIn ms' = [] := List.filterMap_eq_nil_iff.mpr fun m hm => by
    have hq := h m hm
    cases m <;> first | rfl | cases hq
  rw [callsIn_append, hnil, List.append_nil]

theorem mem_paused_append_of_quiet (ms : List Move) :
    .told (.state .paused) ∈ ms ++ ms' ↔ .told (.state .paused) ∈ ms := by
  rw [List.mem_append, or_iff_left]
  intro hm
  exact Bool.false_ne_true (h _ hm).symm

end Quiet

/-! ## 2. Blocks -/

/-- The log entries of an instruction, by what the run met with at its line. -/
def Plan.reportAt (p : Plan) (line : Nat) (v : List Move) : Instruction → List Log.Entry
  | .blank | .comment => []
  | .wait seconds => if seconds.bind delayNanos? = none then [p.malformedEntry line] else []
  | .command c =>
    if (c.device, true) ∈ foundIn v then
      sentEntry c line :: (callsIn v).map fun call => resultEntry c line p.timing.limit call.2
    else [unconnectedEntry c line]
  | .unrecognized raw reason => [skippedEntry raw reason line]

/-- The log entries of a line: those of its instruction, and one on the pause if the run paused. -/
def Plan.blockAt (p : Plan) (x : Nat × Instruction) (v : Nat × List Move) : List Log.Entry :=
  p.reportAt x.1 v.2 x.2 ++ if .told (.state .paused) ∈ v.2 then [pauseEntry x.1] else []

/-- The last log entry of a run with this outcome. -/
def RunOutcome.closingEntries : RunOutcome → List Log.Entry
  | completed => [Tracker.completedEntry]
  | stopped => [Tracker.stoppedEntry]
  | failed _ => []

/-- What a run meets with at a command: its device is asked for once, and the command is handed over
once if it is connected. -/
def Instruction.IsMetIn (i : Instruction) (v : List Move) : Prop :=
  ∀ c, i = .command c →
    (foundIn v = [(c.device, false)] ∧ callsIn v = []) ∨
      ∃ result, foundIn v = [(c.device, true)] ∧ callsIn v = [(⟨c.device, c.payload⟩, result)]

/-- A rest asks for no device, calls none and tells nothing. -/
theorem RestMoves.isOfLine_eq {nanos : Nat} (h : RestMoves nanos ms s) :
    ∀ m ∈ ms, m.isOfLine = false := by
  cases h <;> exact List.forall_mem_singleton.mpr rfl

theorem RestMoves.entriesOf_eq {nanos : Nat} (h : RestMoves nanos ms s) : entriesOf ms = [] := by
  rw [entriesOf, h.noticesOf_eq]
  rfl

namespace Plan

/-- **What a run logs at an instruction** is what its block says. -/
theorem PerformMoves.entriesOf_eq (h : p.PerformMoves line i ms s) :
    entriesOf ms = p.reportAt line ms i ∧ i.IsMetIn ms ∧ .told (.state .paused) ∉ ms := by
  cases h with
  | waited hd hr =>
    refine ⟨?_, nofun, fun hm => Bool.false_ne_true (hr.isOfLine_eq _ hm).symm⟩
    rw [hr.entriesOf_eq, reportAt, hd, if_neg (Option.some_ne_none _)]
  | malformed hd => exact ⟨by rw [reportAt, hd]; rfl, nofun, by simp⟩
  | @sent c result ms _ hr =>
    have hfound : foundIn (.foundDevice c.device true :: .told (.log (sentEntry c line)) ::
        .called ⟨c.device, c.payload⟩ p.timing.limit result ::
        .told (.log (resultEntry c line p.timing.limit result)) :: ms) = [(c.device, true)] :=
      foundIn_append_of_quiet hr.isOfLine_eq [_, _, _, _]
    have hcalls : callsIn (.foundDevice c.device true :: .told (.log (sentEntry c line)) ::
        .called ⟨c.device, c.payload⟩ p.timing.limit result ::
        .told (.log (resultEntry c line p.timing.limit result)) :: ms)
          = [(⟨c.device, c.payload⟩, result)] :=
      callsIn_append_of_quiet hr.isOfLine_eq [_, _, _, _]
    refine ⟨?_, ?_, ?_⟩
    · rw [reportAt, hfound, hcalls, if_pos List.mem_cons_self]
      exact congrArg (_ :: _ :: ·) hr.entriesOf_eq
    · rintro _ ⟨⟩
      exact .inr ⟨result, hfound, hcalls⟩
    · exact (mem_paused_append_of_quiet hr.isOfLine_eq [_, _, _, _]).not.mpr (by simp)
  | unconnected c =>
    refine ⟨?_, ?_, by simp⟩
    · rw [reportAt, if_neg (by simp [foundIn])]
      rfl
    · rintro _ ⟨⟩
      exact .inl ⟨rfl, rfl⟩
  | skipped raw reason => exact ⟨rfl, nofun, by simp⟩

/-- A report depends on the answers about the device and on the call. -/
theorem reportAt_congr {v v' : List Move} (hf : foundIn v = foundIn v')
    (hc : callsIn v = callsIn v') (i : Instruction) : p.reportAt line v i = p.reportAt line v' i := by
  cases i with
  | command c => rw [reportAt, reportAt, hf, hc]
  | _ => rfl

/-- **What a run logs at a line** is its block, whatever it does before it comes to the next one. -/
theorem LineMoves.entriesOf_eq (h : p.LineMoves last line i ms s)
    (hq : ∀ m ∈ ms', m.isOfLine = false) :
    entriesOf ms = p.blockAt (line, i) (line, ms ++ ms') ∧ i.IsMetIn (ms ++ ms') := by
  simp only [blockAt, Instruction.IsMetIn, foundIn_append_of_quiet hq, callsIn_append_of_quiet hq,
    mem_paused_append_of_quiet hq,
    reportAt_congr (foundIn_append_of_quiet hq ms) (callsIn_append_of_quiet hq ms)]
  cases h with
  | plain hp _ =>
    obtain ⟨he, hm, hn⟩ := hp.entriesOf_eq
    exact ⟨by rw [if_neg hn, List.append_nil, he], hm⟩
  | @paused ms pms w hp _ hw =>
    obtain ⟨he, hm, hn⟩ := hp.entriesOf_eq
    -- a pause has nothing to do with the command of the line
    have hfound : foundIn (ms ++ pms) = foundIn ms := by
      rw [foundIn, List.filterMap_append]
      cases hw <;> exact List.append_nil _
    have hcalls : callsIn (ms ++ pms) = callsIn ms := by
      rw [callsIn_append]
      cases hw <;> exact List.append_nil _
    rw [reportAt_congr hfound hcalls, hfound, hcalls, entriesOf_append, he]
    refine ⟨congrArg (p.reportAt line ms i ++ ·) ?_, hm⟩
    cases hw with
    | refused => rw [if_neg (by simpa using hn)]; rfl
    | stopped | continued => rw [if_pos (by simp)]; rfl

/-! ## 3. All lines -/

/-- A line is come to before anything is done at it. -/
theorem LineMoves.isArrival_eq (h : p.LineMoves last line i ms s) :
    ∀ m ∈ ms, m.isArrival = false := by
  intro m hm
  cases hc : m.isArrival with
  | false => rfl
  | true =>
    have hmem : ∃ l, l ∈ cursorsOf ms := by
      unfold Move.isArrival at hc
      split at hc
      · rename_i l
        exact ⟨some l, List.mem_filterMap.mpr
          ⟨.cursor (some l), List.mem_filterMap.mpr ⟨_, hm, rfl⟩, rfl⟩⟩
      · cases hc
    obtain ⟨l, hl⟩ := hmem
    rw [h.cursorsOf_eq] at hl
    cases hl

theorem isArrival_closingMoves (cur : Option Nat) (o : RunOutcome) :
    ∀ m ∈ closingMoves cur o, m.isArrival = false := by
  cases o <;> cases cur <;> simp [closingMoves, closingNotices, Move.isArrival]

theorem isOfLine_closingMoves (cur : Option Nat) (o : RunOutcome) :
    ∀ m ∈ closingMoves cur o, m.isOfLine = false := by
  cases o <;> cases cur <;> simp [closingMoves, closingNotices, Move.isOfLine]

theorem visitsOf_closingMoves (cur : Option Nat) (o : RunOutcome) :
    visitsOf (closingMoves cur o) = [] := by
  have h : visitsOf (closingMoves cur o ++ []) = visitsOf [] :=
    visitsOf_append (isArrival_closingMoves cur o)
  rwa [List.append_nil] at h

theorem entriesOf_closingMoves (cur : Option Nat) (o : RunOutcome) :
    entriesOf (closingMoves cur o) = o.closingEntries := by
  rw [entriesOf, closingMoves, noticesOf_map_told]
  cases o <;> cases cur <;> rfl

/-- What a run does between two lines is part of no block. -/
theorem RunMoves.isOfLine_takeWhile (h : p.RunMoves last items cur ms o) :
    ∀ m ∈ ms.takeWhile (!·.isArrival), m.isOfLine = false := by
  have hclose : ∀ cur o, ∀ m ∈ (closingMoves cur o).takeWhile (!·.isArrival),
      m.isOfLine = false :=
    fun cur o m hm => isOfLine_closingMoves cur o m ((List.takeWhile_sublist _).subset hm)
  induction h with
  | completed => exact hclose _ _
  | stopped => exact List.forall_mem_cons.mpr ⟨rfl, hclose _ _⟩
  | passedOver _ _ ih => exact List.forall_mem_cons.mpr ⟨rfl, ih⟩
  | taken | broken => exact List.forall_mem_singleton.mpr rfl

/-- The log of a run that takes these lines with this outcome, from where it comes to the first. -/
structure Logs (p : Plan) (items : List (Nat × Instruction)) (ms : List Move) (o : RunOutcome) :
    Prop where
  lines : ∃ n, (visitsOf ms).map (·.1) = ((executablesOf items).take n).map (·.1) ∧
    (o = .completed → n = (executablesOf items).length)
  entries : entriesOf ms
    = (List.zipWith p.blockAt (executablesOf items) (visitsOf ms)).flatten ++ o.closingEntries
  met : ∀ x ∈ (executablesOf items).zip (visitsOf ms), x.1.2.IsMetIn x.2.2

/-- A run that comes to no line any more logs its outcome only. -/
theorem logs_closingMoves (cur : Option Nat) (hc : o = .completed → executablesOf items = []) :
    p.Logs items (closingMoves cur o) o where
  lines := ⟨0, by rw [visitsOf_closingMoves]; rfl, fun ho => by rw [hc ho]; rfl⟩
  entries := by
    rw [visitsOf_closingMoves, List.zipWith_nil_right, entriesOf_closingMoves]
    rfl
  met := by
    rw [visitsOf_closingMoves, List.zip_nil_right]
    exact nofun

/-- One more line in front, with its block. -/
theorem Logs.cons (h : p.Logs items ms' o) (hi : i.isExecutable = true)
    (hl : p.LineMoves last line i ms s)
    (hq : ∀ m ∈ ms'.takeWhile (!·.isArrival), m.isOfLine = false) :
    p.Logs ((line, i) :: items)
      (.foundStop false :: .told (.cursor (some line)) :: (ms ++ ms')) o := by
  have hvisits : visitsOf (.foundStop false :: .told (.cursor (some line)) :: (ms ++ ms'))
      = (line, ms ++ ms'.takeWhile (!·.isArrival)) :: visitsOf ms' := by
    change (line, (ms ++ ms').takeWhile (!·.isArrival)) :: visitsOf (ms ++ ms') = _
    rw [takeWhile_append hl.isArrival_eq, visitsOf_append hl.isArrival_eq]
  have hex : executablesOf ((line, i) :: items) = (line, i) :: executablesOf items :=
    executablesOf_cons_of_pos hi
  obtain ⟨he, hm⟩ := hl.entriesOf_eq hq
  obtain ⟨n, hn, hc⟩ := h.lines
  refine ⟨⟨n + 1, ?_, fun ho => ?_⟩, ?_, ?_⟩
  · rw [hvisits, hex, List.take_succ_cons, List.map_cons, List.map_cons, hn]
  · rw [hex, List.length_cons, hc ho]
  · change entriesOf (ms ++ ms') = _
    rw [hvisits, hex, entriesOf_append, he, h.entries, List.zipWith_cons_cons, List.flatten_cons,
      List.append_assoc]
  · rw [hvisits, hex, List.zip_cons_cons]
    exact List.forall_mem_cons.mpr ⟨hm, h.met⟩

/-- **The log from the top of the lines**: a block for each line that the run comes to. -/
theorem RunMoves.logs (h : p.RunMoves last items cur ms o) : p.Logs items ms o := by
  induction h with
  | completed => exact logs_closingMoves _ fun _ => rfl
  | @stopped x more cur =>
    have hl : p.Logs (x :: more) (closingMoves cur .stopped) .stopped := logs_closingMoves cur nofun
    exact ⟨hl.lines, hl.entries, hl.met⟩
  | @passedOver line i more _ _ _ hi _ ih =>
    have hex : executablesOf ((line, i) :: more) = executablesOf more :=
      executablesOf_cons_of_neg hi
    exact ⟨by rw [hex]; exact ih.lines, by rw [hex]; exact ih.entries, by rw [hex]; exact ih.met⟩
  | taken hi hl hr ih => exact ih.cons hi hl hr.isOfLine_takeWhile
  | @broken line i more _ _ s o hi hl ho =>
    have hne : o ≠ .completed := by
      rintro rfl
      exact s.outcome?_ne_completed ho
    refine (logs_closingMoves _ fun h => absurd h hne).cons hi hl fun m hm => ?_
    exact isOfLine_closingMoves _ _ m ((List.takeWhile_sublist _).subset hm)

/-- A line at which a run fails logs that its device is not connected, and no more. -/
theorem LineMoves.entriesOf_fail {reason : String} (h : p.LineMoves last line i ms s)
    (hs : s = .fail reason) :
    ∃ c, entriesOf ms = [unconnectedEntry c line] ∧ reason = unconnectedReason c line := by
  cases h with
  | plain hp _ =>
    subst hs
    cases hp with
    | waited _ hr => exact absurd rfl (hr.ne_fail reason)
    | sent _ _ hr => exact absurd rfl (hr.ne_fail reason)
    | unconnected c => exact ⟨c, rfl, rfl⟩
  | @paused _ _ w _ _ _ => cases w <;> cases hs

/-- **The last thing that a failed run logs** is that the device it came to is not connected. -/
theorem RunMoves.entriesOf_failed {reason : String} (h : p.RunMoves last items cur ms o)
    (ho : o = .failed reason) :
    ∃ c line before, entriesOf ms = before ++ [unconnectedEntry c line] ∧
      reason = unconnectedReason c line := by
  induction h with
  | completed | stopped => cases ho
  | passedOver _ _ ih => exact ih ho
  | @taken _ _ _ _ ms ms' _ _ _ _ ih =>
    obtain ⟨c, line, before, he, hr⟩ := ih ho
    refine ⟨c, line, entriesOf ms ++ before, ?_, hr⟩
    change entriesOf (ms ++ ms') = _
    rw [entriesOf_append, he, List.append_assoc]
  | @broken line _ _ _ ms s _ _ hl hs =>
    subst ho
    obtain ⟨c, he, hr⟩ := hl.entriesOf_fail (Step.eq_fail hs)
    refine ⟨c, line, [], ?_, hr⟩
    change entriesOf (ms ++ closingMoves (some line) (.failed reason)) = _
    rw [entriesOf_append, he, entriesOf_closingMoves]
    rfl

end Plan

/-! ## 4. What is sent has a result -/

/-- Only an acknowledgement gives no reason for an error. -/
theorem failureReason?_eq_none_iff {limit : Option Nat} {result : Option CallResult} :
    failureReason? limit result = none ↔
      ∃ reply : Reply, result = some (.replied reply) ∧ reply.success = true := by
  cases result with
  | none => simp [failureReason?]
  | some result => cases result <;> simp [failureReason?]

/-- A result is logged as a success or as an error, with the device and the line of its command. -/
theorem resultEntry_cases (c : DeviceCommand) (line : Nat) (limit : Option Nat)
    (result : Option CallResult) :
    (resultEntry c line limit result).device = some c.device ∧
      (resultEntry c line limit result).line = some line ∧
      ((∃ reply : Reply, result = some (.replied reply) ∧ reply.success = true) ∧
          (resultEntry c line limit result).kind = .success ∨
        (¬ ∃ reply : Reply, result = some (.replied reply) ∧ reply.success = true) ∧
          (resultEntry c line limit result).kind = .error) := by
  rw [← @failureReason?_eq_none_iff limit result]
  unfold resultEntry
  cases failureReason? limit result with
  | none => exact ⟨rfl, rfl, .inl ⟨rfl, rfl⟩⟩
  | some reason => exact ⟨rfl, rfl, .inr ⟨nofun, rfl⟩⟩

/-- **What the log says of a result**: that the command was acknowledged, or why it was not. -/
theorem message_resultEntry (c : DeviceCommand) (line : Nat) (limit : Option Nat)
    (result : Option CallResult) :
    (resultEntry c line limit result).message = match result with
      | some (.replied reply) =>
        if reply.success then "acknowledged '" ++ c.payload ++ "'"
        else "Command '" ++ c.payload ++ "' failed: " ++ reply.error.getD "device reported failure"
      | some (.failed e) => "Command '" ++ c.payload ++ "' failed: " ++ e.message
      | some (.crashed crash) =>
        "Command '" ++ c.payload ++ "' failed: " ++ ("gateway panicked: " ++ crash.message)
      | none =>
        "Command '" ++ c.payload ++ "' failed: " ++
          ("no reply within " ++ toString (limit.getD 0) ++ " ms") := by
  cases result with
  | none => rfl
  | some result =>
    cases result with
    | failed | crashed => rfl
    | replied reply =>
      obtain ⟨success, error⟩ := reply
      cases success <;> rfl

/-- In these log entries every command that is sent is followed by its result. -/
inductive Plan.IsPaired (p : Plan) : List Log.Entry → Prop
  | nil : IsPaired p []
  | other {e : Log.Entry} {es : List Log.Entry} (he : e.kind ≠ .sent) (h : IsPaired p es) :
      IsPaired p (e :: es)
  | sent (c : DeviceCommand) (line : Nat) (result : Option CallResult) {es : List Log.Entry}
      (h : IsPaired p es) :
      IsPaired p (sentEntry c line :: resultEntry c line p.timing.limit result :: es)

namespace Plan.IsPaired

variable {es es' : List Log.Entry}

theorem append (h : p.IsPaired es) (h' : p.IsPaired es') : p.IsPaired (es ++ es') := by
  induction h with
  | nil => exact h'
  | other he _ ih => exact .other he ih
  | sent c line result _ ih => exact .sent c line result ih

theorem flatten {bs : List (List Log.Entry)} (h : ∀ b ∈ bs, p.IsPaired b) :
    p.IsPaired bs.flatten := by
  induction bs with
  | nil => exact .nil
  | cons b bs ih =>
    obtain ⟨hb, hbs⟩ := List.forall_mem_cons.mp h
    exact hb.append (ih hbs)

/-- An entry on a command that is sent stands right before one on its result. -/
theorem exists_result (h : p.IsPaired es) {before after : List Log.Entry} {e : Log.Entry}
    (hes : es = before ++ e :: after) (he : e.kind = .sent) :
    ∃ c line result rest, e = sentEntry c line ∧
      after = resultEntry c line p.timing.limit result :: rest := by
  induction h generalizing before with
  | nil => exact absurd hes.symm (List.append_ne_nil_of_right_ne_nil _ (List.cons_ne_nil _ _))
  | other hk _ ih =>
    cases before with
    | nil =>
      obtain ⟨rfl, rfl⟩ := List.cons.inj hes
      exact absurd he hk
    | cons b before =>
      obtain ⟨rfl, hrest⟩ := List.cons.inj hes
      exact ih hrest
  | @sent c line result es _ ih =>
    cases before with
    | nil =>
      obtain ⟨rfl, rfl⟩ := List.cons.inj hes
      exact ⟨c, line, result, es, rfl, rfl⟩
    | cons b before =>
      obtain ⟨rfl, hrest⟩ := List.cons.inj hes
      cases before with
      | nil =>
        -- the result itself is not on a command that is sent
        obtain ⟨rfl, rfl⟩ := List.cons.inj hrest
        obtain ⟨-, -, ⟨-, hk⟩ | ⟨-, hk⟩⟩ := resultEntry_cases c line p.timing.limit result <;>
          rw [hk] at he <;> cases he
      | cons b' before =>
        obtain ⟨rfl, hmore⟩ := List.cons.inj hrest
        exact ih hmore

end Plan.IsPaired

/-- In every block a command that is sent is followed by its result. -/
theorem Plan.isPaired_blockAt {x : Nat × Instruction} {v : Nat × List Move}
    (h : x.2.IsMetIn v.2) : p.IsPaired (p.blockAt x v) := by
  have hother : ∀ {e : Log.Entry}, e.kind ≠ .sent → p.IsPaired [e] := fun he => .other he .nil
  refine .append ?_ ?_
  · obtain ⟨line, i⟩ := x
    cases i with
    | blank | comment => exact .nil
    | wait seconds =>
      simp only [reportAt]
      split
      · exact hother nofun
      · exact .nil
    | command c =>
      rcases h c rfl with ⟨hf, -⟩ | ⟨result, hf, hc⟩
      · simp only [reportAt, hf]
        rw [if_neg (by simp)]
        exact hother nofun
      · simp only [reportAt, hf, hc]
        rw [if_pos List.mem_cons_self]
        exact .sent c line result .nil
    | unrecognized raw reason => exact hother nofun
  · split
    · exact hother nofun
    · exact .nil

/-- **The log of a run.**  For every script, mode and timing, whatever the answers are and whoever asks
for stops and continues when: the log of a run that ended with an outcome is its opening entry, then
one block for each of the first `n` executable lines of the script, which are the lines that it came
to, and then the entry of its outcome.

A block is a function of the line's instruction and of what the run met with at the line.  For a
command this is that the device was found unconnected and nothing was called, or that it was found
connected and was called exactly once, with the payload.  A completed run has come to every
executable line.

The entries are spelled out: the opening one; that on a command that is sent, with its payload, device
and line; that on its result, for the same device and line, which is a success iff the call brought,
within the time, a reply that says so, and otherwise an error that says why; the warnings on a delay
and on a line that are not understood; the one on a pause; and that of the outcome.

Every entry on a command that is sent stands right before one on its result, and a failed run logs
nothing after the error on the device that was not connected. -/
theorem entries_of_ended_run {p : Plan} {ms : List Move} {o : RunOutcome}
    (h : Course.Trace p.course ms (.ended (.ok o))) :
    (∃ n, (visitsOf ms).map (·.1) = (p.script.executables.take n).map (·.1) ∧
        (o = .completed → n = p.script.executableCount)) ∧
      entriesOf ms = p.openingEntry ::
        ((List.zipWith p.blockAt p.script.executables (visitsOf ms)).flatten ++ o.closingEntries) ∧
      (∀ x ∈ p.script.executables.zip (visitsOf ms), x.1.2.IsMetIn x.2.2) ∧
      p.openingEntry = {
        kind := .info
        message := "Running " ++ p.script.name.getD "script" ++ " (" ++
          toString p.script.executableCount ++ " executable lines, " ++ p.mode.label ++ " mode)" } ∧
      (∀ c line, sentEntry c line = {
        kind := .sent, message := c.payload, device := some c.device, line := some line }) ∧
      (∀ c line result,
        (resultEntry c line p.timing.limit result).device = some c.device ∧
        (resultEntry c line p.timing.limit result).line = some line ∧
        ((∃ reply : Reply, result = some (.replied reply) ∧ reply.success = true) ∧
            (resultEntry c line p.timing.limit result).kind = .success ∨
          (¬ ∃ reply : Reply, result = some (.replied reply) ∧ reply.success = true) ∧
            (resultEntry c line p.timing.limit result).kind = .error) ∧
        (resultEntry c line p.timing.limit result).message = match result with
          | some (.replied reply) =>
            if reply.success then "acknowledged '" ++ c.payload ++ "'"
            else
              "Command '" ++ c.payload ++ "' failed: " ++ reply.error.getD "device reported failure"
          | some (.failed e) => "Command '" ++ c.payload ++ "' failed: " ++ e.message
          | some (.crashed crash) =>
            "Command '" ++ c.payload ++ "' failed: " ++ ("gateway panicked: " ++ crash.message)
          | none =>
            "Command '" ++ c.payload ++ "' failed: " ++
              ("no reply within " ++ toString (p.timing.limit.getD 0) ++ " ms")) ∧
      (∀ c line, unconnectedEntry c line = {
        kind := .error
        message := "Device '" ++ c.device ++ "' is not connected (line " ++ toString (line + 1) ++ ")"
        device := some c.device
        line := some line }) ∧
      (∀ line, p.malformedEntry line = {
        kind := .warning
        message := "Malformed wait duration on line " ++ toString (line + 1) ++ " '" ++
          p.script.trimmedLine line ++ "', not waiting"
        device := none
        line := some line }) ∧
      (∀ raw reason line, skippedEntry raw reason line = {
        kind := .warning
        message := "Skipping line " ++ toString (line + 1) ++ " '" ++ raw ++ "': " ++ reason.text
        device := none
        line := some line }) ∧
      (∀ line, pauseEntry line = {
        kind := .pause
        message := "Paused after line " ++ toString (line + 1) ++
          ", continue to execute the next line"
        device := none
        line := some line }) ∧
      o.closingEntries = (match o with
        | .completed => [{
          kind := .success, message := "Script completed", device := none, line := none }]
        | .stopped => [{
          kind := .stop, message := "Script stopped by operator", device := none, line := none }]
        | .failed _ => []) ∧
      (∀ before e after, entriesOf ms = before ++ e :: after → e.kind = .sent →
        ∃ c line result rest, e = sentEntry c line ∧
          after = resultEntry c line p.timing.limit result :: rest) ∧
      ∀ reason, o = .failed reason → ∃ c line before,
        entriesOf ms = before ++ [unconnectedEntry c line] ∧ reason = unconnectedReason c line := by
  rcases Plan.runMoves_of_trace h with ⟨-, hr⟩ | ⟨o', ms', ho, rfl, hr⟩
  · cases hr
  · obtain rfl : o = o' := Except.ok.inj ho
    have hl := hr.logs
    have hentries : entriesOf (p.openingMoves ++ ms') = p.openingEntry :: entriesOf ms' := rfl
    have hvisits : visitsOf (p.openingMoves ++ ms') = visitsOf ms' := rfl
    have hblocks : p.IsPaired
        (List.zipWith p.blockAt (executablesOf p.script.instructions) (visitsOf ms')).flatten := by
      refine .flatten fun b hb => ?_
      rw [← List.map_uncurry_zip_eq_zipWith] at hb
      obtain ⟨x, hx, rfl⟩ := List.mem_map.mp hb
      exact Plan.isPaired_blockAt (hl.met x hx)
    have hclosing : p.IsPaired o.closingEntries := by
      cases o with
      | completed | stopped => exact .other nofun .nil
      | failed reason => exact .nil
    rw [hentries, hvisits]
    refine ⟨hl.lines, congrArg _ hl.entries, hl.met, rfl, fun _ _ => rfl, fun c line result => ?_,
      fun _ _ => rfl, fun _ => rfl, fun _ _ _ => rfl, fun _ => rfl, by cases o <;> rfl,
      fun before e after he hk => ?_, fun reason ho => ?_⟩
    · obtain ⟨hdevice, hline, hkind⟩ := resultEntry_cases c line p.timing.limit result
      exact ⟨hdevice, hline, hkind, message_resultEntry c line p.timing.limit result⟩
    · have hopening : p.openingEntry.kind ≠ .sent := nofun
      rw [hl.entries] at he
      exact (Plan.IsPaired.other hopening (hblocks.append hclosing)).exists_result he hk
    · obtain ⟨c, line, before, he, hreason⟩ := hr.entriesOf_failed ho
      exact ⟨c, line, p.openingEntry :: before, by rw [he, List.cons_append], hreason⟩

/-- A run that gets no reply and is stopped at its pause logs the command with its result, the pause
and the stop. -/
theorem entries_of_halted_run :
    Course.Trace haltedPlan.course haltedMoves (.ended (.ok .stopped)) ∧
      entriesOf haltedMoves = [
        { kind := .info, message := "Running script (2 executable lines, single-block mode)" },
        { kind := .sent, message := "home", device := some "alpha", line := some 0 },
        { kind := .error, message := "Command 'home' failed: no reply within 10000 ms",
          device := some "alpha", line := some 0 },
        { kind := .pause, message := "Paused after line 1, continue to execute the next line",
          line := some 0 },
        { kind := .stop, message := "Script stopped by operator" }] := by
  have h : Course.Trace haltedPlan.course haltedMoves (.ended (.ok .stopped)) :=
    Course.trace_of_resultAfter? (by decide)
  exact ⟨h, (entries_of_ended_run h).2.1.trans (by decide +kernel)⟩

end DeviceScript
