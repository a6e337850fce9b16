import DeviceScript.Proofs.Course.States
/-!
# The commands of a run

A run hands the commands of its script to the gateway.  Devices come and go while it is suspended,
so what it finds out about them is given by who is connected between one suspension and the next
(`Heeds`).  Whatever happens at the calls, at the rests and at the pauses: the commands are handed
over in the order of the script, each once and none left out, and each to a device that is connected
at that moment (`handovers_of_ended_run`).  A run that completes has handed over all of them.  A run
that fails has come to the first command that it did not hand over, found its device unconnected,
and done nothing at any line behind it.

The argument follows the lines.  A line hands over its own command or, when it makes the run fail,
nothing (`Plan.LineMoves.handovers_eq`); what is handed over from the top of some lines on
(`HandsOverFirst`) then follows line by line.
-/

namespace DeviceScript

/-! ## 1. Handovers -/

/-- A command at the moment when it is handed to the gateway: the line that the run is at, and
whether the device is connected. -/
structure Handover where
  line : Option Nat
  request : Request
  connected : Bool
  deriving Repr, DecidableEq

/-- The answers about devices are those of `connected`, which says who is connected after so many
suspensions; `k` of them lie behind. -/
def Heeds (connected : Nat → String → Bool) : Nat → List Move → Prop
  | _, [] => True
  | k, .foundDevice name a :: ms => connected k name = a ∧ Heeds connected k ms
  | k, m :: ms => Heeds connected (k + suspensionsOf [m]) ms

/-- The line that a run is at after a move, when it was at `cur`. -/
def Move.cursorFrom (cur : Option Nat) : Move → Option Nat
  | told (.cursor line) => line
  | _ => cur

/-- What a move hands over. -/
def Move.handover? (connected : String → Bool) (cur : Option Nat) : Move → Option Handover
  | called request _ _ => some ⟨cur, request, connected request.device⟩
  | _ => none

/-- What is handed over after `k` suspensions, the run being at the line `cur`. -/
def handovers (connected : Nat → String → Bool) : Nat → Option Nat → List Move → List Handover
  | _, _, [] => []
  | k, cur, m :: ms =>
    (m.handover? (connected k) cur).toList ++
      handovers connected (k + suspensionsOf [m]) (m.cursorFrom cur) ms

section Append

variable {connected : Nat → String → Bool}

theorem suspensionsOf_cons (m : Move) (ms : List Move) :
    suspensionsOf (m :: ms) = suspensionsOf [m] + suspensionsOf ms :=
  suspensionsOf_append [m] ms

theorem suspensionsOf_cons_of_neg {m : Move} {ms : List Move} (h : m.isSuspension = false) :
    suspensionsOf (m :: ms) = suspensionsOf ms :=
  List.countP_cons_of_neg (by rw [h]; exact Bool.false_ne_true)

/-- Telling suspends nothing. -/
theorem suspensionsOf_map_told : ∀ ns : List Notice, suspensionsOf (ns.map .told) = 0
  | [] => rfl
  | _ :: ns => (suspensionsOf_cons_of_neg rfl).trans (suspensionsOf_map_told ns)

theorem heeds_cons {k : Nat} {m : Move} {ms : List Move} (h : Heeds connected k (m :: ms)) :
    Heeds connected (k + suspensionsOf [m]) ms := by
  cases m with
  | foundDevice name a => exact h.2
  | _ => exact h

theorem heeds_append : ∀ {ms₁ : List Move} {k : Nat} {ms₂ : List Move},
    Heeds connected k (ms₁ ++ ms₂) →
      Heeds connected k ms₁ ∧ Heeds connected (k + suspensionsOf ms₁) ms₂
  | [], _, _, h => ⟨trivial, h⟩
  | m :: ms₁, k, ms₂, h => by
    obtain ⟨h1, h2⟩ := heeds_append (heeds_cons h)
    rw [suspensionsOf_cons, ← Nat.add_assoc]
    refine ⟨?_, h2⟩
    cases m with
    | foundDevice name a => exact ⟨h.1, h1⟩
    | _ => exact h1

theorem handovers_append : ∀ (ms₁ : List Move) (k : Nat) (cur : Option Nat) (ms₂ : List Move),
    handovers connected k cur (ms₁ ++ ms₂) =
      handovers connected k cur ms₁ ++
        handovers connected (k + suspensionsOf ms₁) (ms₁.foldl Move.cursorFrom cur) ms₂
  | [], _, _, _ => rfl
  | m :: ms₁, k, cur, ms₂ => by
    rw [List.cons_append, handovers, handovers_append ms₁, handovers, suspensionsOf_cons m ms₁,
      Nat.add_assoc, List.append_assoc, List.foldl_cons]

/-- Moves that only tell hand nothing over. -/
theorem handovers_map_told (k : Nat) : ∀ (cur : Option Nat) (ns : List Notice),
    handovers connected k cur (ns.map .told) = []
  | _, [] => rfl
  | _, _ :: ns => handovers_map_told k _ ns

end Append

/-! ## 2. What a line hands over -/

/-- The command that an instruction asks for, if it does. -/
def Instruction.command? : Instruction → Option DeviceCommand
  | .command c => some c
  | _ => none

/-- The commands among these lines, in order. -/
def commandsOf (items : List (Nat × Instruction)) : List (Nat × DeviceCommand) :=
  items.filterMap fun x => x.2.command?.map (x.1, ·)

/-- The commands of a script with their lines. -/
def Script.commands (s : Script) : List (Nat × DeviceCommand) :=
  commandsOf s.instructions

/-- The handover of a command of a script to its device, which is connected. -/
def Handover.ofCommand (x : Nat × DeviceCommand) : Handover :=
  ⟨some x.1, ⟨x.2.device, x.2.payload⟩, true⟩

variable {connected : Nat → String → Bool} {k : Nat} {p : Plan} {last : Option Nat} {line : Nat}
  {i : Instruction} {cur : Option Nat} {items : List (Nat × Instruction)} {ms : List Move}
  {s : Step} {o : RunOutcome}

/-- A rest hands nothing over. -/
theorem RestMoves.handovers_eq {nanos : Nat} (h : RestMoves nanos ms s) :
    handovers connected k cur ms = [] := by
  cases h <;> rfl

/-- A pause hands nothing over. -/
theorem PauseMoves.handovers_eq {w : Wake} (h : PauseMoves line ms w) :
    handovers connected k cur ms = [] := by
  cases h <;> rfl

namespace Plan

/-- An instruction that does not make the run fail hands over its command, if it has one. -/
theorem PerformMoves.handovers_eq (h : p.PerformMoves line i ms s) (hd : Heeds connected k ms)
    (hs : s.outcome? = none ∨ s.outcome? = some .stopped) :
    handovers connected k cur ms =
      i.command?.toList.map fun c => ⟨cur, ⟨c.device, c.payload⟩, true⟩ := by
  cases h with
  | waited _ hr => exact hr.handovers_eq
  | malformed => rfl
  | sent c result hr =>
    obtain ⟨hc, -⟩ := hd
    change ⟨cur, _, connected k c.device⟩ :: handovers connected _ cur _ = _
    rw [hc]
    exact congrArg (_ :: ·) hr.handovers_eq
  | unconnected => rcases hs with hs | hs <;> cases hs
  | skipped => rfl

/-- An instruction that makes the run fail is a command for a device that is not connected, and
hands nothing over. -/
theorem PerformMoves.handovers_eq_nil {reason : String}
    (h : p.PerformMoves line i ms (.fail reason)) (hd : Heeds connected k ms) :
    ∃ c, i = .command c ∧ handovers connected k cur ms = [] ∧
      connected (k + suspensionsOf ms) c.device = false := by
  cases h with
  | waited _ hr => exact absurd rfl (hr.ne_fail reason)
  | sent c _ hr => exact absurd rfl (hr.ne_fail reason)
  | unconnected c => exact ⟨c, rfl, rfl, hd.1⟩

/-- **What a line hands over**, when it does not make the run fail: its command, if it has one. -/
theorem LineMoves.handovers_eq (h : p.LineMoves last line i ms s) (hd : Heeds connected k ms)
    (hs : s.outcome? = none ∨ s.outcome? = some .stopped) :
    handovers connected k (some line) ms =
      (commandsOf [(line, i)]).map Handover.ofCommand := by
  have hi : ∀ i : Instruction,
      (i.command?.toList.map fun c => (⟨some line, ⟨c.device, c.payload⟩, true⟩ : Handover)) =
        (commandsOf [(line, i)]).map Handover.ofCommand := by
    intro i
    cases i <;> rfl
  cases h with
  | plain hp _ => rw [hp.handovers_eq hd hs, hi]
  | paused hp _ hw =>
    rw [handovers_append, hw.handovers_eq, List.append_nil, hp.handovers_eq (heeds_append hd).1
      (.inl rfl), hi]

/-- A line that makes the run fail hands nothing over. -/
theorem LineMoves.handovers_eq_nil {reason : String} (h : p.LineMoves last line i ms (.fail reason))
    (hd : Heeds connected k ms) :
    ∃ c, i = .command c ∧ handovers connected k (some line) ms = [] ∧
      connected (k + suspensionsOf ms) c.device = false := by
  generalize hs : Step.fail reason = s at h
  cases h with
  | plain hp _ =>
    subst hs
    exact hp.handovers_eq_nil hd
  | @paused _ _ w _ _ _ => cases w <;> cases hs

end Plan

/-- None of the moves is about a line behind this one: they neither come to such a line nor log
anything about it. -/
structure StaysUpTo (line : Nat) (ms : List Move) : Prop where
  cursors : ∀ l, some l ∈ cursorsOf ms → l ≤ line
  entries : ∀ e ∈ entriesOf ms, ∀ l, e.line = some l → l ≤ line

theorem StaysUpTo.append {ms₁ ms₂ : List Move} (h₁ : StaysUpTo line ms₁)
    (h₂ : StaysUpTo line ms₂) : StaysUpTo line (ms₁ ++ ms₂) where
  cursors l hl := by
    rw [cursorsOf_append, List.mem_append] at hl
    exact hl.elim (h₁.cursors l) (h₂.cursors l)
  entries e he := by
    rw [entriesOf_append, List.mem_append] at he
    exact he.elim (h₁.entries e) (h₂.entries e)

/-- The last moves are about no line. -/
theorem Plan.staysUpTo_closingMoves (p : Plan) (line : Nat) (cur : Option Nat) (o : RunOutcome) :
    StaysUpTo line (closingMoves cur o) where
  cursors l hl := absurd hl (some_notMem_cursorsOf_closingMoves l cur o)
  entries e he l hl := by
    have hn : e.line = none := (p.isEntry_closingMoves cur o e he).line_eq
    rw [hl] at hn
    cases hn

/-- The moves of a line are about that line. -/
theorem Plan.LineMoves.staysUpTo {bound : Nat} (h : p.LineMoves last line i ms s)
    (hb : line ≤ bound) : StaysUpTo bound (.foundStop false :: .told (.cursor (some line)) :: ms)
    where
  cursors l hl := by
    change some l ∈ some line :: cursorsOf ms at hl
    rw [h.cursorsOf_eq, List.mem_singleton] at hl
    exact Option.some.inj hl ▸ hb
  entries e he l hl := by
    have hline := (h.isEntry e he).line_eq
    rw [hl] at hline
    exact Option.some.inj hline ▸ hb

/-! ## 3. What a run hands over -/

/-- Moves that come to no line leave the run where it is. -/
theorem foldl_cursorFrom : ∀ {ms : List Move}, cursorsOf ms = [] →
    ms.foldl Move.cursorFrom cur = cur
  | [], _ => rfl
  | m :: ms, h => by
    have hm : m.cursorFrom cur = cur := by
      cases m with
      | told n =>
        cases n with
        | cursor line => cases h
        | _ => rfl
      | _ => rfl
    have hms : cursorsOf ms = [] :=
      (List.append_eq_nil_iff.mp ((cursorsOf_append [m] ms).symm.trans h)).2
    rw [List.foldl_cons, hm, foldl_cursorFrom hms]

theorem commandsOf_cons (x : Nat × Instruction) (more : List (Nat × Instruction)) :
    commandsOf (x :: more) = commandsOf [x] ++ commandsOf more :=
  List.filterMap_append (l := [x])

/-- A line that nothing is done at asks for no command. -/
theorem commandsOf_passedOver (hi : i.isExecutable = false) : commandsOf [(line, i)] = [] := by
  cases i with
  | blank | comment => rfl
  | wait | command | unrecognized => cases hi

theorem mem_lines_of_mem_commandsOf {c : DeviceCommand} (h : (line, c) ∈ commandsOf items) :
    line ∈ items.map (·.1) := by
  obtain ⟨⟨l, i⟩, hx, hc⟩ := List.mem_filterMap.mp h
  obtain ⟨c', -, hc'⟩ := Option.map_eq_some_iff.mp hc
  cases hc'
  exact List.mem_map.mpr ⟨_, hx, rfl⟩

/-- Moves with this outcome, made from the top of these lines after `k` suspensions, hand over the
first `n` commands, each to a connected device: all of them if the run completes, and if it fails, the
next one is for a device that is not connected, and nothing is done at any line behind it. -/
structure HandsOverFirst (connected : Nat → String → Bool) (k : Nat)
    (items : List (Nat × Instruction)) (cur : Option Nat) (ms : List Move) (o : RunOutcome)
    (n : Nat) : Prop where
  le : n ≤ (commandsOf items).length
  handed : handovers connected k cur ms = ((commandsOf items).take n).map Handover.ofCommand
  completed : o = .completed → n = (commandsOf items).length
  failed : ∀ reason, o = .failed reason → ∃ line c, (commandsOf items)[n]? = some (line, c) ∧
    connected (k + suspensionsOf ms) c.device = false ∧ StaysUpTo line ms

namespace HandsOverFirst

variable {more : List (Nat × Instruction)} {ms' : List Move} {n : Nat}

/-- A run that hands nothing over, and neither completes nor fails. -/
theorem of_stopped (hh : handovers connected k cur ms = []) :
    HandsOverFirst connected k items cur ms .stopped 0 where
  le := Nat.zero_le _
  handed := hh
  completed := nofun
  failed := nofun

/-- A line at which nothing is done. -/
theorem passOver (h : HandsOverFirst connected k more cur ms o n) (hi : i.isExecutable = false) :
    HandsOverFirst connected k ((line, i) :: more) cur (.foundStop false :: ms) o n := by
  have hc : commandsOf ((line, i) :: more) = commandsOf more := by
    rw [commandsOf_cons, commandsOf_passedOver hi, List.nil_append]
  refine ⟨hc ▸ h.le, hc ▸ h.handed, hc ▸ h.completed, ?_⟩
  intro reason ho
  obtain ⟨line', c, hl, hx, hu⟩ := h.failed reason ho
  rw [hc, suspensionsOf_cons_of_neg rfl]
  exact ⟨line', c, hl, hx, hu.cursors, hu.entries⟩

/-- **A line that is done** is before the commands of the lines that follow. -/
theorem cons (h : HandsOverFirst connected (k + suspensionsOf ms) more (some line) ms' o n)
    (hl : p.LineMoves last line i ms .goOn) (hd : Heeds connected k ms)
    (hlt : ∀ l ∈ more.map (·.1), line < l) :
    HandsOverFirst connected k ((line, i) :: more) cur
      (.foundStop false :: .told (.cursor (some line)) :: (ms ++ ms')) o
      ((commandsOf [(line, i)]).length + n) where
  le := by
    rw [commandsOf_cons _ more, List.length_append]
    exact Nat.add_le_add_left h.le _
  handed := by
    change handovers connected k (some line) (ms ++ ms') = _
    rw [commandsOf_cons _ more, handovers_append, hl.handovers_eq hd (.inl rfl),
      foldl_cursorFrom hl.cursorsOf_eq, List.take_length_add_append, List.map_append]
    exact congrArg _ h.handed
  completed ho := by
    rw [commandsOf_cons _ more, h.completed ho, List.length_append]
  failed reason ho := by
    obtain ⟨line', c, hl', hx, hu⟩ := h.failed reason ho
    have hle : line < line' := hlt line' (mem_lines_of_mem_commandsOf (List.mem_of_getElem? hl'))
    refine ⟨line', c, ?_, ?_, (hl.staysUpTo (Nat.le_of_lt hle)).append hu⟩
    · rw [commandsOf_cons _ more, List.getElem?_append_right (Nat.le_add_right _ _),
        Nat.add_sub_cancel_left]
      exact hl'
    · rw [suspensionsOf_cons_of_neg rfl, suspensionsOf_cons_of_neg rfl, suspensionsOf_append,
        ← Nat.add_assoc]
      exact hx

/-- What the last moves of a run add to those of a line is nothing. -/
theorem handovers_broken (ms : List Move) (o : RunOutcome) :
    handovers connected k cur
        (.foundStop false :: .told (.cursor (some line)) :: (ms ++ closingMoves (some line) o)) =
      handovers connected k (some line) ms := by
  change handovers connected k (some line) (ms ++ closingMoves (some line) o) = _
  rw [handovers_append, closingMoves, handovers_map_told, List.append_nil]

/-- A line at which the run is stopped. -/
theorem of_stop (hl : p.LineMoves last line i ms .stop) (hd : Heeds connected k ms) :
    HandsOverFirst connected k ((line, i) :: more) cur
      (.foundStop false :: .told (.cursor (some line)) ::
        (ms ++ closingMoves (some line) .stopped)) .stopped (commandsOf [(line, i)]).length where
  le := by
    rw [commandsOf_cons _ more, List.length_append]
    exact Nat.le_add_right _ _
  handed := by
    rw [handovers_broken, hl.handovers_eq hd (.inr rfl), commandsOf_cons _ more, List.take_left]
  completed := nofun
  failed := nofun

/-- A line that makes the run fail. -/
theorem of_fail {reason : String} (hl : p.LineMoves last line i ms (.fail reason))
    (hd : Heeds connected k ms) :
    HandsOverFirst connected k ((line, i) :: more) cur
      (.foundStop false :: .told (.cursor (some line)) ::
        (ms ++ closingMoves (some line) (.failed reason))) (.failed reason) 0 := by
  obtain ⟨c, rfl, hn, hx⟩ := hl.handovers_eq_nil hd
  refine ⟨Nat.zero_le _, (handovers_broken ms _).trans hn, nofun, ?_⟩
  intro _ _
  refine ⟨line, c, rfl, ?_, (hl.staysUpTo (Nat.le_refl line)).append
    (p.staysUpTo_closingMoves line _ _)⟩
  rw [suspensionsOf_cons_of_neg rfl, suspensionsOf_cons_of_neg rfl, suspensionsOf_append,
    closingMoves, suspensionsOf_map_told]
  exact hx

end HandsOverFirst

/-- **What a run hands over from the top of its lines.**  The commands up to some point, as
`HandsOverFirst` says.  By induction on the lines that the run takes. -/
theorem Plan.RunMoves.handovers_eq (h : p.RunMoves last items cur ms o)
    (ha : (items.map (·.1)).Pairwise (· < ·)) (hd : Heeds connected k ms) :
    ∃ n, HandsOverFirst connected k items cur ms o n := by
  induction h generalizing k with
  | completed => exact ⟨0, Nat.zero_le _, handovers_map_told _ _ _, fun _ => rfl, nofun⟩
  | stopped => exact ⟨0, .of_stopped (handovers_map_told _ _ _)⟩
  | passedOver hi _ ih =>
    obtain ⟨n, hn⟩ := ih (List.pairwise_cons.mp ha).2 hd
    exact ⟨n, hn.passOver hi⟩
  | @taken line i more cur ms ms' o hi hl _ ih =>
    obtain ⟨hlt, ha'⟩ := List.pairwise_cons.mp ha
    have hd' : Heeds connected k (ms ++ ms') := hd
    obtain ⟨hd₁, hd₂⟩ := heeds_append hd'
    obtain ⟨n, hn⟩ := ih ha' hd₂
    exact ⟨_, hn.cons hl hd₁ hlt⟩
  | @broken line i more cur ms s o hi hl hs =>
    have hd' : Heeds connected k (ms ++ closingMoves (some line) o) := hd
    obtain ⟨hd₁, -⟩ := heeds_append hd'
    cases s with
    | goOn => cases hs
    | stop =>
      cases hs
      exact ⟨_, .of_stop hl hd₁⟩
    | fail reason =>
      cases hs
      exact ⟨_, .of_fail hl hd₁⟩

/-- The lines of the handovers of a run are all different. -/
theorem Script.nodup_handovers (s : Script) (n : Nat) :
    (((s.commands.take n).map Handover.ofCommand).map Handover.line).Nodup := by
  have hsub : ∀ items : List (Nat × Instruction),
      (commandsOf items).map (·.1) |>.Sublist (items.map (·.1)) := by
    intro items
    induction items with
    | nil => exact .slnil
    | cons x more ih =>
      obtain ⟨line, i⟩ := x
      cases i with
      | command c => exact ih.cons_cons line
      | _ => exact ih.cons line
  have hlt : ((s.commands.take n).map (·.1)).Pairwise (· < ·) :=
    (s.pairwise_instructions.sublist (hsub s.instructions)).sublist
      ((List.take_sublist n s.commands).map _)
  rw [List.Nodup, List.pairwise_map, List.pairwise_map]
  refine (List.pairwise_map.mp hlt).imp ?_
  intro x y hxy he
  exact Nat.ne_of_lt hxy (Option.some.inj he)

/-- **The commands of a run that ended.**  Whatever the script, the mode, the timing, the calls and
the requests are, and whoever is connected between one suspension and the next: a run hands over the
commands of its script up to some point, in order, each from its own line, once, and to a device
that is connected at that moment.  A run that completes hands over all of them.  A run that fails
stands at the next command, whose device is not connected, and has come to no line behind it, nor
logged anything about one. -/
theorem handovers_of_ended_run {p : Plan} {ms : List Move} {o : RunOutcome}
    {connected : Nat → String → Bool} (h : Course.Trace p.course ms (.ended (.ok o)))
    (hd : Heeds connected 0 ms) :
    ∃ n, n ≤ p.script.commands.length ∧
      handovers connected 0 none ms = (p.script.commands.take n).map Handover.ofCommand ∧
      ((handovers connected 0 none ms).map Handover.line).Nodup ∧
      (o = .completed → n = p.script.commands.length) ∧
      ∀ reason, o = .failed reason → ∃ line c, p.script.commands[n]? = some (line, c) ∧
        connected (suspensionsOf ms) c.device = false ∧ StaysUpTo line ms := by
  rcases Plan.runMoves_of_trace h with ⟨-, ho⟩ | ⟨o', ms', ho, rfl, hr⟩
  · cases ho
  · cases ho
    obtain ⟨n, hn, hh, hc, hf⟩ := hr.handovers_eq p.script.pairwise_instructions (k := 0) hd
    have hh' : handovers connected 0 none (p.openingMoves ++ ms') =
        (p.script.commands.take n).map Handover.ofCommand := hh
    refine ⟨n, hn, hh', ?_, hc, ?_⟩
    · rw [hh']
      exact p.script.nodup_handovers n
    · intro reason ho
      obtain ⟨line, c, hl, hx, hu⟩ := hf reason ho
      refine ⟨line, c, hl, ?_, hu.cursors, ?_⟩
      · have hs : suspensionsOf (p.openingMoves ++ ms') = 0 + suspensionsOf ms' :=
          suspensionsOf_append _ _
        rw [hs]
        exact hx
      · intro e he
        change e ∈ p.openingEntry :: entriesOf ms' at he
        rcases List.mem_cons.mp he with rfl | he
        · exact nofun
        · exact hu.entries e he

/-- A command for each of two devices, without a rest. -/
def pairPlan : Plan :=
  ⟨⟨none, ["alpha.home", "bravo.home", "alpha.park"]⟩, .continuous, { settle := 0 }⟩

/-- A run of `pairPlan` whose second device goes away during the first call. -/
def brokenMoves : List Move :=
  pairPlan.openingMoves ++
    [.foundStop false, .told (.cursor (some 0)), .foundDevice "alpha" true,
      .told (.log (sentEntry ⟨"alpha", "home", ""⟩ 0)),
      .called ⟨"alpha", "home"⟩ (some 10000) (some (.replied .ok)),
      .told (.log (resultEntry ⟨"alpha", "home", ""⟩ 0 (some 10000) (some (.replied .ok)))),
      .foundStop false, .foundStop false, .told (.cursor (some 1)), .foundDevice "bravo" false,
      .told (.log (unconnectedEntry ⟨"bravo", "home", ""⟩ 1))] ++
    closingMoves (some 1) (.failed (unconnectedReason ⟨"bravo", "home", ""⟩ 1))

theorem handovers_of_broken_run :
    Course.Trace pairPlan.course brokenMoves
        (.ended (.ok (.failed (unconnectedReason ⟨"bravo", "home", ""⟩ 1)))) ∧
      Heeds (fun k name => k = 0 || name = "alpha") 0 brokenMoves ∧
      ∃ n, handovers (fun k name => k = 0 || name = "alpha") 0 none brokenMoves =
        (pairPlan.script.commands.take n).map Handover.ofCommand := by
  have h : Course.Trace pairPlan.course brokenMoves
      (.ended (.ok (.failed (unconnectedReason ⟨"bravo", "home", ""⟩ 1)))) :=
    Course.trace_of_resultAfter? (by decide)
  have hd : Heeds (fun k name => k = 0 || name = "alpha") 0 brokenMoves := ⟨rfl, rfl, trivial⟩
  obtain ⟨n, -, hh, -⟩ := handovers_of_ended_run h hd
  exact ⟨h, hd, n, hh⟩

end DeviceScript
