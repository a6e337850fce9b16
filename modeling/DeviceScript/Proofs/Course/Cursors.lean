import DeviceScript.Check
import DeviceScript.Proofs.Course.Pauses
/-!
# The lines that a run shows

A run shows the line it is at by its cursor.  It makes the cursor known only when it moves, says
nothing of lines that it does nothing at, and leaves its last line whichever way it ends.  So the
cursors of a run that ended are the first executable lines of the script, from top to bottom and
each once, and then none, unless there was nothing to leave (`cursors_of_ended_run`).

How many of its lines are executable is found by three scans of the script: one for the first log
entry, one for the report of a check, and the run itself.  All are compared with the indices of the
lines that ask for something, read off the text (`Script.executableIndices`).  What carries the
induction over the lines is that a run which has moved to a line leaves it in the end, whereas one
at no line has left nothing (`leaving`).
-/

namespace DeviceScript

variable {p : Plan} {last : Option Nat} {cur : Option Nat} {items : List (Nat × Instruction)}
  {ms : List Move} {o : RunOutcome}

/-! ## 1. The executable lines of a script -/

namespace Script

variable {s : Script}

/-- Whether a run does anything at the line with this index. -/
def isExecutableAt (s : Script) (index : Nat) : Bool :=
  (s.line? index).any fun l => (Instruction.classify l).isExecutable

/-- The indices of the lines that a run does anything at, from top to bottom. -/
def executableIndices (s : Script) : List Nat :=
  (List.range s.size).filter s.isExecutableAt

theorem pairwise_executableIndices (s : Script) : s.executableIndices.Pairwise (· < ·) :=
  List.pairwise_lt_range.sublist List.filter_sublist

/-- Lines that are numbered from `k` on, and a test that finds the executable ones among the
numbers. -/
theorem map_filter_instructionsFrom (f : Nat → Bool) : ∀ (k : Nat) (ls : List String),
    (∀ j l, ls[j]? = some l → f (k + j) = (Instruction.classify l).isExecutable) →
    ((instructionsFrom k ls).filter (·.2.isExecutable)).map (·.1) =
      (List.range' k ls.length).filter f
  | _, [], _ => rfl
  | k, l :: ls, h => by
    have hl : f k = (Instruction.classify l).isExecutable := h 0 l rfl
    have ih := map_filter_instructionsFrom f (k + 1) ls fun j l' hj => by
      rw [Nat.add_assoc, Nat.add_comm 1 j]
      exact h (j + 1) l' hj
    rw [instructionsFrom, List.length_cons, List.range'_succ, List.filter_cons, List.filter_cons,
      hl]
    cases (Instruction.classify l).isExecutable with
    | true => exact congrArg (k :: ·) ih
    | false => exact ih

/-- **The lines that a run takes are the executable ones of the text.** -/
theorem map_executables (s : Script) : s.executables.map (·.1) = s.executableIndices := by
  rw [executableIndices, List.range_eq_range']
  refine map_filter_instructionsFrom s.isExecutableAt 0 s.lines fun j l hj => ?_
  rw [Nat.zero_add, isExecutableAt, line?, hj, Option.any_some]

theorem executableCount_eq (s : Script) : s.executableCount = s.executableIndices.length := by
  rw [← map_executables, List.length_map, executableCount]

/-- A script of blank lines and comments has no executable line. -/
theorem executableIndices_eq_nil
    (h : ∀ l ∈ s.lines, (Instruction.classify l).isExecutable = false) :
    s.executableIndices = [] := by
  refine List.filter_eq_nil_iff.mpr fun j _ => ?_
  cases hj : s.line? j with
  | none => simp [isExecutableAt, hj]
  | some l => simp [isExecutableAt, hj, h l (List.mem_of_getElem? hj)]

end Script

/-- The first executable lines of a script, as cursors. -/
theorem firstLines_instructions (s : Script) (n : Nat) :
    firstLines s.instructions n = (s.executableIndices.take n).map some := by
  rw [← s.map_executables, ← List.map_take, List.map_map]
  rfl

/-! ## 2. The cursors of a run -/

/-- What a run tells when it leaves its last line, after `n` moves to a line: none, if there is a
line to leave. -/
def leaving (cur : Option Nat) (n : Nat) : List (Option Nat) :=
  if n = 0 ∧ cur = none then [] else [none]

theorem leaving_some (line n : Nat) : leaving (some line) n = [none] :=
  if_neg fun h => nomatch h.2

theorem leaving_succ (cur : Option Nat) (n : Nat) : leaving cur (n + 1) = [none] :=
  if_neg fun h => nomatch h.1

theorem cursorsOf_closingMoves (cur : Option Nat) (o : RunOutcome) :
    cursorsOf (closingMoves cur o) = leaving cur 0 := by
  rw [cursorsOf, closingMoves, noticesOf_map_told]
  cases o <;> cases cur <;> rfl

/-- **The cursors from the top of the lines.**  By induction on the lines that the run takes. -/
theorem Plan.RunMoves.cursorsOf_eq (h : p.RunMoves last items cur ms o) :
    ∃ n ≤ (executablesOf items).length, cursorsOf ms = firstLines items n ++ leaving cur n ∧
      (o = .completed → n = (executablesOf items).length) := by
  induction h with
  | @completed cur => exact ⟨0, Nat.le_refl 0, cursorsOf_closingMoves cur _, fun _ => rfl⟩
  | @stopped x more cur => exact ⟨0, Nat.zero_le _, cursorsOf_closingMoves cur _, nofun⟩
  | @passedOver line i more cur ms o hi _ ih =>
    obtain ⟨n, hn, hc, hdone⟩ := ih
    have hx : (line, i).2.isExecutable = false := hi
    rw [executablesOf_cons_of_neg hx]
    exact ⟨n, hn, by rw [firstLines_cons_of_neg hx]; exact hc, hdone⟩
  | @taken line i more cur ms ms' o hi hl _ ih =>
    obtain ⟨n, hn, hc, hdone⟩ := ih
    have hx : (line, i).2.isExecutable = true := hi
    rw [executablesOf_cons_of_pos hx, List.length_cons]
    refine ⟨n + 1, Nat.succ_le_succ hn, ?_, fun ho => congrArg (· + 1) (hdone ho)⟩
    change some line :: cursorsOf (ms ++ ms') = _
    rw [cursorsOf_append, hl.cursorsOf_eq, hc, firstLines_cons_of_pos hx, leaving_some,
      leaving_succ]
    rfl
  | @broken line i more cur ms s o hi hl ho =>
    have hx : (line, i).2.isExecutable = true := hi
    rw [executablesOf_cons_of_pos hx, List.length_cons]
    refine ⟨1, Nat.succ_le_succ (Nat.zero_le _), ?_, ?_⟩
    · change some line :: cursorsOf (ms ++ closingMoves (some line) o) = _
      rw [cursorsOf_append, hl.cursorsOf_eq, cursorsOf_closingMoves, firstLines_cons_of_pos hx,
        leaving_some, leaving_succ]
      rfl
    · rintro rfl
      exact absurd ho s.outcome?_ne_completed

/-- Growing lines, and then none if there are any: no cursor is like the one before, the run having
begun at no line. -/
theorem isChain_cursors {lines : List Nat} (h : lines.Pairwise (· < ·)) {n : Nat}
    (hn : n ≤ lines.length) :
    List.IsChain (· ≠ ·) (none :: ((lines.take n).map some ++ leaving none n)) := by
  cases n with
  | zero => exact List.isChain_singleton _
  | succ n =>
    obtain ⟨line, more, rfl⟩ := List.exists_cons_of_length_pos (Nat.zero_lt_of_lt hn)
    rw [leaving_succ, List.take_succ_cons, List.map_cons, List.cons_append]
    have hgrow : (line :: more.take n).Pairwise (· < ·) :=
      h.sublist ((List.take_sublist n more).cons_cons line)
    have hlines : ((line :: more.take n).map some).Pairwise (· ≠ ·) :=
      List.pairwise_map.mpr (hgrow.imp fun hlt he => Nat.ne_of_lt hlt (Option.some.inj he))
    -- the last line is left for none, which is no line
    have hleft : ∀ x ∈ ((line :: more.take n).map some).getLast?,
        ∀ y ∈ ([none] : List (Option Nat)).head?, x ≠ y := by
      intro x hx y hy he
      obtain ⟨l, -, hl⟩ := List.mem_map.mp (List.mem_of_getLast? hx)
      exact Option.some_ne_none l (hl.trans (he.trans (Option.some.inj hy).symm))
    exact List.isChain_cons_cons.mpr
      ⟨nofun, hlines.isChain.append (List.isChain_singleton _) hleft⟩

/-! ## 3. Whole runs -/

/-- **The lines that a run shows.**  Whatever the script, the mode, the timing and the answers are,
stops and continues among them: the cursors of a run that ended with an outcome are the first `n`
executable lines, whose indices grow, and then none if `n` is not zero.  Each differs from the one
before.  If the run completed these are all executable lines, and their number is the one that the
script counts, that the first log entry names and that the report of a check gives.  A script of
blank lines and comments shows no cursor at all. -/
theorem cursors_of_ended_run (h : Course.Trace p.course ms (.ended (.ok o))) :
    (∃ n ≤ p.script.executableIndices.length,
        cursorsOf ms =
          (p.script.executableIndices.take n).map some ++ (if n = 0 then [] else [none]) ∧
        (o = .completed → n = p.script.executableIndices.length)) ∧
      p.script.executableIndices.Pairwise (· < ·) ∧
      List.IsChain (· ≠ ·) (none :: cursorsOf ms) ∧
      p.script.executableCount = p.script.executableIndices.length ∧
      (Report.ofScript p.script).executable = p.script.executableIndices.length ∧
      (∃ e, (entriesOf ms).head? = some e ∧ e.kind = .info ∧
        e.message = "Running " ++ p.script.name.getD "script" ++ " (" ++
          toString p.script.executableIndices.length ++ " executable lines, " ++ p.mode.label ++
          " mode)") ∧
      ((∀ l ∈ p.script.lines,
          Instruction.classify l = .blank ∨ Instruction.classify l = .comment) →
        cursorsOf ms = []) := by
  rcases Plan.runMoves_of_trace h with ⟨-, hr⟩ | ⟨o', ms', ho, rfl, hr⟩
  · cases hr
  · obtain rfl : o = o' := Except.ok.inj ho
    obtain ⟨n, hn, hc, hdone⟩ := hr.cursorsOf_eq
    have hlen : (executablesOf p.script.instructions).length = p.script.executableIndices.length :=
      p.script.executableCount_eq
    rw [hlen] at hn hdone
    rw [firstLines_instructions] at hc
    have hcursors : cursorsOf (p.openingMoves ++ ms') = _ := hc
    have hgrow := p.script.pairwise_executableIndices
    rw [hcursors]
    refine ⟨⟨n, hn, by simp [leaving], hdone⟩, hgrow, isChain_cursors hgrow hn,
      p.script.executableCount_eq, p.script.executableCount_eq, ⟨p.openingEntry, rfl, rfl, ?_⟩,
      fun hnone => ?_⟩
    · rw [← p.script.executableCount_eq]
      rfl
    · have hnil : p.script.executableIndices = [] := Script.executableIndices_eq_nil fun l hl => by
        rcases hnone l hl with hl | hl <;> rw [hl] <;> rfl
      rw [hnil] at hn ⊢
      obtain rfl : n = 0 := Nat.le_zero.mp hn
      rfl

theorem cursors_of_continued_run :
    Course.Trace haltedPlan.course continuedMoves (.ended (.ok .completed)) ∧
      haltedPlan.script.executableIndices = [0, 2] ∧
      cursorsOf continuedMoves = [some 0, some 2, none] := by
  have h : Course.Trace haltedPlan.course continuedMoves (.ended (.ok .completed)) :=
    Course.trace_of_resultAfter? (by decide)
  have hlines : haltedPlan.script.executableIndices = [0, 2] := by decide
  obtain ⟨⟨n, -, hc, hdone⟩, -⟩ := cursors_of_ended_run h
  rw [hdone rfl, hlines] at hc
  exact ⟨h, hlines, hc⟩

end DeviceScript
