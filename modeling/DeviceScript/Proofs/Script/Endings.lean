import DeviceScript.Check
import DeviceScript.Proofs.Instruction.Canonical
/-!
# The endings of lines

The lines of a script may end in a line feed or in a carriage return and a line feed, and the last
one need not end at all.  This module shows that a script does not depend on which it is
(`ofText_endings`).

Two facts carry it.  Of a text without carriage returns, the part of a line that is held never ends
in one, so that the only carriage return an ending can lose is its own (`linesFrom_withReturns`).
And a carriage return behind a last line that is not ended becomes the end of that line and touches
no other (`exists_linesFrom_concat`).  It stays there, since no line feed follows; but it is a
blank, and neither what a line asks for nor the report on it depends on the blanks at the line's
ends (`instructions_congr`, `ofScript_congr`).
-/

namespace DeviceScript

open Text

/-! ## 1. Endings in a list of characters -/

namespace Text

/-- The lines, each with this ending behind it. -/
def endedBy (ending : String) (ls : List String) : String :=
  String.join (ls.map (· ++ ending))

/-- The text with a carriage return before every line feed. -/
def withReturns (text : String) : String :=
  String.ofList (text.toList.flatMap fun c => if c = '\n' then ['\r', '\n'] else [c])

/-- A line that was ended by a line feed. -/
theorem lines_append_feed {l : List Char} (hl : '\n' ∉ l) (hr : l.getLast? ≠ some '\r')
    (rest : List Char) : lines (l ++ '\n' :: rest) = l :: lines rest := by
  rw [lines, linesFrom_append hl]
  simp [linesFrom, dropReturn_reverse hr, lines]

/-- A line that was ended by a carriage return and a line feed; here the line itself may end in a
carriage return. -/
theorem lines_append_return_feed {l : List Char} (hl : '\n' ∉ l) (rest : List Char) :
    lines (l ++ '\r' :: '\n' :: rest) = l :: lines rest := by
  rw [lines, linesFrom_append hl]
  simp [linesFrom, dropReturn, lines]

/-- A held line whose first character, the last one read, is no carriage return is kept whole. -/
theorem dropReturn_eq_self {held : List Char} (h : '\r' ∉ held) : dropReturn held = held := by
  cases held with
  | nil => rfl
  | cons c held =>
    have hc : c ≠ '\r' := fun hc => h (hc ▸ List.mem_cons_self)
    unfold dropReturn
    split
    · rename_i r heq
      exact absurd (List.cons.inj heq).1 hc
    · rfl

/-- **Where there were no carriage returns, one before every line feed changes no line.** -/
theorem linesFrom_withReturns {held cs : List Char} (hheld : '\r' ∉ held) (hcs : '\r' ∉ cs) :
    linesFrom held (cs.flatMap fun c => if c = '\n' then ['\r', '\n'] else [c])
      = linesFrom held cs := by
  induction cs generalizing held with
  | nil => rfl
  | cons c cs ih =>
    obtain ⟨hc, hrest⟩ : '\r' ≠ c ∧ '\r' ∉ cs := by simpa using hcs
    rw [List.flatMap_cons]
    by_cases hfeed : c = '\n'
    · subst hfeed
      simp only [if_true, List.cons_append, List.nil_append]
      have hends : linesFrom held ('\r' :: '\n' ::
            cs.flatMap fun c => if c = '\n' then ['\r', '\n'] else [c])
          = held.reverse ::
            linesFrom [] (cs.flatMap fun c => if c = '\n' then ['\r', '\n'] else [c]) := by
        simp [linesFrom, dropReturn]
      rw [hends, ih List.not_mem_nil hrest]
      simp [linesFrom, dropReturn_eq_self hheld]
    · simp only [if_neg hfeed, List.cons_append, List.nil_append, linesFrom]
      exact ih (by simp [hc, hheld]) hrest

/-- **A character behind a last line that is not ended** becomes the end of that line and touches no
other, provided that it ends no line itself. -/
theorem exists_linesFrom_concat {c : Char} (hc : c ≠ '\n') {held cs : List Char}
    (hne : held ≠ [] ∨ cs ≠ []) (hlast : cs.getLast? ≠ some '\n') :
    ∃ ls l, linesFrom held cs = ls ++ [l] ∧ linesFrom held (cs ++ [c]) = ls ++ [l ++ [c]] := by
  induction cs generalizing held with
  | nil =>
    obtain ⟨x, held, rfl⟩ := List.exists_cons_of_ne_nil (hne.resolve_right (· rfl))
    refine ⟨[], (x :: held).reverse, ?_, ?_⟩
    · simp [linesFrom]
    · simp [linesFrom, hc]
  | cons x cs ih =>
    have hlast' : cs.getLast? ≠ some '\n' := by
      intro h
      exact hlast (by rw [List.getLast?_cons, h]; rfl)
    by_cases hx : x = '\n'
    · -- The line that ends here is not the last one: the text does not end in its line feed.
      subst hx
      have hcs : cs ≠ [] := by
        rintro rfl
        exact hlast rfl
      obtain ⟨ls, l, h₁, h₂⟩ := @ih [] (Or.inr hcs) hlast'
      refine ⟨(dropReturn held).reverse :: ls, l, ?_, ?_⟩
      · rw [linesFrom, if_pos rfl, h₁, List.cons_append]
      · rw [List.cons_append, linesFrom, if_pos rfl, h₂, List.cons_append]
    · obtain ⟨ls, l, h₁, h₂⟩ := @ih (x :: held) (Or.inl (List.cons_ne_nil _ _)) hlast'
      refine ⟨ls, l, ?_, ?_⟩
      · rw [linesFrom, if_neg hx, h₁]
      · rw [List.cons_append, linesFrom, if_neg hx, h₂]

/-- Trimming takes a blank from the end. -/
theorem trim_concat_blank {c : Char} (hc : isBlank c = true) (cs : List Char) :
    trim (cs ++ [c]) = trim cs := by
  have hstart : trimStart (cs ++ [c]) = trimStart cs ++ [c] ∨
      trimStart (cs ++ [c]) = [] ∧ trimStart cs = [] := by
    unfold trimStart
    rw [List.dropWhile_append]
    cases h : (cs.dropWhile isBlank).isEmpty with
    | true => exact Or.inr ⟨by simp [hc], List.isEmpty_iff.mp h⟩
    | false => exact Or.inl (by simp)
  rcases hstart with h | ⟨h₁, h₂⟩
  · simp [trim, h, trimEnd, hc]
  · rw [trim, trim, h₁, h₂]

end Text

/-! ## 2. What depends on the trimmed lines alone -/

/-- What the lines of a script ask for depends on the lines without the blanks at their ends. -/
theorem Script.instructionsFrom_map_trimmed (ls : List String) (k : Nat) :
    instructionsFrom k (ls.map trimmed) = instructionsFrom k ls := by
  induction ls generalizing k with
  | nil => rfl
  | cons l ls ih =>
    simp only [List.map_cons, instructionsFrom, Instruction.classify_trimmed, ih]

variable {s s' : Script}

/-- Scripts with the same trimmed lines ask for the same. -/
theorem Script.instructions_congr (h : s'.lines.map trimmed = s.lines.map trimmed) :
    s'.instructions = s.instructions := by
  rw [instructions, instructions, ← instructionsFrom_map_trimmed, h, instructionsFrom_map_trimmed]

/-- Scripts with the same trimmed lines show the same text at each of their lines. -/
theorem Script.trimmedLine_congr (h : s'.lines.map trimmed = s.lines.map trimmed) (index : Nat) :
    s'.trimmedLine index = s.trimmedLine index := by
  have hline : ∀ t : Script, t.trimmedLine index = ((t.lines.map trimmed)[index]?).getD "" := by
    intro t
    rw [trimmedLine, line?, List.getElem?_map]
    cases t.lines[index]? with
    | none => rfl
    | some l => rfl
  rw [hline, hline, h]

/-- Scripts with the same trimmed lines have the same report. -/
theorem Report.ofScript_congr (h : s'.lines.map trimmed = s.lines.map trimmed) :
    ofScript s' = ofScript s := by
  have hi := Script.instructions_congr h
  have hx : s'.executableCount = s.executableCount := by
    rw [Script.executableCount, Script.executables, hi]
    rfl
  simp only [ofScript, hi, hx, Script.trimmedLine_congr h]

/-! ## 3. Scripts and the endings of their lines -/

namespace Script

/-- The lines of a text that ends each of them with this ending, if one ending is read off after
another. -/
theorem lines_ofText_endedBy {ending : String} {ls : List String}
    (h : ∀ l ∈ ls, ∀ rest, Text.lines (l.toList ++ ending.toList ++ rest)
      = l.toList :: Text.lines rest) :
    (ofText (endedBy ending ls)).lines = ls := by
  suffices hlines : Text.lines (endedBy ending ls).toList = ls.map String.toList by
    simp [ofText, hlines]
  induction ls with
  | nil => rfl
  | cons l ls ih =>
    obtain ⟨hl, hls⟩ := List.forall_mem_cons.mp h
    have hcons : (endedBy ending (l :: ls)).toList
        = l.toList ++ ending.toList ++ (endedBy ending ls).toList := by
      simp [endedBy]
    rw [hcons, hl, ih hls, List.map_cons]

/-- Of a text without carriage returns, one before every line feed leaves the script as it is. -/
theorem ofText_withReturns {text : String} (h : '\r' ∉ text.toList) :
    ofText (withReturns text) = ofText text := by
  have hlines : Text.lines (withReturns text).toList = Text.lines text.toList := by
    rw [withReturns, String.toList_ofList]
    exact linesFrom_withReturns List.not_mem_nil h
  rw [ofText, ofText, hlines]

/-- A carriage return behind a last line that is not ended leaves the other lines as they are and is
trimmed from the last one. -/
theorem map_trimmed_ofText_concat {text : String} (hne : text ≠ "")
    (hlast : text.toList.getLast? ≠ some '\n') :
    (ofText (text ++ "\r")).lines.map trimmed = (ofText text).lines.map trimmed := by
  have hcs : text.toList ≠ [] := fun h => hne (String.toList_eq_nil_iff.mp h)
  obtain ⟨ls, l, h₁, h₂⟩ :=
    @exists_linesFrom_concat '\r' (by decide) [] text.toList (Or.inr hcs) hlast
  have htext : (text ++ "\r").toList = text.toList ++ ['\r'] := by
    rw [String.toList_append]
    rfl
  have hline : trimmed (String.ofList (l ++ ['\r'])) = trimmed (String.ofList l) := by
    rw [trimmed, trimmed, String.toList_ofList, String.toList_ofList, trim_concat_blank (by decide)]
  simp only [ofText, Text.lines, htext, h₁, h₂, List.map_append, List.map_cons, List.map_nil, hline]

/-- **Lines are read back, whatever their endings.**  Lines without a line feed that do not end in a
carriage return are read back from the text that ends each of them with a line feed, and from the
text that ends each of them with a carriage return and a line feed.  Of a text without carriage
returns, whether or not its last line is ended, one before every line feed leaves the script as it
is.  And one carriage return behind a last line that is not ended leaves the number of lines, what
every line asks for, and the report on the script. -/
theorem ofText_endings :
    (∀ ls : List String, (∀ l ∈ ls, '\n' ∉ l.toList ∧ l.toList.getLast? ≠ some '\r') →
      (ofText (endedBy "\n" ls)).lines = ls ∧ (ofText (endedBy "\r\n" ls)).lines = ls) ∧
    (∀ text : String, '\r' ∉ text.toList → ofText (withReturns text) = ofText text) ∧
    ∀ text : String, text ≠ "" → text.toList.getLast? ≠ some '\n' →
      (ofText (text ++ "\r")).size = (ofText text).size ∧
        (ofText (text ++ "\r")).instructions = (ofText text).instructions ∧
        Report.ofScript (ofText (text ++ "\r")) = Report.ofScript (ofText text) := by
  refine ⟨?_, fun text h => ofText_withReturns h, ?_⟩
  · intro ls h
    constructor
    · refine lines_ofText_endedBy fun l hl rest => ?_
      rw [List.append_assoc]
      exact lines_append_feed (h l hl).1 (h l hl).2 rest
    · refine lines_ofText_endedBy fun l hl rest => ?_
      rw [List.append_assoc]
      exact lines_append_return_feed (h l hl).1 rest
  · intro text hne hlast
    have h := map_trimmed_ofText_concat hne hlast
    refine ⟨?_, instructions_congr h, Report.ofScript_congr h⟩
    simpa [size] using congrArg List.length h

/-- A script of three lines in each of the forms, and with a carriage return at its end. -/
theorem ofText_of_three_lines :
    (ofText (endedBy "\r\n" ["alpha.home", "", " wait 2"])).lines = ["alpha.home", "", " wait 2"] ∧
      ofText (withReturns "alpha.home\n\n wait 2") = ofText "alpha.home\n\n wait 2" ∧
      Report.ofScript (ofText "alpha.home\n\n wait 2\r") =
        Report.ofScript (ofText "alpha.home\n\n wait 2") :=
  ⟨(ofText_endings.1 _ (by decide)).2, ofText_endings.2.1 _ (by decide),
    (ofText_endings.2.2 "alpha.home\n\n wait 2" (by decide) (by decide)).2.2⟩

end Script

end DeviceScript
