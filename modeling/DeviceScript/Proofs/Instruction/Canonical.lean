import DeviceScript.Proofs.Instruction
/-!
# The written form of a line

A line can be given in many ways that mean the same: with blanks at its ends, with blanks between
the name of the device and the point, with a wide gap in front of the arguments.  A command that was
read has one written form, `DeviceCommand.text`, and a line that is not understood is kept without
the blanks at its ends.  This module shows that both are read again as what they were
(`Instruction.classify_text_of_classify`).

The commands that lines give are described once (`DeviceCommand.IsWritable`).  What they are made of
says that the written form falls apart where it was put together; the other three conditions are on
the name alone, and say that none of the rules that come before a command takes the line
(`Instruction.exists_classify_iff`).  A rule that looks at the front of a line cannot tell the name
with blanks after it from the name without them, because it does not look past the point.
-/

namespace DeviceScript

open Text

/-! ## 1. Trimming again -/

namespace Text

/-- A text that was trimmed ends with no blank. -/
theorem isBlank_of_getLast?_trim {cs : List Char} {c : Char} (h : (trim cs).getLast? = some c) :
    isBlank c = false := by
  rw [trim, trimEnd, List.getLast?_reverse, ← trimStart] at h
  exact isBlank_of_head?_trimStart h

/-- A text that was trimmed is a front of the text without its leading blanks. -/
theorem trim_prefix (cs : List Char) : trim cs <+: trimStart cs :=
  ⟨_, trimEnd_append_blanks (trimStart cs)⟩

/-- A text that was trimmed begins with no blank. -/
theorem isBlank_of_head?_trim {cs : List Char} {c : Char} (h : (trim cs).head? = some c) :
    isBlank c = false := by
  obtain ⟨ds, hds⟩ := trim_prefix cs
  have hhead : (trimStart cs).head? = some c := by
    rw [← hds, List.head?_append, h, Option.some_or]
  exact isBlank_of_head?_trimStart hhead

/-- There is nothing to trim a second time. -/
theorem trim_trim (cs : List Char) : trim (trim cs) = trim cs :=
  trim_eq_self_iff.mpr ⟨fun _ => isBlank_of_head?_trim, fun _ => isBlank_of_getLast?_trim⟩

/-- A text that begins with no blank is its trimmed form with blanks after it. -/
theorem exists_trim_append {cs : List Char} (h : ∀ c, cs.head? = some c → isBlank c = false) :
    ∃ blanks, cs = trim cs ++ blanks := by
  refine ⟨(cs.reverse.takeWhile isBlank).reverse, ?_⟩
  rw [trim, trimStart_eq_self_iff.mpr h, trimEnd_append_blanks]

end Text

/-! ## 2. The commands that lines give -/

/-- A command as a line can give it: its parts are what the cuts leave, and its name is not taken by
a rule that comes before. -/
structure DeviceCommand.IsWritable (c : DeviceCommand) : Prop where
  /-- The name of the device is trimmed. -/
  device_trim : trim c.device.toList = c.device.toList
  /-- The first point of the line stands behind the name. -/
  device_point : '.' ∉ c.device.toList
  /-- The command word ends at the first blank. -/
  command_free : ∀ x ∈ c.command.toList, isBlank x = false
  /-- The arguments are trimmed. -/
  args_trim : trim c.args.toList = c.args.toList
  /-- The line is no comment. -/
  not_comment : c.device.toList.head? ≠ some '#'
  /-- The line is no delay. -/
  not_wait : ¬ ∃ b t, c.device.toList = ['w', 'a', 'i', 't'] ++ b :: t ∧ isBlank b = true
  /-- The line does not use a keyword that is kept for later. -/
  not_reserved : ∀ keyword, ¬ Instruction.PassesKeyword c.device keyword

namespace Instruction

variable {cs pre rest : List Char} {line : String} {c : DeviceCommand}

/-- A line is a command when no rule before takes it and it has a point. -/
theorem ofTrimmed_eq_command_iff :
    ofTrimmed cs = .command c ↔
      cs.head? ≠ some '#' ∧ afterWait? cs = none ∧ reservedKeyword? cs = none ∧
        deviceCommand? cs = some c := by
  unfold ofTrimmed
  split
  · simp [deviceCommand?]
  · simp
  · rename_i hne hhash
    have hhead : cs.head? ≠ some '#' := by
      intro h
      obtain ⟨r, rfl⟩ := List.head?_eq_some_iff.mp h
      exact hhash r rfl
    cases afterWait? cs with
    | some r => simp
    | none =>
      cases reservedKeyword? cs with
      | some keyword => simp
      | none =>
        cases deviceCommand? cs with
        | none => simp
        | some c' => simp [hhead]

/-- The parts of a command, as the line has them around its first point. -/
theorem exists_point_of_deviceCommand? (h : deviceCommand? cs = some c) :
    ∃ pre rest, cs = pre ++ '.' :: rest ∧ '.' ∉ pre ∧ c.device = String.ofList (trim pre) ∧
      c.command = String.ofList (splitAtBlank rest).1 ∧
      c.args = String.ofList (trimStart (splitAtBlank rest).2) := by
  unfold deviceCommand? at h
  split at h
  · cases h
  · rename_i x rest hrest
    obtain rfl := Option.some.inj h
    have hx : x = '.' := by
      have hn := List.head?_dropWhile_not (· != '.') cs
      rw [hrest] at hn
      simpa using hn
    refine ⟨cs.takeWhile (· != '.'), rest, ?_, ?_, rfl, rfl, rfl⟩
    · rw [hx] at hrest
      rw [← hrest, List.takeWhile_append_dropWhile]
    · intro hmem
      have hall : (cs.takeWhile (· != '.')).all (· != '.') = true := List.all_takeWhile
      simpa using List.all_eq_true.mp hall '.' hmem

/-- The arguments of a line without blanks at its end have none at theirs. -/
theorem isBlank_of_getLast?_args
    (hlast : ∀ x, (pre ++ '.' :: rest).getLast? = some x → isBlank x = false) {x : Char}
    (hx : (trimStart (splitAtBlank rest).2).getLast? = some x) : isBlank x = false := by
  have hsuffix : trimStart (splitAtBlank rest).2 <:+ pre ++ '.' :: rest := by
    have hargs : (splitAtBlank rest).2 <:+ rest :=
      (List.drop_suffix 1 _).trans (List.dropWhile_suffix _)
    exact ((List.dropWhile_suffix isBlank).trans hargs).trans
      ((List.suffix_cons '.' rest).trans (List.suffix_append pre _))
  obtain ⟨front, hfront⟩ := hsuffix
  refine hlast x ?_
  rw [← hfront, List.getLast?_append, hx, Option.some_or]

/-- **A command that was read can be written.**  The rules before a command look at the front of the
line up to the point, where the name stands with the blanks after it. -/
theorem isWritable_of_classify (h : classify line = .command c) : c.IsWritable := by
  obtain ⟨hcomment, hwait, hreserved, hc⟩ := ofTrimmed_eq_command_iff.mp h
  obtain ⟨hfirst, hlast⟩ := trim_eq_self_iff.mp (trim_trim line.toList)
  obtain ⟨pre, rest, hcs, hpoint, hdevice, -, hargs⟩ := exists_point_of_deviceCommand? hc
  obtain ⟨hfree, hstart⟩ := parts_of_classify h
  rw [hcs] at hcomment hwait hreserved hfirst hlast
  obtain ⟨blanks, hpre⟩ : ∃ blanks, pre = trim pre ++ blanks := by
    refine exists_trim_append fun x hx => hfirst x ?_
    rw [List.head?_append, hx, Option.some_or]
  have hname : c.device.toList = trim pre := by rw [hdevice, String.toList_ofList]
  refine ⟨?_, ?_, hfree, ?_, ?_, ?_, ?_⟩
  · rw [hname, trim_trim]
  · intro hmem
    rw [hname] at hmem
    exact hpoint (hpre ▸ List.mem_append_left blanks hmem)
  · refine trim_eq_self_iff.mpr ⟨hstart, fun x hx => ?_⟩
    rw [hargs, String.toList_ofList] at hx
    exact isBlank_of_getLast?_args hlast hx
  · intro hhead
    rw [hname] at hhead
    refine hcomment ?_
    rw [hpre, List.append_assoc, List.head?_append, hhead, Option.some_or]
  · rintro ⟨b, t, ht, hb⟩
    rw [← Option.not_isSome_iff_eq_none, afterWait?_point_isSome_iff] at hwait
    refine hwait ⟨b, t ++ blanks, ?_, hb⟩
    rw [hpre, ← hname, ht]
    rfl
  · rintro keyword ⟨hk, x, t, ht, hx⟩
    have hpasses : PassesKeyword (String.ofList pre) keyword := by
      refine ⟨hk, x, t ++ blanks, ?_, hx⟩
      rw [String.toList_ofList, hpre, ← hname, ht, List.append_assoc, List.cons_append]
    have hkeyword := (reservedKeyword?_written (w := rest)
      (by rwa [String.toList_ofList])).mpr hpasses
    rw [String.toList_ofList, hreserved] at hkeyword
    cases hkeyword

/-! ## 3. Written again -/

/-- **A command that can be written is read as it was.** -/
theorem classify_text_of_isWritable (h : c.IsWritable) : classify c.text = .command c := by
  have hcommand := deviceCommand?_text h.device_trim h.device_point h.command_free h.args_trim
  rw [classify, trim_text h.device_trim h.command_free h.args_trim, ofTrimmed_eq_command_iff]
  refine ⟨?_, ?_, ?_, hcommand⟩
  · rw [toList_text, List.head?_append]
    cases hn : c.device.toList with
    | nil => simp
    | cons a d =>
      have hne := h.not_comment
      rw [hn] at hne
      exact hne
  · rw [← Option.not_isSome_iff_eq_none, toList_text, afterWait?_point_isSome_iff]
    exact h.not_wait
  · cases hr : reservedKeyword? c.text.toList with
    | none => rfl
    | some keyword =>
      rw [toList_text, reservedKeyword?_written h.device_point] at hr
      exact absurd hr (h.not_reserved keyword)

/-- **The commands that scripts give.**  Some line gives the command exactly when it can be written,
and then its written form is such a line. -/
theorem exists_classify_iff : (∃ line, classify line = .command c) ↔ c.IsWritable :=
  ⟨fun ⟨_, h⟩ => isWritable_of_classify h, fun h => ⟨c.text, classify_text_of_isWritable h⟩⟩

/-- A line is read without the blanks at its ends. -/
theorem classify_trimmed (line : String) : classify (trimmed line) = classify line := by
  rw [classify, trimmed, String.toList_ofList, trim_trim]
  rfl

/-- A line that is not understood is kept without the blanks at its ends. -/
theorem raw_of_classify {raw : String} {reason : Misfit}
    (h : classify line = .unrecognized raw reason) : raw = trimmed line := by
  unfold classify ofTrimmed at h
  split at h
  · cases h
  · cases h
  · split at h
    · cases h
    · split at h
      · exact (Instruction.unrecognized.inj h).1.symm
      · split at h
        · cases h
        · exact (Instruction.unrecognized.inj h).1.symm

/-- **What was read is read again from its own text.**  A line that commands a device gives the same
command when it is written anew, with the name trimmed and one space before the arguments; and the
text that is kept of a line that is not understood is not understood for the same reason. -/
theorem classify_text_of_classify {line : String} :
    (∀ c, classify line = .command c → classify c.text = .command c) ∧
      ∀ raw reason, classify line = .unrecognized raw reason →
        classify raw = .unrecognized raw reason := by
  refine ⟨?_, ?_⟩
  · intro c h
    exact classify_text_of_isWritable (isWritable_of_classify h)
  · intro raw reason h
    rw [raw_of_classify h, classify_trimmed, ← raw_of_classify h, h]

/-- A name with a blank in it, wide gaps and further points; a line of a point alone; and a keyword
behind blanks. -/
theorem classify_written_lines :
    classify "\u2003alpha beta \u00a0.home \u3000 1.5  x\t" =
        .command ⟨"alpha beta", "home", "1.5  x"⟩ ∧
      classify "alpha beta.home 1.5  x" = .command ⟨"alpha beta", "home", "1.5  x"⟩ ∧
      classify " . " = .command ⟨"", "", ""⟩ ∧ classify "." = .command ⟨"", "", ""⟩ ∧
      classify " log -1.level " = .unrecognized "log -1.level" (.reserved "log") ∧
      classify "log -1.level" = .unrecognized "log -1.level" (.reserved "log") := by
  have hgaps : classify "\u2003alpha beta \u00a0.home \u3000 1.5  x\t" =
      .command ⟨"alpha beta", "home", "1.5  x"⟩ := by decide
  have hpoint : classify " . " = .command ⟨"", "", ""⟩ := by decide
  have hlog : classify " log -1.level " = .unrecognized "log -1.level" (.reserved "log") := by
    decide
  have hwritten := classify_text_of_classify.1 _ hgaps
  have hlone := classify_text_of_classify.1 _ hpoint
  rw [show DeviceCommand.text ⟨"alpha beta", "home", "1.5  x"⟩ = "alpha beta.home 1.5  x" by
    decide] at hwritten
  rw [show DeviceCommand.text ⟨"", "", ""⟩ = "." by decide] at hlone
  exact ⟨hgaps, hwritten, hpoint, hlone, hlog, classify_text_of_classify.2 _ _ hlog⟩

end Instruction

end DeviceScript
