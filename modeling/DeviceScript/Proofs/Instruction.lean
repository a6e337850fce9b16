import DeviceScript.Instruction
import DeviceScript.Proofs.Config.Settings
import Mathlib.Data.List.Basic
import Mathlib.Data.List.TakeWhile
/-!
# Commands and the lines they are written in

Two questions about lines that command a device.

* What does a line that is a command hold (`Instruction.parts_of_classify`)?  Its command word has
  no blank in it, and its arguments do not begin with one, so that what is handed to the device is
  blank only when there is nothing of either (`DeviceCommand.allBlank_payload_iff`).
* Which devices can a line command?  A command that is written down is read back as it was, unless
  the name of its device is taken for something else first (`Instruction.classify_text_iff`): a name
  that begins with `#` makes the line a comment, and one that goes on after a reserved keyword makes
  it a use of the keyword.  Both are names that settings may give to a device.
-/

namespace DeviceScript

open Text

/-! ## 1. What a command holds -/

namespace Instruction

variable {cs : List Char} {line : String} {c : DeviceCommand}

/-- A line is a command only by its point. -/
theorem deviceCommand?_of_ofTrimmed (h : ofTrimmed cs = .command c) :
    deviceCommand? cs = some c := by
  unfold ofTrimmed at h
  split at h
  · cases h
  · cases h
  · split at h
    · cases h
    · split at h
      · cases h
      · split at h
        · rename_i hc
          cases h
          exact hc
        · cases h

/-- **The parts of a command.**  Its command word has no blank, and its arguments begin with
none. -/
theorem parts_of_classify (h : classify line = .command c) :
    (∀ x ∈ c.command.toList, isBlank x = false) ∧
      ∀ x, c.args.toList.head? = some x → isBlank x = false := by
  have hc := deviceCommand?_of_ofTrimmed h
  unfold deviceCommand? at hc
  split at hc
  · cases hc
  · rename_i rest _
    obtain rfl := Option.some.inj hc
    simp only [String.toList_ofList]
    exact ⟨splitAtBlank_fst_free rest, fun _ => isBlank_of_head?_trimStart⟩

/-- A delay that is understood has a length that a delay can have. -/
theorem isDuration_of_classify {x : Decimal.Double} (h : classify line = .wait (some x)) :
    x.isDuration = true := by
  unfold classify ofTrimmed at h
  split at h
  · cases h
  · cases h
  · split at h
    · have hx : readSeconds? _ = some x := Instruction.wait.inj h
      exact (Option.filter_eq_some_iff.mp hx).2
    · split at h
      · cases h
      · split at h <;> cases h

end Instruction

namespace DeviceCommand

variable {c : DeviceCommand}

/-- A text without blanks is blank only when it is empty. -/
theorem allBlank_iff_of_free {cs : List Char} (h : ∀ x ∈ cs, isBlank x = false) :
    allBlank cs = true ↔ cs = [] := by
  cases cs with
  | nil => simp [allBlank]
  | cons x r => simp [allBlank, h x List.mem_cons_self]

/-- **What is handed to the device is blank** only when there is neither a command word nor an
argument. -/
theorem allBlank_payload_iff (hv : ∀ x ∈ c.command.toList, isBlank x = false)
    (ha : ∀ x, c.args.toList.head? = some x → isBlank x = false) :
    allBlank c.payload.toList = true ↔ c.command = "" ∧ c.args = "" := by
  unfold payload
  by_cases hargs : c.args = ""
  · rw [if_pos hargs, allBlank_iff_of_free hv, ← String.toList_eq_nil_iff]
    simp [hargs]
  · rw [if_neg hargs]
    obtain ⟨x, r, hx⟩ := List.exists_cons_of_ne_nil (mt String.toList_eq_nil_iff.mp hargs)
    have hb : isBlank x = false := ha x (by rw [hx]; rfl)
    simp [allBlank, hx, hb, hargs]

end DeviceCommand

/-! ## 2. Commands that are written down -/

namespace Instruction

/-- A name begins with a reserved keyword and goes on with a character that no keyword has. -/
def PassesKeyword (name keyword : String) : Prop :=
  keyword ∈ reservedKeywords ∧
    ∃ c rest, name.toList = keyword.toList ++ c :: rest ∧ isWordChar c = false

/-- Keywords are made of the characters of keywords. -/
theorem isWordChar_of_mem_reservedKeywords {keyword : String} (h : keyword ∈ reservedKeywords) :
    ∀ c ∈ keyword.toList, isWordChar c = true := by
  have hall : reservedKeywords.all (·.toList.all isWordChar) = true := by decide
  exact List.all_eq_true.mp (List.all_eq_true.mp hall keyword h)

section Written

variable {d w : List Char}

/-- A line with a point is a delay by what stands before the point: `wait` and a blank. -/
theorem afterWait?_point_isSome_iff :
    (afterWait? (d ++ '.' :: w)).isSome = true ↔
      ∃ b t, d = ['w', 'a', 'i', 't'] ++ b :: t ∧ isBlank b = true := by
  constructor
  · intro h
    unfold afterWait? at h
    split at h
    · rename_i c r heq
      have heq' : d ++ '.' :: w = ['w', 'a', 'i', 't'] ++ c :: r := heq
      have hc : isBlank c = true := by
        by_contra hc
        rw [if_neg hc] at h
        cases h
      -- The point is neither in the word nor the blank after it.
      rcases List.append_eq_append_iff.mp heq' with ⟨as, hd, hw⟩ | ⟨as, hd, hw⟩
      · cases as with
        | nil =>
          obtain rfl : '.' = c := (List.cons.inj hw).1
          exact absurd hc (by decide)
        | cons a as =>
          obtain rfl : '.' = a := (List.cons.inj hw).1
          have hmem : '.' ∈ ['w', 'a', 'i', 't'] := hd ▸ List.mem_append_right d List.mem_cons_self
          exact absurd hmem (by decide)
      · cases as with
        | nil =>
          obtain rfl : c = '.' := (List.cons.inj hw).1
          exact absurd hc (by decide)
        | cons a as =>
          obtain rfl : c = a := (List.cons.inj hw).1
          exact ⟨c, as, hd, hc⟩
    · cases h
  · rintro ⟨b, t, rfl, hb⟩
    simp [afterWait?, hb]

/-- A line that begins with a name and a point is no delay, since a name has no blank. -/
theorem afterWait?_written (hd : ∀ x ∈ d, isBlank x = false) : afterWait? (d ++ '.' :: w) = none := by
  rw [← Option.not_isSome_iff_eq_none, afterWait?_point_isSome_iff]
  rintro ⟨b, t, rfl, hb⟩
  rw [hd b (List.mem_append_right _ List.mem_cons_self)] at hb
  cases hb

/-- A line that begins with a name and a point uses a keyword exactly when the name goes on after
it. -/
theorem reservedKeyword?_written {name keyword : String} (hd : '.' ∉ name.toList) :
    reservedKeyword? (name.toList ++ '.' :: w) = some keyword ↔ PassesKeyword name keyword := by
  have hword : (name.toList ++ '.' :: w).takeWhile isWordChar = name.toList.takeWhile isWordChar := by
    rw [List.takeWhile_append]
    split
    · rename_i hlen
      rw [List.takeWhile_cons_of_neg (by decide), List.append_nil]
      exact ((List.takeWhile_prefix isWordChar).eq_of_length hlen).symm
    · rfl
  unfold reservedKeyword?
  simp only [hword, List.dropWhile_append]
  cases hrest : name.toList.dropWhile isWordChar with
  | nil =>
    -- The whole name could be a keyword; the point comes next.
    rw [List.isEmpty_nil, if_pos rfl, List.dropWhile_cons_of_neg (by decide), List.head?_cons,
      if_pos rfl]
    refine ⟨nofun, ?_⟩
    rintro ⟨hk, c, rest, hname, hc⟩
    rw [hname, List.dropWhile_append_of_pos (isWordChar_of_mem_reservedKeywords hk),
      List.dropWhile_cons_of_neg (by simp [hc])] at hrest
    cases hrest
  | cons x rest =>
    have hx : isWordChar x = false := by
      have hn := List.head?_dropWhile_not isWordChar name.toList
      rwa [hrest] at hn
    have hname := List.takeWhile_append_dropWhile (p := isWordChar) (l := name.toList)
    rw [hrest] at hname
    have hpoint : x ≠ '.' := by
      rintro rfl
      exact hd (hname ▸ List.mem_append_right _ List.mem_cons_self)
    simp only [List.isEmpty_cons, Bool.false_eq_true, if_false, List.cons_append, List.head?_cons,
      Option.some.injEq, hpoint]
    constructor
    · intro h
      split at h
      · rename_i hk
        cases h
        exact ⟨hk, x, rest, by rw [String.toList_ofList, hname], hx⟩
      · cases h
    · rintro ⟨hk, c, rest', hname', hc⟩
      have htake : name.toList.takeWhile isWordChar = keyword.toList := by
        rw [hname', List.takeWhile_append_of_pos (isWordChar_of_mem_reservedKeywords hk),
          List.takeWhile_cons_of_neg (by simp [hc]), List.append_nil]
      rw [htake, String.ofList_toList, if_pos hk]

end Written

section Whole

variable {c : DeviceCommand}

/-- What is handed to the device falls apart into the command word and the arguments again. -/
theorem splitAtBlank_payload (hv : ∀ x ∈ c.command.toList, isBlank x = false) :
    splitAtBlank c.payload.toList = (c.command.toList, c.args.toList) := by
  have hall : ∀ x ∈ c.command.toList, (!isBlank x) = true := fun x hx => by rw [hv x hx]; rfl
  unfold DeviceCommand.payload
  split
  · rename_i hargs
    rw [splitAtBlank, List.takeWhile_eq_self_iff.mpr hall, List.dropWhile_eq_nil_iff.mpr hall, hargs]
    rfl
  · rw [String.toList_append, String.toList_append, List.append_assoc, splitAtBlank,
      List.takeWhile_append_of_pos hall, List.dropWhile_append_of_pos hall]
    simp [isBlank]

/-- What is handed to the device does not end with a blank. -/
theorem isBlank_of_getLast?_payload (hv : ∀ x ∈ c.command.toList, isBlank x = false)
    (ha : trim c.args.toList = c.args.toList) {x : Char}
    (hx : c.payload.toList.getLast? = some x) : isBlank x = false := by
  unfold DeviceCommand.payload at hx
  split at hx
  · exact hv x (List.mem_of_getLast? hx)
  · rename_i hargs
    rw [String.toList_append, List.getLast?_append_of_ne_nil _ (mt String.toList_eq_nil_iff.mp hargs)]
      at hx
    exact (trim_eq_self_iff.mp ha).2 x hx

/-- A written command has its point after the name. -/
theorem toList_text (c : DeviceCommand) :
    c.text.toList = c.device.toList ++ '.' :: c.payload.toList := by
  rw [DeviceCommand.text, String.toList_append, String.toList_append, List.append_assoc]
  rfl

/-- A written command has no blank at its ends. -/
theorem trim_text (hd : trim c.device.toList = c.device.toList)
    (hv : ∀ x ∈ c.command.toList, isBlank x = false) (ha : trim c.args.toList = c.args.toList) :
    trim c.text.toList = c.text.toList := by
  rw [trim_eq_self_iff, toList_text]
  refine ⟨?_, ?_⟩
  · intro x hx
    cases hn : c.device.toList with
    | nil =>
      rw [hn] at hx
      cases hx
      rfl
    | cons a d =>
      rw [hn] at hx
      cases hx
      exact (trim_eq_self_iff.mp hd).1 x (by rw [hn]; rfl)
  · intro x hx
    rw [List.getLast?_append_of_ne_nil _ (List.cons_ne_nil _ _), List.getLast?_cons] at hx
    cases hp : c.payload.toList.getLast? with
    | none =>
      rw [hp] at hx
      cases hx
      rfl
    | some y =>
      rw [hp] at hx
      cases hx
      exact isBlank_of_getLast?_payload hv ha hp

/-- A written command that is a command at all is the one that was written. -/
theorem deviceCommand?_text (hd : trim c.device.toList = c.device.toList)
    (hp : '.' ∉ c.device.toList) (hv : ∀ x ∈ c.command.toList, isBlank x = false)
    (ha : trim c.args.toList = c.args.toList) : deviceCommand? c.text.toList = some c := by
  have hall : ∀ x ∈ c.device.toList, (x != '.') = true := by
    intro x hx
    simpa using fun h : x = '.' => hp (h ▸ hx)
  have hargs : trimStart c.args.toList = c.args.toList :=
    trimStart_eq_self_iff.mpr (trim_eq_self_iff.mp ha).1
  rw [toList_text, deviceCommand?, List.takeWhile_append_of_pos hall,
    List.dropWhile_append_of_pos hall, List.takeWhile_cons_of_neg (by decide),
    List.dropWhile_cons_of_neg (by decide), List.append_nil]
  simp only [splitAtBlank_payload hv, hd, hargs, String.ofList_toList]

/-- The name of a device has no blank at its ends. -/
theorem trim_toList_of_isDeviceName {name : String} (hn : isDeviceName name = true) :
    trim name.toList = name.toList := by
  obtain ⟨-, hb, -⟩ := isDeviceName_iff.mp hn
  exact trim_eq_self_iff.mpr
    ⟨fun x hx => hb x (List.mem_of_head? hx), fun x hx => hb x (List.mem_of_getLast? hx)⟩

/-- **How a written command is read.**  By the first character of its name, by a keyword that the
name begins with and goes on after, and otherwise as the command that it is. -/
theorem classify_text (hn : isDeviceName c.device = true)
    (hv : ∀ x ∈ c.command.toList, isBlank x = false) (ha : trim c.args.toList = c.args.toList) :
    classify c.text =
      if c.device.toList.head? = some '#' then .comment
      else match reservedKeyword? c.text.toList with
        | some keyword => .unrecognized c.text (.reserved keyword)
        | none => .command c := by
  obtain ⟨hne, hb, hp⟩ := isDeviceName_iff.mp hn
  obtain ⟨a, d, hd⟩ := List.exists_cons_of_ne_nil (mt String.toList_eq_nil_iff.mp hne)
  have htrim := trim_toList_of_isDeviceName hn
  have hwait : afterWait? c.text.toList = none := by
    rw [toList_text]
    exact afterWait?_written hb
  have hcons : c.text.toList = a :: (d ++ '.' :: c.payload.toList) := by
    rw [toList_text, hd]
    rfl
  have hcommand := deviceCommand?_text htrim hp hv ha
  rw [classify, trim_text htrim hv ha, hd, List.head?_cons]
  by_cases hh : a = '#'
  · rw [if_pos (congrArg some hh), hcons, hh]
    rfl
  · rw [if_neg (fun h => hh (Option.some.inj h))]
    unfold ofTrimmed
    split
    · rename_i heq
      rw [heq] at hcons
      cases hcons
    · rename_i heq
      rw [heq] at hcons
      exact absurd (List.cons.inj hcons).1.symm hh
    · cases reservedKeyword? c.text.toList with
      | none => simp only [hwait, hcommand]
      | some keyword => simp only [hwait, String.ofList_toList]

/-- **Which devices a script can command.**  Settings that are sound, or a name that is taken on the
spot, give a device its name; a command for it is written down with a word that has no blank and
arguments without a blank at their ends.  The line is read as that very command unless the name
begins with `#`, which makes the line a comment, or begins with a reserved keyword and goes on with
a character that no keyword has, which makes it a use of the keyword. -/
theorem classify_text_iff {name command args : String}
    (hname : (∃ s : Settings, s.fault? = none ∧ ∃ d ∈ s.devices, d.name = name) ∨
      ∃ (r r' : Registry) (names : List String), r.withNames? names = .ok r' ∧ name ∈ names)
    (hcommand : ∀ x ∈ command.toList, isBlank x = false) (hargs : trimmed args = args) :
    (classify (DeviceCommand.text ⟨name, command, args⟩) = .command ⟨name, command, args⟩ ↔
      name.toList.head? ≠ some '#' ∧ ∀ keyword, ¬ PassesKeyword name keyword) ∧
    (name.toList.head? = some '#' →
      classify (DeviceCommand.text ⟨name, command, args⟩) = .comment) ∧
    ∀ keyword, PassesKeyword name keyword →
      classify (DeviceCommand.text ⟨name, command, args⟩) =
        .unrecognized (DeviceCommand.text ⟨name, command, args⟩) (.reserved keyword) := by
  have hn : isDeviceName name = true := by
    rcases hname with hsound | ⟨r, r', names, hr, hmem⟩
    · exact Settings.exists_sound_iff.mp hsound
    · exact Registry.exists_withNames?_iff.mp ⟨r', hr⟩ name hmem
  have ha : trim args.toList = args.toList := by
    rw [← String.ofList_inj, String.ofList_toList]
    exact hargs
  have hread := classify_text (c := ⟨name, command, args⟩) hn hcommand ha
  have hkey : ∀ keyword,
      reservedKeyword? (DeviceCommand.text ⟨name, command, args⟩).toList = some keyword ↔
        PassesKeyword name keyword := by
    intro keyword
    rw [toList_text]
    exact reservedKeyword?_written (isDeviceName_iff.mp hn).2.2
  -- No keyword begins with the mark of a comment.
  have hpass : ∀ keyword, PassesKeyword name keyword → name.toList.head? ≠ some '#' := by
    rintro keyword ⟨hk, x, rest, hx, -⟩ hh
    have hne : ∀ k ∈ reservedKeywords, k.toList ≠ [] := by decide
    obtain ⟨a, r, ha⟩ := List.exists_cons_of_ne_nil (hne keyword hk)
    rw [hx, ha] at hh
    have hw := isWordChar_of_mem_reservedKeywords hk a (ha ▸ List.mem_cons_self)
    rw [Option.some.inj hh] at hw
    exact absurd hw (by decide)
  refine ⟨?_, ?_, ?_⟩
  · rw [hread]
    by_cases hh : name.toList.head? = some '#'
    · simp [hh]
    · rw [if_neg hh]
      cases hr : reservedKeyword? (DeviceCommand.text ⟨name, command, args⟩).toList with
      | none => simp [hh, ← hkey, hr]
      | some keyword =>
        simp only [reduceCtorEq, false_iff, not_and, not_forall, not_not]
        exact fun _ => ⟨keyword, (hkey keyword).mp hr⟩
  · intro hh
    rw [hread, if_pos hh]
  · intro keyword hk
    rw [hread, if_neg (hpass keyword hk), (hkey keyword).mpr hk]

/-- A device called `log` can be commanded, and one called `log-1` cannot. -/
theorem classify_logs :
    Settings.fault? { devices := [{ name := "log" }, { name := "log-1" }] } = none ∧
      classify "log.level 3 .5" = .command ⟨"log", "level", "3 .5"⟩ ∧
      classify "log-1.level" = .unrecognized "log-1.level" (.reserved "log") := by
  have hs : Settings.fault? { devices := [{ name := "log" }, { name := "log-1" }] } = none := by
    decide
  have hmem : ∀ name ∈ ["log", "log-1"],
      ∃ s : Settings, s.fault? = none ∧ ∃ d ∈ s.devices, d.name = name := by
    intro name hname
    refine ⟨_, hs, { name }, ?_, rfl⟩
    simpa using hname
  have hlog : ∀ keyword, ¬ PassesKeyword "log" keyword := by
    rintro keyword ⟨-, c, rest, hc, hw⟩
    have hall : "log".toList.all isWordChar = true := by decide
    rw [List.all_eq_true.mp hall c (hc ▸ List.mem_append_right _ List.mem_cons_self)] at hw
    cases hw
  have hpasses : PassesKeyword "log-1" "log" :=
    ⟨by decide, '-', ['1'], by decide, by decide⟩
  have hlevel : ∀ x ∈ "level".toList, isBlank x = false := by
    have hall : "level".toList.all (!isBlank ·) = true := by decide
    simpa using List.all_eq_true.mp hall
  obtain ⟨hcommand, -, -⟩ := @classify_text_iff "log" "level" "3 .5"
    (.inl (hmem "log" (by decide))) hlevel (by decide)
  obtain ⟨-, -, hreserved⟩ := @classify_text_iff "log-1" "level" ""
    (.inl (hmem "log-1" (by decide))) hlevel (by decide)
  exact ⟨hs, hcommand.mpr ⟨by decide, hlog⟩, hreserved "log" hpasses⟩

/-- Sound settings may call a device `#alpha`, and every command for it is a comment. -/
theorem classify_hashed_device :
    Settings.fault? { devices := [{ name := "#alpha" }] } = none ∧
      classify (DeviceCommand.text ⟨"#alpha", "home", ""⟩) = .comment := by
  decide

end Whole

end Instruction

end DeviceScript
