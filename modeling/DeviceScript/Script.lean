import DeviceScript.Instruction
import DeviceScript.Text.Lines
/-!
# Scripts

A script is a list of lines with an optional name.  Its lines are kept as they were written; what
each one asks for is found when it is looked at (`Script.instructions`).  A run needs to know how
many of its lines do anything (`executableCount`) and which of those is the last (`lastExecutable`).
-/

namespace DeviceScript

/-- The lines of a script, and the name it goes by. -/
structure Script where
  name : Option String
  lines : List String
  deriving Repr, DecidableEq

namespace Script

/-- The script with this text and without a name. -/
def ofText (text : String) : Script :=
  ⟨none, (Text.lines text.toList).map String.ofList⟩

/-- The script with this name and text. -/
def named (name : String) (text : String) : Script :=
  { ofText text with name := some name }

/-- The line with this index, counted from zero. -/
def line? (s : Script) (index : Nat) : Option String :=
  s.lines[index]?

/-- The line with this index without blanks at its ends; empty when there is no such line. -/
def trimmedLine (s : Script) (index : Nat) : String :=
  Text.trimmed ((s.line? index).getD "")

/-- The number of lines. -/
def size (s : Script) : Nat :=
  s.lines.length

/-- Each line's index and what the line asks for, from `index` on. -/
def instructionsFrom (index : Nat) : List String → List (Nat × Instruction)
  | [] => []
  | l :: r => (index, Instruction.classify l) :: instructionsFrom (index + 1) r

/-- Each line's index and what the line asks for. -/
def instructions (s : Script) : List (Nat × Instruction) :=
  instructionsFrom 0 s.lines

/-- The indices and instructions of the lines that a run does anything at. -/
def executables (s : Script) : List (Nat × Instruction) :=
  s.instructions.filter (·.2.isExecutable)

/-- The number of lines that a run does anything at. -/
def executableCount (s : Script) : Nat :=
  s.executables.length

/-- The index of the last line that a run does anything at. -/
def lastExecutable (s : Script) : Option Nat :=
  s.executables.getLast?.map (·.1)

end Script

end DeviceScript
