import DeviceScript.Script
import DeviceScript.Text.Padding
/-!
# Checking a script

The report on a script says what each of its lines is taken for and counts the lines that are sure
to make trouble when they run: those that are not understood, delays without a length, and commands
that no device can receive, because no device has an empty name or a name with a blank in it, or
because the command is empty.
-/

namespace DeviceScript

/-- A line that is sure to make trouble when it runs. -/
def Instruction.isProblem : Instruction → Bool
  | .unrecognized .. | .wait none => true
  | .command c => c.device = "" || c.device.toList.any Text.isBlank || c.command = ""
  | _ => false

/-- What is said of a script before it runs. -/
structure Report where
  lines : List String
  executable : Nat
  problems : Nat
  deriving Repr, DecidableEq

namespace Report

/-- The line of the report on one line of a script: its number, its text and its meaning. -/
def lineText (index : Nat) (raw : String) (i : Instruction) : String :=
  Text.padLeft 4 (toString (index + 1)) ++ "  " ++ Text.padRight 32 raw ++ "  " ++ i.text

/-- The report on a script. -/
def ofScript (s : Script) : Report where
  lines := s.instructions.map fun (index, i) => lineText index (s.trimmedLine index) i
  executable := s.executableCount
  problems := (s.instructions.filter (·.2.isProblem)).length

/-- The last line of the report. -/
def summary (r : Report) : String :=
  toString r.lines.length ++ " lines, " ++ toString r.executable ++ " executable, " ++
    toString r.problems ++ " with problems"

end Report

end DeviceScript
