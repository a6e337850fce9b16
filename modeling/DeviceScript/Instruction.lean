import DeviceScript.Decimal.Reading
import DeviceScript.Decimal.Shortest
import DeviceScript.Text.Blank
/-!
# Instructions

Every line of a script denotes exactly one instruction, and `classify` finds it: a line of blanks, a
comment, a delay, a command for a device, or something that no run can carry out.  Classification
never fails; what a line is good for is decided when the script runs.

The forms are tried in a fixed order.  A `#` makes a comment; `wait` and a blank make a delay,
whatever follows; a line whose first word is a keyword kept for later is refused, unless the word is
the name of a device, that is, a point follows at once; and any other line with a point addresses
the device named before the first point.

Each instruction has a text of its own (`Instruction.text`), and a command also has the text that is
handed to its device (`DeviceCommand.payload`).
-/

namespace DeviceScript

open Text

/-- A command for a device: `device.command args`. -/
structure DeviceCommand where
  device : String
  command : String
  args : String
  deriving Repr, DecidableEq

/-- The text handed to the device: the command, and its arguments if there are any. -/
def DeviceCommand.payload (c : DeviceCommand) : String :=
  if c.args = "" then c.command else c.command ++ " " ++ c.args

/-- The command as one would write it in a script. -/
def DeviceCommand.text (c : DeviceCommand) : String :=
  c.device ++ "." ++ c.payload

/-- Why a line is not understood. -/
inductive Misfit where
  /-- It begins with a keyword that is kept for later. -/
  | reserved (keyword : String)
  /-- It is neither a delay nor a command. -/
  | noInstruction
  deriving Repr, DecidableEq

/-- The reason in words. -/
def Misfit.text : Misfit → String
  | .reserved keyword => "'" ++ keyword ++ "' is reserved and not supported"
  | .noInstruction => "not an instruction"

/-- What a line of a script asks for. -/
inductive Instruction where
  | blank
  | comment
  /-- A delay; its length is absent when it is not a finite number of seconds from zero on. -/
  | wait (seconds : Option Decimal.Double)
  | command (command : DeviceCommand)
  | unrecognized (raw : String) (reason : Misfit)
  deriving Repr, DecidableEq

namespace Instruction

/-- Whether a run does anything at the line.  A line that is not understood counts, since the run
stops there to warn. -/
def isExecutable : Instruction → Bool
  | .blank | .comment => false
  | _ => true

/-- The instruction in words. -/
def text : Instruction → String
  | .blank => "blank"
  | .comment => "comment"
  | .wait (some s) => "wait " ++ s.positional ++ "s"
  | .wait none => "wait (malformed duration)"
  | .command c => "command " ++ c.text
  | .unrecognized _ reason => "unrecognized: " ++ reason.text

/-! ## Classification -/

/-- The keywords that are kept for later. -/
def reservedKeywords : List String :=
  ["wait_for", "cycle", "if", "throw", "log_start", "log_stop", "log"]

/-- A character of a keyword. -/
def isWordChar (c : Char) : Bool :=
  c.isAlphanum || c == '_'

/-- The reserved keyword that a line begins with; a word before a point names a device. -/
def reservedKeyword? (cs : List Char) : Option String :=
  let word := String.ofList (cs.takeWhile isWordChar)
  if (cs.dropWhile isWordChar).head? = some '.' then none
  else if word ∈ reservedKeywords then some word
  else none

/-- The length of a delay: a finite number of seconds from zero on. -/
def readSeconds? (cs : List Char) : Option Decimal.Double :=
  (Decimal.read? cs).filter (·.isDuration)

/-- What follows the word `wait` and a blank, if a line begins with them. -/
def afterWait? : List Char → Option (List Char)
  | 'w' :: 'a' :: 'i' :: 't' :: c :: r => if isBlank c then some r else none
  | _ => none

/-- The command that a line with a point denotes: the device before the first point, the command up
to the next blank, and the arguments after it. -/
def deviceCommand? (cs : List Char) : Option DeviceCommand :=
  match cs.dropWhile (· != '.') with
  | [] => none
  | _ :: rest =>
    let (verb, args) := splitAtBlank rest
    some {
      device := String.ofList (trim (cs.takeWhile (· != '.')))
      command := String.ofList verb
      args := String.ofList (trimStart args) }

/-- The instruction that a line without blanks at its ends denotes. -/
def ofTrimmed (cs : List Char) : Instruction :=
  match cs with
  | [] => .blank
  | '#' :: _ => .comment
  | _ =>
    match afterWait? cs with
    | some rest => .wait (readSeconds? (trim rest))
    | none =>
      match reservedKeyword? cs with
      | some keyword => .unrecognized (String.ofList cs) (.reserved keyword)
      | none =>
        match deviceCommand? cs with
        | some c => .command c
        | none => .unrecognized (String.ofList cs) .noInstruction

/-- The instruction that a line denotes. -/
def classify (line : String) : Instruction :=
  ofTrimmed (trim line.toList)

end Instruction

end DeviceScript
