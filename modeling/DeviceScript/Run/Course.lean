import DeviceScript.Device.Gateway
import DeviceScript.Run.Notice
import DeviceScript.Script
/-!
# The course of a run

A run of a script takes its lines from top to bottom, tells observers what it does, asks whether a
device is connected and whether a stop was requested, rests, calls devices and waits at pauses.
What it does next depends on the answers and on nothing else, so a run is a tree: `Course`.  A node
is one thing that the run does, and the branches below it are the ways the run goes on, one for each
answer.  Since a script has finitely many lines, every branch ends.

`Plan.course` is the course of a script under a mode and a timing.  It knows nothing of clocks, of
gateways or of who asks for a stop; whoever follows a course supplies the answers.

The run keeps account of its state and of the line it is at (`Tracker`).  Every change of state goes
through the table of states; a step that the table does not allow ends the run at once, with a log
entry that calls it an internal error.
-/

namespace DeviceScript

/-- The delays of a run, in thousandths of a second: how long it rests after each command, and how
long it waits for a reply; without a limit it waits for ever. -/
structure Timing where
  settle : Nat := 100
  limit : Option Nat := some 10000
  deriving Repr, DecidableEq

/-- What ends a time of waiting. -/
inductive Wake where
  /-- A stop was requested. -/
  | stopped
  /-- What was waited for has come. -/
  | due
  deriving Repr, DecidableEq

/-- A run that did not take place. -/
inductive Refusal where
  | noDeviceConnected
  deriving Repr, DecidableEq

/-- The refusal in words. -/
def Refusal.message : Refusal → String
  | noDeviceConnected => "no device connected"

/-- What a run does, and how it goes on for each answer. -/
inductive Course where
  | ended (result : Except Refusal RunOutcome)
  /-- Tell all observers. -/
  | tell (notice : Notice) (next : Course)
  /-- Ask whether any device is connected. -/
  | askAny (next : Bool → Course)
  /-- Ask whether this device is connected. -/
  | askDevice (name : String) (next : Bool → Course)
  /-- Ask whether a stop was requested. -/
  | askStop (next : Bool → Course)
  /-- Rest for so many thousand-millionths of a second, or until a stop is requested. -/
  | rest (nanos : Nat) (next : Wake → Course)
  /-- Hand a command to the gateway and wait for its end, at most for so many thousandths of a
  second; no result means that the time was up. -/
  | call (request : Request) (limit : Option Nat) (next : Option CallResult → Course)
  /-- Be ready for the continue of a pause. -/
  | arm (next : Course)
  /-- Wait for the continue of a pause, or until a stop is requested. -/
  | park (next : Wake → Course)
  /-- Take no continue any more. -/
  | disarm (next : Course)

/-- How a result of a course ends the run. -/
def Course.outcomeOf : Except Refusal RunOutcome → RunOutcome
  | .ok o => o
  | .error e => .failed e.message

/-- A length of time in whole thousandths of a second, rounded up.  No clock counts 2^63 seconds; a
delay of that length or more ends after thirty years of 365 days. -/
def wholeMillis (nanos : Nat) : Nat :=
  if nanos < 9223372036854775808 * 1000000000 then (nanos + 999999) / 1000000 else 946080000000

/-! ## 1. State and cursor -/

/-- The state of a run and the line it is at. -/
structure Tracker where
  state : RunState := .idle
  cursor : Option Nat := none
  deriving Repr, DecidableEq

namespace Tracker

/-- Move to a line; observers hear of it if it is another one. -/
def moveTo (t : Tracker) (line : Option Nat) (next : Tracker → Course) : Course :=
  if t.cursor = line then next t else .tell (.cursor line) (next { t with cursor := line })

/-- The log entry on a step that the table of states does not allow. -/
def faultEntry (e : InvalidTransition) : Log.Entry where
  kind := .error
  message := "Internal error: " ++ e.message

/-- End the run because of a step that the table of states does not allow. -/
def fault (t : Tracker) (e : InvalidTransition) : Course :=
  .tell (.log (faultEntry e)) <|
  .tell (.state .failed) <|
  ({ t with state := .failed } : Tracker).moveTo none fun _ =>
  .ended (.ok (.failed e.message))

/-- Enter a state. -/
def enter (t : Tracker) (s : RunState) (next : Tracker → Course) : Course :=
  match t.state.become? s with
  | .ok s => .tell (.state s) (next { t with state := s })
  | .error e => t.fault e

/-- Leave the last line and end the run. -/
def finish (t : Tracker) (o : RunOutcome) : Course :=
  t.moveTo none fun _ => .ended (.ok o)

/-- The last log entry of a run that came to the end of its script. -/
def completedEntry : Log.Entry where
  kind := .success
  message := "Script completed"

/-- The last log entry of a run that was stopped. -/
def stoppedEntry : Log.Entry where
  kind := .stop
  message := "Script stopped by operator"

/-- End the run with this outcome. -/
def conclude (t : Tracker) : RunOutcome → Course
  | .completed =>
    t.enter .completed fun t =>
    .tell (.log completedEntry) <|
    t.finish .completed
  | .stopped =>
    t.enter .stopping fun t =>
    t.enter .stopped fun t =>
    .tell (.log stoppedEntry) <|
    t.finish .stopped
  | .failed reason =>
    t.enter .failed fun t => t.finish (.failed reason)

end Tracker

/-! ## 2. One line -/

/-- How a run goes on after a line. -/
inductive Step where
  | goOn
  | stop
  | fail (reason : String)
  deriving Repr, DecidableEq

/-- Rest, and find out whether a stop was requested; a rest of no length takes no time at all. -/
def restUnlessStopped (nanos : Nat) (next : Step → Course) : Course :=
  let after : Bool → Course := fun stop => next (if stop then .stop else .goOn)
  if nanos = 0 then .askStop after else .rest nanos fun w => after (w = .stopped)

/-- The length of a delay in thousand-millionths of a second, rounded to the nearest and to the even
one of two that are equally near.  A delay of 2^64 seconds or more has none. -/
def delayNanos? : Decimal.Double → Option Nat
  | .finite _ m q =>
    if 0 ≤ q ∧ m * Nat.pow 2 q.toNat ≥ 18446744073709551616 then none
    else some (Decimal.Double.nanoUnits m q)
  | _ => none

/-- Why a command did not succeed; nothing for one that did. -/
def failureReason? (limit : Option Nat) : Option CallResult → Option String
  | none => some ("no reply within " ++ toString (limit.getD 0) ++ " ms")
  | some (.replied r) => if r.success then none else some (r.error.getD "device reported failure")
  | some (.failed e) => some e.message
  | some (.crashed c) => some ("gateway panicked: " ++ c.message)

/-- The log entry on a command that is handed to its device. -/
def sentEntry (c : DeviceCommand) (line : Nat) : Log.Entry where
  kind := .sent
  message := c.payload
  device := some c.device
  line := some line

/-- The log entry on the result of a command. -/
def resultEntry (c : DeviceCommand) (line : Nat) (limit : Option Nat) (r : Option CallResult) :
    Log.Entry :=
  match failureReason? limit r with
  | none =>
    { kind := .success, message := "acknowledged '" ++ c.payload ++ "'", device := some c.device,
      line := some line }
  | some reason =>
    { kind := .error, message := "Command '" ++ c.payload ++ "' failed: " ++ reason,
      device := some c.device, line := some line }

/-- Why a run fails at a command for a device that is not connected. -/
def unconnectedReason (c : DeviceCommand) (line : Nat) : String :=
  "Device '" ++ c.device ++ "' is not connected (line " ++ toString (line + 1) ++ ")"

/-- The log entry on a command for a device that is not connected. -/
def unconnectedEntry (c : DeviceCommand) (line : Nat) : Log.Entry where
  kind := .error
  message := unconnectedReason c line
  device := some c.device
  line := some line

/-- The log entry on a line that is not understood. -/
def skippedEntry (raw : String) (reason : Misfit) (line : Nat) : Log.Entry where
  kind := .warning
  message := "Skipping line " ++ toString (line + 1) ++ " '" ++ raw ++ "': " ++ reason.text
  line := some line

/-- The log entry on a pause after a line. -/
def pauseEntry (line : Nat) : Log.Entry where
  kind := .pause
  message := "Paused after line " ++ toString (line + 1) ++ ", continue to execute the next line"
  line := some line

/-- A script, and the way it is run. -/
structure Plan where
  script : Script
  mode : RunMode := .continuous
  timing : Timing := {}
  deriving Repr, DecidableEq

namespace Plan

/-- The log entry on a delay whose length cannot be understood. -/
def malformedEntry (p : Plan) (line : Nat) : Log.Entry where
  kind := .warning
  message := "Malformed wait duration on line " ++ toString (line + 1) ++ " '" ++
    p.script.trimmedLine line ++ "', not waiting"
  line := some line

/-- Hand a command to its device. -/
def send (p : Plan) (line : Nat) (c : DeviceCommand) (next : Step → Course) : Course :=
  .tell (.log (sentEntry c line)) <|
  .call ⟨c.device, c.payload⟩ p.timing.limit fun r =>
  .tell (.log (resultEntry c line p.timing.limit r)) <|
  restUnlessStopped (p.timing.settle * 1000000) next

/-- Do what a line asks for. -/
def perform (p : Plan) (line : Nat) (i : Instruction) (next : Step → Course) : Course :=
  match i with
  | .blank | .comment => next .goOn
  | .wait seconds =>
    match seconds.bind delayNanos? with
    | some nanos => restUnlessStopped nanos next
    | none =>
      .tell (.log (p.malformedEntry line)) <|
      next .goOn
  | .command c =>
    .askDevice c.device fun connected =>
    if connected then p.send line c next
    else
      .tell (.log (unconnectedEntry c line)) <|
      next (.fail (unconnectedReason c line))
  | .unrecognized raw reason =>
    .tell (.log (skippedEntry raw reason line)) <|
    next .goOn

end Plan

/-- Wait at a pause after a line; the answer says whether a stop was requested. -/
def Tracker.pause (t : Tracker) (line : Nat) (next : Tracker → Wake → Course) : Course :=
  .askStop fun stop =>
  if stop then next t .stopped
  else
    .arm <|
    t.enter .paused fun t =>
    .tell (.log (pauseEntry line)) <|
    .park fun w =>
    .disarm <|
    match w with
    | .stopped => next t .stopped
    | .due => t.enter .running fun t => next t .due

/-! ## 3. All lines -/

namespace Plan

/-- Whether the run pauses after this line, `last` being the last line that it does anything at. -/
def pausesAfter (p : Plan) (last : Option Nat) (line : Nat) : Bool :=
  p.mode = .singleBlock && last ≠ some line

/-- Take the rest of the lines. -/
def lines (p : Plan) (last : Option Nat) : List (Nat × Instruction) → Tracker → Course
  | [], t => t.conclude .completed
  | (line, i) :: rest, t =>
    .askStop fun stop =>
    if stop then t.conclude .stopped
    else if !i.isExecutable then p.lines last rest t
    else
      t.moveTo (some line) fun t =>
      p.perform line i fun
      | .stop => t.conclude .stopped
      | .fail reason => t.conclude (.failed reason)
      | .goOn =>
        if p.pausesAfter last line then
          t.pause line fun t w =>
          match w with
          | .stopped => t.conclude .stopped
          | .due => p.lines last rest t
        else p.lines last rest t

/-- The first log entry of a run. -/
def openingEntry (p : Plan) : Log.Entry where
  kind := .info
  message := "Running " ++ p.script.name.getD "script" ++ " (" ++
    toString p.script.executableCount ++ " executable lines, " ++ p.mode.label ++ " mode)"

/-- The whole run: nothing happens unless some device is connected. -/
def course (p : Plan) : Course :=
  .askAny fun any =>
  if any then
    .tell (.started p.script.name) <|
    ({} : Tracker).enter .running fun t =>
    .tell (.log p.openingEntry) <|
    p.lines p.script.lastExecutable p.script.instructions t
  else .ended (.error .noDeviceConnected)

end Plan

end DeviceScript
