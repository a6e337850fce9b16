import DeviceScript.Check
import DeviceScript.Cli.Help
import DeviceScript.Cli.Job
import DeviceScript.Cli.Terminal
import DeviceScript.Run.Follower
/-!
# Transcripts

A transcript is what can be seen of one use of the program: what it printed, and the code with which
it ended.  `Transcript.ofArguments` says what can be seen when the program is used in given
surroundings by an operator who follows a plan: to press Enter at so many pauses, and at the next
one to interrupt the run or to leave it waiting.

Clocks start at the beginning of 1970, and no time passes but the time for which a run rests or
waits.
-/

namespace DeviceScript.Cli

/-- What an operator is going to do at pauses. -/
structure Operator where
  /-- At how many pauses Enter is pressed. -/
  enters : Nat := 0
  /-- Whether the run is interrupted at the next pause. -/
  interrupts : Bool := false
  deriving Repr, DecidableEq

/-- A run in progress, seen from a terminal. -/
structure Sitting where
  /-- The time since the start, in thousandths of a second. -/
  now : Nat := 0
  printed : List String := []
  log : Log.Buffer
  operator : Operator
  /-- Whether the run was interrupted. -/
  interrupted : Bool := false

namespace Sitting

/-- The sitting after a notice. -/
def hear (s : Sitting) (script : Script) (n : Notice) : Sitting :=
  let moment := Timestamp.ofMillis s.now
  { s with
    printed := s.printed ++ shown script moment n
    log := match n with
      | .log e => s.log.push (e.stamped moment)
      | _ => s.log }

/-- The sitting after so many thousandths of a second. -/
def pass (s : Sitting) (ms : Nat) : Sitting :=
  { s with now := s.now + ms }

/-- What ends a pause, and the sitting after it; nothing for an operator who leaves the run
waiting. -/
def pause? (s : Sitting) : Option (Wake × Sitting) :=
  match s.operator with
  | ⟨enters + 1, i⟩ => some (.due, { s with operator := ⟨enters, i⟩ })
  | ⟨0, true⟩ => some (.stopped, { s with interrupted := true })
  | ⟨0, false⟩ => none

end Sitting

/-- A run that is followed during a sitting; no result means that it never ends. -/
abbrev Sat := OptionT (StateM Sitting)

namespace Job

/-- How the job is followed during a sitting. -/
def follower (j : Job) : Follower Sat where
  tell n := modify (·.hear j.plan.script n)
  anyConnected := pure j.registry.hasAny
  isConnected name := pure (j.registry.isConnected name)
  isStopRequested := do pure (← get).interrupted
  rest nanos := do
    modify (·.pass (wholeMillis nanos))
    pure .due
  call r limit :=
    match (j.registry.handle r).limited limit with
    | (some ms, result) => do
      modify (·.pass ms)
      pure result
    | (none, _) => failure
  arm := pure ()
  park := do
    match (← get).pause? with
    | some (w, s) => do
      set s
      pure w
    | none => failure
  disarm := pure ()

end Job

/-- What can be seen of one use of the program. -/
structure Transcript where
  /-- The code with which the program ended, if it ended. -/
  exit : Option Nat
  output : List String
  errors : List String
  deriving Repr, DecidableEq

namespace Transcript

/-- A page is printed. -/
def page (lines : List String) : Transcript :=
  ⟨some 0, lines, []⟩

/-- A failure is reported. -/
def failed (f : Failure) : Transcript :=
  ⟨some 1, [], f.report⟩

/-- A command line that is wrong is answered with the way the program is called. -/
def misuse : Transcript :=
  ⟨some 2, [], ["error: unusable command line", "", Scope.program.usage, "",
    "For more information, try '--help'."]⟩

/-- The report on a script is printed; the program ends with zero if nothing in it makes trouble. -/
def check (s : Script) : Transcript :=
  let r := Report.ofScript s
  ⟨some (if r.problems = 0 then 0 else 1), r.lines ++ [r.summary], []⟩

/-- A run from its start to its end. -/
def run (operator : Operator) (j : Job) : Transcript :=
  let start : Sitting := { log := .empty j.logCapacity, operator }
  let (outcome, s) := (j.plan.course.followBy j.follower).run.run start
  match outcome with
  | some o => ⟨some (exitCode o), s.printed, closing s.log o⟩
  | none => ⟨none, s.printed, []⟩

/-- A command is obeyed. -/
def ofCommand (w : Surroundings) (operator : Operator) : Command → Transcript
  | .check path =>
    match Script.load w path with
    | .ok s => check s
    | .error e => failed (.script e)
  | .run o =>
    match Job.prepare o (Settings.loadOrDefault w o.config) (Script.load w o.script) with
    | .ok j => run operator j
    | .error f => failed f

/-- The program is used with these arguments. -/
def ofArguments (w : Surroundings) (operator : Operator) (args : List String) : Transcript :=
  match Invocation.ofArguments? args with
  | none => misuse
  | some .version => page [versionText]
  | some (.help scope) => page scope.page
  | some (.command _ c) => ofCommand w operator c

end Transcript

end DeviceScript.Cli
