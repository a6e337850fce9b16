import DeviceScript.Log.Buffer
import DeviceScript.Run.Course
import DeviceScript.Run.Projector
import DeviceScript.Run.Signals
import DeviceScript.Text.Quoted
/-!
# The runner

A runner starts runs, one at a time, and passes the requests for a stop or a continue on to the run
that is active.  It is always the first to hear a notice (`Runner.observe`), so that its snapshot
and its log show what the notice says before anyone else is told.

The runner keeps a record of every run that it ever started: the requests made of it, and how far it
has come.  A run that has not ended is at a stage: it can go on at once, or it waits for a moment,
for a device or for a continue, and it knows how it goes on then.

Which run is active is one slot.  A start takes the slot, and only the end of that very run gives it
back; in between every other start and every reset is refused.
-/

namespace DeviceScript

/-- How far a run has come that has not ended. -/
inductive Stage where
  /-- It can go on. -/
  | ready (course : Course)
  /-- It rests until this moment. -/
  | resting (due : Nat) (next : Wake → Course)
  /-- It waits for the end of a call, which comes at this moment or, without one, never. -/
  | calling (due : Option Nat) (result : Option CallResult) (next : Option CallResult → Course)
  /-- It is at a pause. -/
  | parked (next : Wake → Course)

/-- How far a run has come. -/
inductive Progress where
  | going (stage : Stage)
  | ended (outcome : RunOutcome)

/-- The outcome of a run that has ended. -/
def Progress.outcome? : Progress → Option RunOutcome
  | going _ => none
  | ended o => some o

/-- A run that was started: the requests made of it, and how far it has come. -/
structure RunRecord where
  signals : Signals := {}
  progress : Progress

/-- Why a run is not started. -/
inductive StartError where
  | runAlreadyActive
  | noDeviceConnected
  deriving Repr, DecidableEq

/-- The refusal in words. -/
def StartError.message : StartError → String
  | runAlreadyActive => "a run is already active; stop it first"
  | noDeviceConnected => "no device connected"

/-- A reset is refused while a run goes on. -/
structure NotResettable where
  state : RunState
  deriving Repr, DecidableEq

/-- The refusal in words. -/
def NotResettable.message (e : NotResettable) : String :=
  "cannot reset while " ++ e.state.name

/-- What a runner shows to someone who looks at it: the snapshot, and the newest event of its
log. -/
structure Glimpse where
  snapshot : Snapshot
  newest : Option Log.Event
  deriving Repr, DecidableEq

/-- The runs started so far, numbered in that order, with what they made known. -/
structure Runner where
  projector : Projector
  log : Log.Buffer
  /-- The number of the run that is active. -/
  active : Option Nat
  runs : List RunRecord

namespace Runner

/-- A runner that has not started any run. -/
def create (logCapacity : Nat) : Runner :=
  ⟨{}, .empty logCapacity, none, []⟩

/-- The state last made known. -/
def state (r : Runner) : RunState := r.projector.state

/-- The line last made known. -/
def cursor (r : Runner) : Option Nat := r.projector.cursor

/-- Whether a run was started and has not ended. -/
def isActive (r : Runner) : Bool := r.active.isSome

/-- What the runner shows. -/
def glimpse (r : Runner) : Glimpse :=
  ⟨r.projector.snapshot, r.log.entries.getLast?⟩

/-- The runner after it heard a notice at some moment. -/
def observe (r : Runner) (moment : Timestamp) : Notice → Runner
  | .started _ => r
  | .cursor line => { r with projector := r.projector.setCursor line }
  | .state s => { r with projector := r.projector.setState s }
  | .log e => { r with log := r.log.push (e.stamped moment) }

/-! ## 1. Runs -/

/-- The requests made of a run. -/
def signals (r : Runner) (run : Nat) : Signals :=
  ((r.runs[run]?).map (·.signals)).getD {}

/-- How far a run has come. -/
def progress? (r : Runner) (run : Nat) : Option Progress :=
  (r.runs[run]?).map (·.progress)

/-- The runner with other requests made of a run. -/
def setSignals (r : Runner) (run : Nat) (s : Signals) : Runner :=
  { r with runs := r.runs.modify run ({ · with signals := s }) }

/-- The runner with a run at this stage. -/
def setStage (r : Runner) (run : Nat) (s : Stage) : Runner :=
  { r with runs := r.runs.modify run ({ · with progress := .going s }) }

/-- The runner with a run that has ended. -/
def setOutcome (r : Runner) (run : Nat) (o : RunOutcome) : Runner :=
  { r with runs := r.runs.modify run ({ · with progress := .ended o }) }

/-- The runner without an active run, if it was this one. -/
def release (r : Runner) (run : Nat) : Runner :=
  if r.active = some run then { r with active := none } else r

/-! ## 2. Requests -/

/-- Start a run with this course; it does nothing yet. -/
def start? (r : Runner) (anyDevice : Bool) (course : Course) : Except StartError Runner :=
  if r.active.isSome then .error .runAlreadyActive
  else if anyDevice then
    .ok { r with active := some r.runs.length, runs := r.runs ++ [⟨{}, .going (.ready course)⟩] }
  else .error .noDeviceConnected

/-- Ask a run for a stop. -/
def stopRun (r : Runner) (run : Nat) : Runner :=
  r.setSignals run (r.signals run).requestStop

/-- Ask a run for a continue; the answer says whether it took it. -/
def continueRun (r : Runner) (run : Nat) : Runner × Bool :=
  let (s, taken) := (r.signals run).requestContinue
  (r.setSignals run s, taken)

/-- Ask the active run for a stop; the answer says whether there is one. -/
def stopActive (r : Runner) : Runner × Bool :=
  match r.active with
  | some run => (r.stopRun run, true)
  | none => (r, false)

/-- Ask the active run for a continue; the answer says whether there is one that took it. -/
def continueActive (r : Runner) : Runner × Bool :=
  match r.active with
  | some run => r.continueRun run
  | none => (r, false)

/-- The notices of a reset: none for a runner that is idle already. -/
def resetNotices? (r : Runner) : Except NotResettable (List Notice) :=
  if r.active.isSome || r.state.isActive then .error ⟨r.state⟩
  else if r.state.isTerminal then .ok [.cursor none, .state .idle]
  else .ok []

end Runner

/-! ## 3. Runs that break off -/

/-- The outcome of a run that an observer broke off by its crash. -/
def Crash.abortReason (c : Crash) : String :=
  "run aborted: " ++ c.message

/-- What is still done for a run that an observer broke off by its crash. -/
def Crash.abortReport (c : Crash) : Course :=
  .tell (.log { kind := .error, message := c.abortReason }) <|
  .tell (.cursor none) <|
  .tell (.state .failed) <|
  .ended (.ok (.failed c.abortReason))

/-- The outcome of a run whose abort report was broken off by another crash.  The number of the task
that carried the run is not known and is shown as the letter N. -/
def Crash.lostReason (c : Crash) : String :=
  match c.text with
  | some s => "run task failed: task N panicked with message " ++ Text.quoted s
  | none => "run task failed: task N panicked"

end DeviceScript
