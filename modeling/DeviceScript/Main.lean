import DeviceScript.Cli.Transcript
import Std.Async.Signal
import Std.Time.DateTime.Timestamp
/-!
# The program

Reads the command line, looks files and variables up as they are needed, and does what is asked for.
A run is followed with real clocks: notices are printed as they come, Enter ends a pause, and an
interrupt asks for a stop.
-/

namespace DeviceScript.Cli

/-! ## 1. Files and variables -/

/-- What has been found out about files and variables. -/
structure Findings where
  files : Table (Except FileError String) := []
  environment : Table (Option String) := []

namespace Findings

/-- The surroundings as far as they are known. -/
def surroundings (f : Findings) : Surroundings where
  read p := (f.files.find? p).getD (.error .notFound)
  isPresent p :=
    match f.files.find? p with
    | none
    | some (.error .notFound)
    | some (.error .notDirectory)
    | some (.error .nameTooLong) => false
    | _ => true
  environment name := (f.environment.find? name).join

/-- What is wrong with a file that cannot be read. -/
def fileError : IO.Error → FileError
  | .noFileOrDirectory .. => .notFound
  | .inappropriateType _ code details | .resourceExhausted _ code details
  | .invalidArgument _ code details | .permissionDenied _ code details =>
    match code.toNat with
    | 2 => .notFound
    | 20 => .notDirectory
    | 21 => .isDirectory
    | 36 => .nameTooLong
    | n => .other (details ++ " (os error " ++ toString n ++ ")")
  | e => .other (toString e)

/-- Read a file. -/
def lookAt (f : Findings) (p : Path) : IO Findings := do
  let found ←
    try
      let bytes ← IO.FS.readBinFile p
      pure <| match Text.Utf8.decode? bytes.toList with
        | some cs => .ok (String.ofList cs)
        | none => .error .notText
    catch e => pure (.error (fileError e))
  pure { f with files := f.files.insert p found }

/-- Ask for the value of a variable. -/
def ask (f : Findings) (name : String) : IO Findings := do
  pure { f with environment := f.environment.insert name (← IO.getEnv name) }

/-- Load the settings, and find out about files and variables until nothing is missing for it. -/
partial def settle (f : Findings) (path : Path) : IO (Except ConfigError Settings) := do
  match Settings.loadOrDefault f.surroundings path with
  | .error (.unreadable p e) =>
    if f.files.contains p then pure (.error (.unreadable p e)) else (← f.lookAt p).settle path
  | .error (.missingVariable name) =>
    if f.environment.contains name then pure (.error (.missingVariable name))
    else (← f.ask name).settle path
  | r => pure r

end Findings

/-! ## 2. Runs -/

/-- A terminal at which a run is followed. -/
structure Console where
  verbose : Bool
  log : IO.Ref Log.Buffer
  signals : IO.Ref Signals

namespace Console

/-- The moment it is now. -/
def moment : IO Timestamp := do
  let t ← Std.Time.Timestamp.now
  pure (.ofMillis t.toMillisecondsSinceUnixEpoch.val.toNat)

/-- Ask for a continue at each line that is read, until there are no more. -/
partial def listen (c : Console) : IO Unit := do
  let line ← (← IO.getStdin).getLine
  if !line.isEmpty && !(← IO.checkCanceled) then
    c.signals.modify (·.requestContinue.1)
    c.listen

/-- Whether the operator has interrupted. -/
def isInterrupted (c : Console) : IO Bool := do
  pure (← c.signals.get).stop

/-- Let time pass until this moment of the monotonic clock, or until something has happened. -/
partial def passUntil (due : Nat) (happened : IO Bool) : IO Unit := do
  let now ← IO.monoMsNow
  if now < due && !(← happened) then
    IO.sleep (.ofNat (min 20 (due - now)))
    passUntil due happened

/-- Wait for a continue or for an interrupt. -/
partial def park (c : Console) : IO Wake := do
  let s ← c.signals.get
  if s.stop then pure .stopped
  else if s.gate = .released then pure .due
  else
    IO.sleep 20
    c.park

/-- How a job is followed at a terminal. -/
def follower (c : Console) (j : Job) : Follower IO where
  tell n := do
    let now ← moment
    (shown j.plan.script now n).forM IO.println
    match n with
    | .log e => c.log.modify (·.push (e.stamped now))
    | _ => pure ()
    if c.verbose then
      (TraceRecord.ofNotice n).forM fun r => IO.eprintln (recordText r)
  anyConnected := pure j.registry.hasAny
  isConnected name := pure (j.registry.isConnected name)
  isStopRequested := c.isInterrupted
  rest nanos := do
    passUntil ((← IO.monoMsNow) + wholeMillis nanos) c.isInterrupted
    pure (if ← c.isInterrupted then .stopped else .due)
  call r limit := do
    let (ms, result) := (j.registry.handle r).limited limit
    passUntil ((← IO.monoMsNow) + ms.getD 0) (pure false)
    pure result
  arm := c.signals.modify (·.arm)
  park := c.park
  disarm := c.signals.modify (·.disarm)

end Console

/-- Print what a transcript holds, and end with its code. -/
def conclude (t : Transcript) : IO UInt32 := do
  t.output.forM IO.println
  t.errors.forM IO.eprintln
  pure (.ofNat (t.exit.getD 0))

/-- Follow a run at the terminal. -/
def attend (verbose : Bool) (j : Job) : IO UInt32 := do
  let c : Console := ⟨verbose, ← IO.mkRef (.empty j.logCapacity), ← IO.mkRef {}⟩
  let signal ← Std.Async.Signal.Waiter.mk .sigint true
  let interrupt ← IO.mapTask (fun _ => c.signals.modify (·.requestStop)) (← signal.wait)
  let input ←
    if j.plan.mode = .singleBlock then IO.asTask c.listen .dedicated else pure (.pure (.ok ()))
  let outcome ← j.plan.course.followBy (c.follower j)
  signal.stop
  IO.cancel interrupt
  IO.cancel input
  conclude ⟨some (exitCode outcome), [], closing (← c.log.get) outcome⟩

/-- Do what is asked for. -/
def obey (args : List String) : IO UInt32 := do
  match Invocation.ofArguments? args with
  | some (.command verbosity (.run o)) =>
    let settings ← (← ({} : Findings).lookAt o.config).settle o.config
    let found ← ({} : Findings).lookAt o.script
    match Job.prepare o settings (Script.load found.surroundings o.script) with
    | .ok j => attend (verbosity > 0) j
    | .error f => conclude (.failed f)
  | some (.command _ (.check path)) =>
    let found ← ({} : Findings).lookAt path
    conclude (.ofCommand found.surroundings {} (.check path))
  | _ => conclude (.ofArguments ({} : Findings).surroundings {} args)

end DeviceScript.Cli

def main (args : List String) : IO UInt32 :=
  DeviceScript.Cli.obey args
