import DeviceScript.Cli.Arguments
import DeviceScript.Config.Loading
import DeviceScript.Runner
import DeviceScript.Script.Load
import DeviceScript.Text.Padding
/-!
# Jobs

A job is a run that can begin: a script, the way it is to be run, and the devices for it.  It is
made from options, settings and a script (`Job.prepare`).  Settings are looked at before the script,
and the script before the names of devices, so of several failures the first in this order is
reported.

A failure is reported by a message, followed by the messages of its causes, from the nearest to the
deepest; these are numbered if there are several.

When a run is over, its outcome decides with which code the program ends, and what is said at the
end: how many warnings and errors the log shows, and why the run failed.
-/

namespace DeviceScript.Cli

/-- Why nothing is run or checked. -/
inductive Failure where
  | settings (path : Path) (error : ConfigError)
  | script (error : ScriptError)
  | deviceName (error : BadDeviceName)
  | start (error : StartError)
  deriving Repr

namespace Failure

/-- The failure in words. -/
def message : Failure → String
  | settings path _ => "Failed to load " ++ path
  | script e => e.message
  | deviceName e => e.message
  | start e => e.message

/-- The messages of the causes, the nearest first. -/
def causes : Failure → List String
  | settings _ (.unreadable path e) => [(ConfigError.unreadable path e).message, e.message]
  | settings _ e => [e.message]
  | script e => [e.error.message]
  | deviceName _ | start _ => []

/-- A message with a mark before it, its further lines set in as far as its first. -/
def marked (mark message : String) : String :=
  mark ++ message.replace "\n" ("\n" ++ Text.spaces mark.length)

/-- What is reported. -/
def report (f : Failure) : List String :=
  ("Error: " ++ f.message) ::
    match f.causes with
    | [] => []
    | [c] => ["", "Caused by:", marked (Text.spaces 4) c]
    | cs => "" :: "Caused by:" :: cs.mapIdx fun i c =>
        marked (Text.padLeft 5 (toString i) ++ ": ") c

end Failure

/-- A run that can begin. -/
structure Job where
  plan : Plan
  registry : Registry
  logCapacity : Nat

namespace Job

/-- The run that is asked for. -/
def prepare (o : RunOptions) (settings : Except ConfigError Settings)
    (script : Except ScriptError Script) : Except Failure Job := do
  let settings ← settings.mapError (.settings o.config)
  let script ← script.mapError .script
  let registry ← (settings.registry? o.devices).mapError .deviceName
  let mode := if o.singleBlock then .singleBlock else settings.mode
  let job : Job := ⟨⟨script, mode, settings.timing⟩, registry, settings.logCapacity⟩
  let _ ← ((Runner.create job.logCapacity).start? registry.hasAny job.plan.course).mapError .start
  pure job

end Job

/-! ## After the run -/

/-- The code with which the program ends after a run. -/
def exitCode : RunOutcome → Nat
  | .completed => 0
  | .stopped => 130
  | .failed _ => 1

/-- What is said at the end of a run, `log` being what was kept of its log. -/
def closing (log : Log.Buffer) (o : RunOutcome) : List String :=
  let warnings := log.count .warning
  let errors := log.count .error
  (if warnings + errors > 0 then
    [toString warnings ++ " warning(s), " ++ toString errors ++ " error(s) in the last " ++
      toString log.size ++ " log entries"]
  else []) ++
  match o with
  | .failed reason => ["Run failed: " ++ reason]
  | _ => []

end DeviceScript.Cli
