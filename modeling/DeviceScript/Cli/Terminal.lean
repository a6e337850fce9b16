import DeviceScript.Run.Notice
import DeviceScript.Script
import DeviceScript.Text.Padding
/-!
# What an operator reads

While a script runs at a terminal, the operator reads each line that the run comes to, a hint at
each pause, and the log.
-/

namespace DeviceScript.Cli

/-- The hint at a pause. -/
def pauseHint : String :=
  "       (Enter to continue, Ctrl-C to stop)"

/-- The line of the script that a run has come to. -/
def echo (s : Script) (index : Nat) : String :=
  Text.padLeft 4 (toString (index + 1)) ++ " | " ++ s.trimmedLine index

/-- What an operator reads when there is a notice. -/
def shown (s : Script) (moment : Timestamp) : Notice → List String
  | .cursor (some index) => [echo s index]
  | .state .paused => [pauseHint]
  | .log e => [(e.stamped moment).render]
  | _ => []

/-- What a developer reads of a record: its level, its message, and the other fields by name. -/
def recordText (r : TraceRecord) : String :=
  " ".intercalate <|
    r.level.name :: r.fields.map fun (name, v) => if name = "message" then v else name ++ "=" ++ v

end DeviceScript.Cli
