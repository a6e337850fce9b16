import DeviceScript.Log.Event
import DeviceScript.Run.State
/-!
# Notices

A run tells its observers what it does: that it starts, which line it is at, which state it enters,
and what goes into the operator's log.  Every observer is told everything, in the order in which the
observers joined.
-/

namespace DeviceScript

/-- What a run tells its observers. -/
inductive Notice where
  /-- A run of the script with this name starts. -/
  | started (script : Option String)
  /-- The run came to this line, or left the last one. -/
  | cursor (line : Option Nat)
  /-- The run entered this state. -/
  | state (state : RunState)
  | log (entry : Log.Entry)
  deriving Repr, DecidableEq

/-- Observers by name, in the order in which they joined. -/
structure Audience where
  members : List String
  deriving Repr, DecidableEq

namespace Audience

/-- The audience with one more observer. -/
def join (a : Audience) (name : String) : Audience :=
  ⟨a.members ++ [name]⟩

/-- Who is told what when there is a notice. -/
def tell (a : Audience) (n : Notice) : List (String × Notice) :=
  a.members.map (·, n)

end Audience

/-! ## Records for developers -/

/-- How serious a record is. -/
inductive Level where
  | info
  | warn
  | error
  deriving Repr, DecidableEq

/-- The name of the level. -/
def Level.name : Level → String
  | info => "INFO"
  | warn => "WARN"
  | error => "ERROR"

/-- A record for developers: a level and named texts. -/
structure TraceRecord where
  level : Level
  fields : List (String × String)
  deriving Repr, DecidableEq

namespace TraceRecord

/-- A line in a record. -/
def lineText : Option Nat → String
  | none => "None"
  | some n => "Some(" ++ toString n ++ ")"

/-- The level at which an entry of this kind is recorded. -/
def levelOf : Log.Kind → Level
  | .error => .error
  | .warning => .warn
  | _ => .info

/-- The record of a log entry; its kind is a field of its own unless the level tells it. -/
def ofEntry (e : Log.Entry) : TraceRecord where
  level := levelOf e.kind
  fields :=
    [("message", e.message), ("device", e.device.getD "-"), ("line", lineText e.line)] ++
      (if levelOf e.kind = .info then [("kind", e.kind.label)] else [])

/-- The records of a notice: one for a state and for a log entry, and none for the others. -/
def ofNotice : Notice → List TraceRecord
  | .state s => [⟨.info, [("message", "Run state changed"), ("state", s.name)]⟩]
  | .log e => [ofEntry e]
  | _ => []

end TraceRecord

end DeviceScript
