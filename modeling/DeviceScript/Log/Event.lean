import DeviceScript.Time.Timestamp
/-!
# The operator's log

A run reports what it does in log entries.  An entry has a kind and a message and may concern a
device and a line of the script; an event is an entry with the moment it was made.  `Event.render`
is the line that an operator reads.
-/

namespace DeviceScript.Log

/-- What a log entry is about. -/
inductive Kind where
  | info
  /-- A command was handed to its device. -/
  | sent
  /-- A device acknowledged a command, or a run came to its end. -/
  | success
  | warning
  | error
  | pause
  | stop
  deriving Repr, DecidableEq

namespace Kind

/-- Every kind. -/
def all : List Kind :=
  [info, sent, success, warning, error, pause, stop]

/-- The name of the kind. -/
def name : Kind → String
  | info => "info"
  | sent => "sent"
  | success => "success"
  | warning => "warning"
  | error => "error"
  | pause => "pause"
  | stop => "stop"

/-- The label that an operator reads. -/
def label : Kind → String
  | info => "INFO"
  | sent => "SENT"
  | success => "OK"
  | warning => "WARNING"
  | error => "ERROR"
  | pause => "PAUSE"
  | stop => "STOP"

end Kind

/-- What a run reports: a message of some kind, with the device and the line, counted from zero,
that it concerns. -/
structure Entry where
  kind : Kind
  message : String
  device : Option String := none
  line : Option Nat := none
  deriving Repr, DecidableEq

/-- An entry and the moment it was made. -/
structure Event extends Entry where
  timestamp : Timestamp
  deriving Repr, DecidableEq

namespace Entry

/-- The entry, made at this moment. -/
def stamped (e : Entry) (t : Timestamp) : Event :=
  { e with timestamp := t }

end Entry

namespace Event

/-- The event, with the device that it concerns. -/
def withDevice (e : Event) (device : String) : Event :=
  { e with device := some device }

/-- The event, with the line that it concerns. -/
def atLine (e : Event) (line : Nat) : Event :=
  { e with line := some line }

/-- The text after the label: the device, if there is one, and the message. -/
def body (e : Event) : String :=
  match e.device with
  | some d => d ++ ": " ++ e.message
  | none => e.message

/-- The line that an operator reads. -/
def render (e : Event) : String :=
  e.timestamp.clockText ++ " [" ++ e.kind.label ++ "] " ++ e.body

end Event

end DeviceScript.Log
