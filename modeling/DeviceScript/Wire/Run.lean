import DeviceScript.Event
import DeviceScript.Wire.Record
/-!
# Runs in JSON

The JSON forms of what runs report: states, modes, outcomes, log events, and the events that are
published on a bus.  An outcome is an object with its name under `outcome`, or an array that begins
with its name.  Parts that are absent are left out, except for the line of a moved cursor.
-/

namespace DeviceScript

open Wire

namespace RunState

def toJson (s : RunState) : Json := .text s.name

def ofJson? : Json → Option RunState := word? all name

end RunState

namespace RunMode

def toJson (m : RunMode) : Json := .text m.name

def ofJson? : Json → Option RunMode := word? all name

end RunMode

namespace RunOutcome

/-- The outcome with this name; `rest` gives the value of its reason. -/
def ofNamed? (name : String) (reason : Option Json) : Option RunOutcome :=
  if name = "completed" then some completed
  else if name = "stopped" then some stopped
  else if name = "failed" then (reason.bind Json.text?).map failed
  else none

def toJson : RunOutcome → Json
  | completed => .object [("outcome", .text "completed")]
  | stopped => .object [("outcome", .text "stopped")]
  | failed reason => .object [("outcome", .text "failed"), ("reason", .text reason)]

def ofJson? : Json → Option RunOutcome
  | .fields entries => do
    let name ← (Table.find? entries "outcome").bind Json.text?
    ofNamed? name (Table.find? entries "reason")
  | .array (.text name :: rest) =>
    if rest.length = (if name = "failed" then 1 else 0) then ofNamed? name rest.head? else none
  | _ => none

end RunOutcome

namespace Timestamp

def toJson (t : Timestamp) : Json := .text t.text

def ofJson? (j : Json) : Option Timestamp := j.text?.bind read?

end Timestamp

namespace Log

def Kind.toJson (k : Kind) : Json := .text k.name

def Kind.ofJson? : Json → Option Kind := word? all name

def Event.toJson (e : Event) : Json :=
  .objectOfSome [("type", some e.kind.toJson), ("message", some (.text e.message)),
    ("device", e.device.map .text), ("line", e.line.map fun n => .int n),
    ("timestamp", some e.timestamp.toJson)]

def Event.ofJson? (j : Json) : Option Event := do
  match ← slots? ["type", "message", "device", "line", "timestamp"] j with
  | [kind, message, device, line, timestamp] =>
    let kind ← kind.required? Kind.ofJson?
    let message ← message.required? Json.text?
    let device ← device.optional? Json.text?
    let line ← line.optional? Json.natural?
    let timestamp ← timestamp.required? Timestamp.ofJson?
    pure { kind, message, device, line, timestamp }
  | _ => none

end Log

namespace StateChanged

def toJson (c : StateChanged) : Json := .object [("state", c.state.toJson)]

def ofJson? (j : Json) : Option StateChanged := do
  match ← slots? ["state"] j with
  | [state] => pure ⟨← state.required? RunState.ofJson?⟩
  | _ => none

end StateChanged

namespace CursorChanged

def toJson (c : CursorChanged) : Json := .object [("line", .ofNat? c.line)]

def ofJson? (j : Json) : Option CursorChanged := do
  match ← slots? ["line"] j with
  | [line] => pure ⟨← line.optional? Json.natural?⟩
  | _ => none

end CursorChanged

namespace Context

def toJson (c : Context) : Json :=
  .objectOfSome [("id", some (.text c.id)), ("script", c.script.map .text)]

def ofJson? (j : Json) : Option Context := do
  match ← slots? ["id", "script"] j with
  | [id, script] => pure ⟨← id.required? Json.text?, ← script.optional? Json.text?⟩
  | _ => none

end Context

/-! ## Payloads -/

/-- A type of payload: the topic its events are published on, and its JSON form. -/
class Payload (α : Type) where
  topic : String
  encode : α → Json
  decode? : Json → Option α

instance : Payload StateChanged := ⟨"run_state_changed", StateChanged.toJson, StateChanged.ofJson?⟩

instance : Payload CursorChanged := ⟨"cursor_changed", CursorChanged.toJson, CursorChanged.ofJson?⟩

instance : Payload Log.Event := ⟨"script_log", Log.Event.toJson, Log.Event.ofJson?⟩

namespace Event

variable {α : Type}

/-- An event on the topic of its payload. -/
def typed [Payload α] (data : α) (fired : Timestamp) (context : Context) : Event α :=
  ⟨Payload.topic α, data, fired, context⟩

/-- The event with its payload in JSON. -/
def erased [Payload α] (e : Event α) : Event Json :=
  e.withData (Payload.encode e.data)

/-- The event with its payload read back, if that can be read. -/
def payload? [Payload α] (e : Event Json) : Option (Event α) :=
  (Payload.decode? e.data).map e.withData

def toJson (e : Event Json) : Json :=
  .object [("event_type", .text e.topic), ("data", e.data), ("time_fired", e.fired.toJson),
    ("context", e.context.toJson)]

/-- The event that a JSON value denotes, its payload read by `decode`. -/
def ofJson? (decode : Json → Option α) (j : Json) : Option (Event α) := do
  match ← slots? ["event_type", "data", "time_fired", "context"] j with
  | [topic, data, fired, context] =>
    let topic ← topic.required? Json.text?
    let data ← data.required? decode
    let fired ← fired.required? Timestamp.ofJson?
    let context ← context.required? Context.ofJson?
    pure { topic, data, fired, context }
  | _ => none

end Event

end DeviceScript
