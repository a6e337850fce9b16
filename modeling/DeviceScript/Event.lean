import DeviceScript.Log.Event
import DeviceScript.Run.State
/-!
# Events

An event is what a run publishes: a topic, a payload, the moment it was fired and the context of the
run that fired it.  Three payloads have a topic of their own: a change of the run's state, a move of
its cursor, and an entry of the operator's log.
-/

namespace DeviceScript

/-- The run that an event belongs to: an identifier, and the name of the script if it has one. -/
structure Context where
  id : String
  script : Option String := none
  deriving Repr, DecidableEq

/-- A published notification. -/
structure Event (α : Type) where
  topic : String
  data : α
  fired : Timestamp
  context : Context
  deriving Repr, DecidableEq

/-- The same event with another payload. -/
def Event.withData {α β : Type} (e : Event α) (data : β) : Event β :=
  { topic := e.topic, data, fired := e.fired, context := e.context }

/-- The run entered a state. -/
structure StateChanged where
  state : RunState
  deriving Repr, DecidableEq

/-- The run came to a line, or left the last one. -/
structure CursorChanged where
  line : Option Nat
  deriving Repr, DecidableEq

end DeviceScript
