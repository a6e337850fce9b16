import DeviceScript.Device.Registry
/-!
# Simulated devices

A simulated device needs no hardware: it acknowledges every command after a fixed time, but refuses
the commands whose first word is on its list.
-/

namespace DeviceScript

/-- A device without hardware: the time it takes to answer, in thousandths of a second, and the
commands it refuses. -/
structure Simulated where
  latency : Nat := 0
  reject : List String := []
  deriving Repr, DecidableEq

namespace Simulated

/-- The name of a command: its first word, which is empty in a text of blanks. -/
def commandName (command : String) : String :=
  match Text.firstWord command.toList with
  | some w => String.ofList w
  | none => ""

/-- The answer to a command. -/
def reply (s : Simulated) (req : Request) : Reply :=
  let name := commandName req.command
  if name ∈ s.reject then .rejected (req.device ++ " rejected '" ++ name ++ "'") else .ok

/-- What the device does with a command. -/
def handler (s : Simulated) : Handler := fun req =>
  .after s.latency (.replied (s.reply req))

/-- The registry with this device. -/
def register (s : Simulated) (r : Registry) (name : String) : Registry :=
  r.register name .simulated s.handler

end Simulated

/-- A device whose every command is lost on the way. -/
def faultyHandler (reason : String) : Handler := fun _ =>
  .after 0 (.failed (.transport reason))

end DeviceScript
