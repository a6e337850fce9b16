import DeviceScript.Device.Gateway
import DeviceScript.Wire.Record
/-!
# Commands and replies in JSON

The JSON forms of what goes to a device and comes back from it.  The text of a reply may be left out
in every form, since a reply without one is complete.
-/

namespace DeviceScript

open Wire

namespace Connection

def toJson (c : Connection) : Json := .text c.name

def ofJson? : Json → Option Connection := word? all name

end Connection

namespace Reply

def toJson (r : Reply) : Json :=
  .objectOfSome [("success", some (.bool r.success)), ("error", r.error.map .text)]

def ofJson? (j : Json) : Option Reply := do
  match ← slots? ["success", "error"] j with
  | [success, error] =>
    let success ← success.required? Json.bool?
    let error ← error.defaulted? none fun
      | .null => some none
      | v => v.text?.map some
    pure { success, error }
  | _ => none

end Reply

namespace Request

def toJson (r : Request) : Json :=
  .object [("device", .text r.device), ("command", .text r.command)]

def ofJson? (j : Json) : Option Request := do
  match ← slots? ["device", "command"] j with
  | [device, command] => pure ⟨← device.required? Json.text?, ← command.required? Json.text?⟩
  | _ => none

end Request

end DeviceScript
