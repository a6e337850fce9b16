import DeviceScript.Config.Settings
import DeviceScript.Wire.Run
/-!
# Settings in JSON

The JSON forms of settings and of the devices in them.  Unlike other records they must not have
fields of other names, so that a misspelt setting is noticed.
-/

namespace DeviceScript

open Wire

/-- The slots of a record that has no other fields than these. -/
def Wire.exactSlots? (parts : List String) : Json → Option (List Slot)
  | .fields entries =>
    if (Table.names entries).all parts.contains then slots? parts (.fields entries) else none
  | j => slots? parts j

namespace DeviceSettings

def ofJson? (j : Json) : Option DeviceSettings := do
  match ← exactSlots? ["name", "latency_ms", "reject", "connected"] j with
  | [name, latency, reject, connected] =>
    let name ← name.required? Json.text?
    let latency ← latency.defaulted? 0 Json.natural?
    let reject ← reject.defaulted? [] (Json.list? Json.text?)
    let connected ← connected.defaulted? true Json.bool?
    pure { name, latency, reject, connected }
  | _ => none

end DeviceSettings

namespace Settings

def ofJson? (j : Json) : Option Settings := do
  let fields := ["settle_delay_ms", "command_timeout_ms", "log_buffer_size", "mode", "devices"]
  match ← exactSlots? fields j with
  | [settle, limit, logCapacity, mode, devices] =>
    let settle ← settle.defaulted? 100 Json.natural?
    let limit ← limit.defaulted? 10000 Json.natural?
    let logCapacity ← logCapacity.defaulted? 1000 Json.natural?
    let mode ← mode.defaulted? .continuous RunMode.ofJson?
    let devices ← devices.defaulted? [] (Json.list? DeviceSettings.ofJson?)
    pure { settle, limit, logCapacity, mode, devices }
  | _ => none

end Settings

end DeviceScript
