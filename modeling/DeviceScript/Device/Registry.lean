import DeviceScript.Device.Directory
import DeviceScript.Device.Gateway
import DeviceScript.Table
import DeviceScript.Text.Blank
/-!
# The device registry

The registry maps names to devices: how each is attached, whether it is connected, and the handler
that carries out its commands.  It is a directory, since it knows which devices are connected, and a
gateway, since it can hand a command to its device's handler (`dispatch?`).

A command of blanks is refused before anything else, then an unknown device, then a device that is
not connected.
-/

namespace DeviceScript

/-- A registered device. -/
structure Device where
  handler : Handler
  connection : Connection
  connected : Bool

/-- What the registry tells about a device. -/
structure DeviceInfo where
  name : String
  connection : Connection
  connected : Bool
  deriving Repr, DecidableEq

/-- The registered devices by name. -/
structure Registry where
  devices : Table Device

namespace Registry

/-- The registry without devices. -/
def empty : Registry := ⟨[]⟩

/-- The registry with this device, connected; a device of that name is replaced. -/
def register (r : Registry) (name : String) (connection : Connection) (handler : Handler) :
    Registry :=
  ⟨r.devices.insert name ⟨handler, connection, true⟩⟩

/-- Whether a device is registered. -/
def isRegistered (r : Registry) (name : String) : Bool :=
  r.devices.contains name

/-- The registry without this device; the answer says whether it was there. -/
def unregister (r : Registry) (name : String) : Registry × Bool :=
  (⟨r.devices.erase name⟩, r.isRegistered name)

/-- The registry with this device connected or not.  An unknown device changes nothing, and the
answer says whether it is known. -/
def setConnected (r : Registry) (name : String) (connected : Bool) : Registry × Bool :=
  (⟨r.devices.update name ({ · with connected })⟩, r.isRegistered name)

/-- What is known of a device. -/
def info? (r : Registry) (name : String) : Option DeviceInfo :=
  (r.devices.find? name).map fun d => ⟨name, d.connection, d.connected⟩

/-- What is known of all devices, in the order of their names. -/
def infos (r : Registry) : List DeviceInfo :=
  r.devices.map fun (name, d) => ⟨name, d.connection, d.connected⟩

/-- The number of devices. -/
def size (r : Registry) : Nat :=
  r.devices.length

/-- The connected devices. -/
def directory (r : Registry) : Directory :=
  ⟨(r.devices.filter (·.2.connected)).map (·.1)⟩

/-- Whether a device is registered and connected. -/
def isConnected (r : Registry) (name : String) : Bool :=
  (r.devices.find? name).any (·.connected)

/-- Whether any device is connected. -/
def hasAny (r : Registry) : Bool :=
  r.devices.any (·.2.connected)

/-- The handler that a command goes to, or why it goes to none. -/
def dispatch? (r : Registry) (req : Request) : Except GatewayError Handler :=
  if Text.allBlank req.command.toList then .error .emptyCommand
  else match r.devices.find? req.device with
    | none => .error (.unknownDevice req.device)
    | some d => if d.connected then .ok d.handler else .error (.notConnected req.device)

/-- What happens to a command. -/
def handle (r : Registry) : Handler := fun req =>
  match r.dispatch? req with
  | .ok handler => handler req
  | .error e => .after 0 (.failed e)

end Registry

end DeviceScript
