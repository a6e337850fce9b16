import DeviceScript.Device.Simulated
import DeviceScript.Run.Course
/-!
# Settings

The settings say how runs are timed, how much of the log is kept, in which mode scripts run, and
which devices there are at the start.  Every device that is set up from settings is simulated.

Settings are sound when the log keeps at least one event and every device has a name of its own that
a script can address (`isDeviceName`).  `Settings.fault?` finds the first thing that is not; the
devices are looked at in order.

More devices can be named on the spot (`Settings.registry?`).  A device that the settings have
already is left as it is.
-/

namespace DeviceScript

/-- A name by which a script can address a device: not empty, no blank in it, and no point. -/
def isDeviceName (name : String) : Bool :=
  name ≠ "" && !name.toList.any Text.isBlank && !name.toList.contains '.'

/-- A device to be set up at the start. -/
structure DeviceSettings where
  name : String
  /-- How long the device takes to reply, in thousandths of a second. -/
  latency : Nat := 0
  /-- The commands that the device refuses. -/
  reject : List String := []
  /-- Whether the device is connected at the start. -/
  connected : Bool := true
  deriving Repr, DecidableEq

/-- The settings. -/
structure Settings where
  /-- How long a run rests after each command, in thousandths of a second. -/
  settle : Nat := 100
  /-- How long a run waits for a reply, in thousandths of a second; zero stands for no limit. -/
  limit : Nat := 10000
  /-- How many log events are kept. -/
  logCapacity : Nat := 1000
  mode : RunMode := .continuous
  devices : List DeviceSettings := []
  deriving Repr, DecidableEq

/-- What is wrong with settings that could be read. -/
inductive SettingsFault where
  | emptyLog
  | badName (name : String)
  | repeatedName (name : String)
  deriving Repr, DecidableEq

namespace Settings

/-- The delays of a run. -/
def timing (s : Settings) : Timing :=
  ⟨s.settle, if s.limit = 0 then none else some s.limit⟩

/-- What is wrong with the first device that anything is wrong with, `seen` being the names of the
devices before. -/
def deviceFault? (seen : List String) : List DeviceSettings → Option SettingsFault
  | [] => none
  | d :: r =>
    if !isDeviceName d.name then some (.badName d.name)
    else if seen.contains d.name then some (.repeatedName d.name)
    else deviceFault? (d.name :: seen) r

/-- What is wrong with the settings. -/
def fault? (s : Settings) : Option SettingsFault :=
  if s.logCapacity = 0 then some .emptyLog else deviceFault? [] s.devices

end Settings

/-! ## Setting up devices -/

namespace DeviceSettings

/-- The registry with this device. -/
def register (d : DeviceSettings) (r : Registry) : Registry :=
  let r := Simulated.register ⟨d.latency, d.reject⟩ r d.name
  if d.connected then r else (r.setConnected d.name false).1

end DeviceSettings

/-- A name given on the spot by which no script can address a device. -/
structure BadDeviceName where
  name : String
  deriving Repr, DecidableEq

/-- The refusal in words. -/
def BadDeviceName.message (e : BadDeviceName) : String :=
  "invalid device name '" ++ e.name ++ "'"

/-- The registry with simulated devices of these names as well; those that it has already stay as
they are. -/
def Registry.withNames? (r : Registry) : List String → Except BadDeviceName Registry
  | [] => .ok r
  | name :: rest =>
    if !isDeviceName name then .error ⟨name⟩
    else if r.isRegistered name then withNames? r rest
    else withNames? (Simulated.register {} r name) rest

namespace Settings

/-- The devices at the start: those of the settings, and those named on the spot. -/
def registry? (s : Settings) (extra : List String) : Except BadDeviceName Registry :=
  (s.devices.foldl (fun r (d : DeviceSettings) => d.register r) Registry.empty).withNames? extra

end Settings

end DeviceScript
