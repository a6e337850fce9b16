import DeviceScript.Bench.Follow
import DeviceScript.Bench.Reaction
import DeviceScript.Json.Text
import DeviceScript.Main
import DeviceScript.Proofs.Bench.Audience
import DeviceScript.Proofs.Bench.Broadcast
import DeviceScript.Proofs.Bench.Devices
import DeviceScript.Proofs.Bench.Refusals
import DeviceScript.Proofs.Bench.Transitions
import DeviceScript.Proofs.Bus.Typed
import DeviceScript.Proofs.Check
import DeviceScript.Proofs.Config.Acceptance
import DeviceScript.Proofs.Config.Chain
import DeviceScript.Proofs.Config.Devices
import DeviceScript.Proofs.Course.Renumbering
import DeviceScript.Proofs.Device.Registry
import DeviceScript.Proofs.Instruction.Canonical
import DeviceScript.Proofs.Log.Buffer
import DeviceScript.Proofs.Run.Projector
import DeviceScript.Proofs.Script.Endings
import DeviceScript.Proofs.Wire.RoundTrip
import DeviceScript.Wire.Settings
