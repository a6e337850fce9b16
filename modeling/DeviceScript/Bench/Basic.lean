import DeviceScript.Bus.Publisher
import DeviceScript.Device.Registry
import DeviceScript.Runner
/-!
# The bench

A bench is everything a runner needs, at one moment of a clock that counts thousandths of a second:
a registry of devices, a gateway, and the members of the runner's audience.  Nothing on a bench
happens by itself; the clock moves only when it is told to, so that what happens on a bench is a
function of what is done to it.

A member of the audience either publishes on a bus or listens.  A listener may act while it is told
something: it can do all that an operator can do, and it can crash.

Whatever happens is written into a journal: who was told what and what the runner showed at that
moment, which commands were handed to the gateway, and what listeners did.
-/

namespace DeviceScript

/-- What an operator can do. -/
inductive Control where
  | start (script : Script) (mode : RunMode)
  /-- Ask the active run for a stop. -/
  | stop
  /-- Ask the active run for a continue. -/
  | continueRun
  /-- Ask this run for a stop, active or not. -/
  | stopRun (run : Nat)
  /-- Ask this run for a continue, active or not. -/
  | continueThe (run : Nat)
  | reset
  | setConnected (name : String) (connected : Bool)
  deriving Repr, DecidableEq

/-- What a listener can do while it is told something. -/
inductive Act where
  | control (control : Control)
  | crash (crash : Crash)
  deriving Repr, DecidableEq

/-- What comes back from what is done. -/
inductive Answer where
  | done
  | flag (value : Bool)
  | started
  | notStarted (error : StartError)
  | notReset (error : NotResettable)
  deriving Repr, DecidableEq

/-- A member of the audience.  A listener is given by what it does when it hears a notice after
others; it remembers what it has heard. -/
inductive Member where
  | listener (react : (earlier : List Notice) → Notice → List Act) (heard : List Notice)
  | publisher (publisher : Publisher)

/-- The member after it heard a notice, and what it does thereupon. -/
def Member.hear (moment : Timestamp) (run : String) (n : Notice) : Member → Member × List Act
  | listener react heard => (listener react (heard ++ [n]), react heard n)
  | publisher p => (publisher (p.hear moment run n), [])

/-- What is written into the journal. -/
inductive Happening where
  /-- A member was told something, while the runner showed this. -/
  | told (member : Nat) (notice : Notice) (shown : Glimpse)
  /-- A command was handed to the gateway. -/
  | sent (request : Request)
  /-- A listener did something. -/
  | acted (member : Nat) (control : Control) (answer : Answer)
  /-- A listener crashed. -/
  | crashed (member : Nat) (crash : Crash)
  deriving Repr, DecidableEq

/-- Where commands go: to the registry, or to a gateway whose answers depend on the commands handed
to it so far. -/
inductive Gateway where
  | registry
  | scripted (respond : (earlier : List Request) → Handler)

/-- A runner with its devices and its audience, at one moment. -/
structure Bench where
  /-- The clock, in thousandths of a second. -/
  now : Nat
  runner : Runner
  timing : Timing
  registry : Registry
  gateway : Gateway
  members : List Member
  /-- How deep the acts of listeners may nest. -/
  nesting : Nat
  /-- How many runs have begun. -/
  begun : Nat
  journal : List (Nat × Happening)

namespace Bench

/-- A bench on which nothing has happened. -/
def create (logCapacity : Nat) (timing : Timing) (registry : Registry) (gateway : Gateway)
    (members : List Member) (nesting : Nat) : Bench :=
  ⟨0, .create logCapacity, timing, registry, gateway, members, nesting, 0, []⟩

/-- The bench with one more line in its journal. -/
def note (b : Bench) (h : Happening) : Bench :=
  { b with journal := b.journal ++ [(b.now, h)] }

/-- The commands handed to the gateway so far. -/
def requests (b : Bench) : List Request :=
  b.journal.filterMap fun
    | (_, .sent r) => some r
    | _ => none

/-- What happens to a command that is handed to the gateway now. -/
def handling (b : Bench) (r : Request) : Handling :=
  match b.gateway with
  | .registry => b.registry.handle r
  | .scripted respond => respond b.requests r

/-- How a run ended, if it has. -/
def outcome? (b : Bench) (run : Nat) : Option RunOutcome :=
  (b.runner.progress? run).bind Progress.outcome?

end Bench

end DeviceScript
