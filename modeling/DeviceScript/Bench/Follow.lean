import DeviceScript.Bench.Tell
/-!
# Following a run

A run is followed along its course up to a moment, the horizon: notices are told, questions are
answered by the devices and by the requests made of the run, and waiting times that end by the
horizon pass.  Where the run would have to wait longer, it stays at a stage, from which it is
followed further another time.

When several things end a wait at the same moment, a stop comes first.  A reply that comes at the
very moment at which its time is up still counts.

A crash of a listener breaks the run off.  The runner then reports the failure of the run to its
whole audience; a crash in the middle of that report loses the run, and the slot of the active run
is never given back.
-/

namespace DeviceScript

namespace Bench

/-- The bench with other requests made of a run. -/
def setSignals (b : Bench) (run : Nat) (s : Signals) : Bench :=
  b.withRunner (b.runner.setSignals run s)

/-- The bench with a run at this stage. -/
def suspend (b : Bench) (run : Nat) (s : Stage) : Bench :=
  b.withRunner (b.runner.setStage run s)

/-- The bench after the end of a run. -/
def conclude (b : Bench) (run : Nat) (o : RunOutcome) : Bench :=
  b.withRunner ((b.runner.setOutcome run o).release run)

/-- The bench after a run was lost. -/
def lose (b : Bench) (run : Nat) (c : Crash) : Bench :=
  b.withRunner (b.runner.setOutcome run (.failed c.lostReason))

/-- Whether a stop was requested of a run. -/
def isStopRequested (b : Bench) (run : Nat) : Bool :=
  (b.runner.signals run).stop

/-- What ends a rest by the horizon, and the bench at that moment. -/
def restEnd? (b : Bench) (run horizon due : Nat) : Option (Wake × Bench) :=
  if b.isStopRequested run then some (.stopped, b)
  else if due ≤ horizon then some (.due, { b with now := max b.now due })
  else none

/-- The bench at the moment at which a call ends by the horizon. -/
def callEnd? (b : Bench) (horizon : Nat) : (due : Option Nat) → Option Bench
  | some due => if due ≤ horizon then some { b with now := max b.now due } else none
  | none => none

/-- What ends a pause. -/
def pauseEnd? (b : Bench) (run : Nat) : Option Wake :=
  let s := b.runner.signals run
  if s.stop then some .stopped
  else if s.gate = .released then some .due
  else none

/-- Follow a run along its course up to the horizon, `broken` being what is done when a listener
breaks it off. -/
def follow (run horizon : Nat) (broken : Crash → Bench → Bench) : Course → Bench → Bench
  | .ended r, b => b.conclude run (Course.outcomeOf r)
  | .tell n next, b =>
    match b.tell n with
    | (b, some c) => broken c b
    | (b, none) => follow run horizon broken next b
  | .askAny next, b => follow run horizon broken (next b.registry.hasAny) b
  | .askDevice name next, b => follow run horizon broken (next (b.registry.isConnected name)) b
  | .askStop next, b => follow run horizon broken (next (b.isStopRequested run)) b
  | .rest nanos next, b =>
    let due := b.now + wholeMillis nanos
    match b.restEnd? run horizon due with
    | some (w, b) => follow run horizon broken (next w) b
    | none => b.suspend run (.resting due next)
  | .call request limit next, b =>
    let (duration, result) := (b.handling request).limited limit
    let due := duration.map (b.now + ·)
    let b := b.note (.sent request)
    match b.callEnd? horizon due with
    | some b => follow run horizon broken (next result) b
    | none => b.suspend run (.calling due result next)
  | .arm next, b => follow run horizon broken next (b.setSignals run (b.runner.signals run).arm)
  | .park next, b =>
    match b.pauseEnd? run with
    | some w => follow run horizon broken (next w) b
    | none => b.suspend run (.parked next)
  | .disarm next, b =>
    follow run horizon broken next (b.setSignals run (b.runner.signals run).disarm)

/-- Report that a run was broken off. -/
def abort (run horizon : Nat) (c : Crash) (b : Bench) : Bench :=
  follow run horizon (fun c b => b.lose run c) c.abortReport
    (b.setSignals run (b.runner.signals run).abandon)

/-- Follow a run from its stage up to the horizon. -/
def resume (run horizon : Nat) (b : Bench) : Stage → Bench
  | .ready course => follow run horizon (abort run horizon) course b
  | .resting due next =>
    match b.restEnd? run horizon due with
    | some (w, b) => follow run horizon (abort run horizon) (next w) b
    | none => b
  | .calling due result next =>
    match b.callEnd? horizon due with
    | some b => follow run horizon (abort run horizon) (next result) b
    | none => b
  | .parked next =>
    match b.pauseEnd? run with
    | some w => follow run horizon (abort run horizon) (next w) b
    | none => b

/-- Follow a run up to the horizon, if it has not ended. -/
def proceed (b : Bench) (horizon run : Nat) : Bench :=
  match b.runner.progress? run with
  | some (.going s) => b.resume run horizon s
  | _ => b

/-- Let time pass. -/
def pass (b : Bench) (ms : Nat) : Bench :=
  let horizon := b.now + ms
  { (List.range b.runner.runs.length).foldl (fun b run => b.proceed horizon run) b with
    now := horizon }

/-- Let time pass until a run has ended, but at most for so long; the answer is its outcome. -/
def await (b : Bench) (run limit : Nat) : Bench × Option RunOutcome :=
  match b.outcome? run with
  | some o => (b, some o)
  | none =>
    let horizon := b.now + limit
    let b := b.proceed horizon run
    match b.outcome? run with
    | some o => (b, some o)
    | none => ({ b with now := horizon }, none)

end Bench

end DeviceScript
