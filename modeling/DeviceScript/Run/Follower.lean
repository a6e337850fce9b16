import DeviceScript.Run.Course
/-!
# Followers

A follower goes along the course of a run to its end and does what the run does: it tells, asks,
rests, calls and waits, each in its own way (`Follower`).  Which branch of the course it takes is
decided by the answers that it gets, so `Course.followBy` is the same for a follower that works at a
real terminal and for one that only writes down what would happen there.
-/

namespace DeviceScript

/-- How each thing that a run does is done. -/
structure Follower (m : Type → Type) where
  tell : Notice → m Unit
  /-- Whether any device is connected. -/
  anyConnected : m Bool
  /-- Whether this device is connected. -/
  isConnected : String → m Bool
  isStopRequested : m Bool
  /-- Rest for so many thousand-millionths of a second, or until a stop is requested. -/
  rest : Nat → m Wake
  /-- Hand a command to the gateway and wait for its end, at most for so many thousandths of a
  second. -/
  call : Request → Option Nat → m (Option CallResult)
  /-- Be ready for the continue of a pause. -/
  arm : m Unit
  /-- Wait for the continue of a pause, or until a stop is requested. -/
  park : m Wake
  /-- Take no continue any more. -/
  disarm : m Unit

namespace Course

/-- Follow a course to its end. -/
def followBy {m : Type → Type} [Monad m] (f : Follower m) : Course → m RunOutcome
  | .ended r => pure (outcomeOf r)
  | .tell n next => do f.tell n; next.followBy f
  | .askAny next => do let a ← f.anyConnected; (next a).followBy f
  | .askDevice name next => do let a ← f.isConnected name; (next a).followBy f
  | .askStop next => do let a ← f.isStopRequested; (next a).followBy f
  | .rest nanos next => do let w ← f.rest nanos; (next w).followBy f
  | .call request limit next => do let r ← f.call request limit; (next r).followBy f
  | .arm next => do f.arm; next.followBy f
  | .park next => do let w ← f.park; (next w).followBy f
  | .disarm next => do f.disarm; next.followBy f

end Course

end DeviceScript
