/-!
# Signals into a run

Two requests reach a run from outside.  A stop is remembered: once asked for, it stays asked for.  A
continue has an effect only while the run waits at a pause, and only once for each pause.
-/

namespace DeviceScript

/-- Where the continue of a pause stands. -/
inductive Gate where
  /-- The run is not at a pause, or the continue was taken and acted on. -/
  | clear
  /-- The run is at a pause and waits for a continue. -/
  | waiting
  /-- The run is at a pause, and its continue has come. -/
  | released
  /-- The run broke off at a pause and will never take its continue. -/
  | abandoned
  deriving Repr, DecidableEq, Inhabited

/-- The requests made of a run. -/
structure Signals where
  stop : Bool := false
  gate : Gate := .clear
  deriving Repr, DecidableEq, Inhabited

namespace Signals

/-- Ask for a stop. -/
def requestStop (s : Signals) : Signals :=
  { s with stop := true }

/-- Ask for a continue; the answer says whether a waiting run took it. -/
def requestContinue (s : Signals) : Signals × Bool :=
  match s.gate with
  | .waiting => ({ s with gate := .released }, true)
  | .abandoned => ({ s with gate := .clear }, false)
  | _ => (s, false)

/-- Whether a pause still lacks its continue. -/
def isPausePending (s : Signals) : Bool :=
  s.gate = .waiting || s.gate = .abandoned

/-- The run comes to a pause. -/
def arm (s : Signals) : Signals :=
  { s with gate := .waiting }

/-- The run leaves a pause. -/
def disarm (s : Signals) : Signals :=
  { s with gate := .clear }

/-- The run breaks off. -/
def abandon (s : Signals) : Signals :=
  { s with gate := if s.gate = .waiting then .abandoned else s.gate }

end Signals

end DeviceScript
