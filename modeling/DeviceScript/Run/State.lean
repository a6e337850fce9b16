/-!
# States, modes and outcomes of a run

A run is idle, going, paused, being stopped, or at one of three ends.  Which state may follow which
is the table `RunState.mayBecome`; `RunState.become?` follows it and says, when a step is refused,
why (`RefusalReason`).  Only a reset leads from an end back to idle.
-/

namespace DeviceScript

/-- How far a run has come. -/
inductive RunState where
  | idle
  | running
  | paused
  | stopping
  | stopped
  | completed
  | failed
  deriving Repr, DecidableEq, Inhabited

namespace RunState

/-- The name of the state. -/
def name : RunState → String
  | idle => "idle"
  | running => "running"
  | paused => "paused"
  | stopping => "stopping"
  | stopped => "stopped"
  | completed => "completed"
  | failed => "failed"

/-- The name of the state with a capital, as messages about refused steps have it. -/
def title : RunState → String
  | idle => "Idle"
  | running => "Running"
  | paused => "Paused"
  | stopping => "Stopping"
  | stopped => "Stopped"
  | completed => "Completed"
  | failed => "Failed"

/-- Every state. -/
def all : List RunState :=
  [idle, running, paused, stopping, stopped, completed, failed]

/-- A state of a run that has begun and not ended. -/
def isActive : RunState → Bool
  | running | paused | stopping => true
  | _ => false

/-- A state in which a run has ended. -/
def isTerminal : RunState → Bool
  | stopped | completed | failed => true
  | _ => false

/-- Which state may follow which. -/
def mayBecome : RunState → RunState → Bool
  | idle, running => true
  | running, paused | running, completed | running, failed | running, stopping => true
  | paused, running | paused, stopping | paused, failed => true
  | stopping, stopped | stopping, failed => true
  | stopped, idle | completed, idle | failed, idle => true
  | _, _ => false

/-- Why a step from one state to another is refused. -/
inductive RefusalReason where
  | noRun
  | runInProgress
  | stopRequested
  | pausedRun
  | runEnded
  | noSuchStep
  deriving Repr, DecidableEq

/-- The reason in words. -/
def RefusalReason.text : RefusalReason → String
  | noRun => "no run in progress - must start Running first"
  | runInProgress => "run in progress - stop it before resetting"
  | stopRequested => "stop already requested"
  | pausedRun => "cannot complete while paused - continue first"
  | runEnded => "run has ended - only a reset to Idle is allowed"
  | noSuchStep => "invalid state transition"

/-- Why the step between two states is refused, if it is one that the table does not allow. -/
def refusalReason (source target : RunState) : RefusalReason :=
  match source, target with
  | idle, _ => .noRun
  | running, idle | paused, idle | stopping, idle => .runInProgress
  | stopping, running | stopping, paused => .stopRequested
  | paused, completed => .pausedRun
  | stopped, _ | completed, _ | failed, _ => .runEnded
  | _, _ => .noSuchStep

end RunState

/-- A step between two states that the table does not allow. -/
structure InvalidTransition where
  source : RunState
  target : RunState
  deriving Repr, DecidableEq

namespace InvalidTransition

/-- Why the step is refused, in words. -/
def reason (t : InvalidTransition) : String :=
  (RunState.refusalReason t.source t.target).text

/-- The refusal in words. -/
def message (t : InvalidTransition) : String :=
  "Invalid run state transition from " ++ t.source.title ++ " to " ++ t.target.title ++ ": " ++
    t.reason

end InvalidTransition

/-- The state after a step, or the refusal of the step. -/
def RunState.become? (source target : RunState) : Except InvalidTransition RunState :=
  if source.mayBecome target then .ok target else .error ⟨source, target⟩

/-- A step is taken exactly when the table allows it, and then leads to the state asked for. -/
theorem RunState.become?_eq_ok_iff {source target s : RunState} :
    source.become? target = .ok s ↔ source.mayBecome target = true ∧ s = target := by
  by_cases h : source.mayBecome target = true
  · simpa [RunState.become?, h] using eq_comm
  · simp [RunState.become?, h]

/-- No state may follow itself. -/
theorem RunState.mayBecome_irrefl (s : RunState) : s.mayBecome s = false := by
  cases s <;> rfl

/-! ## Modes and outcomes -/

/-- Whether a run goes on by itself or waits after each line. -/
inductive RunMode where
  | continuous
  | singleBlock
  deriving Repr, DecidableEq, Inhabited

namespace RunMode

/-- The name of the mode. -/
def name : RunMode → String
  | continuous => "continuous"
  | singleBlock => "single_block"

/-- The name of the mode as it stands in a sentence. -/
def label : RunMode → String
  | continuous => "continuous"
  | singleBlock => "single-block"

/-- Every mode. -/
def all : List RunMode :=
  [continuous, singleBlock]

end RunMode

/-- How a run ended. -/
inductive RunOutcome where
  | completed
  | stopped
  | failed (reason : String)
  deriving Repr, DecidableEq

namespace RunOutcome

/-- The state in which a run with this outcome ends. -/
def state : RunOutcome → RunState
  | completed => .completed
  | stopped => .stopped
  | failed _ => .failed

/-- Whether the run came to the end of its script. -/
def isCompleted (o : RunOutcome) : Bool :=
  o = completed

/-- Every outcome ends in a terminal state. -/
theorem state_isTerminal (o : RunOutcome) : o.state.isTerminal = true := by
  cases o <;> rfl

end RunOutcome

end DeviceScript
