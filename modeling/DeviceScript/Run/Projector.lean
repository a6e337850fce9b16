import DeviceScript.Run.State
/-!
# The latest state of a run

The projector is told states and cursors, and whenever one alters what it shows it makes a new
snapshot known.  It shows the one that it made known last.  A receiver remembers how many there had
been when it last looked; it has missed a change exactly when there have been more since.
-/

namespace DeviceScript

/-- The state of a run, and the line it is at, counted from zero. -/
structure Snapshot where
  state : RunState := .idle
  cursor : Option Nat := none
  deriving Repr, DecidableEq, Inhabited

namespace Snapshot

/-- Whether the run goes on. -/
def isRunning (s : Snapshot) : Bool :=
  s.state = .running

/-- Whether the run is paused. -/
def isPaused (s : Snapshot) : Bool :=
  s.state = .paused

end Snapshot

/-- The snapshots that were made known, one after the other. -/
structure Projector where
  published : List Snapshot := []
  deriving Repr, DecidableEq, Inhabited

namespace Projector

/-- The latest snapshot; as long as there is none, the runner is idle and at no line. -/
def snapshot (p : Projector) : Snapshot :=
  p.published.getLast?.getD {}

/-- How often the snapshot has changed. -/
def changes (p : Projector) : Nat :=
  p.published.length

/-- The projector with this snapshot, which is made known if it is another one. -/
def publish (p : Projector) (s : Snapshot) : Projector :=
  if s = p.snapshot then p else ⟨p.published ++ [s]⟩

/-- The projector after it was told the cursor. -/
def setCursor (p : Projector) (line : Option Nat) : Projector :=
  p.publish { p.snapshot with cursor := line }

/-- The projector after it was told the state. -/
def setState (p : Projector) (state : RunState) : Projector :=
  p.publish { p.snapshot with state }

/-- The state last told. -/
def state (p : Projector) : RunState := p.snapshot.state

/-- The cursor last told. -/
def cursor (p : Projector) : Option Nat := p.snapshot.cursor

/-- Whether there was a change since the count was `seen`. -/
def hasChanged (p : Projector) (seen : Nat) : Bool :=
  p.changes ≠ seen

@[simp] theorem snapshot_publish (p : Projector) (s : Snapshot) : (p.publish s).snapshot = s := by
  unfold publish
  split
  · simp [*]
  · simp [snapshot]

end Projector

end DeviceScript
