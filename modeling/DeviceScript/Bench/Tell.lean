import DeviceScript.Bench.Basic
/-!
# Telling the audience

The runner hears a notice first, and then the members are told in order.  A listener acts as soon as
it is told, before the next member hears the same notice; when an act leads to notices of its own,
as a reset does, all members are told those in the middle of the first.  A crash ends everything
that was going on: the other acts of that listener, and the telling of the members behind it.

How deep acts may nest is bounded (`Bench.nesting`): at the bottom members are still told, but do
nothing.  Listeners that act only so many times never come to the bottom.
-/

namespace DeviceScript

namespace Bench

/-- The bench after the runner heard a notice. -/
def observe (b : Bench) (n : Notice) : Bench :=
  { b with
    runner := b.runner.observe (.ofMillis b.now) n
    begun := match n with
      | .started _ => b.begun + 1
      | _ => b.begun }

/-- The bench after one member was told, and what that member does thereupon. -/
def inform (b : Bench) (member : Nat) (n : Notice) : Bench × List Act :=
  match b.members[member]? with
  | none => (b, [])
  | some m =>
    let (m, acts) := m.hear (.ofMillis b.now) (toString (b.begun - 1)) n
    (({ b with members := b.members.set member m }).note (.told member n b.runner.glimpse), acts)

/-- Tell everyone from this member on, `act` being how a member's acts are done. -/
def tellFrom (act : Nat → List Act → Bench → Bench × Option Crash) (n : Notice) :
    (left : Nat) → (member : Nat) → Bench → Bench × Option Crash
  | 0, _, b => (b, none)
  | left + 1, member, b =>
    let (b, acts) := b.inform member n
    match act member acts b with
    | (b, some c) => (b, some c)
    | (b, none) => tellFrom act n left (member + 1) b

/-- Tell several notices, one after the other. -/
def tellAll (tell : Notice → Bench → Bench × Option Crash) :
    List Notice → Bench → Bench × Option Crash
  | [], b => (b, none)
  | n :: r, b =>
    match tell n b with
    | (b, some c) => (b, some c)
    | (b, none) => tellAll tell r b

/-- The bench with this runner. -/
def withRunner (b : Bench) (r : Runner) : Bench :=
  { b with runner := r }

/-- Do what an operator can do, `tell` being how notices are told. -/
def control (tell : Notice → Bench → Bench × Option Crash) (c : Control) (b : Bench) :
    Bench × Except Crash Answer :=
  match c with
  | .start script mode =>
    match b.runner.start? b.registry.hasAny (Plan.course ⟨script, mode, b.timing⟩) with
    | .ok r => (b.withRunner r, .ok .started)
    | .error e => (b, .ok (.notStarted e))
  | .stop =>
    let (r, taken) := b.runner.stopActive
    (b.withRunner r, .ok (.flag taken))
  | .continueRun =>
    let (r, taken) := b.runner.continueActive
    (b.withRunner r, .ok (.flag taken))
  | .stopRun run => (b.withRunner (b.runner.stopRun run), .ok .done)
  | .continueThe run =>
    let (r, taken) := b.runner.continueRun run
    (b.withRunner r, .ok (.flag taken))
  | .reset =>
    match b.runner.resetNotices? with
    | .error e => (b, .ok (.notReset e))
    | .ok ns =>
      match tellAll tell ns b with
      | (b, some c) => (b, .error c)
      | (b, none) => (b, .ok .done)
  | .setConnected name connected =>
    let (registry, known) := b.registry.setConnected name connected
    ({ b with registry }, .ok (.flag known))

/-- Do what a listener does, one act after the other. -/
def perform (tell : Notice → Bench → Bench × Option Crash) (member : Nat) :
    List Act → Bench → Bench × Option Crash
  | [], b => (b, none)
  | .crash c :: _, b => (b.note (.crashed member c), some c)
  | .control c :: r, b =>
    match b.control tell c with
    | (b, .error crash) => (b, some crash)
    | (b, .ok a) => perform tell member r (b.note (.acted member c a))

/-- Tell the runner and then its audience. -/
def tellWithin : (nesting : Nat) → Notice → Bench → Bench × Option Crash
  | 0, n, b => tellFrom (fun _ _ b => (b, none)) n b.members.length 0 (b.observe n)
  | nesting + 1, n, b =>
    tellFrom (perform (tellWithin nesting)) n b.members.length 0 (b.observe n)

/-- Tell the runner and then its audience. -/
def tell (b : Bench) (n : Notice) : Bench × Option Crash :=
  tellWithin b.nesting n b

end Bench

end DeviceScript
