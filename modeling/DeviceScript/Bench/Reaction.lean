import DeviceScript.Bench.Basic
/-!
# Reactions

A reaction is what a listener does when it hears a certain notice, at most so many times.  All
reactions to one notice are found before the first of them is carried out, so one that fails to come
to its turn is used up all the same.
-/

namespace DeviceScript

/-- The notices that a reaction waits for: those of one sort, or only those with a certain value. -/
inductive Trigger where
  | started (script : Option (Option String))
  | cursor (line : Option (Option Nat))
  | state (state : Option RunState)
  | log (kind : Option Log.Kind)
  deriving Repr, DecidableEq

/-- Whether a reaction with this trigger waits for a notice. -/
def Trigger.accepts : Trigger → Notice → Bool
  | started want, .started s => want.all (· = s)
  | cursor want, .cursor l => want.all (· = l)
  | state want, .state s => want.all (· = s)
  | log want, .log e => want.all (· = e.kind)
  | _, _ => false

/-- What a listener does when it hears a certain notice, and how often. -/
structure Reaction where
  trigger : Trigger
  act : Act
  times : Nat
  deriving Repr, DecidableEq

namespace Reaction

/-- Whether the reaction comes to a notice that is heard after others. -/
def isDue (r : Reaction) (earlier : List Notice) (n : Notice) : Bool :=
  r.trigger.accepts n && (earlier.filter r.trigger.accepts).length < r.times

/-- What a listener with these reactions does when it hears a notice after others. -/
def acts (rs : List Reaction) (earlier : List Notice) (n : Notice) : List Act :=
  (rs.filter (·.isDue earlier n)).map (·.act)

/-- The listener with these reactions. -/
def listener (rs : List Reaction) : Member :=
  .listener (acts rs) []

/-- How deep the acts of this listener can nest: no deeper than it acts at all. -/
def nesting (rs : List Reaction) : Nat :=
  rs.foldl (fun n r => n + r.times) 1

end Reaction

end DeviceScript
