import DeviceScript.Run.Course
import DeviceScript.Run.Projector
/-!
# Traces of a run

A course is a tree, and one run is one way through it.  `Course.Trace c ms c'` says that the moves
`ms`, taken in this order, lead from the course `c` to what is left of it, `c'`.  Every answer is
open: a trace fixes neither which devices are connected, nor what a gateway does with a call, nor
when a stop or a continue is asked for.  What holds of every trace therefore holds of every run,
whatever its surroundings are.

A run has ended when what is left is a result, so `Trace c ms (.ended r)` is a whole run.
-/

namespace DeviceScript

/-! ## 1. Moves -/

/-- One thing that a run does, with the answer that it gets. -/
inductive Move where
  | told (notice : Notice)
  | foundAny (connected : Bool)
  | foundDevice (name : String) (connected : Bool)
  | foundStop (requested : Bool)
  | rested (nanos : Nat) (wake : Wake)
  | called (request : Request) (limit : Option Nat) (result : Option CallResult)
  | armed
  | parked (wake : Wake)
  | disarmed
  deriving Repr, DecidableEq

namespace Move

/-- What the move tells, if it tells anything. -/
def notice? : Move → Option Notice
  | told n => some n
  | _ => none

/-- Whether the run is suspended while it waits for the answer.  Only then can anything happen
around it. -/
def isSuspension : Move → Bool
  | rested .. | called .. | parked .. => true
  | _ => false

end Move

namespace Notice

/-- The state that the notice makes known. -/
def state? : Notice → Option RunState
  | state s => some s
  | _ => none

/-- The cursor that the notice makes known. -/
def cursor? : Notice → Option (Option Nat)
  | cursor line => some line
  | _ => none

/-- The log entry that the notice makes known. -/
def entry? : Notice → Option Log.Entry
  | log e => some e
  | _ => none

end Notice

/-- The notices that the moves tell. -/
def noticesOf (ms : List Move) : List Notice := ms.filterMap Move.notice?

/-- The states that the moves make known. -/
def statesOf (ms : List Move) : List RunState := (noticesOf ms).filterMap Notice.state?

/-- The cursors that the moves make known. -/
def cursorsOf (ms : List Move) : List (Option Nat) := (noticesOf ms).filterMap Notice.cursor?

/-- The log entries that the moves make known. -/
def entriesOf (ms : List Move) : List Log.Entry := (noticesOf ms).filterMap Notice.entry?

/-- How often the run is suspended in the course of the moves. -/
def suspensionsOf (ms : List Move) : Nat := ms.countP Move.isSuspension

@[simp] theorem noticesOf_told (n : Notice) (ms : List Move) :
    noticesOf (.told n :: ms) = n :: noticesOf ms :=
  rfl

/-- Moves that only tell, tell what they say. -/
theorem noticesOf_map_told (ns : List Notice) : noticesOf (ns.map .told) = ns := by
  induction ns with
  | nil => rfl
  | cons n ns ih => rw [List.map_cons, noticesOf_told, ih]

section Append

variable (ms₁ ms₂ : List Move)

@[simp] theorem noticesOf_append : noticesOf (ms₁ ++ ms₂) = noticesOf ms₁ ++ noticesOf ms₂ :=
  List.filterMap_append

@[simp] theorem statesOf_append : statesOf (ms₁ ++ ms₂) = statesOf ms₁ ++ statesOf ms₂ := by
  simp [statesOf]

@[simp] theorem cursorsOf_append : cursorsOf (ms₁ ++ ms₂) = cursorsOf ms₁ ++ cursorsOf ms₂ := by
  simp [cursorsOf]

@[simp] theorem entriesOf_append : entriesOf (ms₁ ++ ms₂) = entriesOf ms₁ ++ entriesOf ms₂ := by
  simp [entriesOf]

@[simp] theorem suspensionsOf_append :
    suspensionsOf (ms₁ ++ ms₂) = suspensionsOf ms₁ + suspensionsOf ms₂ :=
  List.countP_append

end Append

section Logs

variable (es : List Log.Entry)

/-- Log entries make no state known. -/
theorem filterMap_state?_logs : (es.map Notice.log).filterMap Notice.state? = [] := by
  rw [List.filterMap_map]
  exact List.filterMap_eq_nil_iff.mpr fun _ _ => rfl

/-- Log entries make no cursor known. -/
theorem filterMap_cursor?_logs : (es.map Notice.log).filterMap Notice.cursor? = [] := by
  rw [List.filterMap_map]
  exact List.filterMap_eq_nil_iff.mpr fun _ _ => rfl

/-- Log entries make themselves known. -/
theorem filterMap_entry?_logs : (es.map Notice.log).filterMap Notice.entry? = es := by
  rw [List.filterMap_map]
  exact List.filterMap_some

end Logs

/-! ## 2. Traces -/

namespace Course

/-- One move along a course. -/
inductive Moves : Course → Move → Course → Prop
  | tell {n : Notice} {next : Course} : Moves (.tell n next) (.told n) next
  | askAny {next : Bool → Course} (a : Bool) : Moves (.askAny next) (.foundAny a) (next a)
  | askDevice {name : String} {next : Bool → Course} (a : Bool) :
      Moves (.askDevice name next) (.foundDevice name a) (next a)
  | askStop {next : Bool → Course} (a : Bool) : Moves (.askStop next) (.foundStop a) (next a)
  | rest {nanos : Nat} {next : Wake → Course} (w : Wake) :
      Moves (.rest nanos next) (.rested nanos w) (next w)
  | call {request : Request} {limit : Option Nat} {next : Option CallResult → Course}
      (r : Option CallResult) : Moves (.call request limit next) (.called request limit r) (next r)
  | arm {next : Course} : Moves (.arm next) .armed next
  | park {next : Wake → Course} (w : Wake) : Moves (.park next) (.parked w) (next w)
  | disarm {next : Course} : Moves (.disarm next) .disarmed next

/-- Moves along a course, one after the other. -/
inductive Trace : Course → List Move → Course → Prop
  | nil (c : Course) : Trace c [] c
  | cons {c₁ c₂ c₃ : Course} {m : Move} {ms : List Move} :
      Moves c₁ m c₂ → Trace c₂ ms c₃ → Trace c₁ (m :: ms) c₃

variable {c c₁ c₂ c₃ : Course} {m : Move} {ms ms₁ ms₂ : List Move}

theorem Trace.append (h₁ : Trace c₁ ms₁ c₂) (h₂ : Trace c₂ ms₂ c₃) :
    Trace c₁ (ms₁ ++ ms₂) c₃ := by
  induction h₁ with
  | nil => exact h₂
  | cons hm _ ih => exact .cons hm (ih h₂)

/-- **A property that every move keeps holds of whatever is left of a course.** -/
theorem Trace.keeps {P : Course → Prop} (hP : ∀ {c m c'}, Moves c m c' → P c → P c')
    (h : Trace c₁ ms c₂) (h₁ : P c₁) : P c₂ := by
  induction h with
  | nil => exact h₁
  | cons hm _ ih => exact ih (hP hm h₁)

/-- Every course can be gone along to its end. -/
theorem exists_trace (c : Course) : ∃ ms r, Trace c ms (.ended r) := by
  have step : ∀ {c c' : Course} {m : Move}, Moves c m c' →
      (∃ ms r, Trace c' ms (.ended r)) → ∃ ms r, Trace c ms (.ended r) :=
    fun hm ⟨ms, r, h⟩ => ⟨_ :: ms, r, .cons hm h⟩
  induction c with
  | ended r => exact ⟨[], r, .nil _⟩
  | tell _ _ ih => exact step .tell ih
  | askAny _ ih => exact step (.askAny true) (ih true)
  | askDevice _ _ ih => exact step (.askDevice true) (ih true)
  | askStop _ ih => exact step (.askStop true) (ih true)
  | rest _ _ ih => exact step (.rest .due) (ih .due)
  | call _ _ _ ih => exact step (.call none) (ih none)
  | arm _ ih => exact step .arm ih
  | park _ ih => exact step (.park .due) (ih .due)
  | disarm _ ih => exact step .disarm ih

/-! ## 3. Traces that are computed -/

/-- What is left of a course after a move, if the move is one along the course. -/
def after? : Course → Move → Option Course
  | .tell n next, .told n' => if n = n' then some next else none
  | .askAny next, .foundAny a => some (next a)
  | .askDevice name next, .foundDevice name' a => if name = name' then some (next a) else none
  | .askStop next, .foundStop a => some (next a)
  | .rest nanos next, .rested nanos' w => if nanos = nanos' then some (next w) else none
  | .call request limit next, .called request' limit' r =>
    if request = request' ∧ limit = limit' then some (next r) else none
  | .arm next, .armed => some next
  | .park next, .parked w => some (next w)
  | .disarm next, .disarmed => some next
  | _, _ => none

/-- The result of a run that has ended after these moves. -/
def resultAfter? : List Move → Course → Option (Except Refusal RunOutcome)
  | [], .ended r => some r
  | [], _ => none
  | m :: ms, c => (c.after? m).bind (resultAfter? ms)

theorem moves_of_after? {c' : Course} (h : c.after? m = some c') : Moves c m c' := by
  cases c <;> cases m <;> simp only [after?, Option.ite_none_right_eq_some, Option.some.injEq,
    reduceCtorEq] at h
  case tell.told => obtain ⟨rfl, rfl⟩ := h; exact .tell
  case askAny.foundAny a => subst h; exact .askAny a
  case askDevice.foundDevice a => obtain ⟨rfl, rfl⟩ := h; exact .askDevice a
  case askStop.foundStop a => subst h; exact .askStop a
  case rest.rested w => obtain ⟨rfl, rfl⟩ := h; exact .rest w
  case call.called r => obtain ⟨⟨rfl, rfl⟩, rfl⟩ := h; exact .call r
  case arm.armed => subst h; exact .arm
  case park.parked w => subst h; exact .park w
  case disarm.disarmed => subst h; exact .disarm

theorem trace_of_resultAfter? : ∀ {ms : List Move} {c : Course} {r : Except Refusal RunOutcome},
    resultAfter? ms c = some r → Trace c ms (.ended r)
  | [], c, r, h => by
    cases c with
    | ended r' =>
      cases h
      exact .nil _
    | _ => cases h
  | m :: ms, c, r, h => by
    obtain ⟨c', hm, ht⟩ := Option.bind_eq_some_iff.mp h
    exact .cons (moves_of_after? hm) (trace_of_resultAfter? ht)

/-! ## 4. Whole runs, opened at their first move -/

variable {r : Except Refusal RunOutcome}

theorem trace_ended {r' : Except Refusal RunOutcome} (h : Trace (.ended r') ms (.ended r)) :
    ms = [] ∧ r = r' := by
  cases h with
  | nil => exact ⟨rfl, rfl⟩
  | cons hm _ => cases hm

theorem trace_tell {n : Notice} {next : Course} (h : Trace (.tell n next) ms (.ended r)) :
    ∃ ms', ms = .told n :: ms' ∧ Trace next ms' (.ended r) := by
  cases h with
  | cons hm ht =>
    cases hm
    exact ⟨_, rfl, ht⟩

theorem trace_askStop {next : Bool → Course} (h : Trace (.askStop next) ms (.ended r)) :
    ∃ a ms', ms = .foundStop a :: ms' ∧ Trace (next a) ms' (.ended r) := by
  cases h with
  | cons hm ht =>
    cases hm with
    | askStop a => exact ⟨a, _, rfl, ht⟩

end Course

end DeviceScript
