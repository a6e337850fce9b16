import DeviceScript.Json.Basic
/-!
# Records in JSON

A record is written as an object with a field for each of its parts.  It may also be given as an
array of its parts in order.  `slots?` brings both forms to one list of slots, one for each part,
and the three readings of a slot say what may be left out: `required?` nothing, `optional?` a field
of an object, and `defaulted?` an element at the end of an array as well.

A word out of a fixed list may also be given as an object with that word as its only field, whose
value is null.
-/

namespace DeviceScript.Wire

/-- What is given for one part of a record. -/
inductive Slot where
  | given (value : Json)
  /-- The object has no such field. -/
  | missing
  /-- The array is too short. -/
  | beyond

/-- The slots of the elements of an array, as many as there are parts. -/
def listedSlots : List String → List Json → List Slot
  | [], _ => []
  | _ :: ns, [] => .beyond :: listedSlots ns []
  | _ :: ns, v :: r => .given v :: listedSlots ns r

/-- One slot for each part of a record with these parts.  Fields of other names are not looked at,
but an array must not have more elements than the record has parts. -/
def slots? (parts : List String) : Json → Option (List Slot)
  | .fields entries =>
    some (parts.map fun n => match Table.find? entries n with
      | some v => .given v
      | none => .missing)
  | .array items => if items.length ≤ parts.length then some (listedSlots parts items) else none
  | _ => none

namespace Slot

variable {α : Type}

/-- The part that must be given. -/
def required? (decode : Json → Option α) : Slot → Option α
  | .given v => decode v
  | _ => none

/-- The part that may be null or a missing field. -/
def optional? (decode : Json → Option α) : Slot → Option (Option α)
  | .given .null => some none
  | .given v => (decode v).map some
  | .missing => some none
  | .beyond => none

/-- The part that has a value of its own when it is not given. -/
def defaulted? (default : α) (decode : Json → Option α) : Slot → Option α
  | .given v => decode v
  | _ => some default

end Slot

/-- The one of these values that a word names. -/
def word? {α : Type} (all : List α) (name : α → String) (j : Json) : Option α :=
  match j with
  | .text s => all.find? (name · = s)
  | .fields [(s, .null)] => all.find? (name · = s)
  | _ => none

end DeviceScript.Wire
