import DeviceScript.Decimal.Double
import DeviceScript.Table
/-!
# JSON values

The form in which notifications, replies and settings travel.  A number is either whole and within
the range of 64-bit integers, signed or unsigned, or a double precision number; the two are told
apart, since a field that wants a whole number refuses `1.0`.  The fields of an object are kept in
the order of their names, each name once: `Json.object` brings a list of fields into that order, and
of two fields of one name keeps the later.
-/

namespace DeviceScript

/-- A JSON value. -/
inductive Json where
  | null
  | bool (value : Bool)
  | int (value : Int)
  | float (value : Decimal.Double)
  | text (value : String)
  | array (items : List Json)
  | fields (entries : List (String × Json))
  deriving Repr, Inhabited

namespace Json

/-- The object with these fields; of two fields of one name the later counts. -/
def object (entries : List (String × Json)) : Json :=
  .fields (Table.ofEntries entries)

/-- The object with those of these fields that have a value. -/
def objectOfSome (entries : List (String × Option Json)) : Json :=
  object (entries.filterMap fun e => e.2.map (e.1, ·))

/-- The value of a field, if the value is an object that has it. -/
def field? (name : String) : Json → Option Json
  | .fields entries => Table.find? entries name
  | _ => none

/-- A text, or null for an absent one. -/
def ofText? : Option String → Json
  | some s => .text s
  | none => .null

/-- A number, or null for an absent one. -/
def ofNat? : Option Nat → Json
  | some n => .int n
  | none => .null

/-- The value as a text. -/
def text? : Json → Option String
  | .text s => some s
  | _ => none

/-- The value as a truth value. -/
def bool? : Json → Option Bool
  | .bool b => some b
  | _ => none

/-- The number of whole numbers of 64 bits. -/
def wordBound : Nat := 18446744073709551616

/-- The value as a whole number that is not negative and has at most 64 bits. -/
def natural? : Json → Option Nat
  | .int (.ofNat n) => if n < wordBound then some n else none
  | _ => none

/-- The value as a list whose items all have a reading. -/
def list? {α : Type} (item : Json → Option α) : Json → Option (List α)
  | .array items => items.mapM item
  | _ => none

end Json

end DeviceScript
