import DeviceScript.Config.Settings
import DeviceScript.Yaml.Value
/-!
# Settings in YAML

Settings are read from a mapping whose keys are names of settings.  The entries are looked at in the
order in which they stand, and the first thing that is wrong with any of them is reported
(`DecodeError`); what is missing altogether comes last.

A tag on a value is passed over, except on the mode, where a tag may stand for the name itself.
Null stands for an empty list and for a mapping without entries.
-/

namespace DeviceScript

open Yaml (Value)

/-- Why a value cannot be read as what is wanted. -/
inductive DecodeError where
  /-- The value is of another sort. -/
  | wrongSort (found : Value) (expected : String)
  /-- The number lies outside the range. -/
  | outOfRange (number : Int) (expected : String)
  | unknownField (name : String) (known : List String)
  | repeatedField (name : String)
  | missingField (name : String)
  | unknownVariant (name : String) (known : List String)
  deriving Repr

namespace DecodeError

/-- The sort of a value, with the value itself if it is a scalar. -/
def sortText : Value → String
  | .null => "unit value"
  | .bool b => "boolean `" ++ toString b ++ "`"
  | .int n => "integer `" ++ toString n ++ "`"
  | .float x => "floating point `" ++ x.pointed ++ "`"
  | .text s => "string " ++ Text.quoted s
  | .sequence _ => "sequence"
  | .mapping _ => "map"
  | .tagged .. => "enum"

/-- Names to choose from. -/
def choiceText (names : List String) : String :=
  let marked := names.map fun n => "`" ++ n ++ "`"
  match marked with
  | [a, b] => a ++ " or " ++ b
  | _ => "one of " ++ ", ".intercalate marked

/-- The error in words. -/
def message : DecodeError → String
  | wrongSort found expected => "invalid type: " ++ sortText found ++ ", expected " ++ expected
  | outOfRange n expected =>
    "invalid value: " ++ sortText (.int n) ++ ", expected " ++ expected
  | unknownField name known =>
    "unknown field `" ++ name ++ "`, expected " ++ choiceText known
  | repeatedField name => "duplicate field `" ++ name ++ "`"
  | missingField name => "missing field `" ++ name ++ "`"
  | unknownVariant name known =>
    "unknown variant `" ++ name ++ "`, expected " ++ choiceText known

end DecodeError

/-! ## 1. Scalars and lists -/

/-- A reading of a value. -/
abbrev Decoder (α : Type) := Value → Except DecodeError α

namespace Decoder

/-- The value under its tags. -/
def untagged : Value → Value
  | .tagged _ v => untagged v
  | v => v

/-- A whole number of at most 64 bits that is not negative; `expected` is what messages call it. -/
def natural (expected : String) : Decoder Nat := fun v =>
  match untagged v with
  | .int (.ofNat n) => .ok n
  | .int n => .error (.outOfRange n expected)
  | v => .error (.wrongSort v expected)

def text : Decoder String := fun v =>
  match untagged v with
  | .text s => .ok s
  | v => .error (.wrongSort v "a string")

def bool : Decoder Bool := fun v =>
  match untagged v with
  | .bool b => .ok b
  | v => .error (.wrongSort v "a boolean")

/-- A list of values that are read alike. -/
def list {α : Type} (item : Decoder α) : Decoder (List α) := fun v =>
  match untagged v with
  | .sequence vs => vs.mapM item
  | .null => .ok []
  | v => .error (.wrongSort v "a sequence")

/-- The names of the modes. -/
def modeNames : List String :=
  RunMode.all.map (·.name)

/-- The mode with this name. -/
def modeNamed (name : String) : Except DecodeError RunMode :=
  match RunMode.all.find? (·.name = name) with
  | some m => .ok m
  | none => .error (.unknownVariant name modeNames)

/-- A mode: its name, or its name as a tag on nothing. -/
def mode : Decoder RunMode
  | .text name => modeNamed name
  | .tagged tag v => do
    let m ← modeNamed tag
    match v with
    | .null => .ok m
    | v => .error (.wrongSort v "unit")
  | v => .error (.wrongSort v "a Value::Tagged enum")

/-! ## 2. Records -/

/-- The name that a key is. -/
def fieldName (known : List String) (key : Value) : Except DecodeError String :=
  match untagged key with
  | .text s => if known.contains s then .ok s else .error (.unknownField s known)
  | v => .error (.wrongSort v "field identifier")

/-- The value of a field that is read for the first time. -/
def fresh {α : Type} (name : String) (before : Option α) (read : Decoder α) (v : Value) :
    Except DecodeError (Option α) :=
  if before.isSome then .error (.repeatedField name) else (read v).map some

/-- The entries of a record, taken in one after the other. -/
def record {α : Type} (expected : String) (known : List String)
    (field : α → String → Value → Except DecodeError α) (draft : α) : Decoder α := fun v =>
  match untagged v with
  | .mapping es => es.foldlM (fun draft e => do field draft (← fieldName known e.1) e.2) draft
  | .null => .ok draft
  | v => .error (.wrongSort v expected)

end Decoder

/-! ## 3. Settings -/

namespace DeviceSettings

/-- The fields of a device that have been read. -/
structure Draft where
  name : Option String := none
  latency : Option Nat := none
  reject : Option (List String) := none
  connected : Option Bool := none

/-- The names of the fields. -/
def fieldNames : List String :=
  ["name", "latency_ms", "reject", "connected"]

/-- Take in one field. -/
def Draft.field (d : Draft) (name : String) (v : Value) : Except DecodeError Draft := do
  if name = "name" then pure { d with name := ← Decoder.fresh name d.name Decoder.text v }
  else if name = "latency_ms" then
    pure { d with latency := ← Decoder.fresh name d.latency (Decoder.natural "u64") v }
  else if name = "reject" then
    pure { d with reject := ← Decoder.fresh name d.reject (Decoder.list Decoder.text) v }
  else pure { d with connected := ← Decoder.fresh name d.connected Decoder.bool v }

/-- The device that a value describes. -/
def decode : Decoder DeviceSettings := fun v => do
  let d ← Decoder.record "struct DeviceConfig" fieldNames Draft.field {} v
  match d.name with
  | none => .error (.missingField "name")
  | some name => .ok {
      name
      latency := d.latency.getD 0
      reject := d.reject.getD []
      connected := d.connected.getD true }

end DeviceSettings

namespace Settings

/-- The settings that have been read. -/
structure Draft where
  settle : Option Nat := none
  limit : Option Nat := none
  logCapacity : Option Nat := none
  mode : Option RunMode := none
  devices : Option (List DeviceSettings) := none

/-- The names of the settings. -/
def fieldNames : List String :=
  ["settle_delay_ms", "command_timeout_ms", "log_buffer_size", "mode", "devices"]

/-- Take in one setting. -/
def Draft.field (d : Draft) (name : String) (v : Value) : Except DecodeError Draft := do
  if name = "settle_delay_ms" then
    pure { d with settle := ← Decoder.fresh name d.settle (Decoder.natural "u64") v }
  else if name = "command_timeout_ms" then
    pure { d with limit := ← Decoder.fresh name d.limit (Decoder.natural "u64") v }
  else if name = "log_buffer_size" then
    pure { d with logCapacity := ← Decoder.fresh name d.logCapacity (Decoder.natural "usize") v }
  else if name = "mode" then
    pure { d with mode := ← Decoder.fresh name d.mode Decoder.mode v }
  else
    pure { d with devices := ← Decoder.fresh name d.devices (Decoder.list DeviceSettings.decode) v }

/-- The settings that a value describes. -/
def decode : Decoder Settings := fun v => do
  let d ← Decoder.record "struct EngineConfig" fieldNames Draft.field {} v
  let s : Settings := {}
  pure {
    settle := d.settle.getD s.settle
    limit := d.limit.getD s.limit
    logCapacity := d.logCapacity.getD s.logCapacity
    mode := d.mode.getD s.mode
    devices := d.devices.getD s.devices }

end Settings

end DeviceScript
