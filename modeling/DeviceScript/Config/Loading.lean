import DeviceScript.Config.Decode
import DeviceScript.Files.Tree
import DeviceScript.Yaml.Read
/-!
# Loading settings

A settings file may include other files and take values from environment variables.  A value with
the tag `include` stands for the content of the file it names, taken from the directory of the file
that the tag is in, and a value with the tag `env_var` for the text of a variable, read as YAML
where it is YAML.  Both are replaced wherever they stand as values; keys are left alone, and so is
the text of a variable.

A file that is being loaded must not be included again.  Files are told apart by the paths that lead
to them (`Path.same`), so a file may be reached once more by another way; `Loader.depth` bounds how
deep includes may be nested.

Every relative path is taken from the directory of the file it stands in, and if it is still
relative then, it is taken from the base directory of the whole load once more.
-/

namespace DeviceScript

open Yaml (Value)

/-- Why settings cannot be loaded. -/
inductive ConfigError where
  | unreadable (path : Path) (error : FileError)
  /-- The file is not YAML. -/
  | malformed (path : Path)
  /-- An include does not name a file. -/
  | badInclude (file : Path) (found : Value)
  /-- The paths of the files being loaded, the last of them for the second time. -/
  | includeCycle (chain : List Path)
  /-- Includes are nested deeper than they may be. -/
  | includedTooDeep (path : Path)
  | missingVariable (name : String)
  | badVariableName
  | unsupportedTag (tag : String)
  | notMapping
  | undecodable (error : DecodeError)
  | fault (fault : SettingsFault)
  deriving Repr

namespace ConfigError

/-- A message about a setting. -/
def invalid (key reason : String) : String :=
  "invalid `" ++ key ++ "`: " ++ reason

/-- The name under which messages speak of the settings as a whole. -/
def wholeKey : String := "breq.yaml"

/-- What is wrong with settings, in words. -/
def faultMessage : SettingsFault → String
  | .emptyLog => invalid "log_buffer_size" "must be at least 1"
  | .badName name => "device '" ++ name ++ "': name must be one word without '.'"
  | .repeatedName name => "device '" ++ name ++ "': listed more than once"

/-- The error in words. -/
def message : ConfigError → String
  | unreadable path e => "cannot read " ++ path ++ ": " ++ e.message
  | malformed path => path ++ " is not valid YAML"
  | badInclude file found =>
    "bad !include in " ++ file ++ ": expected a file name, found " ++ found.describe
  | includeCycle chain => "include cycle: " ++ " -> ".intercalate chain
  | includedTooDeep path => "cannot read " ++ path ++ ": includes are nested too deep"
  | missingVariable name => "environment variable " ++ name ++ " is not set"
  | badVariableName => invalid "!env_var" "expected a variable name"
  | unsupportedTag tag => "unsupported YAML tag " ++ Yaml.tagText tag
  | notMapping => invalid wholeKey "expected a mapping of settings"
  | undecodable e => invalid wholeKey e.message
  | fault f => faultMessage f

end ConfigError

/-! ## 1. Includes and variables -/

/-- Where values come from: the surroundings, and the directory that relative paths are taken
from. -/
structure Loader where
  surroundings : Surroundings
  base : Path

namespace Loader

/-- How deep includes may be nested. -/
def depth : Nat := 16384

/-- What a variable stands for: its text read as YAML, or the text itself where it is not YAML. -/
def variableValue (raw : String) : Value :=
  (Yaml.read? raw).getD (.text raw)

/-- What a value with a tag stands for, `load` giving the content of an included file. -/
def replacement (l : Loader) (load : Path → Except ConfigError Value) (origin : Path) (tag : String)
    (v : Value) : Except ConfigError Value :=
  if tag = "include" then
    match v with
    | .text target => load (((Path.parent? origin).getD l.base).join target)
    | v => .error (.badInclude origin v)
  else if tag = "env_var" then
    match v with
    | .text name =>
      match l.surroundings.environment name with
      | some raw => .ok (variableValue raw)
      | none => .error (.missingVariable name)
    | _ => .error .badVariableName
  else .error (.unsupportedTag tag)

mutual

/-- A value from the file `origin` with all its tagged parts replaced. -/
def resolve (l : Loader) (load : Path → Except ConfigError Value) (origin : Path) :
    Value → Except ConfigError Value
  | .tagged tag v => l.replacement load origin tag v
  | .sequence items => (l.resolveItems load origin items).map .sequence
  | .mapping entries => (l.resolveEntries load origin entries).map .mapping
  | v => .ok v

/-- The items of a sequence with all their tagged parts replaced. -/
def resolveItems (l : Loader) (load : Path → Except ConfigError Value) (origin : Path) :
    List Value → Except ConfigError (List Value)
  | [] => .ok []
  | v :: r => do
    let v ← l.resolve load origin v
    let r ← l.resolveItems load origin r
    pure (v :: r)

/-- The entries of a mapping with all tagged parts of their values replaced. -/
def resolveEntries (l : Loader) (load : Path → Except ConfigError Value) (origin : Path) :
    List (Value × Value) → Except ConfigError (List (Value × Value))
  | [] => .ok []
  | (k, v) :: r => do
    let v ← l.resolve load origin v
    let r ← l.resolveEntries load origin r
    pure ((k, v) :: r)

end

/-- The value of a text as though it were the content of the file `origin`. -/
def loadText (l : Loader) (load : Path → Except ConfigError Value) (text : String) (origin : Path) :
    Except ConfigError Value :=
  match Yaml.read? text with
  | some v => l.resolve load origin v
  | none => .error (.malformed origin)

/-- The value of a file, while the files of `chain` are being loaded. -/
def loadWithin (l : Loader) : (depth : Nat) → (chain : List Path) → Path → Except ConfigError Value
  | 0, _, path => .error (.includedTooDeep path)
  | depth + 1, chain, path =>
    let path := l.base.join path
    if chain.any path.same then .error (.includeCycle (chain ++ [path]))
    else match l.surroundings.read path with
      | .error e => .error (.unreadable path e)
      | .ok text => l.loadText (l.loadWithin depth (chain ++ [path])) text path

/-- The value of a file. -/
def load (l : Loader) (path : Path) : Except ConfigError Value :=
  l.loadWithin depth [] path

/-- The value of a text as though it were the file of this name in the base directory. -/
def loadNamed (l : Loader) (text name : String) : Except ConfigError Value :=
  l.loadText (l.loadWithin depth []) text (l.base.join name)

end Loader

/-! ## 2. Settings -/

namespace Settings

/-- The settings that a value describes, if they are sound.  Null stands for the standard
settings. -/
def ofValue? (v : Value) : Except ConfigError Settings := do
  let s ← match v with
    | .null => pure {}
    | .mapping _ => (decode v).mapError .undecodable
    | _ => .error .notMapping
  match s.fault? with
  | some f => .error (.fault f)
  | none => pure s

/-- The settings in a file. -/
def load (w : Surroundings) (path : Path) : Except ConfigError Settings := do
  let v ← Loader.load ⟨w, (Path.parent? path).getD "."⟩ path
  ofValue? v

/-- The settings in a file, or the standard settings if there is no such file. -/
def loadOrDefault (w : Surroundings) (path : Path) : Except ConfigError Settings :=
  if w.isPresent path then load w path else .ok {}

end Settings

end DeviceScript
