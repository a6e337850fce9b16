import DeviceScript.Files.Path
/-!
# Command lines

A command line names a command and gives it options and at most one script.  An option has a name,
which stands after two dashes, and may have a letter, which stands after one; several letters may
share a dash.  An option that takes a value takes it from the same argument, after an equals sign or
straight after its letter, or else from the next argument, which must not look like an option.
After an argument of two dashes alone nothing is an option any more.

Arguments are read from left to right.  The first of them that asks for help or for the version
decides (`Answer`), unless something before it is wrong already; what follows is not looked at.
-/

namespace DeviceScript.Cli

/-- How a script is to be run. -/
structure RunOptions where
  script : Path
  /-- The file with the settings. -/
  config : Path
  /-- Whether the run pauses after each line, whatever the settings say. -/
  singleBlock : Bool
  /-- Names of more devices. -/
  devices : List String
  deriving Repr, DecidableEq

/-- What can be done. -/
inductive Command where
  | run (options : RunOptions)
  | check (script : Path)
  deriving Repr, DecidableEq

/-- The file with the settings, where none is named. -/
def defaultConfig : Path := "breq.yaml"

/-- What a command line speaks of: the program as a whole, or one of its commands. -/
inductive Scope where
  | program
  | run
  | check
  /-- The command that gives help. -/
  | help
  deriving Repr, DecidableEq

/-- What a command line asks for. -/
inductive Invocation where
  /-- Do something, and record so much of it for developers. -/
  | command (verbosity : Nat) (command : Command)
  | help (scope : Scope)
  | version
  deriving Repr, DecidableEq

/-! ## 1. Options -/

/-- The options. -/
inductive Flag where
  | config
  | debug
  | device
  | help
  | singleBlock
  | version
  deriving Repr, DecidableEq

namespace Flag

/-- The options that may be given to a command, or before any command. -/
def known : Scope → List Flag
  | .program => [debug, help, version]
  | .run => [config, debug, singleBlock, device, help]
  | .check => [debug, help]
  | .help => []

/-- The name of an option. -/
def name : Flag → String
  | config => "config"
  | debug => "debug"
  | device => "device"
  | help => "help"
  | singleBlock => "single-block"
  | version => "version"

/-- The letter of an option, if it has one. -/
def letter? : Flag → Option Char
  | config => some 'c'
  | debug => some 'd'
  | device => none
  | help => some 'h'
  | singleBlock => none
  | version => some 'V'

/-- Whether an option has a value. -/
def takesValue : Flag → Bool
  | config | device => true
  | _ => false

/-- The option with this name. -/
def named? (scope : Scope) (s : String) : Option Flag :=
  (known scope).find? (·.name = s)

/-- The option with this letter. -/
def lettered? (scope : Scope) (c : Char) : Option Flag :=
  (known scope).find? (·.letter? = some c)

end Flag

/-! ## 2. Arguments -/

/-- What an argument looks like. -/
inductive Argument where
  /-- Two dashes alone. -/
  | separator
  /-- An option by its name, with the value that stands in the same argument. -/
  | long (name : String) (value : Option String)
  /-- Options by their letters. -/
  | short (letters : List Char)
  | plain (text : String)
  deriving Repr, DecidableEq

/-- What an argument looks like.  A dash alone is no option. -/
def Argument.ofText (s : String) : Argument :=
  match s.toList with
  | ['-', '-'] => .separator
  | '-' :: '-' :: r =>
    let name := r.takeWhile (· != '=')
    .long (String.ofList name)
      (if r.contains '=' then some (String.ofList (r.drop (name.length + 1))) else none)
  | ['-'] => .plain s
  | '-' :: r => .short r
  | _ => .plain s

/-- What ends the reading of a command line early. -/
inductive Stop where
  /-- An argument is wrong. -/
  | misuse
  | help
  | version
  deriving Repr, DecidableEq

/-- What has been read. -/
structure Draft where
  verbosity : Nat := 0
  script : Option Path := none
  config : Option Path := none
  singleBlock : Bool := false
  devices : List String := []
  deriving Repr, DecidableEq

namespace Draft

/-- Take in an option without a value.  The verbosity alone may be given again. -/
def raise (d : Draft) : Flag → Except Stop Draft
  | .debug => .ok { d with verbosity := d.verbosity + 1 }
  | .singleBlock => if d.singleBlock then .error .misuse else .ok { d with singleBlock := true }
  | .help => .error .help
  | .version => .error .version
  | .config | .device => .error .misuse

/-- Take in an option with its value.  Devices alone may be given again, and a path is not empty. -/
def set (d : Draft) (value : String) : Flag → Except Stop Draft
  | .config =>
    if d.config.isSome || value = "" then .error .misuse else .ok { d with config := some value }
  | .device => .ok { d with devices := d.devices ++ [value] }
  | _ => .error .misuse

/-- Take in an argument that is no option: the script. -/
def place (d : Draft) (value : String) : Except Stop Draft :=
  if d.script.isSome || value = "" then .error .misuse else .ok { d with script := some value }

/-- Take in options by their letters; the answer is the option whose value is still to come. -/
def raiseAll (scope : Scope) (d : Draft) : List Char → Except Stop (Draft × Option Flag)
  | [] => .ok (d, none)
  | c :: r =>
    match Flag.lettered? scope c with
    | none => .error .misuse
    | some f =>
      if f.takesValue then
        match r with
        | [] => .ok (d, some f)
        | '=' :: value => (d.set (String.ofList value) f).map (·, none)
        | value => (d.set (String.ofList value) f).map (·, none)
      else
        match d.raise f with
        | .error e => .error e
        | .ok d => raiseAll scope d r

/-- Take in an option by its name; the answer is the option whose value is still to come. -/
def named (scope : Scope) (d : Draft) (name : String) (value : Option String) :
    Except Stop (Draft × Option Flag) :=
  match Flag.named? scope name, value with
  | none, _ => .error .misuse
  | some f, some v => (d.set v f).map (·, none)
  | some f, none => if f.takesValue then .ok (d, some f) else (d.raise f).map (·, none)

/-- Take in the arguments of a command, `awaiting` being the option whose value comes first. -/
def read (scope : Scope) : (awaiting : Option Flag) → Draft → List String → Except Stop Draft
  | none, d, [] => .ok d
  | some _, _, [] => .error .misuse
  | some f, d, a :: r =>
    match Argument.ofText a with
    | .plain value => do read scope none (← d.set value f) r
    | _ => .error .misuse
  | none, d, a :: r =>
    match Argument.ofText a with
    | .separator => r.foldlM place d
    | .plain value => do read scope none (← d.place value) r
    | .short letters => do
      let (d, awaiting) ← d.raiseAll scope letters
      read scope awaiting d r
    | .long name value => do
      let (d, awaiting) ← d.named scope name value
      read scope awaiting d r

/-- The command that has been read. -/
def command? (d : Draft) : Scope → Option Command
  | .run => d.script.map fun s => .run ⟨s, d.config.getD defaultConfig, d.singleBlock, d.devices⟩
  | .check => d.script.map .check
  | .program | .help => none

end Draft

/-! ## 3. Command lines -/

/-- What the command is called. -/
def Scope.named? : String → Option Scope
  | "run" => some .run
  | "check" => some .check
  | "help" => some .help
  | _ => none

namespace Invocation

/-- What is asked for when the reading of a command's arguments ends like this. -/
def ofReading? (scope : Scope) : Except Stop Draft → Option Invocation
  | .ok d => (d.command? scope).map (.command d.verbosity)
  | .error .help => some (.help scope)
  | .error .version => some .version
  | .error .misuse => none

/-- What is asked for with the command that gives help: it takes the name of one command. -/
def helpOn? : List String → Option Invocation
  | [] => some (.help .program)
  | [name] => (Scope.named? name).map .help
  | _ => none

/-- What a command line asks for once the arguments before it have been read; nothing if it is
wrong. -/
def after? (d : Draft) : List String → Option Invocation
  | [] => none
  | a :: r =>
    match Argument.ofText a with
    | .plain name =>
      match Scope.named? name with
      | some .help => helpOn? r
      | some scope => ofReading? scope (d.read scope none r)
      | none => none
    | .separator => none
    | .short letters =>
      match d.raiseAll .program letters with
      | .ok (d, _) => after? d r
      | .error e => ofReading? .program (.error e)
    | .long name value =>
      match d.named .program name value with
      | .ok (d, _) => after? d r
      | .error e => ofReading? .program (.error e)

/-- What a command line asks for; nothing if it is wrong. -/
def ofArguments? (args : List String) : Option Invocation :=
  after? {} args

end Invocation

end DeviceScript.Cli
