import DeviceScript.Files.Path
import DeviceScript.Text.Utf8
/-!
# Files

What the library needs from its surroundings is the text of a file, whether there is anything at a
path, and the value of an environment variable (`Surroundings`).

A file tree as data (`FileTree`) is one way to provide files.  A path is followed from directory to
directory, and two dots lead to the directory above the one reached.  A tree may limit the length of
a path and of a name in it, counted in bytes.
-/

namespace DeviceScript

/-- Why a file cannot be read. -/
inductive FileError where
  | notFound
  | notDirectory
  | isDirectory
  | nameTooLong
  /-- The path has a character of number zero in it. -/
  | nulInPath
  /-- The file is not a text. -/
  | notText
  /-- Any other trouble. -/
  | other (message : String)
  deriving Repr, DecidableEq

/-- The error in words. -/
def FileError.message : FileError → String
  | notFound => "No such file or directory (os error 2)"
  | notDirectory => "Not a directory (os error 20)"
  | isDirectory => "Is a directory (os error 21)"
  | nameTooLong => "File name too long (os error 36)"
  | nulInPath => "file name contained an unexpected NUL byte"
  | notText => "stream did not contain valid UTF-8"
  | other message => message

/-- What is known of the surroundings. -/
structure Surroundings where
  /-- The text of a file. -/
  read : Path → Except FileError String
  /-- Whether there is anything at a path. -/
  isPresent : Path → Bool
  /-- The value of an environment variable. -/
  environment : String → Option String

/-! ## File trees -/

/-- What there is at a place of a file tree. -/
inductive FileEntry where
  | directory
  | file (content : List UInt8)
  deriving Repr, DecidableEq

/-- A file tree: what there is at each place, a place being the names on the way from the root. -/
structure FileTree where
  entries : List (List String × FileEntry)
  /-- The greatest length of a path. -/
  pathLimit : Option Nat := some 4095
  /-- The greatest length of a name. -/
  nameLimit : Option Nat := some 255
  deriving Repr

namespace FileTree

/-- What there is at a place. -/
def at? (t : FileTree) (place : List String) : Option FileEntry :=
  if place.isEmpty then some .directory else (t.entries.find? (·.1 == place)).map (·.2)

/-- Take one step from a place. -/
def step (t : FileTree) (place : List String) (piece : List Char) :
    Except FileError (List String) :=
  match t.at? place with
  | some .directory =>
    if Path.isIdle piece then .ok place
    else if piece == ['.', '.'] then .ok place.dropLast
    else
      let name := String.ofList piece
      if t.nameLimit.any (· < name.utf8ByteSize) then .error .nameTooLong
      else if (t.at? (place ++ [name])).isSome then .ok (place ++ [name])
      else .error .notFound
  | some (.file _) => .error .notDirectory
  | none => .error .notFound

/-- The place that a path leads to from a working directory. -/
def locate (t : FileTree) (directory : List String) (p : Path) : Except FileError (List String) :=
  if p.toList.any (·.toNat = 0) then .error .nulInPath
  else if p = "" then .error .notFound
  else if t.pathLimit.any (· < p.utf8ByteSize) then .error .nameTooLong
  else
    (Path.pieces p.toList).foldlM t.step (if p.isAbsolute then [] else directory)

/-- The text of the file that a path leads to. -/
def read (t : FileTree) (directory : List String) (p : Path) : Except FileError String := do
  let place ← t.locate directory p
  match t.at? place with
  | some (.file content) =>
    match Text.Utf8.decode? content with
    | some cs => .ok (String.ofList cs)
    | none => .error .notText
  | some .directory => .error .isDirectory
  | none => .error .notFound

/-- The surroundings that consist of a file tree with a working directory and of some environment
variables. -/
def surroundings (t : FileTree) (directory : List String) (environment : String → Option String) :
    Surroundings where
  read := t.read directory
  isPresent p := (t.locate directory p).isOk
  environment := environment

/-- The places above a place, from the root downwards. -/
def above (place : List String) : List (List String) :=
  (List.range place.length).map place.take

/-- The tree with one more entry and with the directories above it. -/
def add (t : FileTree) (place : List String) (e : FileEntry) : FileTree :=
  let missing := (above place).filter fun p => (t.at? p).isNone
  { t with entries := t.entries ++ missing.map (·, .directory) ++ [(place, e)] }

/-- The tree without anything in it. -/
def empty : FileTree := { entries := [] }

end FileTree

end DeviceScript
