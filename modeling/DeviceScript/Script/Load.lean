import DeviceScript.Files.Tree
import DeviceScript.Script
/-!
# Scripts in files

A script that is read from a file goes by the name of the file, without its extension.
-/

namespace DeviceScript

/-- A script file that cannot be read. -/
structure ScriptError where
  path : Path
  error : FileError
  deriving Repr, DecidableEq

/-- The error in words. -/
def ScriptError.message (e : ScriptError) : String :=
  "failed to read script " ++ e.path ++ ": " ++ e.error.message

/-- The script in a file. -/
def Script.load (w : Surroundings) (path : Path) : Except ScriptError Script :=
  match w.read path with
  | .error e => .error ⟨path, e⟩
  | .ok text => .ok { Script.ofText text with name := path.stem? }

end DeviceScript
