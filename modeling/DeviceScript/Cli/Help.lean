import DeviceScript.Cli.Arguments
import DeviceScript.Text.Padding
/-!
# Help

The help on the program, or on one of its commands, says what it does, how it is called, and what
its arguments and options mean.  Meanings stand in a column of their own; one that does not fit into
the width of the page goes on below its beginning.
-/

namespace DeviceScript.Cli

namespace Help

/-- The width of the page. -/
def pageWidth : Nat := 100

/-- Words joined to lines that are as long as the width allows, `line` being the line begun. -/
def fill (width : Nat) (line : String) : List String → List String
  | [] => [line]
  | w :: r =>
    if line.length + 1 + w.length ≤ width then fill width (line ++ " " ++ w) r
    else line :: fill width w r

/-- A text broken into lines between its words. -/
def broken (width : Nat) (text : String) : List String :=
  match text.splitOn " " with
  | [] => []
  | w :: r => fill width w r

/-- A row: a term and its meaning, with terms in a column of this width. -/
def row (width : Nat) (term meaning : String) : List String :=
  match broken (pageWidth - width - 4) meaning with
  | [] => ["  " ++ term]
  | l :: r =>
    ("  " ++ Text.padRight width term ++ "  " ++ l) :: r.map (Text.spaces (width + 4) ++ ·)

/-- A section with a title, after an empty line. -/
def part (title : String) (rows : List (String × String)) : List String :=
  if rows.isEmpty then []
  else
    let width := (rows.map (·.1.length)).foldl max 0
    ["", title] ++ rows.flatMap fun (term, meaning) => row width term meaning

end Help

/-- An option as the help shows it, and what it means. -/
def Flag.entry : Flag → String × String
  | .config =>
    ("-c, --config <CONFIG>",
      "Engine configuration; defaults apply when the file is absent [default: " ++ defaultConfig ++
        "]")
  | .debug => ("-d, --debug...", "Developer log verbosity on stderr (-d debug, -dd trace)")
  | .singleBlock =>
    ("    --single-block", "Pause after every executed line; press Enter to continue")
  | .device => ("    --device <NAME>", "Connect an extra simulated device (repeatable)")
  | .help => ("-h, --help", "Print help")
  | .version => ("-V, --version", "Print version")

namespace Scope

/-- What it does. -/
def about : Scope → String
  | program => "Command-line runner for breq device automation scripts"
  | run => "Run a script against the configured devices"
  | check => "Show how every line of a script is classified"
  | help => "Print this message or the help of the given subcommand(s)"

/-- How it is called. -/
def usage : Scope → String
  | program => "Usage: breq [OPTIONS] <COMMAND>"
  | run => "Usage: breq run [OPTIONS] <SCRIPT>"
  | check => "Usage: breq check [OPTIONS] <SCRIPT>"
  | help => "Usage: breq help [COMMAND]..."

/-- The commands, and what they do. -/
def commands : Scope → List (String × String)
  | program => [("run", run.about), ("check", check.about), ("help", help.about)]
  | _ => []

/-- The arguments, and what they mean. -/
def arguments : Scope → List (String × String)
  | run | check => [("<SCRIPT>", "Script file (.breq)")]
  | help => [("[COMMAND]...", "Print help for the subcommand(s)")]
  | program => []

/-- The page of help. -/
def page (s : Scope) : List String :=
  [s.about, "", s.usage] ++
    Help.part "Commands:" s.commands ++
    Help.part "Arguments:" s.arguments ++
    Help.part "Options:" ((Flag.known s).map Flag.entry)

end Scope

/-- What the program says of its version. -/
def versionText : String := "breq 0.3.0"

end DeviceScript.Cli
