/-!
# Columns

Texts that stand in columns are filled up with spaces to the width of their column.  A text that is
wider than its column is left as it is.  Widths are counted in characters.
-/

namespace DeviceScript.Text

/-- So many spaces. -/
def spaces (count : Nat) : String :=
  String.ofList (List.replicate count ' ')

/-- A text filled up with spaces at its front to this number of characters. -/
def padLeft (width : Nat) (s : String) : String :=
  spaces (width - s.length) ++ s

/-- A text filled up with spaces at its end to this number of characters. -/
def padRight (width : Nat) (s : String) : String :=
  s ++ spaces (width - s.length)

end DeviceScript.Text
