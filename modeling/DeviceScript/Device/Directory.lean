/-!
# Directories of devices

A directory knows which devices are connected at a moment.  Here it is the list of their names in
order, each once; `Directory.ofNames` brings any list of names into that form.
-/

namespace DeviceScript

/-- The names of the connected devices, in order and each once. -/
structure Directory where
  names : List String
  deriving Repr, DecidableEq

namespace Directory

/-- A list of names in order with one more name. -/
def insertName (name : String) : List String → List String
  | [] => [name]
  | n :: r =>
    if name < n then name :: n :: r
    else if name = n then n :: r
    else n :: insertName name r

/-- The directory of these names. -/
def ofNames (names : List String) : Directory :=
  ⟨names.foldl (fun acc n => insertName n acc) []⟩

/-- Whether a device is connected. -/
def isConnected (d : Directory) (name : String) : Bool :=
  d.names.contains name

/-- Whether any device is connected. -/
def hasAny (d : Directory) : Bool :=
  !d.names.isEmpty

theorem mem_insertName {name other : String} {l : List String} :
    other ∈ insertName name l ↔ other = name ∨ other ∈ l := by
  induction l with
  | nil => simp [insertName]
  | cons n r ih =>
    unfold insertName
    split
    · simp
    · split
      · rename_i h; subst h; simp
      · simp only [List.mem_cons, ih]; grind

/-- The directory of some names has exactly these names. -/
theorem mem_ofNames {name : String} {l : List String} : name ∈ (ofNames l).names ↔ name ∈ l := by
  have key : ∀ (l acc : List String),
      name ∈ l.foldl (fun acc n => insertName n acc) acc ↔ name ∈ l ∨ name ∈ acc := by
    intro l
    induction l with
    | nil => simp
    | cons n r ih =>
      intro acc
      simp only [List.foldl_cons, ih, mem_insertName, List.mem_cons]
      grind
  simpa [ofNames] using key l []

end Directory

end DeviceScript
