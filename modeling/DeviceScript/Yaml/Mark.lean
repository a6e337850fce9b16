import DeviceScript.Text.Hex
import DeviceScript.Text.Utf8
import DeviceScript.Yaml.Scalar
/-!
# The forms of anchors, tags and directives

An anchor or an alias is a name.  A tag is a handle and a suffix, where the handle stands for the
beginning of a longer name; a tag between angle brackets has no handle.  A directive takes a line of
its own and says which version of the format the text follows or what a handle stands for.
-/

namespace DeviceScript.Yaml

/-! ## 1. Anchors -/

/-- A character that may follow an anchor. -/
def mayFollowName : List Char → Bool
  | [] => true
  | c :: _ => isGap c || "?:,]\x7d%@`".toList.contains c

/-- The name of an anchor, and the rest. -/
def readName? (cs : List Char) : Option (String × List Char) :=
  let name := cs.takeWhile isNameChar
  let r := cs.dropWhile isNameChar
  if name.isEmpty || !mayFollowName r then none else some (String.ofList name, r)

/-! ## 2. Tags -/

/-- A character of a tag other than one that is written by its number; between angle brackets, and
in the meaning of a handle, three more may stand. -/
def isTagChar (wide : Bool) (c : Char) : Bool :=
  isNameChar c || ";/?:@&=+$.!~*'()".toList.contains c || (wide && ",[]".toList.contains c)

/-- The octets that are written by their numbers at the start of a text, and the rest. -/
def readOctets : (bound : Nat) → List Char → List UInt8 × List Char
  | bound + 1, '%' :: r =>
    match Text.readHex? 2 0 r with
    | some (n, r) =>
      let (more, r) := readOctets bound r
      (UInt8.ofNat n :: more, r)
    | none => ([], '%' :: r)
  | _, r => ([], r)

/-- The characters of a tag, and the rest. -/
def readTagChars? (wide : Bool) : (bound : Nat) → List Char → Option (List Char × List Char)
  | 0, _ => none
  | _, [] => some ([], [])
  | bound + 1, c :: r =>
    if c = '%' then
      match readOctets (r.length + 1) (c :: r) with
      | ([], _) => none
      | (octets, rest) =>
        (Text.Utf8.decode? octets).bind fun s =>
        (readTagChars? wide bound rest).map fun (t, rest) => (s ++ t, rest)
    else if isTagChar wide c then
      (readTagChars? wide bound r).map fun (t, rest) => (c :: t, rest)
    else some ([], c :: r)

/-- The handle at the start of a text, which begins with an exclamation mark, and the rest. -/
def readHandle? : List Char → Option (List Char × List Char)
  | '!' :: r =>
    let name := r.takeWhile isNameChar
    match r.dropWhile isNameChar with
    | '!' :: r => some ('!' :: name ++ ['!'], r)
    | r => some ('!' :: name, r)
  | _ => none

/-- A tag in angle brackets, and the rest. -/
def readVerbatim? (cs : List Char) : Option (Token × List Char) := do
  let (suffix, r) ← readTagChars? true (cs.length + 1) cs
  match r with
  | '>' :: r => if suffix.isEmpty then none else some (.tag "" (String.ofList suffix), r)
  | _ => none

/-- A tag with a handle, and the rest.  A lone exclamation mark is a tag without a handle. -/
def readShorthand? (cs : List Char) : Option (Token × List Char) := do
  let (handle, r) ← readHandle? cs
  let (more, r) ← readTagChars? false (r.length + 1) r
  if handle.length > 1 && handle.getLast? == some '!' then
    if more.isEmpty then none else some (.tag (String.ofList handle) (String.ofList more), r)
  else
    let suffix := handle.drop 1 ++ more
    if suffix.isEmpty then some (.tag "" "!", r) else some (.tag "!" (String.ofList suffix), r)

/-- The tag at the start of a text, and the rest. -/
def readTag? (inFlow : Bool) (cs : List Char) : Option (Token × List Char) := do
  let (t, r) ← match cs with
    | '!' :: '<' :: r => readVerbatim? r
    | _ => readShorthand? cs
  if atGap r || (inFlow && r.head? == some ',') then some (t, r) else none

/-! ## 3. Directives -/

/-- A number of at most nine digits, and the rest. -/
def readNumber? (cs : List Char) : Option (Nat × List Char) :=
  let ds := cs.takeWhile Char.isDigit
  if ds.isEmpty || ds.length > 9 then none
  else some (ds.foldl (fun n d => 10 * n + (d.toNat - '0'.toNat)) 0, cs.dropWhile Char.isDigit)

/-- The version that a directive names, and the rest. -/
def readVersion? (cs : List Char) : Option (Token × List Char) := do
  let (major, r) ← readNumber? (cs.dropWhile isSpacing)
  match r with
  | '.' :: r =>
    let (minor, r) ← readNumber? r
    pure (.version major minor, r)
  | _ => none

/-- The handle that a directive explains, its meaning, and the rest. -/
def readHandleMeaning? (cs : List Char) : Option (Token × List Char) := do
  let (handle, r) ← readHandle? (cs.dropWhile isSpacing)
  if handle.length > 1 && handle.getLast? != some '!' then none
  if !r.head?.any isSpacing then none
  let r := r.dropWhile isSpacing
  let (meaning, r) ← readTagChars? true (r.length + 1) r
  if meaning.isEmpty || !atGap r then none
  else some (.handle (String.ofList handle) (String.ofList meaning), r)

/-- A directive after its percent sign, and the rest after its line. -/
def readDirective? (cs : List Char) : Option (Token × List Char) := do
  let name := String.ofList (cs.takeWhile isNameChar)
  let r := cs.dropWhile isNameChar
  if !atGap r then none
  let (t, r) ←
    if name = "YAML" then readVersion? r
    else if name = "TAG" then readHandleMeaning? r
    else none
  let r ← afterComment? r
  pure (t, if r.isEmpty then [] else afterBreak r)

end DeviceScript.Yaml
