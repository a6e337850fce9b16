import DeviceScript.Decimal.Reading
import DeviceScript.Decimal.Shortest
import DeviceScript.Json.Basic
import DeviceScript.Text.Hex
/-!
# JSON texts

`Json.read?` reads a whole text as one value and `Json.write` writes a value on one line.  A number
without a point and without a power of ten is whole when it fits into 64 bits; minus zero and
everything else is a double precision number.

Every step of the reader consumes at least one character, so a bound as large as the text is never
reached; it is what makes the recursion through nested values evident.
-/

namespace DeviceScript.Json

/-! ## 1. Reading -/

/-- A blank between the parts of a JSON text. -/
def isGap (c : Char) : Bool :=
  c == ' ' || c == '\t' || c == '\n' || c == '\r'

/-- The text after the blanks it begins with. -/
def skipGap (cs : List Char) : List Char :=
  cs.dropWhile isGap

/-- The character after `\u`, which may take two numbers, and the rest. -/
def readEscaped? (r : List Char) : Option (Char × List Char) := do
  let (n, r) ← Text.readHex? 4 0 r
  if 0xD800 ≤ n ∧ n < 0xDC00 then
    match r with
    | '\\' :: 'u' :: r =>
      let (m, r) ← Text.readHex? 4 0 r
      if 0xDC00 ≤ m ∧ m < 0xE000 then
        pure (Char.ofNat (0x10000 + (n - 0xD800) * 0x400 + (m - 0xDC00)), r)
      else none
    | _ => none
  else if 0xDC00 ≤ n ∧ n < 0xE000 then none
  else pure (Char.ofNat n, r)

/-- The rest of a string after its opening quote; `held` is what was read of it, backwards. -/
def readString? : (bound : Nat) → (held : List Char) → List Char → Option (String × List Char)
  | 0, _, _ => none
  | _, _, [] => none
  | bound + 1, held, c :: r =>
    if c = '"' then some (String.ofList held.reverse, r)
    else if c = '\\' then
      match r with
      | 'n' :: r => readString? bound ('\n' :: held) r
      | 't' :: r => readString? bound ('\t' :: held) r
      | 'r' :: r => readString? bound ('\r' :: held) r
      | 'b' :: r => readString? bound ('\x08' :: held) r
      | 'f' :: r => readString? bound ('\x0c' :: held) r
      | 'u' :: r => do
        let (ch, r) ← readEscaped? r
        readString? bound (ch :: held) r
      | e :: r =>
        if e = '"' ∨ e = '\\' ∨ e = '/' then readString? bound (e :: held) r else none
      | [] => none
    else if c.toNat < 0x20 then none
    else readString? bound (c :: held) r

/-- A character that can belong to a number. -/
def isNumberChar (c : Char) : Bool :=
  Decimal.isDigit c || c == '-' || c == '+' || c == '.' || c == 'e' || c == 'E'

/-- The value that the characters of a number denote. -/
def readNumber? (cs : List Char) : Option Json := do
  let (negative, ds) := Decimal.splitSign cs
  if cs.head? = some '+' ∨ !(ds.head?.any Decimal.isDigit) then none
  if ds.all Decimal.isDigit then
    let n := Decimal.digitsFrom 0 ds
    if negative then
      if n = 0 then pure (.float (.zero true))
      else if n ≤ wordBound / 2 then pure (.int (-(n : Int)))
      else pure (.float (.ofDecimal true n 0))
    else if n < wordBound then pure (.int n)
    else pure (.float (.ofDecimal false n 0))
  else
    pure (.float (← Decimal.read? cs))

/-- The rest after one of the three words, and its value. -/
def readWord? (cs : List Char) : Option (Json × List Char) :=
  match cs with
  | 'n' :: 'u' :: 'l' :: 'l' :: r => some (.null, r)
  | 't' :: 'r' :: 'u' :: 'e' :: r => some (.bool true, r)
  | 'f' :: 'a' :: 'l' :: 's' :: 'e' :: r => some (.bool false, r)
  | _ => none

mutual
/-- A value at the start of a text, and the rest. -/
def readValue? : (bound : Nat) → List Char → Option (Json × List Char)
  | 0, _ => none
  | bound + 1, cs =>
    match skipGap cs with
    | [] => none
    | '"' :: r => do
      let (s, r) ← readString? (r.length + 1) [] r
      pure (.text s, r)
    | '[' :: r =>
      match skipGap r with
      | ']' :: r => some (.array [], r)
      | r => do
        let (items, r) ← readItems? bound r
        pure (.array items, r)
    | '\x7b' :: r =>
      match skipGap r with
      | '\x7d' :: r => some (.fields [], r)
      | r => do
        let (entries, r) ← readEntries? bound r
        pure (object entries, r)
    | c :: r =>
      if isNumberChar c then do
        let v ← readNumber? (c :: r.takeWhile isNumberChar)
        pure (v, r.dropWhile isNumberChar)
      else readWord? (c :: r)

/-- The items of an array up to its end, at least one, and the rest. -/
def readItems? : (bound : Nat) → List Char → Option (List Json × List Char)
  | 0, _ => none
  | bound + 1, cs => do
    let (v, r) ← readValue? bound cs
    match skipGap r with
    | ',' :: r =>
      let (vs, r) ← readItems? bound r
      pure (v :: vs, r)
    | ']' :: r => pure ([v], r)
    | _ => none

/-- The fields of an object up to its end, at least one, and the rest. -/
def readEntries? : (bound : Nat) → List Char → Option (List (String × Json) × List Char)
  | 0, _ => none
  | bound + 1, cs => do
    match skipGap cs with
    | '"' :: r =>
      let (name, r) ← readString? (r.length + 1) [] r
      match skipGap r with
      | ':' :: r =>
        let (v, r) ← readValue? bound r
        match skipGap r with
        | ',' :: r =>
          let (es, r) ← readEntries? bound r
          pure ((name, v) :: es, r)
        | '\x7d' :: r => pure ([(name, v)], r)
        | _ => none
      | _ => none
    | _ => none
end

/-- The value that a text denotes, if it is the text of exactly one. -/
def read? (s : String) : Option Json := do
  let cs := s.toList
  let (v, r) ← readValue? (cs.length + 1) cs
  if (skipGap r).isEmpty then some v else none

/-! ## 2. Writing -/

/-- A character as it stands in a JSON string. -/
def writeChar (c : Char) : List Char :=
  if c = '"' then ['\\', '"']
  else if c = '\\' then ['\\', '\\']
  else if c.toNat < 0x20 then
    let ds := Nat.toDigits 16 c.toNat
    ['\\', 'u'] ++ List.replicate (4 - ds.length) '0' ++ ds
  else [c]

/-- A string between its quotes. -/
def writeString (s : String) : String :=
  String.ofList ('"' :: s.toList.flatMap writeChar ++ ['"'])

mutual
/-- The text of a value, on one line. -/
def write : Json → String
  | .null => "null"
  | .bool b => if b then "true" else "false"
  | .int n => toString n
  | .float x => if x.isFinite then x.scientific else "null"
  | .text s => writeString s
  | .array items => "[" ++ writeItems items ++ "]"
  | .fields entries => "\x7b" ++ writeEntries entries ++ "\x7d"

/-- The texts of the items of an array, with commas between them. -/
def writeItems : List Json → String
  | [] => ""
  | [v] => write v
  | v :: r => write v ++ "," ++ writeItems r

/-- The texts of the fields of an object, with commas between them. -/
def writeEntries : List (String × Json) → String
  | [] => ""
  | [(n, v)] => writeString n ++ ":" ++ write v
  | (n, v) :: r => writeString n ++ ":" ++ write v ++ "," ++ writeEntries r
end

end DeviceScript.Json
