import DeviceScript.Decimal.Reading
import DeviceScript.Text.Hex
import DeviceScript.Yaml.Value
/-!
# What scalars denote

A plain scalar may denote nothing at all, a truth value or a number; any other scalar is a text.

Whole numbers are written in one of four bases.  A number with a needless zero in front is a text.
A whole number must fit into 64 bits, signed or unsigned; one that only fits into 128 bits is an
error, and one that does not even fit into those is read as a double precision number.
-/

namespace DeviceScript.Yaml

/-! ## 1. Words -/

/-- Whether a scalar is a word for nothing. -/
def isNullWord (s : String) : Bool :=
  s ∈ ["null", "Null", "NULL", "~"]

/-- The truth value that a scalar is a word for. -/
def boolWord? (s : String) : Option Bool :=
  if s ∈ ["true", "True", "TRUE"] then some true
  else if s ∈ ["false", "False", "FALSE"] then some false
  else none

/-! ## 2. Numbers -/

/-- A sign and digits that do not make a number, because a needless zero stands in front. -/
def hasNeedlessZero (cs : List Char) : Bool :=
  match cs with
  | '-' :: r | '+' :: r => isPadded r
  | r => isPadded r
where
  /-- More than one digit, the first of them zero. -/
  isPadded : List Char → Bool
    | '0' :: d :: r => (d :: r).all Decimal.isDigit
    | _ => false

/-- The number that digits of a base denote; there is at least one digit. -/
def readDigits? (base : Nat) (ds : List Char) : Option Nat :=
  if ds.isEmpty then none
  else ds.foldl (fun n? d => do
    let n ← n?
    let v ← Text.hexValue? d
    if v < base then some (n * base + v) else none) (some 0)

/-- The number that the digits after a base mark denote, if it is below a bound. -/
def readMarked? (bound : Nat) (cs : List Char) : Option Nat :=
  let read (base : Nat) (r : List Char) : Option Nat := (readDigits? base r).filter (· < bound)
  match cs with
  | '0' :: 'x' :: r => read 16 r
  | '0' :: 'o' :: r => read 8 r
  | '0' :: 'b' :: r => read 2 r
  | _ => none

/-- The number that a scalar with a plus sign or without a sign denotes, if it is below a bound. -/
def readPositive? (bound : Nat) (cs : List Char) : Option Int :=
  let unsigned := match cs with
    | '+' :: r => r
    | r => r
  match readMarked? bound unsigned with
  | some n => some n
  | none =>
    if hasNeedlessZero cs then none
    else ((readDigits? 10 unsigned).filter (· < bound)).map Int.ofNat

/-- The number that a scalar with a minus sign denotes, if it is not below the negative of a
bound. -/
def readNegative? (bound : Nat) (cs : List Char) : Option Int :=
  match cs with
  | '-' :: r =>
    match readMarked? (bound + 1) r with
    | some n => some (-n)
    | none =>
      if hasNeedlessZero cs then none
      else ((readDigits? 10 r).filter (· ≤ bound)).map fun n => -n
  | _ => none

/-- The whole number of at most so many bits, signed or unsigned, that a scalar denotes. -/
def readWhole? (bits : Nat) (cs : List Char) : Option Int :=
  match readPositive? (Nat.pow 2 bits) cs with
  | some n => some n
  | none => readNegative? (Nat.pow 2 (bits - 1)) cs

/-- The double precision number that a scalar denotes. -/
def readFloat? (cs : List Char) : Option Decimal.Double :=
  let unsigned := match cs with
    | '+' :: r => r
    | r => r
  let s := String.ofList cs
  if cs.head? = some '+' ∧ (unsigned.head? = some '+' ∨ unsigned.head? = some '-') then none
  else if String.ofList unsigned ∈ [".inf", ".Inf", ".INF"] then some (.infinite false)
  else if s ∈ ["-.inf", "-.Inf", "-.INF"] then some (.infinite true)
  else if s ∈ [".nan", ".NaN", ".NAN"] then some .nan
  else (Decimal.read? unsigned).filter (·.isFinite)

/-! ## 3. Scalars -/

/-- What a plain scalar denotes; an error is a whole number that is too large. -/
def ofPlain? (s : String) : Option Value :=
  let cs := s.toList
  if cs.isEmpty || isNullWord s then some .null
  else match boolWord? s with
    | some b => some (.bool b)
    | none => match readWhole? 64 cs with
      | some n => some (.int n)
      | none =>
        if (readWhole? 128 cs).isSome then none
        else match if hasNeedlessZero cs then none else readFloat? cs with
          | some x => some (.float x)
          | none => some (.text s)

/-- The part of a tag that names it, for a tag that begins with an exclamation mark; other tags are
not kept. -/
def keptTag? (tag : String) : Option String :=
  match tag.toList with
  | '!' :: [] => some "!"
  | '!' :: '!' :: [] => some "!"
  | '!' :: '!' :: r => some (String.ofList r)
  | '!' :: r => some (String.ofList r)
  | _ => none

/-- What a scalar denotes whose tag, if it has one, is not kept.  A standard tag for a sort of
scalars asks for that sort, and a scalar with any other tag that is not kept is a text. -/
def ofScalar? (tag : Option String) (plain : Bool) (s : String) : Option Value :=
  match tag with
  | some "tag:yaml.org,2002:bool" => (boolWord? s).map .bool
  | some "tag:yaml.org,2002:int" => (readWhole? 64 s.toList).map .int
  | some "tag:yaml.org,2002:float" => (readFloat? s.toList).map .float
  | some "tag:yaml.org,2002:null" => if isNullWord s then some .null else none
  | some _ => some (.text s)
  | none => if plain then ofPlain? s else some (.text s)

end DeviceScript.Yaml
