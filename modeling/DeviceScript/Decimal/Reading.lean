import DeviceScript.Decimal.Double
/-!
# Reading a decimal number

The written forms of a double precision number: an optional sign, then either digits with an
optional point and an optional power of ten, or one of the words `inf`, `infinity` and `nan` in any
mixture of cases.  At least one digit stands before or after the point, and a power of ten has at
least one digit.  Nothing else may stand before, between or after.
-/

namespace DeviceScript.Decimal

/-- One of the ten ASCII digits. -/
def isDigit (c : Char) : Bool :=
  '0' ≤ c && c ≤ '9'

/-- The number that a list of digits denotes, after the digits already read. -/
def digitsFrom (seen : Nat) (ds : List Char) : Nat :=
  ds.foldl (fun n d => 10 * n + (d.toNat - '0'.toNat)) seen

/-- The sign before a number, where one is written, and the rest. -/
def splitSign : List Char → Bool × List Char
  | '-' :: r => (true, r)
  | '+' :: r => (false, r)
  | r => (false, r)

/-- The power of ten after a mantissa: nothing, or a mark with an optional sign and digits. -/
def readExponent? : List Char → Option Int
  | [] => some 0
  | c :: r =>
    if c = 'e' ∨ c = 'E' then
      let (negative, ds) := splitSign r
      if ds.isEmpty || !ds.all isDigit then none
      else
        let n : Int := digitsFrom 0 ds
        some (if negative then -n else n)
    else none

/-- The words for the values that are not finite, in lower case. -/
def readWord? (negative : Bool) (cs : List Char) : Option Double :=
  let word := String.ofList (cs.map Char.toLower)
  if word = "inf" ∨ word = "infinity" then some (.infinite negative)
  else if word = "nan" then some .nan
  else none

/-- The number that an unsigned form denotes. -/
def readUnsigned? (negative : Bool) (cs : List Char) : Option Double :=
  let whole := cs.takeWhile isDigit
  let rest := cs.dropWhile isDigit
  let (fraction, rest) :=
    match rest with
    | '.' :: r => (r.takeWhile isDigit, r.dropWhile isDigit)
    | _ => ([], rest)
  if whole.isEmpty && fraction.isEmpty then readWord? negative cs
  else do
    let e ← readExponent? rest
    pure (Double.ofDecimal negative (digitsFrom 0 (whole ++ fraction)) (e - fraction.length))

/-- The number that a text denotes, if it is a written form of one. -/
def read? (cs : List Char) : Option Double :=
  let (negative, r) := splitSign cs
  readUnsigned? negative r

end DeviceScript.Decimal
