import DeviceScript.Decimal.Double
/-!
# The shortest decimal form

A finite number is written with the fewest significant digits that still read back as that number,
and among the digit strings of that length with the one nearest to it.  The numbers that read back
form an interval around it: half-way to either neighbour, the ends included when the mantissa is
even.  For one digit, two digits and so on up to seventeen, the two decimal numbers of that length
on either side of the number are tested against the interval (`onGrid?`), and the first length with
a hit wins (`shortest`).

Two written forms use these digits: `Double.positional`, which never uses a power of ten, and
`Double.scientific`, which uses one for very large and very small numbers.
-/

namespace DeviceScript.Decimal

/-- An interval of numbers around a centre; all three are quotients by `den`. -/
structure Interval where
  low : Nat
  centre : Nat
  high : Nat
  den : Nat
  closed : Bool

/-- The numbers that round to `m * 2 ^ q`. -/
def Interval.around (m : Nat) (q : Int) : Interval :=
  let below := if m = Double.mantissaBound / 2 ∧ q ≠ Double.leastExponent then 1 else 2
  let scale := if 2 ≤ q then Nat.pow 2 (q - 2).toNat else 1
  let den := if 2 ≤ q then 1 else Nat.pow 2 (2 - q).toNat
  ⟨(4 * m - below) * scale, 4 * m * scale, (4 * m + 2) * scale, den, m % 2 = 0⟩

/-- Whether `num / den` lies in the interval. -/
def Interval.contains (i : Interval) (num den : Nat) : Bool :=
  let x := num * i.den
  if i.closed then i.low * den ≤ x && x ≤ i.high * den
  else i.low * den < x && x < i.high * den

/-- Digits and a power of ten: `digits * 10 ^ exponent`. -/
structure Scaled where
  digits : Nat
  exponent : Int
  deriving Repr, DecidableEq

/-- Which of two decimal numbers is taken when both are equally near. -/
inductive Tie where
  | up
  | even
  deriving Repr, DecidableEq

/-- Of the two multiples of `10 ^ e` around the centre of the interval, the one that lies in the
interval and is nearest to the centre. -/
def onGrid? (tie : Tie) (i : Interval) (e : Int) : Option Scaled :=
  let gridNum := if 0 ≤ e then Nat.pow 10 e.toNat else 1
  let gridDen := if 0 ≤ e then 1 else Nat.pow 10 (-e).toNat
  let scaledCentre := i.centre * gridDen
  let unit := i.den * gridNum
  let k := scaledCentre / unit
  let rest := scaledCentre % unit
  let lowIn := i.contains (k * gridNum) gridDen
  let highIn := i.contains ((k + 1) * gridNum) gridDen
  let higher :=
    if 2 * rest < unit then false
    else if 2 * rest > unit then true
    else match tie with
      | .up => true
      | .even => k % 2 = 1
  if lowIn ∧ (¬highIn ∨ !higher) then some ⟨k, e⟩
  else if highIn then some ⟨k + 1, e⟩
  else none

/-- The first hit on the grids from `10 ^ top` downwards. -/
def firstHit (tie : Tie) (i : Interval) : (grids : Nat) → (top : Int) → Scaled
  | 0, top => ⟨i.centre / i.den, top⟩
  | grids + 1, top =>
    match onGrid? tie i top with
    | some s => s
    | none => firstHit tie i grids (top - 1)

/-- The exponent of the highest power of ten that is not above `num / den`, searched upwards from a
power that is not above it. -/
def log10From (num den : Nat) : (steps : Nat) → (e : Int) → Int
  | 0, e => e
  | steps + 1, e =>
    let next := e + 1
    let above : Bool :=
      if 0 ≤ next then num < den * Nat.pow 10 next.toNat else num * Nat.pow 10 (-next).toNat < den
    if above then e else log10From num den steps next

/-- The exponent of the highest power of ten that is not above `num / den`. -/
def log10Ratio (num den : Nat) : Int :=
  let k : Int := (num.log2 : Int) - (den.log2 : Int) - 1
  log10From num den 4 (Int.fdiv (k * 30103) 100000 - 1)

/-- Digits without the zeros they end with. -/
def dropZeros : (steps : Nat) → Scaled → Scaled
  | 0, s => s
  | steps + 1, s =>
    if s.digits % 10 = 0 ∧ s.digits ≠ 0 then dropZeros steps ⟨s.digits / 10, s.exponent + 1⟩ else s

/-- The shortest digits that read back as `m * 2 ^ q`, for `m` above zero. -/
def shortest (tie : Tie) (m : Nat) (q : Int) : Scaled :=
  let i := Interval.around m q
  dropZeros 20 (firstHit tie i 18 (log10Ratio i.centre i.den + 1))

/-! ## Written forms -/

/-- Digits with a point after the first `point` of them; zeros fill the gap when the point lies
outside the digits. -/
def placePoint (ds : List Char) (point : Int) : List Char :=
  if point ≤ 0 then ['0', '.'] ++ List.replicate (-point).toNat '0' ++ ds
  else if ds.length ≤ point.toNat then ds ++ List.replicate (point.toNat - ds.length) '0'
  else ds.take point.toNat ++ '.' :: ds.drop point.toNat

/-- The minus sign of a negative number. -/
def signText (negative : Bool) : String :=
  if negative then "-" else ""

namespace Double

/-- The form without a power of ten: `1`, `0.25`, `-0`, `inf`, `NaN`. -/
def positional : Double → String
  | .nan => "NaN"
  | .infinite negative => signText negative ++ "inf"
  | .finite negative m q =>
    if m = 0 then signText negative ++ "0"
    else
      let s := shortest .up m q
      let ds := Nat.toDigits 10 s.digits
      signText negative ++ String.ofList (placePoint ds (ds.length + s.exponent))

/-- The form without a power of ten, in which a whole number keeps a decimal: `1.0`. -/
def pointed (x : Double) : String :=
  let s := x.positional
  if x.isFinite && !s.toList.contains '.' then s ++ ".0" else s

/-- The form that has a power of ten from `1e16` on and below `0.00001`, and a decimal on every
number without one: `1.0`, `1e16`, `1.5e-7`. -/
def scientific : Double → String
  | .nan => "NaN"
  | .infinite negative => signText negative ++ "inf"
  | .finite negative m q =>
    if m = 0 then signText negative ++ "0.0"
    else
      let s := shortest .even m q
      let ds := Nat.toDigits 10 s.digits
      let point : Int := ds.length + s.exponent
      let body :=
        if (ds.length : Int) ≤ point ∧ point ≤ 16 then placePoint ds point ++ ['.', '0']
        else if -5 < point ∧ point ≤ 16 then placePoint ds point
        else
          let exponent := 'e' :: (toString (point - 1)).toList
          match ds with
          | d :: [] => d :: exponent
          | d :: r => d :: '.' :: r ++ exponent
          | [] => exponent
      signText negative ++ String.ofList body

end Double

end DeviceScript.Decimal
