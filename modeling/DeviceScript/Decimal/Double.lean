/-!
# Double precision numbers

Durations and the numbers of a settings file are binary numbers with 53 significant bits.  A finite
one is held exactly, as a sign, a whole number and a power of two, so that every operation on it is
exact arithmetic on natural numbers; zero keeps its sign.

`ofRatio` is the one place where a number is rounded: to the nearest representable number, and to
the one with an even last bit when two are equally near.
-/

namespace DeviceScript.Decimal

/-- A double precision number.  The finite number with sign `negative`, mantissa `m` and exponent
`q` is `± m * 2 ^ q`. -/
inductive Double where
  | finite (negative : Bool) (mantissa : Nat) (exponent : Int)
  | infinite (negative : Bool)
  | nan
  deriving Repr, DecidableEq, Inhabited

namespace Double

/-- The exponent of the smallest positive number, which is also that of zero. -/
def leastExponent : Int := -1074

/-- The largest exponent of a finite number. -/
def greatestExponent : Int := 971

/-- The number of values that a mantissa can take. -/
def mantissaBound : Nat := 9007199254740992

/-- Zero with a sign. -/
def zero (negative : Bool) : Double :=
  .finite negative 0 leastExponent

/-- The quotient of two numbers rounded to the nearest whole number, to the even one of two that are
equally near. -/
def roundQuotient (num den : Nat) : Nat :=
  let q := num / den
  let r := num % den
  if 2 * r < den then q
  else if 2 * r > den then q + 1
  else if q % 2 = 0 then q else q + 1

/-- The exponent of the highest power of two that is not above `num / den`. -/
def log2Ratio (num den : Nat) : Int :=
  let k : Int := (num.log2 : Int) - (den.log2 : Int)
  let below : Bool :=
    if 0 ≤ k then num < den * Nat.pow 2 k.toNat else num * Nat.pow 2 (-k).toNat < den
  if below then k - 1 else k

/-- The number nearest to `num / den`, with a sign. -/
def ofRatio (negative : Bool) (num den : Nat) : Double :=
  if num = 0 then zero negative
  else
    let q := max leastExponent (log2Ratio num den - 52)
    let m :=
      if 0 ≤ q then roundQuotient num (den * Nat.pow 2 q.toNat)
      else roundQuotient (num * Nat.pow 2 (-q).toNat) den
    let (m, q) := if m = mantissaBound then (m / 2, q + 1) else (m, q)
    if q > greatestExponent then .infinite negative
    else if m = 0 then zero negative
    else .finite negative m q

/-- The number nearest to `± digits * 10 ^ exponent`. -/
def ofDecimal (negative : Bool) (digits : Nat) (exponent : Int) : Double :=
  if digits = 0 then zero negative
  else
    let size : Int := digits.log2
    if size + 3 * exponent > 1100 ∧ 0 ≤ exponent then .infinite negative
    else if size + 3 * exponent < -1200 ∧ exponent < 0 then zero negative
    else if 0 ≤ exponent then ofRatio negative (digits * Nat.pow 10 exponent.toNat) 1
    else ofRatio negative digits (Nat.pow 10 (-exponent).toNat)

/-- A finite number. -/
def isFinite : Double → Bool
  | .finite .. => true
  | _ => false

/-- A number that may stand for a duration: finite and not below zero; minus zero is not below. -/
def isDuration : Double → Bool
  | .finite negative m _ => !negative || m == 0
  | _ => false

/-- Equality of the numbers themselves: the two zeros are equal, and a value that is not a number
equals every other such value. -/
def sameValue : Double → Double → Bool
  | .finite s m q, .finite s' m' q' => (m == m' && q == q' && s == s') || (m == 0 && m' == 0)
  | .infinite s, .infinite s' => s == s'
  | .nan, .nan => true
  | _, _ => false

/-- A finite, non-negative number of units, in thousand-millionths of a unit rounded to the nearest
and to the even one of two that are equally near. -/
def nanoUnits (m : Nat) (q : Int) : Nat :=
  if 0 ≤ q then m * Nat.pow 2 q.toNat * 1000000000
  else roundQuotient (m * 1000000000) (Nat.pow 2 (-q).toNat)

end Double

end DeviceScript.Decimal
