/-!
# Hexadecimal digits
-/

namespace DeviceScript.Text

/-- The value of a hexadecimal digit. -/
def hexValue? (c : Char) : Option Nat :=
  if '0' ≤ c && c ≤ '9' then some (c.toNat - 0x30)
  else if 'a' ≤ c && c ≤ 'f' then some (c.toNat - 0x57)
  else if 'A' ≤ c && c ≤ 'F' then some (c.toNat - 0x37)
  else none

/-- The number that the first `count` characters denote as hexadecimal digits after those already
read, and the rest. -/
def readHex? : (count : Nat) → (seen : Nat) → List Char → Option (Nat × List Char)
  | 0, seen, r => some (seen, r)
  | _ + 1, _, [] => none
  | count + 1, seen, c :: r =>
    match hexValue? c with
    | some d => readHex? count (seen * 16 + d) r
    | none => none

end DeviceScript.Text
