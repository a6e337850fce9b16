/-!
# Reading UTF-8

`decode?` reads a list of bytes as UTF-8 and refuses everything that is not a well-formed encoding:
a byte out of place, an encoding longer than it has to be, a surrogate, and a number beyond the last
code point.
-/

namespace DeviceScript.Text.Utf8

/-- The six bits that a continuation byte carries. -/
def continuation? (b : UInt8) : Option Nat :=
  if 0x80 ≤ b && b ≤ 0xBF then some (b.toNat - 0x80) else none

/-- The character with this number, if the number is at least `least` and belongs to one. -/
def character? (least n : Nat) : Option Char :=
  if h : n.isValidChar then if least ≤ n then some (Char.ofNatAux n h) else none else none

/-- The text that these bytes encode, if they encode one. -/
def decode? : List UInt8 → Option (List Char)
  | [] => some []
  | a :: r =>
    if a < 0x80 then (decode? r).map (Char.ofNat a.toNat :: ·)
    else if a < 0xC0 then none
    else match r with
      | [] => none
      | b :: r =>
        if a < 0xE0 then do
          let x ← continuation? b
          let c ← character? 0x80 ((a.toNat - 0xC0) * 0x40 + x)
          (decode? r).map (c :: ·)
        else match r with
          | [] => none
          | c :: r =>
            if a < 0xF0 then do
              let x ← continuation? b
              let y ← continuation? c
              let ch ← character? 0x800 (((a.toNat - 0xE0) * 0x40 + x) * 0x40 + y)
              (decode? r).map (ch :: ·)
            else match r with
              | [] => none
              | d :: r => do
                if a ≥ 0xF8 then none
                let x ← continuation? b
                let y ← continuation? c
                let z ← continuation? d
                let ch ← character? 0x10000
                  ((((a.toNat - 0xF0) * 0x40 + x) * 0x40 + y) * 0x40 + z)
                (decode? r).map (ch :: ·)

end DeviceScript.Text.Utf8
