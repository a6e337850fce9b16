import DeviceScript.Decimal.Reading
import DeviceScript.Text.Blank
/-!
# Timestamps

A timestamp is a moment of universal time, held as the date and the time of day that a calendar and
a clock would show, with the fraction of the second in thousand-millionths.  A leap second is shown
by a fraction of a whole second or more in the second before it.

The written form has a date, a time of day and an offset from universal time.  Reading is generous
(`read?`): blanks may stand before a number and around the separators, a number may lack its leading
zeros, the fraction may have any number of digits, and the offset may lack its colon.  Writing is
strict (`text`): it uses universal time, marked `Z`, and the fewest of 0, 3, 6 and 9 digits that
give the fraction exactly.
-/

namespace DeviceScript

/-- A day of the calendar. -/
structure Date where
  year : Int
  month : Nat
  day : Nat
  deriving Repr, DecidableEq, Inhabited

namespace Date

/-- A year with a 29th of February. -/
def isLeap (year : Int) : Bool :=
  (year % 4 = 0 && year % 100 ≠ 0) || year % 400 = 0

/-- The number of days of a month. -/
def daysIn (year : Int) (month : Nat) : Nat :=
  if month = 2 then if isLeap year then 29 else 28
  else if month = 4 || month = 6 || month = 9 || month = 11 then 30
  else 31

/-- The years that timestamps reach. -/
def yearInRange (year : Int) : Bool :=
  -262143 ≤ year && year ≤ 262142

/-- A day that exists, in a year that timestamps reach. -/
def isValid (d : Date) : Bool :=
  yearInRange d.year && 1 ≤ d.month && d.month ≤ 12 && 1 ≤ d.day && d.day ≤ daysIn d.year d.month

/-- The day after. -/
def next (d : Date) : Date :=
  if d.day < daysIn d.year d.month then { d with day := d.day + 1 }
  else if d.month < 12 then { d with month := d.month + 1, day := 1 }
  else ⟨d.year + 1, 1, 1⟩

/-- The day before. -/
def previous (d : Date) : Date :=
  if 1 < d.day then { d with day := d.day - 1 }
  else if 1 < d.month then { d with month := d.month - 1, day := daysIn d.year (d.month - 1) }
  else ⟨d.year - 1, 12, 31⟩

/-- The day that lies this many days after the first of January 1970. -/
def ofDayNumber (n : Nat) : Date :=
  let z := n + 719468
  let era := z / 146097
  let dayOfEra := z % 146097
  let yearOfEra := (dayOfEra - dayOfEra / 1460 + dayOfEra / 36524 - dayOfEra / 146096) / 365
  let dayOfYear := dayOfEra - (365 * yearOfEra + yearOfEra / 4 - yearOfEra / 100)
  let shifted := (5 * dayOfYear + 2) / 153
  let day := dayOfYear - (153 * shifted + 2) / 5 + 1
  let month := if shifted < 10 then shifted + 3 else shifted - 9
  ⟨(yearOfEra + era * 400 : Nat) + (if month ≤ 2 then 1 else 0), month, day⟩

end Date

/-- A moment of universal time. -/
structure Timestamp where
  date : Date
  hour : Nat
  minute : Nat
  second : Nat
  nano : Nat
  deriving Repr, DecidableEq, Inhabited

namespace Timestamp

/-- The moment this many thousandths of a second after the start of 1970. -/
def ofMillis (ms : Nat) : Timestamp where
  date := Date.ofDayNumber (ms / 86400000)
  hour := ms / 3600000 % 24
  minute := ms / 60000 % 60
  second := ms / 1000 % 60
  nano := ms % 1000 * 1000000

/-! ## 1. Writing -/

/-- A number with at least this many digits, the missing ones being zeros. -/
def padded (width n : Nat) : String :=
  let ds := Nat.toDigits 10 n
  String.ofList (List.replicate (width - ds.length) '0' ++ ds)

/-- The year: four digits, or a sign and at least four when it does not lie between 0 and 9999. -/
def yearText (year : Int) : String :=
  if 0 ≤ year ∧ year ≤ 9999 then padded 4 year.toNat
  else (if year < 0 then "-" else "+") ++ padded 4 year.natAbs

/-- The fraction of the second in the fewest of 0, 3, 6 and 9 digits. -/
def fractionText (nano : Nat) : String :=
  if nano = 0 then ""
  else if nano % 1000000 = 0 then "." ++ padded 3 (nano / 1000000)
  else if nano % 1000 = 0 then "." ++ padded 6 (nano / 1000)
  else "." ++ padded 9 nano

/-- The time of day to the second; a leap second shows as the sixty-first of its minute. -/
def clockText (t : Timestamp) : String :=
  padded 2 t.hour ++ ":" ++ padded 2 t.minute ++ ":" ++
    padded 2 (t.second + t.nano / 1000000000)

/-- The written form. -/
def text (t : Timestamp) : String :=
  yearText t.date.year ++ "-" ++ padded 2 t.date.month ++ "-" ++ padded 2 t.date.day ++ "T" ++
    t.clockText ++ fractionText (t.nano % 1000000000) ++ "Z"

/-! ## 2. Reading -/

open Decimal (isDigit digitsFrom)
open Text (isBlank trimStart)

/-- A number of one digit up to `width` digits, and the rest. -/
def readNumber? (width : Nat) (cs : List Char) : Option (Nat × List Char) :=
  let ds := (cs.takeWhile isDigit).take width
  if ds.isEmpty then none else some (digitsFrom 0 ds, cs.drop ds.length)

/-- The rest after this separator. -/
def skipChar? (c : Char) : List Char → Option (List Char)
  | d :: r => if c = d then some r else none
  | [] => none

/-- A year, with a sign and any number of digits or without a sign and up to four, and the rest. -/
def readYear? (cs : List Char) : Option (Int × List Char) :=
  match trimStart cs with
  | '-' :: r => (readNumber? r.length r).map fun (n, r) => (-(n : Int), r)
  | '+' :: r => (readNumber? r.length r).map fun (n, r) => ((n : Int), r)
  | r => (readNumber? 4 r).map fun (n, r) => ((n : Int), r)

/-- A number of one or two digits after blanks, and the rest. -/
def readPair? (cs : List Char) : Option (Nat × List Char) :=
  readNumber? 2 (trimStart cs)

/-- The fraction of a second, where one is written, in thousand-millionths, and the rest.  Digits
beyond the ninth are read and dropped. -/
def readFraction? : List Char → Option (Nat × List Char)
  | '.' :: r =>
    let ds := r.takeWhile isDigit
    let kept := ds.take 9
    if ds.isEmpty then none
    else some (digitsFrom 0 kept * Nat.pow 10 (9 - kept.length), r.dropWhile isDigit)
  | r => some (0, r)

/-- Exactly two digits, and the rest. -/
def readTwo? : List Char → Option (Nat × List Char)
  | a :: b :: r => if isDigit a && isDigit b then some (digitsFrom 0 [a, b], r) else none
  | _ => none

/-- A blank or a colon. -/
def isOffsetSeparator (c : Char) : Bool :=
  c == ':' || isBlank c

/-- An offset in minutes: `Z`, `UTC`, or a sign, two digits for the hours and two for the minutes,
which separators may divide; and the rest. -/
def readOffset? (cs : List Char) : Option (Int × List Char) :=
  match cs with
  | 'Z' :: r | 'z' :: r => some (0, r)
  | s :: r => do
    if (String.ofList ((s :: r.take 2).map Char.toUpper)) = "UTC" then
      pure (0, r.drop 2)
    else
      if s ≠ '+' ∧ s ≠ '-' ∧ s.toNat ≠ 0x2212 then none
      let (hours, r) ← readTwo? r
      let (minutes, r) ← readTwo? (r.dropWhile isOffsetSeparator)
      if minutes ≥ 60 ∨ hours ≥ 24 then none
      let offset : Int := hours * 60 + minutes
      pure (if s = '+' then offset else -offset, r)
  | [] => none

/-- The moment at which a clock that is ahead of universal time by `offset` minutes, less than a
day, shows this date and time of day. -/
def atOffset (offset : Int) (date : Date) (hour minute second nano : Nat) : Timestamp :=
  let m : Int := hour * 60 + minute - offset
  let (date, m) :=
    if m < 0 then (date.previous, m + 1440)
    else if m ≥ 1440 then (date.next, m - 1440)
    else (date, m)
  ⟨date, m.toNat / 60, m.toNat % 60, second, nano⟩

/-- The moment that a text denotes, if it is a written form of one. -/
def readChars? (cs : List Char) : Option Timestamp := do
  let (year, r) ← readYear? cs
  let r ← skipChar? '-' (trimStart r)
  let (month, r) ← readPair? r
  let r ← skipChar? '-' (trimStart r)
  let (day, r) ← readPair? r
  let (sep, r) ← match r with
    | c :: r => some (c, r)
    | [] => none
  if sep ≠ 'T' ∧ sep ≠ 't' ∧ sep ≠ ' ' then none
  let (hour, r) ← readPair? r
  let r ← skipChar? ':' (trimStart r)
  let (minute, r) ← readPair? r
  let r ← skipChar? ':' (trimStart r)
  let (second, r) ← readPair? r
  let (nano, r) ← readFraction? r
  let (offset, r) ← readOffset? (trimStart r)
  if !(trimStart r).isEmpty then none
  let date : Date := ⟨year, month, day⟩
  if !date.isValid ∨ hour ≥ 24 ∨ minute ≥ 60 ∨ second > 60 then none
  let t :=
    if second = 60 then atOffset offset date hour minute 59 (nano + 1000000000)
    else atOffset offset date hour minute second nano
  if t.date.isValid then some t else none

/-- The moment that a text denotes, if it is a written form of one. -/
def read? (s : String) : Option Timestamp :=
  readChars? s.toList

end Timestamp

end DeviceScript
