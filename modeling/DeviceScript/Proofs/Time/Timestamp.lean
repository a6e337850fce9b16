import DeviceScript.Time.Timestamp
import Mathlib.Tactic.IntervalCases
/-!
# Timestamps that are written and read

What `Timestamp.text` writes is read back as the same moment (`Timestamp.read?_text`), for every
moment of a day of the calendar in a year that timestamps reach.  The clock of a bench shows no
others (`Timestamp.isMoment_ofMillis`): the day that lies some number of days after the first of
January 1970 is always a day of the calendar (`Date.isValid_ofDayNumber`).  And no others are ever
read (`Timestamp.exists_read?_iff`): whatever the offset is that a text is given with, it shifts the
moment by less than a day, and digits of the fraction beyond the ninth are dropped.

Numbers are written with a fixed number of digits, so that one that is followed by more digits still
ends where it should.  Only a year beyond 9999 may have any number of them, and a year is followed
by a dash.  A leap second is written as the sixty-first of its minute, and that is how it is told
from the second before it.
-/

namespace DeviceScript

/-! ## 1. Days of the calendar -/

namespace Date

/-- A day of an era of 400 years that begin in March: it lies in one of four centuries, of these in
one of 25 spans of four years, and of these in one of four years.  The last day of a span may be a
leap day, which is one too many for its last year. -/
theorem exists_dayOfEra {d : Nat} (hd : d < 146097) :
    ∃ c q t r, c ≤ 3 ∧ q ≤ 24 ∧ t ≤ 3 ∧ d = 36524 * c + (1461 * q + 365 * t + r) ∧
      (r < 365 ∨ r = 365 ∧ t = 3 ∧ (q = 24 → c = 3)) := by
  by_cases hlast : d = 146096
  · exact ⟨3, 24, 3, 365, by omega⟩
  · by_cases hleap : d % 36524 % 1461 = 1460
    · exact ⟨d / 36524, d % 36524 / 1461, 3, 365, by omega⟩
    · exact ⟨d / 36524, d % 36524 / 1461, d % 36524 % 1461 / 365, d % 36524 % 1461 % 365, by omega⟩

/-- The year of such a day. -/
theorem yearOfEra_eq {c q t r d : Nat} (hc : c ≤ 3) (hq : q ≤ 24) (ht : t ≤ 3)
    (hd : d = 36524 * c + (1461 * q + 365 * t + r))
    (hr : r < 365 ∨ r = 365 ∧ t = 3 ∧ (q = 24 → c = 3)) :
    (d - d / 1460 + d / 36524 - d / 146096) / 365 = 100 * c + 4 * q + t := by
  have h₁ : d / 1460 = 25 * c + q + (24 * c + q + 365 * t + r) / 1460 := by omega
  have h₂ : d / 36524 = c + d / 146096 := by
    by_cases hlast : d = 146096
    · have hc3 : c = 3 := by omega
      rw [hlast, hc3]
    · have hs : 1461 * q + 365 * t + r < 36524 := by omega
      generalize 1461 * q + 365 * t + r = s at hd hs
      omega
  have h₃ : (24 * c + q + 365 * t + r) / 1460 = 0 ∨
      (24 * c + q + 365 * t + r) / 1460 = 1 ∧ t = 3 ∧ 1 ≤ r := by
    omega
  rw [h₁, h₂]
  generalize (24 * c + q + 365 * t + r) / 1460 = e at *
  omega

/-- A year that begins in March ends with a leap day exactly if the year in which it ends has one.
-/
theorem isLeap_of_era {c q t : Nat} (era : Nat) (hc : c ≤ 3) (ht : t = 3) (hq : q ≤ 24)
    (hlast : q = 24 → c = 3) :
    isLeap ((100 * c + 4 * q + t + era * 400 : Nat) + 1) = true := by
  subst ht
  unfold isLeap
  by_cases h : q = 24
  · obtain rfl := hlast h
    subst h
    simp only [Bool.or_eq_true, decide_eq_true_eq]
    right
    omega
  · simp only [Bool.or_eq_true, Bool.and_eq_true, decide_eq_true_eq]
    left
    constructor
    · omega
    · intro hdvd
      omega

/-- The months from March on, as many days of the year before each of them as its first day says. -/
theorem isDay_of_dayOfYear {r : Nat} {year : Int} (hr : r < 365 ∨ r = 365 ∧ isLeap (year + 1) = true) :
    let shifted := (5 * r + 2) / 153
    let month := if shifted < 10 then shifted + 3 else shifted - 9
    1 ≤ month ∧ month ≤ 12 ∧
      r - (153 * shifted + 2) / 5 + 1 ≤ daysIn (year + if month ≤ 2 then 1 else 0) month := by
  intro shifted
  have hlow : 153 * shifted ≤ 5 * r + 2 := Nat.mul_div_le _ _
  have hhigh : 5 * r + 2 < 153 * shifted + 153 := Nat.lt_mul_div_succ _ (by omega)
  have hle : shifted ≤ 11 := by omega
  generalize shifted = s at hlow hhigh hle
  -- February is the last month of such a year
  by_cases hlast : s = 11
  · subst hlast
    rcases hr with hr | ⟨rfl, hleap⟩
    · refine ⟨by decide, by decide, ?_⟩
      have hshort : 28 ≤ daysIn (year + 1) 2 := by
        rw [daysIn, if_pos rfl]
        split <;> omega
      exact Nat.le_trans (by omega) hshort
    · simp [daysIn, hleap]
  · interval_cases s <;> simp [daysIn] <;> omega

/-- **Every day after the first of January 1970 is a day of the calendar**, as long as timestamps
reach its year. -/
theorem isValid_ofDayNumber (n : Nat) :
    (ofDayNumber n).isValid = yearInRange (ofDayNumber n).year := by
  obtain ⟨c, q, t, r, hc, hq, ht, hd, hr⟩ :=
    exists_dayOfEra (Nat.mod_lt (n + 719468) (by omega : 0 < 146097))
  have hyear := yearOfEra_eq hc hq ht hd hr
  have hday : (n + 719468) % 146097 - (365 * (100 * c + 4 * q + t) + (100 * c + 4 * q + t) / 4 -
      (100 * c + 4 * q + t) / 100) = r := by
    have h₄ : (100 * c + 4 * q + t) / 4 = 25 * c + q := by omega
    have h₁₀₀ : (100 * c + 4 * q + t) / 100 = c := by omega
    rw [hd, h₄, h₁₀₀]
    omega
  have hleap : r < 365 ∨ r = 365 ∧
      isLeap ((100 * c + 4 * q + t + (n + 719468) / 146097 * 400 : Nat) + 1) = true :=
    hr.imp_right fun ⟨h, ht', hlast⟩ => ⟨h, isLeap_of_era _ hc ht' hq hlast⟩
  obtain ⟨h₁, h₂, h₃⟩ := isDay_of_dayOfYear hleap
  rw [Bool.eq_iff_iff]
  simp only [isValid, ofDayNumber, hyear, hday, Bool.and_eq_true, decide_eq_true_eq]
  constructor
  · rintro ⟨⟨⟨⟨hreach, -⟩, -⟩, -⟩, -⟩
    exact hreach
  · intro hreach
    exact ⟨⟨⟨⟨hreach, h₁⟩, h₂⟩, Nat.succ_pos _⟩, h₃⟩

end Date

/-! ## 2. Numbers -/

namespace Timestamp

open Decimal (isDigit digitsFrom)
open Text (isBlank trimStart)

/-- What a number with at least so many digits looks like. -/
theorem toList_padded (width n : Nat) :
    (padded width n).toList =
      List.replicate (width - (Nat.toDigits 10 n).length) '0' ++ Nat.toDigits 10 n :=
  String.toList_ofList

theorem isDigit_of_mem_padded {width n : Nat} {c : Char} (hc : c ∈ (padded width n).toList) :
    isDigit c = true := by
  rw [toList_padded] at hc
  rcases List.mem_append.mp hc with hc | hc
  · rw [(List.mem_replicate.mp hc).2]
    rfl
  · exact Nat.isDigit_of_mem_toDigits (by decide) (by decide) hc

theorem digitsFrom_padded (width n : Nat) : digitsFrom 0 (padded width n).toList = n := by
  have hzeros : ∀ k, digitsFrom 0 (List.replicate k '0') = 0 := by
    intro k
    induction k with
    | zero => rfl
    | succ k ih => exact ih
  rw [toList_padded, digitsFrom, List.foldl_append]
  exact (congrArg (List.foldl _ · _) (hzeros _)).trans
    (Nat.ofDigitChars_toDigits (by decide) (by decide))

/-- A number below the power of ten has just the digits asked for. -/
theorem length_padded {width n : Nat} (hw : 0 < width) (hn : n < 10 ^ width) :
    (padded width n).toList.length = width := by
  have hle := (Nat.length_toDigits_le_iff (b := 10) (by decide) hw).mpr hn
  rw [toList_padded, List.length_append, List.length_replicate]
  omega

/-- A number has digits, and begins with no blank. -/
theorem exists_padded_eq_cons (width n : Nat) :
    ∃ c ds, (padded width n).toList = c :: ds ∧ isDigit c = true := by
  have hne : (padded width n).toList ≠ [] := by
    rw [toList_padded]
    exact List.append_ne_nil_of_right_ne_nil _
      (List.ne_nil_of_length_pos Nat.length_toDigits_pos)
  obtain ⟨c, ds, h⟩ := List.exists_cons_of_ne_nil hne
  exact ⟨c, ds, h, isDigit_of_mem_padded (h ▸ List.mem_cons_self)⟩

theorem isBlank_of_isDigit {c : Char} (h : isDigit c = true) : isBlank c = false := by
  have hc : 48 ≤ c.toNat ∧ c.toNat ≤ 57 := by
    simpa [isDigit, Char.le_def, UInt32.le_iff_toNat_le] using h
  simp only [isBlank, Bool.or_eq_false_iff, Bool.and_eq_false_iff, decide_eq_false_iff_not,
    beq_eq_false_iff_ne]
  omega

theorem trimStart_of_isDigit {c : Char} (h : isDigit c = true) (r : List Char) :
    trimStart (c :: r) = c :: r :=
  List.dropWhile_cons_of_neg (Bool.eq_false_iff.mp (isBlank_of_isDigit h))

theorem trimStart_padded (width n : Nat) (r : List Char) :
    trimStart ((padded width n).toList ++ r) = (padded width n).toList ++ r := by
  obtain ⟨c, ds, hds, hc⟩ := exists_padded_eq_cons width n
  rw [hds]
  exact trimStart_of_isDigit hc _

/-- **A written number is read back**, if it has as many digits as there may be, or is followed by
something else. -/
theorem readNumber?_padded {width w n : Nat} {r : List Char}
    (h : (padded w n).toList.length = width ∨
      (padded w n).toList.length ≤ width ∧ r.takeWhile isDigit = []) :
    readNumber? width ((padded w n).toList ++ r) = some (n, r) := by
  have hdigits : (((padded w n).toList ++ r).takeWhile isDigit).take width =
      (padded w n).toList := by
    rw [List.takeWhile_append_of_pos fun c => isDigit_of_mem_padded]
    rcases h with h | ⟨hle, hr⟩
    · rw [← h, List.take_left]
    · rw [hr, List.append_nil, List.take_of_length_le hle]
  obtain ⟨c, ds, hds, -⟩ := exists_padded_eq_cons w n
  have hne : (padded w n).toList.isEmpty = false := by
    rw [hds]
    rfl
  simp only [readNumber?, hdigits, hne, digitsFrom_padded, List.drop_left, Bool.false_eq_true,
    if_false]

theorem readPair?_padded {n : Nat} (hn : n < 100) (r : List Char) :
    readPair? ((padded 2 n).toList ++ r) = some (n, r) := by
  rw [readPair?, trimStart_padded]
  exact readNumber?_padded (.inl (length_padded (by decide) hn))

/-- Digits after a sign go on to the dash. -/
theorem readNumber?_padded_dash (w n : Nat) (r : List Char) :
    readNumber? ((padded w n).toList ++ '-' :: r).length ((padded w n).toList ++ '-' :: r) =
      some (n, '-' :: r) := by
  refine readNumber?_padded (.inr ⟨?_, rfl⟩)
  rw [List.length_append]
  exact Nat.le_add_right _ _

theorem readYear?_minus (r : List Char) :
    readYear? ('-' :: r) = (readNumber? r.length r).map fun x => (-(x.1 : Int), x.2) :=
  rfl

theorem readYear?_plus (r : List Char) :
    readYear? ('+' :: r) = (readNumber? r.length r).map fun x => ((x.1 : Int), x.2) :=
  rfl

/-- **A year is read back**, since a dash follows it. -/
theorem readYear?_yearText (year : Int) (r : List Char) :
    readYear? ((yearText year).toList ++ '-' :: r) = some (year, '-' :: r) := by
  by_cases h : 0 ≤ year ∧ year ≤ 9999
  · obtain ⟨c, ds, hds, hc⟩ := exists_padded_eq_cons 4 year.toNat
    have hlen : (padded 4 year.toNat).toList.length = 4 := length_padded (by decide) (by omega)
    have hread := readNumber?_padded (r := '-' :: r) (.inl hlen)
    rw [yearText, if_pos h, readYear?, trimStart_padded]
    rw [hds] at hread ⊢
    split
    · rename_i he
      rw [(List.cons.inj he).1] at hc
      cases hc
    · rename_i he
      rw [(List.cons.inj he).1] at hc
      cases hc
    · rw [hread, Option.map_some]
      exact congrArg (some <| Prod.mk · _) (Int.toNat_of_nonneg h.1)
  · rw [yearText, if_neg h, String.toList_append]
    by_cases hneg : year < 0
    · have hyear : -(year.natAbs : Int) = year := by omega
      have hsign : "-".toList = ['-'] := rfl
      rw [if_pos hneg, hsign, List.singleton_append, List.cons_append, readYear?_minus,
        readNumber?_padded_dash, Option.map_some, hyear]
    · have hyear : (year.natAbs : Int) = year := by omega
      have hsign : "+".toList = ['+'] := rfl
      rw [if_neg hneg, hsign, List.singleton_append, List.cons_append, readYear?_plus,
        readNumber?_padded_dash, Option.map_some, hyear]

/-- A fraction is read back whose digits are exactly those that the text has. -/
theorem readFraction?_padded (width : Nat) {n : Nat} (hw : 0 < width) (hle : width ≤ 9)
    (hn : n < 10 ^ width) (r : List Char) (hr : r.takeWhile isDigit = []) :
    readFraction? ('.' :: ((padded width n).toList ++ r)) = some (n * 10 ^ (9 - width), r) := by
  have hlen := length_padded hw hn
  have hdigits : ((padded width n).toList ++ r).takeWhile isDigit = (padded width n).toList := by
    rw [List.takeWhile_append_of_pos fun c => isDigit_of_mem_padded, hr, List.append_nil]
  have hrest : ((padded width n).toList ++ r).dropWhile isDigit = r := by
    have h := List.takeWhile_append_dropWhile (p := isDigit) (l := (padded width n).toList ++ r)
    rw [hdigits] at h
    exact List.append_cancel_left h
  have hkept : (padded width n).toList.take 9 = (padded width n).toList :=
    List.take_of_length_le (hlen.trans_le hle)
  obtain ⟨c, ds, hds, -⟩ := exists_padded_eq_cons width n
  have hne : (padded width n).toList.isEmpty = false := by
    rw [hds]
    rfl
  simp only [readFraction?, hdigits, hkept, hrest, hne, digitsFrom_padded, hlen,
    Bool.false_eq_true, if_false]
  rfl

/-- **A fraction of a second is read back**, whichever number of digits gives it exactly. -/
theorem readFraction?_fractionText {nano : Nat} (hn : nano < 10 ^ 9) :
    readFraction? ((fractionText nano).toList ++ ['Z']) = some (nano, ['Z']) := by
  unfold fractionText
  split
  · rename_i h
    rw [h]
    rfl
  · split
    · rename_i h
      have hread := readFraction?_padded 3 (n := nano / 1000000) (by decide) (by decide)
        (by omega) ['Z'] rfl
      have hwhole : nano / 1000000 * 10 ^ (9 - 3) = nano :=
        Nat.div_mul_cancel (Nat.dvd_of_mod_eq_zero h)
      rw [hwhole] at hread
      rw [String.toList_append]
      exact hread
    · split
      · rename_i h
        have hread := readFraction?_padded 6 (n := nano / 1000) (by decide) (by decide)
          (by omega) ['Z'] rfl
        have hwhole : nano / 1000 * 10 ^ (9 - 6) = nano :=
          Nat.div_mul_cancel (Nat.dvd_of_mod_eq_zero h)
        rw [hwhole] at hread
        rw [String.toList_append]
        exact hread
      · rw [String.toList_append]
        refine (readFraction?_padded 9 (by decide) (by decide) hn ['Z'] rfl).trans ?_
        rw [Nat.sub_self, Nat.pow_zero, Nat.mul_one]

/-! ## 3. Moments -/

/-- A moment that exists, in a year that timestamps reach.  Only the last second of a minute can
have a leap second after it. -/
structure IsMoment (t : Timestamp) : Prop where
  date : t.date.isValid = true
  hour : t.hour < 24
  minute : t.minute < 60
  second : t.second < 60
  nano : t.nano < 1000000000 ∨ t.second = 59 ∧ t.nano < 2000000000

/-- A clock that counts thousandths of a second shows moments that exist, as long as timestamps
reach the year. -/
theorem isMoment_ofMillis {ms : Nat} (h : Date.yearInRange (ofMillis ms).date.year = true) :
    (ofMillis ms).IsMoment where
  date := (Date.isValid_ofDayNumber _).trans h
  hour := Nat.mod_lt _ (by decide)
  minute := Nat.mod_lt _ (by decide)
  second := Nat.mod_lt _ (by decide)
  nano := by
    left
    change ms % 1000 * 1000000 < 1000000000
    omega

/-- A day of the calendar has a month and a day of two digits at most. -/
theorem lt_of_isValid {d : Date} (h : d.isValid = true) : d.month < 100 ∧ d.day < 100 := by
  have hmax : Date.daysIn d.year d.month ≤ 31 := by
    unfold Date.daysIn
    split
    · split <;> decide
    · split <;> decide
  simp only [Date.isValid, Bool.and_eq_true, decide_eq_true_eq] at h
  omega

/-- A clock that shows universal time shows the moment itself. -/
theorem atOffset_zero {date : Date} {hour minute second nano : Nat} (hh : hour < 24)
    (hm : minute < 60) :
    atOffset 0 date hour minute second nano = ⟨date, hour, minute, second, nano⟩ := by
  have hlow : ¬ (hour * 60 + minute - 0 : Int) < 0 := by omega
  have hhigh : ¬ (hour * 60 + minute - 0 : Int) ≥ 1440 := by omega
  have hhour : (hour * 60 + minute - 0 : Int).toNat / 60 = hour := by omega
  have hminute : (hour * 60 + minute - 0 : Int).toNat % 60 = minute := by omega
  simp only [atOffset, if_neg hlow, if_neg hhigh, hhour, hminute]

/-- The moment with these numbers, if there is one. -/
def ofNumbers? (date : Date) (hour minute second nano : Nat) (offset : Int) : Option Timestamp := do
  if !date.isValid ∨ hour ≥ 24 ∨ minute ≥ 60 ∨ second > 60 then none
  let t :=
    if second = 60 then atOffset offset date hour minute 59 (nano + 1000000000)
    else atOffset offset date hour minute second nano
  if t.date.isValid then some t else none

/-- The numbers that are written of a moment are those of that moment. -/
theorem ofNumbers?_of_isMoment {t : Timestamp} (h : t.IsMoment) :
    ofNumbers? t.date t.hour t.minute (t.second + t.nano / 1000000000) (t.nano % 1000000000) 0 =
      some t := by
  obtain ⟨date, hour, minute, second, nano⟩ := t
  obtain ⟨hdate, hhour, hminute, hsecond, hnano⟩ := h
  simp only at hdate hhour hminute hsecond hnano
  have hexists : ¬ ((!date.isValid) = true ∨ hour ≥ 24 ∨ minute ≥ 60 ∨
      second + nano / 1000000000 > 60) := by
    rw [hdate]
    rintro (h | h | h | h)
    · cases h
    all_goals omega
  refine (if_neg hexists).trans ?_
  rcases hnano with hnano | ⟨rfl, hnano⟩
  · have hwhole : second + nano / 1000000000 = second := by omega
    simp only [hwhole, if_neg (show ¬ second = 60 by omega), Nat.mod_eq_of_lt hnano,
      atOffset_zero hhour hminute, hdate, if_true]
  · by_cases hleap : nano < 1000000000
    · simp only [Nat.div_eq_of_lt hleap, if_neg (show ¬ 59 + 0 = 60 by decide), Nat.add_zero,
        Nat.mod_eq_of_lt hleap, atOffset_zero hhour hminute, hdate, if_true]
    · have hwhole : 59 + nano / 1000000000 = 60 := by omega
      have hrest : nano % 1000000000 + 1000000000 = nano := by omega
      simp only [hwhole, hrest, atOffset_zero hhour hminute, hdate, if_true]

/-- **What is written is read back.** -/
theorem read?_text {t : Timestamp} (h : t.IsMoment) : read? t.text = some t := by
  have hnumbers := ofNumbers?_of_isMoment h
  obtain ⟨⟨year, month, day⟩, hour, minute, second, nano⟩ := t
  obtain ⟨hdate, hhour, hminute, hsecond, hnano⟩ := h
  obtain ⟨hmonth, hday⟩ := lt_of_isValid hdate
  simp only at hmonth hday hhour hminute hsecond hnano
  have hshown : second + nano / 1000000000 < 100 := by omega
  have hfraction : nano % 1000000000 < 10 ^ 9 := Nat.mod_lt _ (by decide)
  have htext : (⟨⟨year, month, day⟩, hour, minute, second, nano⟩ : Timestamp).text.toList =
      (yearText year).toList ++ '-' :: ((padded 2 month).toList ++ '-' ::
        ((padded 2 day).toList ++ 'T' :: ((padded 2 hour).toList ++ ':' ::
          ((padded 2 minute).toList ++ ':' :: ((padded 2 (second + nano / 1000000000)).toList ++
            ((fractionText (nano % 1000000000)).toList ++ ['Z'])))))) := by
    simp [text, clockText]
  rw [read?, htext]
  unfold readChars?
  refine Option.bind_eq_some_iff.mpr ⟨_, readYear?_yearText year _, ?_⟩
  refine Option.bind_eq_some_iff.mpr ⟨_, rfl, ?_⟩
  refine Option.bind_eq_some_iff.mpr ⟨_, readPair?_padded hmonth _, ?_⟩
  refine Option.bind_eq_some_iff.mpr ⟨_, rfl, ?_⟩
  refine Option.bind_eq_some_iff.mpr ⟨_, readPair?_padded hday _, ?_⟩
  refine Option.bind_eq_some_iff.mpr ⟨_, rfl, ?_⟩
  refine (if_neg fun h => h.1 rfl).trans ?_
  refine Option.bind_eq_some_iff.mpr ⟨_, readPair?_padded (show hour < 100 by omega) _, ?_⟩
  refine Option.bind_eq_some_iff.mpr ⟨_, rfl, ?_⟩
  refine Option.bind_eq_some_iff.mpr ⟨_, readPair?_padded (show minute < 100 by omega) _, ?_⟩
  refine Option.bind_eq_some_iff.mpr ⟨_, rfl, ?_⟩
  refine Option.bind_eq_some_iff.mpr ⟨_, readPair?_padded hshown _, ?_⟩
  refine Option.bind_eq_some_iff.mpr ⟨_, readFraction?_fractionText hfraction, ?_⟩
  refine Option.bind_eq_some_iff.mpr ⟨_, rfl, ?_⟩
  -- nothing is left to be read
  have hend : ¬ (!(trimStart []).isEmpty) = true := nofun
  exact (if_neg hend).trans hnumbers

/-! ## 4. What can be read -/

/-- Digits denote a number below the power of ten. -/
theorem digitsFrom_lt {ds : List Char} (hds : ∀ c ∈ ds, isDigit c = true) {seen k : Nat}
    (hseen : seen < 10 ^ k) : digitsFrom seen ds < 10 ^ (k + ds.length) := by
  induction ds generalizing seen k with
  | nil => exact hseen
  | cons c r ih =>
    have hc : c.toNat ≤ 57 := by
      have h := hds c List.mem_cons_self
      simp only [isDigit, Bool.and_eq_true, decide_eq_true_eq, Char.le_def,
        UInt32.le_iff_toNat_le] at h
      exact h.2
    have hnext : 10 * seen + (c.toNat - '0'.toNat) < 10 ^ (k + 1) := by
      have hzero : '0'.toNat = 48 := rfl
      rw [hzero, Nat.pow_succ]
      omega
    have h := ih (fun x hx => hds x (List.mem_cons_of_mem c hx)) hnext
    rwa [List.length_cons, Nat.add_comm r.length 1, ← Nat.add_assoc]

/-- A fraction that is read is less than a second. -/
theorem lt_of_readFraction? {cs r : List Char} {nano : Nat}
    (h : readFraction? cs = some (nano, r)) : nano < 1000000000 := by
  unfold readFraction? at h
  split at h
  · rename_i ds
    simp only at h
    split at h
    · cases h
    · obtain ⟨rfl, -⟩ := Prod.mk.inj (Option.some.inj h)
      have hlen : ((ds.takeWhile isDigit).take 9).length ≤ 9 := List.length_take_le 9 _
      have hdigits : ∀ c ∈ (ds.takeWhile isDigit).take 9, isDigit c = true := fun c hc =>
        List.all_eq_true.mp List.all_takeWhile c (List.mem_of_mem_take hc)
      have hlt : digitsFrom 0 ((ds.takeWhile isDigit).take 9) <
          10 ^ (0 + ((ds.takeWhile isDigit).take 9).length) :=
        digitsFrom_lt hdigits (by decide)
      generalize (ds.takeWhile isDigit).take 9 = kept at hlen hlt
      rw [Nat.zero_add] at hlt
      calc digitsFrom 0 kept * 10 ^ (9 - kept.length)
          < 10 ^ kept.length * 10 ^ (9 - kept.length) :=
            Nat.mul_lt_mul_of_pos_right hlt (Nat.pow_pos (by decide))
        _ = 10 ^ 9 := by rw [← Nat.pow_add, Nat.add_sub_cancel' hlen]
  · obtain ⟨rfl, -⟩ := Prod.mk.inj (Option.some.inj h)
    decide

/-- An offset that is read is less than a day. -/
theorem natAbs_lt_of_readOffset? {cs r : List Char} {offset : Int}
    (h : readOffset? cs = some (offset, r)) : offset.natAbs < 1440 := by
  unfold readOffset? at h
  split at h
  · obtain ⟨rfl, -⟩ := Prod.mk.inj (Option.some.inj h)
    decide
  · obtain ⟨rfl, -⟩ := Prod.mk.inj (Option.some.inj h)
    decide
  · split at h
    · obtain ⟨rfl, -⟩ := Prod.mk.inj (Option.some.inj h)
      decide
    · rename_i s _ _ _ _
      by_cases hsign : s ≠ '+' ∧ s ≠ '-' ∧ s.toNat ≠ 0x2212
      · rw [if_pos hsign] at h
        cases h
      · rw [if_neg hsign] at h
        obtain ⟨⟨hours, r₁⟩, -, h⟩ := Option.bind_eq_some_iff.mp h
        obtain ⟨⟨minutes, r₂⟩, -, h⟩ := Option.bind_eq_some_iff.mp h
        dsimp only at h
        by_cases hrange : minutes ≥ 60 ∨ hours ≥ 24
        · rw [if_pos hrange] at h
          cases h
        · rw [if_neg hrange] at h
          obtain ⟨rfl, -⟩ := Prod.mk.inj (Option.some.inj h)
          split <;> omega
  · cases h

/-- An offset of less than a day leaves a time of day. -/
theorem atOffset_isTime {offset : Int} (ho : offset.natAbs < 1440) (date : Date)
    {hour minute : Nat} (hh : hour < 24) (hm : minute < 60) (second nano : Nat) :
    (atOffset offset date hour minute second nano).hour < 24 ∧
      (atOffset offset date hour minute second nano).minute < 60 ∧
      (atOffset offset date hour minute second nano).second = second ∧
      (atOffset offset date hour minute second nano).nano = nano := by
  refine ⟨?_, Nat.mod_lt _ (by decide), rfl, rfl⟩
  simp only [atOffset]
  split
  · simp only
    omega
  · split
    · simp only
      omega
    · simp only
      omega

/-- What numbers denote is a moment that exists. -/
theorem isMoment_of_ofNumbers? {date : Date} {hour minute second nano : Nat} {offset : Int}
    {t : Timestamp} (hn : nano < 1000000000) (ho : offset.natAbs < 1440)
    (h : ofNumbers? date hour minute second nano offset = some t) : t.IsMoment := by
  unfold ofNumbers? at h
  by_cases hexists : (!date.isValid) = true ∨ hour ≥ 24 ∨ minute ≥ 60 ∨ second > 60
  · cases (if_pos hexists).symm.trans h
  replace h := (if_neg hexists).symm.trans h
  simp only [not_or, Bool.not_eq_true, Bool.not_eq_false'] at hexists
  obtain ⟨-, hhour, hminute, hsecond⟩ := hexists
  have htime := atOffset_isTime ho date (Nat.lt_of_not_le hhour) (Nat.lt_of_not_le hminute)
  by_cases hleap : second = 60
  · rw [if_pos hleap] at h
    obtain ⟨hdate, h⟩ := Option.ite_none_right_eq_some.mp h
    obtain rfl := Option.some.inj h
    obtain ⟨h₁, h₂, h₃, h₄⟩ := htime 59 (nano + 1000000000)
    exact ⟨hdate, h₁, h₂, by rw [h₃]; decide, .inr ⟨h₃, by rw [h₄]; omega⟩⟩
  · rw [if_neg hleap] at h
    obtain ⟨hdate, h⟩ := Option.ite_none_right_eq_some.mp h
    obtain rfl := Option.some.inj h
    obtain ⟨h₁, h₂, h₃, h₄⟩ := htime second nano
    exact ⟨hdate, h₁, h₂, by rw [h₃]; omega, .inl (by rw [h₄]; exact hn)⟩

/-- **What is read is a moment that exists.** -/
theorem isMoment_of_read? {s : String} {t : Timestamp} (h : read? s = some t) : t.IsMoment := by
  unfold read? readChars? at h
  obtain ⟨⟨year, r⟩, -, h⟩ := Option.bind_eq_some_iff.mp h
  obtain ⟨r, -, h⟩ := Option.bind_eq_some_iff.mp h
  obtain ⟨⟨month, r⟩, -, h⟩ := Option.bind_eq_some_iff.mp h
  obtain ⟨r, -, h⟩ := Option.bind_eq_some_iff.mp h
  obtain ⟨⟨day, r⟩, -, h⟩ := Option.bind_eq_some_iff.mp h
  cases r with
  | nil => cases h
  | cons sep r =>
  by_cases hsep : sep ≠ 'T' ∧ sep ≠ 't' ∧ sep ≠ ' '
  · cases (if_pos hsep).symm.trans h
  replace h := (if_neg hsep).symm.trans h
  obtain ⟨⟨hour, r⟩, -, h⟩ := Option.bind_eq_some_iff.mp h
  obtain ⟨r, -, h⟩ := Option.bind_eq_some_iff.mp h
  obtain ⟨⟨minute, r⟩, -, h⟩ := Option.bind_eq_some_iff.mp h
  obtain ⟨r, -, h⟩ := Option.bind_eq_some_iff.mp h
  obtain ⟨⟨second, r⟩, -, h⟩ := Option.bind_eq_some_iff.mp h
  obtain ⟨⟨nano, r⟩, hnano, h⟩ := Option.bind_eq_some_iff.mp h
  obtain ⟨⟨offset, r⟩, hoffset, h⟩ := Option.bind_eq_some_iff.mp h
  by_cases hend : (!(trimStart r).isEmpty) = true
  · cases (if_pos hend).symm.trans h
  · exact isMoment_of_ofNumbers? (lt_of_readFraction? hnano) (natAbs_lt_of_readOffset? hoffset)
      ((if_neg hend).symm.trans h)

/-- **The moments that texts denote** are the moments that exist. -/
theorem exists_read?_iff {t : Timestamp} : (∃ s, read? s = some t) ↔ t.IsMoment :=
  ⟨fun ⟨_, h⟩ => isMoment_of_read? h, fun h => ⟨t.text, read?_text h⟩⟩

end Timestamp

end DeviceScript
