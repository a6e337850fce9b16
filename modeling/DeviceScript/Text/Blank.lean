/-!
# White space

Script lines and device names are divided by white space in the sense of the Unicode property
`White_Space`.  The property is given here as a test on characters (`isBlank`), and the cuts that
the rest of the library makes are functions on lists of characters: trimming at both ends
(`trim`), the first word (`firstWord`), and the split at the first blank (`splitAtBlank`).

A cut loses nothing but blanks: `takeWhile_append_trimStart` and `trimEnd_append_blanks` put a text
together again from what trimming kept and what it dropped.
-/

namespace DeviceScript.Text

/-! ## 1. The property -/

/-- A character with the Unicode property `White_Space`. -/
def isBlank (c : Char) : Bool :=
  let n := c.toNat
  (0x09 ≤ n && n ≤ 0x0D) || n == 0x20 || n == 0x85 || n == 0xA0 || n == 0x1680 ||
    (0x2000 ≤ n && n ≤ 0x200A) || n == 0x2028 || n == 0x2029 || n == 0x202F || n == 0x205F ||
    n == 0x3000

/-- A text with no character but blanks; the empty text is one. -/
def allBlank (cs : List Char) : Bool :=
  cs.all isBlank

/-- Every blank of the ASCII class is a blank here. -/
theorem isBlank_of_isWhitespace {c : Char} (h : c.isWhitespace = true) : isBlank c = true := by
  simp only [Char.isWhitespace, Bool.or_eq_true, decide_eq_true_eq] at h
  rcases h with ((rfl | rfl) | rfl) | rfl <;> decide

/-! ## 2. Trimming -/

/-- The text without the blanks it begins with. -/
def trimStart (cs : List Char) : List Char :=
  cs.dropWhile isBlank

/-- The text without the blanks it ends with. -/
def trimEnd (cs : List Char) : List Char :=
  (cs.reverse.dropWhile isBlank).reverse

/-- The text without the blanks at either end. -/
def trim (cs : List Char) : List Char :=
  trimEnd (trimStart cs)

/-- A text without the blanks at either end. -/
def trimmed (s : String) : String :=
  String.ofList (trim s.toList)

/-- Trimming the front drops the leading blanks and nothing else. -/
theorem takeWhile_append_trimStart (cs : List Char) :
    cs.takeWhile isBlank ++ trimStart cs = cs :=
  List.takeWhile_append_dropWhile

/-- Trimming the back drops the trailing blanks and nothing else. -/
theorem trimEnd_append_blanks (cs : List Char) :
    trimEnd cs ++ (cs.reverse.takeWhile isBlank).reverse = cs := by
  rw [trimEnd, ← List.reverse_append, List.takeWhile_append_dropWhile, List.reverse_reverse]

/-- A text whose front was trimmed begins with no blank. -/
theorem isBlank_of_head?_trimStart {cs : List Char} {c : Char}
    (h : (trimStart cs).head? = some c) : isBlank c = false := by
  have hn := List.head?_dropWhile_not isBlank cs
  rw [← trimStart, h] at hn
  exact hn

/-- Trimming keeps the front of exactly the texts that begin with no blank. -/
theorem trimStart_eq_self_iff {cs : List Char} :
    trimStart cs = cs ↔ ∀ c, cs.head? = some c → isBlank c = false := by
  cases cs with
  | nil => simp [trimStart]
  | cons c r =>
    by_cases h : isBlank c = true
    · have hle : (trimStart (c :: r)).length ≤ r.length := by
        rw [trimStart, List.dropWhile_cons_of_pos h]
        exact (List.dropWhile_suffix isBlank).length_le
      constructor
      · intro he
        rw [he, List.length_cons] at hle
        exact absurd hle (Nat.not_succ_le_self _)
      · intro hc
        rw [hc c rfl] at h
        cases h
    · simp [trimStart, h]

/-- Trimming keeps the back of exactly the texts that end with no blank. -/
theorem trimEnd_eq_self_iff {cs : List Char} :
    trimEnd cs = cs ↔ ∀ c, cs.getLast? = some c → isBlank c = false := by
  rw [← List.head?_reverse, ← trimStart_eq_self_iff, trimEnd, trimStart, List.reverse_eq_iff]

/-- Trimming keeps exactly the texts without a blank at either end. -/
theorem trim_eq_self_iff {cs : List Char} :
    trim cs = cs ↔ (∀ c, cs.head? = some c → isBlank c = false) ∧
      ∀ c, cs.getLast? = some c → isBlank c = false := by
  rw [← trimStart_eq_self_iff, ← trimEnd_eq_self_iff]
  constructor
  · intro h
    have hlen : (trimEnd (trimStart cs)).length ≤ (trimStart cs).length := by
      have hd : ((trimStart cs).reverse.dropWhile isBlank).length ≤
          (trimStart cs).reverse.length :=
        (List.dropWhile_suffix isBlank).length_le
      rwa [List.length_reverse, ← List.length_reverse] at hd
    have hs : trimStart cs = cs := by
      refine (List.dropWhile_suffix isBlank).eq_of_length_le ?_
      rwa [← trim, h] at hlen
    refine ⟨hs, ?_⟩
    rwa [trim, hs] at h
  · rintro ⟨hs, he⟩
    rw [trim, hs, he]

/-! ## 3. Words -/

/-- The text before the first blank, and the text after that blank.  A text without a blank is all
in the first part. -/
def splitAtBlank (cs : List Char) : List Char × List Char :=
  (cs.takeWhile (!isBlank ·), (cs.dropWhile (!isBlank ·)).drop 1)

/-- The first part of a split holds no blank. -/
theorem splitAtBlank_fst_free (cs : List Char) :
    ∀ c ∈ (splitAtBlank cs).1, isBlank c = false := by
  intro c hc
  have h : (cs.takeWhile (!isBlank ·)).all (!isBlank ·) = true := List.all_takeWhile
  simpa using List.all_eq_true.mp h c hc

/-- The first word of a text, if it has one. -/
def firstWord (cs : List Char) : Option (List Char) :=
  match trimStart cs with
  | [] => none
  | c :: r => some (splitAtBlank (c :: r)).1

/-- A text has no first word exactly when it is all blanks. -/
theorem firstWord_eq_none_iff {cs : List Char} : firstWord cs = none ↔ allBlank cs = true := by
  induction cs with
  | nil => simp [firstWord, trimStart, allBlank]
  | cons c r ih =>
    by_cases h : isBlank c = true
    · simpa [firstWord, trimStart, allBlank, h] using ih
    · simp [firstWord, trimStart, allBlank, h]

end DeviceScript.Text
