/-!
# Lines of a text

A line ends at a line feed, and one carriage return just before that line feed belongs to the
ending.  What follows the last line feed is a line of its own unless it is empty, and there a
carriage return stays.  `lines_unlines` reads back any list of lines that were each ended by a
line feed.
-/

namespace DeviceScript.Text

/-- A line, held backwards, without the carriage return of its ending. -/
def dropReturn : List Char → List Char
  | '\r' :: r => r
  | l => l

/-- The lines of the rest of a text, `held` being the part of the current line already read, held
backwards. -/
def linesFrom (held : List Char) : List Char → List (List Char)
  | [] => if held.isEmpty then [] else [held.reverse]
  | c :: r =>
    if c = '\n' then (dropReturn held).reverse :: linesFrom [] r
    else linesFrom (c :: held) r

/-- The lines of a text. -/
def lines (cs : List Char) : List (List Char) :=
  linesFrom [] cs

/-- The text that ends each line with a line feed. -/
def unlines : List (List Char) → List Char
  | [] => []
  | l :: r => l ++ '\n' :: unlines r

theorem linesFrom_append {l : List Char} (hl : '\n' ∉ l) (held r : List Char) :
    linesFrom held (l ++ r) = linesFrom (l.reverse ++ held) r := by
  induction l generalizing held with
  | nil => rfl
  | cons c l ih =>
    have hc : c ≠ '\n' := fun h => hl (h ▸ List.mem_cons_self)
    have hl' : '\n' ∉ l := fun h => hl (List.mem_cons_of_mem _ h)
    simp [linesFrom, hc, ih hl']

/-- A held line that does not end in a carriage return is kept whole. -/
theorem dropReturn_reverse {l : List Char} (h : l.getLast? ≠ some '\r') :
    dropReturn l.reverse = l.reverse := by
  rw [← List.head?_reverse] at h
  cases hr : l.reverse with
  | nil => rfl
  | cons c r =>
    rw [hr] at h
    unfold dropReturn
    split
    · rename_i heq; simp_all
    · rfl

/-- Lines that were each ended by a line feed read back as they were, provided none of them
holds a line feed or ends in a carriage return. -/
theorem lines_unlines {ls : List (List Char)}
    (h : ∀ l ∈ ls, '\n' ∉ l ∧ l.getLast? ≠ some '\r') : lines (unlines ls) = ls := by
  induction ls with
  | nil => rfl
  | cons l r ih =>
    have hl := h l List.mem_cons_self
    have hr := ih fun x hx => h x (List.mem_cons_of_mem _ hx)
    simp only [lines] at hr ⊢
    rw [unlines, linesFrom_append hl.1]
    simp [linesFrom, dropReturn_reverse hl.2, hr]

end DeviceScript.Text
