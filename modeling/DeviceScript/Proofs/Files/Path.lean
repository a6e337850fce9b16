import DeviceScript.Files.Path
import Mathlib.Data.List.DropRight
/-!
# The steps of paths

Where a path leads depends on where it begins, on its steps, and on whether its last piece is a step
at all, since a file has nothing behind it (`Path.namesFile`).  Here these three are found for the
paths that are made from other paths: a path taken from a directory takes the steps of the directory
first (`Path.steps_join`), and the directory of a path lacks its last step (`Path.exists_parent?`).
-/

namespace DeviceScript.Path

variable {cs a b held : List Char} {c : Char} {ps : List (List Char)} {dir p : Path}

/-! ## 1. Pieces -/

/-- There is always a piece. -/
theorem piecesFrom_ne_nil : piecesFrom held cs ≠ [] := by
  induction cs generalizing held with
  | nil => exact List.cons_ne_nil _ _
  | cons c cs ih =>
    rw [piecesFrom]
    split
    · exact List.cons_ne_nil _ _
    · exact ih

/-- A slash ends a piece and begins another. -/
theorem piecesFrom_append :
    piecesFrom held (a ++ '/' :: b) = piecesFrom held a ++ piecesFrom [] b := by
  induction a generalizing held with
  | nil => simp [piecesFrom]
  | cons c a ih =>
    simp only [List.cons_append, piecesFrom]
    split <;> simp [ih]

/-- A text without a slash is one piece. -/
theorem piecesFrom_of_notMem (h : '/' ∉ cs) : piecesFrom held cs = [held.reverse ++ cs] := by
  induction cs generalizing held with
  | nil => simp [piecesFrom]
  | cons c cs ih =>
    rw [List.mem_cons, not_or] at h
    rw [piecesFrom, if_neg (Ne.symm h.1), ih h.2]
    simp

/-- The first pieces of a text, put together again, are its beginning. -/
theorem isPrefix_intercalate (h : ps <+: piecesFrom held cs) :
    List.intercalate ['/'] ps <+: held.reverse ++ cs := by
  induction cs generalizing held ps with
  | nil =>
    rcases List.prefix_cons_iff.mp h with rfl | ⟨qs, rfl, hqs⟩
    · exact List.nil_prefix
    · rw [List.prefix_nil.mp hqs, List.intercalate_singleton]
      exact List.prefix_append _ _
  | cons c cs ih =>
    rw [piecesFrom] at h
    split at h
    · rename_i hc
      rcases List.prefix_cons_iff.mp h with rfl | ⟨qs, rfl, hqs⟩
      · exact List.nil_prefix
      · cases qs with
        | nil =>
          rw [List.intercalate_singleton]
          exact List.prefix_append _ _
        | cons x qs =>
          rw [List.intercalate_cons_cons, hc, List.append_assoc]
          refine (List.prefix_append_right_inj _).mpr (List.cons_prefix_cons.mpr ⟨rfl, ?_⟩)
          exact ih hqs
    · have hp := ih h
      rwa [List.reverse_cons, List.append_assoc] at hp

/-- There is no slash in a piece. -/
theorem notMem_of_mem_piecesFrom (hh : '/' ∉ held) : ∀ x ∈ piecesFrom held cs, '/' ∉ x := by
  induction cs generalizing held with
  | nil => simpa [piecesFrom] using hh
  | cons c cs ih =>
    rw [piecesFrom]
    split
    · rw [List.forall_mem_cons]
      exact ⟨by simpa using hh, ih List.not_mem_nil⟩
    · rename_i hc
      exact ih (by simp [Ne.symm hc, hh])

/-- Each character other than a slash is in a piece, and there are no others. -/
theorem exists_mem_piecesFrom_iff (held cs : List Char) (hc : c ≠ '/') :
    (∃ x ∈ piecesFrom held cs, c ∈ x) ↔ c ∈ held ∨ c ∈ cs := by
  induction cs generalizing held with
  | nil => simp [piecesFrom]
  | cons d cs ih =>
    rw [piecesFrom]
    split
    · rename_i hd
      rw [List.exists_mem_cons_iff, ih]
      simp [hd, hc]
    · rw [ih]
      simp [or_left_comm, or_assoc]

/-! ## 2. Steps -/

/-- The pieces of a text that lead somewhere. -/
def stepsOf (cs : List Char) : List (List Char) :=
  (piecesFrom [] cs).filter (!isIdle ·)

theorem stepsOf_append : stepsOf (a ++ '/' :: b) = stepsOf a ++ stepsOf b := by
  rw [stepsOf, piecesFrom_append, List.filter_append]
  rfl

theorem stepsOf_slash : stepsOf ('/' :: cs) = stepsOf cs := by
  rw [← List.nil_append ('/' :: cs), stepsOf_append]
  rfl

/-- Steps that are put together again are the steps they were. -/
theorem stepsOf_intercalate (h : ∀ x ∈ ps, '/' ∉ x) :
    stepsOf (List.intercalate ['/'] ps) = ps.filter (!isIdle ·) := by
  induction ps with
  | nil => rfl
  | cons x ps ih =>
    obtain ⟨hx, hps⟩ := List.forall_mem_cons.mp h
    have hfirst : stepsOf x = [x].filter (!isIdle ·) := by
      rw [stepsOf, piecesFrom_of_notMem hx, List.reverse_nil, List.nil_append]
    cases ps with
    | nil => rw [List.intercalate_singleton, hfirst]
    | cons y r =>
      rw [List.intercalate_cons_cons, List.append_assoc, List.singleton_append, stepsOf_append,
        ih hps, hfirst, ← List.filter_append]
      rfl

/-- Pieces without the idle ones at the end have the same steps. -/
theorem filter_dropIdle : (dropIdle ps).filter (!isIdle ·) = ps.filter (!isIdle ·) := by
  have key : ∀ qs : List (List Char),
      (qs.dropWhile isIdle).filter (!isIdle ·) = qs.filter (!isIdle ·) := by
    intro qs
    induction qs with
    | nil => rfl
    | cons x qs ih =>
      rw [List.dropWhile_cons]
      split
      · rename_i hx
        rw [ih, List.filter_cons_of_neg (by simp [hx])]
      · rfl
  rw [dropIdle, List.filter_reverse, key, ← List.filter_reverse, List.reverse_reverse]

/-- What says where a path begins that goes on like this. -/
def IsStart (start rest : List Char) : Prop :=
  start = [] ∨ start = ['/'] ∨ start = ['.'] ∧ (rest = [] ∨ ∃ r, rest = '/' :: r)

/-- The beginning of a path is no step. -/
theorem IsStart.stepsOf_append {start rest : List Char} (h : IsStart start rest) :
    stepsOf (start ++ rest) = stepsOf rest := by
  rcases h with rfl | rfl | ⟨rfl, rfl | ⟨r, rfl⟩⟩
  · rfl
  · exact stepsOf_slash
  · rfl
  · exact Path.stepsOf_append.trans stepsOf_slash.symm

/-- What says where a path begins does so for a shorter one. -/
theorem IsStart.of_prefix {start rest rest' : List Char} (h : IsStart start rest)
    (hpre : rest' <+: rest) : IsStart start rest' := by
  rcases h with h | h | ⟨h, rfl | ⟨r, rfl⟩⟩
  · exact .inl h
  · exact .inr (.inl h)
  · exact .inr (.inr ⟨h, .inl (List.prefix_nil.mp hpre)⟩)
  · refine .inr (.inr ⟨h, ?_⟩)
    rcases List.prefix_cons_iff.mp hpre with hnil | ⟨t, ht, -⟩
    · exact .inl hnil
    · exact .inr ⟨t, ht⟩

/-- A path is divided into its beginning and the pieces of the rest. -/
theorem exists_split (p : Path) :
    ∃ start rest, p.split = (start, pieces rest) ∧ p.toList = start ++ rest ∧
      IsStart start rest ∧ (start = ['/'] ↔ p.isAbsolute = true) := by
  unfold split
  by_cases ha : p.isAbsolute = true
  · obtain ⟨r, hr⟩ : ∃ r, p.toList = '/' :: r := by
      rw [isAbsolute, beq_iff_eq] at ha
      exact List.head?_eq_some_iff.mp ha
    exact ⟨['/'], r, by simp [ha, hr], hr, .inr (.inl rfl), iff_of_true rfl ha⟩
  · by_cases hb : p.beginsHere = true
    · obtain ⟨r, hr, hr'⟩ : ∃ r, p.toList = '.' :: r ∧ (r = [] ∨ ∃ r', r = '/' :: r') := by
        unfold beginsHere at hb
        split at hb
        · exact ⟨[], by assumption, .inl rfl⟩
        · exact ⟨_, by assumption, .inr ⟨_, rfl⟩⟩
        · cases hb
      exact ⟨['.'], r, by simp [hb, hr], hr, .inr (.inr ⟨rfl, hr'⟩), by simp [ha]⟩
    · exact ⟨[], p.toList, by simp [ha, hb], rfl, .inl rfl, by simp [ha]⟩

theorem isPrefix_pieces : pieces cs <+: piecesFrom [] cs := by
  cases cs with
  | nil => exact List.nil_prefix
  | cons c cs => exact List.prefix_rfl

theorem filter_pieces : (pieces cs).filter (!isIdle ·) = stepsOf cs := by
  cases cs <;> rfl

/-- The steps of a path are those of its text. -/
theorem steps_snd (p : Path) : p.steps.2 = stepsOf p.toList := by
  obtain ⟨start, rest, hs, hp, h, -⟩ := p.exists_split
  rw [steps, hs, hp, h.stepsOf_append]
  exact filter_pieces

/-- A path begins at the root when its beginning is a slash. -/
theorem steps_fst_eq_iff (p : Path) : p.steps.1 = ['/'] ↔ p.isAbsolute = true := by
  obtain ⟨start, rest, hs, -, -, h⟩ := p.exists_split
  rw [steps, hs, ← h]

/-- Paths that are the same way begin both at the root or neither, and take the same steps. -/
theorem eq_of_same {p q : Path} (h : p.same q = true) :
    p.isAbsolute = q.isAbsolute ∧ p.steps.2 = q.steps.2 := by
  have he : p.steps = q.steps := eq_of_beq h
  refine ⟨?_, by rw [he]⟩
  rw [Bool.eq_iff_iff, ← steps_fst_eq_iff, ← steps_fst_eq_iff, he]

/-- Paths from the root that take the same steps are the same way. -/
theorem same_of_isAbsolute {p q : Path} (hp : p.isAbsolute = true) (hq : q.isAbsolute = true)
    (h : p.steps.2 = q.steps.2) : p.same q = true := by
  have hstart := (p.steps_fst_eq_iff.mpr hp).trans (q.steps_fst_eq_iff.mpr hq).symm
  exact beq_iff_eq.mpr (Prod.ext hstart h)

/-! ## 3. Paths that are taken from a directory -/

/-- The last piece of a path leads somewhere. -/
def namesFile (p : Path) : Bool :=
  (piecesFrom [] p.toList).getLast?.any (!isIdle ·)

/-- A path from the root is the same from every directory. -/
theorem join_of_isAbsolute (h : p.isAbsolute = true) : join dir p = p :=
  if_pos h

/-- Another path is put behind the directory, with a slash between them. -/
theorem join_cases (dir : Path) (h : p.isAbsolute = false) :
    dir = "" ∧ join dir p = p ∨
      ∃ a, (join dir p).toList = a ++ '/' :: p.toList ∧ stepsOf a = stepsOf dir.toList ∧
        (a ++ ['/']).head? = dir.toList.head? := by
  unfold join
  rw [if_neg (by simp [h])]
  by_cases hd : dir = ""
  · exact .inl ⟨hd, by simp [hd]⟩
  · right
    split
    · rename_i hlast
      obtain ⟨a, ha⟩ : ∃ a, dir.toList = a ++ ['/'] := by
        simpa [hd, List.getLast?_eq_some_iff] using hlast
      refine ⟨a, ?_, ?_, by rw [ha]⟩
      · simp [String.toList_append, ha]
      · rw [ha, stepsOf_append]
        exact (List.append_nil _).symm
    · refine ⟨dir.toList, by simp [String.toList_append], rfl, ?_⟩
      obtain ⟨c, r, hc⟩ := List.exists_cons_of_ne_nil (mt String.toList_eq_nil_iff.mp hd)
      rw [hc]
      rfl

/-- **A path that is taken from a directory** takes the steps of the directory first. -/
theorem steps_join (h : p.isAbsolute = false) :
    (join dir p).steps.2 = dir.steps.2 ++ p.steps.2 := by
  simp only [steps_snd]
  obtain ⟨rfl, hj⟩ | ⟨a, hj, ha, -⟩ := join_cases dir h
  · rw [hj]
    rfl
  · rw [hj, stepsOf_append, ha]

/-- It begins where the directory begins. -/
theorem isAbsolute_join (h : p.isAbsolute = false) : (join dir p).isAbsolute = dir.isAbsolute := by
  obtain ⟨rfl, hj⟩ | ⟨a, hj, -, ha⟩ := join_cases dir h
  · rw [hj, h]
    rfl
  · rw [isAbsolute, isAbsolute, hj, ← ha]
    cases a <;> rfl

/-- Whether it names a file does not depend on the directory. -/
theorem namesFile_join (h : p.isAbsolute = false) : (join dir p).namesFile = p.namesFile := by
  obtain ⟨-, hj⟩ | ⟨a, hj, -, -⟩ := join_cases dir h
  · rw [hj]
  · have hne : piecesFrom [] p.toList ≠ [] := piecesFrom_ne_nil
    rw [namesFile, namesFile, hj, piecesFrom_append, List.getLast?_append_of_ne_nil _ hne]

theorem namesFile_iff :
    p.namesFile = true ↔ ∃ x, (piecesFrom [] p.toList).getLast? = some x ∧ isIdle x = false := by
  simp [namesFile, Option.any_eq_true]

/-- A path that names a file has a last step. -/
theorem steps_ne_nil (h : p.namesFile = true) : p.steps.2 ≠ [] := by
  obtain ⟨x, hx, hi⟩ := namesFile_iff.mp h
  rw [steps_snd]
  exact List.ne_nil_of_mem (List.mem_filter.mpr ⟨List.mem_of_getLast? hx, by rw [hi]; rfl⟩)

/-- A last piece that leads somewhere is in the rest of a path, not in its beginning. -/
theorem IsStart.exists_pieces {start rest x : List Char} (h : IsStart start rest)
    (hl : (piecesFrom [] (start ++ rest)).getLast? = some x) (hx : isIdle x = false) :
    ∃ r, pieces rest = r ++ [x] := by
  have key : ∀ cs, (piecesFrom [] cs).getLast? = some x → ∃ r, pieces cs = r ++ [x] := by
    intro cs hcs
    cases cs with
    | nil =>
      cases hcs
      cases hx
    | cons c cs => exact List.getLast?_eq_some_iff.mp hcs
  have hslash : ∀ cs y, (y :: piecesFrom [] cs).getLast? = (piecesFrom [] cs).getLast? := by
    intro cs y
    exact List.getLast?_append_of_ne_nil [y] piecesFrom_ne_nil
  rcases h with rfl | rfl | ⟨rfl, rfl | ⟨r, rfl⟩⟩
  · exact key rest hl
  · exact key rest ((hslash rest []).symm.trans hl)
  · cases hl
    cases hx
  · exact key _ ((hslash r []).trans ((hslash r ['.']).symm.trans hl))

/-- The directory of a path begins where the path does. -/
theorem isAbsolute_of_parent? {d : Path} (h : parent? p = some d) : d.isAbsolute = p.isAbsolute := by
  obtain ⟨start, rest, hs, hp, hstart, habs⟩ := p.exists_split
  simp only [parent?, hs] at h
  split at h
  · split at h
    · rename_i hhere
      cases h
      unfold beginsHere at hhere
      split at hhere
      · rename_i hd
        rw [isAbsolute, isAbsolute, hd]
        rfl
      · rename_i hd
        rw [isAbsolute, isAbsolute, hd]
        rfl
      · cases hhere
    · cases h
  · cases h
    have hpre : dropIdle (dropIdle (pieces rest)).dropLast <+: piecesFrom [] rest :=
      ((List.rdropWhile_prefix isIdle _).trans (List.dropLast_prefix _)).trans
        ((List.rdropWhile_prefix isIdle _).trans isPrefix_pieces)
    obtain ⟨u, hu⟩ : List.intercalate ['/'] _ <+: rest := isPrefix_intercalate hpre
    rw [Bool.eq_iff_iff, ← habs, isAbsolute, String.toList_ofList, beq_iff_eq]
    rcases hstart with rfl | rfl | ⟨rfl, -⟩
    · refine iff_of_false (fun hd => ?_) (List.cons_ne_nil _ _).symm
      obtain ⟨t, ht⟩ := List.head?_eq_some_iff.mp hd
      have hroot : p.isAbsolute = true := by
        rw [isAbsolute, beq_iff_eq, hp, ← hu, ← List.append_assoc, ht]
        rfl
      cases habs.mpr hroot
    · simp
    · simp

/-- **The directory of a path that names a file** lacks its last step. -/
theorem exists_parent? (h : p.namesFile = true) :
    ∃ d, parent? p = some d ∧ d.steps.2 = p.steps.2.dropLast := by
  obtain ⟨start, rest, hs, hp, hstart, -⟩ := p.exists_split
  obtain ⟨x, hx, hi⟩ := namesFile_iff.mp h
  obtain ⟨r, hr⟩ := hstart.exists_pieces (hp ▸ hx) hi
  have hkeep : dropIdle (r ++ [x]) = r ++ [x] := by
    simp [dropIdle, hi]
  have hpre : dropIdle r <+: pieces rest := by
    rw [hr]
    exact (List.rdropWhile_prefix isIdle r).trans (List.prefix_append r [x])
  have hfree : ∀ y ∈ dropIdle r, '/' ∉ y := fun y hy =>
    notMem_of_mem_piecesFrom List.not_mem_nil y ((hpre.trans isPrefix_pieces).subset hy)
  refine ⟨String.ofList (start ++ List.intercalate ['/'] (dropIdle r)), ?_, ?_⟩
  · simp [parent?, hs, hr, hkeep]
  · rw [steps_snd, steps_snd, String.toList_ofList,
      (hstart.of_prefix (isPrefix_intercalate (hpre.trans isPrefix_pieces))).stepsOf_append,
      stepsOf_intercalate hfree, filter_dropIdle, hp, hstart.stepsOf_append, ← filter_pieces, hr,
      List.filter_append, List.filter_cons_of_pos (by rw [hi]; rfl), List.filter_nil,
      List.dropLast_concat]

end DeviceScript.Path
