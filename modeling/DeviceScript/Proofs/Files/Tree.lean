import DeviceScript.Files.Tree
import DeviceScript.Proofs.Files.Path
/-!
# Reading from a file tree

What a path leads to in a file tree is decided by its steps alone, apart from two things.  A path
must not be longer than the tree allows, which matters only to whether it can be followed at all
(`FileTree.read_unlimited`).  And a file has nothing behind it, so that the last piece of a path
that leads to a file is a step (`FileTree.read_eq_ok_iff`).

So a path that is taken from a working directory leads where it leads from the root when it is put
behind a path of that directory (`FileTree.shows_append`).
-/

namespace DeviceScript.FileTree

variable {t : FileTree} {start place place' dir : List String} {piece : List Char}
  {ps r steps : List (List Char)} {p q : Path} {text : String}

/-! ## 1. Steps -/

/-- Steps are taken from directories. -/
theorem at?_of_step (h : t.step place piece = .ok place') : t.at? place = some .directory := by
  unfold step at h
  split at h
  · assumption
  · cases h
  · cases h

/-- A piece that does not lead anywhere leaves a directory where it is. -/
theorem step_of_isIdle (h : t.at? place = some .directory) (hi : Path.isIdle piece = true) :
    t.step place piece = .ok place := by
  simp [step, h, hi]

/-- A piece that does not lead anywhere leads nowhere else. -/
theorem eq_of_step (hi : Path.isIdle piece = true) (h : t.step place piece = .ok place') :
    place' = place := by
  rw [step_of_isIdle (at?_of_step h) hi] at h
  exact (Except.ok.inj h).symm

theorem exists_of_bind_eq_ok {ε α β : Type} {x : Except ε α} {f : α → Except ε β} {b : β}
    (h : x >>= f = .ok b) : ∃ a, x = .ok a ∧ f a = .ok b := by
  cases x with
  | error e => cases h
  | ok a => exact ⟨a, rfl, h⟩

/-- The steps of a way that can be gone can be gone without the pieces between them. -/
theorem foldlM_filter_of_ok (h : ps.foldlM t.step start = .ok place) :
    (ps.filter (!Path.isIdle ·)).foldlM t.step start = .ok place := by
  induction ps generalizing start with
  | nil => exact h
  | cons x ps ih =>
    rw [List.foldlM_cons] at h
    obtain ⟨mid, hmid, hrest⟩ := exists_of_bind_eq_ok h
    by_cases hx : Path.isIdle x = true
    · obtain rfl := eq_of_step hx hmid
      rw [List.filter_cons_of_neg (by simp [hx])]
      exact ih hrest
    · rw [List.filter_cons_of_pos (by simp [hx]), List.foldlM_cons, hmid]
      exact ih hrest

/-- **Pieces that lead nowhere make no difference before a step.**  They can be gone over only in a
directory, and so can the step. -/
theorem foldlM_filter_iff (hlast : ps.getLast? = some piece) (hi : Path.isIdle piece = false) :
    ps.foldlM t.step start = .ok place ↔
      (ps.filter (!Path.isIdle ·)).foldlM t.step start = .ok place := by
  refine ⟨foldlM_filter_of_ok, fun h => ?_⟩
  induction ps generalizing start with
  | nil => cases hlast
  | cons x ps ih =>
    cases ps with
    | nil =>
      obtain rfl : x = piece := Option.some.inj hlast
      rwa [List.filter_cons_of_pos (by simp [hi])] at h
    | cons y ps =>
      have hrest : (y :: ps).getLast? = some piece := by
        rw [← hlast, List.getLast?_cons_cons]
      rw [List.foldlM_cons]
      by_cases hx : Path.isIdle x = true
      · rw [List.filter_cons_of_neg (by simp [hx])] at h
        have hfold := ih hrest h
        obtain ⟨mid, hmid, -⟩ := exists_of_bind_eq_ok hfold
        rw [step_of_isIdle (at?_of_step hmid) hx]
        exact hfold
      · rw [List.filter_cons_of_pos (by simp [hx]), List.foldlM_cons] at h
        obtain ⟨mid, hmid, hfold⟩ := exists_of_bind_eq_ok h
        rw [hmid]
        exact ih hrest hfold

/-- A way whose last piece leads nowhere ends in a directory. -/
theorem at?_of_foldlM (hlast : ps.getLast? = some piece) (hi : Path.isIdle piece = true)
    (h : ps.foldlM t.step start = .ok place) : t.at? place = some .directory := by
  obtain ⟨qs, rfl⟩ := List.getLast?_eq_some_iff.mp hlast
  rw [List.foldlM_append] at h
  obtain ⟨mid, -, hmid⟩ := exists_of_bind_eq_ok h
  rw [List.foldlM_cons] at hmid
  obtain ⟨last, hstep, hend⟩ := exists_of_bind_eq_ok hmid
  cases hend
  rw [eq_of_step hi hstep]
  exact at?_of_step hstep

/-! ## 2. Reading -/

/-- The tree with paths of any length. -/
def unlimited (t : FileTree) : FileTree := { t with pathLimit := none }

/-- The path is longer than the tree allows. -/
def IsOverlong (t : FileTree) (p : Path) : Prop :=
  t.pathLimit.any (· < p.utf8ByteSize) = true

theorem locate_unlimited (dir : List String) (p : Path) :
    t.locate dir p = t.unlimited.locate dir p ∨
      t.IsOverlong p ∧ t.locate dir p = .error .nameTooLong := by
  unfold locate
  split
  · exact .inl rfl
  · split
    · exact .inl rfl
    · split
      · rename_i hlong
        exact .inr ⟨hlong, rfl⟩
      · exact .inl rfl

/-- **The limit on paths** changes nothing but that longer paths cannot be read. -/
theorem read_unlimited (dir : List String) (p : Path) :
    t.read dir p = t.unlimited.read dir p ∨
      t.IsOverlong p ∧ t.read dir p = .error .nameTooLong := by
  rcases locate_unlimited (t := t) dir p with h | ⟨hlong, h⟩
  · left
    rw [read, h]
    rfl
  · right
    rw [read, h]
    exact ⟨hlong, rfl⟩

/-- No step has a character of number zero in it. -/
def IsNulFree (steps : List (List Char)) : Prop :=
  ∀ x ∈ steps, ∀ c ∈ x, c.toNat ≠ 0

/-- The steps lead from a place to a file with this text. -/
def Shows (t : FileTree) (start : List String) (steps : List (List Char)) (text : String) : Prop :=
  IsNulFree steps ∧ ∃ place content cs, steps.foldlM t.step start = .ok place ∧
    t.at? place = some (.file content) ∧ Text.Utf8.decode? content = some cs ∧
    String.ofList cs = text

/-- A character of number zero is in a step if it is in the path. -/
theorem isNulFree_steps_iff : IsNulFree p.steps.2 ↔ ∀ c ∈ p.toList, c.toNat ≠ 0 := by
  have hmem : ∀ c : Char, c.toNat = 0 →
      ((∃ x ∈ Path.piecesFrom [] p.toList, c ∈ x) ↔ c ∈ p.toList) := by
    intro c hc
    have hne : c ≠ '/' := by
      rintro rfl
      cases hc
    simpa using Path.exists_mem_piecesFrom_iff [] p.toList hne
  rw [Path.steps_snd]
  constructor
  · intro h c hc hnul
    obtain ⟨x, hx, hcx⟩ := (hmem c hnul).mpr hc
    have hstep : Path.isIdle x = false := by
      rw [← Bool.not_eq_true, Path.isIdle, Bool.or_eq_true, beq_iff_eq, beq_iff_eq]
      rintro (rfl | rfl)
      · cases hcx
      · rw [List.mem_singleton.mp hcx] at hnul
        cases hnul
    exact h x (List.mem_filter.mpr ⟨hx, by rw [hstep]; rfl⟩) c hcx hnul
  · intro h x hx c hcx hnul
    exact h c ((hmem c hnul).mp ⟨x, List.mem_of_mem_filter hx, hcx⟩) hnul

/-- Where a path leads when it may have any length. -/
theorem locate_eq_ok_iff (hlimit : t.pathLimit = none) :
    t.locate dir p = .ok place ↔ IsNulFree p.steps.2 ∧ p ≠ "" ∧
      (Path.piecesFrom [] p.toList).foldlM t.step (if p.isAbsolute then [] else dir) =
        .ok place := by
  rw [isNulFree_steps_iff, locate, hlimit]
  by_cases hnul : p.toList.any (·.toNat = 0) = true
  · rw [if_pos hnul]
    obtain ⟨c, hc, hz⟩ := List.any_eq_true.mp hnul
    exact iff_of_false nofun (fun h => h.1 c hc (of_decide_eq_true hz))
  · have hfree : ∀ c ∈ p.toList, c.toNat ≠ 0 := fun c hc hz =>
      hnul (List.any_eq_true.mpr ⟨c, hc, decide_eq_true hz⟩)
    rw [if_neg hnul]
    by_cases hp : p = ""
    · rw [if_pos hp]
      exact iff_of_false nofun (fun h => h.2.1 hp)
    · have hpieces : Path.pieces p.toList = Path.piecesFrom [] p.toList := by
        rw [Path.pieces, if_neg (by simpa using hp)]
      rw [if_neg hp, if_neg (by simp), hpieces]
      exact ⟨fun h => ⟨hfree, hp, h⟩, fun h => h.2.2⟩

/-- A text is read from the place that a path leads to. -/
theorem exists_of_read_iff : t.read dir p = .ok text ↔ ∃ place content cs,
    t.locate dir p = .ok place ∧ t.at? place = some (.file content) ∧
      Text.Utf8.decode? content = some cs ∧ String.ofList cs = text := by
  constructor
  · intro h
    obtain ⟨place, hplace, hfile⟩ := exists_of_bind_eq_ok h
    split at hfile
    · rename_i content hat
      split at hfile
      · rename_i cs hcs
        exact ⟨place, content, cs, hplace, hat, hcs, Except.ok.inj hfile⟩
      · cases hfile
    · cases hfile
    · cases hfile
  · rintro ⟨place, content, cs, hplace, hat, hcs, rfl⟩
    rw [read, hplace]
    simp only [bind, Except.bind, hat, hcs]

/-- **What can be read** is what names a file and shows a text by its steps. -/
theorem read_eq_ok_iff (hlimit : t.pathLimit = none) :
    t.read dir p = .ok text ↔ p.namesFile = true ∧
      t.Shows (if p.isAbsolute then [] else dir) p.steps.2 text := by
  obtain ⟨piece, hlast⟩ : ∃ piece, (Path.piecesFrom [] p.toList).getLast? = some piece :=
    List.getLast?_eq_some_getLast Path.piecesFrom_ne_nil ▸ ⟨_, rfl⟩
  have hnames : p.namesFile = !Path.isIdle piece := by
    rw [Path.namesFile, hlast, Option.any_some]
  rw [exists_of_read_iff, hnames]
  cases hi : Path.isIdle piece with
  | true =>
    refine iff_of_false ?_ (fun h => Bool.false_ne_true h.1)
    rintro ⟨place, content, cs, hplace, hat, -⟩
    obtain ⟨-, -, hfold⟩ := (locate_eq_ok_iff hlimit).mp hplace
    rw [at?_of_foldlM hlast hi hfold] at hat
    cases hat
  | false =>
    have hp : p ≠ "" := by
      rintro rfl
      cases hlast
      cases hi
    rw [Shows, Path.steps_snd, Path.stepsOf]
    simp only [locate_eq_ok_iff hlimit, Path.steps_snd, Path.stepsOf, foldlM_filter_iff hlast hi]
    constructor
    · rintro ⟨place, content, cs, ⟨hnul, -, hfold⟩, hfile⟩
      exact ⟨rfl, hnul, place, content, cs, hfold, hfile⟩
    · rintro ⟨-, hnul, place, content, cs, hfold, hfile⟩
      exact ⟨place, content, cs, ⟨hnul, hp, hfold⟩, hfile⟩

/-- **A working directory** stands for the steps of every path that leads to it. -/
theorem shows_append (hlimit : t.pathLimit = none) (h : t.locate [] p = .ok dir) :
    t.Shows [] (p.steps.2 ++ steps) text ↔ t.Shows dir steps text := by
  obtain ⟨hnul, -, hfold⟩ := (locate_eq_ok_iff hlimit).mp h
  have hsteps : p.steps.2.foldlM t.step [] = .ok dir := by
    rw [Path.steps_snd]
    rw [ite_self] at hfold
    exact foldlM_filter_of_ok hfold
  have hfree : IsNulFree (p.steps.2 ++ steps) ↔ IsNulFree steps := by
    rw [IsNulFree, List.forall_mem_append]
    exact and_iff_right hnul
  rw [Shows, Shows, hfree, List.foldlM_append, hsteps]
  rfl

end DeviceScript.FileTree
