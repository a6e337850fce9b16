import DeviceScript.Proofs.Config.Following
import DeviceScript.Proofs.Files.Tree
/-!
# Loading settings by a relative path

A path that is taken from a working directory should load what the same path loads from the root.
It does so when the directory in front of its last step takes no steps itself
(`Settings.load_relative`); otherwise the directory is gone into twice, and the file is looked for
where it is not.

The argument follows both loads side by side.  A path that the one takes is mirrored by the path
that the other takes (`Loader.Mirrors`): both lead to one file, and what that file includes is
mirrored again.  Only the check for cycles sees a difference, since a file that was reached by a
relative path is not known again when it is reached from the root.  But where the check finds a cycle
from the root, includes go round without an end, so that they cannot come to a good end in the
directory either (`Loader.fails_unroll_of_cycle`).
-/

namespace DeviceScript

open Yaml (Value)
open ConfigError

/-- A path is longer than the tree allows. -/
def ConfigError.IsOverlong (t : FileTree) : ConfigError → Prop
  | unreadable p .nameTooLong => t.IsOverlong p
  | _ => False

namespace Loader

variable {l l' : Loader} {seen seen' : List Path → Path → Bool} {R : ConfigError → Prop}
  {chain chain' : List Path} {p q : Path} {text : String} {m n : Nat}

/-! ## 1. Paths that lead to the same file -/

/-- The path of an included file that is not from the root takes the steps to the directory of the
file that includes it and then its own. -/
theorem includedPath_of_namesFile (l : Loader) {target : Path} (hp : p.namesFile = true)
    (ht : target.isAbsolute = false) :
    (l.includedPath p target).isAbsolute = p.isAbsolute ∧
      (l.includedPath p target).steps.2 = p.steps.2.dropLast ++ target.steps.2 ∧
      (l.includedPath p target).namesFile = target.namesFile := by
  obtain ⟨d, hd, hsteps⟩ := Path.exists_parent? hp
  rw [includedPath, hd, Option.getD_some, Path.isAbsolute_join ht, Path.steps_join ht,
    Path.namesFile_join ht]
  exact ⟨Path.isAbsolute_of_parent? hd, by rw [hsteps], rfl⟩

theorem includedPath_of_isAbsolute (l : Loader) {target : Path} (ht : target.isAbsolute = true) :
    l.includedPath p target = target :=
  Path.join_of_isAbsolute ht

/-- Paths from the root that differ in nothing that matters to where they lead. -/
structure Twins (p q : Path) : Prop where
  left : p.isAbsolute = true
  right : q.isAbsolute = true
  steps : p.steps.2 = q.steps.2
  namesFile : p.namesFile = q.namesFile

/-- A path from the root stands for another, which is taken from a directory with these steps unless
it is itself from the root. -/
structure Mirrors (lead : List (List Char)) (p q : Path) : Prop where
  isAbsolute : q.isAbsolute = true
  steps : q.steps.2 = (if p.isAbsolute then [] else lead) ++ p.steps.2
  namesFile : q.namesFile = p.namesFile

variable {t : FileTree} {lead : List (List Char)} {dir dir' : List String} {base base' : Path}
  {env : String → Option String}

theorem mirrors_self (h : p.isAbsolute = true) : Mirrors lead p p :=
  ⟨h, by rw [if_pos h]; rfl, rfl⟩

theorem Twins.includes (h : Twins p q) (hp : p.namesFile = true) (target : Path) :
    Twins (l.base.join (l.includedPath p target)) (l'.base.join (l'.includedPath q target)) := by
  cases ht : target.isAbsolute with
  | true =>
    rw [includedPath_of_isAbsolute l ht, includedPath_of_isAbsolute l' ht,
      Path.join_of_isAbsolute ht, Path.join_of_isAbsolute ht]
    exact ⟨ht, ht, rfl, rfl⟩
  | false =>
    obtain ⟨hp₁, hp₂, hp₃⟩ := includedPath_of_namesFile l hp ht
    obtain ⟨hq₁, hq₂, hq₃⟩ := includedPath_of_namesFile l' (h.namesFile ▸ hp) ht
    rw [Path.join_of_isAbsolute (hp₁.trans h.left), Path.join_of_isAbsolute (hq₁.trans h.right)]
    exact ⟨hp₁.trans h.left, hq₁.trans h.right, by rw [hp₂, hq₂, h.steps], hp₃.trans hq₃.symm⟩

/-- **An included file is mirrored again.**  The directory of a mirrored file that is not from the
root is not either, and neither is a base that takes no steps. -/
theorem Mirrors.includes (h : Mirrors lead p q) (hp : p.namesFile = true)
    (hb : l.base.isAbsolute = false) (hi : l.base.steps.2 = []) (target : Path) :
    Mirrors lead (l.base.join (l.includedPath p target))
      (l'.base.join (l'.includedPath q target)) := by
  cases ht : target.isAbsolute with
  | true =>
    rw [includedPath_of_isAbsolute l ht, includedPath_of_isAbsolute l' ht,
      Path.join_of_isAbsolute ht, Path.join_of_isAbsolute ht]
    exact mirrors_self ht
  | false =>
    obtain ⟨hp₁, hp₂, hp₃⟩ := includedPath_of_namesFile l hp ht
    obtain ⟨hq₁, hq₂, hq₃⟩ := includedPath_of_namesFile l' (h.namesFile.trans hp) ht
    have hsteps : q.steps.2.dropLast ++ target.steps.2 =
        (if p.isAbsolute then [] else lead) ++ (p.steps.2.dropLast ++ target.steps.2) := by
      rw [h.steps, List.dropLast_append_of_ne_nil (Path.steps_ne_nil hp), List.append_assoc]
    rw [Path.join_of_isAbsolute (hq₁.trans h.isAbsolute)]
    cases ha : p.isAbsolute with
    | true =>
      rw [ha] at hp₁ hsteps
      rw [Path.join_of_isAbsolute hp₁]
      exact ⟨hq₁.trans h.isAbsolute, by rw [hq₂, hp₂, hp₁, hsteps], hq₃.trans hp₃.symm⟩
    | false =>
      rw [ha] at hp₁ hsteps
      refine ⟨hq₁.trans h.isAbsolute, ?_, ?_⟩
      · rw [Path.isAbsolute_join hp₁, Path.steps_join hp₁, hb, hi, hq₂, hp₂, hsteps]
        rfl
      · rw [Path.namesFile_join hp₁, hq₃, hp₃]

/-- Where one path is mirrored by another, the files that are being loaded are too. -/
theorem isAmong_of_mirrors (hchain : List.Forall₂ (Mirrors lead) chain chain')
    (h : Mirrors lead p q) (hp : isAmong chain p = true) : isAmong chain' q = true := by
  induction hchain with
  | nil => cases hp
  | @cons x y _ _ hxy _ ih =>
    simp only [isAmong, List.any_cons, Bool.or_eq_true] at hp ⊢
    rcases hp with hp | hp
    · obtain ⟨habs, hsteps⟩ := Path.eq_of_same hp
      exact .inl (Path.same_of_isAbsolute h.isAbsolute hxy.isAbsolute
        (by rw [h.steps, hxy.steps, habs, hsteps]))
    · exact .inr (ih hp)

/-- Twins are files alike, and so is what they include. -/
theorem follows_twins (hlimit : t.pathLimit = none) :
    Follows ⟨t.surroundings dir env, base⟩ ⟨t.surroundings dir env, base⟩ (fun _ _ => false)
      (fun _ _ => false) Twins Never Never where
  environment := rfl
  checks _ _ := .inl rfl
  reads {p q} h := .inr fun text => by
    change t.read dir p = .ok text ↔ t.read dir q = .ok text
    rw [FileTree.read_eq_ok_iff hlimit, FileTree.read_eq_ok_iff hlimit, h.left, h.right, h.steps,
      h.namesFile]
  includes {p q text} h ht target := by
    have hread : t.read dir p = .ok text := ht
    exact h.includes ((FileTree.read_eq_ok_iff hlimit).mp hread).1 target

/-- **A loader at work in a directory follows one at the root** that loads the files behind a path
of that directory. -/
theorem follows_mirrors {way : Path} (hlimit : t.pathLimit = none)
    (hdir : t.locate [] way = .ok dir) (hb : base.isAbsolute = false) (hi : base.steps.2 = [])
    (hchecks : ∀ {chain chain' p q}, List.Forall₂ (Mirrors way.steps.2) chain chain' →
      Mirrors way.steps.2 p q → seen chain p = seen' chain' q ∨
        seen' chain' q = true ∧ R (.includeCycle (chain' ++ [q]))) :
    Follows ⟨t.surroundings dir env, base⟩ ⟨t.surroundings dir' env, base'⟩ seen seen'
      (Mirrors way.steps.2) Never R where
  environment := rfl
  checks := hchecks
  reads {p q} h := .inr fun text => by
    change t.read dir p = .ok text ↔ t.read dir' q = .ok text
    rw [FileTree.read_eq_ok_iff hlimit, FileTree.read_eq_ok_iff hlimit, h.isAbsolute, h.steps,
      h.namesFile]
    cases p.isAbsolute with
    | true => rfl
    | false => exact and_congr_right fun _ => (FileTree.shows_append hlimit hdir).symm
  includes {p q text} h ht target := by
    have hread : t.read dir p = .ok text := ht
    exact Mirrors.includes (l := ⟨t.surroundings dir env, base⟩) h
      ((FileTree.read_eq_ok_iff hlimit).mp hread).1 hb hi target

/-! ## 2. Cycles -/

theorem isAbsolute_includedPath (hp : p.namesFile = true) (ha : p.isAbsolute = true)
    (target : Path) : (l.includedPath p target).isAbsolute = true := by
  cases ht : target.isAbsolute with
  | true => rw [includedPath_of_isAbsolute l ht, ht]
  | false => rw [(includedPath_of_namesFile l hp ht).1, ha]

theorem unroll_succ_of_ok (hp : l.surroundings.read (l.base.join p) = .ok text) :
    l.unroll (m + 1) p = l.loadText (l.unroll m) text (l.base.join p) := by
  have hfun : l.unroll m = l.loadChecking (fun _ _ => false) m [l.base.join p] :=
    funext fun q => l.unroll_eq m _ q
  rw [hfun]
  simp [unroll, loadChecking, hp]

/-- A path that cannot be read leads astray. -/
theorem fails_unroll_of_error (hp : ∀ text, l.surroundings.read (l.base.join p) ≠ .ok text)
    (m : Nat) : Fails IsAstray (l.unroll m p) := by
  cases m with
  | zero => exact ⟨_, rfl, trivial⟩
  | succ m =>
    cases hl : l.surroundings.read (l.base.join p) with
    | ok text => exact absurd hl (hp text)
    | error e =>
      refine ⟨.unreadable (l.base.join p) e, ?_, trivial⟩
      simp [unroll, loadChecking, hl]

/-- If the includes that run into a cycle lead astray when they are unrolled, a text that runs into
a cycle does. -/
theorem fails_loadText_of_cycle
    (hload : ∀ target, Fails IsCycle (l.loadWithin n chain (l.includedPath p target)) →
      Fails IsAstray (l.unroll m (l.includedPath p target)))
    (hcycle : Fails IsCycle (l.loadText (l.loadWithin n chain) text p)) :
    Fails IsAstray (l.loadText (l.unroll m) text p) := by
  have hmatch : Matches IsAstray (fun e => ¬ e.IsCycle) (l.loadText (l.unroll m) text p)
      (l.loadText (l.loadWithin n chain) text p) := by
    refine loadText_matches rfl fun target => ?_
    by_cases hc : Fails IsCycle (l.loadWithin n chain (l.includedPath p target))
    · exact .inl (hload target hc)
    · have hunroll : Matches IsAstray (fun _ => True) (l.unroll m (l.includedPath p target))
          (l.loadWithin n chain (l.includedPath p target)) :=
        l.unroll_matches (fun _ => trivial) (.inr ⟨fun _ => trivial, fun _ => trivial⟩)
      refine hunroll.imp_right (Or.imp_left ?_)
      rintro ⟨e, he, -⟩
      exact ⟨e, he, fun hce => hc ⟨e, he, hce⟩⟩
  rcases hmatch with h | ⟨e, he, hnot⟩ | h
  · exact h
  · obtain ⟨e', he', hce⟩ := hcycle
    cases he.symm.trans he'
    exact absurd hce hnot
  · exact (h.symm.fails hcycle isCycle_of_pathless).mono fun _ he => he.isAstray

/-- A file that leads astray when it is unrolled up to this depth. -/
structure LeadsAstray (l : Loader) (m : Nat) (p : Path) : Prop where
  isAbsolute : p.isAbsolute = true
  namesFile : p.namesFile = true
  fails : ∀ k ≤ m, Fails IsAstray (l.unroll k p)

theorem LeadsAstray.mono {k : Nat} (h : LeadsAstray l m p) (hk : k ≤ m) : LeadsAstray l k p :=
  ⟨h.isAbsolute, h.namesFile, fun i hi => h.fails i (hi.trans hk)⟩

section Cycle

variable (htwins : Follows l l (fun _ _ => false) (fun _ _ => false) Twins Never Never)
  (hfile : ∀ {p text}, l.surroundings.read p = .ok text → p.namesFile = true)

include htwins

/-- A path that is the same way as one that leads astray does so, too. -/
theorem fails_unroll_of_same (hp : p.isAbsolute = true) (hname : p.namesFile = true)
    (hsame : p.same q = true) (hq : LeadsAstray l m q) : Fails IsAstray (l.unroll m p) := by
  have htwin : Twins (l.base.join p) (l.base.join q) := by
    rw [Path.join_of_isAbsolute hp, Path.join_of_isAbsolute hq.isAbsolute]
    exact ⟨hp, hq.isAbsolute, (Path.eq_of_same hsame).2, hname.trans hq.namesFile.symm⟩
  have hkind : SameKind (l.unroll m p) (l.unroll m q) :=
    (htwins.loads (.inl rfl) .nil htwin).sameKind
  exact hkind.symm.fails (hq.fails m le_rfl) isAstray_of_pathless

include hfile

/-- **Where there is a cycle, unrolling leads astray.**  By induction on how deep the cycle was
found.  The files that are being loaded are known to lead astray as far as they are unrolled here;
that the file itself does, which joins them, is an induction on how far that is. -/
theorem fails_unroll_of_cycle (hp : p.isAbsolute = true) (hchain : ∀ y ∈ chain, LeadsAstray l m y)
    (hcycle : Fails IsCycle (l.loadWithin n chain p)) : Fails IsAstray (l.unroll m p) := by
  induction n generalizing m chain p with
  | zero =>
    obtain ⟨e, he, hcycle⟩ := hcycle
    cases he
    cases hcycle
  | succ n ih =>
    induction m using Nat.strong_induction_on with
    | h m ihm =>
      have hself : l.base.join p = p := Path.join_of_isAbsolute hp
      have hbefore : ∀ k < m, Fails IsAstray (l.unroll k p) := fun k hk =>
        ihm k hk fun y hy => (hchain y hy).mono hk.le
      cases hread : l.surroundings.read (l.base.join p) with
      | error e => exact fails_unroll_of_error (fun text h => by cases hread.symm.trans h) m
      | ok text =>
        have hname : p.namesFile = true := hself ▸ hfile hread
        rw [loadWithin] at hcycle
        simp only [hself] at hcycle hread
        split at hcycle
        · -- The file is one of those that are being loaded.
          rename_i hseen
          obtain ⟨y, hy, hsame⟩ := List.any_eq_true.mp hseen
          exact fails_unroll_of_same htwins hp hname hsame (hchain y hy)
        · cases m with
          | zero => exact ⟨_, rfl, trivial⟩
          | succ m =>
            rw [hread] at hcycle
            rw [unroll_succ_of_ok (hself.symm ▸ hread), hself]
            have hchain' : ∀ y ∈ chain ++ [p], LeadsAstray l m y := by
              rw [List.forall_mem_append, List.forall_mem_singleton]
              exact ⟨fun y hy => (hchain y hy).mono m.le_succ,
                hp, hname, fun k hk => hbefore k (Nat.lt_succ_of_le hk)⟩
            exact fails_loadText_of_cycle
              (fun target hc => ih (isAbsolute_includedPath hname hp target) hchain' hc) hcycle

end Cycle

/-! ## 3. A path in a directory and the path from the root -/

/-- A limit on paths makes no difference but that it keeps longer paths from being read. -/
theorem follows_unlimited (t : FileTree) (dir : List String) (env : String → Option String)
    (base : Path) :
    Follows ⟨t.surroundings dir env, base⟩ ⟨t.unlimited.surroundings dir env, base⟩ isAmong isAmong
      Eq (IsOverlong t) Never where
  environment := rfl
  checks hchain h := by
    rw [List.forall₂_eq_eq_eq] at hchain
    rw [hchain, h]
    exact .inl rfl
  reads {p q} h := by
    subst h
    rcases t.read_unlimited dir p with hread | ⟨hlong, hread⟩
    · exact .inr fun text => by
        change t.read dir p = .ok text ↔ t.unlimited.read dir p = .ok text
        rw [hread]
    · exact .inl ⟨.nameTooLong, hread, hlong⟩
  includes h _ target := by
    rw [h]
    rfl

variable {way : Path}

/-- A path is mirrored by the one that is taken from a way to the directory. -/
theorem mirrors_join (hway : way.isAbsolute = true) (hp : p.isAbsolute = false)
    (hb : base.isAbsolute = false) (hi : base.steps.2 = []) :
    Mirrors way.steps.2 (base.join p) (base'.join (way.join p)) := by
  have habs : (way.join p).isAbsolute = true := (Path.isAbsolute_join hp).trans hway
  rw [Path.join_of_isAbsolute habs]
  refine ⟨habs, ?_, ?_⟩
  · rw [Path.isAbsolute_join hp, hb, Path.steps_join hp, Path.steps_join hp, hi]
    rfl
  · rw [Path.namesFile_join hp, Path.namesFile_join hp]

section Mirrored

variable (hway : way.isAbsolute = true) (hp : p.isAbsolute = false)
  (hb : base.isAbsolute = false) (hi : base.steps.2 = [])

include hway hp hb hi

/-- From the root, a cycle is found no later than in the directory. -/
theorem matches_mirrored (hlimit : t.pathLimit = none) (hdir : t.locate [] way = .ok dir) :
    Matches Never IsCycle (loadWithin ⟨t.surroundings dir env, base⟩ n [] p)
      (loadWithin ⟨t.surroundings dir' env, base'⟩ n [] (way.join p)) := by
  rw [loadWithin_eq, loadWithin_eq]
  refine (follows_mirrors hlimit hdir hb hi ?_).loads (.inl rfl) .nil (mirrors_join hway hp hb hi)
  intro chain chain' p q hchain h
  cases hq : isAmong chain' q with
  | true => exact .inr ⟨rfl, trivial⟩
  | false =>
    left
    rw [← Bool.not_eq_true]
    exact fun hp => Bool.false_ne_true (hq.symm.trans (isAmong_of_mirrors hchain h hp))

/-- When nobody looks for cycles, it is all the same. -/
theorem sameKind_unroll_mirrored (hlimit : t.pathLimit = none) (hdir : t.locate [] way = .ok dir) :
    SameKind (unroll ⟨t.surroundings dir env, base⟩ n p)
      (unroll ⟨t.surroundings dir' env, base'⟩ n (way.join p)) := by
  refine ((follows_mirrors hlimit hdir hb hi ?_).loads (.inl rfl) .nil
    (mirrors_join hway hp hb hi)).sameKind
  exact fun _ _ => .inl rfl

/-- **Loading in the directory and from the root**, when paths may have any length.  A cycle that is
found from the root may escape notice in the directory, for a file that was reached by a relative
path is not known again when it is reached from the root; the includes lead astray all the same. -/
theorem load_cases_of_unlimited (hlimit : t.pathLimit = none) (hdir : t.locate [] way = .ok dir) :
    SameKind (loadWithin ⟨t.surroundings dir env, base⟩ n [] p)
        (loadWithin ⟨t.surroundings dir' env, base'⟩ n [] (way.join p)) ∨
      Fails IsCycle (loadWithin ⟨t.surroundings dir' env, base'⟩ n [] (way.join p)) ∧
        Fails IsAstray (loadWithin ⟨t.surroundings dir env, base⟩ n [] p) := by
  have hlock : Matches Never IsCycle (loadWithin ⟨t.surroundings dir env, base⟩ n [] p)
      (loadWithin ⟨t.surroundings dir' env, base'⟩ n [] (way.join p)) :=
    matches_mirrored hway hp hb hi hlimit hdir
  rcases hlock.resolve_left not_fails_never with hcycle | hsame
  · refine .inr ⟨hcycle, ?_⟩
    have hright : Fails IsAstray (unroll ⟨t.surroundings dir' env, base'⟩ n (way.join p)) := by
      refine fails_unroll_of_cycle (follows_twins hlimit) ?_ ?_ (fun y hy => ?_) hcycle
      · exact fun h => ((FileTree.read_eq_ok_iff hlimit).mp h).1
      · rw [Path.isAbsolute_join hp, hway]
      · cases hy
    have hleft : Fails IsAstray (unroll ⟨t.surroundings dir env, base⟩ n p) :=
      (sameKind_unroll_mirrored hway hp hb hi hlimit hdir).symm.fails hright isAstray_of_pathless
    have hloaded : Matches Never IsCycle (unroll ⟨t.surroundings dir env, base⟩ n p)
        (loadWithin ⟨t.surroundings dir env, base⟩ n [] p) :=
      unroll_matches _ (fun _ => trivial) (.inl rfl)
    rcases hloaded.resolve_left not_fails_never with hself | hkind
    · exact hself.mono fun _ he => he.isAstray
    · exact hkind.fails hleft isAstray_of_pathless
  · exact .inl hsame

variable (dir' base' env n) in
/-- **Loading in the directory and from the root.**  A path that is longer than the tree allows may
end either load early. -/
theorem load_cases (hdir : t.locate [] way = .ok dir) :
    SameKind (loadWithin ⟨t.surroundings dir env, base⟩ n [] p)
        (loadWithin ⟨t.surroundings dir' env, base'⟩ n [] (way.join p)) ∨
      Fails (IsOverlong t) (loadWithin ⟨t.surroundings dir env, base⟩ n [] p) ∨
      Fails (IsOverlong t) (loadWithin ⟨t.surroundings dir' env, base'⟩ n [] (way.join p)) ∨
      Fails IsCycle (loadWithin ⟨t.surroundings dir' env, base'⟩ n [] (way.join p)) ∧
        Fails IsAstray (loadWithin ⟨t.surroundings dir env, base⟩ n [] p) := by
  have hlimit : ∀ (dir : List String) (base p : Path), Matches (IsOverlong t) Never
      (loadWithin ⟨t.surroundings dir env, base⟩ n [] p)
      (loadWithin ⟨t.unlimited.surroundings dir env, base⟩ n [] p) := by
    intro dir base p
    rw [loadWithin_eq, loadWithin_eq]
    exact (follows_unlimited t dir env base).loads (.inl rfl) .nil rfl
  have hdir' : t.unlimited.locate [] way = .ok dir := by
    rcases t.locate_unlimited [] way with h | ⟨-, h⟩
    · exact h.symm.trans hdir
    · cases hdir.symm.trans h
  rcases hlimit dir base p with ha | ha | ha
  · exact .inr (.inl ha)
  · exact absurd ha not_fails_never
  · rcases hlimit dir' base' (way.join p) with hb' | hb' | hb'
    · exact .inr (.inr (.inl hb'))
    · exact absurd hb' not_fails_never
    · rcases load_cases_of_unlimited hway hp hb hi rfl hdir' with h | ⟨hcycle, hastray⟩
      · exact .inl (ha.trans (h.trans hb'.symm))
      · exact .inr (.inr (.inr ⟨hb'.symm.fails hcycle isCycle_of_pathless,
          ha.symm.fails hastray isAstray_of_pathless⟩))

end Mirrored

/-- A file that cannot be read cannot be loaded. -/
theorem load_of_error {e : FileError} (h : l.surroundings.read (l.base.join p) = .error e) :
    l.load p = .error (.unreadable (l.base.join p) e) := by
  change l.loadWithin (16383 + 1) [] p = _
  simp [loadWithin, h]

end Loader

/-! ## 4. Settings -/

namespace Settings

/-- The directory that a path is taken from once more. -/
def baseOf (p : Path) : Path := (Path.parent? p).getD "."

theorem isAbsolute_baseOf {p : Path} (hp : p.isAbsolute = false) :
    (baseOf p).isAbsolute = false := by
  rw [baseOf]
  cases hd : Path.parent? p with
  | none => rfl
  | some d => rw [Option.getD_some, Path.isAbsolute_of_parent? hd, hp]

/-- **Settings from a relative path.**  The path is taken from its own directory once more: what
cannot be read there cannot be loaded, whatever the path itself leads to.  When the directory takes
no steps, so that this makes no difference, the settings are those that are loaded by the path from
the root, or there is an error of the same kind.  Only two things can set the loads apart: a path
that is longer than the tree allows, and a cycle, which is found from the root and may end the load
in the directory as one that leads astray. -/
theorem load_relative {t : FileTree} {way p : Path} {dir : List String} (dir' : List String)
    (env : String → Option String) (hway : way.isAbsolute = true)
    (hdir : t.locate [] way = .ok dir) (hp : p.isAbsolute = false) :
    (∀ e, t.read dir ((baseOf p).join p) = .error e →
      load (t.surroundings dir env) p = .error (.unreadable ((baseOf p).join p) e)) ∧
    ((baseOf p).steps.2 = [] →
      SameKind (load (t.surroundings dir env) p) (load (t.surroundings dir' env) (way.join p)) ∨
      Fails (IsOverlong t) (load (t.surroundings dir env) p) ∨
      Fails (IsOverlong t) (load (t.surroundings dir' env) (way.join p)) ∨
      Fails IsCycle (load (t.surroundings dir' env) (way.join p)) ∧
        Fails IsAstray (load (t.surroundings dir env) p)) := by
  refine ⟨?_, fun hi => ?_⟩
  · intro e he
    have hload : Loader.load ⟨t.surroundings dir env, baseOf p⟩ p = .error _ :=
      Loader.load_of_error he
    exact congrArg (· >>= ofValue?) hload
  · rcases Loader.load_cases Loader.depth dir' (baseOf (way.join p)) env hway hp
      (isAbsolute_baseOf hp) hi hdir with h | h | h | ⟨hcycle, hastray⟩
    · exact .inl h.bind
    · exact .inr (.inl h.bind)
    · exact .inr (.inr (.inl h.bind))
    · exact .inr (.inr (.inr ⟨hcycle.bind, hastray.bind⟩))

theorem eq_ok_of_toOption {a : Except ConfigError Settings} {s : Settings}
    (h : a.toOption = some s) : a = .ok s := by
  cases a with
  | error e => cases h
  | ok s' =>
    cases h
    rfl

/-- Settings in a directory, with the devices in a file beside them. -/
def besideTree : FileTree where
  entries := [(["work"], .directory),
    (["work", "breq.yaml"], .file "devices: !include d.yaml\n".toUTF8.data.toList),
    (["work", "d.yaml"], .file "- name: alpha\n".toUTF8.data.toList)]
  pathLimit := none

theorem load_beside :
    besideTree.locate [] "/work" = .ok ["work"] ∧
      load (besideTree.surroundings ["work"] fun _ => none) "breq.yaml" =
        .ok { devices := [{ name := "alpha" }] } := by
  have hdir : besideTree.locate [] "/work" = .ok ["work"] := by decide
  have hroot : load (besideTree.surroundings [] fun _ => none) (Path.join "/work" "breq.yaml") =
      .ok { devices := [{ name := "alpha" }] } := by
    refine eq_ok_of_toOption ?_
    decide +kernel
  obtain ⟨-, h⟩ := @load_relative besideTree "/work" "breq.yaml" ["work"] [] (fun _ => none)
    (by decide) hdir (by decide)
  refine ⟨hdir, ?_⟩
  have hshort : ∀ a : Except ConfigError Settings, ¬ Fails (IsOverlong besideTree) a := by
    rintro a ⟨e, -, he⟩
    unfold IsOverlong at he
    split at he
    · cases he
    · exact he
  rcases h (by decide) with h | h | h | ⟨⟨e, he, -⟩, -⟩
  · rw [hroot] at h
    exact h.eq_ok
  · exact absurd h (hshort _)
  · exact absurd h (hshort _)
  · cases hroot.symm.trans he

/-- Settings in a directory below the working directory. -/
def belowTree : FileTree where
  entries := [(["work"], .directory), (["work", "sub"], .directory),
    (["work", "sub", "breq.yaml"], .file "settle_delay_ms: 5\n".toUTF8.data.toList)]

/-- **Settings that a relative path does not load.**  The file is there, but it is looked for in the
directory of that name below its own. -/
theorem exists_relative_unread :
    ∃ (t : FileTree) (way p : Path) (dir : List String) (env : String → Option String),
      way.isAbsolute = true ∧ t.locate [] way = .ok dir ∧ p.isAbsolute = false ∧
      (∃ q e, load (t.surroundings dir env) p = .error (.unreadable q e)) ∧
      ∃ s, load (t.surroundings dir env) (way.join p) = .ok s := by
  refine ⟨belowTree, "/work", "sub/breq.yaml", ["work"], fun _ => none, by decide, by decide,
    by decide, ⟨"sub/sub/breq.yaml", .notFound, rfl⟩, { settle := 5 }, eq_ok_of_toOption ?_⟩
  decide +kernel

end Settings

end DeviceScript
