import DeviceScript.Config.Loading
import Mathlib.Data.List.Forall2
/-!
# Loaders side by side

When do two loaders load the same?  Paths in messages do not count for that (`SameKind`), and on
either side there may be errors that are not compared (`Matches`).  If related paths are read alike
and include related paths, the loads match from end to end: `Loader.Follows.loads` says so for any
relation of paths, by an induction on how deep includes are nested, and `Loader.resolve_matches` is
its step, an induction on the value of one file.

The check for cycles is a parameter of that (`Loader.loadChecking`).  A loader that makes no such
check unrolls the includes as deep as it may (`Loader.unroll`), and what is loaded is what is
unrolled unless there is a cycle (`Loader.unroll_matches`).
-/

namespace DeviceScript

open Yaml (Value)

/-! ## 1. Results that match -/

namespace ConfigError

/-- The error without the paths in it. -/
def pathless : ConfigError → ConfigError
  | unreadable _ _ => unreadable "" (.other "")
  | malformed _ => malformed ""
  | badInclude _ found => badInclude "" found
  | includeCycle _ => includeCycle []
  | includedTooDeep _ => includedTooDeep ""
  | e => e

/-- A file that is being loaded is included again. -/
def IsCycle : ConfigError → Prop
  | includeCycle _ => True
  | _ => False

/-- The includes lead to a file that is not there, or to no end. -/
def IsAstray : ConfigError → Prop
  | unreadable _ _ | includeCycle _ | includedTooDeep _ => True
  | _ => False

variable {e e' : ConfigError}

theorem IsCycle.isAstray (he : e.IsCycle) : e.IsAstray := by
  cases e <;> trivial

theorem isCycle_of_pathless (h : e.pathless = e'.pathless) (he : e.IsCycle) : e'.IsCycle := by
  cases e <;> cases e' <;> trivial

theorem isAstray_of_pathless (h : e.pathless = e'.pathless) (he : e.IsAstray) : e'.IsAstray := by
  cases e <;> cases e' <;> trivial

end ConfigError

open ConfigError

/-- An error of this sort. -/
def Fails {α : Type} (E : ConfigError → Prop) (a : Except ConfigError α) : Prop :=
  ∃ e, a = .error e ∧ E e

/-- Results that are the same but for the paths in an error. -/
def SameKind {α : Type} (a b : Except ConfigError α) : Prop :=
  a.mapError pathless = b.mapError pathless

/-- Results of the same kind.  An error on the left that is `L` matches everything, and so does an
error on the right that is `R`. -/
def Matches {α : Type} (L R : ConfigError → Prop) (a b : Except ConfigError α) : Prop :=
  Fails L a ∨ Fails R b ∨ SameKind a b

/-- No error. -/
def Never (_ : ConfigError) : Prop := False

section Matches

variable {α β : Type} {L R E : ConfigError → Prop} {a b c : Except ConfigError α}
  {f g : α → Except ConfigError β}

theorem Fails.bind (h : Fails E a) : Fails E (a >>= f) := by
  obtain ⟨e, rfl, he⟩ := h
  exact ⟨e, rfl, he⟩

theorem Fails.mono {E' : ConfigError → Prop} (h : Fails E a) (hE : ∀ e, E e → E' e) :
    Fails E' a := by
  obtain ⟨e, he, hEe⟩ := h
  exact ⟨e, he, hE e hEe⟩

theorem not_fails_never : ¬ Fails Never a :=
  fun h => h.choose_spec.2

theorem SameKind.symm (h : SameKind a b) : SameKind b a :=
  Eq.symm h

theorem SameKind.trans (h : SameKind a b) (h' : SameKind b c) : SameKind a c :=
  Eq.trans h h'

/-- What is of the same kind as a value is that value. -/
theorem SameKind.eq_ok {v : α} (h : SameKind a (.ok v)) : a = .ok v := by
  cases a with
  | error e => cases h
  | ok w =>
    cases h
    rfl

/-- What is of the same kind as an error is an error. -/
theorem SameKind.fails (h : SameKind a b) (ha : Fails E a)
    (hE : ∀ {e e' : ConfigError}, e.pathless = e'.pathless → E e → E e') : Fails E b := by
  obtain ⟨e, rfl, he⟩ := ha
  cases b with
  | error e' => exact ⟨e', rfl, hE (Except.error.inj h) he⟩
  | ok v => cases h

theorem matches_rfl : Matches L R a a :=
  .inr (.inr rfl)

/-- Results that match are of the same kind when no error matches everything. -/
theorem Matches.sameKind (h : Matches Never Never a b) : SameKind a b :=
  (h.resolve_left not_fails_never).resolve_left not_fails_never

/-- **What matches goes on to match** when it is gone on with in matching ways. -/
theorem Matches.bind (h : Matches L R a b) (hf : ∀ v, Matches L R (f v) (g v)) :
    Matches L R (a >>= f) (b >>= g) := by
  rcases h with h | h | h
  · exact .inl h.bind
  · exact .inr (.inl h.bind)
  · cases a with
    | error e =>
      cases b with
      | error e' => exact .inr (.inr (congrArg Except.error (Except.error.inj h)))
      | ok v => cases h
    | ok v =>
      cases b with
      | error e' => cases h
      | ok w =>
        cases h
        exact hf v

theorem SameKind.bind (h : SameKind a b) : SameKind (a >>= f) (b >>= f) := by
  have hmatch : Matches Never Never a b := .inr (.inr h)
  exact (hmatch.bind fun _ => matches_rfl).sameKind

theorem Matches.map (h : Matches L R a b) (k : α → β) : Matches L R (a.map k) (b.map k) :=
  h.bind (f := fun v => .ok (k v)) fun _ => matches_rfl

end Matches

/-! ## 2. Values with tags -/

namespace Loader

/-- The path of a file that is included in another. -/
def includedPath (l : Loader) (origin target : Path) : Path :=
  ((Path.parent? origin).getD l.base).join target

section Resolve

variable {l l' : Loader} {load load' : Path → Except ConfigError Value} {origin origin' : Path}
  {L R : ConfigError → Prop}

/-- A tagged value is replaced by what matches when included files are loaded with results that
match. -/
theorem replacement_matches (henv : l.surroundings.environment = l'.surroundings.environment)
    (hload : ∀ target,
      Matches L R (load (l.includedPath origin target)) (load' (l'.includedPath origin' target)))
    (tag : String) (v : Value) :
    Matches L R (l.replacement load origin tag v) (l'.replacement load' origin' tag v) := by
  unfold replacement
  split
  · split
    · exact hload _
    · exact .inr (.inr rfl)
  · split
    · split
      · rw [henv]
        split
        · exact matches_rfl
        · exact matches_rfl
      · exact matches_rfl
    · exact matches_rfl

mutual

theorem resolve_matches (henv : l.surroundings.environment = l'.surroundings.environment)
    (hload : ∀ target,
      Matches L R (load (l.includedPath origin target)) (load' (l'.includedPath origin' target))) :
    ∀ v, Matches L R (l.resolve load origin v) (l'.resolve load' origin' v)
  | .tagged tag v => replacement_matches henv hload tag v
  | .sequence items => by
    simp only [resolve]
    exact (resolveItems_matches henv hload items).map Value.sequence
  | .mapping entries => by
    simp only [resolve]
    exact (resolveEntries_matches henv hload entries).map Value.mapping
  | .null | .bool _ | .int _ | .float _ | .text _ => matches_rfl

theorem resolveItems_matches (henv : l.surroundings.environment = l'.surroundings.environment)
    (hload : ∀ target,
      Matches L R (load (l.includedPath origin target)) (load' (l'.includedPath origin' target))) :
    ∀ items, Matches L R (l.resolveItems load origin items) (l'.resolveItems load' origin' items)
  | [] => matches_rfl
  | v :: r =>
    (resolve_matches henv hload v).bind fun _ =>
      (resolveItems_matches henv hload r).bind fun _ => matches_rfl

theorem resolveEntries_matches (henv : l.surroundings.environment = l'.surroundings.environment)
    (hload : ∀ target,
      Matches L R (load (l.includedPath origin target)) (load' (l'.includedPath origin' target))) :
    ∀ entries,
      Matches L R (l.resolveEntries load origin entries) (l'.resolveEntries load' origin' entries)
  | [] => matches_rfl
  | (_, v) :: r =>
    (resolve_matches henv hload v).bind fun _ =>
      (resolveEntries_matches henv hload r).bind fun _ => matches_rfl

end

end Resolve

/-! ## 3. Loaders side by side -/

/-- The value of a file, when `seen` finds out whether the file is being loaded already. -/
def loadChecking (l : Loader) (seen : List Path → Path → Bool) :
    (depth : Nat) → (chain : List Path) → Path → Except ConfigError Value
  | 0, _, path => .error (.includedTooDeep path)
  | depth + 1, chain, path =>
    let path := l.base.join path
    if seen chain path then .error (.includeCycle (chain ++ [path]))
    else match l.surroundings.read path with
      | .error e => .error (.unreadable path e)
      | .ok text => l.loadText (l.loadChecking seen depth (chain ++ [path])) text path

/-- Whether a path is the same way as one of the chain. -/
def isAmong (chain : List Path) (path : Path) : Bool :=
  chain.any path.same

/-- A file is being loaded already when its path is the same way as one of the chain. -/
theorem loadWithin_eq (l : Loader) (depth : Nat) :
    l.loadWithin depth = l.loadChecking isAmong depth := by
  induction depth with
  | zero => rfl
  | succ depth ih =>
    funext chain path
    rw [loadWithin, ih]
    rfl

/-- The value of a file, when nothing keeps a file from being included in itself. -/
def unroll (l : Loader) (depth : Nat) (path : Path) : Except ConfigError Value :=
  l.loadChecking (fun _ _ => false) depth [] path

/-- It does not matter then which files are being loaded. -/
theorem unroll_eq (l : Loader) (depth : Nat) (chain : List Path) (path : Path) :
    l.unroll depth path = l.loadChecking (fun _ _ => false) depth chain path := by
  have key : ∀ (depth : Nat) (chain chain' : List Path),
      l.loadChecking (fun _ _ => false) depth chain =
        l.loadChecking (fun _ _ => false) depth chain' := by
    intro depth
    induction depth with
    | zero => exact fun _ _ => rfl
    | succ depth ih =>
      intro chain chain'
      funext path
      rw [loadChecking, loadChecking, ih (chain ++ [l.base.join path])]
      rfl
  exact congrFun (key depth [] chain) path

/-- A loader does what another does, at paths that are related.  Where it does not, the one on the
left has an error that is `L`, or the one on the right has one that is `R`. -/
structure Follows (l l' : Loader) (seen seen' : List Path → Path → Bool)
    (Related : Path → Path → Prop) (L R : ConfigError → Prop) : Prop where
  environment : l.surroundings.environment = l'.surroundings.environment
  checks {chain chain' : List Path} {p q : Path} (hchain : List.Forall₂ Related chain chain')
    (h : Related p q) : seen chain p = seen' chain' q ∨
      seen' chain' q = true ∧ R (.includeCycle (chain' ++ [q]))
  reads {p q : Path} (h : Related p q) :
    (∃ e, l.surroundings.read p = .error e ∧ L (.unreadable p e)) ∨
      ∀ text, l.surroundings.read p = .ok text ↔ l'.surroundings.read q = .ok text
  includes {p q : Path} {text : String} (h : Related p q) (ht : l.surroundings.read p = .ok text)
    (target : Path) :
    Related (l.base.join (l.includedPath p target)) (l'.base.join (l'.includedPath q target))

variable {l l' : Loader} {seen seen' : List Path → Path → Bool} {Related : Path → Path → Prop}
  {L R : ConfigError → Prop} {chain chain' : List Path} {p q : Path} {text : String} {m n : Nat}

/-- The values of a text match when included files do. -/
theorem loadText_matches {load load' : Path → Except ConfigError Value}
    (henv : l.surroundings.environment = l'.surroundings.environment)
    (hload : ∀ target,
      Matches L R (load (l.includedPath p target)) (load' (l'.includedPath q target))) :
    Matches L R (l.loadText load text p) (l'.loadText load' text q) := by
  unfold loadText
  split
  · exact resolve_matches henv hload _
  · exact .inr (.inr rfl)

/-- **Loaders that follow each other load the same**, as deep as they get. -/
theorem Follows.loads (h : Follows l l' seen seen' Related L R)
    (hd : m = n ∨ (∀ x, L (.includedTooDeep x)) ∧ ∀ x, R (.includedTooDeep x))
    (hchain : List.Forall₂ Related chain chain') (hp : Related (l.base.join p) (l'.base.join q)) :
    Matches L R (l.loadChecking seen m chain p) (l'.loadChecking seen' n chain' q) := by
  induction m generalizing n chain chain' p q with
  | zero =>
    cases n with
    | zero => exact .inr (.inr rfl)
    | succ n =>
      obtain hd | ⟨hd, -⟩ := hd
      · cases hd
      · exact .inl ⟨_, rfl, hd p⟩
  | succ m ih =>
    cases n with
    | zero =>
      obtain hd | ⟨-, hd⟩ := hd
      · cases hd
      · exact .inr (.inl ⟨_, rfl, hd q⟩)
    | succ n =>
      have hd' : m = n ∨ (∀ x, L (.includedTooDeep x)) ∧ ∀ x, R (.includedTooDeep x) :=
        hd.imp_left Nat.succ.inj
      simp only [loadChecking]
      obtain hseen | ⟨hseen, hR⟩ := h.checks hchain hp
      · rw [hseen]
        split
        · exact .inr (.inr rfl)
        · obtain ⟨e, he, hL⟩ | hread := h.reads hp
          · rw [he]
            exact .inl ⟨_, rfl, hL⟩
          · cases hl : l.surroundings.read (l.base.join p) with
            | error e =>
              cases hl' : l'.surroundings.read (l'.base.join q) with
              | error e' => exact .inr (.inr rfl)
              | ok text => cases hl.symm.trans ((hread text).mpr hl')
            | ok text =>
              rw [(hread text).mp hl]
              refine loadText_matches h.environment fun target => ?_
              exact ih hd' (List.rel_append hchain (.cons hp .nil)) (h.includes hp hl target)
      · rw [if_pos hseen]
        exact .inr (.inl ⟨_, rfl, hR⟩)

/-! ## 4. A loader beside itself -/

/-- Nothing but a cycle is found by looking for cycles. -/
theorem follows_isAmong (l : Loader) (hR : ∀ chain, R (.includeCycle chain)) :
    Follows l l (fun _ _ => false) isAmong Eq L R where
  environment := rfl
  checks {chain chain' p q} _ _ := by
    cases hq : isAmong chain' q with
    | false => exact .inl rfl
    | true => exact .inr ⟨rfl, hR _⟩
  reads h := .inr fun text => by rw [h]
  includes h _ target := by rw [h]

/-- **What is loaded is what is unrolled**, unless there is a cycle. -/
theorem unroll_matches (l : Loader) (hR : ∀ chain, R (.includeCycle chain))
    (hd : m = n ∨ (∀ x, L (.includedTooDeep x)) ∧ ∀ x, R (.includedTooDeep x)) :
    Matches L R (l.unroll m p) (l.loadWithin n chain p) := by
  rw [l.unroll_eq m chain, loadWithin_eq]
  exact (follows_isAmong l hR).loads hd (List.forall₂_refl _) rfl

end Loader

end DeviceScript
